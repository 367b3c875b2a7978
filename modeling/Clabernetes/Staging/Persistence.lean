import Clabernetes.Staging.Preparation

/-!
# Untouched files follow the plan

A planned file that the device has left alone since this program wrote it is republished by the next
run that completes, as long as the ledger on the volume records what was written there. A completed
run leaves such a ledger; one that fails does if the ledger already records the files it published.
-/

namespace Clabernetes.Staging

open Base Std Option ExtTreeMap GoMap

variable {digest : Bytes → String} {volume : NodeVolume} {artifact : Artifact} {s s' : RunState}
  {artifacts : List Artifact} {path : String} {cut : Nat}

/-- Every untouched file is there, and this ledger records its digest. -/
def Records (digest : Bytes → String) (volume : NodeVolume) (ledger : StagingLedger) : Prop :=
  ∀ (path : String) (entry : Entry), volume.staged[path]? = some entry →
    volume.files[path]? = some entry ∧ ledger.files[path]? = some (digest entry.bytes)

def Recorded (digest : Bytes → String) (volume : NodeVolume) : Prop :=
  Records digest volume (loadStagingLedger volume.ledger).1

@[simp] theorem bytes_entry (artifact : Artifact) : artifact.entry.bytes = artifact.content := by
  unfold Artifact.entry
  split <;> rfl

theorem publish_eq_ok {volume' : NodeVolume} (h : publish digest volume artifact = .ok volume') :
    digest artifact.content = artifact.digest ∧
      volume' = { volume with
        files := volume.files.insert artifact.path artifact.entry
        staged := volume.staged.insert artifact.path artifact.entry } := by
  unfold publish at h
  split at h
  · cases h
  · next hdigest =>
    split at h
    · cases h
    · cases h
      exact ⟨not_not.mp hdigest, rfl⟩

inductive Staged (digest : Bytes → String) (s : RunState) (artifact : Artifact) :
    RunState → Prop where
  | published (hdecision : shouldPublish digest s.state s.volume.files artifact = true)
      (hdigest : digest artifact.content = artifact.digest) :
      Staged digest s artifact
        { volume := { s.volume with
            files := s.volume.files.insert artifact.path artifact.entry
            staged := s.volume.staged.insert artifact.path artifact.entry }
          state := recordPublished s.state artifact.path artifact.digest
          published := s.published ++ [artifact] }
  | preserved (hdecision : shouldPublish digest s.state s.volume.files artifact = false) :
      Staged digest s artifact
        { s with state := { s.state with preserved := s.state.preserved.insert artifact.path () } }

theorem staged_of_stageArtifact (h : stageArtifact digest s artifact = .ok s') :
    Staged digest s artifact s' := by
  unfold stageArtifact at h
  split at h
  · cases h
  · split at h
    · next hdecision =>
      split at h
      · cases h
      · next volume hpublish =>
        cases h
        obtain ⟨hdigest, rfl⟩ := publish_eq_ok hpublish
        exact .published hdecision hdigest
    · next hdecision =>
      cases h
      exact .preserved (eq_false_of_ne_true hdecision)

theorem Staged.records (h : Staged digest s artifact s')
    (hrecords : Records digest s.volume s.state.ledger) :
    Records digest s'.volume s'.state.ledger := by
  cases h with
  | published hdecision hdigest =>
    intro path entry hentry
    simp only [recordPublished, lookup_insert] at hentry ⊢
    split at hentry
    · next hpath =>
      cases hentry
      subst hpath
      simp [hdigest]
    · next hpath =>
      rw [if_neg hpath, if_neg hpath]
      exact hrecords path entry hentry
  | preserved => exact hrecords

structure PathView where
  file : Option Entry
  staged : Option Entry
  recorded : Option String
  preserved : Bool

def RunState.view (s : RunState) (path : String) : PathView where
  file := s.volume.files[path]?
  staged := s.volume.staged[path]?
  recorded := s.state.ledger.files[path]?
  preserved := s.state.preserved.contains path

theorem Staged.view_eq (h : Staged digest s artifact s') (hne : artifact.path ≠ path) :
    s'.view path = s.view path := by
  cases h with
  | published =>
    simp [RunState.view, recordPublished, lookup_insert, hne, contains_erase]
  | preserved => simp [RunState.view, contains_insert, hne]

def comparable (kind : ArtifactKind) (entry : Entry) : Bool :=
  match kind, entry with
  | .artifactRegular, .regular _ true => true
  | .artifactSymlink, .symlink _ => true
  | _, _ => false

theorem destinationContentDigest_of_comparable {kind : ArtifactKind} {entry : Entry}
    (h : comparable kind entry = true) :
    destinationContentDigest digest entry kind = some (digest entry.bytes) := by
  unfold comparable at h
  split at h
  · rfl
  · rfl
  · cases h

theorem shouldPublish_untouched {state : NodeStagingState} {files : GoMap String Entry}
    (h : ∀ entry, files[artifact.path]? = some entry →
      comparable artifact.kind entry = true ∧
        state.ledger.files[artifact.path]? = some (digest entry.bytes)) :
    shouldPublish digest state files artifact = true := by
  unfold shouldPublish
  split
  · rfl
  · cases hfile : files[artifact.path]? with
    | none => rfl
    | some entry =>
      obtain ⟨hcomparable, hrecorded⟩ := h entry hfile
      simp [destinationContentDigest_of_comparable hcomparable, hrecorded]

theorem performAll_stage_view (hne : ∀ artifact ∈ artifacts, artifact.path ≠ path)
    (h : performAll (perform digest) s (artifacts.map .stage) = .ok s') :
    s'.view path = s.view path := by
  refine performAll_invariant (P := fun t => t.view path = s.view path) rfl ?_ h
  intro t effect t' hmem ht hperform
  obtain ⟨artifact, hartifact, rfl⟩ := List.mem_map.mp hmem
  rw [← ht]
  exact (staged_of_stageArtifact hperform).view_eq (hne artifact hartifact)

theorem performAll_stage_records (hrecords : Records digest s.volume s.state.ledger)
    (h : performAll (perform digest) s (artifacts.map .stage) = .ok s') :
    Records digest s'.volume s'.state.ledger := by
  refine performAll_invariant (P := fun t => Records digest t.volume t.state.ledger) hrecords ?_ h
  intro t effect t' hmem ht hperform
  obtain ⟨artifact, -, rfl⟩ := List.mem_map.mp hmem
  exact (staged_of_stageArtifact hperform).records ht

theorem performAll_stage_publishes (hrecords : Records digest s.volume s.state.ledger)
    (hpaths : (artifacts.map Artifact.path).Nodup)
    (h : performAll (perform digest) s (artifacts.map .stage) = .ok s')
    (hmem : artifact ∈ artifacts) (hfile : ∀ entry, s.volume.files[artifact.path]? = some entry →
      s.volume.staged[artifact.path]? = some entry ∧ comparable artifact.kind entry = true) :
    s'.volume.files[artifact.path]? = some artifact.entry ∧
      s'.state.preserved.contains artifact.path = false := by
  obtain ⟨before, after, rfl⟩ := List.append_of_mem hmem
  rw [List.map_append, List.map_cons] at h
  obtain ⟨s₁, hbefore, h⟩ := performAll_append_eq_ok.mp h
  obtain ⟨s₂, hstage, hafter⟩ := performAll_cons_eq_ok.mp h
  -- no other artifact of the run has this path
  have hothers : ∀ other, other ∈ before ∨ other ∈ after → other.path ≠ artifact.path :=
    fun other hother => key_ne_of_nodup_middle hpaths (List.mem_append.mpr hother)
  have hview₁ := performAll_stage_view (fun other hother => hothers other (.inl hother)) hbefore
  have hview₂ := performAll_stage_view (fun other hother => hothers other (.inr hother)) hafter
  have hstaged := staged_of_stageArtifact hstage
  have hpublish : shouldPublish digest s₁.state s₁.volume.files artifact = true := by
    apply shouldPublish_untouched
    intro entry hentry
    have hentry' : s.volume.files[artifact.path]? = some entry :=
      (congrArg PathView.file hview₁).symm.trans hentry
    obtain ⟨hsame, hcomparable⟩ := hfile entry hentry'
    exact ⟨hcomparable,
      (congrArg PathView.recorded hview₁).trans (hrecords artifact.path entry hsame).2⟩
  cases hstaged with
  | published _ hdigest =>
    refine ⟨(congrArg PathView.file hview₂).trans ?_, (congrArg PathView.preserved hview₂).trans ?_⟩
    · simp [RunState.view]
    · simp [RunState.view, recordPublished]
  | preserved hdecision =>
    rw [hpublish] at hdecision
    cases hdecision

theorem performAll_remove {paths : List String}
    (h : performAll (perform digest) s (paths.map .remove) = .ok s') : s'.state = s.state ∧
      (∀ path, s'.volume.files[path]? = if path ∈ paths then none else s.volume.files[path]?) ∧
      (∀ path, s'.volume.staged[path]? =
        if path ∈ paths then none else s.volume.staged[path]?) := by
  induction paths generalizing s with
  | nil =>
    cases h
    simp
  | cons first rest ih =>
    obtain ⟨next, hnext, h⟩ := performAll_cons_eq_ok.mp h
    cases hnext
    obtain ⟨hstate, hfiles, hstaged⟩ := ih h
    refine ⟨hstate, fun path => ?_, fun path => ?_⟩
    · rw [hfiles, lookup_erase]
      by_cases hrest : path ∈ rest <;> by_cases hfirst : first = path <;>
        simp [hrest, hfirst, eq_comm]
    · rw [hstaged, lookup_erase]
      by_cases hrest : path ∈ rest <;> by_cases hfirst : first = path <;>
        simp [hrest, hfirst, eq_comm]

theorem performAll_wipe {ledger : StagingLedger} (hrecords : Records digest s.volume ledger)
    (h : performAll (perform digest) s (Preparation.wipe s.volume) = .ok s') :
    s'.state = s.state ∧ (∀ path : String, s'.volume.files[path]? = none) ∧
      ∀ path : String, s'.volume.staged[path]? = none := by
  obtain ⟨s₁, hfirst, h⟩ := performAll_append_eq_ok.mp h
  obtain ⟨s₂, hledger, hsecond⟩ := performAll_cons_eq_ok.mp h
  cases hledger
  obtain ⟨hstate₁, hfiles₁, hstaged₁⟩ := performAll_remove hfirst
  obtain ⟨hstate₂, hfiles₂, hstaged₂⟩ := performAll_remove hsecond
  have hkeys : ∀ path : String, path ∉ s.volume.files.keys → s.volume.files[path]? = none := by
    intro path hpath
    rw [mem_keys] at hpath
    exact getElem?_eq_none hpath
  have hremoved : ∀ (path : String) (before : Option Entry), path ∈ s.volume.files.keys →
      (if path ∈ s.volume.files.keys.filter (fun path => !(path < stagingLedgerName)) then none
        else if path ∈ s.volume.files.keys.filter (· < stagingLedgerName) then none else before) =
        none := by
    intro path before hmem
    cases hlt : decide (path < stagingLedgerName) with
    | true =>
      have hfirst : path ∈ s.volume.files.keys.filter (· < stagingLedgerName) :=
        List.mem_filter.mpr ⟨hmem, hlt⟩
      rw [if_pos hfirst, ite_self]
    | false => rw [if_pos (List.mem_filter.mpr ⟨hmem, by rw [hlt]; rfl⟩)]
  refine ⟨hstate₂.trans hstate₁, fun path => ?_, fun path => ?_⟩
  · rw [hfiles₂, hfiles₁]
    by_cases hmem : path ∈ s.volume.files.keys
    · exact hremoved path _ hmem
    · rw [hkeys path hmem, ite_self, ite_self]
  · rw [hstaged₂, hstaged₁]
    cases hstaged : s.volume.staged[path]? with
    | none => rw [ite_self, ite_self]
    | some entry =>
      -- what is staged is on the volume, so the wipe has removed it
      have hfile := (hrecords path entry hstaged).1
      refine hremoved path _ ?_
      by_contra hmem
      rw [hkeys path hmem] at hfile
      cases hfile

theorem performAll_opening {run : Preparation} (hrecorded : Recorded digest volume)
    (h : performAll (perform digest) (run.start volume)
      (if run.resets volume then Preparation.wipe volume else []) = .ok s) :
    Records digest s.volume s.state.ledger ∧
      ∀ path : String, s.volume.files[path]? = none ∨
        s.volume.files[path]? = volume.files[path]? ∧
          s.volume.staged[path]? = volume.staged[path]? := by
  have hstart : Records digest (run.start volume).volume (loadStagingLedger volume.ledger).1 :=
    hrecorded
  split at h
  · obtain ⟨-, hfiles, hstaged⟩ := performAll_wipe hstart h
    refine ⟨fun path entry hentry => ?_, fun path => .inl (hfiles path)⟩
    rw [hstaged path] at hentry
    cases hentry
  · next hresets =>
    cases h
    refine ⟨?_, fun path => .inr ⟨rfl, rfl⟩⟩
    rw [Preparation.start, if_neg hresets]
    exact hstart

theorem prepare_flushed {run : Preparation} (h : (prepare digest volume run cut).2 = true) :
    ∃ s₁ s₂ : RunState,
      performAll (perform digest) (run.start volume)
        (if run.resets volume then Preparation.wipe volume else []) = .ok s₁ ∧
      performAll (perform digest) s₁ (run.artifacts.map .stage) = .ok s₂ ∧
      (prepare digest volume run cut).1 =
        { s₂ with volume := { s₂.volume with
            ledger :=
              .recorded { s₂.state.ledger with preserved := s₂.state.preserved.keys } } } := by
  have hall := performAll_of_completed h
  rw [← prepare, Preparation.effects] at hall
  obtain ⟨s₁, hopening, hall⟩ := performAll_append_eq_ok.mp hall
  obtain ⟨s₂, hstage, hflush⟩ := performAll_append_eq_ok.mp hall
  obtain ⟨s₃, htruncate, hwrite⟩ := performAll_cons_eq_ok.mp hflush
  obtain ⟨s₄, hwrite, hdone⟩ := performAll_cons_eq_ok.mp hwrite
  cases htruncate
  cases hwrite
  rw [performAll_nil, Except.ok.injEq] at hdone
  exact ⟨s₁, s₂, hopening, hstage, hdone.symm⟩

section

variable (hrecorded : Recorded digest volume)

include hrecorded

/-- A completed run stages the plan on a volume that the ledger in memory describes, and writes
that ledger. -/
theorem prepare_completed {run : Preparation} (h : (prepare digest volume run cut).2 = true) :
    ∃ s₁ s₂ : RunState, Records digest s₁.volume s₁.state.ledger ∧
      (∀ path : String, s₁.volume.files[path]? = none ∨
        s₁.volume.files[path]? = volume.files[path]? ∧
          s₁.volume.staged[path]? = volume.staged[path]?) ∧
      performAll (perform digest) s₁ (run.artifacts.map .stage) = .ok s₂ ∧
      (prepare digest volume run cut).1.volume =
        { s₂.volume with
          ledger := .recorded { s₂.state.ledger with preserved := s₂.state.preserved.keys } } := by
  obtain ⟨s₁, s₂, hopening, hstage, hdone⟩ := prepare_flushed h
  obtain ⟨hrecords, hfiles⟩ := performAll_opening hrecorded hopening
  exact ⟨s₁, s₂, hrecords, hfiles, hstage, by rw [hdone]⟩

theorem recorded_of_completed {run : Preparation} (h : (prepare digest volume run cut).2 = true) :
    Recorded digest (prepare digest volume run cut).1.volume := by
  obtain ⟨s₁, s₂, hrecords, -, hstage, hvolume⟩ := prepare_completed hrecorded h
  rw [hvolume]
  exact performAll_stage_records hrecords hstage

theorem published_of_completed {run : Preparation} (h : (prepare digest volume run cut).2 = true)
    (hpaths : (run.artifacts.map Artifact.path).Nodup) (hmem : artifact ∈ run.artifacts)
    (hfile : ∀ entry, volume.files[artifact.path]? = some entry →
      volume.staged[artifact.path]? = some entry ∧ comparable artifact.kind entry = true) :
    (prepare digest volume run cut).1.volume.files[artifact.path]? = some artifact.entry ∧
      preservedDeviceArtifact (prepare digest volume run cut).1.volume artifact.path = false := by
  obtain ⟨s₁, s₂, hrecords, hfiles, hstage, hvolume⟩ := prepare_completed hrecorded h
  obtain ⟨hpublished, hnot⟩ := performAll_stage_publishes hrecords hpaths hstage hmem (by
    intro entry hentry
    obtain hnone | ⟨hsame, hsame'⟩ := hfiles artifact.path
    · rw [hnone] at hentry
      cases hentry
    · rw [hsame'] at *
      exact hfile entry (hsame ▸ hentry))
  rw [hvolume]
  refine ⟨hpublished, ?_⟩
  have hkeys : artifact.path ∉ s₂.state.preserved.keys := by
    rw [mem_keys, mem_iff_contains, hnot]
    decide
  simpa [preservedDeviceArtifact, loadStagingLedger] using hkeys

end

/-- The run fails before it touches the ledger, and what it published the ledger on the volume
already records. -/
def Harmless (digest : Bytes → String) (volume : NodeVolume) (run : Preparation) (cut : Nat) :
    Prop :=
  run.resets volume = false ∧ cut ≤ run.artifacts.length ∧
    ∀ artifact ∈ (prepare digest volume run cut).1.published,
      (loadStagingLedger volume.ledger).1.files[artifact.path]? = some artifact.digest

structure Interrupted (digest : Bytes → String) (volume : NodeVolume) (s : RunState) : Prop where
  ledger : s.volume.ledger = volume.ledger
  staged : ∀ (path : String) (entry : Entry), s.volume.staged[path]? = some entry →
    s.volume.files[path]? = some entry ∧
      (volume.staged[path]? = some entry ∨
        ∃ artifact ∈ s.published, artifact.path = path ∧ artifact.digest = digest entry.bytes)

theorem Staged.interrupted (h : Staged digest s artifact s') (hs : Interrupted digest volume s) :
    Interrupted digest volume s' := by
  cases h with
  | published hdecision hdigest =>
    refine ⟨hs.ledger, fun path entry hentry => ?_⟩
    simp only [lookup_insert] at hentry ⊢
    split at hentry
    · next hpath =>
      cases hentry
      exact ⟨if_pos hpath, .inr ⟨artifact, by simp, hpath, by rw [bytes_entry, hdigest]⟩⟩
    · next hpath =>
      obtain ⟨hfile, horigin⟩ := hs.staged path entry hentry
      refine ⟨by rw [if_neg hpath, hfile], horigin.imp_right ?_⟩
      rintro ⟨other, hother, hrest⟩
      exact ⟨other, List.mem_append_left _ hother, hrest⟩
  | preserved => exact ⟨hs.ledger, hs.staged⟩

theorem recorded_of_harmless {run : Preparation} (hrecorded : Recorded digest volume)
    (h : Harmless digest volume run cut) :
    Recorded digest (prepare digest volume run cut).1.volume := by
  obtain ⟨hresets, hcut, hpublished⟩ := h
  have hstages : (prepare digest volume run cut).1 =
      (attempt (perform digest) cut (run.start volume) (run.artifacts.map .stage)).1 := by
    have hlength : cut ≤ (run.artifacts.map Effect.stage).length := by simpa using hcut
    rw [prepare, Preparation.effects, hresets]
    exact attempt_append_of_le hlength _ _
  have hinterrupted : Interrupted digest volume (prepare digest volume run cut).1 := by
    rw [hstages]
    refine attempt_invariant (P := Interrupted digest volume) ?_ ?_ cut
    · exact ⟨rfl, fun path entry hentry => ⟨(hrecorded path entry hentry).1, .inl hentry⟩⟩
    · intro s effect s' hmem hs hperform
      obtain ⟨artifact, -, rfl⟩ := List.mem_map.mp hmem
      exact (staged_of_stageArtifact hperform).interrupted hs
  intro path entry hentry
  obtain ⟨hfile, horigin⟩ := hinterrupted.staged path entry hentry
  refine ⟨hfile, ?_⟩
  rw [hinterrupted.ledger]
  obtain hbefore | ⟨artifact, hartifact, rfl, hdigest⟩ := horigin
  · exact (hrecorded path entry hbefore).2
  · rw [← hdigest]
    exact hpublished artifact hartifact

def Sound (digest : Bytes → String) (volume : NodeVolume) : Happening → Prop
  | .prepare plan cut => (prepare digest volume plan cut).2 = true ∨ Harmless digest volume plan cut
  | .deviceWrites _ _ => True

theorem recorded_deviceWrites {volume' : NodeVolume} {entry : Option Entry}
    (hrecorded : Recorded digest volume)
    (h : step digest volume (.deviceWrites path entry) = some volume') :
    Recorded digest volume' := by
  cases h
  intro other staged hstaged
  simp only [lookup_erase] at hstaged
  split at hstaged
  · cases hstaged
  · next hne =>
    obtain ⟨hfile, hledger⟩ := hrecorded other staged hstaged
    refine ⟨?_, hledger⟩
    cases entry <;> simp [lookup_erase, lookup_insert, hne, hfile]

theorem recorded_run {initial : NodeVolume} (hinitial : initial.staged = ∅)
    {events : List Happening} (hsound : RunMeets (step digest) initial (Sound digest) events)
    (h : run (step digest) initial events = some volume) : Recorded digest volume := by
  refine run_invariant (P := fun _ volume => Recorded digest volume) ?_ ?_ events volume hsound h
  · intro path entry hentry
    rw [hinitial] at hentry
    simp at hentry
  · intro _ volume event volume' _ hrecorded hallowed hstep
    cases event with
    | prepare plan cut =>
      cases hstep
      obtain hcompleted | hharmless := hallowed
      · exact recorded_of_completed hrecorded hcompleted
      · exact recorded_of_harmless hrecorded hharmless
    | deviceWrites path entry => exact recorded_deviceWrites hrecorded hstep

/-- If no run fails with something published that the ledger does not record, a completed run leaves
the plan's bytes at every planned path that the device has not modified. -/
theorem untouched_follow_plan (digest : Bytes → String) (initial : NodeVolume)
    (hinitial : initial.staged = ∅) (events : List Happening) (volume : NodeVolume)
    (hsound : RunMeets (step digest) initial (Sound digest) events)
    (h : run (step digest) initial events = some volume) (plan : Preparation) (cut : Nat)
    (hcompleted : (prepare digest volume plan cut).2 = true)
    (hpaths : (plan.artifacts.map Artifact.path).Nodup)
    (hcomparable : ∀ artifact ∈ plan.artifacts, ∀ entry,
      volume.staged[artifact.path]? = some entry → comparable artifact.kind entry = true) :
    ∀ artifact ∈ plan.artifacts,
      (volume.files[artifact.path]? = none ∨
        volume.files[artifact.path]? = volume.staged[artifact.path]?) →
      (prepare digest volume plan cut).1.volume.files[artifact.path]? = some artifact.entry ∧
        preservedDeviceArtifact (prepare digest volume plan cut).1.volume artifact.path =
          false := by
  intro artifact hmem huntouched
  refine published_of_completed (recorded_run hinitial hsound h) hcompleted hpaths hmem ?_
  intro entry hentry
  obtain hnone | hstaged := huntouched
  · rw [hnone] at hentry
    cases hentry
  · rw [hstaged] at hentry
    exact ⟨hentry, hcomparable artifact hmem entry hentry⟩

def plainDigest (bytes : Bytes) : String :=
  "sha256:" ++ String.ofList (bytes.map fun b => Char.ofNat b.toNat)

def planOf (content : Bytes) : Preparation where
  artifacts :=
    [{ source := .generated, kind := .artifactRegular, path := "config", content
       digest := plainDigest content }]

instance (digest : Bytes → String) (volume : NodeVolume) (plan : Preparation) (cut : Nat) :
    Decidable (Harmless digest volume plan cut) := inferInstanceAs (Decidable (_ ∧ _ ∧ _))

/-- A completed run, a device write elsewhere, and two runs that fail, one of them after it has
published the same file again. -/
def harmlessFailures : List Happening :=
  [.prepare (planOf [1]) 3, .deviceWrites "saved" (some (.regular [7] true)),
    .prepare (planOf [2]) 0, .prepare (planOf [1]) 1]

theorem runMeets_harmlessFailures :
    RunMeets (step plainDigest) {} (Sound plainDigest) harmlessFailures := by
  refine runMeets_cons (.inl (by decide +kernel)) fun s₁ h₁ => ?_
  cases h₁
  refine runMeets_cons trivial fun s₂ h₂ => ?_
  cases h₂
  refine runMeets_cons (.inr (by decide +kernel)) fun s₃ h₃ => ?_
  cases h₃
  refine runMeets_cons (.inr (by decide +kernel)) fun s₄ h₄ => ?_
  exact runMeets_nil

theorem untouched_follow_changed_plan : ∃ volume,
    run (step plainDigest) {} harmlessFailures = some volume ∧
      volume.files["config"]? = volume.staged["config"]? ∧
      (prepare plainDigest volume (planOf [2]) 3).1.volume.files["config"]? =
        some (.regular [2] true) ∧
      preservedDeviceArtifact (prepare plainDigest volume (planOf [2]) 3).1.volume "config" =
        false := by
  obtain ⟨volume, hrun, hcompleted, hfile, hstaged⟩ : ∃ volume,
      run (step plainDigest) {} harmlessFailures = some volume ∧
        (prepare plainDigest volume (planOf [2]) 3).2 = true ∧
        volume.files["config"]? = some (.regular [1] true) ∧
        volume.staged["config"]? = some (.regular [1] true) := by
    decide +kernel
  refine ⟨volume, hrun, hfile.trans hstaged.symm, ?_⟩
  refine untouched_follow_plan plainDigest {} rfl harmlessFailures volume runMeets_harmlessFailures
    hrun (planOf [2]) 3 hcompleted (by decide) ?_ _ List.mem_cons_self
    (.inr (hfile.trans hstaged.symm))
  intro artifact hmem entry hentry
  rw [planOf, List.mem_singleton] at hmem
  subst hmem
  rw [hstaged, some.injEq] at hentry
  subst hentry
  rfl

/-- The plan changes, and the run that publishes the new file fails before the ledger. -/
def failedAfterPublishing : List Happening := [.prepare (planOf [1]) 3, .prepare (planOf [2]) 1]

def failedInLedger : List Happening := [.prepare (planOf [1]) 3, .prepare (planOf [1]) 2]

def linkPlan : Preparation where
  artifacts :=
    [{ source := .generated, kind := .artifactSymlink, path := "config", content := [3]
       digest := plainDigest [3] }]

/-- The device has written nothing, and yet a completed run leaves the path as it is and reports
it as preserved. -/
def Frozen (events : List Happening) (plan : Preparation) (path : String) : Prop :=
  ∃ volume, run (step plainDigest) {} events = some volume ∧
    volume.files[path]? = volume.staged[path]? ∧
    (prepare plainDigest volume plan 3).2 = true ∧
    (∀ artifact ∈ plan.artifacts,
      (prepare plainDigest volume plan 3).1.volume.files[path]? ≠ some artifact.entry) ∧
    preservedDeviceArtifact (prepare plainDigest volume plan 3).1.volume path = true

/-- A run freezes what a failed run published, what a failed run lost the record of, and what
changes its kind. -/
theorem untouched_frozen :
    Frozen failedAfterPublishing (planOf [3]) "config" ∧
      Frozen failedInLedger (planOf [3]) "config" ∧
      Frozen [.prepare (planOf [1]) 3] linkPlan "config" := by
  unfold Frozen
  refine ⟨?_, ?_, ?_⟩ <;> decide +kernel

end Clabernetes.Staging
