import Clabernetes.Staging.Persistence

/-!
# What the device wrote stays

The other half of the policy of `staging_policy.go:82-137`: a file whose content is not what was
last staged at its path belongs to the device, and a run that does not enforce its files and honours
no reset leaves it alone. A reset token is compared with the one honoured last, so it wipes again
once another token has been honoured in between.
-/

namespace Clabernetes.Staging

open Base Std List

variable {digest : Bytes → String} {plan : Preparation} {volume : NodeVolume}
  {artifacts : List Artifact} {artifact : Artifact} {s s' : RunState} {entry : Entry} {cut : Nat}
  {last : GoMap String Entry} {events : List Happening} {initial : NodeVolume} {path : String}

/-- A volume, and what was last staged at each path. Unlike `NodeVolume.staged` this outlives
device writes and resets. -/
structure Tracked where
  volume : NodeVolume
  last : GoMap String Entry := ∅

/-- What was last staged once these artifacts have been published in turn. -/
def lastStaged (last : GoMap String Entry) (published : List Artifact) : GoMap String Entry :=
  published.foldl (fun last artifact => last.insert artifact.path artifact.entry) last

theorem lastStaged_append_singleton (last : GoMap String Entry) (published : List Artifact)
    (artifact : Artifact) : lastStaged last (published ++ [artifact]) =
      (lastStaged last published).insert artifact.path artifact.entry := by
  simp [lastStaged]

def Tracked.step (digest : Bytes → String) (t : Tracked) : Happening → Option Tracked
  | .prepare plan cut =>
    let outcome := (prepare digest t.volume plan cut).1
    some { volume := outcome.volume, last := lastStaged t.last outcome.published }
  | .deviceWrites path entry =>
    (Staging.step digest t.volume (.deviceWrites path entry)).map fun volume => { t with volume }

def Completes (digest : Bytes → String) (t : Tracked) : Happening → Prop
  | .prepare plan cut => (prepare digest t.volume plan cut).2 = true
  | .deviceWrites _ _ => True

/-- A file that does not hold what was staged: it is no file any more, or has other bytes. -/
def Entry.DiffersFrom (entry staged : Entry) : Prop := entry = .other ∨ entry.bytes ≠ staged.bytes

def Entry.SameContent : Entry → Entry → Prop
  | .regular content _, .regular content' _ => content = content'
  | .symlink target, .symlink target' => target = target'
  | .other, .other => True
  | _, _ => False

theorem Entry.sameContent_refl (entry : Entry) : entry.SameContent entry := by
  cases entry <;> simp [SameContent]

/-- What the ledger records at a path is the digest of what was last staged there. -/
def Dated (digest : Bytes → String) (last : GoMap String Entry) (ledger : StagingLedger) : Prop :=
  ∀ (path : String) (entry : Entry), last[path]? = some entry →
    ∀ recorded, ledger.files[path]? = some recorded → recorded = digest entry.bytes

theorem Staged.dated (h : Staged digest s artifact s')
    (hdated : Dated digest (lastStaged last s.published) s.state.ledger) :
    Dated digest (lastStaged last s'.published) s'.state.ledger := by
  cases h with
  | published hdecision hdigest =>
    intro path entry hentry recorded hrecorded
    simp only [lastStaged_append_singleton, recordPublished, GoMap.lookup_insert]
      at hentry hrecorded
    split at hentry
    · next hpath =>
      rw [if_pos hpath, Option.some.injEq] at hrecorded
      cases hentry
      rw [bytes_entry, hdigest, hrecorded]
    · next hpath =>
      rw [if_neg hpath] at hrecorded
      exact hdated path entry hentry recorded hrecorded
  | preserved => exact hdated

theorem performAll_opening_state (h : performAll (perform digest) (plan.start volume)
      (if plan.resets volume then Preparation.wipe volume else []) = .ok s) :
    s.state = (plan.start volume).state ∧ s.published = [] := by
  refine performAll_invariant
    (P := fun s => s.state = (plan.start volume).state ∧ s.published = []) ⟨rfl, rfl⟩ ?_ h
  intro s effect s' hmem hs hperform
  split at hmem
  · -- a wipe only removes
    simp only [Preparation.wipe, mem_append, mem_cons, mem_map] at hmem
    rcases hmem with ⟨path, -, rfl⟩ | rfl | ⟨path, -, rfl⟩ <;> cases hperform <;> exact hs
  · cases hmem

variable {t : Tracked}

theorem dated_start (plan : Preparation)
    (hdated : Dated digest t.last (loadStagingLedger t.volume.ledger).1) :
    Dated digest t.last (plan.start t.volume).state.ledger := by
  unfold Preparation.start
  split
  · intro path entry _ recorded hrecorded
    simp at hrecorded
  · exact hdated

theorem performAll_stage_dated (hdated : Dated digest (lastStaged last s.published) s.state.ledger)
    (h : performAll (perform digest) s (artifacts.map .stage) = .ok s') :
    Dated digest (lastStaged last s'.published) s'.state.ledger := by
  refine performAll_invariant
    (P := fun s => Dated digest (lastStaged last s.published) s.state.ledger) hdated ?_ h
  intro t effect t' hmem ht hperform
  obtain ⟨artifact, -, rfl⟩ := mem_map.mp hmem
  exact (staged_of_stageArtifact hperform).dated ht

theorem dated_of_completed (hdated : Dated digest t.last (loadStagingLedger t.volume.ledger).1)
    (h : (prepare digest t.volume plan cut).2 = true) :
    Dated digest (lastStaged t.last (prepare digest t.volume plan cut).1.published)
      (loadStagingLedger (prepare digest t.volume plan cut).1.volume.ledger).1 := by
  obtain ⟨s₁, s₂, hopening, hstage, hdone⟩ := prepare_flushed h
  obtain ⟨hstate, hpublished⟩ := performAll_opening_state hopening
  have hstart : Dated digest (lastStaged t.last s₁.published) s₁.state.ledger := by
    rw [hstate, hpublished]
    exact dated_start plan hdated
  have hledger := performAll_stage_dated hstart hstage
  rw [hdone]
  exact hledger

theorem dated_run
    (hcompletes : RunMeets (Tracked.step digest) { volume := initial } (Completes digest) events)
    (h : run (Tracked.step digest) { volume := initial } events = some t) :
    Dated digest t.last (loadStagingLedger t.volume.ledger).1 := by
  refine run_invariant
    (P := fun _ t => Dated digest t.last (loadStagingLedger t.volume.ledger).1) ?_ ?_ events t
    hcompletes h
  · intro path entry hentry
    simp at hentry
  · intro _ t event t' _ hdated hallowed hstep
    cases event with
    | prepare plan cut =>
      cases hstep
      exact dated_of_completed hdated hallowed
    | deviceWrites path entry =>
      cases hstep
      exact hdated

/-- The run decides by comparing contents. -/
def Compares (s : RunState) : Prop := s.state.persistent = true ∧ s.state.enforce = false

/-- The ledger does not take the entry for something that was staged. -/
def Foreign (digest : Bytes → String) (s : RunState) (path : String) (entry : Entry) : Prop :=
  entry = .other ∨ s.state.ledger.files[path]? ≠ some (digest entry.bytes)

theorem Staged.compares (h : Staged digest s artifact s') (hs : Compares s) : Compares s' := by
  cases h <;> exact hs

theorem destinationContentDigest_eq_some {kind : ArtifactKind} {current : String}
    (h : destinationContentDigest digest entry kind = some current) :
    comparable kind entry = true ∧ current = digest entry.bytes := by
  unfold destinationContentDigest at h
  split at h
  · cases h
    exact ⟨rfl, rfl⟩
  · cases h
    exact ⟨rfl, rfl⟩
  · cases h

theorem sameContent_of_comparable (hcomparable : comparable artifact.kind entry = true)
    (hbytes : artifact.content = entry.bytes) : artifact.entry.SameContent entry := by
  unfold comparable at hcomparable
  unfold Artifact.entry
  split at hcomparable
  · next hkind =>
    rw [hkind]
    exact hbytes
  · next hkind =>
    rw [hkind]
    exact hbytes
  · cases hcomparable

theorem Staged.keeps_foreign (h : Staged digest s artifact s') (hdigest : Function.Injective digest)
    (hs : Compares s) (hfile : s.volume.files[artifact.path]? = some entry)
    (hforeign : Foreign digest s artifact.path entry) :
    ∃ entry', s'.volume.files[artifact.path]? = some entry' ∧ entry'.SameContent entry := by
  cases h with
  | preserved => exact ⟨entry, hfile, entry.sameContent_refl⟩
  | published hdecision haccepted =>
    refine ⟨artifact.entry, by simp, ?_⟩
    simp only [shouldPublish, hs.1, hs.2, hfile, Bool.not_true, Bool.or_self, Bool.false_eq_true,
      if_false] at hdecision
    cases hcurrent : destinationContentDigest digest entry artifact.kind with
    | none =>
      rw [hcurrent] at hdecision
      cases hdecision
    | some current =>
      obtain ⟨hcomparable, rfl⟩ := destinationContentDigest_eq_some hcurrent
      simp only [hcurrent] at hdecision
      cases hrecorded : s.state.ledger.files[artifact.path]? with
      | none =>
        simp only [hrecorded, beq_iff_eq, ← haccepted] at hdecision
        exact sameContent_of_comparable hcomparable (hdigest hdecision).symm
      | some recorded =>
        -- a recorded digest is that of a staged file, which this is not
        simp only [hrecorded, beq_iff_eq] at hdecision
        rcases hforeign with rfl | hne
        · cases hkind : artifact.kind <;> rw [hkind] at hcomparable <;> cases hcomparable
        · rw [hrecorded, hdecision] at hne
          exact absurd rfl hne

theorem performAll_stage_keeps (hdigest : Function.Injective digest) (hs : Compares s)
    (hpaths : (artifacts.map Artifact.path).Nodup) (hfile : s.volume.files[path]? = some entry)
    (hforeign : Foreign digest s path entry)
    (h : performAll (perform digest) s (artifacts.map .stage) = .ok s') :
    ∃ entry', s'.volume.files[path]? = some entry' ∧ entry'.SameContent entry := by
  induction artifacts generalizing s with
  | nil =>
    cases h
    exact ⟨entry, hfile, entry.sameContent_refl⟩
  | cons artifact rest ih =>
    obtain ⟨next, hstage, h⟩ := performAll_cons_eq_ok.mp h
    have hstaged := staged_of_stageArtifact hstage
    rw [map_cons, nodup_cons] at hpaths
    by_cases hpath : artifact.path = path
    · subst hpath
      obtain ⟨entry', hentry', hsame⟩ := hstaged.keeps_foreign hdigest hs hfile hforeign
      -- the rest of the plan has other paths
      have hothers : ∀ other ∈ rest, other.path ≠ artifact.path := fun other hother heq =>
        hpaths.1 (heq ▸ mem_map_of_mem hother)
      have hview := performAll_stage_view hothers h
      exact ⟨entry', (congrArg PathView.file hview).trans hentry', hsame⟩
    · have hview := hstaged.view_eq hpath
      have hrecorded : next.state.ledger.files[path]? = s.state.ledger.files[path]? :=
        congrArg PathView.recorded hview
      apply ih (hstaged.compares hs) hpaths.2 ((congrArg PathView.file hview).trans hfile) _ h
      exact hforeign.imp_right fun hne => hrecorded ▸ hne

/-- The token most recently honoured, as the ledger on the volume has it. -/
def acknowledged (volume : NodeVolume) : String :=
  (loadStagingLedger volume.ledger).1.acknowledgedResetToken

theorem performAll_stage_token (h : performAll (perform digest) s (artifacts.map .stage) = .ok s') :
    s'.state.ledger.acknowledgedResetToken = s.state.ledger.acknowledgedResetToken := by
  refine performAll_invariant (P := fun t => t.state.ledger.acknowledgedResetToken =
    s.state.ledger.acknowledgedResetToken) rfl ?_ h
  intro t effect t' hmem ht hperform
  obtain ⟨artifact, -, rfl⟩ := mem_map.mp hmem
  cases staged_of_stageArtifact hperform <;> exact ht

theorem acknowledged_of_completed (h : (prepare digest volume plan cut).2 = true) :
    acknowledged (prepare digest volume plan cut).1.volume =
      if plan.resets volume then plan.resetToken else acknowledged volume := by
  obtain ⟨s₁, s₂, hopening, hstage, hdone⟩ := prepare_flushed h
  have hstart := (performAll_opening_state hopening).1
  rw [hdone]
  calc s₂.state.ledger.acknowledgedResetToken
      = s₁.state.ledger.acknowledgedResetToken := performAll_stage_token hstage
    _ = (plan.start volume).state.ledger.acknowledgedResetToken := by rw [hstart]
    _ = if plan.resets volume then plan.resetToken else acknowledged volume := by
      unfold Preparation.start
      split <;> rfl

theorem resets_eq_false_iff : plan.resets volume = false ↔
      plan.resetToken = "" ∨ plan.resetToken = acknowledged volume := by
  simp [Preparation.resets, acknowledged, or_iff_not_imp_left]

theorem acknowledged_own_token (h : (prepare digest volume plan cut).2 = true)
    (htoken : plan.resetToken ≠ "") :
    acknowledged (prepare digest volume plan cut).1.volume = plan.resetToken := by
  rw [acknowledged_of_completed h]
  cases hresets : plan.resets volume with
  | true => simp
  | false => simpa [htoken, eq_comm] using resets_eq_false_iff.mp hresets

theorem acknowledged_run
    (hcompletes : RunMeets (Tracked.step digest) { volume := initial } (Completes digest) events)
    (h : run (Tracked.step digest) { volume := initial } events = some t) {token : String}
    (htoken : token ≠ "") {before between : List Happening} {earlier : Preparation}
    (hevents : events = before ++ .prepare earlier cut :: between)
    (hearlier : earlier.resetToken = token)
    (hbetween : ∀ plan cut, .prepare plan cut ∈ between →
      plan.resetToken = "" ∨ plan.resetToken = token) :
    acknowledged t.volume = token := by
  refine run_invariant (P := fun events t => ∀ before between earlier cut,
      events = before ++ .prepare earlier cut :: between → earlier.resetToken = token →
      (∀ plan cut, .prepare plan cut ∈ between →
        plan.resetToken = "" ∨ plan.resetToken = token) → acknowledged t.volume = token)
    ?_ ?_ events t hcompletes h before between earlier cut hevents hearlier hbetween
  · intro before between earlier cut hevents
    simp at hevents
  · intro events t event t' _ ih hallowed hstep before between earlier cut hevents hearlier hbetween
    rcases eq_nil_or_concat between with rfl | ⟨between, last, rfl⟩
    · -- the run with the token is the last event
      obtain ⟨rfl, hevent⟩ := append_inj' hevents rfl
      cases hevent
      cases hstep
      rw [← hearlier] at htoken ⊢
      exact acknowledged_own_token hallowed htoken
    · rw [concat_eq_append, ← cons_append, ← append_assoc] at hevents
      obtain ⟨rfl, hevent⟩ := append_inj' hevents rfl
      cases hevent
      have htoken' := ih before between earlier cut rfl hearlier fun plan cut hmem =>
        hbetween plan cut (by simp [hmem])
      cases event with
      | prepare plan cut' =>
        cases hstep
        have hplan := hbetween plan cut' (by simp)
        rw [← htoken'] at hplan ⊢
        rw [acknowledged_of_completed hallowed, resets_eq_false_iff.mpr hplan]
        rfl
      | deviceWrites path entry =>
        cases hstep
        exact htoken'

/-- A completed run that neither enforces its files nor carries a new token keeps every file that
differs from what was last staged; a token that was honoured wipes nothing again. -/
theorem device_state_kept (digest : Bytes → String) (hdigest : Function.Injective digest)
    (initial : NodeVolume) (events : List Happening) (t : Tracked)
    (hcompletes : RunMeets (Tracked.step digest) { volume := initial } (Completes digest) events)
    (h : run (Tracked.step digest) { volume := initial } events = some t) (plan : Preparation) :
    (∀ cut, (prepare digest t.volume plan cut).2 = true → plan.persistent = true →
      plan.enforce = false →
      plan.resetToken = "" ∨ plan.resetToken = acknowledged t.volume →
      (plan.artifacts.map Artifact.path).Nodup →
      ∀ (path : String) (entry staged : Entry), t.volume.files[path]? = some entry →
        t.last[path]? = some staged → entry.DiffersFrom staged →
        ∃ entry', (prepare digest t.volume plan cut).1.volume.files[path]? = some entry' ∧
          entry'.SameContent entry) ∧
    ∀ before between earlier cut, events = before ++ .prepare earlier cut :: between →
      earlier.resetToken = plan.resetToken →
      (∀ other cut, .prepare other cut ∈ between →
        other.resetToken = "" ∨ other.resetToken = plan.resetToken) →
      plan.resets t.volume = false := by
  constructor
  · intro cut hcompleted hpersistent henforce htoken hpaths path entry staged hfile hlast hdiffers
    obtain ⟨s₁, s₂, hopening, hstage, hdone⟩ := prepare_flushed hcompleted
    rw [resets_eq_false_iff.mpr htoken] at hopening
    cases hopening
    rw [hdone]
    apply performAll_stage_keeps hdigest ⟨hpersistent, henforce⟩ hpaths hfile _ hstage
    apply hdiffers.imp_right
    intro hbytes hrecorded
    exact hbytes (hdigest
      (dated_start plan (dated_run hcompletes h) path staged hlast _ hrecorded))
  · intro before between earlier cut hevents hearlier hbetween
    apply resets_eq_false_iff.mpr
    by_cases htoken : plan.resetToken = ""
    · exact .inl htoken
    · exact .inr (acknowledged_run hcompletes h htoken hevents hearlier hbetween).symm

theorem plainDigest_injective : Function.Injective plainDigest := by
  intro bytes bytes' h
  simp only [plainDigest, String.append_right_inj, String.ofList_inj] at h
  apply map_injective_iff.mpr _ h
  intro b b' hb
  have hchar : ∀ b : UInt8, (Char.ofNat b.toNat).toNat = b.toNat := by
    intro b
    have hvalid : b.toNat.isValidChar := .inl (by have := b.toNat_lt; omega)
    rw [Char.ofNat, dif_pos hvalid]
    rfl
  apply UInt8.toNat_inj.mp
  calc b.toNat = (Char.ofNat b.toNat).toNat := (hchar b).symm
    _ = (Char.ofNat b'.toNat).toNat := congrArg Char.toNat hb
    _ = b'.toNat := hchar b'

def resetPlan (token : String) (content : Bytes) : Preparation :=
  { planOf content with resetToken := token }

def savedConfig : List Happening :=
  [.prepare (resetPlan "a" [1]) 4, .deviceWrites "config" (some (.regular [9] true))]

theorem saved_config_kept : ∃ t,
    run (Tracked.step plainDigest) { volume := {} } savedConfig = some t ∧
      (∃ entry',
        (prepare plainDigest t.volume (resetPlan "a" [2]) 3).1.volume.files["config"]? =
          some entry' ∧ entry'.SameContent (.regular [9] true)) ∧
      (resetPlan "a" [2]).resets t.volume = false := by
  obtain ⟨t, hrun, hcompleted, htoken, hfile, hlast⟩ : ∃ t,
      run (Tracked.step plainDigest) { volume := {} } savedConfig = some t ∧
        (prepare plainDigest t.volume (resetPlan "a" [2]) 3).2 = true ∧
        acknowledged t.volume = "a" ∧ t.volume.files["config"]? = some (.regular [9] true) ∧
        t.last["config"]? = some (.regular [1] true) := by
    decide +kernel
  have hcompletes : RunMeets (Tracked.step plainDigest) { volume := {} } (Completes plainDigest)
      savedConfig := by
    apply runMeets_cons
    · show (prepare plainDigest {} (resetPlan "a" [1]) 4).2 = true
      decide +kernel
    · intro s _
      exact runMeets_cons trivial fun _ _ => runMeets_nil
  obtain ⟨hkept, honce⟩ := device_state_kept plainDigest plainDigest_injective {} savedConfig t
    hcompletes hrun (resetPlan "a" [2])
  refine ⟨t, hrun, ?_, ?_⟩
  · exact hkept 3 hcompleted rfl rfl (.inr htoken.symm) (by decide) "config" _ _ hfile hlast
      (.inr (by decide))
  · apply honce [] [.deviceWrites "config" (some (.regular [9] true))] (resetPlan "a" [1]) 4 rfl rfl
    intro other cut hmem
    simp at hmem

def twicePlan : Preparation where
  artifacts := (planOf [9]).artifacts ++ (planOf [2]).artifacts

/-- A token that has been honoured wipes again after another one, and a plan that stages a path
twice takes what the device wrote for its own. -/
theorem token_wipes_twice : (∃ volume,
    run (step plainDigest) {} [.prepare (resetPlan "a" [1]) 4,
      .prepare (resetPlan "b" [1]) 5, .deviceWrites "saved" (some (.regular [9] true))] =
        some volume ∧
      ((resetPlan "a" [1]).resets {} = true ∧
        (prepare plainDigest {} (resetPlan "a" [1]) 4).2 = true) ∧
      ((resetPlan "a" [1]).resets volume = true ∧
        (prepare plainDigest volume (resetPlan "a" [1]) 6).2 = true) ∧
      volume.files["saved"]? = some (.regular [9] true) ∧
      (prepare plainDigest volume (resetPlan "a" [1]) 6).1.volume.files["saved"]? = none) ∧
    ∃ t, run (Tracked.step plainDigest) { volume := {} } [.prepare (planOf [1]) 3,
        .prepare { artifacts := [], resetToken := "b" } 3,
        .deviceWrites "config" (some (.regular [9] true))] = some t ∧
      t.last["config"]? = some (.regular [1] true) ∧
      t.volume.files["config"]? = some (.regular [9] true) ∧
      (prepare plainDigest t.volume twicePlan 4).2 = true ∧
      (prepare plainDigest t.volume twicePlan 4).1.volume.files["config"]? =
        some (.regular [2] true) := by
  constructor <;> decide +kernel

end Clabernetes.Staging
