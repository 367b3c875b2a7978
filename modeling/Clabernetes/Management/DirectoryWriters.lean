import Clabernetes.Base.GoMap
import Clabernetes.Base.Runs

/-!
# Writers of the peer directories

`controllers/node/directpeerdirectory.go:23-55`: the lock of each namespace's peer directory, made
by its first user and dropped by its last. What happens under `peerDirectoryMu` is one step.
-/

namespace Clabernetes.Management.DirectoryWriters

open Base Std List GoMap Function

/-- A call waits for the mutex of its writer, holds it, or has unlocked it and still counts. -/
inductive Phase where
  | waiting
  | inside
  | leaving
  | returned
  deriving DecidableEq

/-- A call of `refreshDirectPeerDirectory` with the writer that it got. -/
structure Call where
  namespaceName : String
  writer : Nat
  phase : Phase

def Call.uses (writer : Nat) (call : Call) : Bool := call.phase ≠ .returned ∧ call.writer = writer

def Call.holds (writer : Nat) (call : Call) : Bool := call.phase = .inside ∧ call.writer = writer

/-- Writers are known by their place in memory, and their mutex by the call that is inside. -/
structure State where
  peerDirectoryWriters : GoMap String Nat := ∅
  users : Nat → Nat := fun _ => 0
  allocated : Nat := 0
  calls : List Call := []

inductive Event where
  | call (namespaceName : String)
  | proceed (index : Nat)

namespace State

variable (s : State)

def register (namespaceName : String) : State :=
  let writer := s.peerDirectoryWriters[namespaceName]?.getD s.allocated
  { peerDirectoryWriters := s.peerDirectoryWriters.insert namespaceName writer
    users := update s.users writer (s.users writer + 1)
    allocated := max s.allocated (writer + 1)
    calls := s.calls ++ [⟨namespaceName, writer, .waiting⟩] }

def advance (index : Nat) (call : Call) (phase : Phase) : State :=
  { s with calls := s.calls.set index { call with phase } }

def deregister (index : Nat) (call : Call) : State :=
  let users := s.users call.writer - 1
  { s.advance index call .returned with
    users := update s.users call.writer users
    peerDirectoryWriters := if users = 0 then s.peerDirectoryWriters.erase call.namespaceName
      else s.peerDirectoryWriters }

/-- A call begins, or one of them goes on if it can. -/
def step : Event → Option State
  | .call namespaceName => some (s.register namespaceName)
  | .proceed index => s.calls[index]?.bind fun call =>
    match call.phase with
    | .waiting => if s.calls.countP (Call.holds call.writer) = 0 then
        some (s.advance index call .inside) else none
    | .inside => some (s.advance index call .leaving)
    | .leaving => some (s.deregister index call)
    | .returned => none

structure Inv : Prop where
  registered : ∀ call ∈ s.calls, call.phase ≠ .returned →
    s.peerDirectoryWriters[call.namespaceName]? = some call.writer
  entry : ∀ (a : String) writer, s.peerDirectoryWriters[a]? = some writer →
    writer < s.allocated ∧ 0 < s.users writer ∧
      ∀ b : String, s.peerDirectoryWriters[b]? = some writer → a = b
  users_eq : ∀ writer, s.users writer = s.calls.countP (Call.uses writer)
  exclusive : ∀ writer, s.calls.countP (Call.holds writer) ≤ 1

variable {s} {index : Nat} {call : Call}

theorem countP_advance (hcall : s.calls[index]? = some call) (phase : Phase) (p : Call → Bool) :
    (s.advance index call phase).calls.countP p + (p call).toNat =
      s.calls.countP p + (p { call with phase }).toNat := by
  obtain ⟨hlt, hget⟩ := List.getElem?_eq_some_iff.mp hcall
  have hpos : p call → 0 < s.calls.countP p := fun hp =>
    countP_pos_iff.mpr ⟨call, mem_of_getElem? hcall, hp⟩
  rw [advance, countP_set hlt, hget]
  generalize s.calls.countP p = count at hpos ⊢
  grind

namespace Inv

variable (h : s.Inv)

include h

theorem advance (hcall : s.calls[index]? = some call) {phase : Phase}
    (hactive : call.phase ≠ .returned ∧ phase ≠ .returned)
    (hfree : phase = .inside → s.calls.countP (Call.holds call.writer) = 0) :
    (s.advance index call phase).Inv := by
  refine ⟨fun other hother hrunning => ?_, h.entry, fun w => ?_, fun w => ?_⟩
  · rcases mem_or_eq_of_mem_set hother with hmem | rfl
    · exact h.registered other hmem hrunning
    · exact h.registered call (mem_of_getElem? hcall) hactive.1
  · have hcount := countP_advance hcall phase (Call.uses w)
    exact (h.users_eq w).trans (by simpa [Call.uses, hactive.1, hactive.2] using! hcount.symm)
  · have hcount := countP_advance hcall phase (Call.holds w)
    have hle := h.exclusive w
    by_cases hinside : phase = .inside ∧ call.writer = w
    · have hnone := hfree hinside.1
      rw [hinside.2] at hnone
      grind [Call.holds]
    · grind [Call.holds]

theorem deregister (hcall : s.calls[index]? = some call) (hphase : call.phase = .leaving) :
    (s.deregister index call).Inv := by
  have hown := h.registered call (mem_of_getElem? hcall) (by simp [hphase])
  have hcount := countP_advance hcall .returned
  have husers : ∀ w, (s.deregister index call).users w =
      (s.deregister index call).calls.countP (Call.uses w) := by
    intro w
    have hw := hcount (Call.uses w)
    rw [← h.users_eq] at hw
    simp only [State.deregister, update_apply]
    by_cases heq : w = call.writer
    · subst heq
      simp [Call.uses, hphase] at hw ⊢
      omega
    · simpa [heq, Ne.symm heq, Call.uses] using hw.symm
  -- the entry goes with the last call that uses it
  have hlookup : ∀ (a : String) w, (s.deregister index call).peerDirectoryWriters[a]? = some w ↔
      s.peerDirectoryWriters[a]? = some w ∧ 0 < (s.deregister index call).users w := by
    intro a w
    have hentry := h.entry call.namespaceName call.writer hown
    have hused := h.entry a w
    simp only [State.deregister, update_apply]
    split_ifs with hzero <;> try rw [lookup_erase]
    all_goals grind
  refine ⟨fun other hother hrunning => ?_, fun a w hw => ?_, husers, fun w => ?_⟩
  · have hmem := (mem_or_eq_of_mem_set hother).resolve_right fun heq => hrunning (heq ▸ rfl)
    rw [hlookup, husers]
    exact ⟨h.registered other hmem hrunning,
      countP_pos_iff.mpr ⟨other, hother, by simp [Call.uses, hrunning]⟩⟩
  · obtain ⟨hbefore, hpos⟩ := (hlookup a w).mp hw
    obtain ⟨hlt, -, hsame⟩ := h.entry a w hbefore
    exact ⟨hlt, hpos, fun b hb => hsame b ((hlookup b w).mp hb).1⟩
  · have hw := hcount (Call.holds w)
    exact (Nat.le.intro hw).trans (h.exclusive w)

theorem register (namespaceName : String) : (s.register namespaceName).Inv := by
  have hentry := h.entry
  unfold State.register
  -- a writer is the one of the entry or a new one
  have hwriter : ∀ w, s.peerDirectoryWriters[namespaceName]?.getD s.allocated = w →
      s.peerDirectoryWriters[namespaceName]? = some w ∨
        s.peerDirectoryWriters[namespaceName]? = none ∧ w = s.allocated := by
    rintro _ rfl
    cases s.peerDirectoryWriters[namespaceName]? <;> simp
  generalize s.peerDirectoryWriters[namespaceName]?.getD s.allocated = writer at hwriter ⊢
  refine ⟨fun other hother hrunning => ?_, fun a w hw => ?_, fun w => ?_, fun w => ?_⟩
  · dsimp only
    rw [lookup_insert]
    rcases mem_append.mp hother with hmem | hnew
    · have := h.registered other hmem hrunning
      grind
    · rw [mem_singleton.mp hnew, if_pos rfl]
  · simp only [lookup_insert, update_apply] at hw ⊢
    grind
  · simp only [update_apply, countP_append, countP_singleton, h.users_eq, Call.uses]
    grind
  · simpa [countP_append, Call.holds] using h.exclusive w

theorem step {event : Event} {after : State} (hstep : s.step event = some after) : after.Inv := by
  cases event with
  | call namespaceName =>
    cases hstep
    exact h.register namespaceName
  | proceed index =>
    obtain ⟨call, hcall, hstep⟩ := Option.bind_eq_some_iff.mp hstep
    cases hphase : call.phase with
    | waiting =>
      simp only [hphase, Option.ite_none_right_eq_some] at hstep
      obtain ⟨hfree, ⟨⟩⟩ := hstep
      exact h.advance hcall (by simp [hphase]) fun _ => hfree
    | inside =>
      simp only [hphase] at hstep
      cases hstep
      exact h.advance hcall (by simp [hphase]) (by simp)
    | leaving =>
      simp only [hphase] at hstep
      cases hstep
      exact h.deregister hcall hphase
    | returned => simp [hphase] at hstep

/-- The running calls of a namespace are those that use its writer. -/
theorem writer_eq_iff {a : String} {writer : Nat}
    (hwriter : s.peerDirectoryWriters[a]? = some writer) (hcall : call ∈ s.calls)
    (hrunning : call.phase ≠ .returned) : call.writer = writer ↔ call.namespaceName = a := by
  have hown := h.registered call hcall hrunning
  constructor
  · rintro rfl
    exact (h.entry _ _ hown).2.2 a hwriter
  · rintro rfl
    exact Option.some.inj (hown.symm.trans hwriter)

end Inv

/-- At most one call is inside for a namespace, an entry counts the calls of its namespace from
their registration to their deregistration, and none is left when all calls have returned. -/
theorem directory_writer_exclusion (events : List Event) (s : State)
    (h : run State.step {} events = some s) :
    (∀ a, s.calls.countP (fun call => call.phase = .inside ∧ call.namespaceName = a) ≤ 1) ∧
    (∀ (a : String) writer, s.peerDirectoryWriters[a]? = some writer → s.users writer =
      s.calls.countP fun call => call.phase ≠ .returned ∧ call.namespaceName = a) ∧
    ((∀ call ∈ s.calls, call.phase = .returned) → s.peerDirectoryWriters = ∅) := by
  have hinit : Inv {} := by constructor <;> simp
  have hinv := run_invariant_of_step hinit (fun _ _ _ hinv hstep => hinv.step hstep) events s h
  refine ⟨fun a => ?_, fun a writer hwriter => ?_, fun hreturned => ?_⟩
  · by_contra hmany
    obtain ⟨call, hcall, hinside⟩ := countP_pos_iff.mp (Nat.zero_lt_of_lt (Nat.lt_of_not_le hmany))
    obtain ⟨hphase, rfl⟩ := of_decide_eq_true hinside
    have hwriter := hinv.registered call hcall (by simp [hphase])
    refine hmany ((countP_mono_left fun other hother hinside => ?_).trans
      (hinv.exclusive call.writer))
    obtain ⟨hphase, hsame⟩ := of_decide_eq_true hinside
    simpa [Call.holds, hphase] using
      (hinv.writer_eq_iff hwriter hother (by simp [hphase])).mpr hsame
  · rw [hinv.users_eq]
    refine countP_congr fun call hcall => ?_
    simp only [Call.uses, decide_eq_true_eq]
    exact and_congr_right (hinv.writer_eq_iff hwriter hcall)
  · refine ExtTreeMap.ext_getElem? fun a => ?_
    rw [ExtTreeMap.getElem?_empty]
    refine Option.eq_none_iff_forall_ne_some.mpr fun writer hwriter => ?_
    have hused := (hinv.entry a writer hwriter).2.1
    rw [hinv.users_eq] at hused
    obtain ⟨call, hcall, huses⟩ := countP_pos_iff.mp hused
    exact (of_decide_eq_true huses).1 (hreturned call hcall)

theorem directory_writer_exclusion_two : ∃ s, run State.step {}
    [.call "lab", .proceed 0, .call "lab"] = some s ∧ s.users 0 = 2 :=
  ⟨_, rfl, ((directory_writer_exclusion [.call "lab", .proceed 0, .call "lab"] _ rfl).2.1
    "lab" 0 (by decide)).trans (by decide)⟩

/-- The mutex is free and nobody waits for it, but the call that left still counts. -/
theorem leaving_call_counts : ∃ s,
    run State.step {} [.call "lab", .proceed 0, .proceed 0] = some s ∧
      s.peerDirectoryWriters["lab"]? = some 0 ∧ s.users 0 = 1 ∧
      s.calls.countP (fun call => call.phase = .waiting ∨ call.phase = .inside) = 0 := by
  refine ⟨_, rfl, ?_, ?_, ?_⟩ <;> decide

end State

end Clabernetes.Management.DirectoryWriters
