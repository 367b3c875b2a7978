import Mathlib.Data.List.Induction
import Clabernetes.Base.Evaluation

/-!
# Runs of a partial transition function

A system is a function that takes a state and an event to the next state, or to `none` when the step
does not complete. A run folds a list of events; invariants are stated of the events so far and the
state they lead to, so that a history is never part of the state.
-/

namespace Clabernetes.Base

open List Option

variable {σ ε : Type} (step : σ → ε → Option σ) (init : σ)

def run (events : List ε) : Option σ := events.foldlM step init

/-- Every step of the run starts in a state that allows its event. -/
def RunMeets (allowed : σ → ε → Prop) (events : List ε) : Prop :=
  ∀ before e after, events = before ++ e :: after → ∀ s, run step init before = some s → allowed s e

@[simp] theorem run_nil : run step init [] = some init := rfl

theorem run_cons (e : ε) (events : List ε) :
    run step init (e :: events) = (step init e).bind fun s => run step s events := by
  rw [run, foldlM_cons, bind_eq_bind]
  rfl

theorem run_append_singleton (events : List ε) (e : ε) :
    run step init (events ++ [e]) = (run step init events).bind fun s => step s e := by
  rw [run, foldlM_append]
  cases h : events.foldlM step init with
  | none => simp [run, h]
  | some s => simp [run, h]

variable {step init} {allowed P : σ → ε → Prop} {events : List ε} {e : ε} {Q : List ε → Prop}
  {before after : List ε} {s' s : σ}

theorem run_append_singleton_eq_some : run step init (events ++ [e]) = some s' ↔
      ∃ s, run step init events = some s ∧ step s e = some s' := by
  rw [run_append_singleton, bind_eq_some_iff]

theorem exists_run_of_append (h : run step init (before ++ after) = some s') :
    ∃ s, run step init before = some s ∧ run step s after = some s' := by
  rw [run, foldlM_append] at h
  exact bind_eq_some_iff.mp h

theorem run_total (h : ∀ s e, ∃ s', step s e = some s') (events : List ε) :
    ∃ s, run step init events = some s := by
  induction events using List.reverseRecOn with
  | nil => exact ⟨init, run_nil step init⟩
  | append_singleton events e ih =>
    obtain ⟨s, hs⟩ := ih
    obtain ⟨s', hs'⟩ := h s e
    exact ⟨s', run_append_singleton_eq_some.mpr ⟨s, hs, hs'⟩⟩

theorem RunMeets.and {allowed' : σ → ε → Prop} (h : RunMeets step init allowed events)
    (h' : RunMeets step init allowed' events) :
    RunMeets step init (fun s e => allowed s e ∧ allowed' s e) events :=
  fun before e after heq s hs => ⟨h before e after heq s hs, h' before e after heq s hs⟩

theorem RunMeets.of_append (h : RunMeets step init allowed (before ++ after)) :
    RunMeets step init allowed before := by
  intro b e a he
  exact h b e (a ++ after) (by rw [he, append_assoc, cons_append])

theorem RunMeets.last (h : RunMeets step init allowed (events ++ [e]))
    (hs : run step init events = some s) : allowed s e := h events e [] rfl s hs

theorem RunMeets.append_singleton (h : RunMeets step init allowed events)
    (he : ∀ s, run step init events = some s → allowed s e) :
    RunMeets step init allowed (events ++ [e]) := by
  intro before e' after heq s hs
  rcases eq_nil_or_concat after with rfl | ⟨after, last, rfl⟩
  · obtain ⟨rfl, hlast⟩ := append_inj' heq rfl
    cases hlast
    exact he s hs
  · rw [concat_eq_append, ← cons_append, ← append_assoc] at heq
    obtain ⟨rfl, -⟩ := append_inj' heq rfl
    exact h before e' after rfl s hs

theorem runMeets_nil : RunMeets step init allowed [] := by
  intro before e after he
  cases before <;> cases he

theorem runMeets_true : RunMeets step init (fun _ _ => True) events := fun _ _ _ _ _ _ => trivial

theorem runMeets_cons (h : allowed init e)
    (hrest : ∀ s, step init e = some s → RunMeets step s allowed events) :
    RunMeets step init allowed (e :: events) := by
  intro before e' after he s hs
  cases before with
  | nil =>
    cases he
    rw [run_nil, some.injEq] at hs
    exact hs ▸ h
  | cons b before =>
    cases he
    rw [run_cons, bind_eq_some_iff] at hs
    obtain ⟨s', hs', hs⟩ := hs
    exact hrest s' hs' before e' after rfl s hs

def meets (step : σ → ε → Option σ) (allowed : σ → ε → Prop) [∀ s e, Decidable (allowed s e)] :
    σ → List ε → Bool
  | _, [] => true
  | s, e :: events => allowed s e && (step s e).all fun s' => meets step allowed s' events

theorem runMeets_of_meets [∀ s e, Decidable (allowed s e)]
    (h : meets step allowed init events = true) : RunMeets step init allowed events := by
  induction events generalizing init with
  | nil => exact runMeets_nil
  | cons e events ih =>
    rw [meets, Bool.and_eq_true, decide_eq_true_iff] at h
    refine runMeets_cons h.1 fun s hs => ih ?_
    simpa [hs] using h.2

/-- The invariant rule: what holds at first and after every further step of an allowed run holds of
every state that an allowed run reaches. -/
theorem run_invariant {P : List ε → σ → Prop} (h0 : P [] init)
    (hstep : ∀ events s e s', run step init events = some s → P events s → allowed s e →
      step s e = some s' → P (events ++ [e]) s') :
    ∀ events s, RunMeets step init allowed events → run step init events = some s → P events s := by
  intro events
  induction events using List.reverseRecOn with
  | nil =>
    intro s _ hs
    rw [run_nil, some.injEq] at hs
    exact hs ▸ h0
  | append_singleton events e ih =>
    intro s' hm hs'
    obtain ⟨s, hs, he⟩ := run_append_singleton_eq_some.mp hs'
    exact hstep events s e s' hs (ih s hm.of_append hs) (hm.last hs) he

theorem run_invariant_of_step {P : σ → Prop} (h0 : P init)
    (hstep : ∀ s e s', P s → step s e = some s' → P s') :
    ∀ events s, run step init events = some s → P s := by
  intro events s hs
  refine run_invariant (P := fun _ s => P s) h0 ?_ events s runMeets_true hs
  intro _ s e s' _ hp _ he
  exact hstep s e s' hp he

/-- The property held after some of the events. -/
def Once (Q : List ε → Prop) (events : List ε) : Prop := ∃ before, before <+: events ∧ Q before

theorem once_append_singleton : Once Q (events ++ [e]) ↔ Once Q events ∨ Q (events ++ [e]) := by
  constructor
  · rintro ⟨before, hbefore, h⟩
    rcases prefix_concat_iff.mp hbefore with rfl | hbefore
    · exact .inr h
    · exact .inl ⟨before, hbefore, h⟩
  · rintro (⟨before, hbefore, h⟩ | h)
    · exact ⟨before, hbefore.trans (prefix_append events [e]), h⟩
    · exact ⟨events ++ [e], prefix_rfl, h⟩

def Happened (step : σ → ε → Option σ) (init : σ) (P : σ → ε → Prop) (events : List ε) : Prop :=
  ∃ before e after s, events = before ++ e :: after ∧ run step init before = some s ∧ P s e

theorem happened_nil : ¬Happened step init P [] := by
  rintro ⟨before, e, after, s, heq, -⟩
  cases before <;> cases heq

theorem happened_append_singleton (hs : run step init events = some s) :
    Happened step init P (events ++ [e]) ↔ Happened step init P events ∨ P s e := by
  constructor
  · rintro ⟨before, e', after, s', heq, hs', h⟩
    rcases eq_nil_or_concat after with rfl | ⟨after, last, rfl⟩
    · obtain ⟨rfl, hlast⟩ := append_inj' heq rfl
      cases hlast
      rw [hs] at hs'
      cases hs'
      exact .inr h
    · rw [concat_eq_append, ← cons_append, ← append_assoc] at heq
      obtain ⟨rfl, -⟩ := append_inj' heq rfl
      exact .inl ⟨before, e', after, s', rfl, hs', h⟩
  · rintro (⟨before, e', after, s', rfl, hs', h⟩ | h)
    · exact ⟨before, e', after ++ [e], s', by simp, hs', h⟩
    · exact ⟨events, e, [], s, rfl, hs, h⟩

theorem RunMeets.not_happened (h : RunMeets step init (fun s e => ¬P s e) events) :
    ¬Happened step init P events := by
  rintro ⟨before, e, after, s, heq, hs, hP⟩
  exact h before e after heq s hs hP

theorem Once.now (h : Q events) : Once Q events := ⟨events, prefix_rfl, h⟩

end Clabernetes.Base
