import Mathlib.Data.List.Basic
import Clabernetes.Base.Evaluation

/-!
# Interrupted programs

A program is a list of effects, each of which takes a state to the next one or fails. An attempt
carries out effects until one fails or it is cut off; what it leaves behind is the state after the
effects so far.
-/

namespace Clabernetes.Base

open List

variable {σ ε φ : Type} (perform : σ → ε → Except φ σ)

def performAll (s : σ) (effects : List ε) : Except φ σ := effects.foldlM perform s

/-- At most the given number of effects: the state that is left, and whether all were carried
out. -/
def attempt : Nat → σ → List ε → σ × Bool
  | _, s, [] => (s, true)
  | 0, s, _ :: _ => (s, false)
  | count + 1, s, e :: rest =>
    match perform s e with
    | .error _ => (s, false)
    | .ok s' => attempt count s' rest

variable {perform} {effects : List ε} {α : Type} {s s' : σ} {x : Except ε α} {rest : List ε}
  {P : σ → Prop} {count : Nat}

theorem performAll_nil (s : σ) : performAll perform s [] = .ok s := rfl

theorem performAll_cons_eq_ok {e : ε} : performAll perform s (e :: rest) = .ok s' ↔
      ∃ next, perform s e = .ok next ∧ performAll perform next rest = .ok s' := by
  rw [performAll, foldlM_cons]
  cases perform s e with
  | error =>
    constructor
    · intro h
      cases h
    · rintro ⟨_, h, _⟩
      cases h
  | ok next =>
    refine ⟨fun h => ⟨next, rfl, h⟩, fun ⟨_, hnext, h⟩ => ?_⟩
    cases hnext
    exact h

theorem performAll_append_eq_ok : performAll perform s (effects ++ rest) = .ok s' ↔
      ∃ next, performAll perform s effects = .ok next ∧ performAll perform next rest = .ok s' := by
  induction effects generalizing s with
  | nil => simp [performAll_nil]
  | cons e effects ih =>
    simp only [cons_append, performAll_cons_eq_ok, ih]
    exact ⟨fun ⟨first, hfirst, next, hnext, h⟩ => ⟨next, ⟨first, hfirst, hnext⟩, h⟩,
      fun ⟨next, ⟨first, hfirst, hnext⟩, h⟩ => ⟨first, hfirst, next, hnext, h⟩⟩

theorem performAll_invariant (hs : P s)
    (hstep : ∀ s e s', e ∈ effects → P s → perform s e = .ok s' → P s')
    (h : performAll perform s effects = .ok s') : P s' := by
  induction effects generalizing s with
  | nil =>
    cases h
    exact hs
  | cons e rest ih =>
    obtain ⟨next, hnext, h⟩ := performAll_cons_eq_ok.mp h
    exact ih (hstep s e next mem_cons_self hs hnext)
      (fun s e s' hmem => hstep s e s' (mem_cons_of_mem _ hmem)) h

theorem attempt_invariant (hs : P s)
    (hstep : ∀ s e s', e ∈ effects → P s → perform s e = .ok s' → P s') (count : Nat) :
    P (attempt perform count s effects).1 := by
  induction effects generalizing s count with
  | nil => cases count <;> exact hs
  | cons e rest ih =>
    cases count with
    | zero => exact hs
    | succ count =>
      rw [attempt]
      split
      · exact hs
      · next s' hs' =>
        exact ih (hstep s e s' mem_cons_self hs hs')
          (fun s e s' hmem => hstep s e s' (mem_cons_of_mem _ hmem)) count

theorem performAll_of_completed (h : (attempt perform count s effects).2 = true) :
    performAll perform s effects = .ok (attempt perform count s effects).1 := by
  induction effects generalizing s count with
  | nil => cases count <;> rfl
  | cons e rest ih =>
    cases count with
    | zero => cases h
    | succ count =>
      rw [attempt] at h ⊢
      split at h
      · cases h
      · next s' hs' => exact performAll_cons_eq_ok.mpr ⟨s', hs', ih h⟩

theorem attempt_append_of_le (h : count ≤ effects.length) (s : σ) (rest : List ε) :
    (attempt perform count s (effects ++ rest)).1 = (attempt perform count s effects).1 := by
  induction effects generalizing s count with
  | nil =>
    obtain rfl := Nat.le_zero.mp h
    cases rest <;> rfl
  | cons e effects ih =>
    cases count with
    | zero => rfl
    | succ count =>
      rw [cons_append, attempt, attempt]
      split
      · rfl
      · exact ih (Nat.le_of_succ_le_succ h) _

theorem exists_performed (count : Nat) (s : σ) (effects : List ε) :
    ∃ done rest, effects = done ++ rest ∧
      performAll perform s done = .ok (attempt perform count s effects).1 := by
  induction effects generalizing s count with
  | nil => exact ⟨[], [], rfl, by cases count <;> rfl⟩
  | cons e effects ih =>
    cases count with
    | zero => exact ⟨[], e :: effects, rfl, rfl⟩
    | succ count =>
      rw [attempt]
      cases he : perform s e with
      | error => exact ⟨[], e :: effects, rfl, rfl⟩
      | ok next =>
        obtain ⟨done, rest, rfl, hdone⟩ := ih count next
        exact ⟨e :: done, rest, rfl, performAll_cons_eq_ok.mpr ⟨next, he, hdone⟩⟩

theorem prefix_of_mem_of_notMem {done first second : List α} {x : α} (h : done <+: first ++ second)
    (hx : x ∈ done) (hfirst : x ∉ first) : first <+: done := by
  rcases prefix_or_prefix_of_prefix h (prefix_append first second) with hle | hle
  · exact absurd (hle.mem hx) hfirst
  · exact hle

end Clabernetes.Base
