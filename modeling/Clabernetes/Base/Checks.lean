import Mathlib.Data.List.Forall2
import Mathlib.Data.List.Pairwise

/-!
# Fail-fast checks

A validation that stops at its first error accepts exactly what passes each of its checks. A loop
that remembers the identities it has seen is a check of each element against the earlier ones: the
map of what was seen is the list of the earlier elements.
-/

namespace Clabernetes.Base

open List

variable {ε α β : Type} {l : List α}

def rejectIf (condition : Prop) [Decidable condition] (err : ε) : Except ε Unit :=
  if condition then .error err else .ok ()

@[simp] theorem rejectIf_eq_ok {condition : Prop} [Decidable condition] {err : ε} :
    rejectIf condition err = .ok () ↔ ¬condition := by
  by_cases h : condition <;> simp [rejectIf, h]

@[simp] theorem bind_eq_ok {check : Except ε Unit} {next : Unit → Except ε β} {b : β} :
    (check >>= next) = .ok b ↔ check = .ok () ∧ next () = .ok b := by
  cases check with
  | error err | ok u => simp [bind, Except.bind]

theorem bind_eq_ok_iff {x : Except ε α} {next : α → Except ε β} {b : β} :
    (x >>= next) = .ok b ↔ ∃ a, x = .ok a ∧ next a = .ok b := by
  cases x with
  | error err | ok a => simp [bind, Except.bind]

@[simp] theorem mapError_eq_ok {ε' : Type} {f : ε → ε'} {x : Except ε α} {a : α} :
    x.mapError f = .ok a ↔ x = .ok a := by
  cases x <;> simp [Except.mapError]

theorem mapM_eq_ok_iff {f : α → Except ε β} {r : List β} :
    l.mapM f = .ok r ↔ List.Forall₂ (fun a b => f a = .ok b) l r := by
  induction l generalizing r with
  | nil => simp [pure, Except.pure, eq_comm]
  | cons a rest ih =>
    rw [mapM_cons, bind_eq_ok_iff, forall₂_cons_left_iff]
    constructor
    · rintro ⟨b, hb, h⟩
      obtain ⟨bs, hbs, hr⟩ := bind_eq_ok_iff.mp h
      cases hr
      exact ⟨b, bs, hb, ih.mp hbs, rfl⟩
    · rintro ⟨b, bs, hb, hbs, rfl⟩
      exact ⟨b, hb, bind_eq_ok_iff.mpr ⟨bs, ih.mpr hbs, rfl⟩⟩

/-- Each element in turn, with the elements before it; the index of an element is their number. -/
def checkFrom (check : List α → α → Except ε Unit) : List α → List α → Except ε Unit
  | _, [] => .ok ()
  | before, a :: rest =>
    match check before a with
    | .error err => .error err
    | .ok _ => checkFrom check (before ++ [a]) rest

def checkEach (check : List α → α → Except ε Unit) (l : List α) : Except ε Unit :=
  checkFrom check [] l

section

variable {check : List α → α → Except ε Unit} {good : α → Prop} {apart : α → α → Prop}

theorem checkFrom_eq_ok
    (hcheck : ∀ before a, check before a = .ok () ↔ good a ∧ ∀ b ∈ before, apart b a)
    {before : List α} : checkFrom check before l = .ok () ↔
      (∀ a ∈ l, good a ∧ ∀ b ∈ before, apart b a) ∧ l.Pairwise apart := by
  induction l generalizing before with
  | nil => simp [checkFrom]
  | cons a rest ih =>
    have hcons : checkFrom check before (a :: rest) = .ok () ↔
        check before a = .ok () ∧ checkFrom check (before ++ [a]) rest = .ok () := by
      cases h : check before a with
      | error err => simp [checkFrom, h]
      | ok => simp [checkFrom, h]
    rw [hcons, hcheck, ih, pairwise_cons]
    simp only [mem_append, mem_cons, not_mem_nil, or_false, forall_eq_or_imp]
    constructor
    · rintro ⟨⟨hgood, hapart⟩, hrest, hpairwise⟩
      refine ⟨⟨⟨hgood, hapart⟩, fun b hb => ⟨(hrest b hb).1, fun c hc => ?_⟩⟩, fun b hb => ?_,
        hpairwise⟩
      · exact (hrest b hb).2 c (.inl hc)
      · exact (hrest b hb).2 a (.inr rfl)
    · rintro ⟨⟨hhead, hrest⟩, ha, hpairwise⟩
      refine ⟨hhead, fun b hb => ⟨(hrest b hb).1, fun c hc => ?_⟩, hpairwise⟩
      rcases hc with hc | rfl
      · exact (hrest b hb).2 c hc
      · exact ha b hb

/-- A check passes exactly when it passes on its own and the element is apart from each earlier
one. -/
def ChecksApart (check : List α → α → Except ε Unit) (apart : α → α → Prop) : Prop :=
  ∀ before a, check before a = .ok () ↔ check [] a = .ok () ∧ ∀ b ∈ before, apart b a

theorem checkEach_eq_ok
    (hcheck : ∀ before a, check before a = .ok () ↔ good a ∧ ∀ b ∈ before, apart b a) :
    checkEach check l = .ok () ↔ (∀ a ∈ l, good a) ∧ l.Pairwise apart := by
  rw [checkEach, checkFrom_eq_ok hcheck]
  simp

theorem ChecksApart.checkEach_eq_ok (h : ChecksApart check apart) :
    checkEach check l = .ok () ↔ (∀ a ∈ l, check [] a = .ok ()) ∧ l.Pairwise apart :=
  Base.checkEach_eq_ok h

theorem checkEach_eq_ok_of_forall (hcheck : ∀ before a, check before a = .ok () ↔ good a) :
    checkEach check l = .ok () ↔ ∀ a ∈ l, good a := by
  have hall : ∀ before a, check before a = .ok () ↔
      good a ∧ ∀ b ∈ before, (fun _ _ : α => True) b a := by
    intro before a
    simp [hcheck before a]
  rw [Base.checkEach_eq_ok hall, and_iff_left (pairwise_of_forall fun _ _ => trivial)]

@[simp] theorem checkEach_rejectIf {condition : α → Prop} [DecidablePred condition] {err : ε} :
    checkEach (fun _ a => rejectIf (condition a) err) l = .ok () ↔ ∀ a ∈ l, ¬condition a := by
  apply checkEach_eq_ok_of_forall
  intro before a
  exact rejectIf_eq_ok

end

end Clabernetes.Base
