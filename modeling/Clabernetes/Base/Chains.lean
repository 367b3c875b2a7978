import Mathlib.Logic.Relation

/-!
# Chains of references

Every element refers to at most one other. A chain that does not come back ends, at one place; what
is added elsewhere does not move its end.
-/

namespace Clabernetes.Base

open Relation

variable {α : Type} (next : α → Option α)

def Follows (a b : α) : Prop := next a = some b

def Ends (a e : α) : Prop := ReflTransGen (Follows next) a e ∧ next e = none

def Acyclic : Prop := ∀ a, ¬TransGen (Follows next) a a

variable {next} {a b e e' : α}

theorem ends_self (h : next e = none) : Ends next e e := ⟨.refl, h⟩

theorem Ends.cons (h : next a = some b) (hb : Ends next b e) : Ends next a e := ⟨.head h hb.1, hb.2⟩

theorem Ends.tail (h : next a = some b) (ha : Ends next a e) : Ends next b e := by
  rcases ReflTransGen.cases_head ha.1 with rfl | ⟨c, hac, hce⟩
  · have hnone := ha.2
    rw [h] at hnone
    cases hnone
  · have hbc : b = c := by
      rw [Follows, h] at hac
      exact Option.some.inj hac
    exact ⟨hbc ▸ hce, ha.2⟩

theorem Ends.eq_of_none (h : next a = none) (ha : Ends next a e) : e = a := by
  rcases ReflTransGen.cases_head ha.1 with rfl | ⟨c, hac, -⟩
  · rfl
  · rw [Follows, h] at hac
    cases hac

section

variable (h : Ends next a e)

include h

theorem Ends.unique (h' : Ends next a e') : e = e' := by
  obtain ⟨hpath, hnone⟩ := h
  induction hpath using ReflTransGen.head_induction_on with
  | refl => exact (h'.eq_of_none hnone).symm
  | head hab _ ih => exact ih (h'.tail hab)

theorem Ends.idem : Ends next e e := ends_self h.2

theorem Ends.not_transGen : ¬TransGen (Follows next) a a := by
  obtain ⟨hpath, hnone⟩ := h
  -- The cycle moves along the chain to its end, which refers to nothing.
  induction hpath using ReflTransGen.head_induction_on with
  | refl =>
    intro hcycle
    obtain ⟨c, hc, -⟩ := TransGen.head'_iff.mp hcycle
    rw [Follows, hnone] at hc
    cases hc
  | head hab _ ih =>
    intro hcycle
    obtain ⟨c, hc, hca⟩ := TransGen.head'_iff.mp hcycle
    rw [Follows] at hab hc
    rw [hab] at hc
    cases hc
    exact ih (TransGen.tail' hca hab)

theorem Ends.mono {next' : α → Option α}
    (hle : ∀ a b, next a = some b → next' a = some b) (hend : next' e = none) : Ends next' a e :=
  ⟨ReflTransGen.mono (fun a b hab => hle a b hab) a e h.1, hend⟩

end

theorem acyclic_of_flat (h : ∀ a b, next a = some b → next b = none) : Acyclic next := by
  intro a hcycle
  obtain ⟨b, hab, -⟩ := TransGen.head'_iff.mp hcycle
  exact ((ends_self (h a b hab)).cons hab).not_transGen hcycle

/-- A renaming that tells the elements of `p` apart makes no cycle out of the references among
them. -/
theorem Acyclic.of_lift {β : Type} {next' : β → Option β} {f : α → β} {p : α → Prop}
    (h : Acyclic next) (hinj : ∀ {a b}, p a → p b → f a = f b → a = b)
    (hstep : ∀ {x y}, Follows next' x y →
      ∃ a b, p a ∧ p b ∧ f a = x ∧ f b = y ∧ Follows next a b) : Acyclic next' := by
  have hchain : ∀ {x y}, TransGen (Follows next') x y →
      ∃ a b, p a ∧ p b ∧ f a = x ∧ f b = y ∧ TransGen (Follows next) a b := by
    intro x y hxy
    induction hxy with
    | single hxy =>
      obtain ⟨a, b, ha, hb, hx, hy, hab⟩ := hstep hxy
      exact ⟨a, b, ha, hb, hx, hy, .single hab⟩
    | tail _ hyz ih =>
      obtain ⟨a, b, ha, hb, hx, hy, hab⟩ := ih
      obtain ⟨b', c, hb', hc, hy', hz, hbc⟩ := hstep hyz
      obtain rfl := hinj hb hb' (hy.trans hy'.symm)
      exact ⟨a, c, ha, hc, hx, hz, hab.tail hbc⟩
  intro x hcycle
  obtain ⟨a, b, ha, hb, hx, hy, hab⟩ := hchain hcycle
  obtain rfl := hinj ha hb (hx.trans hy.symm)
  exact h a hab

/-- Only an element that refers to itself comes back to where it was. -/
def OnlySelfCycles (next : α → Option α) : Prop :=
  ∀ a b, TransGen (Follows next) a b → TransGen (Follows next) b a → a = b

theorem Acyclic.onlySelfCycles (h : Acyclic next) : OnlySelfCycles next := by
  intro a b hab hba
  exact absurd (hab.trans hba) (h a)

theorem onlySelfCycles_of_flat (h : ∀ a b, next a = some b → b = a ∨ next b = none) :
    OnlySelfCycles next := by
  have hpath : ∀ a b, TransGen (Follows next) a b → b = a ∨ next b = none := by
    intro a b hab
    induction hab with
    | single hstep => exact h _ _ hstep
    | tail _ hstep ih =>
      rcases ih with rfl | hnone
      · exact h _ _ hstep
      · rw [Follows, hnone] at hstep
        cases hstep
  intro a b hab hba
  rcases hpath a b hab with rfl | hnone
  · rfl
  · obtain ⟨c, hbc, -⟩ := TransGen.head'_iff.mp hba
    rw [Follows, hnone] at hbc
    cases hbc

variable [DecidableEq α]

def proper (next : α → Option α) (a : α) : Option α := (next a).filter (· ≠ a)

theorem proper_eq_some : proper next a = some b ↔ next a = some b ∧ b ≠ a := by
  simp [proper, Option.filter_eq_some_iff]

theorem proper_eq_none : proper next a = none ↔ next a = none ∨ next a = some a := by
  cases h : next a with
  | none => simp [proper, h]
  | some b => simp [proper, h]

theorem follows_of_proper (h : Follows (proper next) a b) : Follows next a b :=
  (proper_eq_some.mp h).1

theorem OnlySelfCycles.acyclic_proper (h : OnlySelfCycles next) : Acyclic (proper next) := by
  intro a hcycle
  obtain ⟨b, hab, hba⟩ := TransGen.head'_iff.mp hcycle
  obtain ⟨hnext, hne⟩ := proper_eq_some.mp hab
  have hback : ReflTransGen (Follows next) b a :=
    ReflTransGen.mono (fun _ _ => follows_of_proper) b a hba
  rcases ReflTransGen.cases_head hback with rfl | ⟨c, hbc, hca⟩
  · exact hne rfl
  · exact hne (h a b (.single hnext) (TransGen.head' hbc hca)).symm

theorem Acyclic.proper_eq (h : Acyclic next) : proper next = next := by
  funext a
  cases hnext : next a with
  | none => exact proper_eq_none.mpr (.inl hnext)
  | some b =>
    refine proper_eq_some.mpr ⟨hnext, ?_⟩
    rintro rfl
    exact h b (.single hnext)

end Clabernetes.Base
