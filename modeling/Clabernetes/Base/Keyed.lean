import Clabernetes.Base.SortFunc

/-!
# Maps filled from lists

A loop that writes each element of a list under its key leaves the last element of each key. Where
keys differ the map has the elements of the list, and lists in order are equal as soon as their maps
are.
-/

namespace Clabernetes.Base

open Std List

variable {α κ : Type} [DecidableEq κ]

def indexBy (key : α → κ) (l : List α) (k : κ) : Option α := l.reverse.find? fun a => key a = k

variable {key : α → κ} {l l' : List α} {k : κ} {a : α}

theorem mem_of_indexBy (h : indexBy key l k = some a) : a ∈ l ∧ key a = k :=
  ⟨mem_reverse.mp (mem_of_find?_eq_some h), by simpa using find?_some h⟩

theorem indexBy_eq_none : indexBy key l k = none ↔ ∀ a ∈ l, key a ≠ k := by
  simp [indexBy, find?_eq_none]

theorem isSome_indexBy : (indexBy key l k).isSome = true ↔ ∃ a ∈ l, key a = k := by
  rw [← Option.ne_none_iff_isSome, ne_eq, indexBy_eq_none]
  simp

theorem indexBy_eq_some (hkeys : l.Pairwise fun a b => key a ≠ key b) :
    indexBy key l k = some a ↔ a ∈ l ∧ key a = k := by
  have hreverse : l.reverse.Pairwise fun a b => key a ≠ key b :=
    pairwise_reverse.mpr (hkeys.imp Ne.symm)
  rw [indexBy, find?_key_eq_some hreverse, mem_reverse]

variable {cmp : α → α → Ordering} [TransCmp cmp]

theorem eq_of_indexBy_eq (hkeys : l.Pairwise fun a b => key a ≠ key b)
    (hkeys' : l'.Pairwise fun a b => key a ≠ key b)
    (hapart : ∀ a ∈ l, ∀ b ∈ l, cmp a b = .eq → a = b) (hl : InOrder cmp l)
    (hl' : InOrder cmp l') (h : indexBy key l = indexBy key l') : l = l' := by
  apply eq_of_perm_of_inOrder _ hapart hl hl'
  have hnodup : ∀ {m : List α}, (m.Pairwise fun a b => key a ≠ key b) → m.Nodup := fun hm =>
    hm.imp fun hne heq => hne (congrArg key heq)
  rw [perm_ext_iff_of_nodup (hnodup hkeys) (hnodup hkeys')]
  intro a
  have hsame : indexBy key l (key a) = some a ↔ indexBy key l' (key a) = some a := by rw [h]
  simpa [indexBy_eq_some hkeys, indexBy_eq_some hkeys'] using hsame

end Clabernetes.Base
