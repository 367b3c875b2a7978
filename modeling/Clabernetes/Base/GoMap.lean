import Mathlib.Data.List.Sort

/-!
# Go maps

A Go map is an extensional tree map: only its lookups are observable. What Go leaves open, the order
in which a `range` loop visits the entries, is made explicit by a rank on the keys; every visiting
order comes from some rank, and a rank always visits every entry once.
-/

namespace Clabernetes.Base

open Std List Option ExtTreeMap

abbrev GoMap (α β : Type) [Ord α] := ExtTreeMap α β

namespace GoMap

variable {α β γ : Type} [Ord α] [TransOrd α]

def anyEntry (m : GoMap α β) (p : α → β → Bool) : Bool := m.toList.any fun e => p e.1 e.2

/-- The entries in the visiting order that `rank` describes. -/
def iterate (rank : α → Nat) (m : GoMap α β) : List (α × β) :=
  m.toList.insertionSort fun a b => rank a.1 ≤ rank b.1

theorem nodup_keys_iterate (rank : α → Nat) (m : GoMap α β) :
    ((m.iterate rank).map Prod.fst).Nodup := by
  have hp : ((m.iterate rank).map Prod.fst).Perm (m.toList.map Prod.fst) :=
    (perm_insertionSort _ m.toList).map Prod.fst
  rw [hp.nodup_iff, map_fst_toList_eq_keys]
  exact nodup_keys

theorem mem_of_lookup {m : GoMap α β} {a : α} {b : β} (h : m[a]? = some b) : a ∈ m :=
  isSome_getElem?_iff_mem.mp (h ▸ rfl)

theorem exists_lookup {m : GoMap α β} {a : α} (h : a ∈ m) : ∃ b, m[a]? = some b :=
  isSome_iff_exists.mp (isSome_getElem?_iff_mem.mpr h)

variable [LawfulEqOrd α]

section

variable (m : GoMap α β)

theorem lookup_insert [DecidableEq α] (k a : α) (b : β) :
    (m.insert k b)[a]? = if k = a then some b else m[a]? := by
  simp only [ExtTreeMap.getElem?_insert, LawfulEqOrd.compare_eq_iff_eq]

theorem lookup_erase [DecidableEq α] (k a : α) :
    (m.erase k)[a]? = if k = a then none else m[a]? := by
  simp only [getElem?_erase, LawfulEqOrd.compare_eq_iff_eq]

theorem lookup_modify [DecidableEq α] (k a : α) (f : β → β) :
    (m.modify k f)[a]? = if k = a then m[k]?.map f else m[a]? := by
  simp only [ExtTreeMap.getElem?_modify, LawfulEqOrd.compare_eq_iff_eq]

theorem anyEntry_iff (p : α → β → Bool) :
    m.anyEntry p = true ↔ ∃ a b, m[a]? = some b ∧ p a b = true := by
  simp [anyEntry, mem_toList_iff_getElem?_eq_some]

theorem anyEntry_eq_false_iff (p : α → β → Bool) :
    m.anyEntry p = false ↔ ∀ a b, m[a]? = some b → p a b = false := by
  rw [← Bool.not_eq_true, anyEntry_iff]
  simp

end

theorem mem_iterate (rank : α → Nat) (m : GoMap α β) (a : α) (b : β) :
    (a, b) ∈ m.iterate rank ↔ m[a]? = some b := by
  rw [iterate, mem_insertionSort, mem_toList_iff_getElem?_eq_some]

theorem mem_filter_keys {m : GoMap α β} {p : α → Bool} {a : α} :
    a ∈ m.filter (fun a _ => p a) ↔ a ∈ m ∧ p a = true := by
  rw [← isSome_getElem?_iff_mem, getElem?_filter', isSome_filter, Option.any_eq_true]
  simp [← isSome_iff_exists]

end GoMap

theorem key_ne_of_nodup_middle {α κ : Type} {key : α → κ} {before after : List α} {x y : α}
    (h : ((before ++ x :: after).map key).Nodup) (hy : y ∈ before ++ after) : key y ≠ key x := by
  rw [map_append, map_cons, nodup_middle, nodup_cons, ← map_append] at h
  intro heq
  exact h.1 (List.mem_map.mpr ⟨y, hy, heq⟩)

end Clabernetes.Base
