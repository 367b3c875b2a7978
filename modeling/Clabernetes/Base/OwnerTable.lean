import Clabernetes.Base.GoMap

/-!
# Owner tables

A Go `map[α]map[β]bool` used as a table of the owners of each `α`: adding an owner makes the inner
map on demand and removing the last one drops it. The table is read through the relation `Owns`.
-/

namespace Clabernetes.Base

open Std ExtTreeMap GoMap

variable {α β : Type} [Ord α] [Ord β] [TransOrd α] [TransOrd β]

abbrev OwnerTable (α β : Type) [Ord α] [Ord β] [TransOrd β] := GoMap α (GoMap β Unit)

namespace OwnerTable

variable (t : OwnerTable α β)

def owners (a : α) : GoMap β Unit := t[a]?.getD ∅

def add (a : α) (b : β) : OwnerTable α β :=
  t.insert a ((t.owners a).insert b ())

def remove (a : α) (b : β) : OwnerTable α β :=
  if ((t.owners a).erase b).size = 0 then t.erase a else t.insert a ((t.owners a).erase b)

def freeFor (a : α) (b : β) : Bool :=
  (t.owners a).size == 0 || ((t.owners a).size == 1 && (t.owners a).contains b)

def Owns (a : α) (b : β) : Prop := b ∈ t.owners a

theorem not_owns_empty (a : α) (b : β) : ¬ (∅ : OwnerTable α β).Owns a b := by simp [Owns, owners]

theorem freeFor_iff [LawfulEqOrd β] {t : OwnerTable α β} {a : α} {b : β} :
    t.freeFor a b = true ↔ ∀ b', t.Owns a b' → b' = b := by
  have hnodup : (t.owners a).keys.Nodup := nodup_keys
  simp only [freeFor, Owns, Bool.or_eq_true, Bool.and_eq_true, beq_iff_eq, contains_iff_mem,
    ← mem_keys, ← length_keys]
  generalize (t.owners a).keys = keys at hnodup ⊢
  rcases keys with _ | ⟨x, _ | ⟨y, rest⟩⟩
  · simp
  · simp [eq_comm]
  · refine ⟨fun h => by simp at h, fun h => ?_⟩
    have hsame : x = y := (h x (by simp)).trans (h y (by simp)).symm
    simp [hsame] at hnodup

variable [LawfulEqOrd α] [DecidableEq α]

theorem owners_add (a a' : α) (b : β) :
    (t.add a b).owners a' = if a = a' then (t.owners a).insert b () else t.owners a' := by
  rw [owners, add, lookup_insert]
  split <;> rfl

theorem owners_remove (a a' : α) (b : β) :
    (t.remove a b).owners a' = if a = a' then (t.owners a).erase b else t.owners a' := by
  unfold remove
  split
  · next hempty =>
    rw [owners, lookup_erase]
    split
    · exact (eq_empty_iff_size_eq_zero.mpr hempty).symm
    · rfl
  · rw [owners, lookup_insert]
    split <;> rfl

variable [LawfulEqOrd β]

theorem owns_add (a a' : α) (b b' : β) :
    (t.add a b).Owns a' b' ↔ t.Owns a' b' ∨ (a' = a ∧ b' = b) := by
  rw [Owns, owners_add]
  split
  · next ha =>
    subst ha
    rw [mem_insert, LawfulEqOrd.compare_eq_iff_eq]
    simp only [Owns, true_and]
    rw [or_comm, eq_comm]
  · next ha => simp [Owns, Ne.symm ha]

theorem owns_remove (a a' : α) (b b' : β) :
    (t.remove a b).Owns a' b' ↔ t.Owns a' b' ∧ ¬ (a' = a ∧ b' = b) := by
  rw [Owns, owners_remove]
  split
  · next ha =>
    subst ha
    rw [mem_erase]
    simp only [Owns, ne_eq, LawfulEqOrd.compare_eq_iff_eq, true_and]
    rw [and_comm, eq_comm]
  · next ha => simp [Owns, Ne.symm ha]

end OwnerTable

end Clabernetes.Base
