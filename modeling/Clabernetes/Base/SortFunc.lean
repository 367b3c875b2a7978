import Clabernetes.Base.Reordered

/-!
# Sorting with a comparator

`slices.SortFunc` is a parameter: it permutes, its result is in order, and it leaves a list that is
in order as it is. It need not be stable. Two lists with the same elements are sorted to the same
list as soon as the comparator tells the different ones apart.
-/

namespace Clabernetes.Base

open Std List

abbrev InOrder {α : Type} (cmp : α → α → Ordering) (l : List α) : Prop :=
  l.Pairwise fun a b => (cmp a b).isLE = true

structure SortFunc where
  sort : ∀ {α : Type}, (α → α → Ordering) → List α → List α
  perm_sort : ∀ {α : Type} (cmp : α → α → Ordering) [TransCmp cmp] (l : List α), (sort cmp l).Perm l
  inOrder_sort : ∀ {α : Type} (cmp : α → α → Ordering) [TransCmp cmp] (l : List α),
    InOrder cmp (sort cmp l)
  sort_of_inOrder : ∀ {α : Type} (cmp : α → α → Ordering) [TransCmp cmp] (l : List α),
    InOrder cmp l → sort cmp l = l

def insertionSortFunc : SortFunc where
  sort cmp l := l.insertionSort fun a b => (cmp a b).isLE = true
  perm_sort cmp _ l := perm_insertionSort _ l
  inOrder_sort {α} cmp _ l := by
    have : Std.Total fun a b : α => (cmp a b).isLE = true := ⟨fun a b => by
      have hswap : cmp b a = (cmp a b).swap := OrientedCmp.eq_swap
      rw [hswap]
      cases cmp a b <;> simp⟩
    have : IsTrans α fun a b => (cmp a b).isLE = true := ⟨fun _ _ _ => TransCmp.isLE_trans⟩
    exact pairwise_insertionSort _ l
  sort_of_inOrder cmp _ l h := List.Pairwise.insertionSort_eq h

variable {α : Type} {cmp : α → α → Ordering} [TransCmp cmp]

theorem eq_of_perm_of_inOrder {l l' : List α} (hperm : l.Perm l')
    (hapart : ∀ a ∈ l, ∀ b ∈ l, cmp a b = .eq → a = b) (hl : InOrder cmp l)
    (hl' : InOrder cmp l') : l = l' := by
  apply hperm.eq_of_pairwise _ hl hl'
  intro a b ha hb hab hba
  apply hapart a ha b (hperm.mem_iff.mpr hb)
  have hswap : cmp b a = (cmp a b).swap := OrientedCmp.eq_swap
  rw [hswap] at hba
  cases h : cmp a b with
  | lt => simp [h] at hba
  | eq => rfl
  | gt => simp [h] at hab

variable {l l' : List α} (sorting : SortFunc)

theorem SortFunc.sort_eq_of_perm (h : l.Perm l')
    (hapart : ∀ a ∈ l, ∀ b ∈ l, cmp a b = .eq → a = b) :
    sorting.sort cmp l = sorting.sort cmp l' := by
  apply eq_of_perm_of_inOrder _ _ (sorting.inOrder_sort cmp l) (sorting.inOrder_sort cmp l')
  · exact ((sorting.perm_sort cmp l).trans h).trans (sorting.perm_sort cmp l').symm
  · intro a ha b hb
    rw [(sorting.perm_sort cmp l).mem_iff] at ha hb
    exact hapart a ha b hb

section Keys

variable {κ : Type} {key : α → κ} (hkeys : l.Pairwise fun a b => key a ≠ key b)
  (hkey : ∀ a b, cmp a b = .eq → key a = key b)
include hkeys hkey

omit [TransCmp cmp] in
theorem eq_of_cmp_eq : ∀ a ∈ l, ∀ b ∈ l, cmp a b = .eq → a = b := by
  intro a ha b hb hab
  have hnodup : (l.map key).Nodup := by rwa [List.Nodup, pairwise_map]
  exact inj_on_of_nodup_map hnodup ha hb (hkey a b hab)

theorem SortFunc.sort_eq_of_keys (h : l.Perm l') : sorting.sort cmp l = sorting.sort cmp l' :=
  sorting.sort_eq_of_perm h (eq_of_cmp_eq hkeys hkey)

theorem SortFunc.filter_sort (p : α → Bool) :
    (sorting.sort cmp l).filter p = sorting.sort cmp (l.filter p) := by
  have hperm : ((sorting.sort cmp l).filter p).Perm (l.filter p) :=
    (sorting.perm_sort cmp l).filter p
  apply eq_of_perm_of_inOrder (hperm.trans (sorting.perm_sort cmp _).symm) _
    ((sorting.inOrder_sort cmp l).filter p) (sorting.inOrder_sort cmp _)
  intro a ha b hb
  rw [hperm.mem_iff, mem_filter] at ha hb
  exact eq_of_cmp_eq hkeys hkey a ha.1 b hb.1

end Keys

theorem SortFunc.map_sort_idem (f : α → α) (hf : ∀ a, f (f a) = f a)
    (hcmp : ∀ a b, cmp (f a) (f b) = cmp a b) (l : List α) :
    (sorting.sort cmp ((sorting.sort cmp l).map f)).map f = (sorting.sort cmp l).map f := by
  have horder : InOrder cmp ((sorting.sort cmp l).map f) := by
    rw [InOrder, pairwise_map]
    simpa only [hcmp] using sorting.inOrder_sort cmp l
  rw [sorting.sort_of_inOrder cmp _ horder, map_map]
  exact map_congr_left fun a _ => hf a

@[simp] theorem SortFunc.sort_sort (l : List α) :
    sorting.sort cmp (sorting.sort cmp l) = sorting.sort cmp l :=
  sorting.sort_of_inOrder cmp _ (sorting.inOrder_sort cmp l)

end Clabernetes.Base
