import Mathlib.Data.List.Sort

/-!
# Sorting by a key

A list sorted by a key is determined by its elements as soon as their keys differ, whatever order
they came in and whatever algorithm sorted them.
-/

namespace Clabernetes.Base

open List

variable {α κ : Type} [LinearOrder κ] (key : α → κ)

abbrev SortedBy (l : List α) : Prop := l.Pairwise fun a b => key a ≤ key b

def sortBy (l : List α) : List α := l.insertionSort fun a b => key a ≤ key b

theorem perm_sortBy (l : List α) : (sortBy key l).Perm l := perm_insertionSort _ l

theorem sortedBy_sortBy (l : List α) : SortedBy key (sortBy key l) := by
  have : Std.Total fun a b : α => key a ≤ key b := ⟨fun a b => le_total (key a) (key b)⟩
  have : IsTrans α fun a b => key a ≤ key b := ⟨fun _ _ _ => le_trans⟩
  exact pairwise_insertionSort _ l

variable {l : List α} {β : Type} {R : α → β → Prop} {r : List β} {l' : List α} {a : α}

@[simp] theorem mem_sortBy : a ∈ sortBy key l ↔ a ∈ l := (perm_sortBy key l).mem_iff

variable {key}

theorem eq_of_perm_of_sortedBy (hperm : l.Perm l') (hnodup : (l.map key).Nodup)
    (hl : SortedBy key l) (hl' : SortedBy key l') : l = l' := by
  apply hperm.eq_of_pairwise _ hl hl'
  intro a b ha hb hab hba
  exact inj_on_of_nodup_map hnodup ha (hperm.mem_iff.mpr hb) (le_antisymm hab hba)

theorem sortBy_eq_of_perm (hperm : l.Perm l') (hnodup : (l.map key).Nodup) :
    sortBy key l = sortBy key l' := by
  apply eq_of_perm_of_sortedBy _ _ (sortedBy_sortBy key l) (sortedBy_sortBy key l')
  · exact ((perm_sortBy key l).trans hperm).trans (perm_sortBy key l').symm
  · rwa [((perm_sortBy key l).map key).nodup_iff]

theorem filter_key_eq_singleton (hnodup : (l.map key).Nodup) (ha : a ∈ l) :
    (l.filter fun b => key b = key a) = [a] := by
  have hsame : ∀ b ∈ l, decide (key b = key a) = true ↔ b = a := by
    intro b hb
    rw [decide_eq_true_iff]
    exact ⟨fun h => inj_on_of_nodup_map hnodup hb ha h, fun h => h ▸ rfl⟩
  have hperm : (l.filter fun b => key b = key a).Perm [a] := by
    apply (perm_ext_iff_of_nodup ((hnodup.of_map _).filter _) (nodup_singleton a)).mpr
    intro b
    rw [mem_filter, mem_singleton]
    constructor
    · rintro ⟨hb, hkey⟩
      exact (hsame b hb).mp hkey
    · rintro rfl
      exact ⟨ha, (hsame b ha).mpr rfl⟩
  exact perm_singleton.mp hperm

theorem mapM_eq_some_iff {f : α → Option β} :
    l.mapM f = some r ↔ List.Forall₂ (fun a b => f a = some b) l r := by
  induction l generalizing r with
  | nil => simp [eq_comm]
  | cons a rest ih =>
    rw [mapM_cons]
    cases ha : f a with
    | none => simp [ha, forall₂_cons_left_iff]
    | some b =>
      simp only [ha, forall₂_cons_left_iff, ← ih, Option.some.injEq]
      cases rest.mapM f with
      | none => simp
      | some tail => simp [eq_comm]

theorem exists_left_of_forall₂ (h : List.Forall₂ R l r) {y : β} (hy : y ∈ r) : ∃ a ∈ l, R a y := by
  induction h with
  | nil => cases hy
  | cons hax _ ih =>
    rcases mem_cons.mp hy with rfl | hy
    · exact ⟨_, mem_cons_self, hax⟩
    · obtain ⟨a, ha, hay⟩ := ih hy
      exact ⟨a, mem_cons_of_mem _ ha, hay⟩

theorem pairwise_of_forall₂ {P : α → α → Prop} {Q : β → β → Prop} (h : List.Forall₂ R l r)
    (hl : l.Pairwise P) (hPQ : ∀ a b x y, R a x → R b y → P a b → Q x y) : r.Pairwise Q := by
  induction h with
  | nil => exact .nil
  | cons hax hrest ih =>
    rw [pairwise_cons] at hl ⊢
    refine ⟨fun y hy => ?_, ih hl.2⟩
    obtain ⟨b, hb, hby⟩ := exists_left_of_forall₂ hrest hy
    exact hPQ _ b _ y hax hby (hl.1 b hb)

end Clabernetes.Base
