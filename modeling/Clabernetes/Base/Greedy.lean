import Mathlib.Data.List.Nodup

/-!
# Greedy selection

Elements are taken in the order of a list, each unless it clashes with one that was taken before.
What is taken is free of clashes and maximal: whatever is left out clashes with something that was
taken earlier.
-/

namespace Clabernetes.Base

open List

variable {α : Type*} (clash : α → α → Prop) [DecidableRel clash]

def greedyFrom (taken : List α) : List α → List α
  | [] => taken
  | a :: rest =>
    if ∃ b ∈ taken, clash b a then greedyFrom taken rest else greedyFrom (taken ++ [a]) rest

def greedy (l : List α) : List α := greedyFrom clash [] l

variable {clash} {taken l : List α}

theorem greedyFrom_append (l' : List α) :
    greedyFrom clash taken (l ++ l') = greedyFrom clash (greedyFrom clash taken l) l' := by
  induction l generalizing taken with
  | nil => rfl
  | cons a rest ih =>
    rw [cons_append, greedyFrom, greedyFrom]
    by_cases h : ∃ b ∈ taken, clash b a
    · rw [if_pos h, if_pos h, ih]
    · rw [if_neg h, if_neg h, ih]

theorem greedy_append_singleton (a : α) : greedy clash (l ++ [a]) =
      if ∃ b ∈ greedy clash l, clash b a then greedy clash l else greedy clash l ++ [a] := by
  rw [greedy, greedyFrom_append, greedyFrom, greedyFrom, greedyFrom]
  rfl

theorem mem_greedyFrom_of_mem {b : α} (h : b ∈ taken) : b ∈ greedyFrom clash taken l := by
  induction l generalizing taken with
  | nil => exact h
  | cons a rest ih =>
    rw [greedyFrom]
    split
    · exact ih h
    · exact ih (mem_append_left _ h)

theorem mem_or_mem_of_mem_greedyFrom {b : α} (h : b ∈ greedyFrom clash taken l) :
    b ∈ taken ∨ b ∈ l := by
  induction l generalizing taken with
  | nil => exact .inl h
  | cons a rest ih =>
    rw [greedyFrom] at h
    split at h
    · exact (ih h).imp_right (mem_cons_of_mem a)
    · rcases ih h with htaken | hrest
      · rcases mem_append.mp htaken with htaken | ha
        · exact .inl htaken
        · exact .inr (mem_singleton.mp ha ▸ mem_cons_self)
      · exact .inr (mem_cons_of_mem a hrest)

theorem mem_of_mem_greedy {b : α} (h : b ∈ greedy clash l) : b ∈ l :=
  (mem_or_mem_of_mem_greedyFrom h).resolve_left not_mem_nil

/-- An element of a list without repetitions is taken exactly if it clashes with nothing that was
taken before it. -/
theorem mem_greedy_iff {before after : List α} {a : α} (h : (before ++ a :: after).Nodup) :
    a ∈ greedy clash (before ++ a :: after) ↔ ¬∃ b ∈ greedy clash before, clash b a := by
  rw [nodup_append] at h
  have hbefore : a ∉ greedy clash before := by
    intro hmem
    exact h.2.2 a (mem_of_mem_greedy hmem) a mem_cons_self rfl
  have hafter : a ∉ after := (nodup_cons.mp h.2.1).1
  rw [greedy, greedyFrom_append, greedyFrom]
  split
  · next hclash =>
    refine iff_of_false ?_ (not_not_intro hclash)
    intro hmem
    exact (mem_or_mem_of_mem_greedyFrom hmem).elim hbefore hafter
  · next hclash =>
    refine iff_of_true (mem_greedyFrom_of_mem ?_) hclash
    exact mem_append_right _ mem_cons_self

theorem greedyFrom_pairwise (h : taken.Pairwise fun a b => ¬clash a b) :
    (greedyFrom clash taken l).Pairwise fun a b => ¬clash a b := by
  induction l generalizing taken with
  | nil => exact h
  | cons a rest ih =>
    rw [greedyFrom]
    split
    · exact ih h
    · next hfree =>
      apply ih
      rw [pairwise_append]
      refine ⟨h, pairwise_singleton _ _, ?_⟩
      intro b hb c hc hclash
      rw [mem_singleton.mp hc] at hclash
      exact hfree ⟨b, hb, hclash⟩

theorem greedy_pairwise : (greedy clash l).Pairwise fun a b => ¬clash a b :=
  greedyFrom_pairwise .nil

end Clabernetes.Base
