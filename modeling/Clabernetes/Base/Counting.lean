import Mathlib.Data.Set.Card

/-!
# Counting

Sets that a list bounds.
-/

namespace Clabernetes.Base

theorem encard_le_of_subset_list {α : Type} [DecidableEq α] (l : List α) {bound : ℕ} {S : Set α}
    (hsubset : ∀ a ∈ S, a ∈ l) (hlength : l.length ≤ bound) : S.encard ≤ bound := by
  calc S.encard ≤ (l.toFinset : Set α).encard :=
        Set.encard_le_encard fun a h => by simpa using hsubset a h
    _ = (l.toFinset.card : ℕ∞) := Set.encard_coe_eq_coe_finsetCard _
    _ ≤ bound := by exact_mod_cast (List.toFinset_card_le l).trans hlength

end Clabernetes.Base
