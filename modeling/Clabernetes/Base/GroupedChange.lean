import Mathlib.Order.MinMax

/-!
# Changes of grouped entries

Two families of optional entries differ at some keys. A group is affected when an entry of it
differs, in either family, and then every entry of the group counts. An entry that counts from a
first family to a third counts on one of the two ways through a second, so bounds on what counts
compose.
-/

namespace Clabernetes.Base

variable {κ β γ : Type} (group : β → γ)

def Affected (s t : κ → Option β) (g : γ) : Prop :=
  ∃ k b, s k ≠ t k ∧ (s k = some b ∨ t k = some b) ∧ group b = g

def Counts (s t : κ → Option β) (b : β) : Prop :=
  (∃ k, s k = some b ∨ t k = some b) ∧ Affected group s t (group b)

variable {group} {s t u : κ → Option β} {g : γ} {b : β}

theorem Affected.symm (h : Affected group s t g) : Affected group t s g := by
  obtain ⟨k, b, hne, hentry, hgroup⟩ := h
  exact ⟨k, b, hne.symm, hentry.symm, hgroup⟩

theorem Counts.symm (h : Counts group s t b) : Counts group t s b := by
  obtain ⟨⟨k, hentry⟩, haffected⟩ := h
  exact ⟨⟨k, hentry.symm⟩, haffected.symm⟩

theorem eq_of_not_affected (h : ∀ g, ¬Affected group s t g) : s = t := by
  ext1 k
  by_contra hne
  cases hs : s k with
  | some b => exact h (group b) ⟨k, b, hne, .inl hs, rfl⟩
  | none =>
    cases ht : t k with
    | some b => exact h (group b) ⟨k, b, hne, .inr ht, rfl⟩
    | none => exact hne (hs.trans ht.symm)

theorem not_affected_self : ¬Affected group s s g := by
  rintro ⟨k, b, hne, -⟩
  exact hne rfl

theorem Affected.of_entry {k : κ} (hne : s k ≠ u k) (hentry : s k = some b) :
    Affected group s t (group b) ∨ Affected group t u (group b) := by
  by_cases hst : s k = t k
  · exact .inr ⟨k, b, hst ▸ hne, .inl (hst ▸ hentry), rfl⟩
  · exact .inl ⟨k, b, hst, .inl hentry, rfl⟩

theorem Affected.split (h : Affected group s u g) :
    Affected group s t g ∨ Affected group t u g := by
  obtain ⟨k, b, hne, hentry | hentry, rfl⟩ := h
  · exact Affected.of_entry hne hentry
  · have hback : Affected group u t (group b) ∨ Affected group t s (group b) :=
      Affected.of_entry hne.symm hentry
    rcases hback with hut | hts
    · exact .inr hut.symm
    · exact .inl hts.symm

theorem Counts.of_entry {k : κ} (hentry : s k = some b)
    (h : Affected group s t (group b) ∨ Affected group t u (group b)) :
    Counts group s t b ∨ Counts group t u b := by
  by_cases hst : Affected group s t (group b)
  · exact .inl ⟨⟨k, .inl hentry⟩, hst⟩
  · have hsame : s k = t k := by
      by_contra hne
      exact hst ⟨k, b, hne, .inl hentry, rfl⟩
    exact .inr ⟨⟨k, .inl (hsame ▸ hentry)⟩, h.resolve_left hst⟩

theorem Counts.split (h : Counts group s u b) : Counts group s t b ∨ Counts group t u b := by
  obtain ⟨⟨k, hentry | hentry⟩, haffected⟩ := h
  · exact Counts.of_entry hentry haffected.split
  · have hback : Affected group u t (group b) ∨ Affected group t s (group b) := by
      rcases haffected.split (t := t) with hst | htu
      · exact .inr hst.symm
      · exact .inl htu.symm
    rcases Counts.of_entry hentry hback with hut | hts
    · exact .inr hut.symm
    · exact .inl hts.symm

def Within (group : β → γ) (rank : β → ℕ) (bound : ℕ) (s t : κ → Option β) : Prop :=
  ∀ b, Counts group s t b → rank b ≤ bound

variable {rank : β → ℕ} {m n : ℕ}

theorem Within.symm (h : Within group rank n s t) : Within group rank n t s :=
  fun b hb => h b hb.symm

theorem Within.trans (hst : Within group rank m s t) (htu : Within group rank n t u) :
    Within group rank (max m n) s u := by
  intro b hb
  rcases hb.split (t := t) with hcounts | hcounts
  · exact (hst b hcounts).trans (le_max_left m n)
  · exact (htu b hcounts).trans (le_max_right m n)

end Clabernetes.Base
