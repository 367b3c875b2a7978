import Clabernetes.Base.GoMap
import Mathlib.Data.List.Induction

/-!
# Maps under new keys

A loop over a map that writes every entry into a new one under another key. If the new keys are
distinct the new map has the entries of the old one, in whatever order they were visited.
-/

namespace Clabernetes.Base.GoMap

open Std List Option ExtTreeMap GoMap

variable {α β κ : Type} [Ord α] [TransOrd α] [LawfulEqOrd α] [Ord κ] [TransOrd κ] [LawfulEqOrd κ]
  [DecidableEq κ]

def ofEntries (l : List (κ × β)) : GoMap κ β := ExtTreeMap.ofList l

theorem lookup_ofEntries_append {l : List (κ × β)} {e : κ × β} {k : κ} :
    (ofEntries (l ++ [e]))[k]? = if e.1 = k then some e.2 else (ofEntries l)[k]? := by
  rw [ofEntries, ofList_eq_insertMany_empty, insertMany_append,
    insertMany_list_singleton, ← ofList_eq_insertMany_empty, lookup_insert]
  rfl

theorem lookup_ofEntries {l : List (κ × β)} {k : κ}
    (hl : ∀ v, (k, v) ∈ l → ∀ w, (k, w) ∈ l → v = w) {v : β} :
    (ofEntries l)[k]? = some v ↔ (k, v) ∈ l := by
  induction l using List.reverseRecOn with
  | nil => simp [ofEntries]
  | append_singleton l e ih =>
    rw [lookup_ofEntries_append, mem_append, mem_singleton]
    split
    · next hk =>
      subst hk
      rw [some.injEq]
      constructor
      · rintro rfl
        exact .inr rfl
      · exact fun h => hl e.2 (by simp) v (by simpa using h)
    · next hk =>
      rw [ih fun v hv w hw => hl v (mem_append_left _ hv) w (mem_append_left _ hw)]
      exact ⟨.inl, fun h => h.resolve_right fun heq => hk (heq ▸ rfl)⟩

def rekey (rank : α → ℕ) (f : α → κ) (m : GoMap α β) : GoMap κ β :=
  ofEntries ((m.iterate rank).map fun e => (f e.1, e.2))

variable {rank : α → ℕ} {f : α → κ} {m : GoMap α β}

theorem lookup_rekey {k : κ} (hf : ∀ a ∈ m, ∀ b ∈ m, f a = k → f b = k → m[a]? = m[b]?) {v : β} :
    (m.rekey rank f)[k]? = some v ↔ ∃ a, m[a]? = some v ∧ f a = k := by
  have hmem : ∀ {a v}, m[a]? = some v → a ∈ m := fun h => mem_of_lookup h
  rw [rekey, lookup_ofEntries]
  · simp only [List.mem_map, Prod.mk.injEq, Prod.exists, mem_iterate]
    constructor
    · rintro ⟨a, w, hw, rfl, rfl⟩
      exact ⟨a, hw, rfl⟩
    · rintro ⟨a, hv, rfl⟩
      exact ⟨a, v, hv, rfl, rfl⟩
  · simp only [List.mem_map, Prod.mk.injEq, Prod.exists, mem_iterate]
    rintro v ⟨a, _, ha, hak, rfl⟩ w ⟨b, _, hb, hbk, rfl⟩
    exact some.inj (ha.symm.trans ((hf a (hmem ha) b (hmem hb) hak hbk).trans hb))

theorem lookup_rekey_last {a : α} {v : β} (ha : m[a]? = some v) :
    (m.rekey (fun b => if compare a b = .eq then 1 else 0) f)[f a]? = some v := by
  let rank : α → ℕ := fun b => if compare a b = .eq then 1 else 0
  have hsorted : (m.iterate rank).Pairwise fun e e' => rank e.1 ≤ rank e'.1 :=
    pairwise_insertionSort _ _
  have hkeys := nodup_keys_iterate rank m
  obtain ⟨before, after, hl⟩ := append_of_mem ((mem_iterate rank m a v).mpr ha)
  have hafter : after = [] := by
    apply eq_nil_iff_forall_not_mem.mpr
    intro e he
    have hrank : rank a ≤ rank e.1 := by
      rw [hl, pairwise_append, pairwise_cons] at hsorted
      exact hsorted.2.1.1 e he
    have hne := key_ne_of_nodup_middle (hl ▸ hkeys) (mem_append_right before he)
    simp [rank, hne.symm] at hrank
  change (ofEntries ((m.iterate rank).map _))[f a]? = some v
  rw [hl, hafter, map_append, map_singleton, lookup_ofEntries_append, if_pos rfl]

/-- A map under new keys does not depend on the visiting order exactly when entries that get one
key are one value. -/
theorem rekey_eq_iff : (∀ rank rank' : α → ℕ, m.rekey rank f = m.rekey rank' f) ↔
    ∀ a ∈ m, ∀ b ∈ m, f a = f b → m[a]? = m[b]? := by
  constructor
  · intro h a ha b hb hab
    obtain ⟨v, hv⟩ := exists_lookup ha
    obtain ⟨w, hw⟩ := exists_lookup hb
    rw [hv, hw, ← lookup_rekey_last (f := f) hv,
      h _ fun c => if compare b c = .eq then 1 else 0, hab]
    exact lookup_rekey_last hw
  · intro hf rank rank'
    ext k v
    have hk : ∀ a ∈ m, ∀ b ∈ m, f a = k → f b = k → m[a]? = m[b]? :=
      fun a ha b hb hak hbk => hf a ha b hb (hak.trans hbk.symm)
    rw [lookup_rekey hk, lookup_rekey hk]

/-- A key keeps its value in every visiting order exactly when each entry that gets its new key has
the value it has. -/
theorem lookup_rekey_apply_iff {a : α} : (∀ rank, (m.rekey rank f)[f a]? = m[a]?) ↔
    ∀ b v, m[b]? = some v → f b = f a → m[a]? = some v := by
  constructor
  · intro h b v hb hab
    rw [← h fun c => if compare b c = .eq then 1 else 0, ← hab]
    exact lookup_rekey_last hb
  · intro hf rank
    ext v
    rw [lookup_rekey]
    · constructor
      · rintro ⟨b, hb, hab⟩
        exact hf b v hb hab
      · exact fun h => ⟨a, h, rfl⟩
    · intro b hb c hc hba hca
      obtain ⟨v, hv⟩ := exists_lookup hb
      obtain ⟨w, hw⟩ := exists_lookup hc
      rw [hv, hw, ← hf b v hv hba, ← hf c w hw hca]

end Clabernetes.Base.GoMap
