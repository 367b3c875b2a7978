import Clabernetes.Base.Checks
import Clabernetes.Base.Sorting

/-!
# Reordered lists

A list may come in another order, each of its elements changed as a relation allows. What concerns
all elements, or any two of them, or the one with a key, is kept if the change keeps it; so are the
checks of a loop.
-/

namespace Clabernetes.Base

open List

variable {α ε : Type} {R : α → α → Prop} {l l' : List α} {check : List α → α → Except ε Unit}
  {apart : α → α → Prop} {β : Type} {a : α}

/-- The same elements in another order, each of them changed as the relation allows. -/
def Reordered (R : α → α → Prop) (l l' : List α) : Prop := ∃ m, l.Perm m ∧ List.Forall₂ R m l'

theorem Reordered.of_map (f : α → α) (hR : ∀ a, R a (f a)) (hperm : l'.Perm l) :
    Reordered R l (l'.map f) := by
  refine ⟨l', hperm.symm, ?_⟩
  rw [forall₂_map_right_iff, forall₂_same]
  exact fun a _ => hR a

theorem Reordered.of_perm (h : l.Perm l') : Reordered Eq l l' := ⟨l', h, forall₂_refl l'⟩

section

variable (h : Reordered R l l')

include h

theorem Reordered.exists_left {b : α} (hb : b ∈ l') : ∃ a ∈ l, R a b := by
  obtain ⟨m, hperm, hall⟩ := h
  obtain ⟨a, ha, hab⟩ := exists_left_of_forall₂ hall hb
  exact ⟨a, hperm.mem_iff.mpr ha, hab⟩

theorem Reordered.exists_right (ha : a ∈ l) : ∃ b ∈ l', R a b := by
  obtain ⟨m, hperm, hall⟩ := h
  have hflip : List.Forall₂ (fun b a => R a b) l' m := List.Forall₂.flip hall
  exact exists_left_of_forall₂ hflip (hperm.mem_iff.mp ha)

theorem Reordered.forall {P Q : α → Prop} (hl : ∀ a ∈ l, P a)
    (hPQ : ∀ a b, R a b → P a → Q b) : ∀ b ∈ l', Q b := by
  intro b hb
  obtain ⟨a, ha, hab⟩ := h.exists_left hb
  exact hPQ a b hab (hl a ha)

theorem Reordered.pairwise {P : α → α → Prop} (hsymm : ∀ a b, P a b → P b a) (hl : l.Pairwise P)
    (hP : ∀ a b x y, R a x → R b y → P a b → P x y) : l'.Pairwise P := by
  obtain ⟨m, hperm, hall⟩ := h
  have hm : m.Pairwise P := hperm.pairwise hl fun {a b} hab => hsymm a b hab
  exact pairwise_of_forall₂ hall hm hP

theorem Reordered.eq_nil_iff : l = [] ↔ l' = [] := by
  obtain ⟨m, hperm, hall⟩ := h
  rw [← length_eq_zero_iff, ← length_eq_zero_iff, hperm.length_eq, hall.length_eq]

theorem Reordered.any_eq {p : α → Bool} (hp : ∀ a b, R a b → p a = p b) : l.any p = l'.any p := by
  rw [Bool.eq_iff_iff, any_eq_true, any_eq_true]
  constructor
  · rintro ⟨a, ha, hpa⟩
    obtain ⟨b, hb, hab⟩ := h.exists_right ha
    exact ⟨b, hb, hp a b hab ▸ hpa⟩
  · rintro ⟨b, hb, hpb⟩
    obtain ⟨a, ha, hab⟩ := h.exists_left hb
    exact ⟨a, ha, (hp a b hab).symm ▸ hpb⟩

end

section Find

variable {κ : Type} [DecidableEq κ] {key : α → κ}

theorem find?_key_eq_some (hkeys : l.Pairwise fun a b => key a ≠ key b) {k : κ} :
    l.find? (fun b => key b = k) = some a ↔ a ∈ l ∧ key a = k := by
  constructor
  · intro h
    exact ⟨mem_of_find?_eq_some h, by simpa using find?_some h⟩
  · rintro ⟨ha, rfl⟩
    cases h : l.find? (fun b => key b = key a) with
    | none => simpa using find?_eq_none.mp h a ha
    | some b =>
      have hb : key b = key a := by simpa using find?_some h
      have hnodup : (l.map key).Nodup := by rwa [List.Nodup, pairwise_map]
      rw [inj_on_of_nodup_map hnodup (mem_of_find?_eq_some h) ha hb]

theorem Reordered.find?_map_eq (h : Reordered R l l') (hkeys : l.Pairwise fun a b => key a ≠ key b)
    (f : α → β) (hR : ∀ a b, R a b → key a = key b ∧ f a = f b) (k : κ) :
    (l.find? (fun b => key b = k)).map f = (l'.find? (fun b => key b = k)).map f := by
  have hkeys' : l'.Pairwise fun a b => key a ≠ key b := by
    apply h.pairwise (fun _ _ => Ne.symm) hkeys
    intro a b x y hax hby
    rw [(hR a x hax).1, (hR b y hby).1]
    exact id
  ext value
  simp only [Option.map_eq_some_iff, find?_key_eq_some hkeys, find?_key_eq_some hkeys']
  constructor
  · rintro ⟨a, ⟨ha, rfl⟩, rfl⟩
    obtain ⟨b, hb, hab⟩ := h.exists_right ha
    exact ⟨b, ⟨hb, (hR a b hab).1.symm⟩, (hR a b hab).2.symm⟩
  · rintro ⟨b, ⟨hb, rfl⟩, rfl⟩
    obtain ⟨a, ha, hab⟩ := h.exists_left hb
    exact ⟨a, ⟨ha, (hR a b hab).1⟩, (hR a b hab).2⟩

end Find

theorem ChecksApart.of_reordered (hcheck : ChecksApart check apart)
    (hsymm : ∀ a b, apart a b → apart b a) (h : Reordered R l l')
    (hgood : ∀ a b, R a b → check [] a = .ok () → check [] b = .ok ())
    (hapart : ∀ a b x y, R a x → R b y → apart a b → apart x y) (hl : checkEach check l = .ok ()) :
    checkEach check l' = .ok () := by
  rw [hcheck.checkEach_eq_ok] at hl ⊢
  exact ⟨h.forall hl.1 hgood, h.pairwise hsymm hl.2 hapart⟩

theorem ChecksApart.of_perm (hcheck : ChecksApart check apart)
    (hsymm : ∀ a b, apart a b → apart b a) (h : l.Perm l') (hl : checkEach check l = .ok ()) :
    checkEach check l' = .ok () := by
  apply hcheck.of_reordered hsymm (Reordered.of_perm h) _ _ hl
  · rintro a b rfl
    exact id
  · rintro a b x y rfl rfl
    exact id

end Clabernetes.Base
