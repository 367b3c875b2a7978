import Clabernetes.Base.GoMap
import Mathlib.Data.List.Pairwise

/-!
# Stores read through a cache

A store of objects under keys, each stamped with a version that no other write gets. A reader sees
what a cache holds: some earlier state, never an older one than it has seen. The states since that
one are kept: a write that is only carried out on the version the reader saw finds the object as it
was in all of them.
-/

namespace Clabernetes.Base

open Std List Option GoMap

class Versioned (ω : Type) where
  version : ω → ℕ
  stamp : ℕ → ω → ω
  version_stamp : ∀ v x, version (stamp v x) = v

open Versioned

/-- What the cache holds, the later states of the store, the oldest first, and the last version. -/
structure Lagging (ω : Type) where
  cache : GoMap String ω
  log : List (GoMap String ω) := []
  last : ℕ := 0

namespace Lagging

variable {ω : Type} {w : GoMap String ω} {R : ω → ω → Prop} {x : ω} {n : ℕ} (s : Lagging ω)

def states : List (GoMap String ω) := s.cache :: s.log

def current : GoMap String ω := s.log.getLastD s.cache

def push (m : GoMap String ω) : Lagging ω :=
  { s with log := s.log ++ [m], last := s.last + 1 }

def remove (key : String) : Lagging ω := s.push (s.current.erase key)

def advance (n : ℕ) : Option (Lagging ω) :=
  match s.states.drop n with
  | [] => none
  | cache :: log => some { s with cache := cache, log := log }

variable {s s' : Lagging ω} {key : String} {m : GoMap String ω}

@[simp] theorem states_push : (s.push m).states = s.states ++ [m] := rfl

@[simp] theorem current_push : (s.push m).current = m := by rw [current, push, getLastD_concat]

@[simp] theorem last_push : (s.push m).last = s.last + 1 := rfl

theorem cache_mem_states : s.cache ∈ s.states := mem_cons_self

theorem states_eq : ∃ before, s.states = before ++ [s.current] := by
  rw [states, current]
  rcases eq_nil_or_concat s.log with h | ⟨before, last, h⟩
  · exact ⟨[], by simp [h]⟩
  · exact ⟨s.cache :: before, by simp [h]⟩

theorem current_mem_states : s.current ∈ s.states := by
  obtain ⟨before, h⟩ := s.states_eq
  rw [h]
  exact mem_append_right _ (mem_singleton_self _)

theorem rel_current {R : GoMap String ω → GoMap String ω → Prop} (h : s.states.Pairwise R)
    (hw : w ∈ s.states) : w = s.current ∨ R w s.current := by
  obtain ⟨before, heq⟩ := s.states_eq
  rw [heq, pairwise_append] at h
  rw [heq, mem_append, mem_singleton] at hw
  rcases hw with hw | hw
  · exact .inr (h.2.2 w hw _ (mem_singleton_self _))
  · exact .inl hw

theorem advance_spec (h : s.advance n = some s') :
    s'.states <:+ s.states ∧ s'.current = s.current ∧ s'.last = s.last := by
  unfold advance at h
  split at h
  · cases h
  · next cache log hdrop =>
    cases h
    have hsuffix : cache :: log <:+ s.states := hdrop ▸ drop_suffix n s.states
    refine ⟨hsuffix, ?_, rfl⟩
    obtain ⟨before, hbefore⟩ := hsuffix
    obtain ⟨first, hfirst⟩ := s.states_eq
    obtain ⟨second, hsecond⟩ := states_eq (s := { s with cache := cache, log := log })
    rw [states] at hsecond
    rw [hfirst, hsecond, ← append_assoc] at hbefore
    exact singleton_inj.mp (append_inj' hbefore rfl).2

theorem mem_iff_lookup : key ∈ w ↔ ∃ x, w[key]? = some x := by
  rw [← ExtTreeMap.isSome_getElem?_iff_mem, isSome_iff_exists]

def Along (R : ω → ω → Prop) (s : Lagging ω) : Prop :=
  s.states.Pairwise fun w w' =>
    ∀ (key : String) (x x' : ω), w[key]? = some x → w'[key]? = some x' → R x x'

theorem along_push (hrefl : ∀ x, R x x) (htrans : ∀ x y z, R x y → R y z → R x z) (h : s.Along R)
    (hnext : ∀ (key : String) (x' : ω), m[key]? = some x' →
      (∃ x, s.current[key]? = some x ∧ R x x') ∨ ∀ w ∈ s.states, key ∉ w) : (s.push m).Along R := by
  rw [Along, states_push, pairwise_append]
  refine ⟨h, pairwise_singleton _ _, ?_⟩
  intro w hw w' hw' key x x' hx hx'
  rw [mem_singleton.mp hw'] at hx'
  rcases hnext key x' hx' with ⟨y, hy, hyx'⟩ | hfresh
  · refine htrans x y x' ?_ hyx'
    rcases rel_current h hw with rfl | hrel
    · rw [hx] at hy
      cases hy
      exact hrefl x
    · exact hrel key x y hx hy
  · exact absurd (mem_iff_lookup.mpr ⟨x, hx⟩) (hfresh w hw)

theorem along_advance (h : s.Along R) (hadvance : s.advance n = some s') :
    s'.Along R := h.sublist (advance_spec hadvance).1.sublist

theorem Along.current (hrefl : ∀ x, R x x) (h : s.Along R) (hw : w ∈ s.states) {x' : ω}
    (hx : w[key]? = some x) (hx' : s.current[key]? = some x') : R x x' := by
  rcases rel_current h hw with rfl | hrel
  · rw [hx] at hx'
    cases hx'
    exact hrefl x
  · exact hrel key x x' hx hx'

variable [Versioned ω]

def create (key : String) (x : ω) : Option (Lagging ω) :=
  if s.states.any (·.contains key) then none
  else some (s.push (s.current.insert key (stamp (s.last + 1) x)))

def update (key : String) (f : ω → ω) : Option (Lagging ω) :=
  match s.current[key]? with
  | none => none
  | some x => some (s.push (s.current.insert key (stamp (s.last + 1) (f x))))

def patch (key : String) (v : ℕ) (f : ω → ω) : Option (Lagging ω) :=
  match s.current[key]? with
  | none => none
  | some x =>
    if version x = v then some (s.push (s.current.insert key (stamp (s.last + 1) (f x))))
    else none

theorem create_spec (h : s.create key x = some s') :
    (∀ w ∈ s.states, key ∉ w) ∧ s' = s.push (s.current.insert key (stamp (s.last + 1) x)) := by
  unfold create at h
  split_ifs at h with hused
  rw [List.any_eq_true] at hused
  exact ⟨fun w hw hkey => hused ⟨w, hw, hkey⟩, (some.inj h).symm⟩

theorem update_spec {f : ω → ω} (h : s.update key f = some s') : ∃ x, s.current[key]? = some x ∧
      s' = s.push (s.current.insert key (stamp (s.last + 1) (f x))) := by
  unfold update at h
  split at h
  · cases h
  · next x hx => exact ⟨x, hx, (some.inj h).symm⟩

theorem patch_spec {v : ℕ} {f : ω → ω} (h : s.patch key v f = some s') :
    ∃ x, s.current[key]? = some x ∧ version x = v ∧
      s' = s.push (s.current.insert key (stamp (s.last + 1) (f x))) := by
  unfold patch at h
  split at h
  · cases h
  · next x hx =>
    split_ifs at h with hversion
    exact ⟨x, hx, hversion, (some.inj h).symm⟩

/-- Versions grow, and the same version is the same object. -/
def Newer (x x' : ω) : Prop := version x ≤ version x' ∧ (version x = version x' → x = x')

theorem newer_refl (x : ω) : Newer x x := ⟨Nat.le_refl _, fun _ => rfl⟩

theorem newer_trans (x y z : ω) (hxy : Newer x y) (hyz : Newer y z) : Newer x z := by
  refine ⟨hxy.1.trans hyz.1, fun heq => ?_⟩
  have hfirst := hxy.1
  have hsecond := hyz.1
  rw [hxy.2 (by omega), hyz.2 (by omega)]

structure WF (s : Lagging ω) : Prop where
  bounded : ∀ w ∈ s.states, ∀ (key : String) (x : ω), w[key]? = some x → version x ≤ s.last
  newer : s.Along Newer
  /-- What is there in some state and in the end is there in between. -/
  present : s.states.Pairwise fun w w' => ∀ key ∈ w, key ∈ s.current → key ∈ w'

/-- A next state: every object is as it was, is gone, or is written, under a key that is there or
was never used. -/
def Next (m : GoMap String ω) : Prop :=
  ∀ key : String, m[key]? = s.current[key]? ∨ m[key]? = none ∨
    (∃ x, m[key]? = some (stamp (s.last + 1) x)) ∧ (key ∈ s.current ∨ ∀ w ∈ s.states, key ∉ w)

theorem next_insert (h : key ∈ s.current ∨ ∀ w ∈ s.states, key ∉ w) :
    s.Next (s.current.insert key (stamp (s.last + 1) x)) := by
  intro other
  rw [lookup_insert]
  split_ifs with heq
  · exact .inr (.inr ⟨⟨x, rfl⟩, heq ▸ h⟩)
  · exact .inl rfl

theorem next_erase : s.Next (s.current.erase key) := by
  intro other
  rw [lookup_erase]
  split_ifs
  · exact .inr (.inl rfl)
  · exact .inl rfl

theorem wf_push (h : s.WF) (hnext : s.Next m) : (s.push m).WF where
  bounded := by
    intro w hw key x hx
    rw [states_push, mem_append, mem_singleton] at hw
    rw [last_push]
    rcases hw with hw | rfl
    · have := h.bounded w hw key x hx
      omega
    · rcases hnext key with hsame | hgone | ⟨⟨y, hy⟩, -⟩
      · have := h.bounded _ current_mem_states key x (hsame ▸ hx)
        omega
      · rw [hgone] at hx
        cases hx
      · rw [hy] at hx
        cases hx
        rw [version_stamp]
  newer := by
    refine along_push newer_refl newer_trans h.newer fun key x' hx' => ?_
    rcases hnext key with hsame | hgone | ⟨⟨y, hy⟩, hcurrent | hfresh⟩
    · exact .inl ⟨x', hsame ▸ hx', newer_refl x'⟩
    · rw [hgone] at hx'
      cases hx'
    · obtain ⟨x, hx⟩ := mem_iff_lookup.mp hcurrent
      rw [hy] at hx'
      cases hx'
      have hbound := h.bounded _ current_mem_states key x hx
      refine .inl ⟨x, hx, ?_⟩
      rw [Newer, version_stamp]
      exact ⟨by omega, fun _ => by omega⟩
    · exact .inr hfresh
  present := by
    rw [states_push, current_push, pairwise_append]
    refine ⟨h.present.imp_of_mem ?_, pairwise_singleton _ _, ?_⟩
    · intro w w' hw _ hrel key hkey hm
      refine hrel key hkey ?_
      rcases hnext key with hsame | hgone | ⟨-, hcurrent | hfresh⟩
      · rw [mem_iff_lookup] at hm ⊢
        rwa [← hsame]
      · rw [mem_iff_lookup, hgone] at hm
        obtain ⟨_, hm⟩ := hm
        cases hm
      · exact hcurrent
      · exact absurd hkey (hfresh w hw)
    · intro w _ w' hw' key _ hm
      rwa [mem_singleton.mp hw']

theorem wf_advance (h : s.WF) (hadvance : s.advance n = some s') : s'.WF := by
  obtain ⟨hsuffix, hcurrent, hlast⟩ := advance_spec hadvance
  refine ⟨?_, along_advance h.newer hadvance, ?_⟩
  · intro w hw key x hx
    rw [hlast]
    exact h.bounded w (hsuffix.mem hw) key x hx
  · rw [hcurrent]
    exact h.present.sublist hsuffix.sublist

theorem WF.unchanged (h : s.WF) {x' : ω} (hcache : s.cache[key]? = some x)
    (hcurrent : s.current[key]? = some x') (hversion : version x' = version x) :
    ∀ w ∈ s.states, w[key]? = some x := by
  intro w hw
  rcases mem_cons.mp hw with rfl | hlog
  · exact hcache
  · have hpresent := rel_of_pairwise_cons h.present hlog key
      (mem_iff_lookup.mpr ⟨x, hcache⟩) (mem_iff_lookup.mpr ⟨x', hcurrent⟩)
    obtain ⟨y, hy⟩ := mem_iff_lookup.mp hpresent
    have hfirst := rel_of_pairwise_cons h.newer hlog key x y hcache hy
    have hlast := (h.newer.current newer_refl hw hy hcurrent).1
    rw [hfirst.2 (Nat.le_antisymm hfirst.1 (hversion ▸ hlast))]
    exact hy

/-- The objects change as `R` allows, and every state is as `K` wants it. -/
structure Kept (R : ω → ω → Prop) (K : GoMap String ω → Prop) (s : Lagging ω) : Prop where
  wf : s.WF
  static : s.Along R
  keyed : ∀ w ∈ s.states, K w

variable {K : GoMap String ω → Prop}

theorem kept_start (hversions : ∀ (key : String) (x : ω), m[key]? = some x → version x ≤ n)
    (hK : K m) : Kept R K { cache := m, last := n } := by
  have hstates : ∀ w ∈ states { cache := m, last := n }, w = m := fun w hw => mem_singleton.mp hw
  exact ⟨⟨fun w hw key x hx => hversions key x (hstates w hw ▸ hx), pairwise_singleton _ _,
    pairwise_singleton _ _⟩, pairwise_singleton _ _, fun w hw => hstates w hw ▸ hK⟩

section Kept

variable (h : s.Kept R K)
include h

theorem Kept.advance (hadvance : s.advance n = some s') : s'.Kept R K :=
  ⟨wf_advance h.wf hadvance, along_advance h.static hadvance,
    fun w hw => h.keyed w ((advance_spec hadvance).1.mem hw)⟩

variable (hrefl : ∀ x, R x x) (htrans : ∀ x y z, R x y → R y z → R x z)
include hrefl htrans

theorem Kept.push (hnext : s.Next m) (hR : ∀ (key : String) (x' : ω), m[key]? = some x' →
      (∃ x, s.current[key]? = some x ∧ R x x') ∨ ∀ w ∈ s.states, key ∉ w) (hK : K m) :
    (s.push m).Kept R K := by
  refine ⟨wf_push h.wf hnext, along_push hrefl htrans h.static hR, fun w hw => ?_⟩
  rw [states_push, mem_append, mem_singleton] at hw
  rcases hw with hw | rfl
  · exact h.keyed w hw
  · exact hK

theorem Kept.insert (hR : (∃ y, s.current[key]? = some y ∧ R y (stamp (s.last + 1) x)) ∨
      ∀ w ∈ s.states, key ∉ w) (hK : K (s.current.insert key (stamp (s.last + 1) x))) :
    (s.push (s.current.insert key (stamp (s.last + 1) x))).Kept R K := by
  have hkey : key ∈ s.current ∨ ∀ w ∈ s.states, key ∉ w := by
    rcases hR with ⟨y, hy, -⟩ | hfresh
    · exact .inl (mem_iff_lookup.mpr ⟨y, hy⟩)
    · exact .inr hfresh
  refine h.push hrefl htrans (next_insert hkey) (fun other found hfound => ?_) hK
  rw [lookup_insert] at hfound
  split_ifs at hfound with heq
  · cases hfound
    exact heq ▸ hR
  · exact .inl ⟨found, hfound, hrefl found⟩

theorem Kept.remove (hK : K (s.current.erase key)) : (s.remove key).Kept R K := by
  refine h.push hrefl htrans next_erase (fun other found hfound => ?_) hK
  rw [lookup_erase] at hfound
  split_ifs at hfound
  exact .inl ⟨found, hfound, hrefl found⟩

end Kept

end Lagging

end Clabernetes.Base
