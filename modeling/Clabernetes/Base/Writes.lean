import Clabernetes.Base.GoMap
import Clabernetes.Base.Runs

/-!
# Writes to a keyed store

A client of a store sends requests that each write one entry. The store refuses to create an entry
that is there and to update one that is not; deleting an absent entry changes nothing. Requests for
different keys do not see each other, so a list of them is accepted as a whole when each fits the
store as it is.
-/

namespace Clabernetes.Base

open Std List Option ExtTreeMap GoMap

inductive Write (κ α : Type) where
  | create (key : κ) (value : α)
  | update (key : κ) (value : α)
  | delete (key : κ)

namespace Write

variable {κ α : Type}

def key : Write κ α → κ
  | create k _ | update k _ | delete k => k

def value : Write κ α → Option α
  | create _ a | update _ a => some a
  | delete _ => none

variable [Ord κ] [TransOrd κ]

def apply (m : GoMap κ α) : Write κ α → Option (GoMap κ α)
  | create k a => if k ∈ m then none else some (m.insert k a)
  | update k a => if k ∈ m then some (m.insert k a) else none
  | delete k => some (m.erase k)

def Fits (m : GoMap κ α) : Write κ α → Prop
  | create k _ => k ∉ m
  | update k _ => k ∈ m
  | delete _ => True

variable {m m' : GoMap κ α} {w : Write κ α} {ws : List (Write κ α)} {k : κ}

theorem exists_apply (h : w.Fits m) : ∃ m', w.apply m = some m' := by
  cases w with
  | create k a => exact ⟨_, if_neg h⟩
  | update k a => exact ⟨_, if_pos h⟩
  | delete k => exact ⟨_, rfl⟩

variable [LawfulEqOrd κ] [DecidableEq κ]

theorem lookup_apply (h : w.apply m = some m') (k : κ) :
    m'[k]? = if w.key = k then w.value else m[k]? := by
  cases w with
  | create key a =>
    rw [apply] at h
    split at h
    · cases h
    · cases h
      exact lookup_insert m key k a
  | update key a =>
    rw [apply] at h
    split at h
    · cases h
      exact lookup_insert m key k a
    · cases h
  | delete key =>
    cases h
    exact lookup_erase m key k

theorem Fits.apply_of_ne {w' : Write κ α} (h : w'.Fits m) (hw : w.apply m = some m')
    (hne : w.key ≠ w'.key) : w'.Fits m' := by
  have hsame : m'[w'.key]? = m[w'.key]? := by rw [lookup_apply hw, if_neg hne]
  have hmem : w'.key ∈ m' ↔ w'.key ∈ m := by
    rw [← isSome_getElem?_iff_mem, hsame, isSome_getElem?_iff_mem]
  cases w' with
  | create k a => exact fun hin => h (hmem.mp hin)
  | update k a => exact hmem.mpr h
  | delete k => trivial

theorem exists_run (hkeys : (ws.map key).Nodup) (hfits : ∀ w ∈ ws, w.Fits m) :
    ∃ m', run apply m ws = some m' := by
  induction ws generalizing m with
  | nil => exact ⟨m, run_nil apply m⟩
  | cons w ws ih =>
    rw [map_cons, nodup_cons] at hkeys
    obtain ⟨m₁, hm₁⟩ := exists_apply (hfits w mem_cons_self)
    rw [run_cons, hm₁, bind_some]
    apply ih hkeys.2
    intro w' hw'
    apply (hfits w' (mem_cons_of_mem w hw')).apply_of_ne hm₁
    intro heq
    exact hkeys.1 (heq ▸ List.mem_map_of_mem hw')

theorem lookup_run (h : run apply m ws = some m') (k : κ) :
    (k ∉ ws.map key ∧ m'[k]? = m[k]?) ∨ ∃ w ∈ ws, w.key = k ∧ m'[k]? = w.value := by
  induction ws generalizing m with
  | nil =>
    cases h
    exact .inl ⟨not_mem_nil, rfl⟩
  | cons w ws ih =>
    rw [run_cons, bind_eq_some_iff] at h
    obtain ⟨m₁, hm₁, h⟩ := h
    rcases ih h with ⟨hnot, hsame⟩ | ⟨w', hw', hkey, hvalue⟩
    · rw [lookup_apply hm₁] at hsame
      split at hsame
      · next hk => exact .inr ⟨w, mem_cons_self, hk, hsame⟩
      · next hk =>
        refine .inl ⟨?_, hsame⟩
        rw [map_cons, mem_cons, not_or]
        exact ⟨Ne.symm hk, hnot⟩
    · exact .inr ⟨w', mem_cons_of_mem w hw', hkey, hvalue⟩

end Write

end Clabernetes.Base
