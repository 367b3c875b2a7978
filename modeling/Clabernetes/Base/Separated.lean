import Mathlib.Data.List.Basic

/-!
# Parts joined by a separator

A list of parts joined by a separator says where each part ends only if the parts cannot hold the
separator, or if it is known how often they do: parts that hold it equally often can be told apart.
-/

namespace Clabernetes.Base

variable {α : Type} [DecidableEq α]

def joinWith (separator : α) : List (List α) → List α
  | [] => []
  | [part] => part
  | part :: next :: rest => part ++ separator :: joinWith separator (next :: rest)

theorem append_separator_inj {separator : α} {a b rest rest' : List α}
    (hcount : a.count separator = b.count separator)
    (h : a ++ separator :: rest = b ++ separator :: rest') : a = b ∧ rest = rest' := by
  induction a generalizing b with
  | nil =>
    cases b with
    | nil => exact ⟨rfl, (List.cons.inj h).2⟩
    | cons y ys =>
      have hy : separator = y := (List.cons.inj h).1
      simp [hy] at hcount
  | cons x xs ih =>
    cases b with
    | nil =>
      have hx : x = separator := (List.cons.inj h).1
      simp [hx] at hcount
    | cons y ys =>
      obtain ⟨rfl, htail⟩ := List.cons.inj h
      obtain ⟨rfl, hrest⟩ := ih (by simpa [List.count_cons] using hcount) htail
      exact ⟨rfl, hrest⟩

theorem joinWith_inj {separator : α} {parts parts' : List (List α)}
    (hcount : List.Forall₂ (fun a b => a.count separator = b.count separator) parts parts')
    (h : joinWith separator parts = joinWith separator parts') : parts = parts' := by
  induction hcount with
  | nil => rfl
  | @cons a b rest rest' hab hrest ih =>
    cases hrest with
    | nil => exact congrArg (· :: []) h
    | cons hnext htail =>
      obtain ⟨rfl, hjoined⟩ := append_separator_inj hab h
      rw [ih hjoined]

theorem toList_intercalate (separator : Char) (parts : List String) :
    ((String.singleton separator).intercalate parts).toList =
      joinWith separator (parts.map String.toList) := by
  rw [String.toList_intercalate, String.toList_singleton]
  induction parts with
  | nil => rfl
  | cons part rest ih =>
    cases rest with
    | nil => simp [joinWith, List.intercalate]
    | cons next rest =>
      simp only [List.map_cons, joinWith] at ih ⊢
      rw [← ih]
      simp [List.intercalate]

end Clabernetes.Base
