import Mathlib.Data.List.TakeWhile

/-!
# Lexical paths

Go's `Clean`, `Join` and `Rel` of packages `path` and `path/filepath`, on what a text splits into
at its slashes. They agree on Linux, and look at no file.
-/

namespace Clabernetes.Base

open List

theorem not_separator_of_mem_splitOnP {α : Type} {p : α → Bool} {l part : List α}
    (h : part ∈ l.splitOnP p) : ∀ x ∈ part, p x = false := by
  induction l generalizing part with
  | nil => simp_all
  | cons a l ih =>
    rw [splitOnP_cons_eq_if_modifyHead] at h
    by_cases ha : p a = true
    · simp only [ha, ↓reduceIte, mem_cons] at h
      rcases h with rfl | h
      · simp
      · exact ih h
    · rw [if_neg ha] at h
      cases hrest : l.splitOnP p with
      | nil => exact absurd hrest (splitOnP_ne_nil p l)
      | cons first rest =>
        rw [hrest, modifyHead_cons, mem_cons] at h
        rcases h with rfl | h
        · have hfirst : ∀ x ∈ first, p x = false := ih (by rw [hrest]; simp)
          intro x hx
          rcases mem_cons.mp hx with rfl | hx
          · simpa using ha
          · exact hfirst x hx
        · exact ih (by rw [hrest]; simp [h])

abbrev Parts := List (List Char)

/-- What a path splits into; a rooted one begins with a slash. -/
structure Path where
  rooted : Bool
  parts : Parts
  deriving DecidableEq

namespace Path

def ofText (text : String) : Path := ⟨text.toList.head? = some '/', text.toList.splitOn '/'⟩

def up : List Char := ['.', '.']

def goUp (rooted : Bool) : Parts → Parts
  | [] => if rooted then [] else [up]
  | last :: rest => if last = up then up :: last :: rest else rest

/-- One part, where `out` holds the parts kept so far with the last one first. -/
def cleanStep (rooted : Bool) (out : Parts) (part : List Char) : Parts :=
  if part = [] ∨ part = ['.'] then out else if part = up then goUp rooted out else part :: out

def cleaned (rooted : Bool) (parts : Parts) : Parts := parts.foldl (cleanStep rooted) []

def clean (path : Path) : Path := ⟨path.rooted, (cleaned path.rooted path.parts).reverse⟩

/-- `Join`: the text between is one slash, so the parts stand side by side. -/
def join (path other : Path) : Path := clean ⟨path.rooted, path.parts ++ other.parts⟩

/-- The way from one list of parts to another, past what they share. -/
def way : Parts → Parts → Option (Parts)
  | b :: base, t :: target =>
    if b = t then way base target
    else if b = up then none else some (up :: base.map (fun _ => up) ++ t :: target)
  | base, target => if base.head? = some up then none else some (base.map (fun _ => up) ++ target)

/-- `Rel`, which fails where it would have to guess. -/
def rel (base target : Path) : Option (Parts) :=
  if base.rooted = target.rooted then way base.clean.parts target.clean.parts else none

def text (parts : Parts) : String :=
  if parts = [] then "." else String.ofList (['/'].intercalate parts)

def cleanText (path : String) : String :=
  if (ofText path).rooted then String.ofList ('/' :: ['/'].intercalate (ofText path).clean.parts)
  else text (ofText path).clean.parts

/-- What cleaning keeps: no part is idle, and parts that go up stand only at the beginning. -/
def Reduced (rooted : Bool) : Parts → Prop
  | [] => True
  | part :: out => part ≠ [] ∧ part ≠ ['.'] ∧ '/' ∉ part ∧
    (part = up → rooted = false ∧ ∀ other ∈ out, other = up) ∧ Reduced rooted out

variable {rooted : Bool} {parts out rest : Parts} {part : List Char}

theorem cleanStep_pop (h : part ≠ up) : cleanStep rooted (part :: out) up = out := by
  rw [cleanStep, if_neg (by simp [up]), if_pos rfl, goUp, if_neg h]

theorem Reduced.step (h : Reduced rooted out) (hpart : '/' ∉ part) :
    Reduced rooted (cleanStep rooted out part) := by
  rw [cleanStep]
  split_ifs with hidle hup
  · exact h
  · subst hup
    cases out with
    | nil => cases rooted <;> simp [Reduced, goUp, up]
    | cons last rest =>
      by_cases hlast : last = up
      · subst hlast
        have hrest := h.2.2.2.1 rfl
        rw [goUp, if_pos rfl]
        exact ⟨by simp [up], by simp [up], by simp [up], fun _ => ⟨hrest.1, by simpa using hrest.2⟩,
          h⟩
      · rw [goUp, if_neg hlast]
        exact h.2.2.2.2
  · rw [not_or] at hidle
    exact ⟨hidle.1, hidle.2, hpart, fun h => absurd h hup, h⟩

theorem Reduced.foldl (h : Reduced rooted out) (hparts : ∀ part ∈ parts, '/' ∉ part) :
    Reduced rooted (parts.foldl (cleanStep rooted) out) := by
  induction parts generalizing out with
  | nil => exact h
  | cons part parts ih =>
    simp only [forall_mem_cons] at hparts
    exact ih (h.step hparts.1) hparts.2

theorem cleaned_reverse (h : Reduced rooted out) : cleaned rooted out.reverse = out := by
  induction out with
  | nil => rfl
  | cons part out ih =>
    obtain ⟨hempty, hdot, -, hup, hout⟩ := h
    rw [cleaned, reverse_cons, foldl_append, ← cleaned, ih hout, foldl_cons,
      foldl_nil, cleanStep, if_neg (by simp [hempty, hdot])]
    by_cases h : part = up
    · obtain ⟨rfl, hall⟩ := hup h
      cases out with
      | nil => simp [h, goUp]
      | cons last rest => simp [h, goUp, hall last (by simp)]
    · rw [if_neg h]

theorem count_up_le (rooted : Bool) (parts : Parts) :
    ∀ out, out.count up ≤ (parts.foldl (cleanStep rooted) out).count up := by
  induction parts with
  | nil => simp
  | cons part parts ih =>
    intro out
    refine Nat.le_trans ?_ (ih _)
    rw [cleanStep]
    split_ifs with hidle hup
    · exact Nat.le_refl _
    · cases out with
      | nil => simp
      | cons last rest => by_cases hlast : last = up <;> simp [goUp, hlast]
    · rw [count_cons]
      omega

theorem foldl_below (rooted : Bool) {base : Parts} (hbase : up ∉ base) (rest : Parts) :
    ∀ (parts q : Parts) (j : Nat), up ∉ q →
      (parts.foldl (cleanStep false) (q ++ .replicate j up)).count up ≤ base.length →
      ∃ r k, up ∉ r ∧
        parts.foldl (cleanStep false) (q ++ .replicate j up) = r ++ .replicate k up ∧
        parts.foldl (cleanStep rooted) (q ++ (base.drop j ++ rest)) =
          r ++ (base.drop k ++ rest) := by
  intro parts
  induction parts with
  | nil => exact fun q j hq _ => ⟨q, j, hq, rfl, rfl⟩
  | cons part parts ih =>
    intro q j hq hcount
    rw [foldl_cons] at hcount ⊢
    rw [foldl_cons]
    by_cases hidle : part = [] ∨ part = ['.']
    · simp only [cleanStep, hidle, ↓reduceIte] at hcount ⊢
      exact ih q j hq hcount
    by_cases hup : part = up
    · subst hup
      cases q with
      | nil =>
        have hstep : cleanStep false (.replicate j up) up = .replicate (j + 1) up := by
          cases j <;> simp [cleanStep, goUp, up, replicate_succ]
        simp only [nil_append, hstep] at hcount ⊢
        have hj : j < base.length := by
          have := (count_up_le false parts (.replicate (j + 1) up)).trans hcount
          rwa [count_replicate_self] at this
        have hne : base[j] ≠ up := fun h => hbase (h ▸ getElem_mem hj)
        have hpop : cleanStep rooted (base.drop j ++ rest) up = base.drop (j + 1) ++ rest := by
          rw [drop_eq_getElem_cons hj, cons_append, cleanStep_pop hne]
        rw [hpop]
        exact ih [] (j + 1) (by simp) hcount
      | cons last q =>
        simp only [mem_cons, not_or] at hq
        have hlast := Ne.symm hq.1
        rw [cons_append, cleanStep_pop hlast] at hcount ⊢
        rw [cons_append, cleanStep_pop hlast]
        exact ih q j hq.2 hcount
    · have hpush : ∀ rooted out, cleanStep rooted out part = part :: out := by
        intro rooted out
        rw [cleanStep, if_neg hidle, if_neg hup]
      rw [hpush] at hcount ⊢
      rw [hpush]
      exact ih (part :: q) j (by simp [hq, Ne.symm hup]) hcount

theorem way_append (shared base target : Parts) :
    way (shared ++ base) (shared ++ target) = way base target := by
  induction shared with
  | nil => rfl
  | cons part shared ih => simp [way, ih]

theorem join_cases {path : Path} (hreduced : Reduced rooted (part :: out)) (hpart : part ≠ up)
    (hpath : ∀ part ∈ path.parts, '/' ∉ part) (hcount : (cleaned false path.parts).count up ≤ 1) :
    ∃ r k, up ∉ r ∧ cleaned false path.parts = r ++ .replicate k up ∧
      (join ⟨rooted, (part :: out).reverse⟩ path).parts = (r ++ ([part].drop k ++ out)).reverse ∧
      rel ⟨rooted, (part :: out).reverse⟩ (join ⟨rooted, (part :: out).reverse⟩ path) =
        way (part :: out).reverse (r ++ ([part].drop k ++ out)).reverse := by
  obtain ⟨r, k, hr, hown, hbelow⟩ := foldl_below rooted
    (show up ∉ [part] by simpa using hpart.symm) out path.parts [] 0 (by simp) hcount
  have hjoin : join ⟨rooted, (part :: out).reverse⟩ path =
      ⟨rooted, (path.parts.foldl (cleanStep rooted) (part :: out)).reverse⟩ := by
    rw [join, clean, cleaned, foldl_append, ← cleaned, cleaned_reverse hreduced]
  change path.parts.foldl (cleanStep rooted) (part :: out) = _ at hbelow
  refine ⟨r, k, hr, hown, ?_, ?_⟩
  · rw [hjoin, hbelow]
  · rw [hjoin, rel, if_pos rfl, clean, clean, cleaned_reverse hreduced,
      cleaned_reverse (hreduced.foldl hpath), hbelow]

theorem takeWhile_text (rest : Parts) (hpart : '/' ∉ part) :
    (text (part :: rest)).toList.takeWhile (· ≠ '/') = part := by
  have hall : ∀ c ∈ part, decide (c ≠ '/') = true := by
    intro c hc
    simpa using fun h : c = '/' => hpart (h ▸ hc)
  have hpart : part.takeWhile (· ≠ '/') = part := takeWhile_eq_self_iff.mpr hall
  cases rest with
  | nil => simpa [text, List.intercalate] using hpart
  | cons next rest =>
    rw [text, if_neg (by simp), String.toList_ofList, intercalate_cons_cons,
      append_assoc, takeWhile_append_of_pos hall]
    simp

theorem text_named (rest : Parts) (hempty : part ≠ []) (hdot : part ≠ ['.'])
    (hslash : '/' ∉ part) (hup : part ≠ up) :
    text (part :: rest) ≠ "." ∧ text (part :: rest) ≠ ".." ∧
      (text (part :: rest)).toList.head? ≠ some '/' ∧
      "../".toList.isPrefixOf (text (part :: rest)).toList = false := by
  have hfirst := takeWhile_text rest hslash
  refine ⟨?_, ?_, ?_, ?_⟩
  · intro h
    rw [h] at hfirst
    exact hdot hfirst.symm
  · intro h
    rw [h] at hfirst
    exact hup hfirst.symm
  · intro h
    obtain ⟨rest, hrest⟩ := head?_eq_some_iff.mp h
    rw [hrest] at hfirst
    exact hempty (by simpa using hfirst.symm)
  · rw [Bool.eq_false_iff]
    intro h
    obtain ⟨rest, hrest⟩ := isPrefixOf_iff_prefix.mp h
    rw [← hrest] at hfirst
    exact hup (by simpa [up] using hfirst.symm)

variable (h : Reduced rooted out)

include h

theorem Reduced.mem (hpart : part ∈ out) : part ≠ [] ∧ part ≠ ['.'] ∧ '/' ∉ part := by
  induction out with
  | nil => cases hpart
  | cons other out ih =>
    rcases mem_cons.mp hpart with rfl | hpart
    · exact ⟨h.1, h.2.1, h.2.2.1⟩
    · exact ih h.2.2.2.2 hpart

theorem Reduced.exists_append (hup : up ∈ out) : ∃ others, out = others ++ [up] := by
  induction out with
  | nil => cases hup
  | cons part out ih =>
    by_cases hout : up ∈ out
    · obtain ⟨others, rfl⟩ := ih h.2.2.2.2 hout
      exact ⟨part :: others, rfl⟩
    · obtain rfl : up = part := by simpa [hout] using hup
      cases out with
      | nil => exact ⟨[], rfl⟩
      | cons other out =>
        have hother := (h.2.2.2.1 rfl).2 other (by simp)
        simp [hother] at hout

theorem Reduced.up_of_text (htext : "../".toList.isPrefixOf (text out.reverse).toList = false) :
    up ∉ out ∨ out = [up] := by
  by_cases hup : up ∈ out
  · obtain ⟨others, rfl⟩ := h.exists_append hup
    cases hothers : others.reverse with
    | nil => simp_all
    | cons other rest =>
      rw [reverse_append, hothers] at htext
      simp [text, up, List.intercalate] at htext
  · exact .inl hup

end Path

end Clabernetes.Base
