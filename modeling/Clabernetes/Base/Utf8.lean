import Mathlib.Data.List.Infix

/-!
# UTF-8 text as bytes

The bytes of a text are those of its characters one after the other. The encoding synchronises
itself: the bytes of one text occur in those of another only where its characters do.
-/

namespace Clabernetes.Base

open List

def utf8 (s : List Char) : List UInt8 := s.flatMap String.utf8EncodeChar

@[simp] theorem utf8_nil : utf8 [] = [] := rfl

theorem utf8_cons (c : Char) (s : List Char) : utf8 (c :: s) = String.utf8EncodeChar c ++ utf8 s :=
  rfl

theorem utf8_append (s t : List Char) : utf8 (s ++ t) = utf8 s ++ utf8 t := flatMap_append

theorem eq_of_utf8EncodeChar_append_eq {c c' : Char} {rest rest' : List UInt8}
    (h : String.utf8EncodeChar c ++ rest = String.utf8EncodeChar c' ++ rest') : c = c' := by
  have hc : ByteArray.utf8DecodeChar? (String.utf8EncodeChar c ++ rest).toByteArray 0 = some c := by
    rw [toByteArray_append]
    exact ByteArray.utf8DecodeChar?_utf8EncodeChar_append
  rw [h, toByteArray_append, ByteArray.utf8DecodeChar?_utf8EncodeChar_append] at hc
  exact (Option.some.inj hc).symm

theorem prefix_of_utf8 {s t : List Char} (h : utf8 t <+: utf8 s) : t <+: s := by
  induction t generalizing s with
  | nil => exact nil_prefix
  | cons c t ih =>
    obtain ⟨rest, h⟩ := h
    cases s with
    | nil =>
      rw [utf8_cons, utf8_nil, append_assoc, append_eq_nil_iff] at h
      exact absurd h.1 String.utf8EncodeChar_ne_nil
    | cons c' s =>
      rw [utf8_cons, utf8_cons, append_assoc] at h
      obtain rfl := eq_of_utf8EncodeChar_append_eq h
      rw [append_cancel_left_eq] at h
      exact cons_prefix_cons.mpr ⟨rfl, ih ⟨rest, h⟩⟩

theorem isUTF8FirstByte_of_eq_append {c : Char} {start rest : List UInt8} {b : UInt8}
    (h : String.utf8EncodeChar c = start ++ b :: rest) : b.IsUTF8FirstByte ↔ start = [] := by
  have hlength : start.length < (String.utf8EncodeChar c).length := by
    rw [h, length_append, length_cons]
    omega
  have hb : (String.utf8EncodeChar c)[start.length] = b := by simp [h]
  rw [← hb, UInt8.isUTF8FirstByte_getElem_utf8EncodeChar, length_eq_zero_iff]

theorem infix_of_utf8 {s t : List Char} (ht : t ≠ []) (h : utf8 t <:+: utf8 s) :
    t <:+: s := by
  obtain ⟨c', t', rfl⟩ := exists_cons_of_ne_nil ht
  obtain ⟨b, more, hc'⟩ := exists_cons_of_ne_nil (String.utf8EncodeChar_ne_nil (c := c'))
  -- the first byte of the inner text starts a character
  have hfirst : b.IsUTF8FirstByte := by
    rw [← nil_append (b :: more)] at hc'
    exact (isUTF8FirstByte_of_eq_append hc').mpr rfl
  induction s with
  | nil =>
    rw [utf8_nil, infix_nil, utf8_cons, append_eq_nil_iff] at h
    exact absurd h.1 String.utf8EncodeChar_ne_nil
  | cons c s ih =>
    obtain ⟨before, after, h⟩ := h
    rw [utf8_cons c s, append_assoc] at h
    rcases append_eq_append_iff.mp h with ⟨inside, hc, hrest⟩ | ⟨skipped, hbefore, hrest⟩
    · cases inside with
      | nil => exact (ih ⟨[], after, hrest⟩).trans (suffix_cons c s).isInfix
      | cons x inside =>
        have hx : x = b := by
          rw [utf8_cons, hc'] at hrest
          exact (List.cons.inj hrest).1.symm
        subst hx
        obtain rfl := (isUTF8FirstByte_of_eq_append hc).mp hfirst
        rw [nil_append] at hc
        rw [← hc] at hrest
        exact (prefix_of_utf8 ⟨after, hrest⟩).isInfix
    · exact (ih ⟨skipped, after, by rw [append_assoc, hrest]⟩).trans
        (suffix_cons c s).isInfix

end Clabernetes.Base
