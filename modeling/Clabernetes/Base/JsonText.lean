import Mathlib.Data.List.Perm.Subperm
import Clabernetes.Base.Utf8

/-!
# JSON texts

A JSON text is a sequence of string literals and of other tokens. A character of a string literal is
spelled as itself, by a short escape, or by the hexadecimal digits of a code unit of UTF-16; the
encoder of Go's `encoding/json` spells each character in one way. The text is read back by a
scanner, `json.Valid`, with a stack of the open arrays and objects.
-/

namespace Clabernetes.Base.Json

open List Char

inductive ShortEscape where
  | quote
  | backslash
  | slash
  | backspace
  | formFeed
  | lineFeed
  | carriageReturn
  | tab
deriving DecidableEq

def ShortEscape.letter : ShortEscape → Char
  | quote => '"'
  | backslash => '\\'
  | slash => '/'
  | backspace => 'b'
  | formFeed => 'f'
  | lineFeed => 'n'
  | carriageReturn => 'r'
  | tab => 't'

def ShortEscape.char : ShortEscape → Char
  | quote => '"'
  | backslash => '\\'
  | slash => '/'
  | backspace => Char.ofNat 0x08
  | formFeed => Char.ofNat 0x0c
  | lineFeed => '\n'
  | carriageReturn => '\r'
  | tab => '\t'

structure HexDigit where
  value : Fin 16
  upper : Bool := false
deriving DecidableEq

def HexDigit.char (d : HexDigit) : Char :=
  if d.value < 10 then ofNat (48 + d.value)
  else if d.upper then ofNat (55 + d.value) else ofNat (87 + d.value)

inductive Piece where
  | literal (c : Char)
  | short (escape : ShortEscape)
  | unicode (d₁ d₂ d₃ d₄ : HexDigit)
deriving DecidableEq

def Piece.spelling : Piece → List Char
  | literal c => [c]
  | short escape => ['\\', escape.letter]
  | unicode d₁ d₂ d₃ d₄ => ['\\', 'u', d₁.char, d₂.char, d₃.char, d₄.char]

def codeUnit (d₁ d₂ d₃ d₄ : HexDigit) : ℕ :=
  ((d₁.value * 16 + d₂.value) * 16 + d₃.value) * 16 + d₄.value

def replacement : Char := ofNat 0xfffd

def decodeFrom : Option ℕ → List Piece → List Char
  | pending, [] => pending.toList.map fun _ => replacement
  | pending, .literal c :: rest =>
    pending.toList.map (fun _ => replacement) ++ c :: decodeFrom none rest
  | pending, .short escape :: rest =>
    pending.toList.map (fun _ => replacement) ++ escape.char :: decodeFrom none rest
  | pending, .unicode d₁ d₂ d₃ d₄ :: rest =>
    let unit := codeUnit d₁ d₂ d₃ d₄
    if 0xdc00 ≤ unit ∧ unit ≤ 0xdfff then
      match pending with
      | some high =>
        ofNat ((high - 0xd800) * 0x400 + (unit - 0xdc00) + 0x10000) :: decodeFrom none rest
      | none => replacement :: decodeFrom none rest
    else
      pending.toList.map (fun _ => replacement) ++
        if 0xd800 ≤ unit ∧ unit < 0xdc00 then decodeFrom (some unit) rest
        else ofNat unit :: decodeFrom none rest

def decode (pieces : List Piece) : List Char := decodeFrom none pieces

inductive Token where
  | string (pieces : List Piece)
  | other (text : List Char)
deriving DecidableEq

def Token.spelling : Token → List Char
  | string pieces => '"' :: pieces.flatMap Piece.spelling ++ ['"']
  | other text => text

def text (tokens : List Token) : List UInt8 := utf8 (tokens.flatMap Token.spelling)

def Piece.ofCodeUnit (n : ℕ) : Piece :=
  .unicode ⟨Fin.ofNat 16 (n / 4096), false⟩ ⟨Fin.ofNat 16 (n / 256), false⟩
    ⟨Fin.ofNat 16 (n / 16), false⟩ ⟨Fin.ofNat 16 n, false⟩

def Piece.ofChar (c : Char) : Piece :=
  if c = '"' then .short .quote
  else if c = '\\' then .short .backslash
  else if c.toNat = 0x08 then .short .backspace
  else if c.toNat = 0x0c then .short .formFeed
  else if c = '\n' then .short .lineFeed
  else if c = '\r' then .short .carriageReturn
  else if c = '\t' then .short .tab
  else if c.toNat < 0x20 ∨ c = '<' ∨ c = '>' ∨ c = '&' ∨ c.toNat = 0x2028 ∨ c.toNat = 0x2029 then
    .ofCodeUnit c.toNat
  else .literal c

def encodeString (s : List Char) : List Piece := s.map Piece.ofChar

def escaped (c : Char) : Bool := Piece.ofChar c ≠ .literal c

theorem codeUnit_ofNat {n : ℕ} (h : n < 65536) :
    codeUnit ⟨Fin.ofNat 16 (n / 4096), false⟩ ⟨Fin.ofNat 16 (n / 256), false⟩
      ⟨Fin.ofNat 16 (n / 16), false⟩ ⟨Fin.ofNat 16 n, false⟩ = n := by
  simp only [codeUnit, Fin.ofNat]
  omega

theorem decode_ofCodeUnit {n : ℕ} (h : n < 0xd800) (rest : List Piece) :
    decode (.ofCodeUnit n :: rest) = Char.ofNat n :: decode rest := by
  have hlow : ¬(0xdc00 ≤ n ∧ n ≤ 0xdfff) := by omega
  have hhigh : ¬(0xd800 ≤ n ∧ n < 0xdc00) := by omega
  simp only [decode, Piece.ofCodeUnit, decodeFrom, codeUnit_ofNat (show n < 65536 by omega),
    if_neg hlow, if_neg hhigh]
  rfl

theorem decode_ofChar (c : Char) (rest : List Piece) :
    decode (Piece.ofChar c :: rest) = c :: decode rest := by
  have hback : Char.ofNat c.toNat = c := Char.ofNat_toNat c
  unfold Piece.ofChar
  split_ifs with h₁ h₂ h₃ h₄ h₅ h₆ h₇ h₈
  · rw [h₁]; rfl
  · rw [h₂]; rfl
  · show Char.ofNat 0x08 :: decode rest = c :: decode rest
    rw [← h₃, hback]
  · show Char.ofNat 0x0c :: decode rest = c :: decode rest
    rw [← h₄, hback]
  · rw [h₅]; rfl
  · rw [h₆]; rfl
  · rw [h₇]; rfl
  · have hsmall : c.toNat < 0xd800 := by
      rcases h₈ with h | rfl | rfl | rfl | h | h
      · omega
      · decide
      · decide
      · decide
      · omega
      · omega
    rw [decode_ofCodeUnit hsmall, hback]
  · rfl

theorem decode_encodeString (s : List Char) : decode (encodeString s) = s := by
  induction s with
  | nil => rfl
  | cons c s ih => rw [encodeString, map_cons, decode_ofChar, ← encodeString, ih]

/-- What the encoder writes of a text between the quotes. -/
def spelled (s : List Char) : List Char := (encodeString s).flatMap Piece.spelling

theorem spelled_append (s t : List Char) : spelled (s ++ t) = spelled s ++ spelled t := by
  simp [spelled, encodeString]

theorem spelled_eq_self {s : List Char} (h : ∀ c ∈ s, escaped c = false) : spelled s = s := by
  have hliteral : encodeString s = s.map Piece.literal := by
    apply map_congr_left
    intro c hc
    simpa [escaped] using h c hc
  rw [spelled, hliteral, flatMap_map]
  exact flatMap_singleton' s

theorem infix_text {s t : List Char} {tokens : List Token}
    (hmem : Token.string (encodeString s) ∈ tokens) (hts : t <:+: s) (ht : t <:+: spelled t) :
    utf8 t <:+: text tokens := by
  obtain ⟨before, after, rfl⟩ := hts
  obtain ⟨first, last, rfl⟩ := append_of_mem hmem
  have hspelled : spelled t <:+: (first ++ Token.string (encodeString (before ++ t ++ after)) ::
      last).flatMap Token.spelling := by
    refine ⟨first.flatMap Token.spelling ++ '"' :: spelled before,
      spelled after ++ '"' :: last.flatMap Token.spelling, ?_⟩
    simp [Token.spelling, spelled, encodeString]
  obtain ⟨left, right, htext⟩ := ht.trans hspelled
  exact ⟨utf8 left, utf8 right, by rw [text, ← htext, utf8_append, utf8_append]⟩

theorem eq_or_infix_of_infix_cons {q c : Char} {t l : List Char} (hc : c ∉ t.take 2)
    (h : t <:+: q :: c :: l) : t = [q] ∨ t <:+: l := by
  rcases infix_cons_iff.mp h with h | h
  · rcases t with _ | ⟨x, _ | ⟨y, t⟩⟩
    · exact .inr nil_infix
    · exact .inl (by simpa using h)
    · rw [cons_prefix_cons, cons_prefix_cons] at h
      exact absurd h.2.1 (by rintro rfl; simp at hc)
  · rcases infix_cons_iff.mp h with h | h
    · rcases t with _ | ⟨x, t⟩
      · exact .inr nil_infix
      · exact absurd (cons_prefix_cons.mp h).1 (by rintro rfl; simp at hc)
    · exact .inr h

/-- A text that is found between any two literal characters is found in its own spelling. -/
theorem infix_spelled {t : List Char} (h : ∀ c, escaped c = false →
    t <:+: Token.spelling (.string (encodeString ([c] ++ t ++ [c])))) : t <:+: spelled t := by
  -- a letter that is none of the first two characters and none of the last two
  obtain ⟨c, hletter, hc⟩ : ∃ c ∈ ['a', 'b', 'c', 'd', 'e'],
      c ∉ t.take 2 ++ t.reverse.take 2 := by
    by_contra hall
    simp only [not_exists, not_and, not_not] at hall
    have hlength := (subperm_of_subset (by decide) hall).length_le
    simp only [length_append, length_take, length_cons, length_nil] at hlength
    omega
  rw [mem_append, not_or] at hc
  have hplain : escaped c = false := by
    simp only [mem_cons, not_mem_nil, or_false] at hletter
    rcases hletter with rfl | rfl | rfl | rfl | rfl <;> rfl
  have hspelling : Token.spelling (.string (encodeString ([c] ++ t ++ [c]))) =
      '"' :: c :: (spelled t ++ [c, '"']) := by
    have hself : spelled [c] = [c] := spelled_eq_self (by simpa using hplain)
    rw [Token.spelling, ← spelled, spelled_append, spelled_append, hself]
    simp
  have hquote : t = ['"'] → t <:+: spelled t := by
    rintro rfl
    exact ⟨['\\'], [], rfl⟩
  rcases eq_or_infix_of_infix_cons hc.1 (hspelling ▸ h c hplain) with ht | ht
  · exact hquote ht
  · have hreverse : t.reverse <:+: '"' :: c :: (spelled t).reverse := by
      simpa using reverse_infix.mpr ht
    rcases eq_or_infix_of_infix_cons hc.2 hreverse with ht | ht
    · exact hquote (by simpa using congrArg reverse ht)
    · exact reverse_infix.mp ht

inductive Frame where
  | objectKey
  | objectValue
  | arrayValue
deriving DecidableEq

/-- What the scanner expects next. A word is `true`, `false` or `null`, with what is left of it. -/
inductive ScanState where
  | beginValue
  | beginValueOrEmpty
  | beginString
  | beginStringOrEmpty
  | inString
  | inStringEsc
  | inStringEscU (left : ℕ)
  | neg
  | zero
  | digits
  | dot
  | fraction
  | exponent
  | exponentSign
  | exponentDigits
  | word (left : List Char)
  | endValue
  | endTop
deriving DecidableEq

structure Scanner where
  state : ScanState
  stack : List Frame
deriving DecidableEq

def byte (c : Char) : UInt8 := c.toNat.toUInt8

def isSpace (b : UInt8) : Bool := [byte ' ', byte '\t', byte '\r', byte '\n'].contains b

def isDigit (b : UInt8) : Bool := byte '0' ≤ b && b ≤ byte '9'

def isHexDigit (b : UInt8) : Bool :=
  isDigit b || (byte 'a' ≤ b && b ≤ byte 'f') || (byte 'A' ≤ b && b ≤ byte 'F')

def push (frame : Frame) (stack : List Frame) (state : ScanState) : Option Scanner :=
  if stack.length < 10000 then some ⟨state, frame :: stack⟩ else none

variable (stack : List Frame)

def pop : Scanner := ⟨if stack = [] then .endTop else .endValue, stack⟩

def afterValue (b : UInt8) : Option Scanner :=
  match stack with
  | [] => if isSpace b then some ⟨.endTop, []⟩ else none
  | frame :: rest =>
    if isSpace b then some ⟨.endValue, stack⟩
    else
      match frame with
      | .objectKey => if b = byte ':' then some ⟨.beginValue, .objectValue :: rest⟩ else none
      | .objectValue =>
        if b = byte ',' then some ⟨.beginString, .objectKey :: rest⟩
        else if b = byte '\x7d' then some (pop rest)
        else none
      | .arrayValue =>
        if b = byte ',' then some ⟨.beginValue, stack⟩
        else if b = byte ']' then some (pop rest)
        else none

def startValue (b : UInt8) : Option Scanner :=
  if isSpace b then some ⟨.beginValue, stack⟩
  else if b = byte '\x7b' then push .objectKey stack .beginStringOrEmpty
  else if b = byte '[' then push .arrayValue stack .beginValueOrEmpty
  else if b = byte '"' then some ⟨.inString, stack⟩
  else if b = byte '-' then some ⟨.neg, stack⟩
  else if b = byte '0' then some ⟨.zero, stack⟩
  else if b = byte 't' then some ⟨.word ['r', 'u', 'e'], stack⟩
  else if b = byte 'f' then some ⟨.word ['a', 'l', 's', 'e'], stack⟩
  else if b = byte 'n' then some ⟨.word ['u', 'l', 'l'], stack⟩
  else if isDigit b then some ⟨.digits, stack⟩
  else none

def afterDigits (b : UInt8) : Option Scanner :=
  if b = byte '.' then some ⟨.dot, stack⟩
  else if b = byte 'e' ∨ b = byte 'E' then some ⟨.exponent, stack⟩
  else afterValue stack b

def scan (s : Scanner) (b : UInt8) : Option Scanner :=
  match s.state with
  | .beginValue => startValue s.stack b
  | .beginValueOrEmpty =>
    if isSpace b then some s
    else if b = byte ']' then afterValue s.stack b
    else startValue s.stack b
  | .beginString =>
    if isSpace b then some s
    else if b = byte '"' then some ⟨.inString, s.stack⟩
    else none
  | .beginStringOrEmpty =>
    if isSpace b then some s
    else if b = byte '\x7d' then afterValue (.objectValue :: s.stack.tail) b
    else if b = byte '"' then some ⟨.inString, s.stack⟩
    else none
  | .inString =>
    if b = byte '"' then some ⟨.endValue, s.stack⟩
    else if b = byte '\\' then some ⟨.inStringEsc, s.stack⟩
    else if b < 0x20 then none
    else some s
  | .inStringEsc =>
    if ['b', 'f', 'n', 'r', 't', '\\', '/', '"'].any fun c => byte c = b then
      some ⟨.inString, s.stack⟩
    else if b = byte 'u' then some ⟨.inStringEscU 4, s.stack⟩
    else none
  | .inStringEscU left =>
    if isHexDigit b then
      some ⟨if left ≤ 1 then .inString else .inStringEscU (left - 1), s.stack⟩
    else none
  | .neg =>
    if b = byte '0' then some ⟨.zero, s.stack⟩
    else if isDigit b then some ⟨.digits, s.stack⟩
    else none
  | .zero => afterDigits s.stack b
  | .digits => if isDigit b then some s else afterDigits s.stack b
  | .dot => if isDigit b then some ⟨.fraction, s.stack⟩ else none
  | .fraction =>
    if isDigit b then some s
    else if b = byte 'e' ∨ b = byte 'E' then some ⟨.exponent, s.stack⟩
    else afterValue s.stack b
  | .exponent =>
    if b = byte '+' ∨ b = byte '-' then some ⟨.exponentSign, s.stack⟩
    else if isDigit b then some ⟨.exponentDigits, s.stack⟩
    else none
  | .exponentSign => if isDigit b then some ⟨.exponentDigits, s.stack⟩ else none
  | .exponentDigits => if isDigit b then some s else afterValue s.stack b
  | .word left =>
    match left with
    | [] => none
    | c :: rest =>
      if byte c = b then some ⟨if rest = [] then .endValue else .word rest, s.stack⟩ else none
  | .endValue => afterValue s.stack b
  | .endTop => if isSpace b then some s else none

/-- `json.Valid`: the text ends with its value, or a space would end it. -/
def valid (bytes : List UInt8) : Bool :=
  match bytes.foldlM scan ⟨.beginValue, []⟩ with
  | none => false
  | some s => s.state = .endTop || (scan s (byte ' ')).any fun s' => s'.state = .endTop

example : valid (utf8 "[1.5e3, true, null]".toList) = true := by decide +kernel

example : valid (utf8 "[1.5e, true]".toList) = false := by decide +kernel

end Clabernetes.Base.Json
