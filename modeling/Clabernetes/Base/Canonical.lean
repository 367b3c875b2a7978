import Mathlib.Data.Option.Basic

/-!
# Canonical encodings

A value is copied through its text, settled (checked and brought into order) and written again. If
settling is done after one pass and touches nothing that the text does not keep, settled values and
their texts determine each other.
-/

namespace Clabernetes.Base

open Option

/-- The texts of a type of values. What is read from the text of a value is its plain form, and a
value without a plain form has no text. -/
structure Codec (α Text : Type) where
  plain : α → Option α
  marshal : α → Option Text
  unmarshal : Text → Option α
  /-- Reading that refuses unknown fields and a rest. -/
  decodeStrict : Text → Option α
  plain_plain : ∀ x y, plain x = some y → plain y = some y
  isSome_marshal : ∀ x, (marshal x).isSome = (plain x).isSome
  unmarshal_marshal : ∀ x text, marshal x = some text → unmarshal text = plain x
  decodeStrict_marshal : ∀ x text, marshal x = some text → decodeStrict text = plain x

namespace Codec

variable {α Text ε : Type} (codec : Codec α Text)

def clone (x : α) : Option α := (codec.marshal x).bind codec.unmarshal

@[simp] theorem clone_eq_plain (x : α) : codec.clone x = codec.plain x := by
  have hsome := codec.isSome_marshal x
  cases hmarshal : codec.marshal x with
  | none =>
    have hplain : codec.plain x = none := by simpa [hmarshal] using hsome.symm
    rw [clone, hmarshal, hplain, bind_none]
  | some text => rw [clone, hmarshal, bind_some, codec.unmarshal_marshal x text hmarshal]

variable (cloneError encodeError decodeError : ε) (settle : α → Except ε α)

def normalize (x : α) : Except ε α :=
  match codec.clone x with
  | none => .error cloneError
  | some y => settle y

def canonical (x : α) : Except ε Text :=
  match codec.normalize cloneError settle x with
  | .error err => .error err
  | .ok normalized =>
    match codec.marshal normalized with
    | none => .error encodeError
    | some text => .ok text

def decode (text : Text) : Except ε α :=
  match codec.decodeStrict text with
  | none => .error decodeError
  | some x => codec.normalize cloneError settle x

variable {cloneError encodeError decodeError} {settle}

theorem normalize_eq_ok {x n : α} : codec.normalize cloneError settle x = .ok n ↔
      ∃ y, codec.plain x = some y ∧ settle y = .ok n := by
  unfold normalize
  rw [clone_eq_plain]
  cases codec.plain x <;> simp

theorem normal_form (hplain : ∀ x n, codec.plain x = some x → settle x = .ok n →
      codec.plain n = some n) (hsettle : ∀ x n, settle x = .ok n → settle n = .ok n) {x n : α}
    (h : codec.normalize cloneError settle x = .ok n) :
    codec.normalize cloneError settle n = .ok n ∧
      ∃ text, codec.canonical cloneError encodeError settle x = .ok text ∧
        codec.decode cloneError decodeError settle text = .ok n ∧
        codec.canonical cloneError encodeError settle n = .ok text := by
  obtain ⟨y, hy, hn⟩ := codec.normalize_eq_ok.mp h
  have hplain' := hplain y n (codec.plain_plain x y hy) hn
  have hnormal : codec.normalize cloneError settle n = .ok n :=
    codec.normalize_eq_ok.mpr ⟨n, hplain', hsettle y n hn⟩
  have hsome : (codec.marshal n).isSome = true := by
    rw [codec.isSome_marshal, hplain', isSome_some]
  obtain ⟨text, htext⟩ := isSome_iff_exists.mp hsome
  refine ⟨hnormal, text, ?_, ?_, ?_⟩
  · simp only [canonical, h, htext]
  · simp only [decode, codec.decodeStrict_marshal n text htext, hplain', hnormal]
  · simp only [canonical, hnormal, htext]

variable {β : Type}

def left (codec : Codec α Text) : Codec α (Text ⊕ β) where
  plain := codec.plain
  marshal x := (codec.marshal x).map .inl
  unmarshal text := text.getLeft?.bind codec.unmarshal
  decodeStrict text := text.getLeft?.bind codec.decodeStrict
  plain_plain := codec.plain_plain
  isSome_marshal x := by rw [isSome_map, codec.isSome_marshal]
  unmarshal_marshal := by
    intro x _ h
    obtain ⟨text, htext, rfl⟩ := map_eq_some_iff.mp h
    exact codec.unmarshal_marshal x text htext
  decodeStrict_marshal := by
    intro x _ h
    obtain ⟨text, htext, rfl⟩ := map_eq_some_iff.mp h
    exact codec.decodeStrict_marshal x text htext

def right : Codec β (Text ⊕ β) where
  plain := some
  marshal x := some (.inr x)
  unmarshal := Sum.getRight?
  decodeStrict := Sum.getRight?
  plain_plain _ _ _ := rfl
  isSome_marshal _ := rfl
  unmarshal_marshal := by
    rintro x _ ⟨⟩
    rfl
  decodeStrict_marshal := by
    rintro x _ ⟨⟩
    rfl

end Codec

end Clabernetes.Base
