import Mathlib.Data.List.TakeDrop
import Mathlib.Data.String.Basic
import Clabernetes.Base.BigEndian
import Clabernetes.Base.Netip

/-!
# Address prefixes

The values of `net/netip.Prefix` and their text form. Bits are counted from the most significant
one, as prefix lengths are. Parsing and printing addresses is a parameter with the laws its
documentation gives; prefixes are parsed and printed from it as Go does.
-/

namespace Clabernetes.Base

open List BitVec Nat Bool

section Bits

variable {w : Nat} {j : Nat} (value : BitVec w)

def setBit (i : Nat) (bit : Bool) : BitVec w :=
  if bit then value ||| twoPow w (w - 1 - i) else value &&& ~~~twoPow w (w - 1 - i)

/-- The loop over the bits from `start` on. -/
def foldFrom (start : Nat) (f : BitVec w → Nat → BitVec w) : BitVec w :=
  (List.range' start (w - start)).foldl f value

def fillFrom (start : Nat) (bit : Nat → Bool) : BitVec w :=
  foldFrom value start fun value i => setBit value i (bit i)

/-- The bit `7 - i%8` of the byte `i/8` of an array. -/
def byteMask (w i : Nat) : BitVec w :=
  (twoPow 8 (7 - i % 8)).setWidth w <<< (w - 8 - 8 * (i / 8))

/-- The first `bits` bits agree. -/
def sameNetwork (bits : Nat) (a b : BitVec w) : Bool := (a ^^^ b) >>> (w - bits) == 0

variable (a : BitVec w)

def networkAddress (bits : Nat) : BitVec w := (a >>> (w - bits)) <<< (w - bits)

theorem getMsbD_setBit_of_ne {i : Nat} (bit : Bool) (hi : i < w) (hj : j < w)
    (hne : j ≠ i) : (setBit value i bit).getMsbD j = value.getMsbD j := by
  have hindex : w - 1 - j ≠ w - 1 - i := by omega
  have hlt : w - 1 - j < w := by omega
  unfold setBit
  split <;> simp [getMsbD_eq_getLsbD, hj, hindex, hlt]

theorem getMsbD_foldl_setBit {indices : List Nat} (bit : Nat → Bool)
    (hindices : ∀ i ∈ indices, i < w ∧ j ≠ i) (hj : j < w) :
    (indices.foldl (fun value i => setBit value i (bit i)) value).getMsbD j = value.getMsbD j := by
  induction indices generalizing value with
  | nil => rfl
  | cons i rest ih =>
    obtain ⟨hi, hne⟩ := hindices i mem_cons_self
    rw [foldl_cons, ih _ fun k hk => hindices k (mem_cons_of_mem _ hk),
      getMsbD_setBit_of_ne value _ hi hj hne]

theorem byteMask_eq {i : Nat} (hw : 8 ∣ w) (hi : i < w) :
    byteMask w i = twoPow w (w - 1 - i) := by
  obtain ⟨n, rfl⟩ := hw
  apply eq_of_getLsbD_eq
  intro k hk
  rw [byteMask, getLsbD_shiftLeft, getLsbD_setWidth, getLsbD_twoPow, getLsbD_twoPow,
    Bool.eq_iff_iff]
  simp only [Bool.and_eq_true, decide_eq_true_eq, Bool.not_eq_true', decide_eq_false_iff_not]
  omega

theorem foldFrom_eq_fillFrom {start : Nat} {f : BitVec w → Nat → BitVec w} {bit : Nat → Bool}
    (hf : ∀ value i, i < w → f value i = setBit value i (bit i)) :
    foldFrom value start f = fillFrom value start bit := by
  apply foldl_ext
  intro value i hi
  rw [mem_range'_1] at hi
  exact hf value i (by omega)

theorem getMsbD_fillFrom_of_lt {start : Nat} (bit : Nat → Bool)
    (hstart : start ≤ w) (hj : j < start) :
    (fillFrom value start bit).getMsbD j = value.getMsbD j := by
  apply getMsbD_foldl_setBit
  · intro i hi
    rw [mem_range'_1] at hi
    omega
  · omega

theorem getMsbD_fillFrom_of_le {start : Nat} (bit : Nat → Bool)
    (hstart : start ≤ j) (hj : j < w) : (fillFrom value start bit).getMsbD j = bit j := by
  obtain ⟨k, rfl⟩ := Nat.exists_eq_add_of_le hstart
  have hsplit : List.range' start (w - start) =
      List.range' start k ++ (start + k) :: List.range' (start + k + 1) (w - (start + k + 1)) := by
    rw [← range'_succ, range'_append_1]
    congr 1
    omega
  rw [fillFrom, foldFrom, hsplit, foldl_append, foldl_cons, getMsbD_foldl_setBit _ _ _ hj]
  · have hindex : w - 1 - (start + k) < w := by omega
    unfold setBit
    split <;> simp_all [getMsbD_eq_getLsbD]
  · intro i hi
    rw [mem_range'_1] at hi
    omega

theorem sameNetwork_iff {bits : Nat} (h : bits ≤ w) (a b : BitVec w) :
    sameNetwork bits a b = true ↔ ∀ i < bits, a.getMsbD i = b.getMsbD i := by
  rw [sameNetwork, beq_iff_eq]
  constructor
  · intro hzero i hi
    have hbit := congrArg (fun v : BitVec w => v.getMsbD (w - bits + i)) hzero
    simpa [getMsbD_ushiftRight, getMsbD_xor, hi, show w - bits + i < w by omega]
      using hbit
  · intro hagree
    apply eq_of_getMsbD_eq
    intro i hi
    simp only [getMsbD_ushiftRight, getMsbD_xor]
    by_cases hlow : i < w - bits
    · simp [hlow]
    · simp [hagree (i - (w - bits)) (by omega)]

theorem getMsbD_networkAddress {bits : Nat} (h : bits ≤ w) (i : Nat) :
    (networkAddress a bits).getMsbD i = (decide (i < bits) && a.getMsbD i) := by
  have hiff : i + (w - bits) < w ↔ i < bits := by omega
  simp [networkAddress, getMsbD_shiftLeft, getMsbD_ushiftRight, hiff]

theorem getMsbD_networkAddress_of_lt {bits i : Nat} (h : bits ≤ w) (hi : i < bits) :
    (networkAddress a bits).getMsbD i = a.getMsbD i := by
  rw [getMsbD_networkAddress a h, decide_eq_true hi, Bool.true_and]

theorem networkAddress_networkAddress {bits : Nat} (h : bits ≤ w) :
    networkAddress (networkAddress a bits) bits = networkAddress a bits := by
  apply eq_of_getMsbD_eq
  intro i _
  rw [getMsbD_networkAddress _ h, getMsbD_networkAddress _ h, ← Bool.and_assoc, Bool.and_self]

end Bits

namespace Addr

def bitLen : Addr → Nat
  | zero => 0
  | v4 _ => 32
  | v6 _ _ => 128

def zoneless : Addr → Bool
  | v6 _ zone => zone == ""
  | _ => true

/-- `Next`: the zero address after the last one. -/
def next : Addr → Addr
  | zero => zero
  | v4 bits => if bits = allOnes 32 then zero else v4 (bits + 1)
  | v6 bits zone => if bits = allOnes 128 then zero else v6 (bits + 1) zone

end Addr

/-- A valid `netip.Prefix`: a family, an address without a zone and a length. -/
inductive Prefix where
  | v4 (ip : BitVec 32) (bits : Nat) (bits_le : bits ≤ 32)
  | v6 (ip : BitVec 128) (bits : Nat) (bits_le : bits ≤ 128)
  deriving DecidableEq

namespace Prefix

def addr : Prefix → Addr
  | v4 ip _ _ => .v4 ip
  | v6 ip _ _ => .v6 ip ""

def bits : Prefix → Nat
  | v4 _ bits _ => bits
  | v6 _ bits _ => bits

def masked : Prefix → Prefix
  | v4 ip bits h => v4 (networkAddress ip bits) bits h
  | v6 ip bits h => v6 (networkAddress ip bits) bits h

def contains : Prefix → Addr → Bool
  | v4 ip bits _, .v4 a => sameNetwork bits a ip
  | v6 ip bits _, .v6 a zone => zone == "" && sameNetwork bits a ip
  | _, _ => false

def of (a : Addr) (bits : Nat) : Option Prefix :=
  match a with
  | .zero => none
  | .v4 ip => if h : bits ≤ 32 then some (v4 ip bits h) else none
  | .v6 ip _ => if h : bits ≤ 128 then some (v6 ip bits h) else none

variable (p : Prefix)

@[simp] theorem bits_masked : p.masked.bits = p.bits := by cases p <;> rfl

@[simp] theorem masked_masked : p.masked.masked = p.masked := by
  cases p with
  | v4 ip bits h | v6 ip bits h => simp only [masked, networkAddress_networkAddress ip h]

@[simp] theorem zoneless_addr : p.addr.zoneless = true := by cases p <;> rfl

@[simp] theorem isValid_addr : p.addr.isValid = true := by cases p <;> rfl

theorem bits_le_bitLen : p.bits ≤ p.addr.bitLen := by
  cases p with
  | v4 _ _ h => exact h
  | v6 _ _ h => exact h

variable {p : Prefix}

variable {a : Addr}

theorem is4_of_contains (h : p.contains a = true) :
    a.is4 = p.addr.is4 ∧ a.zoneless = true ∧ a.isValid = true := by
  cases p <;> cases a <;> simp_all [contains, Addr.is4, addr, Addr.zoneless, Addr.isValid]

@[simp] theorem contains_masked (a : Addr) : p.masked.contains a = p.contains a := by
  cases p with
  | v4 ip bits h =>
    cases a with
    | v4 a =>
      rw [Bool.eq_iff_iff]
      simp only [masked, contains, sameNetwork_iff h]
      exact forall₂_congr fun i hi => by rw [getMsbD_networkAddress_of_lt ip h hi]
    | zero => rfl
    | v6 => rfl
  | v6 ip bits h =>
    cases a with
    | v6 a zone =>
      rw [Bool.eq_iff_iff]
      simp only [masked, contains, sameNetwork_iff h, Bool.and_eq_true]
      exact and_congr_right fun _ => forall₂_congr fun i hi => by
        rw [getMsbD_networkAddress_of_lt ip h hi]
    | zero => rfl
    | v4 => rfl

variable {q : Prefix}

theorem contains_of_contains_addr (hbits : p.bits ≤ q.bits) (hfirst : p.contains q.addr = true)
    (h : q.contains a = true) : p.contains a = true := by
  cases q with
  | v4 ip bits hle =>
    cases p with
    | v6 => cases hfirst
    | v4 network length hlength =>
      cases a with
      | zero => cases h
      | v6 => cases h
      | v4 a =>
        simp only [contains, addr, sameNetwork_iff hle, sameNetwork_iff hlength] at h hfirst ⊢
        intro i hi
        rw [h i (lt_of_lt_of_le hi hbits), hfirst i hi]
  | v6 ip bits hle =>
    cases p with
    | v4 => cases hfirst
    | v6 network length hlength =>
      cases a with
      | zero => cases h
      | v4 => cases h
      | v6 a zone =>
        simp only [contains, addr, and_eq_true, sameNetwork_iff hle, sameNetwork_iff hlength]
          at h hfirst ⊢
        refine ⟨h.1, fun i hi => ?_⟩
        rw [h.2 i (lt_of_lt_of_le hi hbits), hfirst.2 i hi]

theorem contains_addr_of_contains (hbits : p.bits ≤ q.bits) (hp : p.contains a = true)
    (hq : q.contains a = true) : p.contains q.addr = true := by
  cases p with
  | v4 network length hlength =>
    cases q with
    | v6 => cases a <;> simp [contains] at hp hq
    | v4 ip bits hle =>
      cases a with
      | zero => cases hp
      | v6 => cases hp
      | v4 a =>
        simp only [contains, addr, sameNetwork_iff hle, sameNetwork_iff hlength] at hp hq ⊢
        intro i hi
        rw [← hq i (lt_of_lt_of_le hi hbits), hp i hi]
  | v6 network length hlength =>
    cases q with
    | v4 => cases a <;> simp [contains] at hp hq
    | v6 ip bits hle =>
      cases a with
      | zero => cases hp
      | v4 => cases hp
      | v6 a zone =>
        simp only [contains, addr, and_eq_true, sameNetwork_iff hle, sameNetwork_iff hlength]
          at hp hq ⊢
        refine ⟨rfl, fun i hi => ?_⟩
        rw [← hq.2 i (lt_of_lt_of_le hi hbits), hp.2 i hi]

def apart (p q : Prefix) : Bool := !p.contains q.addr && !q.contains p.addr

theorem not_contains_of_apart (h : p.apart q = true) (hp : p.contains a = true) :
    q.contains a = false := by
  rw [apart, and_eq_true, not_eq_true', not_eq_true'] at h
  by_contra hq
  rw [not_eq_false] at hq
  rcases le_total p.bits q.bits with hbits | hbits
  · rw [contains_addr_of_contains hbits hp hq] at h
    exact absurd h.1 (by decide)
  · rw [contains_addr_of_contains hbits hq hp] at h
    exact absurd h.2 (by decide)

theorem exists_of_eq_some {bits : Nat} (hvalid : a.isValid = true) (hzone : a.zoneless = true)
    (hbits : bits ≤ a.bitLen) : ∃ p, Prefix.of a bits = some p ∧ p.addr = a ∧ p.bits = bits := by
  cases a with
  | zero => cases hvalid
  | v4 ip => exact ⟨v4 ip bits hbits, dif_pos hbits, rfl, rfl⟩
  | v6 ip zone =>
    rw [Addr.zoneless, beq_iff_eq] at hzone
    subst hzone
    exact ⟨v6 ip bits hbits, dif_pos hbits, rfl, rfl⟩

theorem ext_addr_bits (haddr : p.addr = q.addr) (hbits : p.bits = q.bits) : p = q := by
  cases p <;> cases q <;> simp_all [addr, Prefix.bits]

theorem of_addr_bits : Prefix.of p.addr p.bits = some p := by
  obtain ⟨q, hq, haddr, hbits⟩ := exists_of_eq_some p.isValid_addr p.zoneless_addr p.bits_le_bitLen
  rw [hq, ext_addr_bits haddr hbits]

end Prefix

/-- `netip.ParseAddr` and `Addr.String`: an address without a zone reads back from its text, which
has no slash. -/
structure AddrText where
  parseAddr : String → Option Addr
  addrString : Addr → String
  parseAddr_addrString : ∀ a, a.isValid = true → a.zoneless = true →
    parseAddr (addrString a) = some a
  parseAddr_empty : parseAddr "" = none
  slash_notMem_addrString : ∀ a, a.zoneless = true → '/' ∉ (addrString a).toList

def parseBits (digits : List Char) : Option Nat :=
  if digits = [] ∨ !digits.all Char.isDigit ∨ 1 < digits.length ∧ digits.head? = some '0' then none
  else some (digits.foldl (fun n c => 10 * n + (c.toNat - '0'.toNat)) 0)

def cutSlash (text : String) : String × Option String :=
  match text.toList.span (· != '/') with
  | (_, []) => (text, none)
  | (before, _ :: after) => (String.ofList before, some (String.ofList after))

namespace AddrText

variable (text : AddrText)

def parsePrefix (s : String) : Option Prefix :=
  match s.toList.reverse.span (· != '/') with
  | (_, []) => none
  | (digits, _ :: before) =>
    match text.parseAddr (String.ofList before.reverse), parseBits digits.reverse with
    | some a, some bits => if a.zoneless then Prefix.of a bits else none
    | _, _ => none

def prefixString (p : Prefix) : String := text.addrString p.addr ++ "/" ++ Nat.repr p.bits

theorem parseBits_repr {bits : Nat} (h : bits ≤ 128) :
    parseBits (Nat.repr bits).toList = some bits ∧ '/' ∉ (Nat.repr bits).toList := by
  have hall : ∀ n : Fin 129,
      parseBits (Nat.repr n).toList = some n.val ∧ '/' ∉ (Nat.repr n).toList := by decide +kernel
  exact hall ⟨bits, by omega⟩

theorem span_of_notMem {before after : List Char} (h : '/' ∉ before) :
    (before ++ '/' :: after).span (· != '/') = (before, '/' :: after) := by
  have hall : ∀ c ∈ before, (c != '/') = true := by
    intro c hc
    rw [bne_iff_ne]
    rintro rfl
    exact h hc
  rw [span_eq_takeWhile_dropWhile, takeWhile_append_of_pos hall, dropWhile_append_of_pos hall]
  simp

theorem cutSlash_append {before after : String} (h : '/' ∉ before.toList) :
    cutSlash (before ++ "/" ++ after) = (before, some after) := by
  have htext : (before ++ "/" ++ after).toList = before.toList ++ '/' :: after.toList := by simp
  rw [cutSlash, htext, span_of_notMem h]
  simp

section

variable (p : Prefix)

theorem bits_le_128 : p.bits ≤ 128 := by cases p <;> simp only [Prefix.bits] <;> omega

theorem toList_prefixString : (text.prefixString p).toList =
      (text.addrString p.addr).toList ++ '/' :: (Nat.repr p.bits).toList := by
  simp [prefixString]

@[simp] theorem parsePrefix_prefixString : text.parsePrefix (text.prefixString p) = some p := by
  obtain ⟨hparse, hslash⟩ := parseBits_repr (bits_le_128 p)
  have hreverse : (text.prefixString p).toList.reverse =
      (Nat.repr p.bits).toList.reverse ++ '/' :: (text.addrString p.addr).toList.reverse := by
    simp [toList_prefixString]
  rw [parsePrefix, hreverse, span_of_notMem (by rwa [mem_reverse])]
  simp only [reverse_reverse, String.ofList_toList, hparse,
    text.parseAddr_addrString p.addr p.isValid_addr p.zoneless_addr, Prefix.zoneless_addr, if_true,
    Prefix.of_addr_bits]

@[simp] theorem cutSlash_prefixString :
    cutSlash (text.prefixString p) = (text.addrString p.addr, some (Nat.repr p.bits)) :=
  cutSlash_append (text.slash_notMem_addrString p.addr p.zoneless_addr)

theorem addrString_addr_ne_empty : text.addrString p.addr ≠ "" := by
  intro h
  have hparse := text.parseAddr_addrString p.addr p.isValid_addr p.zoneless_addr
  rw [h, text.parseAddr_empty] at hparse
  cases hparse

theorem prefixString_ne_empty : text.prefixString p ≠ "" := by
  intro h
  have hlist := congrArg String.toList h
  simp [toList_prefixString] at hlist

end

theorem prefixString_injective : Function.Injective text.prefixString := by
  intro p q h
  have hparse := congrArg text.parsePrefix h
  simpa using hparse

end AddrText

theorem slash24 : 24 ≤ 32 := by decide

theorem slash25 : 25 ≤ 32 := by decide

def byteChar (byte : UInt8) : Char := Char.ofNat (256 + byte.toNat)

def charByte (c : Char) : UInt8 := UInt8.ofNat (c.toNat - 256)

theorem toNat_byteChar (byte : UInt8) : (byteChar byte).toNat = 256 + byte.toNat := by
  have hlt := byte.toNat_lt
  have hvalid : (256 + byte.toNat).isValidChar := .inl (by omega)
  rw [byteChar, Char.ofNat, dif_pos hvalid]
  rfl

theorem charByte_byteChar (byte : UInt8) : charByte (byteChar byte) = byte := by
  rw [charByte, toNat_byteChar, Nat.add_sub_cancel_left, UInt8.ofNat_toNat]

theorem natBE_charByte (count n : Nat) (h : n < 256 ^ count) :
    natBE (((bytesBE count n).map byteChar).map charByte) = n := by
  have hid : charByte ∘ byteChar = id := funext charByte_byteChar
  rw [map_map, hid, map_id, natBE_bytesBE, mod_eq_of_lt h]

/-- Addresses written as letters behind the number of their family. -/
def letterText : AddrText where
  parseAddr text :=
    match text.toList with
    | '4' :: letters => some (.v4 (BitVec.ofNat 32 (natBE (letters.map charByte))))
    | '6' :: letters => some (.v6 (BitVec.ofNat 128 (natBE (letters.map charByte))) "")
    | _ => none
  addrString
    | .zero => ""
    | .v4 bits => String.ofList ('4' :: (bytesBE 4 bits.toNat).map byteChar)
    | .v6 bits _ => String.ofList ('6' :: (bytesBE 16 bits.toNat).map byteChar)
  parseAddr_addrString a hvalid hzone := by
    cases a with
    | zero => cases hvalid
    | v4 bits => simp only [String.toList_ofList, natBE_charByte 4 _ bits.isLt, BitVec.ofNat_toNat,
        BitVec.setWidth_eq]
    | v6 bits zone =>
      rw [Addr.zoneless, beq_iff_eq] at hzone
      simp only [String.toList_ofList, natBE_charByte 16 _ bits.isLt, BitVec.ofNat_toNat,
        setWidth_eq, hzone]
  parseAddr_empty := rfl
  slash_notMem_addrString a _ := by
    have hletters : ∀ bytes : List UInt8, '/' ∉ bytes.map byteChar := by
      intro bytes hmem
      obtain ⟨byte, -, hbyte⟩ := mem_map.mp hmem
      have hnat := (toNat_byteChar byte).symm.trans (congrArg Char.toNat hbyte)
      have hslash : '/'.toNat = 47 := rfl
      omega
    cases a <;> simp [hletters]

end Clabernetes.Base
