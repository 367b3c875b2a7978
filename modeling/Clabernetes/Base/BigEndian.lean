import Mathlib.Tactic.Ring

/-!
# Fixed-width big-endian integers

Byte lists stand for Go byte slices, and the two conversions for the `encoding/binary` big-endian
accessors: a writer that keeps the low `w` bytes of a number and a reader of a byte window. Nothing
here depends on a particular format.
-/

namespace Clabernetes.Base

open List Nat

def bytesBE : Nat → Nat → List UInt8
  | 0, _ => []
  | w + 1, n => UInt8.ofNat (n / 256 ^ w) :: bytesBE w n

variable (bs : List UInt8)

def natBE : Nat := bs.foldl (fun acc b => acc * 256 + b.toNat) 0

@[simp] theorem length_bytesBE (w n : Nat) : (bytesBE w n).length = w := by
  induction w with
  | zero => rfl
  | succ w ih => rw [bytesBE, length_cons, ih]

private theorem foldl_bytesBE (w n acc : Nat) :
    (bytesBE w n).foldl (fun acc b => acc * 256 + b.toNat) acc = acc * 256 ^ w + n % 256 ^ w := by
  induction w generalizing acc with
  | zero => simp [bytesBE, mod_one]
  | succ w ih =>
    -- the head byte is the digit of weight `256 ^ w`
    have hd : (UInt8.ofNat (n / 256 ^ w)).toNat = n / 256 ^ w % 256 := UInt8.toNat_ofNat'
    have hm : n % 256 ^ (w + 1) = n % 256 ^ w + 256 ^ w * (n / 256 ^ w % 256) := by
      rw [pow_succ, mod_mul]
    rw [bytesBE, foldl_cons, ih, hd, hm]
    ring

theorem natBE_bytesBE (w n : Nat) : natBE (bytesBE w n) = n % 256 ^ w := by
  rw [natBE, foldl_bytesBE, zero_mul, zero_add]

theorem natBE_take_append (w n : Nat) (rest : List UInt8) :
    natBE ((bytesBE w n ++ rest).take w) = n % 256 ^ w := by
  rw [take_append_of_le_length (by rw [length_bytesBE]),
    take_of_length_le (by rw [length_bytesBE]), natBE_bytesBE]

def putUint16 (v : UInt16) : List UInt8 := bytesBE 2 v.toNat

def putUint32 (v : UInt32) : List UInt8 := bytesBE 4 v.toNat

def putUint64 (v : UInt64) : List UInt8 := bytesBE 8 v.toNat

def uint16 : UInt16 := UInt16.ofNat (natBE (bs.take 2))

def uint32 : UInt32 := UInt32.ofNat (natBE (bs.take 4))

def uint64 : UInt64 := UInt64.ofNat (natBE (bs.take 8))

@[simp] theorem length_putUint16 (v : UInt16) : (putUint16 v).length = 2 := length_bytesBE _ _
@[simp] theorem length_putUint32 (v : UInt32) : (putUint32 v).length = 4 := length_bytesBE _ _
@[simp] theorem length_putUint64 (v : UInt64) : (putUint64 v).length = 8 := length_bytesBE _ _

@[simp] theorem uint16_putUint16 (v : UInt16) (rest : List UInt8) :
    uint16 (putUint16 v ++ rest) = v := by
  rw [uint16, putUint16, natBE_take_append, mod_eq_of_lt (b := 256 ^ 2) v.toNat_lt,
    UInt16.ofNat_toNat]

@[simp] theorem uint32_putUint32 (v : UInt32) (rest : List UInt8) :
    uint32 (putUint32 v ++ rest) = v := by
  rw [uint32, putUint32, natBE_take_append, mod_eq_of_lt (b := 256 ^ 4) v.toNat_lt,
    UInt32.ofNat_toNat]

@[simp] theorem uint64_putUint64 (v : UInt64) (rest : List UInt8) :
    uint64 (putUint64 v ++ rest) = v := by
  rw [uint64, putUint64, natBE_take_append, mod_eq_of_lt (b := 256 ^ 8) v.toNat_lt,
    UInt64.ofNat_toNat]

end Clabernetes.Base
