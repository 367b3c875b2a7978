import Mathlib.Tactic.Ring

/-!
# Fixed-width little-endian integers

The little-endian accessors of `encoding/binary` on byte lists, as writers that append a field.
-/

namespace Clabernetes.Base.LittleEndian

def bytesLE : ℕ → ℕ → List UInt8
  | 0, _ => []
  | w + 1, n => UInt8.ofNat n :: bytesLE w (n / 256)

def natLE : List UInt8 → ℕ
  | [] => 0
  | b :: bs => b.toNat + 256 * natLE bs

@[simp] theorem length_bytesLE (w n : ℕ) : (bytesLE w n).length = w := by
  induction w generalizing n with
  | zero => rfl
  | succ w ih => rw [bytesLE, List.length_cons, ih]

theorem natLE_bytesLE (w n : ℕ) : natLE (bytesLE w n) = n % 256 ^ w := by
  induction w generalizing n with
  | zero => simp [bytesLE, natLE, Nat.mod_one]
  | succ w ih =>
    have hdigit : (UInt8.ofNat n).toNat = n % 256 := UInt8.toNat_ofNat'
    rw [bytesLE, natLE, ih, hdigit, Nat.pow_succ', Nat.mod_mul]

def putUint16LE (v : UInt16) : List UInt8 := bytesLE 2 v.toNat

def putUint32LE (v : UInt32) : List UInt8 := bytesLE 4 v.toNat

def putUint64LE (v : UInt64) : List UInt8 := bytesLE 8 v.toNat

@[simp] theorem length_putUint16LE (v : UInt16) : (putUint16LE v).length = 2 := length_bytesLE _ _
@[simp] theorem length_putUint32LE (v : UInt32) : (putUint32LE v).length = 4 := length_bytesLE _ _
theorem ofNat_natLE_putUint16LE (v : UInt16) : UInt16.ofNat (natLE (putUint16LE v)) = v := by
  rw [putUint16LE, natLE_bytesLE, Nat.mod_eq_of_lt (b := 256 ^ 2) v.toNat_lt, UInt16.ofNat_toNat]

theorem ofNat_natLE_putUint32LE (v : UInt32) : UInt32.ofNat (natLE (putUint32LE v)) = v := by
  rw [putUint32LE, natLE_bytesLE, Nat.mod_eq_of_lt (b := 256 ^ 4) v.toNat_lt, UInt32.ofNat_toNat]

end Clabernetes.Base.LittleEndian
