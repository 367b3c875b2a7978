import Clabernetes.Base.LittleEndian

/-!
# Readers of byte streams

A reader takes what it needs from the front of a byte list and leaves the rest, or fails. A reader
inverts a writer when it gets back what was written whatever follows; sequences of records inherit
that from their records.
-/

namespace Clabernetes.Base

open LittleEndian List Option

abbrev Reader (α : Type) := List UInt8 → Option (α × List UInt8)

def takeBytes (n : ℕ) : Reader (List UInt8) := fun bytes =>
  if n ≤ bytes.length then some (bytes.take n, bytes.drop n) else none

def takeUint16 : Reader UInt16 := fun bytes =>
  (takeBytes 2 bytes).map fun read => (UInt16.ofNat (natLE read.1), read.2)

def takeUint32 : Reader UInt32 := fun bytes =>
  (takeBytes 4 bytes).map fun read => (UInt32.ofNat (natLE read.1), read.2)

def takeUint64 : Reader UInt64 := fun bytes =>
  (takeBytes 8 bytes).map fun read => (UInt64.ofNat (natLE read.1), read.2)

def readAll {α : Type} (item : Reader α) : ℕ → List UInt8 → Option (List α)
  | _, [] => some []
  | 0, _ :: _ => none
  | fuel + 1, bytes@(_ :: _) => do
    let (x, rest) ← item bytes
    let xs ← readAll item fuel rest
    return x :: xs

section

variable {rest : List UInt8}

theorem takeBytes_append {bytes : List UInt8} {n : ℕ} (h : bytes.length = n) :
    takeBytes n (bytes ++ rest) = some (bytes, rest) := by
  subst h
  rw [takeBytes, if_pos (by simp), take_left, drop_left]

@[simp] theorem takeUint16_putUint16LE (v : UInt16) :
    takeUint16 (putUint16LE v ++ rest) = some (v, rest) := by
  rw [takeUint16, takeBytes_append (length_putUint16LE v), map_some, ofNat_natLE_putUint16LE]

@[simp] theorem takeUint32_putUint32LE (v : UInt32) :
    takeUint32 (putUint32LE v ++ rest) = some (v, rest) := by
  rw [takeUint32, takeBytes_append (length_putUint32LE v), map_some, ofNat_natLE_putUint32LE]

section Records

variable {α β : Type} {item : Reader α} {write : β → List UInt8} {value : β → α} {xs : List β}

private theorem readAll_of_fuel {fuel : ℕ} (hfuel : xs.length ≤ fuel)
    (h : ∀ x ∈ xs, write x ≠ [] ∧ ∀ rest, item (write x ++ rest) = some (value x, rest)) :
    readAll item fuel (xs.flatMap write) = some (xs.map value) := by
  induction xs generalizing fuel with
  | nil => cases fuel <;> rfl
  | cons x xs ih =>
    obtain ⟨hne, hitem⟩ := h x mem_cons_self
    cases fuel with
    | zero => simp at hfuel
    | succ fuel =>
      have hrest : readAll item fuel (xs.flatMap write) = some (xs.map value) :=
        ih (by simpa using hfuel) fun y hy => h y (mem_cons_of_mem _ hy)
      obtain ⟨b, bytes, hbytes⟩ := exists_cons_of_ne_nil
        (append_ne_nil_of_left_ne_nil hne (xs.flatMap write))
      have hread := hitem (xs.flatMap write)
      rw [flatMap_cons, hbytes, readAll, ← hbytes, hread]
      simp [hrest]

private theorem length_le_length_flatMap (h : ∀ x ∈ xs, write x ≠ []) :
    xs.length ≤ (xs.flatMap write).length := by
  induction xs with
  | nil => exact Nat.le_refl 0
  | cons x xs ih =>
    have hx := length_pos_iff.mpr (h x mem_cons_self)
    have hxs := ih fun y hy => h y (mem_cons_of_mem _ hy)
    rw [flatMap_cons, length_append, length_cons]
    omega

theorem readAll_flatMap
    (h : ∀ x ∈ xs, write x ≠ [] ∧ ∀ rest, item (write x ++ rest) = some (value x, rest)) :
    readAll item (xs.flatMap write).length (xs.flatMap write) = some (xs.map value) :=
  readAll_of_fuel (length_le_length_flatMap fun x hx => (h x hx).1) h

end Records

end

end Clabernetes.Base
