import Mathlib.Algebra.Group.Nat.Defs
import Mathlib.Data.List.Sort

/-!
# IP addresses

The values of `net/netip.Addr` that the modelled packages use: the zero address, IPv4 and IPv6 with
a zone. Equality is the `==` of the source. The order only serves maps keyed by address.
-/

namespace Clabernetes.Base

open Std

inductive Addr where
  | zero
  | v4 (bits : BitVec 32)
  | v6 (bits : BitVec 128) (zone : String)
  deriving DecidableEq, Repr, Inhabited

namespace Addr

def isValid (a : Addr) : Bool := a != zero

def is4 : Addr → Bool
  | v4 _ => true
  | _ => false

def is4In6 : Addr → Bool
  | v6 bits _ => bits.toNat / 2 ^ 32 == 0xffff
  | _ => false

def unmap : Addr → Addr
  | v6 bits zone => if (v6 bits zone).is4In6 then v4 (bits.truncate 32) else v6 bits zone
  | a => a

/-- `As4` returns for these addresses and panics for all others. -/
def hasAs4 (a : Addr) : Bool := a.is4 || a.is4In6

private def family : Addr → Nat
  | zero => 0
  | v4 _ => 1
  | v6 _ _ => 2

private def number : Addr → Nat
  | zero => 0
  | v4 bits => bits.toNat
  | v6 bits _ => bits.toNat

private def zoneName : Addr → String
  | v6 _ zone => zone
  | _ => ""

private theorem ext_parts {a b : Addr} (hf : a.family = b.family) (hn : a.number = b.number)
    (hz : a.zoneName = b.zoneName) : a = b := by
  cases a <;> cases b <;> simp_all [family, number, zoneName, BitVec.toNat_inj]

/-- Family, number, zone. -/
instance : Ord Addr where
  compare := compareLex (compareOn family) (compareLex (compareOn number) (compareOn zoneName))

instance : TransOrd Addr :=
  inferInstanceAs (TransCmp (compareLex (compareOn family)
    (compareLex (compareOn number) (compareOn zoneName))))

instance : LawfulEqOrd Addr where
  eq_of_compare := by
    intro a b h
    change compareLex (compareOn family)
      (compareLex (compareOn number) (compareOn zoneName)) a b = .eq at h
    simp only [compareLex_eq_eq, compareOn, LawfulEqOrd.compare_eq_iff_eq] at h
    exact ext_parts h.1 h.2.1 h.2.2

theorem isValid_of_is4 {a : Addr} (h : a.is4 = true) : a.isValid = true := by
  cases a with
  | zero => cases h
  | v4 bits => rfl
  | v6 bits zone => cases h

end Addr

end Clabernetes.Base
