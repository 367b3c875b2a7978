import Clabernetes.Management.HostAddresses

/-!
# Prefix arithmetic

`controllers/node/directmanagement.go:25-59,467-514`: which addresses of a prefix a digest can give,
which one is the last, and which ranges a subnet admits.
-/

namespace Clabernetes.Management

open Base BitVec

def value : Addr → Nat
  | .zero => 0
  | .v4 bits => bits.toNat
  | .v6 bits _ => bits.toNat

section Bits

variable {w bits : Nat} {a ip : BitVec w}

theorem exists_digest (hw : 8 ∣ w) (hle : w ≤ 256) (hbits : bits ≤ w)
    (h : sameNetwork bits a ip = true) : ∃ digest, foldFrom (networkAddress ip bits) bits
      (fun value bit => copyHashBit value digest bit (bit - bits)) = a := by
  refine ⟨a.setWidth 256 <<< (256 - w + bits), eq_of_getMsbD_eq fun i hi => ?_⟩
  rw [foldFrom_copyHashBit hw hle]
  rw [sameNetwork_iff hbits] at h
  by_cases hlt : i < bits
  · rw [getMsbD_fillFrom_of_lt _ _ hbits hlt, getMsbD_networkAddress_of_lt ip hbits hlt, h i hlt]
  · rw [getMsbD_fillFrom_of_le _ _ (Nat.le_of_not_lt hlt) hi, getMsbD_shiftLeft, getMsbD_setWidth]
    rw [show i - bits + (256 - w + bits) + w - 256 = i by omega]
    simp
    omega

theorem toNat_le_endOf (hbits : bits ≤ w) (h : sameNetwork bits a ip = true) :
    a.toNat ≤ (endOf true ip bits).toNat := by
  rw [sameNetwork_iff hbits] at h
  have hor : a ||| endOf true ip bits = endOf true ip bits := by
    refine eq_of_getMsbD_eq fun i hi => ?_
    rw [getMsbD_or]
    by_cases hlt : i < bits
    · rw [getMsbD_endOf_of_lt true ip hbits hlt, h i hlt, Bool.or_self]
    · rw [getMsbD_endOf_of_le true ip (Nat.le_of_not_lt hlt) hi, Bool.or_true]
  rw [← hor, toNat_or]
  exact Nat.left_le_or

/-- The ends of a range differ in the first bit behind its length. -/
theorem bits_le_of_ends {network : BitVec w} {length : Nat} (hlength : length ≤ w)
    (h : ∀ bit, sameNetwork length (endOf bit ip bits) network = true) : length ≤ bits := by
  by_contra hlt
  have hbit : ∀ bit, (endOf bit ip bits).getMsbD bits = network.getMsbD bits := fun bit =>
    (sameNetwork_iff hlength _ _).mp (h bit) bits (Nat.lt_of_not_le hlt)
  have hsame := (hbit true).trans (hbit false).symm
  rw [getMsbD_endOf_of_le true ip (Nat.le_refl _) (by omega),
    getMsbD_endOf_of_le false ip (Nat.le_refl _) (by omega)] at hsame
  cases hsame

end Bits

theorem hashed_reaches (lib : Library) (seed : String) (attempt : Nat) {range : Prefix} {a : Addr}
    (h : range.contains a = true) : ∃ digest, hashedPrefixAddress
      { lib with sha256 := fun _ => digest } range seed attempt = a := by
  cases range with
  | v4 ip bits hbits =>
    cases a with
    | v4 a => exact (exists_digest (by decide) (by decide) hbits h).imp fun _ => congrArg Addr.v4
    | zero => cases h
    | v6 => cases h
  | v6 ip bits hbits =>
    cases a with
    | v6 a zone =>
      simp only [Prefix.contains, Bool.and_eq_true, beq_iff_eq] at h
      rw [h.1]
      exact (exists_digest (by decide) (by decide) hbits h.2).imp fun _ => congrArg (Addr.v6 · "")
    | zero => cases h
    | v4 => cases h

theorem value_le_last {range : Prefix} {a : Addr} (h : range.contains a = true) :
    value a ≤ value (lastPrefixAddress range) := by
  rw [← endAddress_true]
  cases range <;> cases a <;> simp only [Prefix.contains, Bool.and_eq_true, Bool.false_eq_true] at h
  · exact toNat_le_endOf (by assumption) h
  · exact toNat_le_endOf (by assumption) h.2

theorem inside_iff (network allocation : Prefix) :
    (∀ a, allocation.contains a = true → network.contains a = true) ↔
      network.bits ≤ allocation.bits ∧ network.contains allocation.masked.addr = true ∧
        network.contains (lastPrefixAddress allocation) = true := by
  constructor
  · intro h
    have hends : ∀ bit, network.contains (endAddress bit allocation) = true :=
      fun bit => h _ (contains_endAddress bit allocation)
    rw [← endAddress_true, ← endAddress_false]
    refine ⟨?_, hends false, hends true⟩
    cases network <;> cases allocation
    · exact bits_le_of_ends (by assumption) hends
    · cases hends true
    · cases hends true
    · exact bits_le_of_ends (by assumption) hends
  · rintro ⟨hbits, hfirst, -⟩ a ha
    exact Prefix.contains_of_contains_addr (q := allocation.masked) (by simpa using hbits) hfirst
      (by simpa using ha)

/-- The texts are prefixes of the family, and every address of the range belongs to the subnet. -/
def Admits (lib : Library) (subnet addressRange : String) (ipv4 : Bool) : Prop :=
  ∃ network allocation, lib.parsePrefix subnet = some network ∧
    lib.parsePrefix addressRange = some allocation ∧ network.addr.is4 = ipv4 ∧
    allocation.addr.is4 = ipv4 ∧ ∀ a, allocation.contains a = true → network.contains a = true

theorem newDirectManagementPool_accepts (lib : Library) (ipv4 : Bool) {subnet addressRange : String}
    (hsubnet : subnet ≠ "") (hrange : addressRange ≠ "") :
    (∃ pool, newDirectManagementPool lib subnet addressRange ipv4 = .ok pool) ↔
      Admits lib subnet addressRange ipv4 := by
  unfold Admits
  have his4 : ∀ p : Prefix, p.masked.addr.is4 = p.addr.is4 := fun p => by cases p <;> rfl
  rw [newDirectManagementPool, if_neg hsubnet]
  cases lib.parsePrefix subnet with
  | none => simp
  | some network =>
    cases lib.parsePrefix addressRange with
    | none =>
      dsimp only
      split_ifs <;> simp
    | some allocation =>
      have hinside := inside_iff network.masked allocation.masked
      simp only [Prefix.masked_masked] at hinside
      dsimp only
      split_ifs with h4 hfamily hends
      · simp [hfamily]
      · exact ⟨fun _ => ⟨network, allocation, rfl, rfl, his4 network ▸ h4, not_not.mp hfamily,
          by simpa using hinside.mpr hends⟩, fun _ => ⟨_, rfl⟩⟩
      · simp only [exists_false, Option.some.injEq, false_iff]
        rintro ⟨_, _, rfl, rfl, -, -, h⟩
        exact hends (hinside.mp (by simpa using h))
      · simp [← his4 network, h4]

/-- A digest gives an address of the prefix, every one of them is given by some digest, and the last
one is the greatest. A range is accepted if all its addresses belong to the subnet. -/
theorem prefix_arithmetic (lib : Library) (range : Prefix) (seed : String) (attempt : Nat) :
    range.contains (hashedPrefixAddress lib range seed attempt) = true ∧
      (∀ a, range.contains a = true → ∃ digest, hashedPrefixAddress
        { lib with sha256 := fun _ => digest } range seed attempt = a) ∧
      (range.contains (lastPrefixAddress range) = true ∧
        ∀ a, range.contains a = true → value a ≤ value (lastPrefixAddress range)) ∧
      ∀ subnet addressRange ipv4, subnet ≠ "" → addressRange ≠ "" →
        ((∃ pool, newDirectManagementPool lib subnet addressRange ipv4 = .ok pool) ↔
          Admits lib subnet addressRange ipv4) :=
  ⟨contains_hashedPrefixAddress lib range seed attempt, fun _ => hashed_reaches lib seed attempt,
    ⟨endAddress_true range ▸ contains_endAddress true range, fun _ => value_le_last⟩,
    fun _ _ ipv4 => newDirectManagementPool_accepts lib ipv4⟩

end Clabernetes.Management
