import Clabernetes.Wire.Codec

/-!
# Splitting frames into fragments

`internal/directruntime/wire.go:228-253` and `:388-399`, with the datagram loop of `transmitFrame`
at `wire_linux.go:567-576`. Sizes are unbounded integers: an interface MTU is a 32-bit attribute and
a frame is at most 65535 bytes, so the 64-bit sums of the source never wrap.
-/

namespace Clabernetes.Wire

open List Nat

/-- Outer IPv4(20) + UDP(8) + common header + data header. -/
def fabricWireTransportOverhead : Int := 28 + fabricWireHeaderSize + fabricWireDataHeaderSize

def fabricWireMinimumFragmentPayload : Int := 1200

def fabricWireMaximumFrameSize : Nat := 2 ^ 16 - 1

def fabricWireMaximumFragments : Nat := 2 ^ 8 - 1

/-- The slicing loop `offset += payloadSize` of `wire.go:247-250`. The fuel bounds its
passes; a positive payload size needs at most one pass for each byte. -/
def fabricWireFrameSlices (frame : Bytes) (payloadSize : Nat) : Nat → Nat → List Bytes
  | 0, _ => []
  | fuel + 1, offset =>
    if offset < frame.length then
      (frame.drop offset).take (min (offset + payloadSize) frame.length - offset) ::
        fabricWireFrameSlices frame payloadSize fuel (offset + payloadSize)
    else []

def fabricWireFragmentCount (frame : Bytes) (payloadSize : Nat) : Nat :=
  (frame.length + payloadSize - 1) / payloadSize

/-- `wire.go:231-253`, for a payload size below `2 ^ 32`: then no sum of the source wraps. -/
def splitFabricWireFrame (frame : Bytes) (payloadSize : Int) : Except WireError (List Bytes) :=
  if payloadSize < 1 then .error .payloadSizeNotPositive
  else if frame.length = 0 ∨ frame.length > fabricWireMaximumFrameSize then
    .error (.frameSize frame.length)
  else if fabricWireFragmentCount frame payloadSize.toNat > fabricWireMaximumFragments then
    .error (.frameNeeds (fabricWireFragmentCount frame payloadSize.toNat))
  else .ok (fabricWireFrameSlices frame payloadSize.toNat frame.length 0)

/-- `wire.go:392-399`; the MTU of an interface is below `2 ^ 32`, and so is the result. -/
def fabricWireFragmentPayload (underlayMTU : Int) : Int :=
  let payload := underlayMTU - fabricWireTransportOverhead
  if payload < fabricWireMinimumFragmentPayload then fabricWireMinimumFragmentPayload
  else payload

def transmitHeader (linkID frameID : UInt32) (frame : Bytes) (fragments : List Bytes)
    (index : Nat) : FabricWireDataHeader :=
  { linkID, frameID
    fragIndex := UInt8.ofNat index
    fragCount := UInt8.ofNat fragments.length
    totalLength := UInt16.ofNat frame.length }

def transmitDatagrams (generation : UInt64) (linkID frameID : UInt32) (frame : Bytes)
    (fragments : List Bytes) : List Bytes :=
  fragments.mapIdx fun index fragment =>
    encodeFabricWireFragment generation (transmitHeader linkID frameID frame fragments index)
      fragment

section Slices

variable (frame : Bytes) (payloadSize : Nat) (hp : 1 ≤ payloadSize)

include hp

private theorem length_slice (offset : Nat) (ho : offset < frame.length) :
    ((frame.drop offset).take (min (offset + payloadSize) frame.length - offset)).length =
      min payloadSize (frame.length - offset) := by
  rw [length_take, length_drop]
  omega

theorem flatten_fabricWireFrameSlices (fuel offset : Nat) (hf : frame.length - offset ≤ fuel) :
    (fabricWireFrameSlices frame payloadSize fuel offset).flatten = frame.drop offset := by
  induction fuel generalizing offset with
  | zero =>
    rw [fabricWireFrameSlices, drop_of_length_le (by omega)]
    rfl
  | succ fuel ih =>
    rw [fabricWireFrameSlices]
    split
    · next ho =>
      rw [flatten_cons, ih _ (by omega), ← drop_drop]
      by_cases hs : offset + payloadSize ≤ frame.length
      · rw [Nat.min_eq_left hs, Nat.add_sub_cancel_left, take_append_drop]
      · -- the last slice is clipped to the frame and nothing follows it
        have hl : (frame.drop offset).length ≤ payloadSize := by rw [length_drop]; omega
        rw [min_eq_right (by omega), drop_of_length_le hl, append_nil,
          take_of_length_le (by rw [length_drop])]
    · next ho => rw [drop_of_length_le (by omega)]; rfl

theorem length_fabricWireFrameSlices (fuel offset : Nat) (hf : frame.length - offset ≤ fuel) :
    (fabricWireFrameSlices frame payloadSize fuel offset).length =
      (frame.length - offset + payloadSize - 1) / payloadSize := by
  induction fuel generalizing offset with
  | zero =>
    have hz : frame.length - offset = 0 := by omega
    rw [fabricWireFrameSlices, hz, length_nil, zero_add, div_eq_of_lt (by omega)]
  | succ fuel ih =>
    rw [fabricWireFrameSlices]
    split
    · next ho =>
      rw [length_cons, ih _ (by omega)]
      by_cases hs : payloadSize ≤ frame.length - offset
      · have he : frame.length - offset + payloadSize - 1 =
            frame.length - (offset + payloadSize) + payloadSize - 1 + payloadSize := by omega
        rw [he, add_div_right _ (by omega)]
      · have hz : frame.length - (offset + payloadSize) = 0 := by omega
        have hd : (frame.length - offset + payloadSize - 1) / payloadSize = 1 := by
          rw [Nat.div_eq_iff (by omega)]
          omega
        rw [hz, hd, Nat.zero_add, Nat.div_eq_of_lt (by omega)]
    · next ho =>
      have hz : frame.length - offset = 0 := by omega
      rw [hz, length_nil, zero_add, div_eq_of_lt (by omega)]

theorem mem_fabricWireFrameSlices (fuel offset : Nat) (fragment : Bytes)
    (hm : fragment ∈ fabricWireFrameSlices frame payloadSize fuel offset) :
    fragment ≠ [] ∧ fragment.length ≤ frame.length := by
  induction fuel generalizing offset with
  | zero => simp [fabricWireFrameSlices] at hm
  | succ fuel ih =>
    rw [fabricWireFrameSlices] at hm
    split at hm
    · next ho =>
      rcases mem_cons.mp hm with rfl | hm
      · have hl := length_slice frame payloadSize hp offset ho
        constructor
        · intro he
          rw [he, length_nil] at hl
          omega
        · omega
      · exact ih _ hm
    · simp at hm

end Slices

theorem splitFabricWireFrame_ok (frame : Bytes) (payloadSize : Int) (hp : 1 ≤ payloadSize)
    (hl : 1 ≤ frame.length) (hu : frame.length ≤ fabricWireMaximumFrameSize)
    (hc : fabricWireFragmentCount frame payloadSize.toNat ≤ fabricWireMaximumFragments) :
    splitFabricWireFrame frame payloadSize =
      .ok (fabricWireFrameSlices frame payloadSize.toNat frame.length 0) := by
  rw [splitFabricWireFrame, if_neg (by omega), if_neg (by omega), if_neg (by omega)]

theorem splitFabricWireFrame_spec (frame : Bytes) (payloadSize : Int) (fragments : List Bytes)
    (h : splitFabricWireFrame frame payloadSize = .ok fragments) :
    fragments.flatten = frame ∧ frame ≠ [] ∧ frame.length < 2 ^ 16 ∧
      fragments.length < 2 ^ 8 ∧ ∀ fragment ∈ fragments, fragment ≠ [] ∧
        fragment.length ≤ frame.length := by
  unfold splitFabricWireFrame at h
  split at h
  · cases h
  · next hp =>
    split at h
    · cases h
    · next hs =>
      split at h
      · cases h
      · next hc =>
        cases h
        have hp1 : 1 ≤ payloadSize.toNat := by omega
        have hz : frame.length - 0 ≤ frame.length := by omega
        have hlen := length_fabricWireFrameSlices frame payloadSize.toNat hp1 frame.length 0 hz
        rw [Nat.sub_zero] at hlen
        unfold fabricWireMaximumFrameSize at hs
        unfold fabricWireFragmentCount fabricWireMaximumFragments at hc
        refine ⟨flatten_fabricWireFrameSlices frame _ hp1 _ 0 hz, ?_, by omega, by omega,
          fun fragment hm => mem_fabricWireFrameSlices frame _ hp1 _ 0 fragment hm⟩
        intro he
        rw [he] at hs
        simp at hs

theorem fabricWireFragmentCount_payload_le (frame : Bytes) (underlayMTU : Int)
    (hu : frame.length ≤ fabricWireMaximumFrameSize) :
    fabricWireFragmentCount frame (fabricWireFragmentPayload underlayMTU).toNat ≤
      fabricWireMaximumFragments := by
  have hm : 1200 ≤ (fabricWireFragmentPayload underlayMTU).toNat := by
    unfold fabricWireFragmentPayload fabricWireMinimumFragmentPayload
    dsimp only
    split <;> omega
  unfold fabricWireFragmentCount fabricWireMaximumFragments
  unfold fabricWireMaximumFrameSize at hu
  generalize (fabricWireFragmentPayload underlayMTU).toNat = size at hm
  -- 65535 bytes in slices of at least 1200 need at most 55 of them
  apply Nat.div_le_of_le_mul
  omega

end Clabernetes.Wire
