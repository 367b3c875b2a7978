import Clabernetes.Base.BigEndian

/-!
# Fabric wire datagram format

The byte format of `internal/directruntime/wire.go:16-226`: a ten-byte common header, then the body
of one of three message types. Byte lists stand for slices. An accepted fragment carries its checked
geometry, so the reassembler never sees an index outside the fragment table its header announces.
-/

namespace Clabernetes.Wire

open Base List

abbrev Bytes := List UInt8

def fabricWireVersion : UInt8 := 1

def fabricWireMsgData : UInt8 := 1

def fabricWireMsgLinkState : UInt8 := 2

def fabricWireMsgHeartbeat : UInt8 := 3

/-- `version(1) | msgType(1) | generation(8)`. -/
def fabricWireHeaderSize : Nat := 10

/-- `linkID(4) | frameID(4) | fragIndex(1) | fragCount(1) | totalLen(2)`. -/
def fabricWireDataHeaderSize : Nat := 12

/-- `linkID(4) | operUp(1)`. -/
def fabricWireLinkStateEntrySize : Nat := 5

/-- Rejections of the datagram parsers and of the frame splitter; `:81-84`. -/
inductive WireError where
  | shortHeader
  | unknownVersion
  | shortDataHeader
  | inconsistentGeometry
  | malformedLinkState
  | payloadSizeNotPositive
  | frameSize (size : Nat)
  | frameNeeds (count : Nat)
  deriving DecidableEq, Repr

structure FabricWireHeader where
  version : UInt8
  msgType : UInt8
  generation : UInt64
  deriving DecidableEq, Repr

/-- The address of one fragment of one frame on one link. -/
structure FabricWireDataHeader where
  linkID : UInt32
  frameID : UInt32
  fragIndex : UInt8
  fragCount : UInt8
  totalLength : UInt16
  deriving DecidableEq, Repr

structure FabricWireLinkState where
  linkID : UInt32
  operUp : Bool
  deriving DecidableEq, Repr

/-- A fragment that passed `parseFabricWireDataHeader`, with the geometry it was checked
for at `:173-174`. -/
structure FabricWireFragment where
  header : FabricWireDataHeader
  payload : Bytes
  index_lt : header.fragIndex < header.fragCount
  payload_ne : payload ≠ []
  payload_le : payload.length ≤ header.totalLength.toNat
  deriving DecidableEq

def putFabricWireHeader (msgType : UInt8) (generation : UInt64) : Bytes :=
  fabricWireVersion :: msgType :: putUint64 generation

def parseFabricWireHeader (datagram : Bytes) : Except WireError (FabricWireHeader × Bytes) :=
  if h : datagram.length < fabricWireHeaderSize then .error .shortHeader
  else
    let header : FabricWireHeader :=
      { version := datagram.get ⟨0, by unfold fabricWireHeaderSize at h; omega⟩
        msgType := datagram.get ⟨1, by unfold fabricWireHeaderSize at h; omega⟩
        generation := uint64 (datagram.drop 2) }
    if header.version ≠ fabricWireVersion then .error .unknownVersion
    else .ok (header, datagram.drop fabricWireHeaderSize)

variable (header : FabricWireDataHeader)

def putFabricWireDataHeader : Bytes :=
  putUint32 header.linkID ++ (putUint32 header.frameID ++
    (header.fragIndex :: header.fragCount :: putUint16 header.totalLength))

variable (generation : UInt64)

def encodeFabricWireFragment (header : FabricWireDataHeader) (payload : Bytes) : Bytes :=
  putFabricWireHeader fabricWireMsgData generation ++ (putFabricWireDataHeader header ++ payload)

def readFabricWireDataHeader (body : Bytes) (h : fabricWireDataHeaderSize ≤ body.length) :
    FabricWireDataHeader :=
  { linkID := uint32 body
    frameID := uint32 (body.drop 4)
    fragIndex := body.get ⟨8, Nat.lt_of_lt_of_le (by decide) h⟩
    fragCount := body.get ⟨9, Nat.lt_of_lt_of_le (by decide) h⟩
    totalLength := uint16 (body.drop 10) }

def checkFabricWireGeometry (payload : Bytes) : Except WireError FabricWireFragment :=
  if hg : header.fragCount = 0 ∨ header.fragCount ≤ header.fragIndex ∨ payload = [] ∨
      header.totalLength.toNat < payload.length then
    .error .inconsistentGeometry
  else
    .ok { header, payload
          index_lt := UInt8.not_le.mp (fun hi => hg (.inr (.inl hi)))
          payload_ne := fun hp => hg (.inr (.inr (.inl hp)))
          payload_le := Nat.not_lt.mp (fun hp => hg (.inr (.inr (.inr hp)))) }

def parseFabricWireDataHeader (body : Bytes) : Except WireError FabricWireFragment :=
  if h : body.length < fabricWireDataHeaderSize then .error .shortDataHeader
  else
    checkFabricWireGeometry (readFabricWireDataHeader body (Nat.not_lt.mp h))
      (body.drop fabricWireDataHeaderSize)

def putFabricWireLinkState (state : FabricWireLinkState) : Bytes :=
  putUint32 state.linkID ++ [if state.operUp then 1 else 0]

def encodeFabricWireLinkStates (states : List FabricWireLinkState) : Bytes :=
  putFabricWireHeader fabricWireMsgLinkState generation ++ states.flatMap putFabricWireLinkState

def fabricWireLinkStateEntries : Nat → Bytes → List FabricWireLinkState
  | 0, _ => []
  | count + 1, body =>
    { linkID := uint32 body, operUp := body.getD 4 0 == 1 } ::
      fabricWireLinkStateEntries count (body.drop fabricWireLinkStateEntrySize)

def parseFabricWireLinkStates (body : Bytes) : Except WireError (List FabricWireLinkState) :=
  if body.length = 0 ∨ body.length % fabricWireLinkStateEntrySize ≠ 0 then
    .error .malformedLinkState
  else
    .ok (fabricWireLinkStateEntries (body.length / fabricWireLinkStateEntrySize) body)

def encodeFabricWireHeartbeat : Bytes :=
  putFabricWireHeader fabricWireMsgHeartbeat generation

@[simp] theorem length_putFabricWireHeader (msgType : UInt8) (generation : UInt64) :
    (putFabricWireHeader msgType generation).length = fabricWireHeaderSize := by
  simp [putFabricWireHeader, fabricWireHeaderSize]

@[simp] theorem length_putFabricWireDataHeader :
    (putFabricWireDataHeader header).length = fabricWireDataHeaderSize := by
  simp [putFabricWireDataHeader, fabricWireDataHeaderSize]

@[simp] theorem length_putFabricWireLinkState (state : FabricWireLinkState) :
    (putFabricWireLinkState state).length = fabricWireLinkStateEntrySize := by
  simp [putFabricWireLinkState, fabricWireLinkStateEntrySize]

theorem parseFabricWireHeader_put (msgType : UInt8) (generation : UInt64) (body : Bytes) :
    parseFabricWireHeader (putFabricWireHeader msgType generation ++ body) =
      .ok (⟨fabricWireVersion, msgType, generation⟩, body) := by
  have hl : ¬ (putFabricWireHeader msgType generation ++ body).length < fabricWireHeaderSize := by
    rw [length_append, length_putFabricWireHeader]
    omega
  have hb : (putFabricWireHeader msgType generation ++ body).drop fabricWireHeaderSize = body := by
    rw [← length_putFabricWireHeader msgType generation, drop_left]
  rw [parseFabricWireHeader, dif_neg hl, hb]
  simp [putFabricWireHeader]

private theorem drop_putUint32 (v : UInt32) (rest : Bytes) :
    (putUint32 v ++ rest).drop 4 = rest := by
  rw [← length_putUint32 v, drop_left]

private theorem readFabricWireDataHeader_put (payload : Bytes)
    (h : fabricWireDataHeaderSize ≤ (putFabricWireDataHeader header ++ payload).length) :
    readFabricWireDataHeader (putFabricWireDataHeader header ++ payload) h = header := by
  have ht : (putFabricWireDataHeader header ++ payload).drop 10 =
      putUint16 header.totalLength ++ payload := by
    rw [show (10 : Nat) = 4 + (4 + 2) from rfl, ← drop_drop, ← drop_drop]
    simp only [putFabricWireDataHeader, append_assoc, drop_putUint32, cons_append,
      drop_succ_cons, drop_zero]
  rw [readFabricWireDataHeader, ht, uint16_putUint16]
  simp [putFabricWireDataHeader, append_assoc]

private theorem checkFabricWireGeometry_ok (fragment : FabricWireFragment) :
    checkFabricWireGeometry fragment.header fragment.payload = .ok fragment := by
  rw [checkFabricWireGeometry, dif_neg]
  rintro (hz | hc | hp | hp)
  · have hi := fragment.index_lt
    rw [hz] at hi
    exact UInt8.not_lt_zero hi
  · exact UInt8.not_lt.mpr hc fragment.index_lt
  · exact fragment.payload_ne hp
  · exact Nat.not_lt.mpr fragment.payload_le hp

theorem parseFabricWireDataHeader_put (fragment : FabricWireFragment) :
    parseFabricWireDataHeader (putFabricWireDataHeader fragment.header ++ fragment.payload) =
      .ok fragment := by
  have hl : ¬ (putFabricWireDataHeader fragment.header ++ fragment.payload).length <
      fabricWireDataHeaderSize := by
    rw [length_append, length_putFabricWireDataHeader]
    omega
  have hb : (putFabricWireDataHeader fragment.header ++ fragment.payload).drop
      fabricWireDataHeaderSize = fragment.payload := by
    rw [← length_putFabricWireDataHeader fragment.header, drop_left]
  rw [parseFabricWireDataHeader, dif_neg hl, hb, readFabricWireDataHeader_put,
    checkFabricWireGeometry_ok]

private theorem fabricWireLinkStateEntries_put (states : List FabricWireLinkState) :
    fabricWireLinkStateEntries states.length (states.flatMap putFabricWireLinkState) = states := by
  induction states with
  | nil => rfl
  | cons state rest ih =>
    have hd : (putFabricWireLinkState state ++ rest.flatMap putFabricWireLinkState).drop
        fabricWireLinkStateEntrySize = rest.flatMap putFabricWireLinkState := by
      rw [← length_putFabricWireLinkState state, drop_left]
    have hu : ((putFabricWireLinkState state ++ rest.flatMap putFabricWireLinkState).getD 4 0
        == 1) = state.operUp := by
      cases hs : state.operUp <;> simp [putFabricWireLinkState, hs]
    rw [length_cons, flatMap_cons, fabricWireLinkStateEntries, hd, ih, hu]
    simp [putFabricWireLinkState, append_assoc]

theorem parseFabricWireLinkStates_put (states : List FabricWireLinkState) (hne : states ≠ []) :
    parseFabricWireLinkStates (states.flatMap putFabricWireLinkState) = .ok states := by
  have hl : (states.flatMap putFabricWireLinkState).length =
      states.length * fabricWireLinkStateEntrySize := by
    simp [length_flatMap, map_const']
  have hp : 0 < states.length := length_pos_iff.mpr hne
  have hc : ¬ ((states.flatMap putFabricWireLinkState).length = 0 ∨
      (states.flatMap putFabricWireLinkState).length % fabricWireLinkStateEntrySize ≠ 0) := by
    rw [hl]
    unfold fabricWireLinkStateEntrySize
    omega
  rw [parseFabricWireLinkStates, if_neg hc, hl, Nat.mul_div_cancel _ (by decide),
    fabricWireLinkStateEntries_put]

end Clabernetes.Wire
