import Mathlib.Order.Basic

/-!
# Captures and their bounds

`internal/directruntime/capture.go`: the bounds a capture is given, and what a reader does with a
packet before it hands it to the stream.
-/

namespace Clabernetes.Capture

def defaultPacketCaptureSnapLength : Int := 262144
def minimumPacketCaptureSnapLength : Int := 64
def maximumPacketCaptureSnapLength : Int := 1048576
def maximumPacketCapturePackets : Int := 1000000

def maximumPacketCaptureDuration : Int := 3600000000000

structure PacketCaptureOptions where
  snapLength : Int := 0
  packetLimit : Int := 0
  duration : Int := 0

/-- Bounds that were accepted. A packet limit or a duration of zero is none. -/
structure Bounds where
  snapLength : ℕ
  packetLimit : ℕ
  duration : ℕ
  snapLength_ge : minimumPacketCaptureSnapLength ≤ snapLength
  snapLength_le : snapLength ≤ maximumPacketCaptureSnapLength
  packetLimit_le : packetLimit ≤ maximumPacketCapturePackets
  duration_le : duration ≤ maximumPacketCaptureDuration
  finite : packetLimit ≠ 0 ∨ duration ≠ 0

def normalizePacketCaptureOptions (options : PacketCaptureOptions) : Except String Bounds :=
  let snapLength :=
    if options.snapLength = 0 then defaultPacketCaptureSnapLength else options.snapLength
  if hsnap : snapLength < minimumPacketCaptureSnapLength ∨
      maximumPacketCaptureSnapLength < snapLength then
    .error "packet capture snap length is outside the supported range"
  else if hlimit : options.packetLimit < 0 ∨ maximumPacketCapturePackets < options.packetLimit then
    .error "packet capture packet limit is outside the supported range"
  else if hduration : options.duration < 0 ∨ maximumPacketCaptureDuration < options.duration then
    .error "packet capture duration is outside the supported range"
  else if hfinite : options.packetLimit = 0 ∧ options.duration = 0 then
    .error "packet capture requires a packet or duration limit"
  else
    .ok
      { snapLength := snapLength.toNat, packetLimit := options.packetLimit.toNat,
        duration := options.duration.toNat,
        snapLength_ge := by unfold minimumPacketCaptureSnapLength at *; omega
        snapLength_le := by unfold minimumPacketCaptureSnapLength at *; omega
        packetLimit_le := by omega
        duration_le := by omega
        finite := by omega }

/-- `capturedPacket`. The timestamp is what `UnixNano` makes of it; there is none for the zero
time. -/
structure CapturedPacket where
  timestamp : Option Int64
  data : List UInt8
  originalLength : Int
  deriving DecidableEq

def maxUint32 : Int := 4294967295

def preparePacket (bounds : Bounds) (now : Int64) (packet : CapturedPacket) :
    Except String CapturedPacket :=
  let originalLength : Int :=
    if packet.originalLength = 0 then packet.data.length else packet.originalLength
  if originalLength < packet.data.length ∨ maxUint32 < originalLength then
    .error "captured packet length is invalid"
  else
    .ok
      { timestamp := some (packet.timestamp.getD now), data := packet.data.take bounds.snapLength,
        originalLength }

structure Prepared (bounds : Bounds) (packet : CapturedPacket) : Prop where
  timed : packet.timestamp.isSome = true
  snapped : packet.data.length ≤ bounds.snapLength
  covered : packet.data.length ≤ packet.originalLength
  fits : packet.originalLength ≤ maxUint32

theorem prepared_of_preparePacket {bounds : Bounds} {now : Int64} {packet prepared : CapturedPacket}
    (h : preparePacket bounds now packet = .ok prepared) : Prepared bounds prepared := by
  simp only [preparePacket] at h
  generalize (if packet.originalLength = 0 then (packet.data.length : Int)
    else packet.originalLength) = originalLength at h
  split_ifs at h with hinvalid
  cases h
  refine ⟨rfl, ?_, ?_, ?_⟩
  · rw [List.length_take]
    omega
  · show ((packet.data.take bounds.snapLength).length : Int) ≤ originalLength
    rw [List.length_take]
    omega
  · show originalLength ≤ maxUint32
    omega

end Clabernetes.Capture
