import Clabernetes.Base.Reading
import Clabernetes.Capture.Options

/-!
# The pcapng stream

`internal/directruntime/capture_stream.go:82-170` writes one section header block, one interface
description block per interface and one enhanced packet block per packet. A reader of the format is
given apart from it. A Go string is its bytes.
-/

namespace Clabernetes.Capture

open Base LittleEndian List UInt32

def pcapngSectionHeaderType : UInt32 := 0x0a0d0d0a
def pcapngByteOrderMagic : UInt32 := 0x1a2b3c4d
def pcapngInterfaceType : UInt32 := 0x00000001
def pcapngEnhancedType : UInt32 := 0x00000006
def pcapngOptionEnd : UInt16 := 0
def pcapngOptionUserAppl : UInt16 := 4
def pcapngOptionIfName : UInt16 := 2
def pcapngOptionIfTSResol : UInt16 := 9
def pcapngNanosecondResol : UInt8 := 9

def pcapngUserApplication : List UInt8 := [99, 108, 97, 98, 101, 114, 110, 101, 116, 101, 115]

def packetCaptureLinkTypeEthernet : UInt16 := 1

def pcapngPadding (length : ℕ) : ℕ := (4 - length % 4) % 4

variable (body : List UInt8)

def appendPCAPNGOption (code : UInt16) (value : List UInt8) : List UInt8 :=
  body ++ putUint16LE code ++ putUint16LE (UInt16.ofNat value.length) ++ value ++
    List.replicate (pcapngPadding value.length) 0

def pcapngBlock (blockType : UInt32) (body : List UInt8) : List UInt8 :=
  let total := ofNat (12 + body.length)
  putUint32LE blockType ++ putUint32LE total ++ body ++ putUint32LE total

def sectionBody : List UInt8 :=
  let section' := putUint32LE pcapngByteOrderMagic ++ putUint16LE 1 ++ putUint16LE 0 ++
    putUint64LE 0xffffffffffffffff
  appendPCAPNGOption (appendPCAPNGOption section' pcapngOptionUserAppl pcapngUserApplication)
    pcapngOptionEnd []

def descriptionBody (snapLength : ℕ) (name : List UInt8) : List UInt8 :=
  let description := putUint16LE packetCaptureLinkTypeEthernet ++ putUint16LE 0 ++
    putUint32LE (ofNat snapLength)
  let description := appendPCAPNGOption description pcapngOptionIfName name
  let description := appendPCAPNGOption description pcapngOptionIfTSResol [pcapngNanosecondResol]
  appendPCAPNGOption description pcapngOptionEnd []

variable (interfaces : List (List UInt8))

def writeHeader (snapLength : ℕ) : List UInt8 :=
  pcapngBlock pcapngSectionHeaderType sectionBody ++
    interfaces.flatMap fun name => pcapngBlock pcapngInterfaceType (descriptionBody snapLength name)

def unixNano (timestamp : Option Int64) : Int64 := timestamp.getD (-6795364578871345152)

def packetBody (interfaceIndex : ℕ) (packet : CapturedPacket) : List UInt8 :=
  let timestamp := (unixNano packet.timestamp).toUInt64
  putUint32LE (ofNat interfaceIndex) ++ putUint32LE (timestamp >>> 32).toUInt32 ++
    putUint32LE (timestamp &&& 0xffffffff).toUInt32 ++
    putUint32LE (ofNat packet.data.length) ++
    putUint32LE (ofInt packet.originalLength) ++
    packet.data ++ List.replicate (pcapngPadding packet.data.length) 0

def writePacket (interfaceIndex : ℕ) (packet : CapturedPacket) : Except String (List UInt8) :=
  if unixNano packet.timestamp < 0 then
    .error "packet timestamp is outside the capture format range"
  else .ok (pcapngBlock pcapngEnhancedType (packetBody interfaceIndex packet))

/-- What the output holds when the header and then the packets were written, in that order. A packet
that is refused leaves nothing. -/
def pcapngOutput (snapLength : ℕ) (packets : List (ℕ × CapturedPacket)) : List UInt8 :=
  writeHeader interfaces snapLength ++
    packets.flatMap fun packet => (writePacket packet.1 packet.2).toOption.getD []

structure Interface where
  name : List UInt8
  snapLength : ℕ
  /-- Timestamps count units of ten to the minus this many seconds. -/
  resolution : ℕ
  deriving DecidableEq

structure Packet where
  interfaceIndex : ℕ
  nanoseconds : ℕ
  data : List UInt8
  originalLength : ℕ
  deriving DecidableEq

structure Recording where
  interfaces : List Interface := []
  packets : List Packet := []
  deriving DecidableEq

def readBlock : Reader (UInt32 × List UInt8) := fun bytes => do
  let (blockType, bytes) ← takeUint32 bytes
  let (total, bytes) ← takeUint32 bytes
  guard (12 ≤ total.toNat ∧ total.toNat % 4 = 0)
  let (body, bytes) ← takeBytes (total.toNat - 12) bytes
  let (trailer, bytes) ← takeUint32 bytes
  guard (trailer = total)
  return ((blockType, body), bytes)

def readOption : Reader (UInt16 × List UInt8) := fun bytes => do
  let (code, bytes) ← takeUint16 bytes
  let (length, bytes) ← takeUint16 bytes
  let (value, bytes) ← takeBytes length.toNat bytes
  let (_, bytes) ← takeBytes ((length.toNat + 3) / 4 * 4 - length.toNat) bytes
  return ((code, value), bytes)

def optionValue (code : UInt16) (options : List (UInt16 × List UInt8)) : Option (List UInt8) :=
  (options.takeWhile fun option => option.1 != pcapngOptionEnd).lookup code

def readSection : Option Unit := do
  let (magic, body) ← takeUint32 body
  guard (magic = pcapngByteOrderMagic)
  let (major, body) ← takeUint16 body
  let (minor, body) ← takeUint16 body
  guard (major = 1 ∧ minor = 0)
  let (_, body) ← takeUint64 body
  let _ ← readAll readOption body.length body

def readInterface : Option Interface := do
  let (linkType, body) ← takeUint16 body
  guard (linkType = packetCaptureLinkTypeEthernet)
  let (_, body) ← takeUint16 body
  let (snapLength, body) ← takeUint32 body
  let options ← readAll readOption body.length body
  let name ← optionValue pcapngOptionIfName options
  let resolution := match optionValue pcapngOptionIfTSResol options with
    | some [resolution] => resolution.toNat
    | _ => 6
  return { name, snapLength := snapLength.toNat, resolution }

def readPacket (interfaces : List Interface) (body : List UInt8) : Option Packet := do
  let (index, body) ← takeUint32 body
  let (high, body) ← takeUint32 body
  let (low, body) ← takeUint32 body
  let (captured, body) ← takeUint32 body
  let (original, body) ← takeUint32 body
  let (data, _) ← takeBytes captured.toNat body
  let interface ← interfaces[index.toNat]?
  guard (interface.resolution ≤ 9)
  let units := high.toNat * 2 ^ 32 + low.toNat
  return { interfaceIndex := index.toNat, nanoseconds := units * 10 ^ (9 - interface.resolution),
           data, originalLength := original.toNat }

def readInto (recording : Recording) (block : UInt32 × List UInt8) : Option Recording :=
  if block.1 = pcapngInterfaceType then
    (readInterface block.2).map fun interface =>
      { recording with interfaces := recording.interfaces ++ [interface] }
  else if block.1 = pcapngEnhancedType then
    (readPacket recording.interfaces block.2).map fun packet =>
      { recording with packets := recording.packets ++ [packet] }
  else some recording

def readCapture (bytes : List UInt8) : Option Recording := do
  match ← readAll readBlock bytes.length bytes with
  | [] => none
  | (blockType, body) :: blocks =>
    guard (blockType = pcapngSectionHeaderType)
    readSection body
    blocks.foldlM readInto {}

theorem padding_aligns (length : ℕ) : (length + pcapngPadding length) % 4 = 0 := by
  unfold pcapngPadding
  omega

theorem appendPCAPNGOption_eq (code : UInt16) (value : List UInt8) :
    appendPCAPNGOption body code value = body ++ appendPCAPNGOption [] code value := by
  simp [appendPCAPNGOption]

theorem readOption_append {code : UInt16} {value : List UInt8} (h : value.length < 2 ^ 16)
    (rest : List UInt8) :
    readOption (appendPCAPNGOption [] code value ++ rest) = some ((code, value), rest) := by
  have hlength : (UInt16.ofNat value.length).toNat = value.length := UInt16.toNat_ofNat_of_lt' h
  have hpadding : (value.length + 3) / 4 * 4 - value.length = pcapngPadding value.length := by
    unfold pcapngPadding
    omega
  simp [appendPCAPNGOption, readOption, takeUint16_putUint16LE, hlength, hpadding, takeBytes_append]

variable {blockType : UInt32} {body : List UInt8} {snapLength : ℕ}

theorem readBlock_append (haligned : body.length % 4 = 0) (hlength : 12 + body.length < 2 ^ 32)
    (rest : List UInt8) :
    readBlock (pcapngBlock blockType body ++ rest) = some ((blockType, body), rest) := by
  have htotal : (ofNat (12 + body.length)).toNat = 12 + body.length :=
    toNat_ofNat_of_lt' hlength
  have hframe : 12 ≤ 12 + body.length ∧ (12 + body.length) % 4 = 0 := by omega
  have hbody : body.length = 12 + body.length - 12 := by omega
  simp only [pcapngBlock, append_assoc, readBlock, takeUint32_putUint32LE, htotal,
    Option.bind_eq_bind, Option.bind_some, hframe, takeBytes_append hbody, guard, if_true,
    Option.pure_def]
  simp

theorem length_appendPCAPNGOption (code : UInt16) (value : List UInt8) :
    (appendPCAPNGOption body code value).length =
      body.length + 4 + (value.length + pcapngPadding value.length) := by
  simp only [appendPCAPNGOption, length_append, length_putUint16LE, length_replicate]
  omega

def optionsBytes (options : List (UInt16 × List UInt8)) : List UInt8 :=
  options.flatMap fun option => appendPCAPNGOption [] option.1 option.2

theorem readAll_optionsBytes {options : List (UInt16 × List UInt8)}
    (h : ∀ option ∈ options, option.2.length < 2 ^ 16) :
    readAll readOption (optionsBytes options).length (optionsBytes options) = some options := by
  have hread : readAll readOption (optionsBytes options).length (optionsBytes options) =
      some (options.map id) := by
    refine readAll_flatMap fun option hoption => ⟨?_, readOption_append (h option hoption)⟩
    rw [← length_pos_iff, length_appendPCAPNGOption]
    omega
  rwa [List.map_id] at hread

theorem readSection_sectionBody : readSection sectionBody = some () := by decide +kernel

theorem descriptionBody_eq (snapLength : ℕ) (name : List UInt8) : descriptionBody snapLength name =
      putUint16LE packetCaptureLinkTypeEthernet ++ (putUint16LE 0 ++
        (putUint32LE (ofNat snapLength) ++
          optionsBytes [(pcapngOptionIfName, name),
            (pcapngOptionIfTSResol, [pcapngNanosecondResol]), (pcapngOptionEnd, [])])) := by
  simp only [descriptionBody, optionsBytes, flatMap_cons, flatMap_nil, append_nil]
  rw [appendPCAPNGOption_eq _ pcapngOptionEnd, appendPCAPNGOption_eq _ pcapngOptionIfTSResol,
    appendPCAPNGOption_eq _ pcapngOptionIfName]
  simp

theorem length_descriptionBody (snapLength : ℕ) (name : List UInt8) :
    (descriptionBody snapLength name).length = 24 + (name.length + pcapngPadding name.length) := by
  have hone : pcapngPadding 1 = 3 := rfl
  have hzero : pcapngPadding 0 = 0 := rfl
  simp only [descriptionBody, length_appendPCAPNGOption, length_append, length_putUint16LE,
    length_putUint32LE, length_singleton, length_nil]
  omega

theorem readInterface_descriptionBody {name : List UInt8} (h : name.length < 2 ^ 16)
    (snapLength : ℕ) : readInterface (descriptionBody snapLength name) =
      some { name, snapLength := snapLength % 2 ^ 32, resolution := 9 } := by
  have hoptions : ∀ option ∈ [(pcapngOptionIfName, name),
      (pcapngOptionIfTSResol, [pcapngNanosecondResol]), (pcapngOptionEnd, [])],
      option.2.length < 2 ^ 16 := by
    simpa using h
  have hsnap : (ofNat snapLength).toNat = snapLength % 2 ^ 32 := toNat_ofNat'
  rw [descriptionBody_eq]
  simp only [readInterface, takeUint16_putUint16LE, takeUint32_putUint32LE, Option.bind_eq_bind,
    Option.bind_some, readAll_optionsBytes hoptions, guard, if_true, hsnap, Option.pure_def]
  rfl

theorem length_packetBody (index : ℕ) (packet : CapturedPacket) : (packetBody index packet).length =
      20 + (packet.data.length + pcapngPadding packet.data.length) := by
  simp only [packetBody, length_append, length_putUint32LE, length_replicate]
  omega

theorem timestamp_halves (timestamp : UInt64) :
    (timestamp >>> 32).toUInt32.toNat * 2 ^ 32 + (timestamp &&& 0xffffffff).toUInt32.toNat =
      timestamp.toNat := by
  have hlt := timestamp.toNat_lt
  have hmask : (0xffffffff : UInt64).toNat = 2 ^ 32 - 1 := rfl
  have hshift : (32 : UInt64).toNat % 64 = 32 := rfl
  rw [UInt64.toNat_toUInt32, UInt64.toNat_toUInt32, UInt64.toNat_shiftRight, UInt64.toNat_and,
    hmask, Nat.and_two_pow_sub_one_eq_mod, hshift, Nat.shiftRight_eq_div_pow]
  omega

theorem readPacket_packetBody {index : ℕ} {packet : CapturedPacket} {interfaces : List Interface}
    {interface : Interface} (hinterface : interfaces[index % 2 ^ 32]? = some interface)
    (hresolution : interface.resolution = 9) (hdata : packet.data.length < 2 ^ 32)
    (horiginal : 0 ≤ packet.originalLength ∧ packet.originalLength < 2 ^ 32)
    (htimestamp : 0 ≤ unixNano packet.timestamp) : readPacket interfaces (packetBody index packet) =
      some { interfaceIndex := index % 2 ^ 32,
             nanoseconds := (unixNano packet.timestamp).toInt.toNat, data := packet.data,
             originalLength := packet.originalLength.toNat } := by
  have hindex : (ofNat index).toNat = index % 2 ^ 32 := toNat_ofNat'
  have hcaptured : (ofNat packet.data.length).toNat = packet.data.length :=
    toNat_ofNat_of_lt' hdata
  have hlength : (ofInt packet.originalLength).toNat = packet.originalLength.toNat := by
    rw [ofInt, Int.emod_eq_of_lt horiginal.1 horiginal.2]
    exact toNat_ofNat_of_lt' (by show _ < 2 ^ 32; omega)
  have hnanoseconds : (unixNano packet.timestamp).toUInt64.toNat =
      (unixNano packet.timestamp).toInt.toNat := Int64.toNat_toUInt64_of_le htimestamp
  simp only [packetBody, append_assoc, readPacket, takeUint32_putUint32LE, Option.bind_eq_bind,
    Option.bind_some, hcaptured, takeBytes_append, hindex, hinterface, hresolution, guard,
    Nat.le_refl, if_true, Option.pure_def, timestamp_halves, hnanoseconds, hlength, Nat.sub_self,
    Nat.pow_zero, Nat.mul_one]

def accepted (packet : ℕ × CapturedPacket) : Bool := 0 ≤ unixNano packet.2.timestamp

def pcapngBlocks (snapLength : ℕ)
    (packets : List (ℕ × CapturedPacket)) : List (UInt32 × List UInt8) :=
  (pcapngSectionHeaderType, sectionBody) ::
    (interfaces.map (fun name => (pcapngInterfaceType, descriptionBody snapLength name)) ++
      (packets.filter accepted).map fun packet =>
        (pcapngEnhancedType, packetBody packet.1 packet.2))

theorem pcapngOutput_eq (snapLength : ℕ)
    (packets : List (ℕ × CapturedPacket)) : pcapngOutput interfaces snapLength packets =
      (pcapngBlocks interfaces snapLength packets).flatMap fun block =>
        pcapngBlock block.1 block.2 := by
  have hpackets : (packets.flatMap fun packet => (writePacket packet.1 packet.2).toOption.getD []) =
      (packets.filter accepted).flatMap fun packet =>
        pcapngBlock pcapngEnhancedType (packetBody packet.1 packet.2) := by
    induction packets with
    | nil => rfl
    | cons packet packets ih =>
      by_cases haccepted : accepted packet = true
      · have hwritten : ¬unixNano packet.2.timestamp < 0 := by
          simpa [accepted] using haccepted
        rw [flatMap_cons, ih, filter_cons_of_pos haccepted, flatMap_cons,
          writePacket, if_neg hwritten]
        rfl
      · have hrefused : unixNano packet.2.timestamp < 0 := by
          simpa [accepted] using haccepted
        rw [flatMap_cons, ih, filter_cons_of_neg haccepted, writePacket, if_pos hrefused]
        rfl
  rw [pcapngOutput, writeHeader, hpackets, pcapngBlocks, flatMap_cons, flatMap_append,
    flatMap_map, flatMap_map, append_assoc]

variable {packets : List (ℕ × CapturedPacket)} {interfaces : List (List UInt8)} {bounds : Bounds}

theorem pcapngBlocks_fit (hnames : ∀ name ∈ interfaces, name.length < 2 ^ 16)
    (hprepared : ∀ packet ∈ packets, Prepared bounds packet.2) :
    ∀ block ∈ pcapngBlocks interfaces snapLength packets,
      block.2.length % 4 = 0 ∧ 12 + block.2.length < 2 ^ 32 := by
  intro block hblock
  rw [pcapngBlocks, mem_cons, mem_append, List.mem_map, List.mem_map] at hblock
  have hpadding : ∀ length, pcapngPadding length < 4 := by
    intro length
    unfold pcapngPadding
    omega
  rcases hblock with rfl | ⟨name, hname, rfl⟩ | ⟨packet, hpacket, rfl⟩
  · decide +kernel
  · have := hnames name hname
    have := padding_aligns name.length
    have := hpadding name.length
    rw [length_descriptionBody]
    omega
  · have hsnapped := (hprepared packet (mem_filter.mp hpacket).1).snapped
    have hsnap := bounds.snapLength_le
    have := padding_aligns packet.2.data.length
    have := hpadding packet.2.data.length
    rw [maximumPacketCaptureSnapLength] at hsnap
    rw [length_packetBody]
    omega

def recorded (packet : ℕ × CapturedPacket) : Packet where
  interfaceIndex := packet.1 % 2 ^ 32
  nanoseconds := (unixNano packet.2.timestamp).toInt.toNat
  data := packet.2.data
  originalLength := packet.2.originalLength.toNat

def described (snapLength : ℕ) (name : List UInt8) : Interface where
  name := name
  snapLength := snapLength % 2 ^ 32
  resolution := 9

theorem foldlM_descriptions {recording : Recording}
    (hnames : ∀ name ∈ interfaces, name.length < 2 ^ 16) :
    (interfaces.map fun name => (pcapngInterfaceType, descriptionBody snapLength name)).foldlM
        readInto recording =
      some { recording with
        interfaces := recording.interfaces ++ interfaces.map (described snapLength) } := by
  induction interfaces generalizing recording with
  | nil => simp
  | cons name interfaces ih =>
    have hread : readInterface (descriptionBody snapLength name) =
        some (described snapLength name) :=
      readInterface_descriptionBody (hnames name mem_cons_self) snapLength
    have hrest := fun other hother => hnames other (mem_cons_of_mem _ hother)
    simp only [map_cons, foldlM_cons, readInto, if_true, hread, Option.map_some,
      Option.bind_eq_bind, Option.bind_some]
    rw [ih hrest]
    simp

theorem foldlM_packets {interfaces : List Interface} {before : List Packet}
    (hinterfaces : ∀ packet ∈ packets, ∃ interface,
      interfaces[packet.1 % 2 ^ 32]? = some interface ∧ interface.resolution = 9)
    (hprepared : ∀ packet ∈ packets, Prepared bounds packet.2)
    (haccepted : ∀ packet ∈ packets, accepted packet = true) :
    (packets.map fun packet => (pcapngEnhancedType, packetBody packet.1 packet.2)).foldlM
        readInto { interfaces, packets := before } =
      some { interfaces, packets := before ++ packets.map recorded } := by
  induction packets generalizing before with
  | nil => simp
  | cons packet packets ih =>
    obtain ⟨interface, hinterface, hresolution⟩ := hinterfaces packet mem_cons_self
    have hpacket := hprepared packet mem_cons_self
    have hsnap := bounds.snapLength_le
    have hsnapped := hpacket.snapped
    have hcovered := hpacket.covered
    have hfits := hpacket.fits
    rw [maximumPacketCaptureSnapLength] at hsnap
    rw [maxUint32] at hfits
    have hdata : packet.2.data.length < 2 ^ 32 := by omega
    have horiginal : 0 ≤ packet.2.originalLength ∧ packet.2.originalLength < 2 ^ 32 := by omega
    have hread : readPacket interfaces (packetBody packet.1 packet.2) =
        some (recorded packet) := readPacket_packetBody hinterface hresolution hdata horiginal
      (by simpa [accepted] using haccepted packet mem_cons_self)
    have hother : pcapngEnhancedType ≠ pcapngInterfaceType := by decide
    simp only [map_cons, foldlM_cons, readInto, if_neg hother, if_true, hread,
      Option.map_some, Option.bind_eq_bind, Option.bind_some]
    rw [ih (fun other hmem => hinterfaces other (mem_cons_of_mem _ hmem))
      (fun other hmem => hprepared other (mem_cons_of_mem _ hmem))
      fun other hmem => haccepted other (mem_cons_of_mem _ hmem)]
    simp

theorem readCapture_pcapngOutput (hnames : ∀ name ∈ interfaces, name.length < 2 ^ 16)
    (hindices : ∀ packet ∈ packets, packet.1 < interfaces.length)
    (hprepared : ∀ packet ∈ packets, Prepared bounds packet.2) :
    readCapture (pcapngOutput interfaces bounds.snapLength packets) = some
      { interfaces := interfaces.map (described bounds.snapLength),
        packets := (packets.filter accepted).map recorded } := by
  have hblocks : readAll readBlock (pcapngOutput interfaces bounds.snapLength packets).length
      (pcapngOutput interfaces bounds.snapLength packets) =
      some (pcapngBlocks interfaces bounds.snapLength packets) := by
    rw [pcapngOutput_eq]
    refine (readAll_flatMap fun block hblock => ?_).trans (congrArg some (List.map_id _))
    obtain ⟨haligned, hlength⟩ := pcapngBlocks_fit hnames hprepared block hblock
    refine ⟨?_, readBlock_append haligned hlength⟩
    rw [← length_pos_iff, pcapngBlock]
    simp
  have hinterfaces : ∀ packet ∈ packets.filter accepted, ∃ interface,
      (interfaces.map (described bounds.snapLength))[packet.1 % 2 ^ 32]? = some interface ∧
        interface.resolution = 9 := by
    intro packet hpacket
    have hindex := hindices packet (mem_filter.mp hpacket).1
    have hlt : packet.1 % 2 ^ 32 < interfaces.length := (Nat.mod_le _ _).trans_lt hindex
    rw [getElem?_map, getElem?_eq_getElem hlt]
    exact ⟨_, rfl, rfl⟩
  have hfold : (interfaces.map (fun name =>
        (pcapngInterfaceType, descriptionBody bounds.snapLength name)) ++
      (packets.filter accepted).map fun packet =>
        (pcapngEnhancedType, packetBody packet.1 packet.2)).foldlM readInto {} = some
      { interfaces := interfaces.map (described bounds.snapLength),
        packets := (packets.filter accepted).map recorded } := by
    rw [foldlM_append, foldlM_descriptions hnames]
    exact foldlM_packets hinterfaces
      (fun packet hpacket => hprepared packet (mem_filter.mp hpacket).1)
      fun packet hpacket => (mem_filter.mp hpacket).2
  rw [readCapture, hblocks]
  simp [pcapngBlocks, readSection_sectionBody, hfold]

/-- A block: aligned, with its length in front and behind. -/
def WellFramed (block : List UInt8) : Prop :=
  block.length % 4 = 0 ∧ 12 ≤ block.length ∧
    natLE ((block.drop 4).take 4) = block.length ∧
    natLE (block.drop (block.length - 4)) = block.length

theorem wellFramed_pcapngBlock (haligned : body.length % 4 = 0)
    (hlength : 12 + body.length < 2 ^ 32) : WellFramed (pcapngBlock blockType body) := by
  have htotal : (pcapngBlock blockType body).length = 12 + body.length := by
    simp only [pcapngBlock, length_append, length_putUint32LE]
    omega
  have hfield : natLE (putUint32LE (ofNat (12 + body.length))) = 12 + body.length := by
    rw [putUint32LE, natLE_bytesLE, toNat_ofNat_of_lt' hlength]
    exact Nat.mod_eq_of_lt hlength
  refine ⟨by omega, by omega, ?_, ?_⟩
  · rw [htotal, pcapngBlock, append_assoc, append_assoc,
      drop_append_of_le_length (by simp), drop_of_length_le (by simp), nil_append,
      take_append_of_le_length (by simp), take_of_length_le (by simp), hfield]
  · rw [htotal, pcapngBlock, drop_left' (by simp; omega), hfield]

/-- The stream of a capture of at most as many interfaces as the format can number. -/
theorem pcapng_lossless {bounds : Bounds} {interfaces : List (List UInt8)}
    (hnames : ∀ name ∈ interfaces, name.length < 2 ^ 16) (hcount : interfaces.length ≤ 2 ^ 32)
    {packets : List (ℕ × CapturedPacket)}
    (hindices : ∀ packet ∈ packets, packet.1 < interfaces.length)
    (hprepared : ∀ packet ∈ packets, ∃ now given, preparePacket bounds now given = .ok packet.2) :
    (∃ blocks : List (List UInt8),
        pcapngOutput interfaces bounds.snapLength packets = blocks.flatten ∧
          ∀ block ∈ blocks, WellFramed block) ∧
      ∃ recording, readCapture (pcapngOutput interfaces bounds.snapLength packets) =
          some recording ∧
        recording.interfaces.map Interface.name = interfaces ∧
        (∀ interface ∈ recording.interfaces, interface.snapLength = bounds.snapLength) ∧
        recording.packets = (packets.filter accepted).map fun packet =>
          { interfaceIndex := packet.1,
            nanoseconds := (unixNano packet.2.timestamp).toInt.toNat, data := packet.2.data,
            originalLength := packet.2.originalLength.toNat } := by
  have hprepared : ∀ packet ∈ packets, Prepared bounds packet.2 := by
    intro packet hpacket
    obtain ⟨now, given, hgiven⟩ := hprepared packet hpacket
    exact prepared_of_preparePacket hgiven
  constructor
  · refine ⟨(pcapngBlocks interfaces bounds.snapLength packets).map fun block =>
      pcapngBlock block.1 block.2, ?_, ?_⟩
    · rw [pcapngOutput_eq, flatMap_def]
    · intro bytes hbytes
      obtain ⟨block, hblock, rfl⟩ := List.mem_map.mp hbytes
      obtain ⟨haligned, hlength⟩ := pcapngBlocks_fit hnames hprepared block hblock
      exact wellFramed_pcapngBlock haligned hlength
  · refine ⟨_, readCapture_pcapngOutput hnames hindices hprepared, ?_, ?_, ?_⟩
    · rw [List.map_map]
      exact List.map_id' interfaces
    · intro interface hinterface
      obtain ⟨name, -, rfl⟩ := List.mem_map.mp hinterface
      have hsnap := bounds.snapLength_le
      rw [maximumPacketCaptureSnapLength] at hsnap
      exact Nat.mod_eq_of_lt (by omega)
    · refine map_congr_left fun packet hpacket => ?_
      have hindex := hindices packet (mem_filter.mp hpacket).1
      rw [recorded, Nat.mod_eq_of_lt (by omega)]

def leastBounds : Bounds := ⟨64, 1, 0, by decide, by decide, by decide, by decide, .inl (by decide)⟩

def ping : CapturedPacket := { timestamp := some 7, data := [1, 2, 3, 4, 5], originalLength := 9 }

theorem prepare_ping : preparePacket leastBounds 0 ping = .ok ping := by decide +kernel

/-- Two interfaces, and a packet on the second. -/
theorem ping_lossless :
    ∃ recording, readCapture (pcapngOutput [[101], [101, 50]] leastBounds.snapLength [(1, ping)]) =
        some recording ∧
      recording.packets = [⟨1, 7, [1, 2, 3, 4, 5], 9⟩] := by
  have hprepared : ∀ packet ∈ [(1, ping)], ∃ now given,
      preparePacket leastBounds now given = .ok packet.2 := by
    intro packet hpacket
    rw [mem_singleton.mp hpacket]
    exact ⟨0, ping, prepare_ping⟩
  obtain ⟨recording, hread, -, -, hpackets⟩ :=
    (@pcapng_lossless leastBounds [[101], [101, 50]] (by decide) (by decide) [(1, ping)] (by decide)
      hprepared).2
  refine ⟨recording, hread, hpackets.trans ?_⟩
  decide +kernel

def tooMany : List (List UInt8) := List.replicate (2 ^ 32 + 1) []

/-- A packet on the last one of them comes back on the first; one that was not prepared comes back
with another length, and one before the epoch not at all. -/
theorem last_of_tooMany : (∀ name ∈ tooMany, name.length < 2 ^ 16) ∧ 2 ^ 32 < tooMany.length ∧
    preparePacket leastBounds 0 ping = .ok ping ∧
    (∃ recording, readCapture
        (pcapngOutput tooMany leastBounds.snapLength [(2 ^ 32, ping)]) = some recording ∧
      recording.packets = [⟨0, 7, [1, 2, 3, 4, 5], 9⟩]) ∧
    (readCapture (pcapngOutput [[101]] leastBounds.snapLength
      [(0, { ping with originalLength := 2 ^ 32 + 9 }), (0, { ping with timestamp := some (-1) })])
      ).map Recording.packets = some [⟨0, 7, [1, 2, 3, 4, 5], 9⟩] := by
  have hnames : ∀ name ∈ tooMany, name.length < 2 ^ 16 := by
    intro name hname
    rw [(mem_replicate.mp hname).2]
    decide
  have hlength : tooMany.length = 2 ^ 32 + 1 := length_replicate
  have hindex : 2 ^ 32 < tooMany.length := by
    rw [hlength]
    exact Nat.lt_succ_self _
  have hread := @readCapture_pcapngOutput [(2 ^ 32, ping)] tooMany leastBounds hnames
    (fun packet hpacket => by rw [mem_singleton.mp hpacket]; exact hindex)
    fun packet hpacket => by
      rw [mem_singleton.mp hpacket]
      exact prepared_of_preparePacket prepare_ping
  exact ⟨hnames, hindex, prepare_ping, ⟨_, hread, by decide +kernel⟩, by decide +kernel⟩

end Clabernetes.Capture
