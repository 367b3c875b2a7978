import Clabernetes.Base.Netip
import Clabernetes.Wire.Reassembler

/-!
# Fabric wire engine

`internal/directruntime/wire_linux.go`: the link registry, the peer sessions and the carrier state
machine of one sidecar. Each operation is what one critical section of `fabricWire.mu` does; the
kernel answers it meets are a `Kernel`. Diagnostic output and the counter report are left out.
-/

namespace Clabernetes.Wire

open Base Std

def fabricWireHeartbeatInterval : Int := second

def fabricWireHeartbeatMissLimit : Int := 3

def fabricWireSessionTimeout : Int :=
  fabricWireHeartbeatMissLimit * fabricWireHeartbeatInterval + 500 * millisecond

def fabricWireResolveInterval : Int := 2 * second

def fabricWireFrameHeadroom : Int := 22

def fabricWireCarrierSettleWindow : Int := 500 * millisecond

structure FabricWireLinkSpec where
  linkID : UInt32
  owner : String
  legName : String
  peerTransport : String
  peerAddress : Addr
  mtu : Int
  deriving DecidableEq

structure FabricWireLinkCounters where
  txFrames : UInt64 := 0
  txFragments : UInt64 := 0
  rxFrames : UInt64 := 0
  rxFragments : UInt64 := 0
  dropExpiry : UInt64 := 0
  dropMemoryCap : UInt64 := 0
  dropGeometry : UInt64 := 0
  dropOversize : UInt64 := 0
  dropStaleGeneration : UInt64 := 0
  dropForeignSource : UInt64 := 0
  dropUnresolvedPeer : UInt64 := 0
  dropSendFull : UInt64 := 0
  dropInject : UInt64 := 0
  deriving DecidableEq

def FabricWireLinkCounters.drop (c : FabricWireLinkCounters) :
    FabricWireDropCause → FabricWireLinkCounters
  | .none => c
  | .expiry => { c with dropExpiry := c.dropExpiry + 1 }
  | .memoryCap => { c with dropMemoryCap := c.dropMemoryCap + 1 }
  | .geometry => { c with dropGeometry := c.dropGeometry + 1 }
  | .oversize => { c with dropOversize := c.dropOversize + 1 }

/-- The zero `time.Time` is instant 0, and `stop` names a channel. -/
structure FabricWireLink where
  linkID : UInt32
  owner : String := ""
  legName : String := ""
  legIndex : Int
  packetFD : Int
  peerTransport : String := ""
  peerAddr : Addr := .zero
  mtu : Int := 0
  lastLocalUp : Bool
  remoteOperUp : Bool := false
  forcedDown : Bool := false
  settleUntil : Int
  frameID : UInt32 := 0
  reassembler : WireReassembler := .new
  counters : FabricWireLinkCounters := {}
  resolveInFlight : Bool := false
  lastResolve : Int := 0
  stop : Nat
  deriving DecidableEq

/-- `:125-131`; the `remote` field repeats the key of the session map. -/
structure FabricWireSession where
  generation : UInt64 := 0
  generationKnown : Bool := false
  lastHeard : Int := 0
  up : Bool := false
  deriving DecidableEq

namespace FabricWireSession

/-- The recorded generation is another one. -/
abbrev Differs (session : FabricWireSession) (generation : UInt64) : Prop :=
  session.generationKnown = true ∧ session.generation ≠ generation

/-- A straggler of an earlier process while the holder is live. -/
abbrev Stale (session : FabricWireSession) (now : Int) (generation : UInt64) : Prop :=
  session.Differs generation ∧ generation < session.generation ∧
    now - session.lastHeard ≤ fabricWireSessionTimeout

abbrev TimedOut (session : FabricWireSession) (now : Int) : Prop :=
  session.up = true ∧ now - session.lastHeard > fabricWireSessionTimeout

end FabricWireSession

structure FabricWireConfig where
  localAddress : Addr
  fragmentPayload : Int
  deriving DecidableEq

/-- A started `captureLoop` with the channel that stops it; `:485`. A read error
ends the loop too, which is not modelled. -/
structure CapturePump where
  linkID : UInt32
  legIndex : Int
  packetFD : Int
  stop : Nat
  deriving DecidableEq

/-- With the goroutines and channels the registry owns: the pumps
started so far, the stop channels closed so far and the next channel to be made. -/
structure FabricWire where
  config : FabricWireConfig
  generation : UInt64
  links : GoMap UInt32 FabricWireLink := ∅
  byLeg : GoMap Int UInt32 := ∅
  sessions : GoMap Addr FabricWireSession := ∅
  closed : Bool := false
  pumps : List CapturePump := []
  closedStops : List Nat := []
  nextStop : Nat := 0

/-- What the kernel answers during one operation; `clock` is what `time.Now` reads. -/
structure Kernel where
  clock : Int
  /-- Index and carrier of a leg by name, or the error text. -/
  legByName : String → Except String (Int × Bool)
  /-- The descriptor of `openFabricWireCapture`, or its error text. -/
  openCapture : Int → Except String Int
  legByIndex : Int → Bool
  setDown : Int → Bool
  setUp : Int → Bool
  /-- `fabricWireLegOperUp`; none is an ioctl error. -/
  legOperUp : Int → Option Bool
  inject : Int → Bytes → Bool
  /-- How many datagrams of a batch the socket accepts. -/
  accepts : Nat → Nat
  /-- The visiting order of map loops. -/
  rank : UInt32 → Nat

inductive FabricWireEffect where
  | send (peer : Addr) (datagrams : List Bytes)
  | inject (linkID : UInt32) (packetFD : Int) (frame : Bytes)
  | legDown (legIndex : Int)
  | legUp (legIndex : Int)
  | resolve (linkID : UInt32)
  deriving DecidableEq

inductive FabricWirePanic where
  | closeOfClosedChannel
  | as4
  deriving DecidableEq

inductive EnsureLinkError where
  | incomplete
  | readingLeg (legName cause : String)
  | wireClosed
  | openingCapture (cause : String)
  deriving DecidableEq

structure Outcome where
  wire : FabricWire
  effects : List FabricWireEffect := []
  error : Option EnsureLinkError := none

def newFabricWire (config : FabricWireConfig) (generation : UInt64) : Except String FabricWire :=
  if !config.localAddress.is4 then .error "fabric wire local address must be IPv4"
  else if config.fragmentPayload < 1 then
    .error "fabric wire fragment payload must be positive"
  else .ok { config, generation }

theorem newFabricWire_eq_ok {config : FabricWireConfig} {generation : UInt64} {w : FabricWire}
    (h : newFabricWire config generation = .ok w) : w = { config, generation } := by
  unfold newFabricWire at h
  split at h
  · cases h
  · split at h
    · cases h
    · exact (Except.ok.inj h).symm

theorem is4_of_newFabricWire {config : FabricWireConfig} {generation : UInt64} {w : FabricWire}
    (h : newFabricWire config generation = .ok w) : config.localAddress.is4 = true := by
  unfold newFabricWire at h
  split at h
  · cases h
  · next h4 => simpa using h4

namespace FabricWire

variable (w : FabricWire)

def forLinks (rank : UInt32 → Nat)
    (body : FabricWireLink → FabricWireLink × List FabricWireEffect) :
    FabricWire × List FabricWireEffect :=
  ({ w with links := w.links.map fun _ link => (body link).1 },
    (w.links.iterate rank).flatMap fun e => (body e.2).2)

def updateLink (linkID : UInt32) (f : FabricWireLink → FabricWireLink) : FabricWire :=
  { w with links := w.links.modify linkID f }

def sessionReferencedLocked (remote : Addr) : Bool :=
  w.links.anyEntry fun _ link => link.peerAddr == remote

def remoteUp (sessions : GoMap Addr FabricWireSession) (link : FabricWireLink) : Bool :=
  match sessions[link.peerAddr]? with
  | some session => session.up && link.remoteOperUp
  | none => false

def applyLinkCarrierLocked (k : Kernel) (sessions : GoMap Addr FabricWireSession)
    (link : FabricWireLink) : FabricWireLink × List FabricWireEffect :=
  let desired := link.lastLocalUp && !remoteUp sessions link
  if desired = link.forcedDown then (link, [])
  else
    let link := { link with forcedDown := desired }
    if !k.legByIndex link.legIndex then (link, [])
    else if desired then
      (link, if k.setDown link.legIndex then [.legDown link.legIndex] else [])
    else if k.setUp link.legIndex then
      ({ link with settleUntil := k.clock + fabricWireCarrierSettleWindow }, [.legUp link.legIndex])
    else (link, [])

def applyPeerCarrierLocked (k : Kernel) (source : Addr) : FabricWire × List FabricWireEffect :=
  w.forLinks k.rank fun link =>
    if link.peerAddr = source then applyLinkCarrierLocked k w.sessions link else (link, [])

def advertiseLinkLocked (generation : UInt64) (link : FabricWireLink) : List FabricWireEffect :=
  if !link.peerAddr.isValid then []
  else [.send link.peerAddr
    [encodeFabricWireLinkStates generation [⟨link.linkID, link.lastLocalUp⟩]]]

def observeLegStateLocked (k : Kernel) (sessions : GoMap Addr FabricWireSession)
    (generation : UInt64) (link : FabricWireLink) (operUp : Bool) :
    FabricWireLink × List FabricWireEffect :=
  if link.forcedDown || link.lastLocalUp == operUp then (link, [])
  else if !operUp && decide (k.clock < link.settleUntil) then (link, [])
  else
    let (link, effects) := applyLinkCarrierLocked k sessions { link with lastLocalUp := operUp }
    (link, effects ++ advertiseLinkLocked generation link)

def observeLeg (k : Kernel) (legIndex : Int) (operUp : Bool) : FabricWire × List FabricWireEffect :=
  match w.byLeg[legIndex]? with
  | none => (w, [])
  | some linkID =>
    match w.links[linkID]? with
    | none => (w, [])
    | some link =>
      let (link, effects) := observeLegStateLocked k w.sessions w.generation link operUp
      ({ w with links := w.links.insert linkID link }, effects)

variable (w : FabricWire) (k : Kernel) (sessions : GoMap Addr FabricWireSession)

theorem lookup_forLinks (rank : UInt32 → Nat)
    (body : FabricWireLink → FabricWireLink × List FabricWireEffect) (id : UInt32) :
    (w.forLinks rank body).1.links[id]? = w.links[id]?.map fun link => (body link).1 :=
  ExtTreeMap.getElem?_map

theorem lookup_updateLink (linkID : UInt32) (f : FabricWireLink → FabricWireLink) (id : UInt32) :
    (w.updateLink linkID f).links[id]? =
      if linkID = id then w.links[linkID]?.map f else w.links[id]? :=
  GoMap.lookup_modify w.links linkID id f

theorem sessionReferencedLocked_iff (remote : Addr) : w.sessionReferencedLocked remote = true ↔
      ∃ (id : UInt32) (link : FabricWireLink), w.links[id]? = some link ∧
        link.peerAddr = remote := by
  simp [sessionReferencedLocked, GoMap.anyEntry_iff]

theorem applyLinkCarrierLocked_eq (link : FabricWireLink) :
    ∃ deadline, (applyLinkCarrierLocked k sessions link).1 =
      { link with
        forcedDown := link.lastLocalUp && !remoteUp sessions link
        settleUntil := deadline } := by
  unfold applyLinkCarrierLocked
  dsimp only
  split
  · next h => exact ⟨link.settleUntil, by rw [h]⟩
  · split
    · exact ⟨_, rfl⟩
    · split
      · next h => exact ⟨link.settleUntil, rfl⟩
      · split
        · exact ⟨_, rfl⟩
        · exact ⟨_, rfl⟩

theorem observeLegStateLocked_eq (generation : UInt64) (link : FabricWireLink) (operUp : Bool) :
    (observeLegStateLocked k sessions generation link operUp).1 = link ∨
      ∃ deadline, (observeLegStateLocked k sessions generation link operUp).1 =
        { link with
          lastLocalUp := operUp
          forcedDown := operUp && !remoteUp sessions link
          settleUntil := deadline } := by
  unfold observeLegStateLocked
  split
  · exact .inl rfl
  · split
    · exact .inl rfl
    · exact .inr (applyLinkCarrierLocked_eq k sessions { link with lastLocalUp := operUp })

end FabricWire

end Clabernetes.Wire
