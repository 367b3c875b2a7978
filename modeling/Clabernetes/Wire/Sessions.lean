import Clabernetes.Wire.Engine

/-!
# Peer sessions, datagrams and the tick

`internal/directruntime/wire_linux.go:540-811` and `:976-1132`: what a received datagram, the
periodic tick, a re-resolved peer address and a captured frame do to the links and sessions of one
sidecar.
-/

namespace Clabernetes.Wire

open Base Std Option

namespace FabricWire

variable (w : FabricWire)

/-- The session a datagram meets: the recorded one, or a new one when a link is homed on the
source; `:763-771`. -/
def sessionFor (source : Addr) : Option FabricWireSession :=
  match w.sessions[source]? with
  | some session => some session
  | none => if w.sessionReferencedLocked source then some {} else none

def resetLink (link : FabricWireLink) : FabricWireLink :=
  { link with reassembler := .new, remoteOperUp := false }

def resetPeerLinksLocked (source : Addr) : FabricWire :=
  { w with
    links := w.links.map fun _ link => if link.peerAddr = source then resetLink link else link }

def heardSession (now : Int) (generation : UInt64) : FabricWireSession :=
  { generation, generationKnown := true, lastHeard := now, up := true }

/-- None when the datagram belongs to a stale generation. -/
def refreshSessionLocked (now : Int) (source : Addr) (generation : UInt64) : Option FabricWire :=
  match w.sessionFor source with
  | none => none
  | some session =>
    if session.Stale now generation then none
    else
      let w := if session.Differs generation then w.resetPeerLinksLocked source else w
      some { w with sessions := w.sessions.insert source (heardSession now generation) }

def absorbFragment (k : Kernel) (now : Int) (fragment : FabricWireFragment)
    (link : FabricWireLink) : FabricWireLink × List FabricWireEffect :=
  let result := link.reassembler.absorb k.rank now fragment
  let counters := { link.counters with rxFragments := link.counters.rxFragments + 1 }
  let counters := result.drops.foldl FabricWireLinkCounters.drop counters
  let link := { link with reassembler := result.reassembler, counters }
  match result.frame with
  | none => (link, [])
  | some frame =>
    if (frame.length : Int) > link.mtu + fabricWireFrameHeadroom then
      ({ link with counters := { counters with dropOversize := counters.dropOversize + 1 } }, [])
    else
      let counters := { counters with rxFrames := counters.rxFrames + 1 }
      let counters :=
        if k.inject link.packetFD frame then counters
        else { counters with dropInject := counters.dropInject + 1 }
      ({ link with counters }, [.inject fragment.header.linkID link.packetFD frame])

def handleData (k : Kernel) (now : Int) (source : Addr)
    (generation : UInt64) (fragment : FabricWireFragment) : FabricWire × List FabricWireEffect :=
  let linkID := fragment.header.linkID
  match w.links[linkID]? with
  | none => (w, [])
  | some link =>
    if link.peerAddr ≠ source then
      (w.updateLink linkID fun link =>
        { link with counters :=
          { link.counters with dropForeignSource := link.counters.dropForeignSource + 1 } }, [])
    else match w.refreshSessionLocked now source generation with
    | none =>
      (w.updateLink linkID fun link =>
        { link with counters :=
          { link.counters with
            dropStaleGeneration := link.counters.dropStaleGeneration + 1 } }, [])
    | some w =>
      let (w, carrier) := w.applyPeerCarrierLocked k source
      match w.links[linkID]? with
      | none => (w, carrier)
      | some link =>
        let (link, injected) := absorbFragment k now fragment link
        ({ w with links := w.links.insert linkID link }, carrier ++ injected)

def recordLinkState (source : Addr) (w : FabricWire) (state : FabricWireLinkState) : FabricWire :=
  w.updateLink state.linkID fun link =>
    if link.peerAddr = source then { link with remoteOperUp := state.operUp } else link

def handleLinkStates (k : Kernel) (now : Int) (source : Addr)
    (generation : UInt64) (states : List FabricWireLinkState) :
    FabricWire × List FabricWireEffect :=
  match w.refreshSessionLocked now source generation with
  | none => (w, [])
  | some w => (states.foldl (recordLinkState source) w).applyPeerCarrierLocked k source

def handleHeartbeat (k : Kernel) (now : Int) (source : Addr)
    (generation : UInt64) : FabricWire × List FabricWireEffect :=
  match w.refreshSessionLocked now source generation with
  | none => (w, [])
  | some w => w.applyPeerCarrierLocked k source

def handleDatagram (k : Kernel) (now : Int) (source : Addr)
    (datagram : Bytes) : FabricWire × List FabricWireEffect :=
  match parseFabricWireHeader datagram with
  | .error _ => (w, [])
  | .ok (header, body) =>
    if header.msgType = fabricWireMsgData then
      match parseFabricWireDataHeader body with
      | .error _ => (w, [])
      | .ok fragment => w.handleData k now source header.generation fragment
    else if header.msgType = fabricWireMsgLinkState then
      match parseFabricWireLinkStates body with
      | .error _ => (w, [])
      | .ok states => w.handleLinkStates k now source header.generation states
    else if header.msgType = fabricWireMsgHeartbeat then
      w.handleHeartbeat k now source header.generation
    else (w, [])

def sampleLegs (k : Kernel) : FabricWire × List FabricWireEffect :=
  w.forLinks k.rank fun link =>
    if link.forcedDown then (link, [])
    else match k.legOperUp link.legIndex with
    | none => (link, [])
    | some operUp => observeLegStateLocked k w.sessions w.generation link operUp

def expireSession (now : Int) (session : FabricWireSession) : FabricWireSession :=
  if session.TimedOut now then { session with up := false, generationKnown := false }
  else session

/-- The session expiry loop; `:1004-1011`. A link is re-evaluated when the
session it is homed on times out, and then reads no other session. -/
def expireSessions (k : Kernel) (now : Int) : FabricWire × List FabricWireEffect :=
  let sessions := w.sessions.map fun _ session => expireSession now session
  { w with sessions }.forLinks k.rank fun link =>
    match w.sessions[link.peerAddr]? with
    | none => (link, [])
    | some session =>
      if session.TimedOut now then applyLinkCarrierLocked k sessions link else (link, [])

/-- The link has no live session; `:1020-1021` and `:1037-1039`. -/
def unheard (sessions : GoMap Addr FabricWireSession) (link : FabricWireLink) : Bool :=
  !link.peerAddr.isValid ||
    match sessions[link.peerAddr]? with
    | none => true
    | some session => !session.up

def maintainLink (sessions : GoMap Addr FabricWireSession) (now : Int)
    (link : FabricWireLink) : FabricWireLink × List FabricWireEffect :=
  let drops := link.reassembler.expireDrops now
  let link := { link with
    reassembler := link.reassembler.expire now
    counters := drops.foldl FabricWireLinkCounters.drop link.counters }
  if unheard sessions link && link.peerTransport != "" && !link.resolveInFlight &&
      decide (now - link.lastResolve ≥ fabricWireResolveInterval) then
    ({ link with resolveInFlight := true, lastResolve := now }, [.resolve link.linkID])
  else (link, [])

def peerStates (k : Kernel) (peer : Addr) : List FabricWireLinkState :=
  ((w.links.iterate k.rank).filter fun e => e.2.peerAddr == peer).map fun e =>
    ⟨e.2.linkID, e.2.lastLocalUp⟩

def advertisements (k : Kernel) : List FabricWireEffect :=
  (((w.links.iterate k.rank).map fun e => e.2.peerAddr).filter Addr.isValid).dedup.map
    fun peer => .send peer
      [encodeFabricWireHeartbeat w.generation,
        encodeFabricWireLinkStates w.generation (w.peerStates k peer)]

def tick (k : Kernel) (now : Int) : FabricWire × List FabricWireEffect :=
  let (w, sampled) := w.sampleLegs k
  let (w, expired) := w.expireSessions k now
  let (w, resolves) := w.forLinks k.rank (maintainLink w.sessions now)
  (w, sampled ++ expired ++ w.advertisements k ++ resolves)

def adoptPeerAddress (k : Kernel) (linkID : UInt32) (address : Addr) :
    FabricWire × List FabricWireEffect :=
  match w.links[linkID]? with
  | none => (w, [])
  | some link =>
    if !address.isValid || link.peerAddr == address then (w, [])
    else
      let (link, effects) := applyLinkCarrierLocked k w.sessions
        { link with peerAddr := address, remoteOperUp := false }
      ({ w with links := w.links.insert linkID link }, effects)

def resolveDone (linkID : UInt32) : FabricWire :=
  w.updateLink linkID fun link => { link with resolveInFlight := false }

def transmitFrame (k : Kernel) (linkID : UInt32) (frame : Bytes) :
    FabricWire × List FabricWireEffect :=
  match w.links[linkID]? with
  | none => (w, [])
  | some link =>
    if !link.peerAddr.isValid then
      ({ w with links := w.links.insert linkID { link with counters :=
        { link.counters with
          dropUnresolvedPeer := link.counters.dropUnresolvedPeer + 1 } } }, [])
    else
      let link := { link with frameID := link.frameID + 1 }
      match splitFabricWireFrame frame w.config.fragmentPayload with
      | .error _ =>
        ({ w with links := w.links.insert linkID { link with counters :=
          { link.counters with dropOversize := link.counters.dropOversize + 1 } } }, [])
      | .ok fragments =>
        let datagrams := transmitDatagrams w.generation link.linkID link.frameID frame fragments
        let sent := min (k.accepts datagrams.length) datagrams.length
        let counters := { link.counters with
          txFragments := link.counters.txFragments + UInt64.ofNat sent }
        let counters :=
          if sent < datagrams.length then
            { counters with dropSendFull := counters.dropSendFull + 1 }
          else { counters with txFrames := counters.txFrames + 1 }
        ({ w with links := w.links.insert linkID { link with counters } },
          [.send link.peerAddr datagrams])

variable (w : FabricWire) (k : Kernel) (now : Int) (source : Addr) (generation : UInt64)
  (session : FabricWireSession)

def refreshedLink (link : FabricWireLink) : FabricWireLink :=
  if session.Differs generation then
    if link.peerAddr = source then resetLink link else link
  else link

def settledLink (sessions : GoMap Addr FabricWireSession) (link : FabricWireLink) :
    FabricWireLink :=
  if link.peerAddr = source then (applyLinkCarrierLocked k sessions link).1 else link

variable (states : List FabricWireLinkState)

def advertisedUp (id : UInt32) (operUp : Bool) : Bool :=
  states.foldl (fun up state => if state.linkID = id then state.operUp else up) operUp

def recordedLink (id : UInt32) (link : FabricWireLink) : FabricWireLink :=
  if link.peerAddr = source then
    { link with remoteOperUp := advertisedUp states id link.remoteOperUp }
  else link

/-- The datagram is accepted: its session exists or can be made and does not hold it stale. -/
def Accepts : Prop :=
  w.sessionFor source = some session ∧ ¬ session.Stale now generation

theorem refreshSessionLocked_cases : w.refreshSessionLocked now source generation = none ∨
      ∃ session w', w.refreshSessionLocked now source generation = some w' ∧
        w.Accepts now source generation session ∧
        w' = { w with
          links := w'.links
          sessions := w.sessions.insert source (heardSession now generation) } ∧
        ∀ id : UInt32,
          w'.links[id]? = w.links[id]?.map (refreshedLink source generation session) := by
  unfold refreshSessionLocked
  split
  · exact .inl rfl
  · next session hs =>
    split
    · exact .inl rfl
    · next hstale =>
      refine .inr ⟨session, _, rfl, ⟨hs, hstale⟩, ?_, fun id => ?_⟩
      · split <;> rfl
      · split
        · next hd =>
          have hf : (fun link : FabricWireLink =>
              if link.peerAddr = source then resetLink link else link) =
              refreshedLink source generation session := by
            funext link
            rw [refreshedLink, if_pos hd]
          rw [← hf]
          exact ExtTreeMap.getElem?_map
        · next hd =>
          have hf : refreshedLink source generation session = fun link => link := by
            funext link
            exact if_neg hd
          rw [hf, map_id']

theorem lookup_applyPeerCarrierLocked (id : UInt32) :
    (w.applyPeerCarrierLocked k source).1.links[id]? =
      w.links[id]?.map (settledLink k source w.sessions) := by
  have hf : settledLink k source w.sessions = fun link : FabricWireLink =>
      (if link.peerAddr = source then applyLinkCarrierLocked k w.sessions link
        else (link, [])).1 := by
    funext link
    rw [settledLink]
    split <;> rfl
  rw [hf]
  exact w.lookup_forLinks k.rank _ id

theorem lookup_recordLinkState (state : FabricWireLinkState) (id : UInt32) :
    (recordLinkState source w state).links[id]? =
      w.links[id]?.map (recordedLink source [state] id) := by
  rw [recordLinkState, lookup_updateLink]
  by_cases hid : state.linkID = id
  · subst hid
    rw [if_pos rfl]
    congr 1
    funext link
    simp [recordedLink, advertisedUp]
  · rw [if_neg hid]
    have hf : recordedLink source [state] id = fun link => link := by
      funext link
      simp [recordedLink, advertisedUp, hid]
    rw [hf, map_id']

theorem recordedLink_cons (state : FabricWireLinkState) (states : List FabricWireLinkState)
    (id : UInt32) (link : FabricWireLink) : recordedLink source (state :: states) id link =
      recordedLink source states id (recordedLink source [state] id link) := by
  by_cases hp : link.peerAddr = source
  · simp [recordedLink, advertisedUp, hp]
  · simp [recordedLink, hp]

theorem foldl_recordLinkState (w : FabricWire) : states.foldl (recordLinkState source) w =
        { w with links := (states.foldl (recordLinkState source) w).links } ∧
      ∀ id : UInt32, (states.foldl (recordLinkState source) w).links[id]? =
        w.links[id]?.map (recordedLink source states id) := by
  induction states generalizing w with
  | nil =>
    refine ⟨rfl, fun id => ?_⟩
    have hf : recordedLink source [] id = fun link => link := by
      funext link
      simp [recordedLink, advertisedUp]
    rw [hf, map_id']
    rfl
  | cons state states ih =>
    obtain ⟨hw, hl⟩ := ih (recordLinkState source w state)
    refine ⟨hw, fun id => ?_⟩
    rw [List.foldl_cons, hl id, lookup_recordLinkState, map_map]
    congr 1
    funext link
    exact (recordedLink_cons source state states id link).symm

/-- What a datagram carries behind its common header. -/
inductive Body where
  | data (fragment : FabricWireFragment)
  | linkStates (states : List FabricWireLinkState)
  | heartbeat

def parseDatagram (datagram : Bytes) : Option (UInt64 × Body) :=
  match parseFabricWireHeader datagram with
  | .error _ => none
  | .ok (header, body) =>
    if header.msgType = fabricWireMsgData then
      match parseFabricWireDataHeader body with
      | .error _ => none
      | .ok fragment => some (header.generation, .data fragment)
    else if header.msgType = fabricWireMsgLinkState then
      match parseFabricWireLinkStates body with
      | .error _ => none
      | .ok states => some (header.generation, .linkStates states)
    else if header.msgType = fabricWireMsgHeartbeat then some (header.generation, .heartbeat)
    else none

theorem parseDatagram_fragment (generation : UInt64) (fragment : FabricWireFragment) :
    parseDatagram (encodeFabricWireFragment generation fragment.header fragment.payload) =
      some (generation, .data fragment) := by
  rw [parseDatagram, encodeFabricWireFragment, parseFabricWireHeader_put]
  simp only [↓reduceIte, parseFabricWireDataHeader_put]

theorem parseDatagram_linkStates (generation : UInt64) (states : List FabricWireLinkState)
    (hne : states ≠ []) : parseDatagram (encodeFabricWireLinkStates generation states) =
      some (generation, .linkStates states) := by
  rw [parseDatagram, encodeFabricWireLinkStates, parseFabricWireHeader_put]
  simp only [parseFabricWireLinkStates_put states hne]
  rfl

theorem parseDatagram_heartbeat (generation : UInt64) :
    parseDatagram (encodeFabricWireHeartbeat generation) = some (generation, .heartbeat) := by
  have h := parseFabricWireHeader_put fabricWireMsgHeartbeat generation []
  rw [List.append_nil] at h
  rw [parseDatagram, encodeFabricWireHeartbeat, h]
  rfl

def handleBody : Body → FabricWire × List FabricWireEffect
  | .data fragment => w.handleData k now source generation fragment
  | .linkStates states => w.handleLinkStates k now source generation states
  | .heartbeat => w.handleHeartbeat k now source generation

theorem handleDatagram_eq (datagram : Bytes) : w.handleDatagram k now source datagram =
      match parseDatagram datagram with
      | none => (w, [])
      | some (generation, body) => w.handleBody k now source generation body := by
  unfold handleDatagram parseDatagram
  cases parseFabricWireHeader datagram with
  | error e => rfl
  | ok parsed =>
    dsimp only
    split
    · cases parseFabricWireDataHeader parsed.2 <;> rfl
    · split
      · cases parseFabricWireLinkStates parsed.2 <;> rfl
      · split <;> rfl

def bodyLink (sessions : GoMap Addr FabricWireSession) (body : Body) (id : UInt32)
    (link : FabricWireLink) : FabricWireLink :=
  match body with
  | .heartbeat => settledLink k source sessions link
  | .linkStates states => settledLink k source sessions (recordedLink source states id link)
  | .data fragment =>
    if fragment.header.linkID = id then
      (absorbFragment k now fragment (settledLink k source sessions link)).1
    else settledLink k source sessions link

/-- A body is accepted by its session; a fragment also needs a link homed on the source. -/
structure AcceptsBody (body : Body) (session : FabricWireSession) : Prop where
  accepts : w.Accepts now source generation session
  homed : ∀ fragment, body = .data fragment →
    ∃ link, w.links[fragment.header.linkID]? = some link ∧ link.peerAddr = source

/-- The two states differ in drop counters only. -/
structure CountersOnly (w' : FabricWire) : Prop where
  wire_eq : w' = { w with links := w'.links }
  links : ∃ f : UInt32 → FabricWireLinkCounters → FabricWireLinkCounters, ∀ id : UInt32,
    w'.links[id]? = w.links[id]?.map fun link => { link with counters := f id link.counters }

structure AcceptedBy (body : Body) (session : FabricWireSession) (w' : FabricWire) : Prop where
  wire_eq : w' = { w with
    links := w'.links
    sessions := w.sessions.insert source (heardSession now generation) }
  links : ∀ id : UInt32, w'.links[id]? = w.links[id]?.map fun link =>
    bodyLink k now source w'.sessions body id (refreshedLink source generation session link)

theorem CountersOnly.refl : w.CountersOnly w := by
  refine ⟨rfl, fun _ counters => counters, fun id => ?_⟩
  rw [map_id']

theorem CountersOnly.updateLink (linkID : UInt32)
    (f : FabricWireLinkCounters → FabricWireLinkCounters) :
    w.CountersOnly (w.updateLink linkID fun link => { link with counters := f link.counters }) := by
  refine ⟨rfl, fun id counters => if linkID = id then f counters else counters, fun id => ?_⟩
  rw [lookup_updateLink]
  by_cases hid : linkID = id
  · subst hid
    simp only [if_true]
  · simp only [if_neg hid]
    rw [map_id']

variable {w now source generation} in
theorem AcceptsBody.unique {body : Body} {s s' : FabricWireSession}
    (h : w.AcceptsBody now source generation body s)
    (h' : w.AcceptsBody now source generation body s') : s = s' :=
  some.inj (h.accepts.1.symm.trans h'.accepts.1)

theorem refreshSessionLocked_eq_none (h : w.refreshSessionLocked now source generation = none)
    (session : FabricWireSession) : ¬ w.Accepts now source generation session := by
  rintro ⟨hs, hstale⟩
  simp only [refreshSessionLocked, hs, if_neg hstale] at h
  cases h

theorem applyPeerCarrierLocked_acceptedBy {w w' : FabricWire}
    {session : FabricWireSession} {f : UInt32 → FabricWireLink → FabricWireLink}
    (heq : w' = { w with
      links := w'.links
      sessions := w.sessions.insert source (heardSession now generation) })
    (hl : ∀ id : UInt32, w'.links[id]? =
      w.links[id]?.map fun link => f id (refreshedLink source generation session link)) :
    (w'.applyPeerCarrierLocked k source).1 = { w with
        links := (w'.applyPeerCarrierLocked k source).1.links
        sessions := w.sessions.insert source (heardSession now generation) } ∧
      ∀ id : UInt32, (w'.applyPeerCarrierLocked k source).1.links[id]? =
        w.links[id]?.map fun link => settledLink k source w'.sessions
          (f id (refreshedLink source generation session link)) := by
  constructor
  · exact congrArg (fun x : FabricWire =>
      { x with links := (w'.applyPeerCarrierLocked k source).1.links }) heq
  · intro id
    rw [lookup_applyPeerCarrierLocked, hl id, map_map]
    rfl

/-- A body is rejected and only counted, or it is accepted and acts on every link of its
peer. -/
theorem handleBody_cases (body : Body) :
    ((∀ session, ¬ w.AcceptsBody now source generation body session) ∧
        w.CountersOnly (w.handleBody k now source generation body).1 ∧
        (w.handleBody k now source generation body).2 = []) ∨
      ∃ session, w.AcceptsBody now source generation body session ∧
        w.AcceptedBy k now source generation body session
          (w.handleBody k now source generation body).1 := by
  have hr := w.refreshSessionLocked_cases now source generation
  have hreject (hn : w.refreshSessionLocked now source generation = none)
      (session : FabricWireSession) : ¬ w.AcceptsBody now source generation body session :=
    fun h => w.refreshSessionLocked_eq_none now source generation hn session h.accepts
  cases body with
  | heartbeat =>
    rcases hr with hn | ⟨session, w', hw', ha, heq, hl⟩
    · refine .inl ⟨hreject hn, ?_⟩
      simp only [handleBody, handleHeartbeat, hn, and_true]
      exact .refl w
    · right
      refine ⟨session, ⟨ha, nofun⟩, ?_⟩
      simp only [handleBody, handleHeartbeat, hw']
      obtain ⟨h1, h2⟩ := applyPeerCarrierLocked_acceptedBy k now source generation
        (f := fun _ link => link) heq hl
      exact ⟨h1, h2⟩
  | linkStates states =>
    rcases hr with hn | ⟨session, w', hw', ha, heq, hl⟩
    · refine .inl ⟨hreject hn, ?_⟩
      simp only [handleBody, handleLinkStates, hn, and_true]
      exact .refl w
    · right
      refine ⟨session, ⟨ha, nofun⟩, ?_⟩
      simp only [handleBody, handleLinkStates, hw']
      obtain ⟨hf, hfl⟩ := foldl_recordLinkState source states w'
      have heq' := hf.trans (congrArg (fun x : FabricWire =>
        { x with links := (states.foldl (recordLinkState source) w').links }) heq)
      have hl' : ∀ id : UInt32, (states.foldl (recordLinkState source) w').links[id]? =
          w.links[id]?.map fun link => recordedLink source states id
            (refreshedLink source generation session link) := by
        intro id
        rw [hfl id, hl id, map_map]
        rfl
      obtain ⟨h1, h2⟩ := applyPeerCarrierLocked_acceptedBy k now source generation
        (f := recordedLink source states) heq' hl'
      exact ⟨h1, h2⟩
  | data fragment =>
    simp only [handleBody, handleData]
    split
    · next hnone =>
      left
      refine ⟨fun session h => ?_, .refl w, rfl⟩
      obtain ⟨link, hlink, -⟩ := h.homed fragment rfl
      rw [hnone] at hlink
      cases hlink
    · next link hlink =>
      split
      · next hforeign =>
        left
        refine ⟨fun session h => ?_, CountersOnly.updateLink w _ (fun c =>
          { c with dropForeignSource := c.dropForeignSource + 1 }), rfl⟩
        obtain ⟨link', hlink', hp⟩ := h.homed fragment rfl
        rw [hlink, some.injEq] at hlink'
        exact hforeign (hlink' ▸ hp)
      · next hhome =>
        rcases hr with hn | ⟨session, w', hw', ha, heq, hl⟩
        · left
          simp only [hn, and_true]
          exact ⟨hreject hn, CountersOnly.updateLink w _ (fun c =>
            { c with dropStaleGeneration := c.dropStaleGeneration + 1 })⟩
        · right
          simp only [hw']
          obtain ⟨h1, h2⟩ := applyPeerCarrierLocked_acceptedBy k now source generation
            (f := fun _ link => link) heq hl
          have hself := h2 fragment.header.linkID
          rw [hlink, map_some] at hself
          simp only [hself]
          refine ⟨session, ⟨ha, fun f hf => ?_⟩, ?_, fun id => ?_⟩
          · cases hf
            exact ⟨link, hlink, not_not.mp hhome⟩
          · exact congrArg (fun x : FabricWire => { x with
              links := (w'.applyPeerCarrierLocked k source).1.links.insert fragment.header.linkID
                (absorbFragment k now fragment (settledLink k source w'.sessions
                  (refreshedLink source generation session link))).1 }) h1
          · rw [GoMap.lookup_insert]
            split
            · next hid =>
              subst hid
              rw [hlink, map_some]
              simp only [bodyLink, if_true]
              rfl
            · next hid =>
              rw [h2 id]
              simp only [bodyLink, if_neg hid]
              rfl

theorem absorbFragment_eq (fragment : FabricWireFragment) (link : FabricWireLink) :
    ∃ counters, (absorbFragment k now fragment link).1 = { link with
      reassembler := (link.reassembler.absorb k.rank now fragment).reassembler
      counters } := by
  unfold absorbFragment
  dsimp only
  split
  · exact ⟨_, rfl⟩
  · split <;> exact ⟨_, rfl⟩

def bodyRemote (body : Body) (id : UInt32) (operUp : Bool) : Bool :=
  match body with
  | .linkStates states => advertisedUp states id operUp
  | _ => operUp

def bodyReassembler (body : Body) (id : UInt32) (r : WireReassembler) : WireReassembler :=
  match body with
  | .data fragment =>
    if fragment.header.linkID = id then (r.absorb k.rank now fragment).reassembler else r
  | _ => r

theorem refreshedLink_eq (link : FabricWireLink) :
    ∃ reassembler operUp, refreshedLink source generation session link = { link with
      reassembler
      remoteOperUp := operUp } := by
  unfold refreshedLink
  split
  · split <;> exact ⟨_, _, rfl⟩
  · exact ⟨_, _, rfl⟩

theorem refreshedLink_peerAddr (link : FabricWireLink) :
    (refreshedLink source generation session link).peerAddr = link.peerAddr := by
  obtain ⟨reassembler, operUp, h⟩ := refreshedLink_eq source generation session link
  rw [h]

theorem bodyLink_eq (sessions : GoMap Addr FabricWireSession) (body : Body) (id : UInt32)
    {met : FabricWireLink} (hp : met.peerAddr = source) :
    let link := refreshedLink source generation session met
    ∃ deadline counters, bodyLink k now source sessions body id link = { link with
      remoteOperUp := bodyRemote body id link.remoteOperUp
      reassembler := bodyReassembler k now body id link.reassembler
      forcedDown := link.lastLocalUp && !remoteUp sessions
        { link with remoteOperUp := bodyRemote body id link.remoteOperUp }
      settleUntil := deadline
      counters } := by
  intro link
  replace hp : link.peerAddr = source :=
    (refreshedLink_peerAddr source generation session met).trans hp
  clear_value link
  cases body with
  | heartbeat =>
    obtain ⟨deadline, h⟩ := applyLinkCarrierLocked_eq k sessions link
    refine ⟨deadline, link.counters, ?_⟩
    rw [bodyLink, settledLink, if_pos hp, h]
    rfl
  | linkStates states =>
    obtain ⟨deadline, h⟩ := applyLinkCarrierLocked_eq k sessions
      { link with remoteOperUp := advertisedUp states id link.remoteOperUp }
    refine ⟨deadline, link.counters, ?_⟩
    rw [bodyLink, recordedLink, if_pos hp, settledLink, if_pos hp, h]
    rfl
  | data fragment =>
    obtain ⟨deadline, h⟩ := applyLinkCarrierLocked_eq k sessions link
    rw [bodyLink, settledLink, if_pos hp, h]
    by_cases hid : fragment.header.linkID = id
    · obtain ⟨counters, hc⟩ := absorbFragment_eq k now fragment { link with
        forcedDown := link.lastLocalUp && !remoteUp sessions link
        settleUntil := deadline }
      refine ⟨deadline, counters, ?_⟩
      rw [if_pos hid, hc]
      simp only [bodyReassembler, if_pos hid]
      rfl
    · refine ⟨deadline, link.counters, ?_⟩
      rw [if_neg hid]
      simp only [bodyReassembler, if_neg hid]
      rfl

theorem bodyLink_foreign {w : FabricWire} {now : Int} {source : Addr} {generation : UInt64}
    {body : Body} {session : FabricWireSession} {id : UInt32} {link : FabricWireLink}
    (ha : w.AcceptsBody now source generation body session) (hl : w.links[id]? = some link)
    (hp : link.peerAddr ≠ source) (sessions : GoMap Addr FabricWireSession) :
    bodyLink k now source sessions body id (refreshedLink source generation session link) =
      link := by
  have hr : refreshedLink source generation session link = link := by
    rw [refreshedLink, if_neg hp, ite_self]
  rw [hr]
  cases body with
  | heartbeat => exact if_neg hp
  | linkStates states => rw [bodyLink, recordedLink, if_neg hp, settledLink, if_neg hp]
  | data fragment =>
    have hid : fragment.header.linkID ≠ id := by
      rintro rfl
      obtain ⟨link', hl', hp'⟩ := ha.homed fragment rfl
      rw [hl, some.injEq] at hl'
      exact hp (hl' ▸ hp')
    rw [bodyLink, if_neg hid, settledLink, if_neg hp]

theorem handleDatagram_cases (datagram : Bytes) :
    (w.CountersOnly (w.handleDatagram k now source datagram).1 ∧
        (w.handleDatagram k now source datagram).2 = []) ∨
      ∃ generation body session, parseDatagram datagram = some (generation, body) ∧
        w.AcceptsBody now source generation body session ∧
        w.AcceptedBy k now source generation body session
          (w.handleDatagram k now source datagram).1 := by
  rw [handleDatagram_eq]
  split
  · exact .inl ⟨.refl w, rfl⟩
  · next generation body hp =>
    rcases w.handleBody_cases k now source generation body with h | ⟨session, h, h'⟩
    · exact .inl h.2
    · exact .inr ⟨generation, body, session, hp, h, h'⟩

theorem handleDatagram_accepted {w : FabricWire} {now : Int} {source : Addr}
    {generation : UInt64} {datagram : Bytes} {body : Body} {session : FabricWireSession}
    (hparse : parseDatagram datagram = some (generation, body))
    (hb : w.AcceptsBody now source generation body session) :
    w.AcceptedBy k now source generation body session
      (w.handleDatagram k now source datagram).1 := by
  rw [handleDatagram_eq, hparse]
  rcases w.handleBody_cases k now source generation body with ⟨hn, -⟩ | ⟨session', hb', h⟩
  · exact absurd hb (hn session)
  · rw [hb.unique hb']
    exact h

theorem handleDatagram_rejected {w : FabricWire} {now : Int} {source : Addr}
    {generation : UInt64} {datagram : Bytes} {body : Body}
    (hparse : parseDatagram datagram = some (generation, body))
    (hn : ∀ session, ¬ w.AcceptsBody now source generation body session) :
    w.CountersOnly (w.handleDatagram k now source datagram).1 ∧
      (w.handleDatagram k now source datagram).2 = [] := by
  rw [handleDatagram_eq, hparse]
  rcases w.handleBody_cases k now source generation body with ⟨-, h⟩ | ⟨session, hb, -⟩
  · exact h
  · exact absurd hb (hn session)

def sampledLink (link : FabricWireLink) : FabricWireLink :=
  if link.forcedDown then link
  else match k.legOperUp link.legIndex with
  | none => link
  | some operUp => (observeLegStateLocked k w.sessions w.generation link operUp).1

def expiredSessions : GoMap Addr FabricWireSession :=
  w.sessions.map fun _ session => expireSession now session

def expiredLink (link : FabricWireLink) : FabricWireLink :=
  match w.sessions[link.peerAddr]? with
  | none => link
  | some session =>
    if session.TimedOut now then (applyLinkCarrierLocked k (w.expiredSessions now) link).1
    else link

def tickedLink (link : FabricWireLink) : FabricWireLink :=
  (maintainLink (w.expiredSessions now) now (w.expiredLink k now (w.sampledLink k link))).1

theorem lookup_expiredSessions (remote : Addr) :
    (w.expiredSessions now)[remote]? = w.sessions[remote]?.map (expireSession now) :=
  ExtTreeMap.getElem?_map

theorem lookup_tick (id : UInt32) :
    (w.tick k now).1.links[id]? = w.links[id]?.map (w.tickedLink k now) := by
  have hs : ∀ link, (if link.forcedDown then (link, [])
      else match k.legOperUp link.legIndex with
        | none => (link, [])
        | some operUp => observeLegStateLocked k w.sessions w.generation link operUp).1 =
      w.sampledLink k link := by
    intro link
    rw [sampledLink]
    split
    · rfl
    · split <;> rfl
  have he : ∀ link, (match w.sessions[link.peerAddr]? with
      | none => (link, [])
      | some session =>
        if session.TimedOut now then applyLinkCarrierLocked k (w.expiredSessions now) link
        else (link, [])).1 = w.expiredLink k now link := by
    intro link
    rw [expiredLink]
    split
    · rfl
    · split <;> rfl
  simp only [tick, lookup_forLinks, expireSessions, sampleLegs, map_map]
  congr 1
  funext link
  simp only [Function.comp_apply, hs]
  exact congrArg (fun l => (maintainLink (w.expiredSessions now) now l).1)
    (he (w.sampledLink k link))

theorem maintainLink_eq (sessions : GoMap Addr FabricWireSession) (link : FabricWireLink) :
    ∃ counters inFlight last, (maintainLink sessions now link).1 = { link with
      reassembler := link.reassembler.expire now
      counters
      resolveInFlight := inFlight
      lastResolve := last } := by
  unfold maintainLink
  dsimp only
  split <;> exact ⟨_, _, _, rfl⟩

variable (link : FabricWireLink)

theorem sampledLink_eq : ∃ operUp forced deadline, w.sampledLink k link = { link with
      lastLocalUp := operUp
      forcedDown := forced
      settleUntil := deadline } := by
  unfold sampledLink
  split
  · exact ⟨_, _, _, rfl⟩
  · split
    · exact ⟨_, _, _, rfl⟩
    · next operUp _ =>
      rcases observeLegStateLocked_eq k w.sessions w.generation link operUp with h | ⟨deadline, h⟩
      · exact ⟨_, _, _, h⟩
      · exact ⟨_, _, _, h⟩

theorem expiredLink_eq : ∃ forced deadline, w.expiredLink k now link = { link with
      forcedDown := forced
      settleUntil := deadline } := by
  unfold expiredLink
  split
  · exact ⟨_, _, rfl⟩
  · split
    · obtain ⟨deadline, h⟩ := applyLinkCarrierLocked_eq k (w.expiredSessions now) link
      exact ⟨_, deadline, h⟩
    · exact ⟨_, _, rfl⟩

theorem tickedLink_eq :
    ∃ forced deadline counters inFlight last, w.tickedLink k now link = { link with
      lastLocalUp := (w.sampledLink k link).lastLocalUp
      forcedDown := forced
      settleUntil := deadline
      reassembler := link.reassembler.expire now
      counters
      resolveInFlight := inFlight
      lastResolve := last } := by
  obtain ⟨operUp, forced', deadline', hsampled⟩ := w.sampledLink_eq k link
  obtain ⟨forced, deadline, hexpired⟩ := w.expiredLink_eq k now (w.sampledLink k link)
  obtain ⟨counters, inFlight, last, hm⟩ := maintainLink_eq now (w.expiredSessions now)
    (w.expiredLink k now (w.sampledLink k link))
  refine ⟨forced, deadline, counters, inFlight, last, ?_⟩
  rw [tickedLink, hm, hexpired, hsampled]

end FabricWire

end Clabernetes.Wire
