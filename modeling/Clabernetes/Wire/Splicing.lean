import Clabernetes.Wire.Operations

/-!
# Provenance of delivered frames

Which datagrams a delivered frame consists of. A generation change resets the reassemblers of the
peer's links and a session timeout outlives every pending frame, but neither re-homing nor
`adoptPeerAddress` (`internal/directruntime/wire_linux.go:342-345`, `:1120-1132`) resets that of the
link it moves.
-/

namespace Clabernetes.Wire

open Base Std List Option FabricWire WireReassembler

def FabricWireEffect.isInject : FabricWireEffect → Bool
  | .inject _ _ _ => true
  | _ => false

variable {generation : UInt64} {fragment : FabricWireFragment} {source : Addr}
  {move : FabricWireEvent}

namespace FabricWire

def NoInject (effects : List FabricWireEffect) : Prop := ∀ effect ∈ effects, effect.isInject = false

variable {calls : List FabricWireCall} {frame : PendingWireFrame} {w w' : FabricWire}
  {call : FabricWireCall} {id linkID : UInt32} {link : FabricWireLink} {session : FabricWireSession}
  {packetFD now : Int} {outcome : Outcome} {k : Kernel} {body : Body} {link' : FabricWireLink}
  {frameID : UInt32}

theorem not_noInject {effects : List FabricWireEffect} {frame : Bytes} (h : NoInject effects) :
    .inject id packetFD frame ∉ effects :=
  fun hm => Bool.noConfusion (h _ hm)

theorem noInject_nil : NoInject [] := nofun

theorem NoInject.append {a b : List FabricWireEffect} (ha : NoInject a) (hb : NoInject b) :
    NoInject (a ++ b) := by
  intro effect h
  rcases mem_append.mp h with h | h
  · exact ha effect h
  · exact hb effect h

theorem noInject_applyLinkCarrierLocked (k : Kernel) (sessions : GoMap Addr FabricWireSession)
    (link : FabricWireLink) : NoInject (applyLinkCarrierLocked k sessions link).2 := by
  unfold applyLinkCarrierLocked
  dsimp only
  split
  · exact noInject_nil
  · split
    · exact noInject_nil
    · split
      · intro effect h
        split at h
        · rw [mem_singleton.mp h]
          rfl
        · cases h
      · split
        · intro effect h
          rw [mem_singleton.mp h]
          rfl
        · exact noInject_nil

theorem noInject_advertiseLinkLocked (generation : UInt64) (link : FabricWireLink) :
    NoInject (advertiseLinkLocked generation link) := by
  intro effect h
  unfold advertiseLinkLocked at h
  split at h
  · cases h
  · rw [mem_singleton.mp h]
    rfl

theorem noInject_observeLegStateLocked (k : Kernel) (sessions : GoMap Addr FabricWireSession)
    (generation : UInt64) (link : FabricWireLink) (operUp : Bool) :
    NoInject (observeLegStateLocked k sessions generation link operUp).2 := by
  unfold observeLegStateLocked
  split
  · exact noInject_nil
  · split
    · exact noInject_nil
    · exact (noInject_applyLinkCarrierLocked k sessions _).append
        (noInject_advertiseLinkLocked generation _)

theorem noInject_forLinks (w : FabricWire) (rank : UInt32 → Nat)
    (body : FabricWireLink → FabricWireLink × List FabricWireEffect)
    (h : ∀ link, NoInject (body link).2) : NoInject (w.forLinks rank body).2 := by
  intro effect he
  obtain ⟨e, -, he⟩ := mem_flatMap.mp he
  exact h e.2 effect he

theorem noInject_applyPeerCarrierLocked (w : FabricWire) (k : Kernel) (source : Addr) :
    NoInject (w.applyPeerCarrierLocked k source).2 := by
  apply noInject_forLinks
  intro link
  split
  · exact noInject_applyLinkCarrierLocked k _ link
  · exact noInject_nil

theorem noInject_maintainLink (sessions : GoMap Addr FabricWireSession) (now : Int)
    (link : FabricWireLink) : NoInject (maintainLink sessions now link).2 := by
  intro effect h
  unfold maintainLink at h
  dsimp only at h
  split at h
  · rw [mem_singleton.mp h]
    rfl
  · cases h

theorem noInject_advertisements (w : FabricWire) (k : Kernel) : NoInject (w.advertisements k) := by
  intro effect h
  obtain ⟨peer, -, rfl⟩ := List.mem_map.mp h
  rfl

theorem noInject_sampleLegs (w : FabricWire) (k : Kernel) : NoInject (w.sampleLegs k).2 := by
  apply noInject_forLinks
  intro link
  split
  · exact noInject_nil
  · split
    · exact noInject_nil
    · exact noInject_observeLegStateLocked k _ _ link _

theorem noInject_expireSessions (w : FabricWire) (k : Kernel) (now : Int) :
    NoInject (w.expireSessions k now).2 := by
  apply noInject_forLinks
  intro link
  split
  · exact noInject_nil
  · split
    · exact noInject_applyLinkCarrierLocked k _ link
    · exact noInject_nil

theorem noInject_tick (w : FabricWire) (k : Kernel) (now : Int) : NoInject (w.tick k now).2 :=
  (((noInject_sampleLegs w k).append (noInject_expireSessions _ k now)).append
    (noInject_advertisements _ k)).append
      (noInject_forLinks _ _ _ fun link => noInject_maintainLink _ now link)

theorem noInject_transmitFrame (w : FabricWire) (k : Kernel) (linkID : UInt32) (frame : Bytes) :
    NoInject (w.transmitFrame k linkID frame).2 := by
  unfold transmitFrame
  split
  · exact noInject_nil
  · split
    · exact noInject_nil
    · dsimp only
      split
      · exact noInject_nil
      · intro effect h
        rw [mem_singleton.mp h]
        rfl

theorem noInject_ensureLink {spec : FabricWireLinkSpec} (h : w.ensureLink k spec = .ok outcome) :
    NoInject outcome.effects := by
  cases ensureLink_ensured h with
  | refused error => exact noInject_nil
  | stranded => exact noInject_nil
  | registered | moved | kept => exact noInject_applyLinkCarrierLocked k _ _

theorem inject_mem_absorbFragment {frame : Bytes}
    (h : .inject id packetFD frame ∈ (absorbFragment k now fragment link).2) :
    id = fragment.header.linkID ∧
      (link.reassembler.absorb k.rank now fragment).frame = some frame := by
  unfold absorbFragment at h
  dsimp only at h
  split at h
  · cases h
  · next bytes hb =>
    split at h
    · cases h
    · cases mem_singleton.mp h
      exact ⟨rfl, hb⟩

/-- The fragment that puts a frame into a leg: accepted from the peer of its link, and the
one that completes the frame in the reassembler the session check leaves. -/
structure Injects (w : FabricWire) (k : Kernel) (id : UInt32) (frame : Bytes) (now : Int)
    (source : Addr) (generation : UInt64) (fragment : FabricWireFragment)
    (session : FabricWireSession) (link : FabricWireLink) : Prop where
  accepts : w.AcceptsBody now source generation (.data fragment) session
  linkID : fragment.header.linkID = id
  registered : w.links[id]? = some link
  homed : link.peerAddr = source
  completes : ((refreshedLink source generation session link).reassembler.absorb
    k.rank now fragment).frame = some frame

theorem settledLink_reassembler (k : Kernel) (source : Addr)
    (sessions : GoMap Addr FabricWireSession) (link : FabricWireLink) :
    (settledLink k source sessions link).reassembler = link.reassembler := by
  unfold settledLink
  split
  · exact (sameRemote_applyLinkCarrierLocked k sessions link).reassembler
  · rfl

theorem inject_mem_handleData {frame : Bytes}
    (h : .inject id packetFD frame ∈ (w.handleData k now source generation fragment).2) :
    ∃ session link, Injects w k id frame now source generation fragment session link := by
  unfold handleData at h
  dsimp only at h
  split at h
  · cases h
  next link hl =>
  split at h
  · cases h
  next hhome =>
  rcases w.refreshSessionLocked_cases now source generation with
    hn | ⟨session, w', hw', ha, heq, hlinks⟩
  · rw [hn] at h
    cases h
  rw [hw'] at h
  dsimp only at h
  have hself : (w'.applyPeerCarrierLocked k source).1.links[fragment.header.linkID]? =
      some (settledLink k source w'.sessions (refreshedLink source generation session link)) := by
    rw [lookup_applyPeerCarrierLocked, hlinks, hl]
    rfl
  rw [hself] at h
  rcases mem_append.mp h with hc | hi
  · exact absurd hc (not_noInject (noInject_applyPeerCarrierLocked w' k source))
  · obtain ⟨rfl, hframe⟩ := inject_mem_absorbFragment hi
    rw [settledLink_reassembler] at hframe
    refine ⟨session, link, ⟨ha, fun f hf => ?_⟩, rfl, hl, not_not.mp hhome, hframe⟩
    cases hf
    exact ⟨link, hl, not_not.mp hhome⟩

theorem inject_mem_handleBody {frame : Bytes}
    (h : .inject id packetFD frame ∈ (w.handleBody k now source generation body).2) :
    ∃ fragment session link, body = .data fragment ∧
      Injects w k id frame now source generation fragment session link := by
  cases body with
  | data fragment =>
    obtain ⟨session, link, hi⟩ := inject_mem_handleData h
    exact ⟨fragment, session, link, rfl, hi⟩
  | linkStates states =>
    refine absurd h (not_noInject ?_)
    change NoInject (w.handleLinkStates k now source generation states).2
    unfold handleLinkStates
    split
    · exact noInject_nil
    · exact noInject_applyPeerCarrierLocked _ k source
  | heartbeat =>
    refine absurd h (not_noInject ?_)
    change NoInject (w.handleHeartbeat k now source generation).2
    unfold handleHeartbeat
    split
    · exact noInject_nil
    · exact noInject_applyPeerCarrierLocked _ k source

theorem inject_mem_step {frame : Bytes} (hstep : w.step call = .ok outcome)
    (h : .inject id packetFD frame ∈ outcome.effects) :
    ∃ now source bytes generation fragment session link,
      call.event = .datagram now source bytes ∧
      parseDatagram bytes = some (generation, .data fragment) ∧
      Injects w call.kernel id frame now source generation fragment session link := by
  have hp := perform_of_step hstep
  unfold perform at hp
  dsimp only at hp
  split at hp
  · exact absurd h (not_noInject (noInject_ensureLink hp))
  · rw [sweepLinks_eq_ok hp] at h
    cases h
  · next now source bytes he =>
    cases hp
    rw [handleDatagram_eq] at h
    split at h
    · cases h
    · next generation body hparse =>
      obtain ⟨fragment, session, link, rfl, hi⟩ := inject_mem_handleBody h
      exact ⟨now, source, bytes, generation, fragment, session, link, he, hparse, hi⟩
  · cases hp
    exact absurd h (not_noInject (noInject_tick w call.kernel _))
  · next linkID address _ =>
    cases hp
    refine absurd h (not_noInject ?_)
    dsimp only
    unfold adoptPeerAddress
    split
    · exact noInject_nil
    · split
      · exact noInject_nil
      · exact noInject_applyLinkCarrierLocked call.kernel _ _
  · cases hp
    cases h
  · cases hp
    refine absurd h (not_noInject ?_)
    dsimp only
    unfold observeLeg
    split
    · exact noInject_nil
    · split
      · exact noInject_nil
      · exact noInject_observeLegStateLocked call.kernel _ _ _ _
  · cases hp
    exact absurd h (not_noInject (noInject_transmitFrame w call.kernel _ _))
  · rcases close_eq_ok hp with rfl | rfl
    · cases h
    · cases h

/-- One of the calls received the fragment from the source in the generation. -/
def Received (calls : List FabricWireCall) (source : Addr) (generation : UInt64)
    (fragment : FabricWireFragment) : Prop :=
  ∃ call ∈ calls, ∃ now bytes, call.event = .datagram now source bytes ∧
    parseDatagram bytes = some (generation, .data fragment)

/-- The frame is past due at every instant still to come. -/
def Dead (calls : List FabricWireCall) (frame : PendingWireFrame) : Prop :=
  ∀ t, Since calls t → frame.Expired t

/-- Every stored fragment of the frame was received from the source in the generation, for
this link and this frame. -/
def Whole (calls : List FabricWireCall) (source : Addr) (generation : UInt64)
    (linkID frameID : UInt32) (frame : PendingWireFrame) : Prop :=
  ∀ (index : Nat) (payload : Bytes), frame.fragments[index]? = some (some payload) →
    ∃ fragment, Received calls source generation fragment ∧
      fragment.header.linkID = linkID ∧ fragment.header.frameID = frameID ∧
      frame.Agrees fragment.header ∧ fragment.header.fragIndex.toNat = index ∧
      fragment.payload = payload

/-- The frame waits in a live session of its link's peer and is whole there. -/
structure Sourced (calls : List FabricWireCall) (w : FabricWire) (linkID frameID : UInt32)
    (peer : Addr) (frame : PendingWireFrame) (session : FabricWireSession) : Prop where
  recorded : w.sessions[peer]? = some session
  known : session.generationKnown = true
  arrived_le : frame.arrived ≤ session.lastHeard
  heard_le : ∀ t, Since calls t → session.lastHeard ≤ t
  whole : Whole calls peer session.generation linkID frameID frame

/-- Every pending frame of the link keeps its books, and it is dead or sourced. -/
def LinkUnspliced (calls : List FabricWireCall) (w : FabricWire) (id : UInt32)
    (link : FabricWireLink) : Prop :=
  link.reassembler.WellFormed ∧
    ∀ (frameID : UInt32) (frame : PendingWireFrame),
      link.reassembler.pending[frameID]? = some frame →
      Dead calls frame ∨ ∃ session, Sourced calls w id frameID link.peerAddr frame session

def Unspliced (calls : List FabricWireCall) (w : FabricWire) : Prop :=
  ∀ (id : UInt32) (link : FabricWireLink), w.links[id]? = some link → LinkUnspliced calls w id link

/-- A registration or an adoption that changes the address of a link finds every pending frame of it
past due. -/
def SpliceStep (w : FabricWire) (call : FabricWireCall) : Prop :=
  match call.event with
  | .ensureLink _ | .adoptPeerAddress _ _ => ∀ link, w.Moves call link →
    ∀ (frameID : UInt32) (frame : PendingWireFrame),
      link.reassembler.pending[frameID]? = some frame → frame.Expired call.now
  | _ => True

theorem Dead.append (h : Dead calls frame) (call : FabricWireCall) : Dead (calls ++ [call]) frame :=
  fun t ht => h t ht.of_append.1

theorem Received.append (h : Received calls source generation fragment) (call : FabricWireCall) :
    Received (calls ++ [call]) source generation fragment := by
  obtain ⟨c, hc, h⟩ := h
  exact ⟨c, mem_append_left _ hc, h⟩

theorem Whole.append (h : Whole calls source generation linkID frameID frame)
    (call : FabricWireCall) : Whole (calls ++ [call]) source generation linkID frameID frame := by
  intro index payload hp
  obtain ⟨fragment, hr, hrest⟩ := h index payload hp
  exact ⟨fragment, hr.append call, hrest⟩

theorem expired_mono {t t' : Int} (h : frame.Expired t) (ht : t ≤ t') : frame.Expired t' := by
  unfold PendingWireFrame.Expired at *
  omega

theorem Unspliced.refreshed (h : Unspliced calls w) (hl : w.links[id]? = some link)
    (hnow : Since calls now) (hb : w.AcceptsBody now link.peerAddr generation body session) :
    (refreshedLink link.peerAddr generation session link).reassembler.WellFormed ∧
      ∀ (frameID : UInt32) (frame : PendingWireFrame),
        (refreshedLink link.peerAddr generation session link).reassembler.pending[frameID]? =
          some frame →
        Dead calls frame ∨
          frame.arrived ≤ now ∧ Whole calls link.peerAddr generation id frameID frame := by
  unfold refreshedLink
  rw [if_pos rfl]
  split
  · refine ⟨wellFormed_new, fun frameID frame hf => ?_⟩
    simp [resetLink, WireReassembler.new] at hf
  · next hd =>
    obtain ⟨hwf, hpending⟩ := h id link hl
    refine ⟨hwf, fun frameID frame hf => ?_⟩
    rcases hpending frameID frame hf with hdead | ⟨recorded, hsrc⟩
    · exact .inl hdead
    · right
      have hfor : w.sessionFor link.peerAddr = some recorded := by rw [sessionFor, hsrc.recorded]
      have hsession : session = recorded := some.inj (hb.accepts.1.symm.trans hfor)
      subst hsession
      have hgen : session.generation = generation := by
        by_contra hne
        exact hd ⟨hsrc.known, hne⟩
      have hle := hsrc.heard_le now hnow
      have harr := hsrc.arrived_le
      exact ⟨by omega, hgen ▸ hsrc.whole⟩

theorem Whole.store (h : Whole calls source generation linkID fragment.header.frameID frame)
    (hr : Received calls source generation fragment) (hlink : fragment.header.linkID = linkID)
    (hfill : WireReassembler.Fills frame fragment) :
    Whole calls source generation linkID fragment.header.frameID
      (frame.store fragment.header.fragIndex.toNat fragment.payload) := by
  intro index payload hp
  change (frame.fragments.set fragment.header.fragIndex.toNat (some fragment.payload))[index]? =
    some (some payload) at hp
  rw [getElem?_set] at hp
  split at hp
  · next hidx =>
    split at hp
    · cases hp
      exact ⟨fragment, hr, hlink, rfl, hfill.1, hidx, rfl⟩
    · cases hp
  · exact h index payload hp

theorem whole_of_meets {r : WireReassembler} (hnow : Since calls now)
    (hr : ∀ (frameID : UInt32) (frame : PendingWireFrame), r.pending[frameID]? = some frame →
      Dead calls frame ∨ frame.arrived ≤ now ∧ Whole calls source generation linkID frameID frame)
    (hm : r.Meets now fragment frame) :
    frame.arrived ≤ now ∧ Whole calls source generation linkID fragment.header.frameID frame := by
  rcases hm with rfl | ⟨hf, hlive⟩
  · refine ⟨Int.le_refl now, fun index payload hp => ?_⟩
    change (List.replicate _ none)[index]? = some (some payload) at hp
    rw [getElem?_replicate] at hp
    split at hp <;> cases hp
  · rcases hr _ frame hf with hdead | hwhole
    · exact absurd (hdead now hnow) hlive
    · exact hwhole

theorem Unspliced.heard {bytes : Bytes} (h : Unspliced calls w) (hnow : Since calls now)
    (hl : w.links[id]? = some link) (he : call.event = .datagram now link.peerAddr bytes)
    (hparse : parseDatagram bytes = some (generation, body))
    (hb : w.AcceptsBody now link.peerAddr generation body session)
    (hp : link'.peerAddr = link.peerAddr)
    (ha : link'.reassembler = bodyReassembler call.kernel now body id
      (refreshedLink link.peerAddr generation session link).reassembler)
    (hs : w'.sessions[link.peerAddr]? = some (heardSession now generation)) :
    LinkUnspliced (calls ++ [call]) w' id link' := by
  obtain ⟨hwf, hpending⟩ := h.refreshed hl hnow hb
  have hcall : call.now = now := by rw [FabricWireCall.now, he]
  -- a frame that is whole and not younger than the datagram is sourced in the heard session
  have hsource : ∀ (frameID : UInt32) (frame : PendingWireFrame), frame.arrived ≤ now →
      Whole (calls ++ [call]) link.peerAddr generation id frameID frame →
      ∃ session, Sourced (calls ++ [call]) w' id frameID link'.peerAddr frame session := by
    intro frameID frame harr hwhole
    rw [hp]
    refine ⟨_, hs, rfl, harr, fun t ht => ?_, hwhole⟩
    rw [← hcall]
    exact ht.of_append.2
  have hkeep : ∀ (frameID : UInt32) (frame : PendingWireFrame),
      (refreshedLink link.peerAddr generation session link).reassembler.pending[frameID]? =
        some frame →
      Dead (calls ++ [call]) frame ∨
        ∃ session, Sourced (calls ++ [call]) w' id frameID link'.peerAddr frame session := by
    intro frameID frame hf
    rcases hpending frameID frame hf with hdead | ⟨harr, hwhole⟩
    · exact .inl (hdead.append call)
    · exact .inr (hsource frameID frame harr (hwhole.append call))
  rw [LinkUnspliced, ha]
  cases body with
  | heartbeat => exact ⟨hwf, hkeep⟩
  | linkStates states => exact ⟨hwf, hkeep⟩
  | data fragment =>
    by_cases hid : fragment.header.linkID = id
    · simp only [bodyReassembler, if_pos hid]
      refine ⟨hwf.absorb call.kernel.rank now fragment, fun frameID frame' hf' => ?_⟩
      rcases absorb_pending call.kernel.rank _ now fragment frameID frame' hf' with
        ⟨hold, -⟩ | ⟨rfl, frame, hm, hframe⟩
      · exact hkeep frameID frame' hold
      · obtain ⟨harr, hwhole⟩ := whole_of_meets hnow hpending hm
        right
        rcases hframe with rfl | ⟨hfill, rfl⟩
        · exact hsource _ _ harr (hwhole.append call)
        · exact hsource _ _ harr ((hwhole.append call).store
            ⟨call, by simp, now, bytes, he, hparse⟩ hid hfill)
    · simp only [bodyReassembler, if_neg hid]
      exact ⟨hwf, hkeep⟩

theorem expired_of_timedOut (h : session.TimedOut now) (harr : frame.arrived ≤ session.lastHeard) :
    frame.Expired now := by
  have ht := h.2
  unfold fabricWireSessionTimeout fabricWireHeartbeatMissLimit fabricWireHeartbeatInterval
    second millisecond at ht
  unfold PendingWireFrame.Expired fabricWireReassemblyExpiry millisecond
  omega

theorem Unspliced.ticked (h : Unspliced calls w) (hl : w.links[id]? = some link)
    (hp : link'.peerAddr = link.peerAddr) (ha : link'.reassembler = link.reassembler.expire now)
    (hs : w'.sessions[link.peerAddr]? = w.sessions[link.peerAddr]?.map (expireSession now)) :
    LinkUnspliced (calls ++ [call]) w' id link' := by
  obtain ⟨hwf, hpending⟩ := h id link hl
  rw [LinkUnspliced, ha, hp]
  refine ⟨hwf.expire, fun frameID frame hf => ?_⟩
  obtain ⟨hold, hlive⟩ := (expire_some _ now frameID frame).mp hf
  rcases hpending frameID frame hold with hdead | ⟨session, hsrc⟩
  · exact .inl (hdead.append call)
  · have hup : ¬ session.TimedOut now := fun ht => hlive (expired_of_timedOut ht hsrc.arrived_le)
    refine .inr ⟨session, ?_, hsrc.known, hsrc.arrived_le,
      fun t ht => hsrc.heard_le t ht.of_append.1,
      hsrc.whole.append call⟩
    rw [hs, hsrc.recorded, map_some, expireSession, if_neg hup]

/-- Every allowed operation, at an instant that is not in the past, keeps pending frames
unspliced. -/
theorem Unspliced.next (h : Unspliced calls w) (hnow : Since calls call.now)
    (hallow : SpliceStep w call) (hn : w.next call = some w') : Unspliced (calls ++ [call]) w' := by
  intro id link' hl'
  -- a link moved to another peer takes only dead frames along
  have hmoved : ∀ link, w.links[id]? = some link → link'.reassembler = link.reassembler →
      (∀ (frameID : UInt32) (frame : PendingWireFrame),
        link.reassembler.pending[frameID]? = some frame → frame.Expired call.now) →
      LinkUnspliced (calls ++ [call]) w' id link' := by
    intro link hl ha hexp
    rw [LinkUnspliced, ha]
    refine ⟨(h id link hl).1, fun frameID frame hf => .inl fun t ht => ?_⟩
    exact expired_mono (hexp frameID frame hf) ht.of_append.2
  cases next_linkStep hn hl' with
  | created _ ha =>
    rw [LinkUnspliced, ha]
    refine ⟨wellFormed_new, fun frameID frame hf => ?_⟩
    simp [WireReassembler.new] at hf
  | kept link hl hsame hs =>
    obtain ⟨hwf, hpending⟩ := h id link hl
    rw [LinkUnspliced, hsame.reassembler, hsame.peerAddr]
    refine ⟨hwf, fun frameID frame hf => ?_⟩
    rcases hpending frameID frame hf with hdead | ⟨session, hsrc⟩
    · exact .inl (hdead.append call)
    · exact .inr ⟨session, hs.trans hsrc.recorded, hsrc.known, hsrc.arrived_le,
        fun t ht => hsrc.heard_le t ht.of_append.1, hsrc.whole.append call⟩
  | heard link now bytes generation body session hl he hparse hb hp _ ha hs =>
    have hcall : call.now = now := by rw [FabricWireCall.now, he]
    exact h.heard (hcall ▸ hnow) hl he hparse hb hp ha hs
  | ticked link now hl _ hp _ ha hs => exact h.ticked hl hp ha hs
  | rehomed link spec hl he _ _ hne _ ha =>
    rw [SpliceStep, he] at hallow
    exact hmoved link hl ha (hallow link ⟨w', id, link', hn, hl, hl', hne⟩)
  | adopted link address hl he hne hp _ ha =>
    rw [SpliceStep, he] at hallow
    exact hmoved link hl ha (hallow link ⟨w', id, link', hn, hl, hl', hp ▸ hne.symm⟩)

/-- The frame is the concatenation of fragments that one process sent for one frame, one for each
index. -/
structure OneSender (calls : List FabricWireCall) (linkID : UInt32) (frame : Bytes)
    (source : Addr) (generation : UInt64) (frameID : UInt32)
    (fragments : List FabricWireFragment) : Prop where
  assembled : frame = fragments.flatMap FabricWireFragment.payload
  received : ∀ fragment ∈ fragments, Received calls source generation fragment
  ids : ∀ fragment ∈ fragments, fragment.header.linkID = linkID ∧ fragment.header.frameID = frameID
  geometry : ∀ fragment ∈ fragments, fragment.header.fragCount.toNat = fragments.length ∧
    fragment.header.totalLength.toNat = frame.length
  index : ∀ (i : Nat) (fragment : FabricWireFragment), fragments[i]? = some fragment →
    fragment.header.fragIndex.toNat = i

theorem filled_of_received (hc : frame.Consistent) (hr : frame.fragCount ≤ frame.received) (i : Nat)
    (hi : i < frame.fragments.length) : ∃ payload, frame.fragments[i]? = some (some payload) := by
  have hcount : frame.fragments.countP Option.isSome = frame.fragments.length := by
    apply Nat.le_antisymm countP_le_length
    rw [frame.length_fragments, ← hc.received_eq]
    exact hr
  have hsome := countP_eq_length.mp hcount _ (getElem_mem hi)
  obtain ⟨payload, hp⟩ := isSome_iff_exists.mp hsome
  exact ⟨payload, by rw [getElem?_eq_getElem hi, hp]⟩

theorem Whole.oneSender (h : Whole calls source generation linkID frameID frame)
    (hc : frame.Consistent) (hr : frame.fragCount ≤ frame.received)
    (hb : frame.bytes = frame.totalLen) :
    ∃ fragments, OneSender calls linkID frame.assembled source generation frameID fragments := by
  have hpick : ∀ i : Fin frame.fragments.length, ∃ fragment : FabricWireFragment,
      frame.fragments[i.val]? = some (some fragment.payload) ∧
        Received calls source generation fragment ∧ fragment.header.linkID = linkID ∧
        fragment.header.frameID = frameID ∧ frame.Agrees fragment.header ∧
        fragment.header.fragIndex.toNat = i.val := by
    intro i
    obtain ⟨payload, hp⟩ := filled_of_received hc hr i.val i.isLt
    obtain ⟨fragment, hrec, hlink, hframe, hagree, hidx, rfl⟩ := h i.val payload hp
    exact ⟨fragment, hp, hrec, hlink, hframe, hagree, hidx⟩
  choose pick hpick using hpick
  have htable : frame.fragments = (List.ofFn pick).map fun fragment => some fragment.payload := by
    apply ext_getElem?
    intro i
    by_cases hi : i < frame.fragments.length
    · rw [(hpick ⟨i, hi⟩).1]
      simp [hi]
    · rw [getElem?_eq_none (Nat.le_of_not_lt hi), getElem?_eq_none (by simpa using hi)]
  have hmem : ∀ fragment ∈ List.ofFn pick, ∃ i, pick i = fragment := by
    intro fragment hm
    exact mem_ofFn.mp hm
  refine ⟨List.ofFn pick, ?_, ?_, ?_, ?_, ?_⟩
  · calc frame.assembled
        = ((List.ofFn pick).map fun fragment => some fragment.payload).flatMap (·.getD []) :=
          congrArg (List.flatMap fun slot : Option Bytes => slot.getD []) htable
      _ = (List.ofFn pick).flatMap FabricWireFragment.payload := by
          rw [flatMap_map]
          rfl
  · intro fragment hm
    obtain ⟨i, rfl⟩ := hmem fragment hm
    exact (hpick i).2.1
  · intro fragment hm
    obtain ⟨i, rfl⟩ := hmem fragment hm
    exact ⟨(hpick i).2.2.1, (hpick i).2.2.2.1⟩
  · intro fragment hm
    obtain ⟨i, rfl⟩ := hmem fragment hm
    obtain ⟨hcount, htotal⟩ := (hpick i).2.2.2.2.1
    rw [length_ofFn, frame.length_fragments, hcount, ← htotal, ← hb, hc.bytes_eq]
    exact ⟨rfl, rfl⟩
  · intro i fragment hf
    rw [List.getElem?_ofFn] at hf
    split at hf
    · next hi =>
      cases hf
      exact (hpick ⟨i, hi⟩).2.2.2.2.2
    · cases hf

/-- In an unspliced state a frame that an operation puts into a leg comes from one sender. -/
theorem Unspliced.delivered {frame : Bytes} (h : Unspliced calls w) (hnow : Since calls call.now)
    (hstep : w.step call = .ok outcome) (hinject : .inject id packetFD frame ∈ outcome.effects) :
    ∃ source generation frameID fragments,
      OneSender (calls ++ [call]) id frame source generation frameID fragments := by
  obtain ⟨now, source, bytes, generation, fragment, session, link, he, hparse, hi⟩ :=
    inject_mem_step hstep hinject
  have hcall : call.now = now := by rw [FabricWireCall.now, he]
  rw [hcall] at hnow
  obtain ⟨haccepts, hlink, hl, rfl, hcompletes⟩ := hi
  obtain ⟨hwf, hpending⟩ := h.refreshed hl hnow haccepts
  obtain ⟨pending, hm, hfill, rfl, hcount, hbytes⟩ :=
    absorb_frame call.kernel.rank _ now fragment frame hcompletes
  obtain ⟨-, hwhole⟩ := whole_of_meets hnow hpending hm
  have hstored := (hwhole.append call).store ⟨call, by simp, now, bytes, he, hparse⟩ hlink hfill
  exact ⟨link.peerAddr, generation, fragment.header.frameID,
    hstored.oneSender ((hwf.meets hm).store _ _ hfill.2) hcount hbytes⟩

theorem unspliced_newFabricWire {config : FabricWireConfig}
    (h : newFabricWire config generation = .ok w) : Unspliced [] w := by
  intro id link hl
  rw [newFabricWire_eq_ok h] at hl
  simp at hl

end FabricWire

open FabricWire in
/-- In every run at non-decreasing instants whose steps are allowed by `SpliceStep`, every
frame put into a device leg was assembled from fragments that one process sent for one
frame. -/
theorem delivered_oneSender (config : FabricWireConfig) (generation : UInt64)
    (start : FabricWire) (hstart : newFabricWire config generation = .ok start)
    (calls : List FabricWireCall) (call : FabricWireCall)
    (hclock : (calls ++ [call]).Pairwise fun a b => a.now ≤ b.now)
    (hallow : RunMeets next start SpliceStep calls) (w : FabricWire)
    (hrun : run next start calls = some w) (outcome : Outcome)
    (hstep : w.step call = .ok outcome) (id : UInt32) (packetFD : Int) (frame : Bytes)
    (hinject : .inject id packetFD frame ∈ outcome.effects) :
    ∃ source generation frameID fragments,
      OneSender (calls ++ [call]) id frame source generation frameID fragments := by
  have hinv : Unspliced calls w := by
    refine timed_invariant (unspliced_newFabricWire hstart) ?_ calls w
      (pairwise_append.mp hclock).1 hallow hrun
    intro events s e s' _ hnow hs ha hn
    exact hs.next hnow ha hn
  exact hinv.delivered (since_of_pairwise hclock) hstep hinject

def firstHalf : FabricWireFragment :=
  { header := ⟨1, 1, 0, 2, 4⟩, payload := [1, 2]
    index_lt := by decide, payload_ne := by decide, payload_le := by decide }

def secondHalf : FabricWireFragment :=
  { header := ⟨1, 1, 1, 2, 4⟩, payload := [3, 4]
    index_lt := by decide, payload_ne := by decide, payload_le := by decide }

def movedCalls (move : FabricWireEvent) : List FabricWireCall :=
  [⟨healthyKernel 0 2 true, .ensureLink ⟨1, "pod/a", "leg", "peer", .v4 9, 1500⟩⟩,
    ⟨healthyKernel 1 2 true, .datagram 1 (.v4 9)
      (encodeFabricWireFragment 5 firstHalf.header firstHalf.payload)⟩,
    ⟨healthyKernel 2 2 true, move⟩]

def completingCall : FabricWireCall :=
  ⟨healthyKernel 3 2 true, .datagram 3 (.v4 10)
    (encodeFabricWireFragment 6 secondHalf.header secondHalf.payload)⟩

theorem received_movedCalls (hmove : ∀ now source bytes, move ≠ .datagram now source bytes)
    (h : FabricWire.Received (movedCalls move ++ [completingCall]) source generation fragment) :
    source = .v4 9 ∧ fragment = firstHalf ∨ source = .v4 10 ∧ fragment = secondHalf := by
  obtain ⟨call, hmem, now, bytes, he, hparse⟩ := h
  simp only [movedCalls, completingCall, cons_append, nil_append, mem_cons,
    not_mem_nil, or_false] at hmem
  rcases hmem with rfl | rfl | rfl | rfl
  · cases he
  · cases he
    rw [parseDatagram_fragment] at hparse
    cases hparse
    exact .inl ⟨rfl, rfl⟩
  · exact absurd he (hmove now source bytes)
  · cases he
    rw [parseDatagram_fragment] at hparse
    cases hparse
    exact .inr ⟨rfl, rfl⟩

/-- After the move a frame is delivered that no one peer sent. -/
def Spliced (move : FabricWireEvent) : Prop :=
  ∃ w outcome, run next unregisteredWire (movedCalls move) = some w ∧
    w.step completingCall = .ok outcome ∧ .inject 1 2 [1, 2, 3, 4] ∈ outcome.effects ∧
    ¬ ∃ source generation frameID fragments, FabricWire.OneSender
      (movedCalls move ++ [completingCall]) 1 [1, 2, 3, 4] source generation frameID fragments

theorem spliced_of_delivered (hmove : ∀ now source bytes, move ≠ .datagram now source bytes)
    (h : ∃ w, run next unregisteredWire (movedCalls move) = some w ∧
      ∃ outcome, w.step completingCall = .ok outcome ∧
        .inject 1 2 [1, 2, 3, 4] ∈ outcome.effects) : Spliced move := by
  obtain ⟨w, hw, outcome, ho, hinject⟩ := h
  refine ⟨w, outcome, hw, ho, hinject, ?_⟩
  · rintro ⟨source, generation, frameID, fragments, hone⟩
    have hpick : ∀ fragment ∈ fragments,
        source = .v4 9 ∧ fragment = firstHalf ∨ source = .v4 10 ∧ fragment = secondHalf :=
      fun fragment hm => received_movedCalls hmove (hone.received fragment hm)
    -- every fragment announces two of them, so both indexes have a sender
    have hlen : fragments.length = 2 := by
      cases fragments with
      | nil => cases hone.assembled
      | cons fragment rest =>
        have hg := (hone.geometry fragment (by simp)).1
        rcases hpick fragment (by simp) with ⟨-, rfl⟩ | ⟨-, rfl⟩
        · exact hg.symm
        · exact hg.symm
    have h0 := hone.index 0 fragments[0] (getElem?_eq_getElem _)
    have h1 := hone.index 1 fragments[1] (getElem?_eq_getElem _)
    rcases hpick fragments[0] (getElem_mem _) with ⟨rfl, -⟩ | ⟨-, he⟩
    · rcases hpick fragments[1] (getElem_mem _) with ⟨-, he⟩ | ⟨hs, -⟩
      · rw [he] at h1
        cases h1
      · cases hs
    · rw [he] at h0
      cases h0

/-- Both ways of moving a link splice the fragments of two peers into one delivered frame. -/
theorem moved_not_oneSender :
    Spliced (.ensureLink ⟨1, "pod/a", "leg", "peer", .v4 10, 1500⟩) ∧
      Spliced (.adoptPeerAddress 1 (.v4 10)) := by
  constructor
  · exact spliced_of_delivered (fun _ _ _ => FabricWireEvent.noConfusion) (by decide +kernel)
  · exact spliced_of_delivered (fun _ _ _ => FabricWireEvent.noConfusion) (by decide +kernel)

/-- The same frame completed by the peer that began it. -/
theorem delivered_oneSender_sample :
    ∃ source generation frameID fragments, FabricWire.OneSender
      ((movedCalls .close).take 2 ++ [⟨healthyKernel 3 2 true, .datagram 3 (.v4 9)
        (encodeFabricWireFragment 5 secondHalf.header secondHalf.payload)⟩])
      1 [1, 2, 3, 4] source generation frameID fragments := by
  obtain ⟨w, hw, outcome, ho, hinject⟩ : ∃ w,
      run next unregisteredWire ((movedCalls .close).take 2) = some w ∧
        ∃ outcome, w.step ⟨healthyKernel 3 2 true, .datagram 3 (.v4 9)
            (encodeFabricWireFragment 5 secondHalf.header secondHalf.payload)⟩ = .ok outcome ∧
          .inject 1 2 [1, 2, 3, 4] ∈ outcome.effects := by
    decide +kernel
  refine delivered_oneSender ⟨.v4 8, 1200⟩ 7 unregisteredWire rfl _ _ (by decide) ?_ w hw outcome
    ho 1 2 _ hinject
  apply runMeets_cons
  · rintro link ⟨_, _, _, -, hl, -⟩
    simp [unregisteredWire] at hl
  · intro w₁ _
    exact runMeets_cons trivial fun _ _ => runMeets_nil

end Clabernetes.Wire
