import Clabernetes.Base.Runs
import Clabernetes.Wire.Registry
import Clabernetes.Wire.Sessions

/-!
# Operations of the fabric wire

The engine as a transition system: one event for each critical section of
`internal/directruntime/wire_linux.go`, with the panics that end the process.
-/

namespace Clabernetes.Wire

open Base Std List Option ExtTreeMap GoMap

inductive FabricWireEvent where
  | ensureLink (spec : FabricWireLinkSpec)
  | sweepLinks (ownerPrefix : String) (keepOwners : List String)
  | datagram (now : Int) (source : Addr) (bytes : Bytes)
  | tick (now : Int)
  | adoptPeerAddress (linkID : UInt32) (address : Addr)
  | resolveDone (linkID : UInt32)
  | observeLeg (legIndex : Int) (operUp : Bool)
  | transmitFrame (linkID : UInt32) (frame : Bytes)
  | close
  deriving DecidableEq

structure FabricWireCall where
  kernel : Kernel
  event : FabricWireEvent

/-- The instant of an operation: the one it is handed, or what it reads from the clock. -/
def FabricWireCall.now (call : FabricWireCall) : Int :=
  match call.event with
  | .datagram now _ _ => now
  | .tick now => now
  | _ => call.kernel.clock

/-- `sendFabricWireDatagrams` panics in `As4`; `wire_linux.go:1228` and `:1240-1245`. -/
def FabricWireEffect.panics : FabricWireEffect → Bool
  | .send peer datagrams => !datagrams.isEmpty && !peer.hasAs4
  | _ => false

/-- A kernel that grants every request and reports one leg under every name. -/
def healthyKernel (clock : Int) (legIndex : Int) (operUp : Bool) : Kernel where
  clock := clock
  legByName _ := .ok (legIndex, operUp)
  openCapture _ := .ok legIndex
  legByIndex _ := true
  setDown _ := true
  setUp _ := true
  legOperUp _ := some operUp
  inject _ _ := true
  accepts count := count
  rank := UInt32.toNat

def unregisteredWire : FabricWire := { config := ⟨.v4 8, 1200⟩, generation := 7 }

namespace FabricWire

def perform (w : FabricWire) (call : FabricWireCall) : Except FabricWirePanic Outcome :=
  let done (result : FabricWire × List FabricWireEffect) : Except FabricWirePanic Outcome :=
    .ok { wire := result.1, effects := result.2 }
  match call.event with
  | .ensureLink spec => w.ensureLink call.kernel spec
  | .sweepLinks ownerPrefix keepOwners => w.sweepLinks call.kernel ownerPrefix keepOwners
  | .datagram now source bytes => done (w.handleDatagram call.kernel now source bytes)
  | .tick now => done (w.tick call.kernel now)
  | .adoptPeerAddress linkID address => done (w.adoptPeerAddress call.kernel linkID address)
  | .resolveDone linkID => done (w.resolveDone linkID, [])
  | .observeLeg legIndex operUp => done (w.observeLeg call.kernel legIndex operUp)
  | .transmitFrame linkID frame => done (w.transmitFrame call.kernel linkID frame)
  | .close => w.close call.kernel

def step (w : FabricWire) (call : FabricWireCall) : Except FabricWirePanic Outcome :=
  match w.perform call with
  | .error panic => .error panic
  | .ok outcome => if outcome.effects.any FabricWireEffect.panics then .error .as4 else .ok outcome

variable {call : FabricWireCall} {spec : FabricWireLinkSpec} {keepOwners : List String}
  {ownerPrefix : String} {linkID : UInt32} {source : Addr} {bytes : Bytes}

variable {w w' : FabricWire} {link' link : FabricWireLink} {outcome : Outcome} {id : UInt32}
  {now : Int}

theorem step_eq_ok (h : (w.step call).toOption = some outcome) : w.step call = .ok outcome := by
  cases hs : w.step call with
  | error panic =>
    rw [hs] at h
    cases h
  | ok outcome' =>
    rw [hs] at h
    cases h
    rfl

def next (w : FabricWire) (call : FabricWireCall) : Option FabricWire :=
  (w.step call).toOption.map Outcome.wire

/-- The two links differ in counters, frame numbering and resolution bookkeeping only. -/
def SameLink (link link' : FabricWireLink) : Prop :=
  ∃ counters frameID inFlight,
    link' = { link with counters, frameID, resolveInFlight := inFlight }

/-- No link appears, changes its carrier or reassembly state, or loses its session. -/
def Quiet (w w' : FabricWire) : Prop :=
  ∀ (id : UInt32) (link' : FabricWireLink), w'.links[id]? = some link' →
    ∃ link, w.links[id]? = some link ∧ SameLink link link' ∧
      w'.sessions[link.peerAddr]? = w.sessions[link.peerAddr]?

/-- Where the link that an `EnsureLink` converges comes from. -/
inductive Origin (w : FabricWire) (linkID : UInt32) (link : FabricWireLink) : Prop
  | created (hl : w.links[linkID]? = none) (hid : link.linkID = linkID)
      (hp : link.peerAddr = .zero) (hr : link.remoteOperUp = false)
      (ha : link.reassembler = .new)
  | known (old : FabricWireLink) (hl : w.links[linkID]? = some old)
      (hid : link.linkID = old.linkID) (hp : link.peerAddr = old.peerAddr)
      (hr : link.remoteOperUp = old.remoteOperUp) (ha : link.reassembler = old.reassembler)

/-- What a completed operation does to links and sessions. -/
inductive Progress (w : FabricWire) (call : FabricWireCall) (w' : FabricWire) : Prop
  | quiet (hq : Quiet w w')
  | accepted (now : Int) (source : Addr) (bytes : Bytes) (generation : UInt64) (body : Body)
      (session : FabricWireSession) (he : call.event = .datagram now source bytes)
      (hp : parseDatagram bytes = some (generation, body))
      (hb : w.AcceptsBody now source generation body session)
      (ha : w.AcceptedBy call.kernel now source generation body session w')
  | ticked (now : Int) (he : call.event = .tick now) (hw : w' = (w.tick call.kernel now).1)
  | converged (spec : FabricWireLinkSpec) (link : FabricWireLink)
      (he : call.event = .ensureLink spec) (ho : Origin w spec.linkID link)
      (hs : w'.sessions = w.sessions)
      (hl : w'.links = w.links.insert spec.linkID
        (applyLinkCarrierLocked call.kernel w.sessions (rehome spec link)).1)
  | adopted (linkID : UInt32) (address : Addr) (link : FabricWireLink)
      (he : call.event = .adoptPeerAddress linkID address) (hl : w.links[linkID]? = some link)
      (ha : link.peerAddr ≠ address) (hs : w'.sessions = w.sessions)
      (hl' : w'.links = w.links.insert linkID (applyLinkCarrierLocked call.kernel w.sessions
        { link with peerAddr := address, remoteOperUp := false }).1)
  | observed (linkID : UInt32) (link : FabricWireLink) (operUp : Bool)
      (hl : w.links[linkID]? = some link) (hs : w'.sessions = w.sessions)
      (hl' : w'.links = w.links.insert linkID
        (observeLegStateLocked call.kernel w.sessions w.generation link operUp).1)

theorem SameLink.refl (link : FabricWireLink) : SameLink link link := ⟨_, _, _, rfl⟩

theorem Quiet.refl (w : FabricWire) : Quiet w w := fun _ link hl => ⟨link, hl, .refl link, rfl⟩

theorem Quiet.of_countersOnly (h : w.CountersOnly w') : Quiet w w' := by
  intro id link' hl'
  obtain ⟨f, hf⟩ := h.links
  rw [hf id, map_eq_some_iff] at hl'
  obtain ⟨link, hl, rfl⟩ := hl'
  refine ⟨link, hl, ⟨_, _, _, rfl⟩, ?_⟩
  rw [h.wire_eq]

theorem Quiet.insert (hl : w.links[linkID]? = some link) (hsame : SameLink link link') :
    Quiet w { w with links := w.links.insert linkID link' } := by
  intro id other hother
  rw [lookup_insert] at hother
  split at hother
  · next hid =>
    cases hother
    exact ⟨link, hid ▸ hl, hsame, rfl⟩
  · exact ⟨other, hother, .refl other, rfl⟩

theorem quiet_resolveDone (w : FabricWire) (linkID : UInt32) : Quiet w (w.resolveDone linkID) := by
  intro id link' hl'
  rw [resolveDone, lookup_updateLink] at hl'
  split at hl'
  · next hid =>
    obtain ⟨link, hl, rfl⟩ := map_eq_some_iff.mp hl'
    exact ⟨link, hid ▸ hl, ⟨_, _, _, rfl⟩, rfl⟩
  · exact ⟨link', hl', .refl link', rfl⟩

theorem quiet_transmitFrame (w : FabricWire) (k : Kernel) (linkID : UInt32) (frame : Bytes) :
    Quiet w (w.transmitFrame k linkID frame).1 := by
  unfold transmitFrame
  split
  · exact .refl w
  · next link hl =>
    split
    · exact .insert hl ⟨_, _, _, rfl⟩
    · dsimp only
      split
      · exact .insert hl ⟨_, _, _, rfl⟩
      · exact .insert hl ⟨_, _, _, rfl⟩

theorem quiet_sweepLinks {k : Kernel} (h : w.sweepLinks k ownerPrefix keepOwners = .ok outcome) :
    Quiet w outcome.wire := by
  rw [sweepLinks_eq_ok h]
  intro id link hl
  have hw : w.links[id]? = some link := by
    change (w.links.filter fun _ link => !swept ownerPrefix keepOwners link)[id]? = some link at hl
    rw [getElem?_filter', filter_eq_some_iff] at hl
    exact hl.1
  exact ⟨link, hw, .refl link, lookup_sweepSessions _ k id link hl⟩

theorem progress_ensureLink (he : call.event = .ensureLink spec)
    (h : w.ensureLink call.kernel spec = .ok outcome) : Progress w call outcome.wire := by
  cases ensureLink_ensured h with
  | refused error => exact .quiet (.refl w)
  | stranded link _ _ _ _ _ _ _ _ => exact .quiet fun _ other hl => ⟨other, hl, .refl other, rfl⟩
  | registered _ _ _ _ _ hl => exact .converged spec _ he (.created hl rfl rfl rfl rfl) rfl rfl
  | moved link _ _ _ _ _ hl _ _ | kept link hl _ =>
    refine .converged spec _ he ?_ rfl rfl
    exact .known link hl rfl rfl rfl rfl

theorem progress_adoptPeerAddress (w : FabricWire) (call : FabricWireCall) (linkID : UInt32)
    (address : Addr) (he : call.event = .adoptPeerAddress linkID address) :
    Progress w call (w.adoptPeerAddress call.kernel linkID address).1 := by
  unfold adoptPeerAddress
  split
  · exact .quiet (.refl w)
  · next link hl =>
    split
    · exact .quiet (.refl w)
    · next hcond =>
      have ha : link.peerAddr ≠ address := by
        intro ha
        simp [ha] at hcond
      exact .adopted linkID address link he hl ha rfl rfl

theorem progress_observeLeg (w : FabricWire) (call : FabricWireCall) (legIndex : Int)
    (operUp : Bool) : Progress w call (w.observeLeg call.kernel legIndex operUp).1 := by
  unfold observeLeg
  split
  · exact .quiet (.refl w)
  · next linkID _ =>
    split
    · exact .quiet (.refl w)
    · next link hl => exact .observed linkID link operUp hl rfl rfl

section

variable (h : w.step call = .ok outcome)

include h

theorem perform_of_step : w.perform call = .ok outcome := by
  unfold step at h
  split at h
  · cases h
  · next hp =>
    split at h
    · cases h
    · rw [hp, h]

theorem step_datagram (he : call.event = .datagram now source bytes) :
    outcome = { wire := (w.handleDatagram call.kernel now source bytes).1,
                effects := (w.handleDatagram call.kernel now source bytes).2 } := by
  have hp := perform_of_step h
  unfold perform at hp
  rw [he] at hp
  exact (Except.ok.inj hp).symm

/-- Every completed operation is of one of the kinds of `Progress`. -/
theorem step_progress : Progress w call outcome.wire := by
  have hp := perform_of_step h
  unfold perform at hp
  dsimp only at hp
  split at hp
  · next spec he => exact progress_ensureLink he hp
  · exact .quiet (quiet_sweepLinks hp)
  · next now source bytes he =>
    cases hp
    rcases w.handleDatagram_cases call.kernel now source bytes with
      ⟨hc, -⟩ | ⟨generation, body, session, hparse, hb, ha⟩
    · exact .quiet (.of_countersOnly hc)
    · exact .accepted now source bytes generation body session he hparse hb ha
  · next now he =>
    cases hp
    exact .ticked now he rfl
  · next linkID address he =>
    cases hp
    exact progress_adoptPeerAddress w call linkID address he
  · cases hp
    exact .quiet (quiet_resolveDone w _)
  · cases hp
    exact progress_observeLeg w call _ _
  · cases hp
    exact .quiet (quiet_transmitFrame w call.kernel _ _)
  · rcases close_eq_ok hp with rfl | rfl
    · exact .quiet (.refl w)
    · exact .quiet fun _ other hl => ⟨other, hl, .refl other, rfl⟩

end

theorem next_progress (h : w.next call = some w') : Progress w call w' := by
  obtain ⟨outcome, ho, rfl⟩ := map_eq_some_iff.mp h
  exact step_progress (step_eq_ok ho)

/-- The peer, the remote carrier and the reassembler of the two links are the same. -/
structure SameRemote (link link' : FabricWireLink) : Prop where
  peerAddr : link'.peerAddr = link.peerAddr
  remoteOperUp : link'.remoteOperUp = link.remoteOperUp
  reassembler : link'.reassembler = link.reassembler

/-- How a registered link of the next state comes from the present one, as far as its peer is
concerned. -/
inductive LinkStep (w : FabricWire) (call : FabricWireCall) (w' : FabricWire) (id : UInt32)
    (link' : FabricWireLink) : Prop
  | created (hr : link'.remoteOperUp = false) (ha : link'.reassembler = .new)
  | kept (link : FabricWireLink) (hl : w.links[id]? = some link) (hsame : SameRemote link link')
      (hs : w'.sessions[link.peerAddr]? = w.sessions[link.peerAddr]?)
  | heard (link : FabricWireLink) (now : Int) (bytes : Bytes) (generation : UInt64)
      (body : Body) (session : FabricWireSession) (hl : w.links[id]? = some link)
      (he : call.event = .datagram now link.peerAddr bytes)
      (hparse : parseDatagram bytes = some (generation, body))
      (hb : w.AcceptsBody now link.peerAddr generation body session)
      (hp : link'.peerAddr = link.peerAddr)
      (hr : link'.remoteOperUp = bodyRemote body id
        (refreshedLink link.peerAddr generation session link).remoteOperUp)
      (ha : link'.reassembler = bodyReassembler call.kernel now body id
        (refreshedLink link.peerAddr generation session link).reassembler)
      (hs : w'.sessions[link.peerAddr]? = some (heardSession now generation))
  | ticked (link : FabricWireLink) (now : Int) (hl : w.links[id]? = some link)
      (he : call.event = .tick now) (hp : link'.peerAddr = link.peerAddr)
      (hr : link'.remoteOperUp = link.remoteOperUp)
      (ha : link'.reassembler = link.reassembler.expire now)
      (hs : w'.sessions[link.peerAddr]? = w.sessions[link.peerAddr]?.map (expireSession now))
  | rehomed (link : FabricWireLink) (spec : FabricWireLinkSpec) (hl : w.links[id]? = some link)
      (he : call.event = .ensureLink spec) (hid : id = spec.linkID)
      (hp : link'.peerAddr = (rehome spec link).peerAddr) (hne : link'.peerAddr ≠ link.peerAddr)
      (hr : link'.remoteOperUp = link.remoteOperUp) (ha : link'.reassembler = link.reassembler)
  | adopted (link : FabricWireLink) (address : Addr) (hl : w.links[id]? = some link)
      (he : call.event = .adoptPeerAddress id address) (hne : link.peerAddr ≠ address)
      (hp : link'.peerAddr = address) (hr : link'.remoteOperUp = false)
      (ha : link'.reassembler = link.reassembler)

/-- The call gives the link another peer. -/
def Moves (w : FabricWire) (call : FabricWireCall) (link : FabricWireLink) : Prop :=
  ∃ (w' : FabricWire) (id : UInt32) (link' : FabricWireLink), w.next call = some w' ∧
    w.links[id]? = some link ∧ w'.links[id]? = some link' ∧ link'.peerAddr ≠ link.peerAddr

theorem sameRemote_applyLinkCarrierLocked (k : Kernel)
    (sessions : GoMap Addr FabricWireSession) (link : FabricWireLink) :
    SameRemote link (applyLinkCarrierLocked k sessions link).1 := by
  obtain ⟨deadline, h⟩ := applyLinkCarrierLocked_eq k sessions link
  rw [h]
  exact ⟨rfl, rfl, rfl⟩

theorem sameRemote_observeLegStateLocked (k : Kernel)
    (sessions : GoMap Addr FabricWireSession) (generation : UInt64) (link : FabricWireLink)
    (operUp : Bool) :
    SameRemote link (observeLegStateLocked k sessions generation link operUp).1 := by
  rcases observeLegStateLocked_eq k sessions generation link operUp with h | ⟨deadline, h⟩
  · rw [h]
    exact ⟨rfl, rfl, rfl⟩
  · rw [h]
    exact ⟨rfl, rfl, rfl⟩

theorem rehome_remote (spec : FabricWireLinkSpec) (link : FabricWireLink) :
    (rehome spec link).remoteOperUp = link.remoteOperUp ∧
      (rehome spec link).reassembler = link.reassembler := by
  unfold rehome
  split
  · exact ⟨rfl, rfl⟩
  · exact ⟨rfl, rfl⟩

theorem rehome_peerAddr (spec : FabricWireLinkSpec) (link link' : FabricWireLink)
    (h : link.peerAddr = link'.peerAddr) :
    (rehome spec link).peerAddr = (rehome spec link').peerAddr := by
  unfold rehome
  rw [h]
  split
  · rfl
  · exact h

theorem LinkStep.of_insert (hs : w'.sessions = w.sessions)
    (hl : w'.links = w.links.insert linkID link) (hl' : w'.links[id]? = some link')
    (hself : id = linkID → link' = link → LinkStep w call w' id link') :
    LinkStep w call w' id link' := by
  have hlook := hl'
  rw [hl, lookup_insert] at hlook
  split at hlook
  · next hid => exact hself hid.symm (some.inj hlook).symm
  · exact .kept link' hlook ⟨rfl, rfl, rfl⟩ (by rw [hs])

theorem linkStep_accepted {generation : UInt64} {body : Body} {session : FabricWireSession}
    (he : call.event = .datagram now source bytes)
    (hparse : parseDatagram bytes = some (generation, body))
    (hb : w.AcceptsBody now source generation body session)
    (ha : w.AcceptedBy call.kernel now source generation body session w')
    (hl' : w'.links[id]? = some link') : LinkStep w call w' id link' := by
  rw [ha.links id, map_eq_some_iff] at hl'
  obtain ⟨link, hl, rfl⟩ := hl'
  have hs : w'.sessions = w.sessions.insert source (heardSession now generation) :=
    congrArg FabricWire.sessions ha.wire_eq
  by_cases hp : link.peerAddr = source
  · subst hp
    obtain ⟨deadline, counters, hbody⟩ :=
      bodyLink_eq call.kernel now link.peerAddr generation session w'.sessions body id rfl
    refine .heard link now bytes generation body session hl he hparse hb ?_ ?_ ?_ ?_
    · rw [hbody]
      exact refreshedLink_peerAddr link.peerAddr generation session link
    · rw [hbody]
    · rw [hbody]
    · rw [hs, lookup_insert, if_pos rfl]
  · rw [bodyLink_foreign call.kernel hb hl hp]
    refine .kept link hl ⟨rfl, rfl, rfl⟩ ?_
    rw [hs, lookup_insert, if_neg (Ne.symm hp)]

theorem linkStep_converged (he : call.event = .ensureLink spec) (ho : Origin w spec.linkID link)
    (hs : w'.sessions = w.sessions) (hl : w'.links = w.links.insert spec.linkID
      (applyLinkCarrierLocked call.kernel w.sessions (rehome spec link)).1)
    (hl' : w'.links[id]? = some link') : LinkStep w call w' id link' := by
  apply LinkStep.of_insert hs hl hl'
  rintro hid rfl
  have happly := sameRemote_applyLinkCarrierLocked call.kernel w.sessions (rehome spec link)
  obtain ⟨hrr, hra⟩ := rehome_remote spec link
  cases ho with
  | created _ _ _ hr ha =>
    exact .created (happly.remoteOperUp.trans (hrr.trans hr))
      (happly.reassembler.trans (hra.trans ha))
  | known old hold _ hp hr ha =>
    have hpeer := happly.peerAddr.trans (rehome_peerAddr spec link old hp)
    have hremote := happly.remoteOperUp.trans (hrr.trans hr)
    have hreass := happly.reassembler.trans (hra.trans ha)
    by_cases hsame : (rehome spec old).peerAddr = old.peerAddr
    · exact .kept old (hid ▸ hold) ⟨hpeer.trans hsame, hremote, hreass⟩ (by rw [hs])
    · exact .rehomed old spec (hid ▸ hold) he hid hpeer (by rw [hpeer]; exact hsame) hremote hreass

theorem linkStep_ticked (he : call.event = .tick now)
    (hl' : (w.tick call.kernel now).1.links[id]? = some link') :
    LinkStep w call (w.tick call.kernel now).1 id link' := by
  rw [lookup_tick, map_eq_some_iff] at hl'
  obtain ⟨link, hl, rfl⟩ := hl'
  obtain ⟨forced, deadline, counters, inFlight, last, hticked⟩ :=
    w.tickedLink_eq call.kernel now link
  rw [hticked]
  exact .ticked link now hl he rfl rfl rfl (lookup_expiredSessions w now link.peerAddr)

/-- Every completed operation takes every link by a `LinkStep`. -/
theorem next_linkStep (h : w.next call = some w') (hl' : w'.links[id]? = some link') :
    LinkStep w call w' id link' := by
  cases next_progress h with
  | quiet hq =>
    obtain ⟨link, hl, ⟨counters, frameID, inFlight, rfl⟩, hs⟩ := hq id link' hl'
    exact .kept link hl ⟨rfl, rfl, rfl⟩ hs
  | accepted now source bytes generation body session he hparse hb ha =>
    exact linkStep_accepted he hparse hb ha hl'
  | ticked now he hw =>
    subst hw
    exact linkStep_ticked he hl'
  | converged spec link he ho hs hl => exact linkStep_converged he ho hs hl hl'
  | adopted linkID address link he hl ha hs hl'' =>
    apply LinkStep.of_insert hs hl'' hl'
    rintro rfl rfl
    have happly := sameRemote_applyLinkCarrierLocked call.kernel w.sessions
      { link with peerAddr := address, remoteOperUp := false }
    exact .adopted link address hl he ha happly.peerAddr happly.remoteOperUp happly.reassembler
  | observed linkID link operUp hl hs hl'' =>
    apply LinkStep.of_insert hs hl'' hl'
    rintro rfl rfl
    exact .kept link hl (sameRemote_observeLegStateLocked call.kernel _ _ link operUp) (by rw [hs])

/-- How the session of a source comes from the present one. -/
inductive SessionStep (w : FabricWire) (call : FabricWireCall) (w' : FabricWire)
    (source : Addr) : Prop
  | kept (hs : w'.sessions[source]? = w.sessions[source]?)
  | heard (now : Int) (bytes : Bytes) (generation : UInt64) (body : Body)
      (session : FabricWireSession) (he : call.event = .datagram now source bytes)
      (hparse : parseDatagram bytes = some (generation, body))
      (hb : w.AcceptsBody now source generation body session)
      (hs : w'.sessions[source]? = some (heardSession now generation))
  | ticked (now : Int) (he : call.event = .tick now)
      (hs : w'.sessions[source]? = w.sessions[source]?.map (expireSession now))
  | forgotten (session : FabricWireSession) (hs : w.sessions[source]? = some session)
      (hnow : call.now - session.lastHeard > fabricWireSessionTimeout)
      (hs' : w'.sessions[source]? = none)

theorem sessionStep_sweepLinks (he : call.event = .sweepLinks ownerPrefix keepOwners)
    (h : w.sweepLinks call.kernel ownerPrefix keepOwners = .ok outcome) (source : Addr) :
    SessionStep w call outcome.wire source := by
  have hnow : call.now = call.kernel.clock := by rw [FabricWireCall.now, he]
  have hlook : outcome.wire.sessions[source]? = w.sessions[source]?.filter fun session =>
      (w.unpublished call.kernel ownerPrefix keepOwners).sessionReferencedLocked source ||
        decide (call.kernel.clock - session.lastHeard ≤ fabricWireSessionTimeout) := by
    rw [sweepLinks_eq_ok h]
    exact getElem?_filter'
  cases hs : w.sessions[source]? with
  | none => exact .kept (by rw [hlook, hs]; rfl)
  | some session =>
    rw [hs, filter_some] at hlook
    split at hlook
    · exact .kept (hlook.trans hs.symm)
    · next hdrop =>
      refine .forgotten session hs ?_ hlook
      simp only [Bool.or_eq_true, decide_eq_true_eq, not_or] at hdrop
      omega

theorem next_sessionStep (h : w.next call = some w') (source : Addr) :
    SessionStep w call w' source := by
  obtain ⟨outcome, ho, rfl⟩ := map_eq_some_iff.mp h
  have hp := perform_of_step (step_eq_ok ho)
  unfold perform at hp
  dsimp only at hp
  split at hp
  · cases ensureLink_ensured hp <;> exact .kept rfl
  · next ownerPrefix keepOwners he => exact sessionStep_sweepLinks he hp source
  · next now sender bytes he =>
    cases hp
    rcases w.handleDatagram_cases call.kernel now sender bytes with
      ⟨hc, -⟩ | ⟨generation, body, session, hparse, hb, ha⟩
    · exact .kept (by rw [hc.wire_eq])
    · have hs := lookup_insert w.sessions sender source (heardSession now generation)
      by_cases hsource : sender = source
      · subst hsource
        refine .heard now bytes generation body session he hparse hb ?_
        rw [ha.wire_eq]
        exact hs.trans (if_pos rfl)
      · refine .kept ?_
        rw [ha.wire_eq]
        exact hs.trans (if_neg hsource)
  · next now he =>
    cases hp
    exact .ticked now he (lookup_expiredSessions w now source)
  · cases hp
    refine .kept ?_
    unfold adoptPeerAddress
    split
    · rfl
    · split <;> rfl
  · cases hp
    exact .kept rfl
  · cases hp
    refine .kept ?_
    unfold observeLeg
    split
    · rfl
    · split <;> rfl
  · cases hp
    refine .kept ?_
    unfold transmitFrame
    split
    · rfl
    · split
      · rfl
      · dsimp only
        split <;> rfl
  · rcases close_eq_ok hp with rfl | rfl <;> exact .kept rfl

/-- The instant is not before any of the calls. -/
def Since (calls : List FabricWireCall) (t : Int) : Prop := ∀ call ∈ calls, call.now ≤ t

variable {calls : List FabricWireCall}

theorem Since.of_append {t : Int} (h : Since (calls ++ [call]) t) : Since calls t ∧ call.now ≤ t :=
  ⟨fun c hc => h c (mem_append_left _ hc), h call (by simp)⟩

theorem since_of_pairwise (h : (calls ++ [call]).Pairwise fun a b => a.now ≤ b.now) :
    Since calls call.now :=
  fun c hc => (pairwise_append.mp h).2.2 c hc call (by simp)

/-- The invariant rule for runs whose instants never go back. -/
theorem timed_invariant {start : FabricWire} {allowed : FabricWire → FabricWireCall → Prop}
    {P : List FabricWireCall → FabricWire → Prop} (h0 : P [] start)
    (hstep : ∀ calls w call w', run next start calls = some w → Since calls call.now →
      P calls w → allowed w call → w.next call = some w' → P (calls ++ [call]) w')
    (calls : List FabricWireCall) (w : FabricWire)
    (hclock : calls.Pairwise fun a b => a.now ≤ b.now)
    (hallow : RunMeets next start allowed calls) (hrun : run next start calls = some w) :
    P calls w := by
  refine run_invariant (P := fun calls w => (calls.Pairwise fun a b => a.now ≤ b.now) → P calls w)
    (fun _ => h0) ?_ calls w hallow hrun hclock
  intro calls w call w' hrun h ha hn hclock
  exact hstep calls w call w' hrun (since_of_pairwise hclock)
    (h (pairwise_append.mp hclock).1) ha hn

end FabricWire

end Clabernetes.Wire
