import Clabernetes.Wire.Operations

/-!
# Carrier state

After every completed operation of the engine the wire holds a leg down exactly while the local side
is up and the peer's is not known to be: `internal/directruntime/wire_linux.go:829-861` decides it
for one link, and every operation re-establishes it for the links it concerns.
-/

namespace Clabernetes.Wire

open Base Std Option GoMap

namespace FabricWire

/-- The forced state is what the carrier state machine decides. -/
def Settled (sessions : GoMap Addr FabricWireSession) (link : FabricWireLink) : Prop :=
  link.forcedDown = (link.lastLocalUp && !remoteUp sessions link)

def Carried (w : FabricWire) : Prop :=
  ∀ (id : UInt32) (link : FabricWireLink), w.links[id]? = some link → Settled w.sessions link

theorem settled_applyLinkCarrierLocked (k : Kernel) (sessions : GoMap Addr FabricWireSession)
    (link : FabricWireLink) : Settled sessions (applyLinkCarrierLocked k sessions link).1 := by
  obtain ⟨deadline, h⟩ := applyLinkCarrierLocked_eq k sessions link
  rw [Settled, h]
  rfl

variable {w w' : FabricWire} {link : FabricWireLink} {generation : UInt64}

theorem Settled.observeLegStateLocked {k : Kernel} {sessions : GoMap Addr FabricWireSession}
    {operUp : Bool} (h : Settled sessions link) :
    Settled sessions (observeLegStateLocked k sessions generation link operUp).1 := by
  rcases observeLegStateLocked_eq k sessions generation link operUp with he | ⟨deadline, he⟩
  · rw [he]
    exact h
  · rw [Settled, he]
    rfl

theorem Settled.of_lookup {sessions sessions' : GoMap Addr FabricWireSession}
    (h : Settled sessions link) (hs : sessions'[link.peerAddr]? = sessions[link.peerAddr]?) :
    Settled sessions' link := by
  rw [Settled, remoteUp, hs]
  exact h

section

variable (h : w.Carried)

include h

theorem Carried.countersOnly (hc : w.CountersOnly w') : w'.Carried := by
  intro id link' hl'
  obtain ⟨f, hf⟩ := hc.links
  rw [hf id, map_eq_some_iff] at hl'
  obtain ⟨link, hl, rfl⟩ := hl'
  rw [hc.wire_eq]
  exact h id link hl

theorem Carried.acceptedBy {k : Kernel} {now : Int} {source : Addr} {body : Body}
    {session : FabricWireSession} (hb : w.AcceptsBody now source generation body session)
    (ha : w.AcceptedBy k now source generation body session w') : w'.Carried := by
  intro id link' hl'
  rw [ha.links id, map_eq_some_iff] at hl'
  obtain ⟨link, hl, rfl⟩ := hl'
  by_cases hp : link.peerAddr = source
  · obtain ⟨deadline, counters, he⟩ :=
      bodyLink_eq k now source generation session w'.sessions body id hp
    rw [he]
    rfl
  · rw [bodyLink_foreign k hb hl hp]
    apply (h id link hl).of_lookup
    have hs : w'.sessions = w.sessions.insert source (heardSession now generation) :=
      congrArg FabricWire.sessions ha.wire_eq
    rw [hs, lookup_insert, if_neg (Ne.symm hp)]

theorem Carried.handleDatagram (k : Kernel) (now : Int) (source : Addr)
    (datagram : Bytes) : (w.handleDatagram k now source datagram).1.Carried := by
  rcases w.handleDatagram_cases k now source datagram with ⟨hc, -⟩ | ⟨_, _, _, -, hb, ha⟩
  · exact h.countersOnly hc
  · exact h.acceptedBy hb ha

theorem Carried.tick (k : Kernel) (now : Int) : (w.tick k now).1.Carried := by
  intro id link' hl'
  rw [lookup_tick, map_eq_some_iff] at hl'
  obtain ⟨link, hl, rfl⟩ := hl'
  have hsampled : Settled w.sessions (w.sampledLink k link) := by
    unfold sampledLink
    split
    · exact h id link hl
    · split
      · exact h id link hl
      · exact (h id link hl).observeLegStateLocked
  have hexpired : Settled (w.expiredSessions now) (w.expiredLink k now (w.sampledLink k link)) := by
    unfold expiredLink
    split
    · next hn =>
      apply hsampled.of_lookup
      rw [lookup_expiredSessions, hn]
      rfl
    · next session hs =>
      split
      · exact settled_applyLinkCarrierLocked k _ _
      · next ht =>
        apply hsampled.of_lookup
        rw [lookup_expiredSessions, hs, map_some, expireSession, if_neg ht]
  obtain ⟨counters, inFlight, last, he⟩ := maintainLink_eq now (w.expiredSessions now)
    (w.expiredLink k now (w.sampledLink k link))
  rw [tickedLink, he]
  exact hexpired

theorem Carried.insert {linkID : UInt32} (hs : w'.sessions = w.sessions)
    (hl : w'.links = w.links.insert linkID link) (hlink : Settled w.sessions link) :
    w'.Carried := by
  intro id other hother
  rw [hl, lookup_insert] at hother
  rw [hs]
  split at hother
  · cases hother
    exact hlink
  · exact h id other hother

theorem Carried.next {call : FabricWireCall} (hn : w.next call = some w') : w'.Carried := by
  cases next_progress hn with
  | quiet hq =>
    intro id link' hl'
    obtain ⟨link, hl, ⟨counters, frameID, inFlight, rfl⟩, hs⟩ := hq id link' hl'
    exact (h id link hl).of_lookup hs
  | accepted _ _ _ _ _ _ _ _ hb ha => exact h.acceptedBy hb ha
  | ticked now _ hw => exact hw ▸ h.tick call.kernel now
  | converged spec link _ _ hs hl | adopted linkID address link _ _ _ hs hl =>
    exact h.insert hs hl (settled_applyLinkCarrierLocked call.kernel _ _)
  | observed linkID link operUp hl hs hl' =>
    exact h.insert hs hl' (h linkID link hl).observeLegStateLocked

end

theorem carried_newFabricWire {config : FabricWireConfig}
    (h : newFabricWire config generation = .ok w) : w.Carried := by
  intro id link hl
  rw [newFabricWire_eq_ok h] at hl
  simp at hl

end FabricWire

open FabricWire in
/-- After every completed operation a link is held down exactly when its local side was last
observed up and its peer session and remote side are not both up. -/
theorem forcedDown_iff (config : FabricWireConfig) (generation : UInt64) (start : FabricWire)
    (hstart : newFabricWire config generation = .ok start) (calls : List FabricWireCall)
    (w : FabricWire) (hrun : run FabricWire.next start calls = some w) (id : UInt32)
    (link : FabricWireLink) (hl : w.links[id]? = some link) :
    link.forcedDown = true ↔
      link.lastLocalUp = true ∧
        ¬ ∃ session, w.sessions[link.peerAddr]? = some session ∧ session.up = true ∧
          link.remoteOperUp = true := by
  have hcarried : w.Carried := by
    refine run_invariant_of_step (P := Carried) (carried_newFabricWire hstart) ?_ calls w hrun
    intro w call w' hw hn
    exact hw.next hn
  have hset := hcarried id link hl
  rw [Settled] at hset
  rw [hset, Bool.and_eq_true, Bool.not_eq_true', remoteUp]
  cases hs : w.sessions[link.peerAddr]? with
  | none => simp
  | some session => simp

def carrierCalls : List FabricWireCall :=
  [⟨healthyKernel 0 2 true, .ensureLink ⟨1, "pod/a", "leg", "peer", .v4 9, 1500⟩⟩,
    ⟨healthyKernel 1 2 true, .datagram 1 (.v4 9) (encodeFabricWireLinkStates 5 [⟨1, true⟩])⟩]

/-- The link of `carrierCalls` ends raised, so its session is up and its peer advertised it. -/
theorem forcedDown_iff_carrierCalls :
    ∃ w link, run FabricWire.next unregisteredWire carrierCalls = some w ∧
      w.links[(1 : UInt32)]? = some link ∧ link.forcedDown = false ∧
      ∃ session, w.sessions[link.peerAddr]? = some session ∧ session.up = true ∧
        link.remoteOperUp = true := by
  obtain ⟨w, hrun, link, hl, hraised, hup⟩ : ∃ w,
      run FabricWire.next unregisteredWire carrierCalls = some w ∧
        ∃ link, w.links[(1 : UInt32)]? = some link ∧ link.forcedDown = false ∧
          link.lastLocalUp = true := by
    decide +kernel
  have hiff := forcedDown_iff ⟨.v4 8, 1200⟩ 7 _ rfl carrierCalls w hrun 1 link hl
  refine ⟨w, link, hrun, hl, hraised, ?_⟩
  by_contra hnot
  have hforced := hiff.mpr ⟨hup, hnot⟩
  rw [hraised] at hforced
  cases hforced

end Clabernetes.Wire
