import Mathlib.Data.List.Dedup
import Clabernetes.Wire.Operations

/-!
# Link-state advertisements

What the datagrams of one tick say and to whom they go:
`internal/directruntime/wire_linux.go:918-944` and `:1030-1060`. Both kinds of advertisement of a
tick, the immediate one after a sampled change and the periodic one, carry the state that the tick
leaves recorded.
-/

namespace Clabernetes.Wire

open Base Std List Option GoMap

namespace FabricWire

def Keyed (w : FabricWire) : Prop :=
  ∀ (id : UInt32) (link : FabricWireLink), w.links[id]? = some link → link.linkID = id

variable {w w' : FabricWire} {k : Kernel} {now : Int} {peer : Addr} {id : UInt32}
  {link : FabricWireLink} {datagram : Bytes} {generation : UInt64} {effects : List FabricWireEffect}
  {operUp : Bool}

theorem linkID_applyLinkCarrierLocked (k : Kernel) (sessions : GoMap Addr FabricWireSession)
    (link : FabricWireLink) : (applyLinkCarrierLocked k sessions link).1.linkID = link.linkID := by
  obtain ⟨deadline, h⟩ := applyLinkCarrierLocked_eq k sessions link
  rw [h]

theorem lastLocalUp_applyLinkCarrierLocked (k : Kernel)
    (sessions : GoMap Addr FabricWireSession) (link : FabricWireLink) :
    (applyLinkCarrierLocked k sessions link).1.lastLocalUp = link.lastLocalUp := by
  obtain ⟨deadline, h⟩ := applyLinkCarrierLocked_eq k sessions link
  rw [h]

theorem tickedLink_remote (w : FabricWire) (k : Kernel) (now : Int) (link : FabricWireLink) :
    (w.tickedLink k now link).linkID = link.linkID ∧
      (w.tickedLink k now link).peerAddr = link.peerAddr ∧
      (w.tickedLink k now link).remoteOperUp = link.remoteOperUp := by
  obtain ⟨forced, deadline, counters, inFlight, last, hticked⟩ := w.tickedLink_eq k now link
  rw [hticked]
  exact ⟨rfl, rfl, rfl⟩

section

variable (h : w.Keyed)

include h

theorem Keyed.tick (k : Kernel) (now : Int) : (w.tick k now).1.Keyed := by
  intro id link' hl'
  rw [lookup_tick, map_eq_some_iff] at hl'
  obtain ⟨link, hl, rfl⟩ := hl'
  exact (tickedLink_remote w k now link).1.trans (h id link hl)

theorem Keyed.countersOnly (hc : w.CountersOnly w') : w'.Keyed := by
  intro id link' hl'
  obtain ⟨f, hf⟩ := hc.links
  rw [hf id, map_eq_some_iff] at hl'
  obtain ⟨link, hl, rfl⟩ := hl'
  exact h id link hl

theorem Keyed.acceptedBy {source : Addr} {body : Body} {session : FabricWireSession}
    (hb : w.AcceptsBody now source generation body session)
    (ha : w.AcceptedBy k now source generation body session w') : w'.Keyed := by
  intro id link' hl'
  rw [ha.links id, map_eq_some_iff] at hl'
  obtain ⟨link, hl, rfl⟩ := hl'
  by_cases hp : link.peerAddr = source
  · obtain ⟨deadline, counters, he⟩ :=
      bodyLink_eq k now source generation session w'.sessions body id hp
    obtain ⟨reassembler, operUp, hr⟩ := refreshedLink_eq source generation session link
    rw [he, hr]
    exact h id link hl
  · rw [bodyLink_foreign k hb hl hp]
    exact h id link hl

theorem Keyed.handleDatagram (k : Kernel) (now : Int) (source : Addr)
    (datagram : Bytes) : (w.handleDatagram k now source datagram).1.Keyed := by
  rcases w.handleDatagram_cases k now source datagram with ⟨hc, -⟩ | ⟨_, _, _, -, hb, ha⟩
  · exact h.countersOnly hc
  · exact h.acceptedBy hb ha

theorem Keyed.insert {linkID : UInt32} (hl : w'.links = w.links.insert linkID link)
    (hlink : link.linkID = linkID) : w'.Keyed := by
  intro id other hother
  rw [hl, lookup_insert] at hother
  split at hother
  · next hid =>
    cases hother
    exact hlink.trans hid
  · exact h id other hother

theorem Keyed.next {call : FabricWireCall} (hn : w.next call = some w') : w'.Keyed := by
  cases next_progress hn with
  | quiet hq =>
    intro id link' hl'
    obtain ⟨link, hl, ⟨counters, frameID, inFlight, rfl⟩, -⟩ := hq id link' hl'
    exact h id link hl
  | accepted _ _ _ _ _ _ _ _ hb ha => exact h.acceptedBy hb ha
  | ticked now _ hw => exact hw ▸ h.tick call.kernel now
  | converged spec link _ ho _ hl =>
    have hlink : link.linkID = spec.linkID := by
      cases ho with
      | created _ hid _ _ _ => exact hid
      | known old hold hid _ _ _ => exact hid.trans (h spec.linkID old hold)
    refine h.insert hl ?_
    rw [linkID_applyLinkCarrierLocked, ← hlink, rehome]
    split <;> rfl
  | adopted linkID address link _ hl _ _ hl' =>
    refine h.insert hl' ?_
    rw [linkID_applyLinkCarrierLocked]
    exact h linkID link hl
  | observed linkID link operUp hl _ hl' =>
    refine h.insert hl' ?_
    rcases observeLegStateLocked_eq call.kernel w.sessions w.generation link operUp with
      he | ⟨deadline, he⟩
    · rw [he]
      exact h linkID link hl
    · rw [he]
      exact h linkID link hl

end

theorem keyed_newFabricWire {config : FabricWireConfig}
    (h : newFabricWire config generation = .ok w) : w.Keyed := by
  intro id link hl
  rw [newFabricWire_eq_ok h] at hl
  simp at hl

def sentTo (peer : Addr) (effects : List FabricWireEffect) : List Bytes :=
  effects.flatMap fun
    | .send receiver datagrams => if receiver = peer then datagrams else []
    | _ => []

theorem sentTo_append (peer : Addr) (a b : List FabricWireEffect) :
    sentTo peer (a ++ b) = sentTo peer a ++ sentTo peer b :=
  flatMap_append

theorem mem_sentTo : datagram ∈ sentTo peer effects ↔
      ∃ datagrams, .send peer datagrams ∈ effects ∧ datagram ∈ datagrams := by
  rw [sentTo, mem_flatMap]
  constructor
  · rintro ⟨effect, he, hd⟩
    split at hd
    · next receiver datagrams =>
      split at hd
      · next hp => exact ⟨datagrams, hp ▸ he, hd⟩
      · cases hd
    · cases hd
  · rintro ⟨datagrams, he, hd⟩
    refine ⟨_, he, ?_⟩
    dsimp only
    rw [if_pos rfl]
    exact hd

theorem sentTo_applyLinkCarrierLocked (peer : Addr) (k : Kernel)
    (sessions : GoMap Addr FabricWireSession) (link : FabricWireLink) :
    sentTo peer (applyLinkCarrierLocked k sessions link).2 = [] := by
  unfold applyLinkCarrierLocked
  dsimp only
  split
  · rfl
  · split
    · rfl
    · split
      · split <;> rfl
      · split <;> rfl

theorem mem_sentTo_forLinks {rank : UInt32 → Nat}
    {body : FabricWireLink → FabricWireLink × List FabricWireEffect} :
    datagram ∈ sentTo peer (w.forLinks rank body).2 ↔
      ∃ (id : UInt32) (link : FabricWireLink), w.links[id]? = some link ∧
        datagram ∈ sentTo peer (body link).2 := by
  constructor
  · intro h
    obtain ⟨datagrams, he, hd⟩ := mem_sentTo.mp h
    obtain ⟨⟨id, link⟩, hm, he⟩ := mem_flatMap.mp he
    exact ⟨id, link, (mem_iterate rank w.links id link).mp hm,
      mem_sentTo.mpr ⟨datagrams, he, hd⟩⟩
  · rintro ⟨id, link, hl, h⟩
    obtain ⟨datagrams, he, hd⟩ := mem_sentTo.mp h
    refine mem_sentTo.mpr ⟨datagrams, mem_flatMap.mpr ⟨(id, link), ?_, he⟩, hd⟩
    exact (mem_iterate rank w.links id link).mpr hl

/-- The datagram is of the generation and says of the link nothing but the given state. -/
def Claims (generation : UInt64) (id : UInt32) (operUp : Bool) (datagram : Bytes) : Prop :=
  parseDatagram datagram = some (generation, .heartbeat) ∨
    ∃ states, parseDatagram datagram = some (generation, .linkStates states) ∧
      ∀ state ∈ states, state.linkID = id → state.operUp = operUp

def Lists (id : UInt32) (datagram : Bytes) : Prop :=
  ∃ generation states, parseDatagram datagram = some (generation, .linkStates states) ∧
    ∃ state ∈ states, state.linkID = id

theorem lastLocalUp_tickedLink (w : FabricWire) (k : Kernel) (now : Int) (link : FabricWireLink) :
    (w.tickedLink k now link).lastLocalUp = (w.sampledLink k link).lastLocalUp := by
  obtain ⟨forced, deadline, counters, inFlight, last, h⟩ := w.tickedLink_eq k now link
  rw [h]

theorem mem_sentTo_observeLegStateLocked {sessions : GoMap Addr FabricWireSession}
    (h : datagram ∈ sentTo peer (observeLegStateLocked k sessions generation link operUp).2) :
    (peer.isValid = true ∧ link.peerAddr = peer) ∧
      datagram = encodeFabricWireLinkStates generation [⟨link.linkID,
        (observeLegStateLocked k sessions generation link operUp).1.lastLocalUp⟩] := by
  unfold observeLegStateLocked at h ⊢
  split at h
  · cases h
  · next hcond =>
    rw [if_neg hcond]
    split at h
    · cases h
    · next hsettle =>
      rw [if_neg hsettle]
      dsimp only at h ⊢
      rw [sentTo_append, sentTo_applyLinkCarrierLocked, nil_append, advertiseLinkLocked,
        linkID_applyLinkCarrierLocked] at h
      split at h
      · cases h
      · next hvalid =>
        obtain ⟨datagrams, he, hd⟩ := mem_sentTo.mp h
        cases mem_singleton.mp he
        refine ⟨⟨by simpa using hvalid, ?_⟩, mem_singleton.mp hd⟩
        exact (sameRemote_applyLinkCarrierLocked k sessions
          { link with lastLocalUp := operUp }).peerAddr.symm

theorem claims_linkStates {states : List FabricWireLinkState} (hne : states ≠ [])
    (h : ∀ state ∈ states, state.linkID = id → state.operUp = operUp) :
    Claims generation id operUp (encodeFabricWireLinkStates generation states) :=
  .inr ⟨states, parseDatagram_linkStates generation states hne, h⟩

theorem claims_sampleLegs (hkeyed : w.Keyed) (hl : w.links[id]? = some link)
    (h : datagram ∈ sentTo peer (w.sampleLegs k).2) :
    Claims w.generation id (w.sampledLink k link).lastLocalUp datagram := by
  obtain ⟨other, sampled, ho, h⟩ := mem_sentTo_forLinks.mp h
  split at h
  · cases h
  · next hforced =>
    split at h
    · cases h
    · next operUp hoper =>
      rw [(mem_sentTo_observeLegStateLocked h).2]
      refine claims_linkStates (by simp) fun state hs hid => ?_
      rw [mem_singleton] at hs
      subst hs
      -- an entry for the link comes from the link itself
      have hother : other = id := (hkeyed other sampled ho).symm.trans hid
      subst hother
      rw [hl, some.injEq] at ho
      subst ho
      rw [sampledLink, if_neg hforced, hoper]

theorem sentTo_expireSessions (w : FabricWire) (k : Kernel) (now : Int) (peer : Addr) :
    sentTo peer (w.expireSessions k now).2 = [] := by
  apply eq_nil_iff_forall_not_mem.mpr
  intro datagram h
  obtain ⟨id, link, -, h⟩ := mem_sentTo_forLinks.mp h
  split at h
  · cases h
  · split at h
    · rw [sentTo_applyLinkCarrierLocked] at h
      cases h
    · cases h

theorem sentTo_maintain (w : FabricWire) (rank : UInt32 → Nat)
    (sessions : GoMap Addr FabricWireSession) (now : Int) (peer : Addr) :
    sentTo peer (w.forLinks rank (maintainLink sessions now)).2 = [] := by
  apply eq_nil_iff_forall_not_mem.mpr
  intro datagram h
  obtain ⟨id, link, -, h⟩ := mem_sentTo_forLinks.mp h
  unfold maintainLink at h
  dsimp only at h
  split at h
  · cases h
  · cases h

theorem mem_peerStates (w : FabricWire) (k : Kernel) (peer : Addr) (state : FabricWireLinkState) :
    state ∈ w.peerStates k peer ↔ ∃ (id : UInt32) (link : FabricWireLink),
      w.links[id]? = some link ∧ link.peerAddr = peer ∧
        state = ⟨link.linkID, link.lastLocalUp⟩ := by
  rw [peerStates, List.mem_map]
  constructor
  · rintro ⟨⟨id, link⟩, hm, rfl⟩
    obtain ⟨hm, hp⟩ := mem_filter.mp hm
    exact ⟨id, link, (mem_iterate k.rank w.links id link).mp hm, beq_iff_eq.mp hp, rfl⟩
  · rintro ⟨id, link, hl, hp, rfl⟩
    refine ⟨(id, link), mem_filter.mpr ⟨?_, beq_iff_eq.mpr hp⟩, rfl⟩
    exact (mem_iterate k.rank w.links id link).mpr hl

theorem mem_sentTo_advertisements : datagram ∈ sentTo peer (w.advertisements k) ↔
      peer.isValid = true ∧
      (∃ (id : UInt32) (link : FabricWireLink), w.links[id]? = some link ∧ link.peerAddr = peer) ∧
      (datagram = encodeFabricWireHeartbeat w.generation ∨
        datagram = encodeFabricWireLinkStates w.generation (w.peerStates k peer)) := by
  rw [mem_sentTo]
  constructor
  · rintro ⟨datagrams, he, hd⟩
    obtain ⟨receiver, hr, he⟩ := List.mem_map.mp he
    cases he
    rw [mem_dedup, mem_filter, List.mem_map] at hr
    obtain ⟨⟨⟨id, link⟩, hm, hp⟩, hvalid⟩ := hr
    refine ⟨hvalid, ⟨id, link, (mem_iterate k.rank w.links id link).mp hm, hp⟩, ?_⟩
    simpa using hd
  · rintro ⟨hvalid, ⟨id, link, hl, hp⟩, hd⟩
    refine ⟨_, List.mem_map.mpr ⟨peer, ?_, rfl⟩, by simpa using hd⟩
    rw [mem_dedup, mem_filter, List.mem_map]
    exact ⟨⟨(id, link), (mem_iterate k.rank w.links id link).mpr hl, hp⟩, hvalid⟩

theorem tick_effects (w : FabricWire) (k : Kernel) (now : Int) :
    (w.tick k now).2 = (w.sampleLegs k).2 ++ ((w.sampleLegs k).1.expireSessions k now).2 ++
      (w.tick k now).1.advertisements k ++
      (((w.sampleLegs k).1.expireSessions k now).1.forLinks k.rank
        (maintainLink ((w.sampleLegs k).1.expireSessions k now).1.sessions now)).2 := rfl

theorem mem_sentTo_tick : datagram ∈ sentTo peer (w.tick k now).2 ↔
      datagram ∈ sentTo peer (w.sampleLegs k).2 ∨
        datagram ∈ sentTo peer ((w.tick k now).1.advertisements k) := by
  rw [tick_effects, sentTo_append, sentTo_append, sentTo_append, sentTo_expireSessions,
    sentTo_maintain, append_nil, append_nil, mem_append]

theorem claims_tick (hkeyed : w.Keyed) (hl : w.links[id]? = some link)
    (h : datagram ∈ sentTo peer (w.tick k now).2) :
    Claims w.generation id (w.tickedLink k now link).lastLocalUp datagram := by
  rcases mem_sentTo_tick.mp h with h | h
  · rw [lastLocalUp_tickedLink]
    exact claims_sampleLegs hkeyed hl h
  · obtain ⟨-, ⟨other, homed, ho, hp⟩, rfl | rfl⟩ := mem_sentTo_advertisements.mp h
    · exact .inl (parseDatagram_heartbeat w.generation)
    · have hne : (w.tick k now).1.peerStates k peer ≠ [] := by
        apply ne_nil_of_mem
        exact (mem_peerStates _ k peer _).mpr ⟨other, homed, ho, hp, rfl⟩
      refine claims_linkStates hne fun state hs hid => ?_
      obtain ⟨other, listed, ho, -, rfl⟩ := (mem_peerStates _ k peer state).mp hs
      have hother : other = id := ((hkeyed.tick k now) other listed ho).symm.trans hid
      subst hother
      rw [lookup_tick, hl, map_some, some.injEq] at ho
      rw [ho]

theorem lists_tick (hkeyed : w.Keyed) (hl : w.links[id]? = some link) (hp : link.peerAddr = peer)
    (hvalid : peer.isValid = true) :
    ∃ datagram ∈ sentTo peer (w.tick k now).2, Lists id datagram := by
  have hl' : (w.tick k now).1.links[id]? = some (w.tickedLink k now link) := by
    rw [lookup_tick, hl, map_some]
  have hp' := (tickedLink_remote w k now link).2.1.trans hp
  have hlisted := (mem_peerStates (w.tick k now).1 k peer _).mpr ⟨id, _, hl', hp', rfl⟩
  refine ⟨encodeFabricWireLinkStates w.generation ((w.tick k now).1.peerStates k peer), ?_, ?_⟩
  · exact mem_sentTo_tick.mpr (.inr (mem_sentTo_advertisements.mpr
      ⟨hvalid, ⟨id, _, hl', hp'⟩, .inr rfl⟩))
  · exact ⟨_, _, parseDatagram_linkStates _ _ (ne_nil_of_mem hlisted), _, hlisted,
      hkeyed.tick k now id _ hl'⟩

end FabricWire

end Clabernetes.Wire
