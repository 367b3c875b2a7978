import Mathlib.Data.FinEnum
import Clabernetes.Wire.Operations

/-!
# Capture pumps and the link registry

The registry as a resource: which links hold which leg, pump and stop channel. `Registry` says what
it is for, with removal and addition as its only changes; the operations of
`internal/directruntime/wire_linux.go:231-380` refine it as long as no step of theirs fails half
way.
-/

namespace Clabernetes.Wire

open Base Std Option GoMap FabricWire

structure Registration where
  legIndex : Int
  packetFD : Int
  stop : Nat

/-- The registry: the registrations by link and by leg, the pumps started so far, the stop
channels closed so far and the first channel not made yet. -/
@[ext]
structure Registry where
  entry : UInt32 → Option Registration
  byLeg : Int → Option UInt32
  pumps : Set CapturePump
  closed : Set Nat
  nextStop : Nat

variable {id : UInt32}

namespace Registry

def Removes (g : Registry) (p : UInt32 → Prop) (id : UInt32) (r : Registration) : Prop :=
  p id ∧ g.entry id = some r

open Classical in
noncomputable def remove (g : Registry) (p : UInt32 → Prop) : Registry where
  entry id := if p id then none else g.entry id
  byLeg leg := if ∃ id r, g.Removes p id r ∧ r.legIndex = leg then none else g.byLeg leg
  pumps := g.pumps
  closed := g.closed ∪ {stop | ∃ id r, g.Removes p id r ∧ r.stop = stop}
  nextStop := g.nextStop

def add (g : Registry) (id : UInt32) (legIndex packetFD : Int) : Registry where
  entry id' := if id = id' then some ⟨legIndex, packetFD, g.nextStop⟩ else g.entry id'
  byLeg leg := if legIndex = leg then some id else g.byLeg leg
  pumps := insert ⟨id, legIndex, packetFD, g.nextStop⟩ g.pumps
  closed := g.closed
  nextStop := g.nextStop + 1

/-- Every link has a running pump on its leg, the two indexes describe the same links and no
channel is shared. -/
structure Sound (g : Registry) : Prop where
  running : ∀ id r, g.entry id = some r →
    ⟨id, r.legIndex, r.packetFD, r.stop⟩ ∈ g.pumps ∧ r.stop ∉ g.closed
  indexed : ∀ leg id, g.byLeg leg = some id ↔ ∃ r, g.entry id = some r ∧ r.legIndex = leg
  unshared : ∀ id id' r r', g.entry id = some r → g.entry id' = some r' → r.stop = r'.stop →
    id = id'
  made : ∀ id r, g.entry id = some r → r.stop < g.nextStop
  closed_made : ∀ stop ∈ g.closed, stop < g.nextStop

variable {g : Registry}

theorem Sound.leg_unshared (h : g.Sound) {id' : UInt32} {r r' : Registration}
    (hr : g.entry id = some r) (hr' : g.entry id' = some r') (hl : r.legIndex = r'.legIndex) :
    id = id' := by
  have h1 := (h.indexed r.legIndex id).mpr ⟨r, hr, rfl⟩
  have h2 := (h.indexed r.legIndex id').mpr ⟨r', hr', hl.symm⟩
  rw [h1, some.injEq] at h2
  exact h2

theorem entry_remove (p : UInt32 → Prop) (id : UInt32) (r : Registration) :
    (g.remove p).entry id = some r ↔ ¬ p id ∧ g.entry id = some r := by
  unfold remove
  dsimp only
  split
  · next hp => simp [hp]
  · next hp => simp [hp]

theorem Sound.remove (h : g.Sound) (p : UInt32 → Prop) : (g.remove p).Sound := by
  constructor
  · intro id r hr
    obtain ⟨hp, hr⟩ := (entry_remove p id r).mp hr
    obtain ⟨hpump, hopen⟩ := h.running id r hr
    refine ⟨hpump, ?_⟩
    rintro (hc | ⟨id', r', ⟨hp', hr'⟩, hstop⟩)
    · exact hopen hc
    · exact hp (h.unshared id' id r' r hr' hr hstop ▸ hp')
  · intro leg id
    have hrem : (g.remove p).byLeg leg = some id ↔
        (¬ ∃ id r, g.Removes p id r ∧ r.legIndex = leg) ∧ g.byLeg leg = some id := by
      unfold Registry.remove
      dsimp only
      split
      · next hx => simp [hx]
      · next hx => simp [hx]
    rw [hrem, h.indexed leg id]
    constructor
    · rintro ⟨hnone, r, hr, hleg⟩
      refine ⟨r, (entry_remove p id r).mpr ⟨fun hp => hnone ⟨id, r, ⟨hp, hr⟩, hleg⟩, hr⟩, hleg⟩
    · rintro ⟨r, hr, hleg⟩
      obtain ⟨hp, hr⟩ := (entry_remove p id r).mp hr
      refine ⟨?_, r, hr, hleg⟩
      rintro ⟨id', r', ⟨hp', hr'⟩, hleg'⟩
      exact hp (h.leg_unshared hr' hr (hleg'.trans hleg.symm) ▸ hp')
  · intro id id' r r' hr hr'
    exact h.unshared id id' r r' ((entry_remove p id r).mp hr).2 ((entry_remove p id' r').mp hr').2
  · intro id r hr
    exact h.made id r ((entry_remove p id r).mp hr).2
  · rintro stop (hc | ⟨id, r, ⟨-, hr⟩, rfl⟩)
    · exact h.closed_made stop hc
    · exact h.made id r hr

theorem entry_add (id id' : UInt32) (leg fd : Int) (r : Registration)
    (hr : (g.add id leg fd).entry id' = some r) :
    id' = id ∧ r = ⟨leg, fd, g.nextStop⟩ ∨ id' ≠ id ∧ g.entry id' = some r := by
  change (if id = id' then some ⟨leg, fd, g.nextStop⟩ else g.entry id') = some r at hr
  split at hr
  · next hid => exact .inl ⟨hid.symm, (some.inj hr).symm⟩
  · next hid => exact .inr ⟨Ne.symm hid, hr⟩

theorem Sound.add (h : g.Sound) {leg fd : Int} (hnew : g.entry id = none)
    (hleg : ∀ id' r, g.entry id' = some r → r.legIndex ≠ leg) : (g.add id leg fd).Sound := by
  have hself : (g.add id leg fd).entry id = some ⟨leg, fd, g.nextStop⟩ := if_pos rfl
  have hother : ∀ id', id' ≠ id → (g.add id leg fd).entry id' = g.entry id' :=
    fun id' hid => if_neg (Ne.symm hid)
  constructor
  · intro id' r hr
    rcases entry_add id id' leg fd r hr with ⟨rfl, rfl⟩ | ⟨-, hr⟩
    · exact ⟨.inl rfl, fun hc => Nat.lt_irrefl _ (h.closed_made _ hc)⟩
    · obtain ⟨hpump, hopen⟩ := h.running id' r hr
      exact ⟨.inr hpump, hopen⟩
  · intro leg' id'
    change (if leg = leg' then some id else g.byLeg leg') = some id' ↔ _
    by_cases hl : leg = leg'
    · subst hl
      rw [if_pos rfl, some.injEq]
      constructor
      · rintro rfl
        exact ⟨_, hself, rfl⟩
      · rintro ⟨r, hr, hrl⟩
        rcases entry_add id id' leg fd r hr with ⟨rfl, -⟩ | ⟨-, hr⟩
        · rfl
        · exact absurd hrl (hleg id' r hr)
    · rw [if_neg hl, h.indexed leg' id']
      constructor
      · rintro ⟨r, hr, hrl⟩
        have hid : id' ≠ id := by
          rintro rfl
          rw [hnew] at hr
          cases hr
        exact ⟨r, (hother id' hid).trans hr, hrl⟩
      · rintro ⟨r, hr, hrl⟩
        rcases entry_add id id' leg fd r hr with ⟨-, rfl⟩ | ⟨-, hr⟩
        · exact absurd hrl hl
        · exact ⟨r, hr, hrl⟩
  · intro a b r r' hr hr' hstop
    rcases entry_add id a leg fd r hr with ⟨ha, rfl⟩ | ⟨-, hra⟩
    · rcases entry_add id b leg fd r' hr' with ⟨hb, -⟩ | ⟨-, hrb⟩
      · exact ha.trans hb.symm
      · exact absurd hstop.symm (Nat.ne_of_lt (h.made b r' hrb))
    · rcases entry_add id b leg fd r' hr' with ⟨-, rfl⟩ | ⟨-, hrb⟩
      · exact absurd hstop (Nat.ne_of_lt (h.made a r hra))
      · exact h.unshared a b r r' hra hrb hstop
  · intro id' r hr
    rcases entry_add id id' leg fd r hr with ⟨-, rfl⟩ | ⟨-, hr⟩
    · exact Nat.lt_succ_self _
    · exact Nat.lt_succ_of_lt (h.made id' r hr)
  · intro stop hc
    exact Nat.lt_succ_of_lt (h.closed_made stop hc)

end Registry

def FabricWireLink.registration (link : FabricWireLink) : Registration :=
  ⟨link.legIndex, link.packetFD, link.stop⟩

namespace FabricWire

def registry (w : FabricWire) : Registry where
  entry id := w.links[id]?.map FabricWireLink.registration
  byLeg leg := w.byLeg[leg]?
  pumps := {pump | pump ∈ w.pumps}
  closed := {stop | stop ∈ w.closedStops}
  nextStop := w.nextStop

variable {w : FabricWire} {outcome : Outcome} {spec : FabricWireLinkSpec} {link : FabricWireLink}

theorem entry_registry {r : Registration} :
    w.registry.entry id = some r ↔ ∃ link, w.links[id]? = some link ∧ link.registration = r :=
  map_eq_some_iff

theorem stops_closable (h : w.registry.Sound) {entries : List (UInt32 × FabricWireLink)}
    (hkeys : entries.Pairwise fun a b => a.1 ≠ b.1)
    (hlinks : ∀ e ∈ entries, w.links[e.1]? = some e.2) :
    (stopsOf entries).Nodup ∧ ∀ stop ∈ stopsOf entries, stop ∉ w.closedStops := by
  have hentry : ∀ e ∈ entries, w.registry.entry e.1 = some e.2.registration :=
    fun e hm => entry_registry.mpr ⟨e.2, hlinks e hm, rfl⟩
  constructor
  · refine List.pairwise_map.mpr (hkeys.imp_of_mem ?_)
    intro a b ha hb hne hstop
    exact hne (h.unshared a.1 b.1 _ _ (hentry a ha) (hentry b hb) hstop)
  · intro stop hs
    obtain ⟨e, hm, rfl⟩ := List.mem_map.mp hs
    exact (h.running e.1 _ (hentry e hm)).2

theorem registration_applyLinkCarrierLocked (k : Kernel)
    (sessions : GoMap Addr FabricWireSession) (link : FabricWireLink) :
    (applyLinkCarrierLocked k sessions link).1.registration = link.registration := by
  obtain ⟨deadline, h⟩ := applyLinkCarrierLocked_eq k sessions link
  rw [h]
  rfl

theorem registration_observeLegStateLocked (k : Kernel)
    (sessions : GoMap Addr FabricWireSession) (generation : UInt64) (link : FabricWireLink)
    (operUp : Bool) : (observeLegStateLocked k sessions generation link operUp).1.registration =
      link.registration := by
  rcases observeLegStateLocked_eq k sessions generation link operUp with h | ⟨deadline, h⟩
  · rw [h]
  · rw [h]
    rfl

theorem registration_tickedLink (w : FabricWire) (k : Kernel) (now : Int)
    (link : FabricWireLink) : (w.tickedLink k now link).registration = link.registration := by
  obtain ⟨forced, deadline, counters, inFlight, last, hticked⟩ := w.tickedLink_eq k now link
  rw [hticked]
  rfl

theorem registry_congr {w' : FabricWire} (hleg : w'.byLeg = w.byLeg) (hpumps : w'.pumps = w.pumps)
    (hclosed : w'.closedStops = w.closedStops) (hnext : w'.nextStop = w.nextStop)
    (hlinks : ∀ id : UInt32, w'.links[id]?.map FabricWireLink.registration =
      w.links[id]?.map FabricWireLink.registration) : w'.registry = w.registry := by
  ext1
  · funext id
    exact hlinks id
  · rw [registry, registry, hleg]
  · rw [registry, registry, hpumps]
  · rw [registry, registry, hclosed]
  · exact hnext

theorem registry_insert {w' : FabricWire} {link' : FabricWireLink} (hl : w.links[id]? = some link)
    (hw : w' = { w with links := w.links.insert id link' })
    (hr : link'.registration = link.registration) : w'.registry = w.registry := by
  subst hw
  refine registry_congr rfl rfl rfl rfl fun id' => ?_
  change (w.links.insert id link')[id']?.map _ = _
  rw [lookup_insert]
  split
  · next hid =>
    subst hid
    rw [hl, map_some, map_some, hr]
  · rfl

theorem registry_handleDatagram (w : FabricWire) (k : Kernel) (now : Int) (source : Addr)
    (datagram : Bytes) : (w.handleDatagram k now source datagram).1.registry = w.registry := by
  rcases w.handleDatagram_cases k now source datagram with
    ⟨hc, -⟩ | ⟨generation, body, session, -, hb, ha⟩
  · obtain ⟨f, hf⟩ := hc.links
    rw [hc.wire_eq]
    refine registry_congr rfl rfl rfl rfl fun id => ?_
    rw [hf id, map_map]
    rfl
  · rw [ha.wire_eq]
    refine registry_congr rfl rfl rfl rfl fun id => ?_
    rw [ha.links id]
    cases hl : w.links[id]? with
    | none => rfl
    | some link =>
      simp only [map_some, some.injEq]
      by_cases hp : link.peerAddr = source
      · have hrefresh : (refreshedLink source generation session link).registration =
            link.registration := by
          obtain ⟨reassembler, operUp, h⟩ := refreshedLink_eq source generation session link
          rw [h]
          rfl
        obtain ⟨deadline, counters, he⟩ := bodyLink_eq k now source generation session
          (w.handleDatagram k now source datagram).1.sessions body id hp
        rw [he]
        exact hrefresh
      · rw [bodyLink_foreign k hb hl hp]

theorem registry_tick (w : FabricWire) (k : Kernel) (now : Int) :
    (w.tick k now).1.registry = w.registry := by
  refine registry_congr rfl rfl rfl rfl fun id => ?_
  rw [lookup_tick, map_map]
  congr 1
  funext link
  exact registration_tickedLink w k now link

theorem registry_adoptPeerAddress (w : FabricWire) (k : Kernel) (linkID : UInt32)
    (address : Addr) : (w.adoptPeerAddress k linkID address).1.registry = w.registry := by
  unfold adoptPeerAddress
  split
  · rfl
  · next link hl =>
    split
    · rfl
    · exact registry_insert hl rfl (registration_applyLinkCarrierLocked k w.sessions
        { link with peerAddr := address, remoteOperUp := false })

theorem registry_observeLeg (w : FabricWire) (k : Kernel) (legIndex : Int) (operUp : Bool) :
    (w.observeLeg k legIndex operUp).1.registry = w.registry := by
  unfold observeLeg
  split
  · rfl
  · split
    · rfl
    · next link hl =>
      exact registry_insert hl rfl (registration_observeLegStateLocked k _ _ link operUp)

theorem registry_transmitFrame (w : FabricWire) (k : Kernel) (linkID : UInt32) (frame : Bytes) :
    (w.transmitFrame k linkID frame).1.registry = w.registry := by
  unfold transmitFrame
  split
  · rfl
  · next link hl =>
    split
    · exact registry_insert hl rfl rfl
    · dsimp only
      split
      · exact registry_insert hl rfl rfl
      · exact registry_insert hl rfl rfl

theorem registry_resolveDone (w : FabricWire) (linkID : UInt32) :
    (w.resolveDone linkID).registry = w.registry := by
  refine registry_congr rfl rfl rfl rfl fun id => ?_
  rw [resolveDone, lookup_updateLink]
  split
  · next hid =>
    subst hid
    rw [map_map]
    rfl
  · rfl

theorem registration_rehome (spec : FabricWireLinkSpec) (link : FabricWireLink) :
    (rehome spec link).registration = link.registration := by
  unfold rehome
  split <;> rfl

theorem entry_convergeLink (w : FabricWire) (k : Kernel) (spec : FabricWireLinkSpec)
    (link : FabricWireLink) (id : UInt32) : (w.convergeLink k spec link).wire.registry.entry id =
      if spec.linkID = id then some link.registration else w.registry.entry id := by
  change ((w.links.insert spec.linkID
    (applyLinkCarrierLocked k w.sessions (rehome spec _)).1)[id]?).map _ = _
  rw [lookup_insert]
  split
  · rw [map_some, registration_applyLinkCarrierLocked, registration_rehome]
    rfl
  · rfl

theorem registry_kept (k : Kernel) (hl : w.links[spec.linkID]? = some link) :
    (w.convergeLink k spec link).wire.registry = w.registry := by
  ext1
  · funext id
    rw [entry_convergeLink]
    split
    · next hid =>
      subst hid
      change _ = w.links[spec.linkID]?.map _
      rw [hl, map_some]
    · rfl
  all_goals rfl

theorem registry_startPump (w : FabricWire) (k : Kernel) (spec : FabricWireLinkSpec)
    (link : FabricWireLink) (hstop : link.stop = w.nextStop) :
    ((w.startPump spec.linkID link).convergeLink k spec link).wire.registry =
      w.registry.add spec.linkID link.legIndex link.packetFD := by
  ext1
  · funext id
    rw [entry_convergeLink, FabricWireLink.registration, hstop]
    rfl
  · funext leg
    exact lookup_insert w.byLeg link.legIndex leg spec.linkID
  · ext pump
    change pump ∈ w.pumps ++ [⟨_, _, _, link.stop⟩] ↔ pump = ⟨_, _, _, w.nextStop⟩ ∨ pump ∈ w.pumps
    rw [List.mem_append, List.mem_singleton, or_comm, hstop]
  · rfl
  · rfl

theorem removes_singleton {linkID : UInt32} (hl : w.links[linkID]? = some link) (id : UInt32)
    (r : Registration) :
    w.registry.Removes (· = linkID) id r ↔ id = linkID ∧ r = link.registration := by
  have hentry : w.registry.entry linkID = some link.registration := by
    change w.links[linkID]?.map _ = _
    rw [hl, map_some]
  constructor
  · rintro ⟨rfl, hr⟩
    exact ⟨rfl, some.inj (hr.symm.trans hentry)⟩
  · rintro ⟨rfl, rfl⟩
    exact ⟨rfl, hentry⟩

theorem registry_moved (k : Kernel) (hl : w.links[spec.linkID]? = some link)
    (legIndex packetFD : Int) (legOperUp : Bool) : (((w.tornDown link).startPump spec.linkID
      (w.movedLink k link legIndex legOperUp packetFD)).convergeLink k spec
        (w.movedLink k link legIndex legOperUp packetFD)).wire.registry =
      (w.registry.remove (· = spec.linkID)).add spec.linkID legIndex packetFD := by
  rw [registry_startPump (w.tornDown link) k spec _ rfl]
  ext1
  · funext id
    by_cases hid : spec.linkID = id
    · exact (if_pos hid).trans (if_pos hid).symm
    · refine (if_neg hid).trans (Eq.trans ?_ (if_neg hid).symm)
      exact (if_neg (Ne.symm hid)).symm
  · funext leg
    by_cases hleg : legIndex = leg
    · exact (if_pos hleg).trans (if_pos hleg).symm
    · refine (if_neg hleg).trans (Eq.trans ?_ (if_neg hleg).symm)
      have hiff : (∃ id r, w.registry.Removes (· = spec.linkID) id r ∧ r.legIndex = leg) ↔
          link.legIndex = leg := by
        simp only [removes_singleton hl]
        constructor
        · rintro ⟨id, r, ⟨-, rfl⟩, hr⟩
          exact hr
        · intro hr
          exact ⟨spec.linkID, link.registration, ⟨rfl, rfl⟩, hr⟩
      change (w.byLeg.erase link.legIndex)[leg]? = _
      simp only [lookup_erase, Registry.remove, hiff]
      rfl
  · rfl
  · ext stop
    change stop ∈ link.stop :: w.closedStops ↔ stop ∈ w.closedStops ∨ _
    simp only [List.mem_cons, Set.mem_ofPred_eq, removes_singleton hl]
    constructor
    · rintro (rfl | hc)
      · exact .inr ⟨spec.linkID, link.registration, ⟨rfl, rfl⟩, rfl⟩
      · exact .inl hc
    · rintro (hc | ⟨id, r, ⟨-, rfl⟩, rfl⟩)
      · exact .inr hc
      · exact .inl rfl
  · rfl

section Sweep

variable (w : FabricWire) (k : Kernel) (ownerPrefix : String) (keepOwners : List String)

def Sweeps (id : UInt32) : Prop :=
  ∃ link, w.links[id]? = some link ∧ swept ownerPrefix keepOwners link = true

theorem mem_sweptLinks (id : UInt32) (link : FabricWireLink) :
    (id, link) ∈ w.sweptLinks k ownerPrefix keepOwners ↔
      w.links[id]? = some link ∧ swept ownerPrefix keepOwners link = true := by
  rw [sweptLinks, List.mem_filter, mem_iterate]

theorem removes_sweeps (id : UInt32) (r : Registration) :
    w.registry.Removes (w.Sweeps ownerPrefix keepOwners) id r ↔
      ∃ link, (id, link) ∈ w.sweptLinks k ownerPrefix keepOwners ∧ r = link.registration := by
  constructor
  · rintro ⟨⟨link, hl, hs⟩, hr⟩
    change w.links[id]?.map _ = some r at hr
    rw [hl, map_some, some.injEq] at hr
    exact ⟨link, (mem_sweptLinks w k ownerPrefix keepOwners id link).mpr ⟨hl, hs⟩, hr.symm⟩
  · rintro ⟨link, hm, rfl⟩
    obtain ⟨hl, hs⟩ := (mem_sweptLinks w k ownerPrefix keepOwners id link).mp hm
    refine ⟨⟨link, hl, hs⟩, ?_⟩
    change w.links[id]?.map _ = _
    rw [hl, map_some]

theorem lookup_foldl_erase (removed : List (UInt32 × FabricWireLink)) (byLeg : GoMap Int UInt32)
    (leg : Int) : (removed.foldl (fun byLeg e => byLeg.erase e.2.legIndex) byLeg)[leg]? =
      if ∃ e ∈ removed, e.2.legIndex = leg then none else byLeg[leg]? := by
  induction removed generalizing byLeg with
  | nil => simp
  | cons e removed ih =>
    have hiff : (∃ e' ∈ e :: removed, e'.2.legIndex = leg) ↔
        e.2.legIndex = leg ∨ ∃ e' ∈ removed, e'.2.legIndex = leg := by simp
    rw [List.foldl_cons, ih, lookup_erase]
    by_cases he : e.2.legIndex = leg
    · simp [he]
    · simp only [hiff, he, false_or, if_false]

variable {w k ownerPrefix keepOwners}

theorem registry_sweepLinks (h : w.sweepLinks k ownerPrefix keepOwners = .ok outcome) :
    outcome.wire.registry = w.registry.remove (w.Sweeps ownerPrefix keepOwners) := by
  rw [sweepLinks_eq_ok h]
  ext1
  · funext id
    apply Option.ext
    intro r
    rw [Registry.entry_remove]
    change ((w.links.filter fun _ link => !swept ownerPrefix keepOwners link)[id]?).map _ =
      some r ↔ ¬ w.Sweeps ownerPrefix keepOwners id ∧ w.links[id]?.map _ = some r
    rw [ExtTreeMap.getElem?_filter', Sweeps]
    cases hl : w.links[id]? with
    | none => simp
    | some link => cases hs : swept ownerPrefix keepOwners link <;> simp [hs]
  · funext leg
    have hiff : (∃ id r, w.registry.Removes (w.Sweeps ownerPrefix keepOwners) id r ∧
        r.legIndex = leg) ↔ ∃ e ∈ w.sweptLinks k ownerPrefix keepOwners, e.2.legIndex = leg := by
      simp only [removes_sweeps w k]
      constructor
      · rintro ⟨id, r, ⟨link, hm, rfl⟩, hleg⟩
        exact ⟨(id, link), hm, hleg⟩
      · rintro ⟨⟨id, link⟩, hm, hleg⟩
        exact ⟨id, link.registration, ⟨link, hm, rfl⟩, hleg⟩
    change ((w.sweptLinks k ownerPrefix keepOwners).foldl
      (fun byLeg e => byLeg.erase e.2.legIndex) w.byLeg)[leg]? = _
    simp only [lookup_foldl_erase, Registry.remove, hiff]
    rfl
  · rfl
  · ext stop
    change stop ∈ (stopsOf (w.sweptLinks k ownerPrefix keepOwners)).reverse ++ w.closedStops ↔
      stop ∈ w.closedStops ∨ _
    simp only [List.mem_append, List.mem_reverse, stopsOf, List.mem_map, Set.mem_ofPred_eq,
      removes_sweeps w k]
    rw [or_comm]
    constructor
    · rintro (hc | ⟨⟨id, link⟩, hm, rfl⟩)
      · exact .inl hc
      · exact .inr ⟨id, link.registration, ⟨link, hm, rfl⟩, rfl⟩
    · rintro (hc | ⟨id, r, ⟨link, hm, rfl⟩, rfl⟩)
      · exact .inl hc
      · exact .inr ⟨(id, link), hm, rfl⟩
  · rfl

theorem sweepLinks_completes (h : w.registry.Sound) (k : Kernel) (ownerPrefix : String)
    (keepOwners : List String) :
    ∃ outcome, w.sweepLinks k ownerPrefix keepOwners = .ok outcome := by
  have hkeys : (w.sweptLinks k ownerPrefix keepOwners).Pairwise fun a b => a.1 ≠ b.1 :=
    (List.pairwise_map.mp (nodup_keys_iterate k.rank w.links)).sublist List.filter_sublist
  have hone : (stopsOf (w.sweptLinks k ownerPrefix keepOwners)).Nodup ∧
      ∀ stop ∈ stopsOf (w.sweptLinks k ownerPrefix keepOwners),
        stop ∉ (w.unpublished k ownerPrefix keepOwners).closedStops :=
    stops_closable h hkeys fun e hm => ((mem_sweptLinks w k ownerPrefix keepOwners e.1 e.2).mp hm).1
  rw [sweepLinks, foldlM_closeStop, if_pos hone]
  exact ⟨_, rfl⟩

end Sweep

/-- A registration that moves a link's leg does not fail to open its capture, one that succeeds
names no leg of another link, and a wire is closed with no link registered. -/
def RegistryStep (w : FabricWire) (call : FabricWireCall) : Prop :=
  match call.event with
  | .ensureLink spec => ∀ legIndex legOperUp outcome,
    call.kernel.legByName spec.legName = .ok (legIndex, legOperUp) →
    w.ensureLink call.kernel spec = .ok outcome →
    (∀ link cause, w.links[spec.linkID]? = some link → link.legIndex ≠ legIndex →
      outcome.error ≠ some (.openingCapture cause)) ∧
    (outcome.error = none → ∀ (id : UInt32) (link : FabricWireLink), w.links[id]? = some link →
      link.legIndex = legIndex → id = spec.linkID)
  | .close => w.closed = true ∨ ∀ id : UInt32, w.links[id]? = none
  | _ => True

variable {call : FabricWireCall}

theorem sound_ensureLink (he : call.event = .ensureLink spec) (h : w.registry.Sound)
    (hallow : RegistryStep w call) (hok : w.ensureLink call.kernel spec = .ok outcome) :
    outcome.wire.registry.Sound := by
  rw [RegistryStep, he] at hallow
  cases ensureLink_ensured hok with
  | refused error => exact h
  | stranded link legIndex legOperUp cause hleg hl hmoved _ _ =>
    exact absurd rfl ((hallow legIndex legOperUp _ hleg hok).1 link cause hl hmoved)
  | registered legIndex packetFD legOperUp _ hleg hl =>
    rw [registry_startPump w call.kernel spec _ rfl]
    have hnew : w.registry.entry spec.linkID = none := by
      change w.links[spec.linkID]?.map _ = none
      rw [hl, map_none]
    refine h.add hnew fun id r hr hrl => ?_
    obtain ⟨link, hlink, rfl⟩ := entry_registry.mp hr
    have hid := (hallow legIndex legOperUp _ hleg hok).2 rfl id link hlink hrl
    rw [hid, hl] at hlink
    cases hlink
  | moved link legIndex packetFD legOperUp _ hleg hl _ _ =>
    rw [registry_moved call.kernel hl]
    refine (h.remove _).add ?_ fun id r hr hrl => ?_
    · exact if_pos rfl
    · obtain ⟨hne, hr⟩ := (Registry.entry_remove _ id r).mp hr
      obtain ⟨other, hother, rfl⟩ := entry_registry.mp hr
      exact hne ((hallow legIndex legOperUp _ hleg hok).2 rfl id other hother hrl)
  | kept link hl _ =>
    rw [registry_kept call.kernel hl]
    exact h

theorem close_completes (h : w.registry.Sound) (k : Kernel) :
    ∃ outcome, w.close k = .ok outcome := by
  have hkeys := List.pairwise_map.mp (nodup_keys_iterate k.rank w.links)
  have hone := stops_closable h hkeys fun e hm => (mem_iterate k.rank w.links e.1 e.2).mp hm
  unfold close
  split
  · exact ⟨_, rfl⟩
  · rw [foldlM_closeStop, if_pos hone]
    exact ⟨_, rfl⟩

theorem registry_close {k : Kernel} (hok : w.close k = .ok outcome)
    (hallow : w.closed = true ∨ ∀ id : UInt32, w.links[id]? = none) :
    outcome.wire.registry = w.registry := by
  unfold close at hok
  split at hok
  · cases hok
    rfl
  · next hopen =>
    have hiter : w.links.iterate k.rank = [] := by
      apply List.eq_nil_iff_forall_not_mem.mpr
      rintro ⟨id, link⟩ hm
      rw [mem_iterate, hallow.resolve_left hopen id] at hm
      cases hm
    rw [hiter] at hok
    cases hok
    rfl

theorem sound_perform (h : w.registry.Sound) (hallow : RegistryStep w call)
    (hp : w.perform call = .ok outcome) : outcome.wire.registry.Sound := by
  unfold perform at hp
  dsimp only at hp
  split at hp
  · next spec he => exact sound_ensureLink he h hallow hp
  · rw [registry_sweepLinks hp]
    exact h.remove _
  · cases hp
    rw [registry_handleDatagram]
    exact h
  · cases hp
    rw [registry_tick]
    exact h
  · cases hp
    rw [registry_adoptPeerAddress]
    exact h
  · cases hp
    rw [registry_resolveDone]
    exact h
  · cases hp
    rw [registry_observeLeg]
    exact h
  · cases hp
    rw [registry_transmitFrame]
    exact h
  · next he =>
    rw [RegistryStep, he] at hallow
    rw [registry_close hp hallow]
    exact h

theorem step_ne_closeOfClosedChannel (h : w.registry.Sound) (call : FabricWireCall) :
    w.step call ≠ .error .closeOfClosedChannel := by
  have hperform : ∀ panic, w.perform call ≠ .error panic := by
    intro panic hp
    unfold perform at hp
    dsimp only at hp
    split at hp
    case h_1 =>
      obtain ⟨link, hl, hstop⟩ := ensureLink_error hp
      exact (h.running _ _ (entry_registry.mpr ⟨link, hl, rfl⟩)).2 hstop
    case h_2 ownerPrefix keepOwners _ =>
      obtain ⟨outcome, ho⟩ := sweepLinks_completes h call.kernel ownerPrefix keepOwners
      rw [ho] at hp
      cases hp
    case h_9 =>
      obtain ⟨outcome, ho⟩ := close_completes h call.kernel
      rw [ho] at hp
      cases hp
    all_goals cases hp
  intro hs
  unfold step at hs
  split at hs
  · next panic hp => exact hperform panic hp
  · split at hs <;> cases hs

theorem ensureLink_error_unchanged (he : call.event = .ensureLink spec)
    (hallow : RegistryStep w call) (hok : w.step call = .ok outcome) (herr : outcome.error ≠ none) :
    outcome.wire = w := by
  have hp := perform_of_step hok
  unfold perform at hp
  rw [he] at hp
  rw [RegistryStep, he] at hallow
  cases ensureLink_ensured hp with
  | refused error => rfl
  | stranded link legIndex legOperUp cause hleg hl hmoved _ _ =>
    exact absurd rfl ((hallow legIndex legOperUp _ hleg hp).1 link cause hl hmoved)
  | registered | moved | kept => exact absurd rfl herr

theorem sound_run {config : FabricWireConfig} {generation : UInt64} {start : FabricWire}
    (hstart : newFabricWire config generation = .ok start) (calls : List FabricWireCall)
    (hallow : RunMeets next start RegistryStep calls) (w : FabricWire)
    (hrun : run next start calls = some w) : w.registry.Sound := by
  refine run_invariant (P := fun _ w => w.registry.Sound) ?_ ?_ calls w hallow hrun
  · obtain rfl := newFabricWire_eq_ok hstart
    constructor <;> simp [registry]
  · intro events w call w' _ h hstep hn
    obtain ⟨outcome, ho, rfl⟩ := map_eq_some_iff.mp hn
    exact sound_perform h hstep (perform_of_step (step_eq_ok ho))

end FabricWire

/-- As long as no allowed operation is left half done, every registered link has a running pump, no
channel is closed twice and a failed registration changes nothing. -/
theorem registry_survives (config : FabricWireConfig) (generation : UInt64) (start : FabricWire)
    (hstart : newFabricWire config generation = .ok start) (calls : List FabricWireCall)
    (hallow : RunMeets next start FabricWire.RegistryStep calls) (w : FabricWire)
    (hrun : run next start calls = some w) :
    (∀ (id : UInt32) (link : FabricWireLink), w.links[id]? = some link →
      ⟨id, link.legIndex, link.packetFD, link.stop⟩ ∈ w.pumps ∧ link.stop ∉ w.closedStops) ∧
    (∀ (leg : Int) (id : UInt32), w.byLeg[leg]? = some id ↔
      ∃ link, w.links[id]? = some link ∧ link.legIndex = leg) ∧
    (∀ call, w.step call ≠ .error .closeOfClosedChannel) ∧
    ∀ call spec outcome, call.event = .ensureLink spec → w.RegistryStep call →
      w.step call = .ok outcome → outcome.error ≠ none → outcome.wire = w := by
  have h := sound_run hstart calls hallow w hrun
  refine ⟨?_, ?_, step_ne_closeOfClosedChannel h, ?_⟩
  · intro id link hl
    exact h.running id link.registration (entry_registry.mpr ⟨link, hl, rfl⟩)
  · intro leg id
    refine (h.indexed leg id).trans ⟨?_, ?_⟩
    · rintro ⟨r, hr, hleg⟩
      obtain ⟨link, hl, rfl⟩ := entry_registry.mp hr
      exact ⟨link, hl, hleg⟩
    · rintro ⟨link, hl, hleg⟩
      exact ⟨link.registration, entry_registry.mpr ⟨link, hl, rfl⟩, hleg⟩
  · intro call spec outcome he hstep hok herr
    exact ensureLink_error_unchanged he hstep hok herr

def exhaustedKernel (clock legIndex : Int) (operUp : Bool) : Kernel :=
  { healthyKernel clock legIndex operUp with
    openCapture _ := .error "opening fabric wire capture: too many open files" }

def registerCall (kernel : Kernel) : FabricWireCall :=
  ⟨kernel, .ensureLink ⟨1, "pod/a", "leg", "peer", .v4 9, 1500⟩⟩

def strandedCalls : List FabricWireCall :=
  [registerCall (healthyKernel 0 2 true), registerCall (exhaustedKernel 1 3 true)]

def closedCalls : List FabricWireCall :=
  [registerCall (healthyKernel 0 2 true), ⟨healthyKernel 1 2 true, .close⟩]

def sweepCall : FabricWireCall := ⟨healthyKernel 2 2 true, .sweepLinks "pod/" []⟩

def sharedCalls : List FabricWireCall :=
  [registerCall (healthyKernel 0 2 true),
    ⟨healthyKernel 1 2 true, .ensureLink ⟨2, "pod/b", "leg", "peer", .v4 9, 1500⟩⟩]

/-- A failed move and a closed wire leave a link with a closed channel, which the next sweep closes
again; links that share a leg share its index entry. -/
theorem halfDone_not_sound :
    (∀ calls ∈ [strandedCalls, closedCalls],
      ∃ w, run next unregisteredWire calls = some w ∧
        (∃ link, w.links[(1 : UInt32)]? = some link ∧ link.stop ∈ w.closedStops) ∧
        w.step sweepCall = .error .closeOfClosedChannel) ∧
    (∃ w, run next unregisteredWire strandedCalls = some w ∧
      (∃ link, w.links[(1 : UInt32)]? = some link ∧ link.legIndex = 2) ∧
      w.byLeg[(2 : Int)]? = none) ∧
    ∃ w, run next unregisteredWire sharedCalls = some w ∧
      (∃ link, w.links[(1 : UInt32)]? = some link ∧ link.legIndex = 2) ∧
      w.byLeg[(2 : Int)]? = some 2 := by
  refine ⟨?_, ?_, ?_⟩ <;> decide +kernel

/-- A link that is registered and swept. -/
theorem registry_survives_sample :
    ∃ w, run next unregisteredWire
        [registerCall (healthyKernel 0 2 true), sweepCall] = some w ∧
      ∀ call, w.step call ≠ .error .closeOfClosedChannel := by
  obtain ⟨w, hw⟩ : ∃ w, run next unregisteredWire
      [registerCall (healthyKernel 0 2 true), sweepCall] = some w := by
    decide +kernel
  refine ⟨w, hw, (registry_survives ⟨.v4 8, 1200⟩ 7 unregisteredWire rfl _ ?_ w hw).2.2.1⟩
  apply runMeets_cons
  · intro legIndex legOperUp outcome _ _
    constructor
    · intro link cause hl
      simp [unregisteredWire] at hl
    · intro _ id link hl
      simp [unregisteredWire] at hl
  · intro w₁ _
    exact runMeets_cons trivial fun _ _ => runMeets_nil

end Clabernetes.Wire
