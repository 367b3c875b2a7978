import Clabernetes.Wire.Engine

/-!
# Link registry

`internal/directruntime/wire_linux.go:231-380`: registration, sweep and close, with the capture
pumps they start and the stop channels they close.
-/

namespace Clabernetes.Wire

open Base Std List

namespace FabricWire

def closeStop (w : FabricWire) (stop : Nat) : Except FabricWirePanic FabricWire :=
  if stop ∈ w.closedStops then .error .closeOfClosedChannel
  else .ok { w with closedStops := stop :: w.closedStops }

def startPump (w : FabricWire) (linkID : UInt32) (link : FabricWireLink) : FabricWire :=
  { w with
    byLeg := w.byLeg.insert link.legIndex linkID
    pumps := w.pumps ++ [⟨linkID, link.legIndex, link.packetFD, link.stop⟩]
    nextStop := w.nextStop + 1 }

def rehome (spec : FabricWireLinkSpec) (link : FabricWireLink) : FabricWireLink :=
  if spec.peerAddress.isValid && spec.peerAddress != link.peerAddr then
    { link with peerAddr := spec.peerAddress.unmap }
  else link

def convergeLink (w : FabricWire) (k : Kernel) (spec : FabricWireLinkSpec)
    (link : FabricWireLink) : Outcome :=
  let link := { link with
    owner := spec.owner
    legName := spec.legName
    peerTransport := spec.peerTransport
    mtu := spec.mtu }
  let (link, effects) := applyLinkCarrierLocked k w.sessions (rehome spec link)
  { wire := { w with links := w.links.insert spec.linkID link }, effects }

def newLink (w : FabricWire) (k : Kernel) (linkID : UInt32) (legIndex : Int) (legOperUp : Bool)
    (packetFD : Int) : FabricWireLink :=
  { linkID, legIndex, packetFD, lastLocalUp := legOperUp
    settleUntil := k.clock + fabricWireCarrierSettleWindow
    stop := w.nextStop }

def movedLink (w : FabricWire) (k : Kernel) (link : FabricWireLink) (legIndex : Int)
    (legOperUp : Bool) (packetFD : Int) : FabricWireLink :=
  { link with
    legIndex, packetFD
    stop := w.nextStop
    forcedDown := false
    lastLocalUp := legOperUp
    settleUntil := k.clock + fabricWireCarrierSettleWindow }

def ensureLink (w : FabricWire) (k : Kernel) (spec : FabricWireLinkSpec) :
    Except FabricWirePanic Outcome :=
  if spec.linkID = 0 ∨ spec.legName = "" ∨ spec.owner = "" ∨ spec.mtu < 1 then
    .ok { wire := w, error := some .incomplete }
  else match k.legByName spec.legName with
  | .error cause => .ok { wire := w, error := some (.readingLeg spec.legName cause) }
  | .ok (legIndex, legOperUp) =>
    if w.closed then .ok { wire := w, error := some .wireClosed }
    else match w.links[spec.linkID]? with
    | none =>
      match k.openCapture legIndex with
      | .error cause => .ok { wire := w, error := some (.openingCapture cause) }
      | .ok packetFD =>
        let link := w.newLink k spec.linkID legIndex legOperUp packetFD
        .ok ((w.startPump spec.linkID link).convergeLink k spec link)
    | some link =>
      if link.legIndex ≠ legIndex then
        -- the old pump is torn down before the new capture can fail
        match { w with byLeg := w.byLeg.erase link.legIndex }.closeStop link.stop with
        | .error panic => .error panic
        | .ok w =>
          match k.openCapture legIndex with
          | .error cause => .ok { wire := w, error := some (.openingCapture cause) }
          | .ok packetFD =>
            let link := w.movedLink k link legIndex legOperUp packetFD
            .ok ((w.startPump spec.linkID link).convergeLink k spec link)
      else .ok (w.convergeLink k spec link)

def swept (ownerPrefix : String) (keepOwners : List String) (link : FabricWireLink) : Bool :=
  !keepOwners.contains link.owner && ownerPrefix.toList.isPrefixOf link.owner.toList

def sweepSessions (w : FabricWire) (k : Kernel) : FabricWire :=
  { w with
    sessions := w.sessions.filter fun remote session =>
      w.sessionReferencedLocked remote ||
        decide (k.clock - session.lastHeard ≤ fabricWireSessionTimeout) }

def stopsOf (links : List (UInt32 × FabricWireLink)) : List Nat := links.map fun e => e.2.stop

def sweptLinks (w : FabricWire) (k : Kernel) (ownerPrefix : String) (keepOwners : List String) :
    List (UInt32 × FabricWireLink) :=
  (w.links.iterate k.rank).filter fun e => swept ownerPrefix keepOwners e.2

def unpublished (w : FabricWire) (k : Kernel) (ownerPrefix : String) (keepOwners : List String) :
    FabricWire :=
  { w with
    links := w.links.filter fun _ link => !swept ownerPrefix keepOwners link
    byLeg := (w.sweptLinks k ownerPrefix keepOwners).foldl
      (fun byLeg e => byLeg.erase e.2.legIndex) w.byLeg }

def sweepLinks (w : FabricWire) (k : Kernel) (ownerPrefix : String)
    (keepOwners : List String) : Except FabricWirePanic Outcome :=
  match (stopsOf (w.sweptLinks k ownerPrefix keepOwners)).foldlM closeStop
    (w.unpublished k ownerPrefix keepOwners) with
  | .error panic => .error panic
  | .ok w => .ok { wire := w.sweepSessions k }

def close (w : FabricWire) (k : Kernel) : Except FabricWirePanic Outcome :=
  if w.closed then .ok { wire := w }
  else
    match (stopsOf (w.links.iterate k.rank)).foldlM closeStop { w with closed := true } with
    | .error panic => .error panic
    | .ok w => .ok { wire := w }

def tornDown (w : FabricWire) (link : FabricWireLink) : FabricWire :=
  { w with
    byLeg := w.byLeg.erase link.legIndex
    closedStops := link.stop :: w.closedStops }

inductive Ensured (w : FabricWire) (k : Kernel) (spec : FabricWireLinkSpec) : Outcome → Prop
  | refused (error : EnsureLinkError) : Ensured w k spec { wire := w, error := some error }
  | stranded (link : FabricWireLink) (legIndex : Int) (legOperUp : Bool) (cause : String)
      (hleg : k.legByName spec.legName = .ok (legIndex, legOperUp))
      (hl : w.links[spec.linkID]? = some link) (hmoved : link.legIndex ≠ legIndex)
      (hstop : link.stop ∉ w.closedStops) (hopen : k.openCapture legIndex = .error cause) :
      Ensured w k spec { wire := w.tornDown link, error := some (.openingCapture cause) }
  | registered (legIndex packetFD : Int) (legOperUp : Bool) (hopen : ¬ w.closed)
      (hleg : k.legByName spec.legName = .ok (legIndex, legOperUp))
      (hl : w.links[spec.linkID]? = none) :
      Ensured w k spec
        ((w.startPump spec.linkID
          (w.newLink k spec.linkID legIndex legOperUp packetFD)).convergeLink k spec
            (w.newLink k spec.linkID legIndex legOperUp packetFD))
  | moved (link : FabricWireLink) (legIndex packetFD : Int) (legOperUp : Bool)
      (hopen : ¬ w.closed) (hleg : k.legByName spec.legName = .ok (legIndex, legOperUp))
      (hl : w.links[spec.linkID]? = some link) (hmoved : link.legIndex ≠ legIndex)
      (hstop : link.stop ∉ w.closedStops) :
      Ensured w k spec
        (((w.tornDown link).startPump spec.linkID
          (w.movedLink k link legIndex legOperUp packetFD)).convergeLink k spec
            (w.movedLink k link legIndex legOperUp packetFD))
  | kept (link : FabricWireLink) (hl : w.links[spec.linkID]? = some link) (hopen : ¬ w.closed) :
      Ensured w k spec (w.convergeLink k spec link)

variable {w : FabricWire} {outcome : Outcome} {k : Kernel}

theorem ensureLink_ensured {spec : FabricWireLinkSpec} (h : w.ensureLink k spec = .ok outcome) :
    Ensured w k spec outcome := by
  unfold ensureLink at h
  split at h
  · cases h
    exact .refused _
  split at h
  · cases h
    exact .refused _
  next legIndex legOperUp hleg =>
  split at h
  · cases h
    exact .refused _
  next hclosed =>
  split at h
  · next hl =>
    split at h
    · cases h
      exact .refused _
    · next packetFD _ =>
      cases h
      exact .registered legIndex packetFD legOperUp hclosed hleg hl
  · next link hl =>
    split at h
    · next hmoved =>
      unfold closeStop at h
      by_cases hstop : link.stop ∈ w.closedStops
      · simp only [hstop, if_true] at h
        cases h
      · simp only [hstop, if_false] at h
        split at h
        · next cause hopen =>
          cases h
          exact .stranded link legIndex legOperUp cause hleg hl hmoved hstop hopen
        · next packetFD _ =>
          cases h
          exact .moved link legIndex packetFD legOperUp hclosed hleg hl hmoved hstop
    · cases h
      exact .kept link hl hclosed

theorem ensureLink_error {spec : FabricWireLinkSpec} {panic : FabricWirePanic}
    (h : w.ensureLink k spec = .error panic) :
    ∃ link, w.links[spec.linkID]? = some link ∧ link.stop ∈ w.closedStops := by
  unfold ensureLink at h
  split at h
  · cases h
  split at h
  · cases h
  split at h
  · cases h
  split at h
  · split at h <;> cases h
  · next link hl =>
    split at h
    · unfold closeStop at h
      by_cases hstop : link.stop ∈ w.closedStops
      · exact ⟨link, hl, hstop⟩
      · simp only [hstop, if_false] at h
        split at h <;> cases h
    · cases h

theorem foldlM_closeStop (stops : List Nat) (w : FabricWire) : stops.foldlM closeStop w =
      if stops.Nodup ∧ ∀ stop ∈ stops, stop ∉ w.closedStops then
        .ok { w with closedStops := stops.reverse ++ w.closedStops }
      else .error .closeOfClosedChannel := by
  induction stops generalizing w with
  | nil => simp [pure, Except.pure]
  | cons stop stops ih =>
    rw [foldlM_cons, closeStop]
    split
    · next hc =>
      rw [if_neg (by simp [hc])]
      rfl
    · next hc =>
      change stops.foldlM closeStop { w with closedStops := stop :: w.closedStops } = _
      rw [ih]
      have hiff : (stops.Nodup ∧ ∀ s ∈ stops, s ∉ stop :: w.closedStops) ↔
          ((stop :: stops).Nodup ∧ ∀ s ∈ stop :: stops, s ∉ w.closedStops) := by
        simp only [nodup_cons, mem_cons, not_or, forall_eq_or_imp]
        constructor
        · rintro ⟨hn, h⟩
          exact ⟨⟨fun hm => (h stop hm).1 rfl, hn⟩, hc, fun s hs => (h s hs).2⟩
        · rintro ⟨⟨hm, hn⟩, -, h⟩
          exact ⟨hn, fun s hs => ⟨fun he => hm (he ▸ hs), h s hs⟩⟩
      simp only [hiff, reverse_cons, append_assoc, singleton_append]

theorem foldlM_closeStop_eq_ok {stops : List Nat} {w' : FabricWire}
    (h : stops.foldlM closeStop w = .ok w') :
    w' = { w with closedStops := stops.reverse ++ w.closedStops } := by
  rw [foldlM_closeStop] at h
  split at h
  · exact (Except.ok.inj h).symm
  · cases h

theorem sweepLinks_eq_ok {ownerPrefix : String} {keepOwners : List String}
    (h : w.sweepLinks k ownerPrefix keepOwners = .ok outcome) :
    outcome = { wire := ({ w.unpublished k ownerPrefix keepOwners with
      closedStops := (stopsOf (w.sweptLinks k ownerPrefix keepOwners)).reverse ++
        w.closedStops }).sweepSessions k } := by
  unfold sweepLinks at h
  split at h
  · cases h
  · next w' hw' =>
    cases h
    rw [foldlM_closeStop_eq_ok hw']
    rfl

theorem close_eq_ok (h : w.close k = .ok outcome) :
    outcome = { wire := w } ∨ outcome = { wire := { w with
      closed := true
      closedStops := (stopsOf (w.links.iterate k.rank)).reverse ++ w.closedStops } } := by
  unfold close at h
  split at h
  · exact .inl (Except.ok.inj h).symm
  · split at h
    · cases h
    · next w' hw' =>
      cases h
      rw [foldlM_closeStop_eq_ok hw']
      exact .inr rfl

theorem lookup_sweepSessions (w : FabricWire) (k : Kernel) (id : UInt32) (link : FabricWireLink)
    (hl : w.links[id]? = some link) :
    (w.sweepSessions k).sessions[link.peerAddr]? = w.sessions[link.peerAddr]? := by
  have hr : w.sessionReferencedLocked link.peerAddr = true :=
    (w.sessionReferencedLocked_iff link.peerAddr).mpr ⟨id, link, hl, rfl⟩
  simp only [sweepSessions, ExtTreeMap.getElem?_filter', hr, Bool.true_or]
  cases w.sessions[link.peerAddr]? <;> rfl

end FabricWire

end Clabernetes.Wire
