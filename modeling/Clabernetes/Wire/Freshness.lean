import Clabernetes.Wire.Operations

/-!
# Freshness of carrier knowledge

Whether a link that is recorded up was advertised up by the peer it is bound to, in that peer's
current generation. `adoptPeerAddress` and `resetPeerLinksLocked` clear the record; re-homing in
`EnsureLink` (`internal/directruntime/wire_linux.go:342-345`) and the session timeout (`:1005-1010`)
do not, so the law needs a condition on them.
-/

namespace Clabernetes.Wire

open Base Std Option FabricWire

namespace FabricWire

variable (calls : List FabricWireCall)

def Advertised (source : Addr) (generation : UInt64) (id : UInt32) : Prop :=
  ∃ call ∈ calls, ∃ now bytes states, call.event = .datagram now source bytes ∧
    parseDatagram bytes = some (generation, .linkStates states) ∧ ⟨id, true⟩ ∈ states

/-- Every link recorded up was advertised up by its present peer in the generation its
session holds. -/
def Fresh (w : FabricWire) : Prop :=
  ∀ (id : UInt32) (link : FabricWireLink), w.links[id]? = some link →
    link.remoteOperUp = true →
    ∃ session, w.sessions[link.peerAddr]? = some session ∧
      Advertised calls link.peerAddr session.generation id

/-- No registration moves a link that is recorded up, and no datagram that is accepted revives a
session that forgot its generation in another one while a link of that peer is recorded up. -/
def FreshStep (w : FabricWire) (call : FabricWireCall) : Prop :=
  match call.event with
  | .ensureLink _ => ∀ link, w.Moves call link → link.remoteOperUp = false
  | .datagram now source bytes => ∀ session generation body, w.sessions[source]? = some session →
    session.generationKnown = false → parseDatagram bytes = some (generation, body) →
    session.generation ≠ generation → w.AcceptsBody now source generation body session →
    ∀ (id : UInt32) (link : FabricWireLink), w.links[id]? = some link →
      link.peerAddr = source → link.remoteOperUp = false
  | _ => True

def advertises (source : Addr) (generation : UInt64) (id : UInt32) (call : FabricWireCall) : Bool :=
  match call.event with
  | .datagram _ sender bytes =>
    match parseDatagram bytes with
    | some (sent, .linkStates states) =>
      sender == source && sent == generation && states.contains ⟨id, true⟩
    | _ => false
  | _ => false

theorem advertised_iff (source : Addr) (generation : UInt64)
    (id : UInt32) :
    Advertised calls source generation id ↔ calls.any (advertises source generation id) = true := by
  rw [List.any_eq_true]
  constructor
  · rintro ⟨call, hmem, now, bytes, states, he, hp, hs⟩
    refine ⟨call, hmem, ?_⟩
    simp [advertises, he, hp, hs]
  · rintro ⟨call, hmem, h⟩
    unfold advertises at h
    split at h
    · next now sender bytes he =>
      split at h
      · next sent states hp =>
        simp only [Bool.and_eq_true, beq_iff_eq, List.contains_iff_mem] at h
        obtain ⟨⟨rfl, rfl⟩, hs⟩ := h
        exact ⟨call, hmem, now, bytes, states, he, hp, hs⟩
      · cases h
    · cases h

instance (calls : List FabricWireCall) (source : Addr) (generation : UInt64) (id : UInt32) :
    Decidable (Advertised calls source generation id) :=
  decidable_of_iff _ (advertised_iff calls source generation id).symm

variable {calls : List FabricWireCall} {generation : UInt64} {w : FabricWire} {id : UInt32}

theorem Advertised.append {source : Addr} (h : Advertised calls source generation id)
    (call : FabricWireCall) : Advertised (calls ++ [call]) source generation id := by
  obtain ⟨c, hc, h⟩ := h
  exact ⟨c, List.mem_append_left _ hc, h⟩

theorem advertisedUp_eq_true {states : List FabricWireLinkState} {operUp : Bool}
    (h : advertisedUp states id operUp = true) : operUp = true ∨ ⟨id, true⟩ ∈ states := by
  induction states generalizing operUp with
  | nil => exact .inl h
  | cons state states ih =>
    rcases ih h with hs | hs
    · dsimp only at hs
      split at hs
      · right
        cases state
        simp_all
      · exact .inl hs
    · exact .inr (List.mem_cons_of_mem _ hs)

theorem bodyRemote_eq_true {body : Body} {operUp : Bool} (h : bodyRemote body id operUp = true) :
    operUp = true ∨ ∃ states, body = .linkStates states ∧ ⟨id, true⟩ ∈ states := by
  cases body with
  | data fragment => exact .inl h
  | heartbeat => exact .inl h
  | linkStates states => exact (advertisedUp_eq_true h).imp_right fun hs => ⟨states, rfl, hs⟩

theorem refreshedLink_remoteOperUp_eq_true {source : Addr} {session : FabricWireSession}
    {link : FabricWireLink} (hp : link.peerAddr = source)
    (h : (refreshedLink source generation session link).remoteOperUp = true) :
    link.remoteOperUp = true ∧
      (session.generation = generation ∨ session.generationKnown = false) := by
  rw [refreshedLink, if_pos hp] at h
  split at h
  · cases h
  · next hd =>
    refine ⟨h, ?_⟩
    by_cases hk : session.generationKnown = true
    · left
      by_contra hne
      exact hd ⟨hk, hne⟩
    · exact .inr (Bool.eq_false_iff.mpr hk)

theorem Fresh.next {w' : FabricWire} {call : FabricWireCall} (h : Fresh calls w)
    (hallow : FreshStep w call) (hn : w.next call = some w') : Fresh (calls ++ [call]) w' := by
  intro id link' hl' hup
  cases next_linkStep hn hl' with
  | created hr _ =>
    rw [hr] at hup
    cases hup
  | kept link hl hsame hs =>
    obtain ⟨session, hses, hadv⟩ := h id link hl (hsame.remoteOperUp ▸ hup)
    rw [hsame.peerAddr]
    exact ⟨session, hs.trans hses, hadv.append call⟩
  | heard link now bytes generation body session hl he hparse hb hp hr _ hs =>
    rw [hp]
    refine ⟨_, hs, ?_⟩
    rw [hr] at hup
    rcases bodyRemote_eq_true hup with hrec | ⟨states, rfl, hmem⟩
    · -- the record is older than the datagram: it must be of the same generation
      obtain ⟨hold, hgen⟩ := refreshedLink_remoteOperUp_eq_true rfl hrec
      obtain ⟨recorded, hses, hadv⟩ := h id link hl hold
      have hfor : w.sessionFor link.peerAddr = some recorded := by rw [sessionFor, hses]
      have hsession : session = recorded := some.inj (hb.accepts.1.symm.trans hfor)
      subst hsession
      have hsame : session.generation = generation := by
        rcases hgen with hgen | hforgot
        · exact hgen
        · by_contra hne
          rw [FreshStep, he] at hallow
          have hdown := hallow session generation body hses hforgot hparse hne hb id link hl rfl
          rw [hold] at hdown
          cases hdown
      exact hsame ▸ hadv.append call
    · exact ⟨call, by simp, now, bytes, states, he, hparse, hmem⟩
  | ticked link now hl _ hp hr _ hs =>
    obtain ⟨session, hses, hadv⟩ := h id link hl (hr ▸ hup)
    rw [hp, hs, hses]
    refine ⟨_, rfl, ?_⟩
    have hgen : (expireSession now session).generation = session.generation := by
      unfold expireSession
      split <;> rfl
    rw [hgen]
    exact hadv.append call
  | rehomed link spec hl he _ _ hne hr _ =>
    rw [FreshStep, he] at hallow
    rw [hr, hallow link ⟨w', id, link', hn, hl, hl', hne⟩] at hup
    cases hup
  | adopted link address _ _ _ _ hr _ =>
    rw [hr] at hup
    cases hup

theorem fresh_newFabricWire {config : FabricWireConfig}
    (h : newFabricWire config generation = .ok w) : Fresh [] w := by
  intro id link hl
  rw [newFabricWire_eq_ok h] at hl
  simp at hl

end FabricWire

open FabricWire in
/-- In every run whose steps are allowed by `FreshStep`, a link recorded up was advertised up
by the peer it is bound to, in the generation that peer's session holds. -/
theorem remoteOperUp_fresh (config : FabricWireConfig) (generation : UInt64)
    (start : FabricWire) (hstart : newFabricWire config generation = .ok start)
    (calls : List FabricWireCall) (hallow : RunMeets next start FreshStep calls)
    (w : FabricWire) (hrun : run next start calls = some w) : Fresh calls w := by
  refine run_invariant (fresh_newFabricWire hstart) ?_ calls w hallow hrun
  intro events s call s' _ hs ha hn
  exact hs.next ha hn

/-- A peer is heard, the link is registered again with another peer host, and that host
only sends a heartbeat. -/
def rehomedCalls : List FabricWireCall :=
  [⟨healthyKernel 0 2 true, .ensureLink ⟨1, "pod/a", "leg", "peer", .v4 9, 1500⟩⟩,
    ⟨healthyKernel 1 2 true, .datagram 1 (.v4 9) (encodeFabricWireLinkStates 5 [⟨1, true⟩])⟩,
    ⟨healthyKernel 2 2 true, .ensureLink ⟨1, "pod/a", "leg", "peer", .v4 10, 1500⟩⟩,
    ⟨healthyKernel 3 2 true, .datagram 3 (.v4 10) (encodeFabricWireHeartbeat 6)⟩]

/-- A peer advertises the link, falls silent past the session timeout and comes back as a new
process that only sends a heartbeat. -/
def restartedCalls : List FabricWireCall :=
  [⟨healthyKernel 0 2 true, .ensureLink ⟨1, "pod/a", "leg", "peer", .v4 9, 1500⟩⟩,
    ⟨healthyKernel 1 2 true, .datagram 1 (.v4 9) (encodeFabricWireLinkStates 5 [⟨1, true⟩])⟩,
    ⟨healthyKernel 0 2 true, .tick (10 * second)⟩,
    ⟨healthyKernel 0 2 true, .datagram (11 * second) (.v4 9) (encodeFabricWireHeartbeat 6)⟩]

theorem not_fresh_of_raised {calls : List FabricWireCall}
    (h : ∃ w, run next unregisteredWire calls = some w ∧ ∃ link,
      w.links[(1 : UInt32)]? = some link ∧ link.lastLocalUp = true ∧ link.forcedDown = false ∧
      link.remoteOperUp = true ∧ ∃ session, w.sessions[link.peerAddr]? = some session ∧
        ¬FabricWire.Advertised calls link.peerAddr session.generation 1) :
    ∃ w link, run next unregisteredWire calls = some w ∧ w.links[(1 : UInt32)]? = some link ∧
      link.lastLocalUp = true ∧ link.forcedDown = false ∧ ¬FabricWire.Fresh calls w := by
  obtain ⟨w, hrun, link, hl, hlocal, hforced, hup, session, hs, hnot⟩ := h
  refine ⟨w, link, hrun, hl, hlocal, hforced, fun hfresh => ?_⟩
  obtain ⟨same, hsame, hadvertised⟩ := hfresh 1 link hl hup
  rw [hs] at hsame
  cases hsame
  exact hnot hadvertised

/-- Neither run is fresh: both end with the leg raised on a record that the present peer
process never made. -/
theorem raised_not_fresh :
    (∃ w link, run next unregisteredWire rehomedCalls = some w ∧
      w.links[(1 : UInt32)]? = some link ∧ link.lastLocalUp = true ∧ link.forcedDown = false ∧
      ¬ FabricWire.Fresh rehomedCalls w) ∧
    ∃ w link, run next unregisteredWire restartedCalls = some w ∧
      w.links[(1 : UInt32)]? = some link ∧ link.lastLocalUp = true ∧ link.forcedDown = false ∧
      ¬ FabricWire.Fresh restartedCalls w :=
  ⟨not_fresh_of_raised (by decide +kernel), not_fresh_of_raised (by decide +kernel)⟩

theorem unheard_registered {w : FabricWire} (h : next unregisteredWire
    ⟨healthyKernel 0 2 true, .ensureLink ⟨1, "pod/a", "leg", "peer", .v4 9, 1500⟩⟩ = some w) :
    w.sessions[Addr.v4 9]? = none := by
  cases h
  decide +kernel

/-- The first two steps of those runs carry nothing over. -/
theorem remoteOperUp_fresh_sample :
    ∃ w, run next unregisteredWire (rehomedCalls.take 2) = some w ∧
      FabricWire.Fresh (rehomedCalls.take 2) w := by
  obtain ⟨w, hrun⟩ : ∃ w, run next unregisteredWire (rehomedCalls.take 2) = some w := by
    decide +kernel
  refine ⟨w, hrun, remoteOperUp_fresh ⟨.v4 8, 1200⟩ 7 unregisteredWire rfl _ ?_ w hrun⟩
  apply runMeets_cons
  · rintro link ⟨_, _, _, -, hl, -⟩
    simp [unregisteredWire] at hl
  · intro w₁ hw₁
    refine runMeets_cons ?_ fun _ _ => runMeets_nil
    -- no session can have forgotten a generation
    intro session generation body hs
    rw [unheard_registered hw₁] at hs
    cases hs

end Clabernetes.Wire
