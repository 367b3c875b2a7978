import Mathlib.Data.Finset.Dedup
import Mathlib.Data.Finset.Order
import Clabernetes.Wire.Advertising
import Clabernetes.Wire.Carrier
import Clabernetes.Wire.Fencing

/-!
# Convergence of the carrier protocol

Two sidecars that share links, in rounds: both tick, and what a tick sent to the other side arrives.
`CarrierPair` is the protocol of one link without its sessions, codecs and deadlines; a round of two
engines (`internal/directruntime/wire_linux.go:721-861`, `:918-944`, `:976-1065`) is one of its
rounds once both sides accept each other's generation.
-/

namespace Clabernetes.Wire

open Base Std List Option FabricWire

/-- Both ends of a link: what each side last observed of its device, and whether it holds its
leg down. -/
@[ext]
structure CarrierPair where
  leftUp : Bool
  leftForced : Bool
  rightUp : Bool
  rightForced : Bool
  deriving DecidableEq

namespace CarrierPair

variable (left right : Bool)

/-- One round: a side that holds its leg down sees nothing of its device, and both sides then hear
what the other one observed. -/
def round (p : CarrierPair) : CarrierPair :=
  let leftUp := if p.leftForced then p.leftUp else left
  let rightUp := if p.rightForced then p.rightUp else right
  ⟨leftUp, leftUp && !rightUp, rightUp, rightUp && !leftUp⟩

/-- A link with both devices up is held down nowhere, one with a single device up exactly on
that side. -/
def Converged (p : CarrierPair) : Prop :=
  (left = true → right = true → p.leftForced = false ∧ p.rightForced = false) ∧
  (left = true → right = false → p.leftForced = true ∧ p.rightForced = false) ∧
  (left = false → right = true → p.leftForced = false ∧ p.rightForced = true)

instance (left right : Bool) (p : CarrierPair) : Decidable (Converged left right p) :=
  inferInstanceAs (Decidable (_ ∧ _ ∧ _))

/-- After three rounds the link is converged and no further round changes it. -/
theorem round_three (p : CarrierPair) :
    round left right ((round left right)^[3] p) = (round left right)^[3] p ∧
      Converged left right ((round left right)^[3] p) := by
  obtain ⟨leftUp, leftForced, rightUp, rightForced⟩ := p
  revert left right leftUp leftForced rightUp rightForced
  decide

theorem round_iterate (p : CarrierPair) {n : Nat} (hn : 3 ≤ n) :
    round left right ((round left right)^[n] p) = (round left right)^[n] p ∧
      Converged left right ((round left right)^[n] p) := by
  obtain ⟨k, rfl⟩ := Nat.exists_eq_add_of_le' hn
  obtain ⟨hfixed, hconv⟩ := round_three left right p
  rw [Function.iterate_add_apply, Function.iterate_fixed hfixed]
  exact ⟨hfixed, hconv⟩

end CarrierPair

variable {t : Int}

namespace FabricWire

variable {w : FabricWire} {k : Kernel} {now : Int} {peer : Addr} {id : UInt32}
  {link : FabricWireLink} {device : UInt32 → Bool} {sent : List Bytes}

structure Arrival where
  kernel : Kernel
  now : Int
  bytes : Bytes

/-- What one side does in a round: a tick, then the datagrams that arrive. -/
structure Turn where
  kernel : Kernel
  now : Int
  arrivals : List Arrival

def hear (peer : Addr) (w : FabricWire) (x : Arrival) : FabricWire :=
  (w.handleDatagram x.kernel x.now peer x.bytes).1

def takeTurn (w : FabricWire) (peer : Addr) (turn : Turn) : FabricWire :=
  turn.arrivals.foldl (hear peer) (w.tick turn.kernel turn.now).1

/-- Settled devices and no loss: the tick is past every settle delay, a leg that is not held down
shows its device, also where `LinkSetUp` failed, and what was sent arrives, in any order. -/
structure TurnMeets (w : FabricWire) (peer : Addr) (device : UInt32 → Bool) (sent : List Bytes)
    (turn : Turn) : Prop where
  settled : ∀ (id : UInt32) (link : FabricWireLink), w.links[id]? = some link →
    link.peerAddr = peer → link.settleUntil ≤ turn.kernel.clock
  sampled : ∀ (id : UInt32) (link : FabricWireLink), w.links[id]? = some link →
    link.peerAddr = peer → link.forcedDown = false →
    turn.kernel.legOperUp link.legIndex = some (device id)
  later : ∀ x ∈ turn.arrivals, turn.now ≤ x.now
  delivered : ∀ bytes, bytes ∈ sent ↔ ∃ x ∈ turn.arrivals, x.bytes = bytes

/-- The side has accepted the generation of its peer. -/
def Bound (w : FabricWire) (peer : Addr) (generation : UInt64) : Prop :=
  ∃ session, w.sessions[peer]? = some session ∧ session.generation = generation

def Up (w : FabricWire) (peer : Addr) : Prop :=
  ∃ session, w.sessions[peer]? = some session ∧ session.up = true

/-- Another generation of the peer was heard no later than the instant. -/
def Lag (w : FabricWire) (peer : Addr) (generation : UInt64) (t : Int) : Prop :=
  ∀ session, w.sessions[peer]? = some session →
    session.generation = generation ∨ session.lastHeard ≤ t

variable {generation : UInt64} {operUp : Bool}

theorem Bound.tick (h : w.Bound peer generation) (k : Kernel) (now : Int) :
    (w.tick k now).1.Bound peer generation := by
  obtain ⟨session, hs, hg⟩ := h
  refine ⟨expireSession now session, ?_, (expireSession_heard now session).2.trans hg⟩
  exact (lookup_expiredSessions w now peer).trans (by rw [hs, map_some])

theorem Lag.tick (h : w.Lag peer generation t) (k : Kernel) (now : Int) :
    (w.tick k now).1.Lag peer generation t := by
  intro session hs
  have hs' := (lookup_expiredSessions w now peer).symm.trans hs
  obtain ⟨old, hold, rfl⟩ := map_eq_some_iff.mp hs'
  rw [(expireSession_heard now old).1, (expireSession_heard now old).2]
  exact h old hold

theorem Bound.not_stale {session : FabricWireSession} (h : w.Bound peer generation)
    (hs : w.sessions[peer]? = some session) : ¬ session.Stale now generation := by
  rintro ⟨⟨-, hne⟩, -⟩
  obtain ⟨bound, hb, hg⟩ := h
  rw [hs, some.injEq] at hb
  exact hne (hb ▸ hg)

theorem advertisedUp_of_agrees {states : List FabricWireLinkState} {recorded : Bool}
    (h : ∀ state ∈ states, state.linkID = id → state.operUp = operUp)
    (hsome : recorded = operUp ∨ ∃ state ∈ states, state.linkID = id) :
    advertisedUp states id recorded = operUp := by
  induction states generalizing recorded with
  | nil =>
    rcases hsome with rfl | ⟨state, hs, -⟩
    · rfl
    · cases hs
  | cons state states ih =>
    refine ih (fun s hs => h s (mem_cons_of_mem _ hs)) ?_
    dsimp only
    split
    · next hid => exact .inl (h state mem_cons_self hid)
    · next hid =>
      refine hsome.imp_right ?_
      rintro ⟨s, hs, hsid⟩
      rcases mem_cons.mp hs with rfl | hs
      · exact absurd hsid hid
      · exact ⟨s, hs, hsid⟩

theorem sessionFor_of_homed (hl : w.links[id]? = some link) :
    ∃ session, w.sessionFor link.peerAddr = some session ∧
      ∀ now generation, session.Stale now generation →
        w.sessions[link.peerAddr]? = some session := by
  have href : w.sessionReferencedLocked link.peerAddr = true :=
    (w.sessionReferencedLocked_iff link.peerAddr).mpr ⟨id, link, hl, rfl⟩
  unfold sessionFor
  split
  · next session hs => exact ⟨session, rfl, fun _ _ _ => hs⟩
  · rw [if_pos href]
    exact ⟨_, rfl, fun _ _ hstale => Bool.noConfusion hstale.1.1⟩

theorem Claims.body {datagram : Bytes} (h : Claims generation id operUp datagram) :
    ∃ body, parseDatagram datagram = some (generation, body) ∧
      (∀ fragment, body ≠ .data fragment) ∧
      ∀ recorded, (recorded = operUp ∨ Lists id datagram) →
        bodyRemote body id recorded = operUp := by
  rcases h with hparse | ⟨states, hparse, hagrees⟩
  · refine ⟨.heartbeat, hparse, fun _ => Body.noConfusion, ?_⟩
    rintro recorded (rfl | ⟨_, _, hlists, -⟩)
    · rfl
    · rw [hparse] at hlists
      cases hlists
  · refine ⟨.linkStates states, hparse, fun _ => Body.noConfusion, ?_⟩
    intro recorded hsome
    refine advertisedUp_of_agrees hagrees (hsome.imp_right ?_)
    rintro ⟨_, listed, hlists, hmem⟩
    rw [hparse] at hlists
    cases hlists
    exact hmem

theorem hear_cases {x : Arrival} (hclaims : Claims generation id operUp x.bytes)
    (hl : w.links[id]? = some link) (hp : link.peerAddr = peer) :
    ∃ link', (hear peer w x).links[id]? = some link' ∧ link'.peerAddr = peer ∧
      link'.lastLocalUp = link.lastLocalUp ∧
      ((∃ session, w.sessions[peer]? = some session ∧ session.Stale x.now generation ∧
          (hear peer w x).sessions = w.sessions) ∨
        (hear peer w x).sessions[peer]? = some (heardSession x.now generation) ∧
          (w.Bound peer generation → (link.remoteOperUp = operUp ∨ Lists id x.bytes) →
            link'.remoteOperUp = operUp)) := by
  subst hp
  obtain ⟨body, hparse, hnodata, hremote⟩ := hclaims.body
  obtain ⟨session, hfor, hsession⟩ := sessionFor_of_homed hl
  by_cases hstale : session.Stale x.now generation
  · have hreject : ∀ met, ¬ w.AcceptsBody x.now link.peerAddr generation body met := by
      rintro met ⟨⟨hmet, hfresh⟩, -⟩
      rw [hfor, some.injEq] at hmet
      exact hfresh (hmet ▸ hstale)
    obtain ⟨hc, -⟩ := handleDatagram_rejected x.kernel hparse hreject
    obtain ⟨f, hf⟩ := hc.links
    have hlink := hf id
    rw [hl, map_some] at hlink
    have hs : (hear link.peerAddr w x).sessions = w.sessions := by rw [hear, hc.wire_eq]
    exact ⟨_, hlink, rfl, rfl, .inl ⟨session, hsession _ _ hstale, hstale, hs⟩⟩
  · have hb : w.AcceptsBody x.now link.peerAddr generation body session :=
      ⟨⟨hfor, hstale⟩, fun fragment hdata => absurd hdata (hnodata fragment)⟩
    have ha := handleDatagram_accepted x.kernel hparse hb
    obtain ⟨reassembler, remote, hr⟩ := refreshedLink_eq link.peerAddr generation session link
    obtain ⟨deadline, counters, hbody⟩ := bodyLink_eq x.kernel x.now link.peerAddr generation
      session (w.handleDatagram x.kernel x.now link.peerAddr x.bytes).1.sessions body id rfl
    have hlink := ha.links id
    rw [hl, map_some, hbody] at hlink
    refine ⟨_, hlink, ?_, ?_, .inr ⟨?_, ?_⟩⟩
    · rw [hr]
    · rw [hr]
    · have hs := congrArg FabricWire.sessions ha.wire_eq
      change (w.handleDatagram x.kernel x.now link.peerAddr x.bytes).1.sessions[link.peerAddr]? = _
      rw [hs]
      exact (GoMap.lookup_insert w.sessions _ _ _).trans (if_pos rfl)
    · intro hbound hsome
      obtain ⟨bound, hbs, hg⟩ := hbound
      rw [sessionFor, hbs, some.injEq] at hfor
      have hkept : refreshedLink link.peerAddr generation session link = link := by
        rw [refreshedLink, if_neg]
        rintro ⟨-, hne⟩
        exact hne (hfor ▸ hg)
      rw [hkept]
      exact hremote link.remoteOperUp hsome

/-- Arrivals that agree about a link leave the local side alone; one past the timeout of any other
generation binds the session, which records what was said. -/
structure Listened (w : FabricWire) (peer : Addr) (generation : UInt64) (t : Int) (id : UInt32)
    (operUp : Bool) (link : FabricWireLink) (arrivals : List Arrival) (w' : FabricWire)
    (link' : FabricWireLink) : Prop where
  registered : w'.links[id]? = some link'
  homed : link'.peerAddr = peer
  lastLocalUp : link'.lastLocalUp = link.lastLocalUp
  lag : w'.Lag peer generation t
  binds : (∃ x ∈ arrivals, t + fabricWireSessionTimeout < x.now) → w'.Bound peer generation
  bound : w.Bound peer generation → w'.Bound peer generation
  up : w.Bound peer generation → w.Up peer ∨ arrivals ≠ [] → w'.Up peer
  recorded : w.Bound peer generation →
    (link.remoteOperUp = operUp ∨ ∃ x ∈ arrivals, Lists id x.bytes) → link'.remoteOperUp = operUp

theorem listened (arrivals : List Arrival)
    (hclaims : ∀ x ∈ arrivals, Claims generation id operUp x.bytes) (hlag : w.Lag peer generation t)
    (hl : w.links[id]? = some link) (hp : link.peerAddr = peer) :
    ∃ link', Listened w peer generation t id operUp link arrivals
      (arrivals.foldl (hear peer) w) link' := by
  induction arrivals generalizing w link with
  | nil =>
    refine ⟨link, hl, hp, rfl, hlag, ?_, fun h => h, fun _ h => ?_, fun _ h => ?_⟩
    · rintro ⟨x, hx, -⟩
      cases hx
    · exact h.resolve_right fun hne => hne rfl
    · rcases h with h | ⟨x, hx, -⟩
      · exact h
      · cases hx
  | cons x rest ih =>
    have hrest : ∀ y ∈ rest, Claims generation id operUp y.bytes :=
      fun y hy => hclaims y (mem_cons_of_mem _ hy)
    obtain ⟨link₁, hl₁, hp₁, hlocal₁, hcases⟩ := hear_cases (hclaims x mem_cons_self) hl hp
    rcases hcases with ⟨session, hs, hstale, hsame⟩ | ⟨hheard, hrecord⟩
    · -- a straggler: the session is that of another generation and was heard in time
      have hunbound : ¬ w.Bound peer generation := fun hb => hb.not_stale hs hstale
      have hlag₁ : (hear peer w x).Lag peer generation t := by
        intro session' hs'
        exact hlag session' (hsame ▸ hs')
      obtain ⟨link', h⟩ := ih hrest hlag₁ hl₁ hp₁
      refine ⟨link', h.registered, h.homed, h.lastLocalUp.trans hlocal₁, h.lag, ?_,
        fun hb => absurd hb hunbound, fun hb => absurd hb hunbound, fun hb => absurd hb hunbound⟩
      rintro ⟨y, hy, hlate⟩
      rcases mem_cons.mp hy with rfl | hy
      · obtain ⟨⟨-, hne⟩, -, hwithin⟩ := hstale
        rcases hlag session hs with hg | hle
        · exact absurd hg hne
        · omega
      · exact h.binds ⟨y, hy, hlate⟩
    · -- accepted: from here on the session is bound and up
      have hbound₁ : (hear peer w x).Bound peer generation := ⟨_, hheard, rfl⟩
      have hup₁ : (hear peer w x).Up peer := ⟨_, hheard, rfl⟩
      have hlag₁ : (hear peer w x).Lag peer generation t := by
        intro session' hs'
        rw [hheard] at hs'
        cases hs'
        exact .inl rfl
      obtain ⟨link', h⟩ := ih hrest hlag₁ hl₁ hp₁
      refine ⟨link', h.registered, h.homed, h.lastLocalUp.trans hlocal₁, h.lag,
        fun _ => h.bound hbound₁, fun _ => h.bound hbound₁, fun _ _ => h.up hbound₁ (.inl hup₁), ?_⟩
      intro hb hsome
      apply h.recorded hbound₁
      rcases hsome with hold | ⟨y, hy, hlists⟩
      · exact .inl (hrecord hb (.inl hold))
      · rcases mem_cons.mp hy with rfl | hy
        · exact .inl (hrecord hb (.inr hlists))
        · exact .inr ⟨y, hy, hlists⟩

theorem Carried.hear_all (h : w.Carried) (peer : Addr) (arrivals : List Arrival) :
    (arrivals.foldl (hear peer) w).Carried := by
  induction arrivals generalizing w with
  | nil => exact h
  | cons x rest ih => exact ih (h.handleDatagram x.kernel x.now peer x.bytes)

theorem Keyed.hear_all (h : w.Keyed) (peer : Addr) (arrivals : List Arrival) :
    (arrivals.foldl (hear peer) w).Keyed := by
  induction arrivals generalizing w with
  | nil => exact h
  | cons x rest ih => exact ih (h.handleDatagram x.kernel x.now peer x.bytes)

theorem generation_hear_all (peer : Addr) (arrivals : List Arrival) (w : FabricWire) :
    (arrivals.foldl (hear peer) w).generation = w.generation := by
  induction arrivals generalizing w with
  | nil => rfl
  | cons x rest ih =>
    refine (ih _).trans ?_
    rcases w.handleDatagram_cases x.kernel x.now peer x.bytes with ⟨hc, -⟩ | ⟨_, _, _, -, -, ha⟩
    · rw [hear, hc.wire_eq]
    · rw [hear, ha.wire_eq]

variable {turn : Turn}

theorem TurnMeets.lastLocalUp (h : TurnMeets w peer device sent turn)
    (hl : w.links[id]? = some link) (hp : link.peerAddr = peer) :
    (w.tickedLink turn.kernel turn.now link).lastLocalUp =
      if link.forcedDown then link.lastLocalUp else device id := by
  rw [lastLocalUp_tickedLink]
  unfold sampledLink
  split
  · rfl
  · next hforced =>
    rw [h.sampled id link hl hp (Bool.eq_false_iff.mpr hforced)]
    dsimp only
    unfold observeLegStateLocked
    have hpast : ¬ turn.kernel.clock < link.settleUntil :=
      Int.not_lt.mpr (h.settled id link hl hp)
    simp only [Bool.eq_false_iff.mpr hforced, Bool.false_or, beq_iff_eq]
    split
    · next hsame => exact hsame
    · rw [if_neg (by simp [hpast])]
      exact lastLocalUp_applyLinkCarrierLocked turn.kernel w.sessions _

theorem lookup_ticked (hl : w.links[id]? = some link) (hp : link.peerAddr = peer) (turn : Turn) :
    (w.tick turn.kernel turn.now).1.links[id]? = some (w.tickedLink turn.kernel turn.now link) ∧
      (w.tickedLink turn.kernel turn.now link).peerAddr = peer := by
  rw [lookup_tick, hl, map_some]
  exact ⟨rfl, (tickedLink_remote w turn.kernel turn.now link).2.1.trans hp⟩

/-- What a side keeps over rounds: its carrier states are decided, its links keyed, and it
heard no other generation of the peer lately. -/
structure Side (w : FabricWire) (peer : Addr) (generation : UInt64) (t : Int) : Prop where
  carried : w.Carried
  keyed : w.Keyed
  lag : w.Lag peer generation t

structure Turned (w : FabricWire) (peer : Addr) (generation : UInt64) (t : Int) (id : UInt32)
    (device operUp : Bool) (link : FabricWireLink) (turn : Turn) (link' : FabricWireLink) :
    Prop where
  side : (w.takeTurn peer turn).Side peer generation t
  registered : (w.takeTurn peer turn).links[id]? = some link'
  homed : link'.peerAddr = peer
  observed : link'.lastLocalUp = if link.forcedDown then link.lastLocalUp else device
  binds : t + fabricWireSessionTimeout < turn.now → (w.takeTurn peer turn).Bound peer generation
  bound : w.Bound peer generation → (w.takeTurn peer turn).Bound peer generation
  up : w.Bound peer generation → (w.takeTurn peer turn).Up peer
  recorded : w.Bound peer generation → link'.remoteOperUp = operUp
  forced : w.Bound peer generation → link'.forcedDown = (link'.lastLocalUp && !operUp)

theorem Carried.forcedDown_of_up (h : w.Carried) (hl : w.links[id]? = some link)
    (hup : w.Up link.peerAddr) : link.forcedDown = (link.lastLocalUp && !link.remoteOperUp) := by
  obtain ⟨session, hs, hup⟩ := hup
  have hset := h id link hl
  rw [Settled, remoteUp, hs] at hset
  simpa only [hup, Bool.true_and] using hset

theorem turned (hside : w.Side peer generation t) (hmeets : TurnMeets w peer device sent turn)
    (hl : w.links[id]? = some link) (hp : link.peerAddr = peer)
    (hclaims : ∀ bytes ∈ sent, Claims generation id operUp bytes)
    (hlists : ∃ bytes ∈ sent, Lists id bytes) :
    ∃ link', Turned w peer generation t id (device id) operUp link turn link' := by
  obtain ⟨hticked, hhomed⟩ := lookup_ticked hl hp turn
  have harrivals : ∀ x ∈ turn.arrivals, Claims generation id operUp x.bytes :=
    fun x hx => hclaims x.bytes ((hmeets.delivered x.bytes).mpr ⟨x, hx, rfl⟩)
  obtain ⟨bytes, hbytes, hlisted⟩ := hlists
  obtain ⟨x, hx, rfl⟩ := (hmeets.delivered bytes).mp hbytes
  obtain ⟨link', h⟩ := listened turn.arrivals harrivals
    (hside.lag.tick turn.kernel turn.now) hticked hhomed
  have hcarried : (w.takeTurn peer turn).Carried :=
    (hside.carried.tick turn.kernel turn.now).hear_all peer turn.arrivals
  have hup : w.Bound peer generation → (w.takeTurn peer turn).Up peer := fun hb =>
    h.up (hb.tick turn.kernel turn.now) (.inr (ne_nil_of_mem hx))
  have hrecorded : w.Bound peer generation → link'.remoteOperUp = operUp := fun hb =>
    h.recorded (hb.tick turn.kernel turn.now) (.inr ⟨x, hx, hlisted⟩)
  refine ⟨link', ⟨hcarried, (hside.keyed.tick _ _).hear_all peer _, h.lag⟩, h.registered, h.homed,
    ?_, ?_, fun hb => h.bound (hb.tick _ _), hup, hrecorded, ?_⟩
  · exact h.lastLocalUp.trans (hmeets.lastLocalUp hl hp)
  · intro hlate
    exact h.binds ⟨x, hx, Int.lt_of_lt_of_le hlate (hmeets.later x hx)⟩
  · intro hb
    rw [hcarried.forcedDown_of_up h.registered (h.homed ▸ hup hb), hrecorded hb]

def carrier (link : FabricWireLink) : Bool × Bool × Bool :=
  (link.lastLocalUp, link.remoteOperUp, link.forcedDown)

/-- The session of the peer does not time out at the instant. -/
def InTime (w : FabricWire) (peer : Addr) (now : Int) : Prop :=
  ∀ session, w.sessions[peer]? = some session → now - session.lastHeard ≤ fabricWireSessionTimeout

/-- No operation of the turn changes the carrier of the link. -/
def SteadyTurn (w : FabricWire) (peer : Addr) (turn : Turn) (id : UInt32)
    (link : FabricWireLink) : Prop :=
  ∀ before after, turn.arrivals = before ++ after →
    ∃ link', (before.foldl (hear peer) (w.tick turn.kernel turn.now).1).links[id]? = some link' ∧
      carrier link' = carrier link

theorem steadyTurn (hside : w.Side peer generation t) (hbound : w.Bound peer generation)
    (hup : w.Up peer) (hmeets : TurnMeets w peer device sent turn) (hl : w.links[id]? = some link)
    (hp : link.peerAddr = peer)
    (hclaims : ∀ bytes ∈ sent, Claims generation id link.remoteOperUp bytes)
    (hrest : (if link.forcedDown then link.lastLocalUp else device id) = link.lastLocalUp)
    (hin : w.InTime peer turn.now) : SteadyTurn w peer turn id link := by
  intro before after harrivals
  obtain ⟨hticked, hhomed⟩ := lookup_ticked hl hp turn
  have hlocal := (hmeets.lastLocalUp hl hp).trans hrest
  have hupTick : (w.tick turn.kernel turn.now).1.Up peer := by
    obtain ⟨session, hs, hu⟩ := hup
    refine ⟨session, (lookup_expiredSessions w turn.now peer).trans ?_, hu⟩
    rw [hs, map_some, expireSession, if_neg]
    rintro ⟨-, hlate⟩
    exact Int.not_le.mpr hlate (hin session hs)
  obtain ⟨link', h⟩ := listened before (fun x hx => hclaims x.bytes
    ((hmeets.delivered x.bytes).mpr ⟨x, harrivals ▸ mem_append_left _ hx, rfl⟩))
    (hside.lag.tick turn.kernel turn.now) hticked hhomed
  have hboundTick := hbound.tick turn.kernel turn.now
  have hremote := h.recorded hboundTick
    (.inl (tickedLink_remote w turn.kernel turn.now link).2.2)
  have hcarried := (hside.carried.tick turn.kernel turn.now).hear_all peer before
  refine ⟨link', h.registered, ?_⟩
  have hforced := hcarried.forcedDown_of_up h.registered
    (h.homed ▸ h.up hboundTick (.inl hupTick))
  have hforced₀ := hside.carried.forcedDown_of_up hl (hp ▸ hup)
  rw [h.lastLocalUp, hlocal, hremote, ← hforced₀] at hforced
  rw [carrier, carrier, h.lastLocalUp, hlocal, hremote, hforced]

/-- A round: each side, at its address, takes its turn. -/
def roundStep (a b : Addr) (s : FabricWire × FabricWire) (r : Turn × Turn) :
    Option (FabricWire × FabricWire) :=
  some (s.1.takeTurn b r.1, s.2.takeTurn a r.2)

/-- A round in which either side receives what the other one's tick sent to it. -/
structure RoundMeets (a b : Addr) (left right : UInt32 → Bool) (s : FabricWire × FabricWire)
    (r : Turn × Turn) : Prop where
  left : TurnMeets s.1 b left (sentTo a (s.2.tick r.2.kernel r.2.now).2) r.1
  right : TurnMeets s.2 a right (sentTo b (s.1.tick r.1.kernel r.1.now).2) r.2

structure Linked (a b : Addr) (leftGen rightGen : UInt64) (ta tb : Int) (id : UInt32)
    (s : FabricWire × FabricWire) (la lb : FabricWireLink) : Prop where
  left : s.1.Side b rightGen ta
  right : s.2.Side a leftGen tb
  leftGen : s.1.generation = leftGen
  rightGen : s.2.generation = rightGen
  leftLink : s.1.links[id]? = some la
  rightLink : s.2.links[id]? = some lb
  leftHomed : la.peerAddr = b
  rightHomed : lb.peerAddr = a

/-- Either side has accepted the other one's generation. -/
def BothBound (a b : Addr) (leftGen rightGen : UInt64) (s : FabricWire × FabricWire) : Prop :=
  s.1.Bound b rightGen ∧ s.2.Bound a leftGen

/-- Both sessions are up and either end has recorded what the other one observed. -/
structure Mirrored (a b : Addr) (s : FabricWire × FabricWire) (la lb : FabricWireLink) : Prop where
  leftUp : s.1.Up b
  rightUp : s.2.Up a
  leftRemote : la.remoteOperUp = lb.lastLocalUp
  rightRemote : lb.remoteOperUp = la.lastLocalUp

end FabricWire

def carrierPair (la lb : FabricWireLink) : CarrierPair :=
  ⟨la.lastLocalUp, la.forcedDown, lb.lastLocalUp, lb.forcedDown⟩

namespace FabricWire

variable {a b : Addr} {leftGen rightGen : UInt64} {ta tb : Int} {id : UInt32}
  {s : FabricWire × FabricWire} {la lb : FabricWireLink} {left right : UInt32 → Bool}
  {r : Turn × Turn} {config : FabricWireConfig}

/-- A link after a round: late enough the sessions are bound, bound they stay, and a round of
bound sides is a round of the protocol. -/
structure Rounded (a b : Addr) (leftGen rightGen : UInt64) (ta tb : Int) (id : UInt32)
    (left right : UInt32 → Bool) (s : FabricWire × FabricWire) (r : Turn × Turn)
    (la lb : FabricWireLink) (s' : FabricWire × FabricWire) (la' lb' : FabricWireLink) : Prop where
  linked : Linked a b leftGen rightGen ta tb id s' la' lb'
  binds : ta + fabricWireSessionTimeout < r.1.now → tb + fabricWireSessionTimeout < r.2.now →
    BothBound a b leftGen rightGen s'
  bound : BothBound a b leftGen rightGen s → BothBound a b leftGen rightGen s'
  pair : BothBound a b leftGen rightGen s →
    carrierPair la' lb' = (carrierPair la lb).round (left id) (right id)
  mirrored : BothBound a b leftGen rightGen s → Mirrored a b s' la' lb'

theorem generation_takeTurn (w : FabricWire) (peer : Addr) (turn : Turn) :
    (w.takeTurn peer turn).generation = w.generation :=
  generation_hear_all peer turn.arrivals (w.tick turn.kernel turn.now).1

theorem rounded (ha : a.isValid = true) (hb : b.isValid = true)
    (h : Linked a b leftGen rightGen ta tb id s la lb) (hr : RoundMeets a b left right s r) :
    ∃ la' lb', Rounded a b leftGen rightGen ta tb id left right s r la lb
      (s.1.takeTurn b r.1, s.2.takeTurn a r.2) la' lb' := by
  -- what the other side's tick leaves recorded is what arrives here
  have hleftUp := hr.left.lastLocalUp h.leftLink h.leftHomed
  have hrightUp := hr.right.lastLocalUp h.rightLink h.rightHomed
  obtain ⟨la', hla⟩ := turned h.left hr.left h.leftLink h.leftHomed
    (fun bytes hm => h.rightGen ▸ claims_tick h.right.keyed h.rightLink hm)
    (lists_tick h.right.keyed h.rightLink h.rightHomed ha)
  obtain ⟨lb', hlb⟩ := turned h.right hr.right h.rightLink h.rightHomed
    (fun bytes hm => h.leftGen ▸ claims_tick h.left.keyed h.leftLink hm)
    (lists_tick h.left.keyed h.leftLink h.leftHomed hb)
  have hlaUp := hla.observed
  have hlbUp := hlb.observed
  rw [hrightUp, ← hlbUp] at hla
  rw [hleftUp, ← hlaUp] at hlb
  refine ⟨la', lb', ⟨hla.side, hlb.side, ?_, ?_, hla.registered, hlb.registered, hla.homed,
    hlb.homed⟩, fun hta htb => ⟨hla.binds hta, hlb.binds htb⟩,
    fun h => ⟨hla.bound h.1, hlb.bound h.2⟩, ?_, ?_⟩
  · exact (generation_takeTurn s.1 b r.1).trans h.leftGen
  · exact (generation_takeTurn s.2 a r.2).trans h.rightGen
  · intro hbound
    ext1
    · exact hlaUp
    · change la'.forcedDown = _
      rw [hla.forced hbound.1, hlaUp, hlbUp]
      rfl
    · exact hlbUp
    · change lb'.forcedDown = _
      rw [hlb.forced hbound.2, hlaUp, hlbUp]
      rfl
  · intro hbound
    exact ⟨hla.up hbound.1, hlb.up hbound.2, hla.recorded hbound.1, hlb.recorded hbound.2⟩

/-- Round `i` is at least `i` settle windows after the given instants. -/
def Spaced (ta tb : Int) (rounds : List (Turn × Turn)) : Prop :=
  ∀ (i : Nat) (r : Turn × Turn), rounds[i]? = some r →
    ta + i * fabricWireCarrierSettleWindow ≤ r.1.now ∧
      tb + i * fabricWireCarrierSettleWindow ≤ r.2.now

/-- Rounds after which any other generation has timed out. -/
def bindingRounds : Nat := 9

/-- Rounds after which the carrier protocol of every shared link is at rest. -/
def settlingRounds : Nat := bindingRounds + 3

variable {rounds : List (Turn × Turn)}

theorem Spaced.of_append (h : Spaced ta tb (rounds ++ [r])) : Spaced ta tb rounds := by
  intro i r' hi
  refine h i r' ?_
  obtain ⟨hlt, -⟩ := List.getElem?_eq_some_iff.mp hi
  rw [getElem?_append_left hlt, hi]

theorem Spaced.late (h : Spaced ta tb (rounds ++ [r])) (hlen : bindingRounds ≤ rounds.length + 1) :
    ta + fabricWireSessionTimeout < r.1.now ∧ tb + fabricWireSessionTimeout < r.2.now := by
  have hlast := h rounds.length r getElem?_concat_length
  unfold bindingRounds at hlen
  unfold fabricWireCarrierSettleWindow millisecond at hlast
  unfold fabricWireSessionTimeout fabricWireHeartbeatMissLimit fabricWireHeartbeatInterval second
    millisecond
  omega

/-- A shared link after some rounds: bound once any other generation has timed out, and from
then on what that many rounds of the protocol make of it. -/
structure Progressed (a b : Addr) (leftGen rightGen : UInt64) (left right : UInt32 → Bool)
    (id : UInt32) (count : Nat) (s : FabricWire × FabricWire) (la lb : FabricWireLink) :
    Prop where
  bound : bindingRounds ≤ count → BothBound a b leftGen rightGen s
  pair : ∀ n, count = bindingRounds + n → ∃ p,
    carrierPair la lb = (CarrierPair.round (left id) (right id))^[n] p
  mirrored : bindingRounds < count → Mirrored a b s la lb

/-- Every run of rounds takes a shared link along. -/
theorem progressed_run (ha : a.isValid = true) (hb : b.isValid = true)
    (h : Linked a b leftGen rightGen ta tb id s la lb) (rounds : List (Turn × Turn))
    (hspaced : Spaced ta tb rounds)
    (hmeets : RunMeets (roundStep a b) s (RoundMeets a b left right) rounds)
    (s' : FabricWire × FabricWire) (hrun : run (roundStep a b) s rounds = some s') :
    ∃ la' lb', Linked a b leftGen rightGen ta tb id s' la' lb' ∧
      Progressed a b leftGen rightGen left right id rounds.length s' la' lb' := by
  refine run_invariant (P := fun rounds s' => Spaced ta tb rounds →
    ∃ la' lb', Linked a b leftGen rightGen ta tb id s' la' lb' ∧
      Progressed a b leftGen rightGen left right id rounds.length s' la' lb')
    ?_ ?_ rounds s' hmeets hrun hspaced
  · intro _
    refine ⟨la, lb, h, fun hc => ?_, fun n hn => ?_, fun hc => ?_⟩
    · exact absurd hc (by decide)
    · unfold bindingRounds at hn
      rw [length_nil] at hn
      omega
    · exact absurd hc (by decide)
  · intro rounds s r s' _ ih hround hstep hspaced
    cases hstep
    obtain ⟨la, lb, hlinked, hprog⟩ := ih hspaced.of_append
    obtain ⟨la', lb', hr⟩ := rounded ha hb hlinked hround
    refine ⟨la', lb', hr.linked, ?_, ?_, ?_⟩
    · intro hlen
      rw [length_append, length_singleton] at hlen
      obtain ⟨hta, htb⟩ := hspaced.late hlen
      exact hr.binds hta htb
    · intro n hn
      rw [length_append, length_singleton] at hn
      cases n with
      | zero => exact ⟨carrierPair la' lb', rfl⟩
      | succ n =>
        have hlen : rounds.length = bindingRounds + n := by omega
        obtain ⟨p, hp⟩ := hprog.pair n hlen
        refine ⟨p, ?_⟩
        rw [hr.pair (hprog.bound (by omega)), hp, Function.iterate_succ_apply']
    · intro hlen
      rw [length_append, length_singleton] at hlen
      exact hr.mirrored (hprog.bound (by omega))

/-- The wire of a sidecar is in a state that some operations lead to, none of them after the
instant. -/
def ReachedAt (config : FabricWireConfig) (w : FabricWire) (t : Int) : Prop :=
  ∃ generation start calls, newFabricWire config generation = .ok start ∧
    (calls.Pairwise fun a b => a.now ≤ b.now) ∧ run next start calls = some w ∧ Since calls t

theorem ReachedAt.isValid {w : FabricWire} (h : ReachedAt config w t) :
    config.localAddress.isValid = true := by
  obtain ⟨generation, start, calls, hstart, -⟩ := h
  exact Addr.isValid_of_is4 (is4_of_newFabricWire hstart)

theorem ReachedAt.side {w : FabricWire} (h : ReachedAt config w t) (peer : Addr)
    (generation : UInt64) : w.Side peer generation t := by
  obtain ⟨started, start, calls, hstart, hclock, hrun, hsince⟩ := h
  refine ⟨?_, ?_, ?_⟩
  · exact run_invariant_of_step (P := Carried) (carried_newFabricWire hstart)
      (fun _ _ _ hw hn => hw.next hn) calls w hrun
  · exact run_invariant_of_step (P := Keyed) (keyed_newFabricWire hstart)
      (fun _ _ _ hw hn => hw.next hn) calls w hrun
  · intro session hs
    have hrec := (live_recorded_run hstart hclock hrun).2
    exact .inr ((hrec peer session hs).1.le_now hsince)

theorem steady_round (ha : a.isValid = true) (hb : b.isValid = true)
    (h : Linked a b leftGen rightGen ta tb id s la lb) (hbound : BothBound a b leftGen rightGen s)
    (hmirror : Mirrored a b s la lb) (hr : RoundMeets a b left right s r)
    (hfixed : (carrierPair la lb).round (left id) (right id) = carrierPair la lb) :
    (∃ la' lb', (s.1.takeTurn b r.1).links[id]? = some la' ∧
      (s.2.takeTurn a r.2).links[id]? = some lb' ∧ carrier la' = carrier la ∧
      carrier lb' = carrier lb) ∧
    (s.1.InTime b r.1.now → SteadyTurn s.1 b r.1 id la) ∧
    (s.2.InTime a r.2.now → SteadyTurn s.2 a r.2 id lb) := by
  have hleftRest : (if la.forcedDown then la.lastLocalUp else left id) = la.lastLocalUp :=
    congrArg CarrierPair.leftUp hfixed
  have hrightRest : (if lb.forcedDown then lb.lastLocalUp else right id) = lb.lastLocalUp :=
    congrArg CarrierPair.rightUp hfixed
  have hleftUp := hr.left.lastLocalUp h.leftLink h.leftHomed
  have hrightUp := hr.right.lastLocalUp h.rightLink h.rightHomed
  refine ⟨?_, ?_, ?_⟩
  · obtain ⟨la', lb', hround⟩ := rounded ha hb h hr
    have hpair := (hround.pair hbound).trans hfixed
    have hm := hround.mirrored hbound
    have hla : la'.lastLocalUp = la.lastLocalUp := congrArg CarrierPair.leftUp hpair
    have hlb : lb'.lastLocalUp = lb.lastLocalUp := congrArg CarrierPair.rightUp hpair
    have hfa : la'.forcedDown = la.forcedDown := congrArg CarrierPair.leftForced hpair
    have hfb : lb'.forcedDown = lb.forcedDown := congrArg CarrierPair.rightForced hpair
    refine ⟨la', lb', hround.linked.leftLink, hround.linked.rightLink, ?_, ?_⟩
    · rw [carrier, carrier, hla, hfa, hm.leftRemote, hlb, hmirror.leftRemote]
    · rw [carrier, carrier, hlb, hfb, hm.rightRemote, hla, hmirror.rightRemote]
  · refine steadyTurn h.left hbound.1 hmirror.leftUp hr.left h.leftLink h.leftHomed ?_ hleftRest
    intro bytes hm
    have hc := claims_tick h.right.keyed h.rightLink hm
    rw [hrightUp, hrightRest, ← hmirror.leftRemote, h.rightGen] at hc
    exact hc
  · refine steadyTurn h.right hbound.2 hmirror.rightUp hr.right h.rightLink h.rightHomed ?_
      hrightRest
    intro bytes hm
    have hc := claims_tick h.left.keyed h.leftLink hm
    rw [hleftUp, hleftRest, ← hmirror.rightRemote, h.leftGen] at hc
    exact hc

end FabricWire

open FabricWire in
/-- Two sidecars with still devices and no loss agree on the carrier of every link they share after
`settlingRounds` rounds, and further rounds change nothing. -/
theorem carrier_converges (leftConfig rightConfig : FabricWireConfig) (A B : FabricWire)
    (ta tb : Int) (hA : ReachedAt leftConfig A ta) (hB : ReachedAt rightConfig B tb)
    (left right : UInt32 → Bool) (rounds : List (Turn × Turn)) (hspaced : Spaced ta tb rounds)
    (hmeets : RunMeets (roundStep leftConfig.localAddress rightConfig.localAddress) (A, B)
      (RoundMeets leftConfig.localAddress rightConfig.localAddress left right) rounds)
    (hmany : settlingRounds ≤ rounds.length) :
    ∃ A' B', run (roundStep leftConfig.localAddress rightConfig.localAddress) (A, B) rounds =
      some (A', B') ∧
      ∀ (id : UInt32) (la₀ lb₀ : FabricWireLink), A.links[id]? = some la₀ →
        la₀.peerAddr = rightConfig.localAddress → B.links[id]? = some lb₀ →
        lb₀.peerAddr = leftConfig.localAddress →
        ∃ la lb, A'.links[id]? = some la ∧ B'.links[id]? = some lb ∧
          (left id = true → right id = true → la.forcedDown = false ∧ lb.forcedDown = false) ∧
          (left id = true → right id = false → la.forcedDown = true ∧ lb.forcedDown = false) ∧
          (left id = false → right id = true → la.forcedDown = false ∧ lb.forcedDown = true) ∧
          ∀ r, RoundMeets leftConfig.localAddress rightConfig.localAddress left right (A', B') r →
            (∃ la' lb', (A'.takeTurn rightConfig.localAddress r.1).links[id]? = some la' ∧
              (B'.takeTurn leftConfig.localAddress r.2).links[id]? = some lb' ∧
              carrier la' = carrier la ∧ carrier lb' = carrier lb) ∧
            (A'.InTime rightConfig.localAddress r.1.now →
              SteadyTurn A' rightConfig.localAddress r.1 id la) ∧
            (B'.InTime leftConfig.localAddress r.2.now →
              SteadyTurn B' leftConfig.localAddress r.2 id lb) := by
  have hrun : ∃ s, run (roundStep leftConfig.localAddress rightConfig.localAddress) (A, B) rounds =
      some s := run_total (fun _ _ => ⟨_, rfl⟩) rounds
  obtain ⟨⟨A', B'⟩, hrun⟩ := hrun
  refine ⟨A', B', hrun, ?_⟩
  intro id la₀ lb₀ hla₀ hpa hlb₀ hpb
  have hlinked : Linked leftConfig.localAddress rightConfig.localAddress A.generation
      B.generation ta tb id (A, B) la₀ lb₀ :=
    ⟨hA.side _ _, hB.side _ _, rfl, rfl, hla₀, hlb₀, hpa, hpb⟩
  obtain ⟨la, lb, hl, hprog⟩ := progressed_run hA.isValid hB.isValid hlinked rounds hspaced hmeets
    (A', B') hrun
  obtain ⟨n, hn⟩ := Nat.exists_eq_add_of_le hmany
  obtain ⟨p, hp⟩ := hprog.pair (3 + n) (by rw [hn, settlingRounds]; omega)
  obtain ⟨hfixed, hconv⟩ := CarrierPair.round_iterate (left id) (right id) p (n := 3 + n) (by omega)
  rw [← hp] at hfixed hconv
  have hlong : bindingRounds < rounds.length := by
    unfold settlingRounds at hmany
    omega
  refine ⟨la, lb, hl.leftLink, hl.rightLink, hconv.1, hconv.2.1, hconv.2.2, ?_⟩
  intro r hr
  exact steady_round hA.isValid hB.isValid hl (hprog.bound (Nat.le_of_lt hlong))
    (hprog.mirrored hlong) hr hfixed

namespace FabricWire

def losslessTurn (clock now : Int) (sent : List Bytes) : Turn where
  kernel := healthyKernel clock 2 true
  now := now
  arrivals := sent.map fun bytes => ⟨healthyKernel clock 2 true, now, bytes⟩

theorem turnMeets_losslessTurn {w : FabricWire} {clock : Int}
    (h : ∀ (id : UInt32) (link : FabricWireLink), w.links[id]? = some link →
      link.settleUntil ≤ clock) (peer : Addr) (now : Int) (sent : List Bytes) :
    TurnMeets w peer (fun _ => true) sent (losslessTurn clock now sent) := by
  refine ⟨fun id link hl _ => h id link hl, fun _ _ _ _ _ => rfl, ?_, ?_⟩
  · intro x hx
    obtain ⟨bytes, -, rfl⟩ := List.mem_map.mp hx
    exact Int.le_refl now
  · intro bytes
    constructor
    · intro hm
      exact ⟨_, List.mem_map.mpr ⟨bytes, hm, rfl⟩, rfl⟩
    · rintro ⟨x, hx, rfl⟩
      obtain ⟨bytes, hm, rfl⟩ := List.mem_map.mp hx
      exact hm

theorem exists_settled (w : FabricWire) :
    ∃ clock, ∀ (id : UInt32) (link : FabricWireLink), w.links[id]? = some link →
      link.settleUntil ≤ clock := by
  obtain ⟨clock, h⟩ := (w.links.toList.map fun e => e.2.settleUntil).toFinset.exists_le
  refine ⟨clock, fun id link hl => h _ ?_⟩
  rw [List.mem_toFinset, List.mem_map]
  exact ⟨(id, link), ExtTreeMap.mem_toList_iff_getElem?_eq_some.mpr hl, rfl⟩

theorem exists_rounds (a b : Addr) (ta tb : Int) (s : FabricWire × FabricWire) (n : Nat) :
    ∃ rounds, rounds.length = n ∧ Spaced ta tb rounds ∧
      RunMeets (roundStep a b) s (RoundMeets a b (fun _ => true) fun _ => true) rounds := by
  induction n with
  | zero =>
    refine ⟨[], rfl, ?_, runMeets_nil⟩
    intro i r hi
    cases hi
  | succ n ih =>
    obtain ⟨rounds, hlen, hspaced, hmeets⟩ := ih
    obtain ⟨s', hrun⟩ := @run_total _ _ (roundStep a b) s (fun _ _ => ⟨_, rfl⟩) rounds
    obtain ⟨ca, hca⟩ := exists_settled s'.1
    obtain ⟨cb, hcb⟩ := exists_settled s'.2
    let na := ta + n * fabricWireCarrierSettleWindow
    let nb := tb + n * fabricWireCarrierSettleWindow
    let r : Turn × Turn :=
      (losslessTurn ca na (sentTo a (s'.2.tick (healthyKernel cb 2 true) nb).2),
        losslessTurn cb nb (sentTo b (s'.1.tick (healthyKernel ca 2 true) na).2))
    refine ⟨rounds ++ [r], by rw [length_append, hlen]; rfl, ?_, ?_⟩
    · intro i r' hi
      rcases Nat.lt_or_ge i rounds.length with hlt | hge
      · rw [getElem?_append_left hlt] at hi
        exact hspaced i r' hi
      · obtain ⟨hlt, hr'⟩ := List.getElem?_eq_some_iff.mp hi
        have hi' : i = n := by
          rw [length_append, length_singleton] at hlt
          omega
        subst hi'
        rw [getElem_append_right hge, getElem_singleton] at hr'
        subst hr'
        exact ⟨Int.le_refl na, Int.le_refl nb⟩
    · apply hmeets.append_singleton
      intro s'' hs''
      rw [hrun, some.injEq] at hs''
      subst hs''
      exact ⟨turnMeets_losslessTurn hca b na _, turnMeets_losslessTurn hcb a nb _⟩

end FabricWire

def registeredCalls (peer : Addr) : List FabricWireCall :=
  [⟨healthyKernel 0 2 true, .ensureLink ⟨1, "pod/a", "leg", "peer", peer, 1500⟩⟩]

/-- A link that two sidecars register with both devices up ends held down on neither side. -/
theorem carrier_converges_sample :
    ∃ A B rounds A' B' la lb,
      run next { config := ⟨.v4 8, 1200⟩, generation := 7 }
        (registeredCalls (.v4 9)) = some A ∧
      run next { config := ⟨.v4 9, 1200⟩, generation := 3 }
        (registeredCalls (.v4 8)) = some B ∧
      run (roundStep (.v4 8) (.v4 9)) (A, B) rounds = some (A', B') ∧
      A'.links[(1 : UInt32)]? = some la ∧ B'.links[(1 : UInt32)]? = some lb ∧
      la.forcedDown = false ∧ lb.forcedDown = false := by
  obtain ⟨A, hA, la₀, hla, hpa⟩ : ∃ A, run next
      { config := ⟨.v4 8, 1200⟩, generation := 7 } (registeredCalls (.v4 9)) = some A ∧
        ∃ link, A.links[(1 : UInt32)]? = some link ∧ link.peerAddr = .v4 9 := by
    decide +kernel
  obtain ⟨B, hB, lb₀, hlb, hpb⟩ : ∃ B, run next
      { config := ⟨.v4 9, 1200⟩, generation := 3 } (registeredCalls (.v4 8)) = some B ∧
        ∃ link, B.links[(1 : UInt32)]? = some link ∧ link.peerAddr = .v4 8 := by
    decide +kernel
  have hsince : ∀ peer, FabricWire.Since (registeredCalls peer) 0 := by
    intro peer call hc
    rw [mem_singleton.mp hc]
    exact Int.le_refl 0
  obtain ⟨rounds, hlen, hspaced, hmeets⟩ :=
    exists_rounds (.v4 8) (.v4 9) 0 0 (A, B) settlingRounds
  obtain ⟨A', B', hrun, h⟩ := carrier_converges ⟨.v4 8, 1200⟩ ⟨.v4 9, 1200⟩ A B 0 0
    ⟨7, _, registeredCalls (.v4 9), rfl, pairwise_singleton _ _, hA, hsince _⟩
    ⟨3, _, registeredCalls (.v4 8), rfl, pairwise_singleton _ _, hB, hsince _⟩
    (fun _ => true) (fun _ => true) rounds hspaced hmeets (Nat.le_of_eq hlen.symm)
  obtain ⟨la, lb, hla', hlb', hboth, -⟩ := h 1 la₀ lb₀ hla hpa hlb hpb
  exact ⟨A, B, rounds, A', B', la, lb, hA, hB, hrun, hla', hlb', hboth rfl rfl⟩

end Clabernetes.Wire
