import Clabernetes.Wire.Freshness
import Clabernetes.Wire.Splicing

/-!
# Generation fencing

What the session check (`internal/directruntime/wire_linux.go:758-811`) keeps out and clears over
whole runs. A live generation rejects every smaller one. A larger one resets the links of its peer,
but only when the session still knows the smaller generation: the timeout (`:1005-1010`) forgets it
and keeps the advertised states.
-/

namespace Clabernetes.Wire

open Base Std Option ExtTreeMap FabricWire WireReassembler

def FabricWireLink.Unheard (link : FabricWireLink) : Prop :=
  link.remoteOperUp = false ∧ link.reassembler = .new

namespace FabricWire

/-- One of the calls was a datagram of the source, at the instant and in the generation, and
the session check accepted it. -/
def Heard (start : FabricWire) (calls : List FabricWireCall) (source : Addr) (t : Int)
    (generation : UInt64) : Prop :=
  ∃ before call after w bytes body session, calls = before ++ call :: after ∧
    run next start before = some w ∧ call.event = .datagram t source bytes ∧
    parseDatagram bytes = some (generation, body) ∧
    w.AcceptsBody t source generation body session

variable {start w w' : FabricWire} {calls : List FabricWireCall} {call : FabricWireCall}
  {generation : UInt64} {session : FabricWireSession} {link : FabricWireLink} {source : Addr}
  {now t : Int} {body : Body} {config : FabricWireConfig} {r : WireReassembler} {started : UInt64}
  {bytes : Bytes} {id : UInt32}

theorem Heard.append (h : Heard start calls source t generation) (call : FabricWireCall) :
    Heard start (calls ++ [call]) source t generation := by
  obtain ⟨before, c, after, w, bytes, body, session, rfl, h⟩ := h
  exact ⟨before, c, after ++ [call], w, bytes, body, session, by simp, h⟩

theorem Heard.time_mem (h : Heard start calls source t generation) :
    ∃ call ∈ calls, call.now = t := by
  obtain ⟨before, c, after, w, bytes, body, session, rfl, -, he, -⟩ := h
  exact ⟨c, by simp, by rw [FabricWireCall.now, he]⟩

theorem Heard.cases_last (hrun : run next start calls = some w)
    (h : Heard start (calls ++ [call]) source t generation) :
    Heard start calls source t generation ∨
      ∃ bytes body session, call.event = .datagram t source bytes ∧
        parseDatagram bytes = some (generation, body) ∧
        w.AcceptsBody t source generation body session := by
  obtain ⟨before, c, after, s, bytes, body, session, hcalls, hs, h⟩ := h
  rcases List.eq_nil_or_concat after with rfl | ⟨after, last, rfl⟩
  · obtain ⟨rfl, hc⟩ := List.append_inj' hcalls rfl
    cases hc
    rw [hrun, some.injEq] at hs
    exact .inr ⟨bytes, body, session, hs ▸ h⟩
  · rw [List.concat_eq_append, ← List.cons_append, ← List.append_assoc] at hcalls
    obtain ⟨rfl, -⟩ := List.append_inj' hcalls rfl
    exact .inl ⟨before, c, after, s, bytes, body, session, rfl, hs, h⟩

theorem lookup_heardSession (he : call.event = .datagram t source bytes)
    (hparse : parseDatagram bytes = some (generation, body))
    (hb : w.AcceptsBody t source generation body session) (hn : w.next call = some w') :
    w'.sessions[source]? = some (heardSession t generation) := by
  obtain ⟨outcome, ho, rfl⟩ := map_eq_some_iff.mp hn
  rw [step_datagram (step_eq_ok ho) he]
  dsimp only
  rw [(handleDatagram_accepted call.kernel hparse hb).wire_eq]
  exact (GoMap.lookup_insert w.sessions source source _).trans (if_pos rfl)

/-- Whatever was heard no longer than the session timeout ago bounds the generation of a
session that still knows it. -/
def Live (start : FabricWire) (calls : List FabricWireCall) (w : FabricWire) : Prop :=
  ∀ source t generation, Heard start calls source t generation →
    ∀ now, Since calls now → now - t ≤ fabricWireSessionTimeout →
      ∃ session, w.sessions[source]? = some session ∧ session.generationKnown = true ∧
        generation ≤ session.generation ∧ t ≤ session.lastHeard

theorem generation_le_of_accepts {recorded : FabricWireSession}
    (hb : w.AcceptsBody now source generation body session)
    (hs : w.sessions[source]? = some recorded) (hknown : recorded.generationKnown = true)
    (hheard : now - recorded.lastHeard ≤ fabricWireSessionTimeout) :
    recorded.generation ≤ generation := by
  obtain ⟨hfor, hstale⟩ := hb.accepts
  rw [sessionFor, hs, some.injEq] at hfor
  subst hfor
  by_contra hlt
  have hlt := UInt64.not_le.mp hlt
  exact hstale ⟨⟨hknown, (UInt64.ne_of_lt hlt).symm⟩, hlt, hheard⟩

theorem Live.next (h : Live start calls w) (hrun : run next start calls = some w)
    (hnow : Since calls call.now) (hn : w.next call = some w') :
    Live start (calls ++ [call]) w' := by
  intro source t G hheard now hsince hwithin
  obtain ⟨hsince, hcall⟩ := hsince.of_append
  rcases hheard.cases_last hrun with hold | ⟨bytes, body, session, he, hparse, hb⟩
  · -- the session met by this step still knows what was heard
    have htime : t ≤ call.now := by
      obtain ⟨c, hc, rfl⟩ := hold.time_mem
      exact hnow c hc
    obtain ⟨session, hs, hknown, hle, hlast⟩ := h source t G hold call.now hnow (by omega)
    cases next_sessionStep hn source with
    | kept hk => exact ⟨session, hk.trans hs, hknown, hle, hlast⟩
    | heard now' bytes generation body met he hparse hb hk =>
      have ht : call.now = now' := by rw [FabricWireCall.now, he]
      refine ⟨_, hk, rfl, ?_, ?_⟩
      · exact UInt64.le_trans hle (generation_le_of_accepts hb hs hknown (by omega))
      · exact ht ▸ htime
    | ticked now' he hk =>
      have ht : call.now = now' := by rw [FabricWireCall.now, he]
      have hin : ¬ session.TimedOut now' := by
        rintro ⟨-, hlate⟩
        omega
      refine ⟨session, ?_, hknown, hle, hlast⟩
      rw [hk, hs, map_some, expireSession, if_neg hin]
    | forgotten dropped hd hlate _ =>
      rw [hs, some.injEq] at hd
      subst hd
      omega
  · exact ⟨heardSession t G, lookup_heardSession he hparse hb hn, rfl, UInt64.le_refl _,
      Int.le_refl _⟩

theorem Live.rejects (h : Live start calls w) {G : UInt64} (hnow : Since calls now)
    (hheard : Heard start calls source t G) (hwithin : now - t ≤ fabricWireSessionTimeout)
    (hlt : generation < G) (body : Body) (session : FabricWireSession) :
    ¬ w.AcceptsBody now source generation body session := by
  intro hb
  obtain ⟨recorded, hs, hknown, hle, hlast⟩ := h source t G hheard now hnow hwithin
  have hge := generation_le_of_accepts hb hs hknown (by omega)
  exact UInt64.not_lt.mpr (UInt64.le_trans hle hge) hlt

/-- Every session records what was heard last of its source. -/
def Recorded (start : FabricWire) (calls : List FabricWireCall) (w : FabricWire) : Prop :=
  ∀ source session, w.sessions[source]? = some session →
    Heard start calls source session.lastHeard session.generation ∧
      ∀ t generation, Heard start calls source t generation → t ≤ session.lastHeard

theorem Heard.le_now (h : Heard start calls source t generation) (hnow : Since calls now) :
    t ≤ now := by
  obtain ⟨c, hc, rfl⟩ := h.time_mem
  exact hnow c hc

theorem expireSession_heard (now : Int) (session : FabricWireSession) :
    (expireSession now session).lastHeard = session.lastHeard ∧
      (expireSession now session).generation = session.generation := by
  unfold expireSession
  split
  · exact ⟨rfl, rfl⟩
  · exact ⟨rfl, rfl⟩

theorem Recorded.next (h : Recorded start calls w) (hrun : run next start calls = some w)
    (hnow : Since calls call.now) (hn : w.next call = some w') :
    Recorded start (calls ++ [call]) w' := by
  intro source session hs
  -- what is heard in this very step is what the session holds afterwards
  have hlast : (∀ t G, Heard start calls source t G → t ≤ session.lastHeard) →
      ∀ t G, Heard start (calls ++ [call]) source t G → t ≤ session.lastHeard := by
    intro hold t G hheard
    rcases hheard.cases_last hrun with hheard | ⟨bytes, body, met, he, hparse, hb⟩
    · exact hold t G hheard
    · rw [lookup_heardSession he hparse hb hn] at hs
      cases hs
      exact Int.le_refl _
  cases next_sessionStep hn source with
  | kept hk =>
    obtain ⟨hheard, hle⟩ := h source session (hk ▸ hs)
    exact ⟨hheard.append call, hlast hle⟩
  | heard now bytes generation body met he hparse hb hk =>
    rw [hk] at hs
    cases hs
    refine ⟨⟨calls, call, [], w, bytes, body, met, rfl, hrun, he, hparse, hb⟩, hlast ?_⟩
    intro t G hheard
    have ht : call.now = now := by rw [FabricWireCall.now, he]
    exact ht ▸ hheard.le_now hnow
  | ticked now he hk =>
    rw [hk, map_eq_some_iff] at hs
    obtain ⟨old, hold, rfl⟩ := hs
    obtain ⟨hheard, hle⟩ := h source old hold
    obtain ⟨hl, hg⟩ := expireSession_heard now old
    rw [hl] at hlast ⊢
    rw [hg]
    exact ⟨hheard.append call, hlast hle⟩
  | forgotten dropped hd hlate hk =>
    rw [hk] at hs
    cases hs

/-- No link that heard its peer is moved, and no datagram of a larger generation is accepted by a
session that forgot its generation while a link of that peer is recorded up. -/
def FencedStep (w : FabricWire) (call : FabricWireCall) : Prop :=
  match call.event with
  | .ensureLink _ | .adoptPeerAddress _ _ => ∀ link, w.Moves call link → link.Unheard
  | .datagram now source bytes => ∀ session generation body, w.sessions[source]? = some session →
    session.generationKnown = false → parseDatagram bytes = some (generation, body) →
    session.generation < generation → w.AcceptsBody now source generation body session →
    ∀ (id : UInt32) (link : FabricWireLink), w.links[id]? = some link →
      link.peerAddr = source → link.remoteOperUp = false
  | _ => True

/-- What a link holds follows the session of its peer: nothing without one, no pending frame if it
forgot its generation, and none younger than what was heard last. -/
structure Cleared (w : FabricWire) (link : FabricWireLink) : Prop where
  unrecorded : w.sessions[link.peerAddr]? = none → link.Unheard
  forgotten : ∀ session, w.sessions[link.peerAddr]? = some session →
    session.generationKnown = false → link.reassembler = .new
  pending : ∀ session, w.sessions[link.peerAddr]? = some session →
    ∀ (frameID : UInt32) (frame : PendingWireFrame),
      link.reassembler.pending[frameID]? = some frame → frame.arrived ≤ session.lastHeard

theorem Cleared.of_unheard (h : link.Unheard) : Cleared w link := by
  refine ⟨fun _ => h, fun _ _ _ => h.2, fun _ _ frameID frame hf => ?_⟩
  rw [h.2, WireReassembler.new] at hf
  simp at hf

theorem reassembler_eq_new (h : ∀ frameID : UInt32, r.pending[frameID]? = none) : r = .new := by
  cases r
  unfold WireReassembler.new
  congr 1
  apply ext_getElem?
  intro frameID
  rw [h frameID, getElem?_empty]

theorem expire_new (now : Int) : WireReassembler.new.expire now = .new := by
  apply reassembler_eq_new
  intro frameID
  rw [getElem?_expire, WireReassembler.new, getElem?_empty]
  rfl

theorem arrived_bodyReassembler {k : Kernel}
    (h : ∀ (frameID : UInt32) (frame : PendingWireFrame), r.pending[frameID]? = some frame →
      frame.arrived ≤ now) (frameID : UInt32) (frame : PendingWireFrame)
    (hf : (bodyReassembler k now body id r).pending[frameID]? = some frame) :
    frame.arrived ≤ now := by
  cases body with
  | heartbeat | linkStates states => exact h frameID frame hf
  | data fragment =>
    change (if fragment.header.linkID = id then _ else _ : WireReassembler).pending[frameID]? =
      some frame at hf
    split at hf
    · rcases absorb_pending k.rank r now fragment frameID frame hf with
        ⟨hold, -⟩ | ⟨-, met, hmeets, hframe⟩
      · exact h frameID frame hold
      · have hmet : met.arrived ≤ now := by
          rcases hmeets with rfl | ⟨hold, -⟩
          · exact Int.le_refl now
          · exact h _ met hold
        rcases hframe with rfl | ⟨-, rfl⟩
        · exact hmet
        · exact hmet
    · exact h frameID frame hf

theorem Cleared.arrived_refreshed (hrec : Recorded start calls w) (h : Cleared w link)
    (hnow : Since calls now) (frameID : UInt32) (frame : PendingWireFrame)
    (hf : (refreshedLink link.peerAddr generation session link).reassembler.pending[frameID]? =
      some frame) : frame.arrived ≤ now := by
  rw [refreshedLink, if_pos rfl] at hf
  split at hf
  · simp [resetLink, WireReassembler.new] at hf
  · cases hs : w.sessions[link.peerAddr]? with
    | none =>
      rw [(h.unrecorded hs).2, WireReassembler.new] at hf
      simp at hf
    | some recorded =>
      exact Int.le_trans (h.pending recorded hs frameID frame hf)
        ((hrec link.peerAddr recorded hs).1.le_now hnow)

theorem Cleared.ticked {link' : FabricWireLink} (h : Cleared w link)
    (hp : link'.peerAddr = link.peerAddr) (hr : link'.remoteOperUp = link.remoteOperUp)
    (ha : link'.reassembler = link.reassembler.expire now)
    (hs : w'.sessions[link.peerAddr]? = w.sessions[link.peerAddr]?.map (expireSession now)) :
    Cleared w' link' := by
  have hnew : link.reassembler = .new → link'.reassembler = .new := by
    intro hn
    rw [ha, hn, expire_new]
  constructor
  · intro hnone
    rw [hp, hs, map_eq_none_iff] at hnone
    obtain ⟨hremote, hreassembler⟩ := h.unrecorded hnone
    exact ⟨hr.trans hremote, hnew hreassembler⟩
  · intro session hsession hforgot
    rw [hp, hs, map_eq_some_iff] at hsession
    obtain ⟨old, hold, rfl⟩ := hsession
    by_cases ht : old.TimedOut now
    · rw [ha]
      apply reassembler_eq_new
      intro frameID
      apply eq_none_iff_forall_ne_some.mpr
      intro frame hf
      obtain ⟨hpend, hyoung⟩ := (expire_some _ now frameID frame).mp hf
      exact hyoung (expired_of_timedOut ht (h.pending old hold frameID frame hpend))
    · rw [expireSession, if_neg ht] at hforgot
      exact hnew (h.forgotten old hold hforgot)
  · intro session hsession frameID frame hf
    rw [hp, hs, map_eq_some_iff] at hsession
    obtain ⟨old, hold, rfl⟩ := hsession
    rw [ha] at hf
    rw [(expireSession_heard now old).1]
    exact h.pending old hold frameID frame
      ((expire_some _ now frameID frame).mp hf).1

theorem cleared_next (hrec : Recorded start calls w) (hnow : Since calls call.now)
    (h : ∀ (id : UInt32) (link : FabricWireLink), w.links[id]? = some link → Cleared w link)
    (hallow : FencedStep w call) (hn : w.next call = some w') (id : UInt32)
    (link' : FabricWireLink) (hl' : w'.links[id]? = some link') : Cleared w' link' := by
  cases next_linkStep hn hl' with
  | created hr ha => exact .of_unheard ⟨hr, ha⟩
  | kept link hl hsame hs =>
    have hc := h id link hl
    obtain ⟨hp, hr, ha⟩ := hsame
    constructor
    · intro hnone
      rw [hp, hs] at hnone
      obtain ⟨hremote, hreassembler⟩ := hc.unrecorded hnone
      exact ⟨hr.trans hremote, ha.trans hreassembler⟩
    · intro session hsession hforgot
      rw [hp, hs] at hsession
      exact ha.trans (hc.forgotten session hsession hforgot)
    · intro session hsession frameID frame hf
      rw [hp, hs] at hsession
      exact hc.pending session hsession frameID frame (ha ▸ hf)
  | heard link now bytes generation body session hl he _ hb hp _ ha hs =>
    have ht : call.now = now := by rw [FabricWireCall.now, he]
    constructor
    · intro hnone
      rw [hp, hs] at hnone
      cases hnone
    · intro recorded hrecorded hforgot
      rw [hp, hs] at hrecorded
      cases hrecorded
      cases hforgot
    · intro recorded hrecorded frameID frame hf
      rw [hp, hs] at hrecorded
      cases hrecorded
      rw [ha] at hf
      refine arrived_bodyReassembler (fun frameID frame hf => ?_) frameID frame hf
      exact (h id link hl).arrived_refreshed hrec (ht ▸ hnow) frameID frame hf
  | ticked link now hl _ hp hr ha hs => exact (h id link hl).ticked hp hr ha hs
  | rehomed link spec hl he _ _ hne hr ha =>
    rw [FencedStep, he] at hallow
    obtain ⟨hremote, hreassembler⟩ := hallow link ⟨w', id, link', hn, hl, hl', hne⟩
    exact .of_unheard ⟨hr.trans hremote, ha.trans hreassembler⟩
  | adopted link address hl he hne hp hr ha =>
    rw [FencedStep, he] at hallow
    have hmoves : w.Moves call link := ⟨w', id, link', hn, hl, hl', hp ▸ hne.symm⟩
    exact .of_unheard ⟨hr, ha.trans (hallow link hmoves).2⟩

theorem Cleared.unheard_refreshed (h : Cleared w link) (hallow : FencedStep w call)
    (he : call.event = .datagram now link.peerAddr bytes)
    (hparse : parseDatagram bytes = some (generation, body))
    (hb : w.AcceptsBody now link.peerAddr generation body session)
    (hlt : session.generation < generation) (hl : w.links[id]? = some link) :
    (refreshedLink link.peerAddr generation session link).Unheard := by
  have hfor := hb.accepts.1
  rw [FencedStep, he] at hallow
  rw [refreshedLink, if_pos rfl]
  unfold sessionFor at hfor
  split at hfor
  · next recorded hs =>
    cases hfor
    split
    · exact ⟨rfl, rfl⟩
    · next hsame =>
      have hforgot : session.generationKnown = false := by
        apply Bool.eq_false_iff.mpr
        intro hknown
        exact hsame ⟨hknown, UInt64.ne_of_lt hlt⟩
      exact ⟨hallow session generation body hs hforgot hparse hlt hb id link hl rfl,
        h.forgotten session hs hforgot⟩
  · next hs =>
    split at hfor
    · cases hfor
      rw [if_neg (fun hd => Bool.noConfusion hd.1)]
      exact h.unrecorded hs
    · cases hfor

variable (hstart : newFabricWire config started = .ok start)
  (hclock : calls.Pairwise fun a b => a.now ≤ b.now)

include hstart hclock

theorem live_recorded_run (hrun : run next start calls = some w) :
    Live start calls w ∧ Recorded start calls w := by
  refine timed_invariant (P := fun calls w => Live start calls w ∧ Recorded start calls w)
    ⟨?_, ?_⟩ ?_ calls w hclock runMeets_true hrun
  · intro source t generation hheard
    obtain ⟨c, hc, -⟩ := hheard.time_mem
    cases hc
  · intro source session hs
    rw [newFabricWire_eq_ok hstart] at hs
    simp at hs
  · rintro calls w call w' hrun hnow ⟨hlive, hrec⟩ - hn
    exact ⟨hlive.next hrun hnow hn, hrec.next hrun hnow hn⟩

theorem cleared_run (hallow : RunMeets next start FencedStep calls)
    (hrun : run next start calls = some w) (id : UInt32) (link : FabricWireLink)
    (hl : w.links[id]? = some link) : Cleared w link := by
  have hinv : Recorded start calls w ∧
      ∀ (id : UInt32) (link : FabricWireLink), w.links[id]? = some link → Cleared w link := by
    refine timed_invariant (P := fun calls w => Recorded start calls w ∧
      ∀ (id : UInt32) (link : FabricWireLink), w.links[id]? = some link → Cleared w link)
      ⟨?_, ?_⟩ ?_ calls w hclock hallow hrun
    · intro source session hs
      rw [newFabricWire_eq_ok hstart] at hs
      simp at hs
    · intro id link hl
      rw [newFabricWire_eq_ok hstart] at hl
      simp at hl
    · rintro calls w call w' hrun hnow ⟨hrec, hc⟩ ha hn
      exact ⟨hrec.next hrun hnow hn, cleared_next hrec hnow hc ha hn⟩
  exact hinv.2 id link hl

end FabricWire

open FabricWire in
/-- A datagram of a smaller generation than one heard lately changes nothing but drop counters;
where `FencedStep` allows the steps, a larger generation meets links that hold nothing of the
smaller one. -/
theorem generation_fenced (config : FabricWireConfig) (started : UInt64) (start : FabricWire)
    (hstart : newFabricWire config started = .ok start) (calls : List FabricWireCall)
    (call : FabricWireCall) (hclock : (calls ++ [call]).Pairwise fun a b => a.now ≤ b.now)
    (w : FabricWire) (hrun : run next start calls = some w) (now : Int)
    (source : Addr) (bytes : Bytes) (he : call.event = .datagram now source bytes)
    (generation : UInt64) (body : Body)
    (hparse : parseDatagram bytes = some (generation, body)) (outcome : Outcome)
    (hstep : w.step call = .ok outcome) :
    (∀ t newest, Heard start calls source t newest → now - t ≤ fabricWireSessionTimeout →
      generation < newest → w.CountersOnly outcome.wire ∧ outcome.effects = []) ∧
    (∀ session, w.sessions[source]? = some session →
      Heard start calls source session.lastHeard session.generation ∧
        ∀ t heard, Heard start calls source t heard → t ≤ session.lastHeard) ∧
    (RunMeets next start FencedStep (calls ++ [call]) →
      ∀ session, w.AcceptsBody now source generation body session →
      session.generation < generation →
      ∀ (id : UInt32) (link : FabricWireLink), w.links[id]? = some link →
        link.peerAddr = source →
        (∃ link', outcome.wire.links[id]? = some link' ∧
          link'.remoteOperUp = bodyRemote body id false ∧
          link'.reassembler = bodyReassembler call.kernel now body id .new) ∧
        ∀ packetFD frame, .inject id packetFD frame ∈ outcome.effects →
          ∃ fragment, body = .data fragment ∧
            (WireReassembler.new.absorb call.kernel.rank now fragment).frame = some frame) := by
  have hsorted := (List.pairwise_append.mp hclock).1
  have ht : call.now = now := by rw [FabricWireCall.now, he]
  have hnow : Since calls now := ht ▸ since_of_pairwise hclock
  obtain ⟨hlive, hrec⟩ := live_recorded_run hstart hsorted hrun
  have houtcome := step_datagram hstep he
  refine ⟨?_, hrec source, ?_⟩
  · intro t newest hheard hwithin hlt
    rw [houtcome]
    exact handleDatagram_rejected call.kernel hparse
      (hlive.rejects hnow hheard hwithin hlt body)
  · rintro hallow session hb hlt id link hl rfl
    have hunheard := (cleared_run hstart hsorted hallow.of_append hrun id link hl).unheard_refreshed
      (hallow.last hrun) he hparse hb hlt hl
    have ha := handleDatagram_accepted call.kernel hparse hb
    constructor
    · obtain ⟨deadline, counters, hbody⟩ := bodyLink_eq call.kernel now link.peerAddr generation
        session (w.handleDatagram call.kernel now link.peerAddr bytes).1.sessions body id rfl
      have hlink := ha.links id
      rw [hl, map_some, hbody, hunheard.1, hunheard.2] at hlink
      rw [houtcome]
      exact ⟨_, hlink, rfl, rfl⟩
    · intro packetFD frame hinject
      obtain ⟨now', source', bytes', generation', fragment, met, link', he', hparse', hi⟩ :=
        inject_mem_step hstep hinject
      rw [he] at he'
      cases he'
      rw [hparse] at hparse'
      cases hparse'
      obtain ⟨hb', -, hl', -, hcompletes⟩ := hi
      rw [hl] at hl'
      cases hl'
      rw [hb'.unique hb, hunheard.2] at hcompletes
      exact ⟨fragment, rfl, hcompletes⟩

def restartCall (now : Int) : FabricWireCall :=
  ⟨healthyKernel 0 2 true, .datagram now (.v4 9) (encodeFabricWireHeartbeat 6)⟩

/-- The heartbeat of the restarted peer raises the leg on what the smaller generation advertised. -/
theorem restarted_not_cleared :
    ∃ w outcome, run next unregisteredWire (restartedCalls.take 3) = some w ∧
      w.step (restartCall (11 * second)) = .ok outcome ∧
      (w.sessions[Addr.v4 9]?.map FabricWireSession.generation,
        outcome.wire.sessions[Addr.v4 9]?.map FabricWireSession.generation) = (some 5, some 6) ∧
      ∃ link, outcome.wire.links[(1 : UInt32)]? = some link ∧ link.peerAddr = .v4 9 ∧
        link.remoteOperUp = true ∧ link.lastLocalUp = true ∧ link.forcedDown = false := by
  simp only [exists_and_left]
  decide +kernel

/-- Without the silence in between, the same heartbeat clears the advertised state. -/
theorem generation_fenced_sample :
    ∃ w outcome, run next unregisteredWire (restartedCalls.take 2) = some w ∧
      w.step (restartCall 2) = .ok outcome ∧
      ∃ link, outcome.wire.links[(1 : UInt32)]? = some link ∧ link.remoteOperUp = false := by
  obtain ⟨w, hw, ⟨outcome, ho⟩, hs, link, hl, hpeer⟩ : ∃ w,
      run next unregisteredWire (restartedCalls.take 2) = some w ∧
        (∃ outcome, w.step (restartCall 2) = .ok outcome) ∧
        w.sessions[Addr.v4 9]? = some (heardSession 1 5) ∧
        ∃ link, w.links[(1 : UInt32)]? = some link ∧ link.peerAddr = .v4 9 := by
    decide +kernel
  have haccepts : w.AcceptsBody 2 (.v4 9) 6 .heartbeat (heardSession 1 5) := by
    refine ⟨⟨by rw [sessionFor, hs], ?_⟩, nofun⟩
    rintro ⟨-, hlt, -⟩
    exact absurd hlt (by decide)
  have hmeets : RunMeets next unregisteredWire FabricWire.FencedStep
      (restartedCalls.take 2 ++ [restartCall 2]) := by
    apply RunMeets.append_singleton
    · apply runMeets_cons
      · rintro link ⟨_, _, _, -, hl, -⟩
        simp [unregisteredWire] at hl
      · intro w₁ hw₁
        refine runMeets_cons ?_ fun _ _ => runMeets_nil
        intro session generation body hs
        rw [unheard_registered hw₁] at hs
        cases hs
    · intro w₂ hw₂
      rw [hw, some.injEq] at hw₂
      subst hw₂
      intro session generation body hs' hforgot
      rw [hs, some.injEq] at hs'
      subst hs'
      cases hforgot
  obtain ⟨⟨link', hl', hremote, -⟩, -⟩ := (generation_fenced ⟨.v4 8, 1200⟩ 7 unregisteredWire rfl
    (restartedCalls.take 2) (restartCall 2) (by decide) w hw 2 (.v4 9) _ rfl 6 .heartbeat
    (parseDatagram_heartbeat 6) outcome ho).2.2 hmeets _ haccepts (by decide) 1 link hl
      hpeer
  exact ⟨w, outcome, hw, ho, link', hl', hremote⟩

end Clabernetes.Wire
