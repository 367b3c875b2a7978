import Mathlib.Data.List.Induction
import Clabernetes.Wire.Reassembler

/-!
# Fabric wire round trip

A frame that `transmitFrame` splits and encodes is returned by the receiving link's reassembler
whatever the arrival order, the duplicates and the fragments of other frames in between. The
invariant compares the table of the pending frame with the set of its datagrams that arrived.
-/

namespace Clabernetes.Wire

open Base Std List Option GoMap WireReassembler UInt8

/-- One datagram handed to the reassembler of its link: the receive time, the map order of a
possible eviction and the bytes. -/
structure Arrival where
  now : Int
  rank : UInt32 → Nat
  datagram : Bytes

def parseFabricWireData (datagram : Bytes) : Option FabricWireFragment :=
  match parseFabricWireHeader datagram with
  | .error _ => none
  | .ok (header, body) =>
    if header.msgType = fabricWireMsgData then (parseFabricWireDataHeader body).toOption else none

theorem parseFabricWireData_encode (generation : UInt64) (fragment : FabricWireFragment) :
    parseFabricWireData (encodeFabricWireFragment generation fragment.header fragment.payload) =
      some fragment := by
  rw [parseFabricWireData, encodeFabricWireFragment, parseFabricWireHeader_put]
  simp only [↓reduceIte, parseFabricWireDataHeader_put, Except.toOption]

namespace WireReassembler

variable (r : WireReassembler)

def receive (a : Arrival) : WireReassembler × List (UInt32 × Bytes) :=
  match parseFabricWireData a.datagram with
  | none => (r, [])
  | some fragment =>
    let result := r.absorb a.rank a.now fragment
    (result.reassembler, (result.frame.map fun bytes => (fragment.header.frameID, bytes)).toList)

variable (arrivals : List Arrival)

def receiveAll : WireReassembler × List (UInt32 × Bytes) :=
  arrivals.foldl (fun s a => ((s.1.receive a).1, s.2 ++ (s.1.receive a).2)) (r, [])

def delivered (frameID : UInt32) : List Bytes :=
  ((r.receiveAll arrivals).2.filter fun out => out.1 == frameID).map Prod.snd

/-- Nothing pending is past due and the fragment opens no table at the in-flight cap. -/
def CalmAt (now : Int) (fragment : FabricWireFragment) : Prop :=
  (∀ (id : UInt32) (frame : PendingWireFrame), r.pending[id]? = some frame →
      ¬ frame.Expired now) ∧
    (r.pending[fragment.header.frameID]? = none → r.pending.size < fabricWireReassemblyFrameLimit)

def Calm : Prop :=
  ∀ before a after, arrivals = before ++ a :: after → ∀ fragment,
    parseFabricWireData a.datagram = some fragment → (r.receiveAll before).1.CalmAt a.now fragment

theorem receiveAll_append (a : Arrival) :
    r.receiveAll (arrivals ++ [a]) =
      (((r.receiveAll arrivals).1.receive a).1,
        (r.receiveAll arrivals).2 ++ ((r.receiveAll arrivals).1.receive a).2) := by
  rw [receiveAll, foldl_append]
  rfl

theorem delivered_append (a : Arrival)
    (frameID : UInt32) : r.delivered (arrivals ++ [a]) frameID = r.delivered arrivals frameID ++
      (((r.receiveAll arrivals).1.receive a).2.filter fun out => out.1 == frameID).map
        Prod.snd := by
  rw [delivered, receiveAll_append, filter_append, map_append]
  rfl

theorem pendingFor_of_calmAt (rank : UInt32 → Nat) (r : WireReassembler) (now : Int)
    (fragment : FabricWireFragment) (h : r.CalmAt now fragment) :
    r.pendingFor rank now fragment.header =
      match r.pending[fragment.header.frameID]? with
      | some frame => (r, [], frame)
      | none => (⟨r.pending.insert fragment.header.frameID (.fresh now fragment.header)⟩, [],
          .fresh now fragment.header) := by
  have he : r.expire now = r := by
    have hp : (r.expire now).pending = r.pending := by
      apply ExtTreeMap.ext_getElem?
      intro id
      rw [getElem?_expire]
      cases hf : r.pending[id]? with
      | none => rfl
      | some frame => simp [h.1 id frame hf]
    cases r
    exact congrArg WireReassembler.mk hp
  rw [pendingFor, he]
  cases hf : r.pending[fragment.header.frameID]? with
  | some frame => rfl
  | none =>
    have hs : ¬ r.pending.size ≥ fabricWireReassemblyFrameLimit := Nat.not_le.mpr (h.2 hf)
    dsimp only
    rw [openFrame, if_neg hs]

theorem absorb_foreign (rank : UInt32 → Nat) (r : WireReassembler) (now : Int)
    (fragment : FabricWireFragment) (frameID : UInt32) (h : r.CalmAt now fragment)
    (hne : frameID ≠ fragment.header.frameID) :
    (r.absorb rank now fragment).reassembler.pending[frameID]? = r.pending[frameID]? := by
  have ha := pendingFor_of_calmAt rank r now fragment h
  change ((r.pendingFor rank now
    fragment.header).1.integrate _ fragment).reassembler.pending[frameID]? = _
  rw [integrate_ne _ _ fragment frameID hne, ha]
  split
  · rfl
  · rw [lookup_insert, if_neg hne.symm]

end WireReassembler

section Transmission

variable (generation : UInt64) (linkID frameID : UInt32) (frame : Bytes)
  (fragments : List Bytes)

/-- A split frame: what `splitFabricWireFrame` guarantees of its slices. -/
structure SplitOf : Prop where
  flatten_eq : fragments.flatten = frame
  frame_ne : frame ≠ []
  frame_lt : frame.length < 2 ^ 16
  count_lt : fragments.length < 2 ^ 8
  slice : ∀ fragment ∈ fragments, fragment ≠ [] ∧ fragment.length ≤ frame.length

variable (filled : Nat → Bool)

def tableOf : List (Option Bytes) :=
  fragments.mapIdx fun index fragment => if filled index then some fragment else none

def arrivedIn (arrivals : List Arrival) (index : Nat) : Bool :=
  arrivals.any fun a =>
    (transmitDatagrams generation linkID frameID frame fragments)[index]? == some a.datagram

def allArrived (arrivals : List Arrival) : Bool :=
  (List.range fragments.length).all (arrivedIn generation linkID frameID frame fragments arrivals)

variable {frame fragments}

theorem getElem?_tableOf (index : Nat) (h : index < fragments.length) :
    (tableOf fragments filled)[index]? =
      some (if filled index then some fragments[index] else none) := by
  rw [tableOf, getElem?_mapIdx, getElem?_eq_getElem h]
  rfl

theorem tableOf_set (filled filled' : Nat → Bool) (index : Nat) (h : index < fragments.length)
    (hf : ∀ j, filled' j = (filled j || j == index)) :
    (tableOf fragments filled).set index (some fragments[index]) = tableOf fragments filled' := by
  apply ext_getElem?
  intro j
  by_cases hj : j < fragments.length
  · rw [getElem?_set, getElem?_tableOf filled' j hj, hf j]
    by_cases he : index = j
    · subst he
      simp [tableOf, h]
    · rw [if_neg he, getElem?_tableOf filled j hj]
      simp [Ne.symm he]
  · rw [getElem?_eq_none (by simp [tableOf]; omega), getElem?_eq_none (by simp [tableOf]; omega)]

theorem countP_tableOf :
    (tableOf fragments filled).countP Option.isSome = fragments.length ↔
      ∀ index < fragments.length, filled index = true := by
  have hl : (tableOf fragments filled).length = fragments.length := by simp [tableOf]
  rw [← hl, countP_eq_length]
  constructor
  · intro h index hi
    have hm : (if filled index then some fragments[index] else none) ∈ tableOf fragments filled :=
      mem_of_getElem? (getElem?_tableOf filled index (hl ▸ hi))
    have hs := h _ hm
    by_contra hn
    simp [hn] at hs
  · intro h slot hm
    obtain ⟨index, hi, rfl⟩ := mem_mapIdx.mp hm
    simp [h index (hl ▸ hi)]

theorem flatMap_tableOf (h : ∀ index < fragments.length, filled index = true) :
    (tableOf fragments filled).flatMap (·.getD []) = fragments.flatten := by
  have ht : tableOf fragments filled = fragments.map some := by
    apply ext_getElem?
    intro j
    by_cases hj : j < fragments.length
    · rw [getElem?_tableOf filled j hj, h j hj]
      simp [hj]
    · rw [getElem?_eq_none (by simp [tableOf]; omega), getElem?_eq_none (by simp; omega)]
  rw [ht, flatMap_map]
  simp [flatMap_id']

def fragmentAt (hs : SplitOf frame fragments) (index : Nat) (hi : index < fragments.length) :
    FabricWireFragment :=
  { header := transmitHeader linkID frameID frame fragments index
    payload := fragments[index]
    index_lt := by
      have hc := hs.count_lt
      rw [lt_iff_toNat_lt, transmitHeader, toNat_ofNat', toNat_ofNat']
      omega
    payload_ne := (hs.slice _ (getElem_mem hi)).1
    payload_le := by
      have hl := hs.frame_lt
      have hp := (hs.slice _ (getElem_mem hi)).2
      rw [transmitHeader, UInt16.toNat_ofNat']
      omega }

theorem getElem?_transmitDatagrams (index : Nat) (hi : index < fragments.length) :
    (transmitDatagrams generation linkID frameID frame fragments)[index]? =
      some (encodeFabricWireFragment generation
        (transmitHeader linkID frameID frame fragments index) fragments[index]) := by
  rw [transmitDatagrams, getElem?_mapIdx, getElem?_eq_getElem hi]
  rfl

section

variable (hs : SplitOf frame fragments)

include hs

theorem parse_transmitDatagrams (index : Nat) (hi : index < fragments.length) (datagram : Bytes)
    (hd : (transmitDatagrams generation linkID frameID frame fragments)[index]? = some datagram) :
    parseFabricWireData datagram = some (fragmentAt linkID frameID hs index hi) := by
  rw [getElem?_transmitDatagrams generation linkID frameID index hi, some.injEq] at hd
  rw [← hd]
  exact parseFabricWireData_encode generation (fragmentAt linkID frameID hs index hi)

theorem toNat_fragIndex (index : Nat) (hi : index < fragments.length) :
    (transmitHeader linkID frameID frame fragments index).fragIndex.toNat = index := by
  have hc := hs.count_lt
  rw [transmitHeader, toNat_ofNat']
  omega

theorem transmitDatagrams_inj (i j : Nat)
    (hi : i < fragments.length) (hj : j < fragments.length) (datagram : Bytes)
    (hdi : (transmitDatagrams generation linkID frameID frame fragments)[i]? = some datagram)
    (hdj : (transmitDatagrams generation linkID frameID frame fragments)[j]? = some datagram) :
    i = j := by
  have hpi := parse_transmitDatagrams generation linkID frameID hs i hi datagram hdi
  have hpj := parse_transmitDatagrams generation linkID frameID hs j hj datagram hdj
  rw [hpi, some.injEq] at hpj
  have hx := congrArg (fun f => f.header.fragIndex.toNat) hpj
  dsimp only [fragmentAt] at hx
  rwa [toNat_fragIndex linkID frameID hs i hi, toNat_fragIndex linkID frameID hs j hj] at hx

end

/-- The pending frame holds exactly the filled slots of the transmitted frame. -/
structure Holds (frame : Bytes) (fragments : List Bytes) (p : PendingWireFrame)
    (filled : Nat → Bool) : Prop where
  consistent : p.Consistent
  fragCount_eq : p.fragCount = fragments.length
  totalLen_eq : p.totalLen = frame.length
  fragments_eq : p.fragments = tableOf fragments filled

theorem holds_fresh (hs : SplitOf frame fragments) (now : Int) (index : Nat)
    (filled : Nat → Bool) (hf : ∀ j < fragments.length, filled j = false) :
    Holds frame fragments (.fresh now (transmitHeader linkID frameID frame fragments index))
      filled := by
  have hc := hs.count_lt
  have hl := hs.frame_lt
  have hn : (ofNat fragments.length).toNat = fragments.length := by
    rw [toNat_ofNat']
    omega
  constructor
  · exact PendingWireFrame.consistent_fresh now _
  · exact hn
  · change (UInt16.ofNat frame.length).toNat = frame.length
    rw [UInt16.toNat_ofNat']
    omega
  · apply ext_getElem?
    intro j
    simp only [PendingWireFrame.fresh, transmitHeader, hn, getElem?_replicate]
    split
    · next hj => rw [getElem?_tableOf filled j hj, hf j hj]; rfl
    · rw [getElem?_eq_none (by simp [tableOf]; omega)]

theorem integrate_fragmentAt (hs : SplitOf frame fragments) (r : WireReassembler)
    (p : PendingWireFrame) (filled filled' : Nat → Bool) (index : Nat)
    (hi : index < fragments.length) (hp : Holds frame fragments p filled)
    (hr : r.pending[frameID]? = some p) (hnot : ¬ ∀ j < fragments.length, filled j = true)
    (hf : ∀ j, filled' j = (filled j || j == index)) :
    let result := r.integrate p (fragmentAt linkID frameID hs index hi)
    if ∀ j < fragments.length, filled' j = true then
      result.reassembler.pending[frameID]? = none ∧ result.frame = some frame
    else
      (∃ p', result.reassembler.pending[frameID]? = some p' ∧ Holds frame fragments p' filled') ∧
        result.frame = none := by
  intro result
  have hx : (fragmentAt linkID frameID hs index hi).header.fragIndex.toNat = index :=
    toNat_fragIndex linkID frameID hs index hi
  have hfresh := holds_fresh linkID frameID hs 0 index (fun _ => false) (fun _ _ => rfl)
  have ha : p.Agrees (fragmentAt linkID frameID hs index hi).header :=
    ⟨hp.fragCount_eq.trans hfresh.fragCount_eq.symm, hp.totalLen_eq.trans hfresh.totalLen_eq.symm⟩
  have hslot : p.fragments[index]? =
      some (if filled index then some fragments[index] else none) := by
    rw [hp.fragments_eq, getElem?_tableOf filled index hi]
  cases hfi : filled index with
  | true =>
    -- a duplicate: the slot is taken and the set of filled slots stays
    have he : filled' = filled := by
      funext j
      rw [hf j]
      by_cases hj : j = index
      · rw [hj, hfi]; rfl
      · simp [hj]
    have hres : result = ⟨r, [], none⟩ := by
      apply integrate_of_taken r p _ fragments[index] ha
      rw [hx, hslot, hfi]
      rfl
    rw [he, if_neg hnot, hres]
    exact ⟨⟨p, hr, hp⟩, rfl⟩
  | false =>
    have hfills : WireReassembler.Fills p (fragmentAt linkID frameID hs index hi) := by
      refine ⟨ha, ?_⟩
      rw [hx, hslot, hfi]
      rfl
    have hp' : Holds frame fragments (p.store index fragments[index]) filled' := by
      constructor
      · apply hp.consistent.store
        rw [hslot, hfi]
        rfl
      · exact hp.fragCount_eq
      · exact hp.totalLen_eq
      · change p.fragments.set index (some fragments[index]) = _
        rw [hp.fragments_eq, tableOf_set filled filled' index hi hf]
    have hcount := @countP_tableOf fragments filled'
    rw [← hp'.fragments_eq, ← hp'.consistent.received_eq] at hcount
    have hle : (p.store index fragments[index]).received ≤ fragments.length := by
      rw [hp'.consistent.received_eq, ← hp'.fragCount_eq,
        ← (p.store index fragments[index]).length_fragments]
      exact countP_le_length
    have hres := integrate_of_fills r p _ hfills
    rw [hx] at hres
    change result = _ at hres
    dsimp only [fragmentAt] at hres
    rw [hp'.fragCount_eq, hp'.totalLen_eq] at hres
    by_cases hall : ∀ j < fragments.length, filled' j = true
    · -- the last missing slot: the counters reach the announced geometry
      have hasm : (p.store index fragments[index]).assembled = frame := by
        rw [PendingWireFrame.assembled, hp'.fragments_eq, flatMap_tableOf filled' hall,
          hs.flatten_eq]
      rw [if_neg (by rw [hcount.mpr hall]; omega),
        if_neg (by rw [hp'.consistent.bytes_eq, hasm]; exact not_not.mpr rfl), hasm] at hres
      rw [if_pos hall, hres]
      exact ⟨ExtTreeMap.getElem?_erase_self, rfl⟩
    · rw [if_pos (Nat.lt_of_le_of_ne hle (fun h => hall (hcount.mp h)))] at hres
      rw [if_neg hall, hres]
      exact ⟨⟨_, ExtTreeMap.getElem?_insert_self, hp'⟩, rfl⟩

def Foreign (a : Arrival) : Prop :=
  ∀ fragment, parseFabricWireData a.datagram = some fragment → fragment.header.frameID ≠ frameID

variable (frame fragments)

def Own (a : Arrival) : Prop :=
  ∃ index < fragments.length,
    (transmitDatagrams generation linkID frameID frame fragments)[index]? = some a.datagram

/-- Datagrams of the frame in any order and number until the last missing one, anything else in
between, no expiry and no eviction. -/
structure Interleaving (r : WireReassembler) (arrivals : List Arrival) : Prop where
  own_or_foreign : ∀ a ∈ arrivals,
    Own generation linkID frameID frame fragments a ∨ Foreign frameID a
  calm : r.Calm arrivals
  no_late : ∀ before a after, arrivals = before ++ a :: after →
    allArrived generation linkID frameID frame fragments before = true → Foreign frameID a

theorem Interleaving.of_append {r : WireReassembler} {before after : List Arrival}
    (h : Interleaving generation linkID frameID frame fragments r (before ++ after)) :
    Interleaving generation linkID frameID frame fragments r before := by
  constructor
  · intro a ha
    exact h.own_or_foreign a (mem_append_left _ ha)
  · intro b a c he
    exact h.calm b a (c ++ after) (by rw [he, append_assoc, cons_append])
  · intro b a c he
    exact h.no_late b a (c ++ after) (by rw [he, append_assoc, cons_append])

/-- The state of the reassembler around one frame: nothing of it has arrived and nothing is
pending, or the pending table holds the arrived slots. -/
def Waiting (r : WireReassembler) (filled : Nat → Bool) : Prop :=
  (r.pending[frameID]? = none ∧ ∀ j < fragments.length, filled j = false) ∨
    ∃ p, r.pending[frameID]? = some p ∧ Holds frame fragments p filled

/-- Before the last missing datagram nothing is returned and the table waits; from then on the frame
has been returned once. -/
def Progress (r : WireReassembler) (arrivals : List Arrival) : Prop :=
  if allArrived generation linkID frameID frame fragments arrivals then
    r.delivered arrivals frameID = [frame] ∧ (r.receiveAll arrivals).1.pending[frameID]? = none
  else
    r.delivered arrivals frameID = [] ∧
      Waiting frameID frame fragments (r.receiveAll arrivals).1
        (arrivedIn generation linkID frameID frame fragments arrivals)

variable {frame fragments}

theorem allArrived_iff (arrivals : List Arrival) :
    allArrived generation linkID frameID frame fragments arrivals = true ↔
      ∀ j < fragments.length,
        arrivedIn generation linkID frameID frame fragments arrivals j = true := by
  simp [allArrived]

section

variable (hs : SplitOf frame fragments)

include hs

theorem arrivedIn_foreign (arrivals : List Arrival) (a : Arrival) (ha : Foreign frameID a) :
    arrivedIn generation linkID frameID frame fragments (arrivals ++ [a]) =
      arrivedIn generation linkID frameID frame fragments arrivals := by
  funext j
  have hne : (transmitDatagrams generation linkID frameID frame fragments)[j]? ≠
      some a.datagram := by
    intro hd
    by_cases hj : j < fragments.length
    · exact ha _ (parse_transmitDatagrams generation linkID frameID hs j hj _ hd) rfl
    · rw [getElem?_eq_none (by simp [transmitDatagrams]; omega)] at hd
      cases hd
  simp [arrivedIn, any_append, hne]

theorem arrivedIn_own (arrivals : List Arrival) (a : Arrival)
    (index : Nat) (hi : index < fragments.length)
    (hd : (transmitDatagrams generation linkID frameID frame fragments)[index]? =
      some a.datagram) (j : Nat) :
    arrivedIn generation linkID frameID frame fragments (arrivals ++ [a]) j =
      (arrivedIn generation linkID frameID frame fragments arrivals j || j == index) := by
  have he : ((transmitDatagrams generation linkID frameID frame fragments)[j]? ==
      some a.datagram) = (j == index) := by
    by_cases hj : j < fragments.length
    · apply Bool.eq_iff_iff.mpr
      simp only [beq_iff_eq]
      constructor
      · intro hdj
        exact transmitDatagrams_inj generation linkID frameID hs j index hj hi _ hdj hd
      · rintro rfl
        exact hd
    · have hn : j ≠ index := by omega
      rw [getElem?_eq_none (by simp [transmitDatagrams]; omega)]
      simp [hn]
  rw [arrivedIn, any_append]
  simp only [any_cons, any_nil, Bool.or_false, he]
  rfl

theorem pendingFor_holds (rank : UInt32 → Nat)
    (r : WireReassembler) (now : Int) (filled : Nat → Bool) (index : Nat)
    (hi : index < fragments.length) (hw : Waiting frameID frame fragments r filled)
    (hc : r.CalmAt now (fragmentAt linkID frameID hs index hi)) : Holds frame fragments
      (r.pendingFor rank now (fragmentAt linkID frameID hs index hi).header).2.2 filled := by
  have he := pendingFor_of_calmAt rank r now _ hc
  have hid : (fragmentAt linkID frameID hs index hi).header.frameID = frameID := rfl
  rw [he, hid]
  rcases hw with ⟨hn, hf⟩ | ⟨p, hp, hh⟩
  · rw [hn]
    exact holds_fresh linkID frameID hs now index filled hf
  · rw [hp]
    exact hh

end

theorem receive_foreign (r : WireReassembler) (a : Arrival) (ha : Foreign frameID a)
    (hc : ∀ fragment, parseFabricWireData a.datagram = some fragment → r.CalmAt a.now fragment) :
    (r.receive a).1.pending[frameID]? = r.pending[frameID]? ∧
      (r.receive a).2.filter (fun out => out.1 == frameID) = [] := by
  cases hd : parseFabricWireData a.datagram with
  | none => simp [receive, hd]
  | some fragment =>
    have hne := ha fragment hd
    simp only [receive, hd]
    constructor
    · exact absorb_foreign a.rank r a.now fragment frameID (hc fragment hd)
        (Ne.symm hne)
    · cases (r.absorb a.rank a.now fragment).frame <;> simp [hne]

theorem receive_own (hs : SplitOf frame fragments) (r : WireReassembler) (a : Arrival)
    (filled filled' : Nat → Bool) (index : Nat) (hi : index < fragments.length)
    (hd : (transmitDatagrams generation linkID frameID frame fragments)[index]? = some a.datagram)
    (hc : r.CalmAt a.now (fragmentAt linkID frameID hs index hi))
    (hw : Waiting frameID frame fragments r filled)
    (hnot : ¬ ∀ j < fragments.length, filled j = true)
    (hf : ∀ j, filled' j = (filled j || j == index)) :
    if ∀ j < fragments.length, filled' j = true then
      (r.receive a).1.pending[frameID]? = none ∧ (r.receive a).2 = [(frameID, frame)] else
      Waiting frameID frame fragments (r.receive a).1 filled' ∧ (r.receive a).2 = [] := by
  have hparse := parse_transmitDatagrams generation linkID frameID hs index hi a.datagram hd
  have hp := pendingFor_holds linkID frameID hs a.rank r a.now filled index hi hw hc
  have hself := pendingFor_self a.rank r a.now
    (fragmentAt linkID frameID hs index hi).header
  have hstep := integrate_fragmentAt linkID frameID hs _ _ filled filled' index hi hp hself
    hnot hf
  simp only [receive, hparse, absorb]
  by_cases hall : ∀ j < fragments.length, filled' j = true
  · rw [if_pos hall] at hstep ⊢
    rw [hstep.2]
    exact ⟨hstep.1, rfl⟩
  · rw [if_neg hall] at hstep ⊢
    rw [hstep.2]
    exact ⟨Or.inr hstep.1, rfl⟩

variable {generation linkID frameID}

/-- The induction behind the round trip, over the arrivals in order. -/
theorem Interleaving.progress (hs : SplitOf frame fragments) {r : WireReassembler}
    (hr : r.pending[frameID]? = none) (arrivals : List Arrival)
    (h : Interleaving generation linkID frameID frame fragments r arrivals) :
    Progress generation linkID frameID frame fragments r arrivals := by
  have hpos : 0 < fragments.length := by
    apply length_pos_iff.mpr
    rintro rfl
    exact hs.frame_ne hs.flatten_eq.symm
  induction arrivals using List.reverseRecOn with
  | nil =>
    have hn : ¬ allArrived generation linkID frameID frame fragments [] = true := by
      rw [allArrived_iff]
      intro hall
      cases hall 0 hpos
    rw [Progress, if_neg hn]
    exact ⟨rfl, Or.inl ⟨hr, fun _ _ => rfl⟩⟩
  | append_singleton before a ih =>
    have hb := ih h.of_append
    have hcalm : ∀ fragment, parseFabricWireData a.datagram = some fragment →
        (r.receiveAll before).1.CalmAt a.now fragment := h.calm before a [] rfl
    rw [Progress] at hb ⊢
    rw [delivered_append, receiveAll_append]
    by_cases hf : Foreign frameID a
    · obtain ⟨hpend, hout⟩ := receive_foreign frameID _ a hf hcalm
      have harr := arrivedIn_foreign generation linkID frameID hs before a hf
      have hall : allArrived generation linkID frameID frame fragments (before ++ [a]) =
          allArrived generation linkID frameID frame fragments before := by
        rw [allArrived, harr, allArrived]
      rw [hall, harr, hout, Waiting, hpend, map_nil, append_nil]
      exact hb
    · have hnb : ¬ allArrived generation linkID frameID frame fragments before = true :=
        fun hd => hf (h.no_late before a [] rfl hd)
      rw [if_neg hnb] at hb
      obtain ⟨index, hi, hd⟩ := (h.own_or_foreign a (by simp)).resolve_right hf
      have hstep := receive_own generation linkID frameID hs _ a _ _ index hi hd
        (hcalm _ (parse_transmitDatagrams generation linkID frameID hs index hi _ hd)) hb.2
        (fun hall => hnb ((allArrived_iff generation linkID frameID before).mpr hall))
        (arrivedIn_own generation linkID frameID hs before a index hi hd)
      rw [hb.1]
      simp only [← allArrived_iff] at hstep
      split
      · next hall =>
        rw [if_pos hall] at hstep
        rw [hstep.2]
        exact ⟨by simp, hstep.1⟩
      · next hall =>
        rw [if_neg hall] at hstep
        rw [hstep.2]
        exact ⟨rfl, hstep.1⟩

theorem splitOf_of_split {payloadSize : Int}
    (h : splitFabricWireFrame frame payloadSize = .ok fragments) : SplitOf frame fragments := by
  obtain ⟨hflat, hne, hlt, hcount, hslice⟩ := splitFabricWireFrame_spec frame payloadSize _ h
  exact ⟨hflat, hne, hlt, hcount, hslice⟩

end Transmission

/-- A frame that splits parses back, and after any interleaving of its datagrams the reassembler has
returned it once if all have arrived; the payload size of the datapath always splits. The source
agrees with this for payload sizes and MTUs below `2 ^ 32`, which those of an interface are. -/
theorem fabricWire_roundTrip (frame : Bytes) (hl : 1 ≤ frame.length)
    (hu : frame.length ≤ fabricWireMaximumFrameSize) :
    (∀ payloadSize : Int, 1 ≤ payloadSize →
      fabricWireFragmentCount frame payloadSize.toNat ≤ fabricWireMaximumFragments →
      ∃ fragments, splitFabricWireFrame frame payloadSize = .ok fragments ∧
        ∀ (generation : UInt64) (linkID frameID : UInt32),
          (∀ index (hi : index < fragments.length), ∃ datagram fragment,
            (transmitDatagrams generation linkID frameID frame fragments)[index]? =
                some datagram ∧
              parseFabricWireData datagram = some fragment ∧
              fragment.header = transmitHeader linkID frameID frame fragments index ∧
              fragment.payload = fragments[index]) ∧
          ∀ (r : WireReassembler) (arrivals : List Arrival), r.pending[frameID]? = none →
            Interleaving generation linkID frameID frame fragments r arrivals →
            ∀ before after, arrivals = before ++ after →
              r.delivered before frameID =
                if allArrived generation linkID frameID frame fragments before then [frame]
                else []) ∧
      ∀ underlayMTU : Int, ∃ fragments,
        splitFabricWireFrame frame (fabricWireFragmentPayload underlayMTU) = .ok fragments := by
  constructor
  · intro payloadSize hp hc
    have hok := splitFabricWireFrame_ok frame payloadSize hp hl hu hc
    refine ⟨_, hok, fun generation linkID frameID => ⟨?_, ?_⟩⟩
    · intro index hi
      have hd := @getElem?_transmitDatagrams generation linkID frameID frame _ index hi
      exact ⟨_, fragmentAt linkID frameID (splitOf_of_split hok) index hi, hd,
        parse_transmitDatagrams generation linkID frameID _ index hi _ hd, rfl, rfl⟩
    · rintro r arrivals hr h before after rfl
      have hb := h.of_append.progress (splitOf_of_split hok) hr before
      rw [Progress] at hb
      split at hb
      · next hall => rw [if_pos hall, hb.1]
      · next hall => rw [if_neg hall, hb.1]
  · intro underlayMTU
    have hp : 1 ≤ fabricWireFragmentPayload underlayMTU := by
      unfold fabricWireFragmentPayload fabricWireMinimumFragmentPayload
      dsimp only
      split <;> omega
    exact ⟨_, splitFabricWireFrame_ok frame _ hp hl hu
      (fabricWireFragmentCount_payload_le frame underlayMTU hu)⟩

theorem WireReassembler.calmAt_of_anyEntry (r : WireReassembler) (now : Int)
    (fragment : FabricWireFragment)
    (he : r.pending.anyEntry (fun _ frame => decide (frame.Expired now)) = false)
    (hs : r.pending.size < fabricWireReassemblyFrameLimit) : r.CalmAt now fragment := by
  refine ⟨fun id frame hf => ?_, fun _ => hs⟩
  exact of_decide_eq_false ((anyEntry_eq_false_iff _ _).mp he id frame hf)

def sampleDatagram (index : Nat) : Bytes :=
  ((transmitDatagrams 7 1 9 [1, 2, 3] [[1, 2], [3]])[index]?).getD []

def sampleArrivals : List Arrival :=
  [⟨0, fun _ => 0, sampleDatagram 1⟩, ⟨1, fun _ => 0, sampleDatagram 1⟩,
    ⟨2, fun _ => 0, sampleDatagram 0⟩]

theorem interleaving_sampleArrivals :
    Interleaving 7 1 9 [1, 2, 3] [[1, 2], [3]] .new sampleArrivals := by
  have hsplit : ∀ before a after, sampleArrivals = before ++ a :: after →
      before = sampleArrivals.take before.length ∧ before.length < 3 ∧
        sampleArrivals[before.length]? = some a := by
    intro before a after he
    have hl := congrArg List.length he
    simp only [sampleArrivals, length_cons, length_nil, length_append] at hl
    simp [he]
    omega
  have hall : ∀ n < 3,
      allArrived 7 1 9 [1, 2, 3] [[1, 2], [3]] (sampleArrivals.take n) = false := by
    decide
  constructor
  · intro a ha
    left
    simp only [sampleArrivals, mem_cons, not_mem_nil, or_false] at ha
    rcases ha with rfl | rfl | rfl
    · exact ⟨1, by decide, by decide⟩
    · exact ⟨1, by decide, by decide⟩
    · exact ⟨0, by decide, by decide⟩
  · intro before a after he fragment hf
    obtain ⟨hb, hn, ha⟩ := hsplit before a after he
    have hc : ∀ n < 3,
        let pending := (WireReassembler.new.receiveAll (sampleArrivals.take n)).1.pending
        (pending.anyEntry fun _ frame =>
            decide (frame.Expired ((sampleArrivals[n]?.map Arrival.now).getD 0))) = false ∧
          pending.size < fabricWireReassemblyFrameLimit := by
      decide +kernel
    have hx := hc before.length hn
    rw [← hb, ha] at hx
    exact calmAt_of_anyEntry _ _ _ hx.1 hx.2
  · intro before a after he hd
    obtain ⟨hb, hn, -⟩ := hsplit before a after he
    rw [hb, hall _ hn] at hd
    cases hd

/-- The three bytes come out once, with the last missing fragment. -/
theorem fabricWire_roundTrip_sample :
    WireReassembler.new.delivered (sampleArrivals.take 2) 9 = [] ∧
      WireReassembler.new.delivered sampleArrivals 9 = [[1, 2, 3]] := by
  obtain ⟨fragments, hsplit, h⟩ :=
    (fabricWire_roundTrip [1, 2, 3] (by decide) (by decide)).1 2 (by decide) (by decide)
  have hf : fragments = [[1, 2], [3]] := (Except.ok.inj hsplit).symm
  subst hf
  have hd := (h 7 1 9).2 .new sampleArrivals rfl interleaving_sampleArrivals
  constructor
  · rw [hd (sampleArrivals.take 2) (sampleArrivals.drop 2) rfl]
    rfl
  · rw [hd sampleArrivals [] rfl]
    rfl
end Clabernetes.Wire
