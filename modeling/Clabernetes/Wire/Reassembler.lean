import Clabernetes.Base.GoMap
import Clabernetes.Wire.Split

/-!
# Frame reassembly

The per-link reassembler of `internal/directruntime/wire.go:255-386`. Instants are nanoseconds of a
monotonic clock. The `drops` callback is a list of causes beside each result; the map order that
`evictOldest` depends on is a rank of the frame ids. A pending frame carries the length of its
fragment table, so the table access of `absorb` is in range for every parsed fragment.
-/

namespace Clabernetes.Wire

open Base Std List Option ExtTreeMap GoMap

def millisecond : Int := 1000000

def second : Int := 1000 * millisecond

def fabricWireReassemblyExpiry : Int := 100 * millisecond

def fabricWireReassemblyFrameLimit : Nat := 64

inductive FabricWireDropCause where
  | none
  | expiry
  | memoryCap
  | geometry
  | oversize
  deriving DecidableEq, Repr

structure PendingWireFrame where
  arrived : Int
  fragCount : Nat
  totalLen : Nat
  received : Nat
  bytes : Nat
  fragments : List (Option Bytes)
  length_fragments : fragments.length = fragCount
  deriving DecidableEq

namespace PendingWireFrame

def fresh (now : Int) (header : FabricWireDataHeader) : PendingWireFrame :=
  { arrived := now
    fragCount := header.fragCount.toNat
    totalLen := header.totalLength.toNat
    received := 0
    bytes := 0
    fragments := List.replicate header.fragCount.toNat none
    length_fragments := length_replicate }

variable (frame : PendingWireFrame)

def store (index : Nat) (payload : Bytes) : PendingWireFrame :=
  { frame with
    received := frame.received + 1
    bytes := frame.bytes + payload.length
    fragments := frame.fragments.set index (some payload)
    length_fragments := by rw [length_set, frame.length_fragments] }

def assembled : Bytes := frame.fragments.flatMap (·.getD [])

/-- The fragment announces the geometry the pending frame was opened with; `:352`. -/
def Agrees (header : FabricWireDataHeader) : Prop :=
  frame.fragCount = header.fragCount.toNat ∧ frame.totalLen = header.totalLength.toNat

instance (frame : PendingWireFrame) (header : FabricWireDataHeader) :
    Decidable (frame.Agrees header) := inferInstanceAs (Decidable (_ ∧ _))

/-- The waiting time of the frame outlived the reassembly expiry. -/
def Expired (now : Int) : Prop :=
  now - frame.arrived > fabricWireReassemblyExpiry

instance (frame : PendingWireFrame) (now : Int) : Decidable (frame.Expired now) :=
  inferInstanceAs (Decidable (_ > _))

variable {frame : PendingWireFrame}

theorem Agrees.index_lt {fragment : FabricWireFragment} (h : frame.Agrees fragment.header) :
    fragment.header.fragIndex.toNat < frame.fragments.length := by
  rw [frame.length_fragments, h.1]
  exact fragment.index_lt

/-- The counters of the frame describe its table: `received` counts the filled slots and
`bytes` measures them. -/
structure Consistent (frame : PendingWireFrame) : Prop where
  received_eq : frame.received = frame.fragments.countP Option.isSome
  bytes_eq : frame.bytes = frame.assembled.length

theorem consistent_fresh (now : Int) (header : FabricWireDataHeader) :
    (fresh now header).Consistent := by
  constructor
  · simp [fresh, countP_replicate]
  · simp [fresh, assembled]

theorem Consistent.store (hc : frame.Consistent) (index : Nat) (payload : Bytes)
    (h : frame.fragments[index]? = some none) :
    (frame.store index payload).Consistent := by
  obtain ⟨hlt, hnone⟩ := List.getElem?_eq_some_iff.mp h
  obtain ⟨before, after, hsplit, -, hset⟩ :=
    @exists_of_set _ index (some payload) frame.fragments hlt
  rw [hnone] at hsplit
  constructor
  · change frame.received + 1 = countP _ (frame.fragments.set index (some payload))
    rw [hset, hc.received_eq, hsplit]
    simp [Nat.add_assoc]
  · change frame.bytes + _ = (flatMap _ (frame.fragments.set index (some payload))).length
    rw [hset, hc.bytes_eq, assembled, hsplit]
    simp [Nat.add_comm, Nat.add_left_comm]

end PendingWireFrame

/-- The frames of one link that wait for fragments. -/
structure WireReassembler where
  pending : GoMap UInt32 PendingWireFrame
  deriving DecidableEq

/-- What one fragment leaves behind: the new state, the counted drops and the frame that it
completed. -/
structure AbsorbResult where
  reassembler : WireReassembler
  drops : List FabricWireDropCause
  frame : Option Bytes

namespace WireReassembler

def new : WireReassembler := ⟨∅⟩

variable (r : WireReassembler)

def expire (now : Int) : WireReassembler :=
  ⟨r.pending.filter fun _ frame => !decide (frame.Expired now)⟩

def expireDrops (now : Int) : List FabricWireDropCause :=
  (r.pending.toList.filter fun e => decide (e.2.Expired now)).map fun _ => .expiry

/-- The search loop of `:314-319` over the visited entries. -/
def oldestPending : List (UInt32 × PendingWireFrame) → Option (UInt32 × PendingWireFrame) →
    Option (UInt32 × PendingWireFrame)
  | [], oldest => oldest
  | entry :: rest, none => oldestPending rest (some entry)
  | entry :: rest, some oldest =>
    oldestPending rest (some (if entry.2.arrived < oldest.2.arrived then entry else oldest))

variable (rank : UInt32 → Nat)

def evictOldest : WireReassembler × List FabricWireDropCause :=
  match oldestPending (r.pending.iterate rank) none with
  | none => (r, [])
  | some (oldestID, _) => (⟨r.pending.erase oldestID⟩, [.memoryCap])

def openFrame (now : Int)
    (header : FabricWireDataHeader) : WireReassembler × List FabricWireDropCause :=
  let (r, drops) :=
    if r.pending.size ≥ fabricWireReassemblyFrameLimit then r.evictOldest rank else (r, [])
  (⟨r.pending.insert header.frameID (.fresh now header)⟩, drops)

def integrate (frame : PendingWireFrame) (fragment : FabricWireFragment) : AbsorbResult :=
  let header := fragment.header
  if h : frame.Agrees header then
    match frame.fragments.get ⟨header.fragIndex.toNat, h.index_lt⟩ with
    | some _ => ⟨r, [], none⟩
    | none =>
      let frame := frame.store header.fragIndex.toNat fragment.payload
      if frame.received < frame.fragCount then
        ⟨⟨r.pending.insert header.frameID frame⟩, [], none⟩
      else if frame.bytes ≠ frame.totalLen then
        ⟨⟨r.pending.erase header.frameID⟩, [.geometry], none⟩
      else ⟨⟨r.pending.erase header.frameID⟩, [], some frame.assembled⟩
  else ⟨⟨r.pending.erase header.frameID⟩, [.geometry], none⟩

/-- The pending frame a fragment meets once stale frames are gone: the one waiting under its
id, or a table opened for it; `:335-350`. -/
def pendingFor (now : Int)
    (header : FabricWireDataHeader) :
    WireReassembler × List FabricWireDropCause × PendingWireFrame :=
  match (r.expire now).pending[header.frameID]? with
  | some frame => (r.expire now, [], frame)
  | none =>
    let (opened, drops) := (r.expire now).openFrame rank now header
    (opened, drops, .fresh now header)

def absorb (now : Int) (fragment : FabricWireFragment) : AbsorbResult :=
  let (admitted, drops, frame) := r.pendingFor rank now fragment.header
  let result := admitted.integrate frame fragment
  { result with drops := r.expireDrops now ++ drops ++ result.drops }

variable (rank : UInt32 → Nat) (r : WireReassembler) (now : Int)

theorem getElem?_expire (id : UInt32) : (r.expire now).pending[id]? =
      r.pending[id]?.filter fun frame => !decide (frame.Expired now) := by
  rw [expire, getElem?_filter']

theorem expire_some (id : UInt32) (frame : PendingWireFrame) :
    (r.expire now).pending[id]? = some frame ↔
      r.pending[id]? = some frame ∧ ¬ frame.Expired now := by
  rw [getElem?_expire, filter_eq_some_iff]
  simp

theorem evictOldest_some (id : UInt32) (frame : PendingWireFrame)
    (h : (r.evictOldest rank).1.pending[id]? = some frame) : r.pending[id]? = some frame := by
  unfold evictOldest at h
  split at h
  · exact h
  · next oldestID oldest _ =>
    rw [lookup_erase] at h
    split at h
    · cases h
    · exact h

section

variable (header : FabricWireDataHeader)

theorem openFrame_some (id : UInt32) (frame : PendingWireFrame) (hne : id ≠ header.frameID)
    (h : (r.openFrame rank now header).1.pending[id]? = some frame) :
    r.pending[id]? = some frame := by
  unfold openFrame at h
  rw [lookup_insert] at h
  split at h
  · next hc => exact absurd hc.symm hne
  · split at h
    · exact evictOldest_some rank r id frame h
    · exact h

theorem pendingFor_self : (r.pendingFor rank now header).1.pending[header.frameID]? =
      some (r.pendingFor rank now header).2.2 := by
  unfold pendingFor
  split
  · next frame hf => exact hf
  · simp [openFrame]

theorem pendingFor_frame : (r.pendingFor rank now header).2.2 = .fresh now header ∨
      (r.pending[header.frameID]? = some (r.pendingFor rank now header).2.2 ∧
        ¬ (r.pendingFor rank now header).2.2.Expired now) := by
  unfold pendingFor
  split
  · next frame hf => exact .inr ((expire_some r now _ frame).mp hf)
  · exact .inl rfl

theorem pendingFor_some (id : UInt32) (frame : PendingWireFrame) (hne : id ≠ header.frameID)
    (h : (r.pendingFor rank now header).1.pending[id]? = some frame) :
    r.pending[id]? = some frame ∧ ¬ frame.Expired now := by
  unfold pendingFor at h
  split at h
  · exact (expire_some r now id frame).mp h
  · exact (expire_some r now id frame).mp (openFrame_some rank _ now header id frame hne h)

end

section Integrate

variable (frame : PendingWireFrame) (fragment : FabricWireFragment)

theorem integrate_ne (id : UInt32) (hne : id ≠ fragment.header.frameID) :
    (r.integrate frame fragment).reassembler.pending[id]? = r.pending[id]? := by
  unfold integrate
  dsimp only
  split
  · split
    · rfl
    · split
      · rw [lookup_insert, if_neg hne.symm]
      · split <;> rw [lookup_erase, if_neg hne.symm]
  · rw [lookup_erase, if_neg hne.symm]

/-- The fragment fills a slot of a frame whose geometry it agrees with. -/
def Fills : Prop :=
  frame.Agrees fragment.header ∧ frame.fragments[fragment.header.fragIndex.toNat]? = some none

theorem integrate_of_taken (payload : Bytes) (ha : frame.Agrees fragment.header)
    (h : frame.fragments[fragment.header.fragIndex.toNat]? = some (some payload)) :
    r.integrate frame fragment = ⟨r, [], none⟩ := by
  have hs : frame.fragments.get ⟨_, ha.index_lt⟩ = some payload :=
    some.inj ((getElem?_eq_getElem ha.index_lt).symm.trans h)
  simp only [integrate, dif_pos ha, hs]

theorem integrate_of_fills (h : Fills frame fragment) : r.integrate frame fragment =
      let frame' := frame.store fragment.header.fragIndex.toNat fragment.payload
      if frame'.received < frame'.fragCount then
        ⟨⟨r.pending.insert fragment.header.frameID frame'⟩, [], none⟩
      else if frame'.bytes ≠ frame'.totalLen then
        ⟨⟨r.pending.erase fragment.header.frameID⟩, [.geometry], none⟩
      else ⟨⟨r.pending.erase fragment.header.frameID⟩, [], some frame'.assembled⟩ := by
  have hs : frame.fragments.get ⟨_, h.1.index_lt⟩ = none :=
    some.inj ((getElem?_eq_getElem h.1.index_lt).symm.trans h.2)
  simp only [integrate, dif_pos h.1, hs]

/-- The three things a fragment can meet: disagreeing geometry, a taken slot, an empty slot. -/
theorem integrate_cases : r.integrate frame fragment =
        ⟨⟨r.pending.erase fragment.header.frameID⟩, [.geometry], none⟩ ∨
      r.integrate frame fragment = ⟨r, [], none⟩ ∨ Fills frame fragment := by
  by_cases ha : frame.Agrees fragment.header
  · cases hs : frame.fragments.get ⟨_, ha.index_lt⟩ with
    | some payload =>
      refine .inr (.inl (integrate_of_taken r frame fragment payload ha ?_))
      rw [← hs]
      exact getElem?_eq_getElem ha.index_lt
    | none =>
      refine .inr (.inr ⟨ha, ?_⟩)
      rw [← hs]
      exact getElem?_eq_getElem ha.index_lt
  · exact .inl (by simp only [integrate, dif_neg ha])

theorem integrate_self (frame' : PendingWireFrame)
    (hf : r.pending[fragment.header.frameID]? = some frame)
    (h : (r.integrate frame fragment).reassembler.pending[fragment.header.frameID]? = some frame') :
    frame' = frame ∨ Fills frame fragment ∧
      frame' = frame.store fragment.header.fragIndex.toNat fragment.payload ∧
      frame'.received < frame'.fragCount := by
  rcases integrate_cases r frame fragment with he | he | hs
  · simp [he] at h
  · rw [he, hf] at h
    exact .inl (some.inj h).symm
  · rw [integrate_of_fills r frame fragment hs] at h
    dsimp only at h
    split at h
    · next hr =>
      rw [getElem?_insert_self] at h
      cases h
      exact .inr ⟨hs, rfl, hr⟩
    · split at h <;> simp at h

theorem integrate_frame (bytes : Bytes) (h : (r.integrate frame fragment).frame = some bytes) :
    Fills frame fragment ∧
      bytes = (frame.store fragment.header.fragIndex.toNat fragment.payload).assembled ∧
      frame.fragCount ≤ frame.received + 1 ∧
      frame.bytes + fragment.payload.length = frame.totalLen := by
  rcases integrate_cases r frame fragment with he | he | hs
  · simp [he] at h
  · simp [he] at h
  · rw [integrate_of_fills r frame fragment hs] at h
    dsimp only at h
    split at h
    · cases h
    · next hr =>
      split at h
      · cases h
      · next hb =>
        cases h
        exact ⟨hs, rfl, Nat.not_lt.mp hr, not_not.mp hb⟩

end Integrate

variable (fragment : FabricWireFragment)

theorem absorb_ne (id : UInt32) (frame : PendingWireFrame)
    (hne : id ≠ fragment.header.frameID)
    (h : (r.absorb rank now fragment).reassembler.pending[id]? = some frame) :
    r.pending[id]? = some frame ∧ ¬ frame.Expired now := by
  apply pendingFor_some rank r now fragment.header id frame hne
  rw [← h]
  exact (integrate_ne _ _ fragment id hne).symm

/-- The frame a fragment is integrated into: a fresh table, or the pending frame of its id
that is not past due. -/
def Meets (frame : PendingWireFrame) : Prop :=
  frame = .fresh now fragment.header ∨
    r.pending[fragment.header.frameID]? = some frame ∧ ¬ frame.Expired now

theorem absorb_pending (id : UInt32) (frame' : PendingWireFrame)
    (h : (r.absorb rank now fragment).reassembler.pending[id]? = some frame') :
    (r.pending[id]? = some frame' ∧ ¬ frame'.Expired now) ∨
      id = fragment.header.frameID ∧ ∃ frame, r.Meets now fragment frame ∧
        (frame' = frame ∨ Fills frame fragment ∧
          frame' = frame.store fragment.header.fragIndex.toNat fragment.payload) := by
  by_cases hid : id = fragment.header.frameID
  · subst hid
    refine .inr ⟨rfl, _, pendingFor_frame rank r now fragment.header, ?_⟩
    rcases integrate_self _ _ fragment frame' (pendingFor_self rank r now fragment.header) h with
      he | ⟨hf, he, -⟩
    · exact .inl he
    · exact .inr ⟨hf, he⟩
  · exact .inl (absorb_ne rank r now fragment id frame' hid h)

theorem absorb_frame (bytes : Bytes)
    (h : (r.absorb rank now fragment).frame = some bytes) :
    ∃ frame, r.Meets now fragment frame ∧ Fills frame fragment ∧
      bytes = (frame.store fragment.header.fragIndex.toNat fragment.payload).assembled ∧
      frame.fragCount ≤ frame.received + 1 ∧
      frame.bytes + fragment.payload.length = frame.totalLen := by
  obtain ⟨hf, hb, hr, hl⟩ := integrate_frame _ _ fragment bytes h
  exact ⟨_, pendingFor_frame rank r now fragment.header, hf, hb, hr, hl⟩

def WellFormed : Prop :=
  ∀ (id : UInt32) (frame : PendingWireFrame), r.pending[id]? = some frame → frame.Consistent

theorem wellFormed_new : new.WellFormed := by
  intro id frame h
  simp [new] at h

variable {r now} in
theorem WellFormed.expire (h : r.WellFormed) : (r.expire now).WellFormed := by
  intro id frame hf
  exact h id frame ((expire_some r now id frame).mp hf).1

variable {r now} in
theorem WellFormed.meets (h : r.WellFormed) {fragment : FabricWireFragment}
    (hm : r.Meets now fragment frame) : frame.Consistent := by
  rcases hm with rfl | ⟨hf, -⟩
  · exact PendingWireFrame.consistent_fresh now fragment.header
  · exact h _ frame hf

variable {r} in
theorem WellFormed.absorb (h : r.WellFormed) (fragment : FabricWireFragment) :
    (r.absorb rank now fragment).reassembler.WellFormed := by
  intro id frame' hf
  rcases absorb_pending rank r now fragment id frame' hf with ⟨hold, -⟩ | ⟨-, frame, hm, he⟩
  · exact h id frame' hold
  · rcases he with rfl | ⟨hfill, rfl⟩
    · exact h.meets hm
    · exact (h.meets hm).store _ _ hfill.2

end WireReassembler

end Clabernetes.Wire
