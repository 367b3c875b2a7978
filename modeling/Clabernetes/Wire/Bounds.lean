import Mathlib.Algebra.Order.BigOperators.Group.List
import Clabernetes.Wire.Operations
import Clabernetes.Wire.RoundTrip

/-!
# What a reassembler can hold

`internal/directruntime/wire.go:272-386` fed with arbitrary datagrams. A fragment is checked against
its own header only, so the fragments of one frame can add up to more than the frame announces.
-/

namespace Clabernetes.Wire

open Base Std List Option ExtTreeMap GoMap PendingWireFrame Nat

/-- `bytes[low:]`, `none` where the bounds check of Go panics. -/
def sliceFrom (bytes : Bytes) (low : Nat) : Option Bytes :=
  if low ≤ bytes.length then some (bytes.drop low) else none

/-- `binary.BigEndian` reads that many bytes, and panics where there are fewer. -/
def readSized {α : Type} (size : Nat) (read : Bytes → α) (bytes : Bytes) : Option α :=
  if size ≤ bytes.length then some (read bytes) else none

/-- `parseFabricWireHeader` with the bounds check of every index; `:117-133`. -/
def boundedHeader (datagram : Bytes) : Option (Except WireError (FabricWireHeader × Bytes)) :=
  if datagram.length < fabricWireHeaderSize then some (.error .shortHeader)
  else do
    let version ← datagram[0]?
    let msgType ← datagram[1]?
    let generation ← (sliceFrom datagram 2).bind (readSized 8 uint64)
    if version ≠ fabricWireVersion then some (.error .unknownVersion)
    else
      let body ← sliceFrom datagram fabricWireHeaderSize
      some (.ok ({ version, msgType, generation }, body))

/-- `parseFabricWireDataHeader` with the bounds check of every index; `:155-182`. -/
def boundedDataHeader (body : Bytes) : Option (Except WireError FabricWireFragment) :=
  if body.length < fabricWireDataHeaderSize then some (.error .shortDataHeader)
  else do
    let linkID ← (sliceFrom body 0).bind (readSized 4 uint32)
    let frameID ← (sliceFrom body 4).bind (readSized 4 uint32)
    let fragIndex ← body[8]?
    let fragCount ← body[9]?
    let totalLength ← (sliceFrom body 10).bind (readSized 2 uint16)
    let payload ← sliceFrom body fabricWireDataHeaderSize
    some (checkFabricWireGeometry { linkID, frameID, fragIndex, fragCount, totalLength } payload)

theorem readSized_sliceFrom {α : Type} {size low : Nat} {read : Bytes → α} {bytes : Bytes}
    (h : low + size ≤ bytes.length) :
    (sliceFrom bytes low).bind (readSized size read) = some (read (bytes.drop low)) := by
  rw [sliceFrom, if_pos (by omega), bind_some, readSized, if_pos (by rw [length_drop]; omega)]

theorem boundedHeader_eq (datagram : Bytes) :
    boundedHeader datagram = some (parseFabricWireHeader datagram) := by
  unfold boundedHeader parseFabricWireHeader
  split_ifs with hshort
  · rfl
  · have hlength : 10 ≤ datagram.length := Nat.not_lt.mp hshort
    rw [readSized_sliceFrom (by omega), sliceFrom, if_pos (Nat.not_lt.mp hshort),
      getElem?_eq_getElem (by omega), getElem?_eq_getElem (by omega)]
    simp only [bind, bind_some, get_eq_getElem]
    split_ifs <;> rfl

theorem boundedDataHeader_eq (body : Bytes) :
    boundedDataHeader body = some (parseFabricWireDataHeader body) := by
  unfold boundedDataHeader parseFabricWireDataHeader
  split_ifs with hshort
  · rfl
  · have hlength : 12 ≤ body.length := Nat.not_lt.mp hshort
    rw [readSized_sliceFrom (by omega), readSized_sliceFrom (by omega),
      readSized_sliceFrom (by omega), sliceFrom, if_pos (Nat.not_lt.mp hshort),
      getElem?_eq_getElem (by omega), getElem?_eq_getElem (by omega)]
    rfl

namespace WireReassembler

section Size

variable (rank : UInt32 → Nat) (r : WireReassembler) (now : Int)

theorem oldestPending_mem (entries : List (UInt32 × PendingWireFrame))
    (oldest : UInt32 × PendingWireFrame) :
    ∃ e ∈ oldest :: entries, oldestPending entries (some oldest) = some e := by
  induction entries generalizing oldest with
  | nil => exact ⟨oldest, mem_cons_self, rfl⟩
  | cons entry rest ih =>
    obtain ⟨e, he, h⟩ := ih (if entry.2.arrived < oldest.2.arrived then entry else oldest)
    refine ⟨e, ?_, h⟩
    split at he <;> simp only [mem_cons] at he ⊢ <;> tauto

theorem size_evictOldest (h : 0 < r.pending.size) :
    (r.evictOldest rank).1.pending.size = r.pending.size - 1 := by
  have hlength : 0 < (r.pending.iterate rank).length := by
    rwa [GoMap.iterate, length_insertionSort, ExtTreeMap.length_toList]
  obtain ⟨entry, rest, hentries⟩ := exists_cons_of_ne_nil (length_pos_iff.mp hlength)
  obtain ⟨⟨id, frame⟩, hmem, hfound⟩ := oldestPending_mem rest entry
  rw [← hentries, GoMap.mem_iterate] at hmem
  simp only [evictOldest, hentries, oldestPending, hfound, size_erase,
    contains_iff_mem.mpr (mem_of_lookup hmem), if_true]

theorem size_pendingFor (h : r.pending.size ≤ fabricWireReassemblyFrameLimit)
    (header : FabricWireDataHeader) :
    (r.pendingFor rank now header).1.pending.size ≤ fabricWireReassemblyFrameLimit := by
  have hexpire : (r.expire now).pending.size ≤ r.pending.size := size_filter_le_size
  unfold pendingFor
  split
  · exact hexpire.trans h
  · dsimp only [openFrame]
    split_ifs with hfull
    · have hpos : 0 < fabricWireReassemblyFrameLimit := by decide
      refine size_insert_le.trans ?_
      rw [size_evictOldest rank _ (hpos.trans_le hfull)]
      omega
    · exact size_insert_le.trans (succ_le_of_lt (lt_of_not_ge hfull))

/-- A fragment is stored in a table that is there, so integrating it opens none. -/
theorem size_integrate {frame : PendingWireFrame} {fragment : FabricWireFragment}
    (h : r.pending[fragment.header.frameID]? = some frame) :
    (r.integrate frame fragment).reassembler.pending.size ≤ r.pending.size := by
  rcases integrate_cases r frame fragment with he | he | hf
  · rw [he]
    exact size_erase_le
  · rw [he]
  · rw [integrate_of_fills r frame fragment hf]
    dsimp only
    split
    · simp only [size_insert, contains_iff_mem.mpr (mem_of_lookup h), if_true, Nat.le_refl]
    · split <;> exact size_erase_le

end Size

/-- A pending frame waits for a fragment, and its counters describe its table. -/
structure Sound (frame : PendingWireFrame) : Prop extends frame.Consistent where
  received_lt : frame.received < frame.fragCount
  bytes_le : frame.bytes ≤ frame.received * frame.totalLen
  geometry : frame.fragCount ≤ fabricWireMaximumFragments ∧
    frame.totalLen ≤ fabricWireMaximumFrameSize

/-- The cap is kept, and so are the books of every frame. -/
structure Bounded (r : WireReassembler) : Prop where
  size : r.pending.size ≤ fabricWireReassemblyFrameLimit
  sound : ∀ (id : UInt32) frame, r.pending[id]? = some frame → Sound frame

variable {r : WireReassembler} {now : Int}

theorem bounded_new : new.Bounded := ⟨Nat.zero_le _, by simp [new]⟩

theorem Bounded.expire (h : r.Bounded) : (r.expire now).Bounded where
  size := size_filter_le_size.trans h.size
  sound := fun id frame hframe => h.sound id frame ((expire_some r now id frame).mp hframe).1

theorem Bounded.absorb (h : r.Bounded) (rank : UInt32 → Nat) (fragment : FabricWireFragment) :
    (r.absorb rank now fragment).reassembler.Bounded := by
  refine ⟨(size_integrate _ (pendingFor_self ..)).trans (size_pendingFor _ r _ h.size _),
    fun id frame' hframe => ?_⟩
  by_cases hid : id = fragment.header.frameID
  · subst hid
    have hmet : Sound (r.pendingFor rank now fragment.header).2.2 := by
      rcases pendingFor_frame rank r now fragment.header with he | ⟨hold, -⟩
      · rw [he]
        exact ⟨consistent_fresh now fragment.header,
          Nat.zero_lt_of_lt (UInt8.lt_iff_toNat_lt.mp fragment.index_lt), Nat.zero_le _,
          Nat.le_of_lt_succ fragment.header.fragCount.toNat_lt,
          Nat.le_of_lt_succ fragment.header.totalLength.toNat_lt⟩
      · exact h.sound _ _ hold
    rcases integrate_self _ _ fragment frame' (pendingFor_self ..) hframe with rfl | ⟨hf, rfl, hlt⟩
    · exact hmet
    · refine ⟨hmet.toConsistent.store _ _ hf.2, hlt, ?_, hmet.geometry⟩
      have hle : fragment.payload.length ≤ _ := hf.1.2 ▸ fragment.payload_le
      exact (Nat.add_le_add hmet.bytes_le hle).trans_eq (Nat.succ_mul _ _).symm
  · exact h.sound id frame' (absorb_ne rank r now fragment id frame' hid hframe).1

theorem bounded_receiveAll (arrivals : List Arrival) : (new.receiveAll arrivals).1.Bounded := by
  induction arrivals using reverseRecOn with
  | nil => exact bounded_new
  | append_singleton arrivals a ih =>
    rw [receiveAll_append, receive]
    split
    · exact ih
    · exact ih.absorb _ _

theorem sound_receiveAll (arrivals : List Arrival) (id : UInt32) (frame : PendingWireFrame)
    (h : (new.receiveAll arrivals).1.pending[id]? = some frame) : Sound frame :=
  (bounded_receiveAll arrivals).sound id frame h

theorem size_receiveAll (arrivals : List Arrival) :
    (new.receiveAll arrivals).1.pending.size ≤ fabricWireReassemblyFrameLimit :=
  (bounded_receiveAll arrivals).size

/-- No read of a datagram is out of range. After any datagrams the books of the reassembler are
right, the next fragment indexes its table in range, and a frame that it completes has the announced
length. -/
theorem reassembler_sound (arrivals : List Arrival) :
    (∀ bytes, boundedHeader bytes = some (parseFabricWireHeader bytes) ∧
      boundedDataHeader bytes = some (parseFabricWireDataHeader bytes)) ∧
    (new.receiveAll arrivals).1.pending.size ≤ fabricWireReassemblyFrameLimit ∧
      (∀ (id : UInt32) frame, (new.receiveAll arrivals).1.pending[id]? = some frame →
        frame.Consistent ∧ frame.received < frame.fragCount) ∧
      ∀ (a : Arrival) fragment, parseFabricWireData a.datagram = some fragment →
        (∀ frame, (new.receiveAll arrivals).1.Meets a.now fragment frame →
          frame.Agrees fragment.header →
          fragment.header.fragIndex.toNat < frame.fragments.length) ∧
        ∀ bytes, ((new.receiveAll arrivals).1.absorb a.rank a.now fragment).frame = some bytes →
          bytes.length = fragment.header.totalLength.toNat := by
  refine ⟨fun bytes => ⟨boundedHeader_eq bytes, boundedDataHeader_eq bytes⟩,
    size_receiveAll arrivals, fun id frame h => ?_, fun a fragment _ =>
    ⟨fun frame _ hagrees => hagrees.index_lt, fun bytes h => ?_⟩⟩
  · have hs := sound_receiveAll arrivals id frame h
    exact ⟨hs.toConsistent, hs.received_lt⟩
  · obtain ⟨frame, hmet, hf, rfl, -, hlength⟩ := absorb_frame a.rank _ a.now fragment bytes h
    have hwf : (new.receiveAll arrivals).1.WellFormed := by
      intro id frame h
      exact (sound_receiveAll arrivals id frame h).toConsistent
    rw [← ((hwf.meets hmet).store _ _ hf.2).bytes_eq]
    exact hlength.trans hf.1.2

/-- A frame can hold its announced length once for each fragment but one. -/
theorem pending_bytes_bounded (arrivals : List Arrival) :
    (∀ (id : UInt32) frame, (new.receiveAll arrivals).1.pending[id]? = some frame →
      frame.bytes ≤ (frame.fragCount - 1) * frame.totalLen) ∧
    ((new.receiveAll arrivals).1.pending.toList.map fun e => e.2.bytes).sum ≤
      fabricWireReassemblyFrameLimit *
        ((fabricWireMaximumFragments - 1) * fabricWireMaximumFrameSize) := by
  have hbytes : ∀ (id : UInt32) frame, (new.receiveAll arrivals).1.pending[id]? = some frame →
      frame.bytes ≤ (frame.fragCount - 1) * frame.totalLen := by
    intro id frame h
    have hs := sound_receiveAll arrivals id frame h
    exact hs.bytes_le.trans (mul_le_mul_right _ (le_sub_one_of_lt hs.received_lt))
  refine ⟨hbytes, (sum_le_card_nsmul _ _ fun n hn => ?_).trans
    (b := _ • ((fabricWireMaximumFragments - 1) * fabricWireMaximumFrameSize)) ?_⟩
  · obtain ⟨⟨id, frame⟩, hmem, rfl⟩ := mem_map.mp hn
    have hfound := mem_toList_iff_getElem?_eq_some.mp hmem
    have hgeometry := (sound_receiveAll arrivals id frame hfound).geometry
    exact (hbytes id frame hfound).trans
      (Nat.mul_le_mul (Nat.sub_le_sub_right hgeometry.1 1) hgeometry.2)
  · rw [length_map, ExtTreeMap.length_toList, nsmul_eq_mul]
    exact Nat.mul_le_mul_right _ (size_receiveAll arrivals)

/-- Two of three fragments of a frame of one byte, a byte each. -/
def crafted : List Arrival := [0, 1].map fun index =>
  ⟨0, UInt32.toNat, encodeFabricWireFragment 1 ⟨1, 7, index, 3, 1⟩ [0]⟩

/-- A pending frame can hold more bytes than it announces. -/
theorem crafted_exceeds : ∃ frame, (new.receiveAll crafted).1.pending[(7 : UInt32)]? = some frame ∧
    frame.totalLen < frame.bytes := by
  decide +kernel

end WireReassembler

open FabricWire WireReassembler

/-- Whatever an engine is asked to do and receives, no link holds more than the cap allows. -/
theorem links_bounded {config : FabricWireConfig} {generation : UInt64} {start : FabricWire}
    (hstart : newFabricWire config generation = .ok start) (calls : List FabricWireCall)
    (w : FabricWire) (hrun : run next start calls = some w) (id : UInt32) (link : FabricWireLink)
    (hl : w.links[id]? = some link) : link.reassembler.Bounded := by
  refine run_invariant_of_step (P := fun w => ∀ (id : UInt32) link, w.links[id]? = some link →
    link.reassembler.Bounded) ?_ ?_ calls w hrun id link hl
  · rw [newFabricWire_eq_ok hstart]
    simp
  · intro w call w' h hn id link' hl'
    cases next_linkStep hn hl' with
    | created _ ha => exact ha ▸ bounded_new
    | kept link hl hsame => exact hsame.reassembler ▸ h id link hl
    | heard link now _ generation body session hl _ _ _ _ _ ha =>
      have hrefreshed :
          (refreshedLink link.peerAddr generation session link).reassembler.Bounded := by
        unfold refreshedLink
        split_ifs
        · exact bounded_new
        · exact h id link hl
        · exact h id link hl
      rw [ha]
      unfold bodyReassembler
      split
      · split_ifs
        · exact hrefreshed.absorb _ _
        · exact hrefreshed
      · exact hrefreshed
    | ticked link now hl _ _ _ ha => exact ha ▸ (h id link hl).expire
    | rehomed link _ hl _ _ _ _ _ ha | adopted link _ hl _ _ _ _ ha => exact ha ▸ h id link hl

/-- A link is registered, and its peer sends the two fragments. -/
def craftedCalls : List FabricWireCall :=
  ⟨healthyKernel 0 2 true, .ensureLink ⟨1, "pod/a", "leg", "peer", .v4 9, 1500⟩⟩ ::
    crafted.map fun a => ⟨healthyKernel 0 2 true, .datagram 0 (.v4 9) a.datagram⟩

theorem links_bounded_crafted :
    ∃ w link, run next { config := ⟨.v4 1, 1400⟩, generation := 1 } craftedCalls = some w ∧
      w.links[(1 : UInt32)]? = some link ∧ link.reassembler.pending.size = 1 ∧
      link.reassembler.Bounded := by
  obtain ⟨w, hrun, link, hlink, hsize⟩ : ∃ w,
      run next { config := ⟨.v4 1, 1400⟩, generation := 1 } craftedCalls = some w ∧
        ∃ link, w.links[(1 : UInt32)]? = some link ∧ link.reassembler.pending.size = 1 := by
    decide +kernel
  exact ⟨w, link, hrun, hlink, hsize, @links_bounded ⟨.v4 1, 1400⟩ 1 _ rfl _ w hrun 1 link hlink⟩

end Clabernetes.Wire
