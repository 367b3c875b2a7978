import Clabernetes.Base.Runs
import Clabernetes.Capture.Pcapng
import Mathlib.Algebra.BigOperators.Group.List.Basic

/-!
# Concurrent captures

`internal/directruntime/capture.go:520-832`. One reader per interface takes packets and writes them
through a sink, which counts them and ends the capture at the packet limit, when its output has no
reader anymore, or when its client goes away. The mutex of the sink makes a write and a notification
steps of their own. Counters are natural numbers: a capture is bounded by an hour or a million
packets. Texts are bytes.
-/

namespace Clabernetes.Capture

open Base List

def text (s : String) : List UInt8 := s.toUTF8.data.toList

def packetCaptureReasonClientClosed : List UInt8 := text "client closed"

def boundedPacketCaptureReason (value : List UInt8) : List UInt8 := value.take 512

def packetCaptureOutputClosedReason (err : List UInt8) : List UInt8 :=
  boundedPacketCaptureReason (packetCaptureReasonClientClosed ++ text ": writing stdout: " ++ err)

def waitForPacketCaptureClientClose : Option (List UInt8) → List UInt8
  | some err => boundedPacketCaptureReason
      (packetCaptureReasonClientClosed ++ text ": reading stdin: " ++ err)
  | none => packetCaptureReasonClientClosed ++ text ": stdin reached EOF"

/-- The counters of `PacketCaptureAuditRecord`, with one per requested interface. -/
structure Counters where
  packets : ℕ := 0
  capturedBytes : ℕ := 0
  interfaces : List ℕ

def Counters.add (record : Counters) (index : ℕ) (packet : CapturedPacket) : Counters where
  packets := record.packets + 1
  capturedBytes := record.capturedBytes + packet.data.length
  interfaces := record.interfaces.modify index (· + 1)

/-- `packetCaptureStream`: the bytes that it makes of the header and of a packet. -/
structure Stream where
  header : Except String (List UInt8)
  packet : ℕ → CapturedPacket → Except String (List UInt8)

def pcapngStream (interfaces : List (List UInt8)) (snapLength : ℕ) : Stream where
  header := .ok (writeHeader interfaces snapLength)
  packet := writePacket

structure Sink where
  record : Counters
  reason : List UInt8 := []
  outputClosed : Bool := false
  finished : Bool := false
  /-- `stop` was called. -/
  stopped : Bool := false
  /-- The packets that the output took, with their interfaces; no part of the code's state. -/
  written : List (ℕ × CapturedPacket) := []

inductive Outcome where
  | ok
  /-- An error that means that the reader of the output is gone. -/
  | closed (err : List UInt8)
  | failed (err : List UInt8)

inductive Answer where
  | more
  | done
  | failed (err : List UInt8)

def Sink.note (sink : Sink) (reason : List UInt8) : Sink :=
  { sink with reason := if sink.reason = [] then reason else sink.reason, stopped := true }

def Sink.end (sink : Sink) (reason : List UInt8) : Sink :=
  if sink.finished then sink else sink.note reason

def reached (bounds : Bounds) (packets : ℕ) : Bool :=
  bounds.packetLimit != 0 && decide (bounds.packetLimit ≤ packets)

def Sink.full (bounds : Bounds) (sink : Sink) : Bool :=
  sink.outputClosed || reached bounds sink.record.packets

variable (stream : Stream)

/-- `write`. The outcome is that of the output, if the stream has bytes for it. -/
def Sink.write (bounds : Bounds) (sink : Sink) (index : ℕ)
    (packet : CapturedPacket) (outcome : Outcome) : Sink × Answer :=
  if sink.full bounds then (sink, .done)
  else match stream.packet index packet with
    | .error err => (sink, .failed (text "writing captured packet: " ++ text err))
    | .ok _ =>
      match outcome with
      | .closed err =>
        ({ sink.note (packetCaptureOutputClosedReason err) with outputClosed := true }, .done)
      | .failed err => (sink, .failed (text "writing captured packet: " ++ err))
      | .ok =>
        let record := sink.record.add index packet
        let sink := { sink with record, written := sink.written ++ [(index, packet)] }
        if reached bounds record.packets then ({ sink with stopped := true }, .done)
        else (sink, .more)

inductive ReaderState where
  | reading
  /-- It has a packet, and waits for its turn. -/
  | holding (packet : CapturedPacket)
  | returned

inductive Phase where
  | opening
  | running
  | ended
  deriving DecidableEq

/-- `runPacketCapture`, once all its sources are open. -/
structure System where
  phase : Phase := .opening
  sink : Sink
  readers : List ReaderState
  /-- The duration has passed. -/
  timedOut : Bool := false
  /-- The error of the caller's context. -/
  cancelled : Option (List UInt8) := none
  /-- The first error: of the header, or of a reader. -/
  failure : Option (List UInt8) := none

inductive Event where
  | header (outcome : Outcome)
  /-- A reader is given a packet. -/
  | read (index : ℕ) (now : Int64) (packet : CapturedPacket)
  | readFailed (index : ℕ) (err : List UInt8)
  /-- A reader has its turn to write. -/
  | write (index : ℕ) (outcome : Outcome)
  | clientClosed (err : Option (List UInt8))
  | timeout
  | cancel (err : List UInt8)
  /-- All readers have returned, and the sink is told so. -/
  | finish

variable (s : System)

def System.done : Bool :=
  s.sink.stopped || s.timedOut || s.cancelled.isSome || s.failure.isSome

def System.setReader (index : ℕ) (reader : ReaderState) : System :=
  { s with readers := s.readers.set index reader }

def System.return (index : ℕ) (err : Option (List UInt8)) : System :=
  { s with readers := s.readers.set index .returned, failure := s.failure <|> err }

def System.writeHeader (outcome : Outcome) : System :=
  match stream.header with
  | .error err =>
    { s with phase := .ended, failure := some (text "writing packet capture header: " ++ text err) }
  | .ok _ =>
    match outcome with
    | .ok => { s with phase := .running }
    | .closed err =>
      { s with
        phase := .ended,
        sink := Sink.end { s.sink with outputClosed := true }
          (packetCaptureOutputClosedReason err) }
    | .failed err =>
      { s with phase := .ended, failure := some (text "writing packet capture header: " ++ err) }

def System.read (bounds : Bounds) (s : System) (index : ℕ) (now : Int64) (packet : CapturedPacket) :
    System :=
  match preparePacket bounds now packet with
  | .ok packet => s.setReader index (.holding packet)
  | .error err => s.return index (some (text err))

def System.write (bounds : Bounds) (s : System) (index : ℕ)
    (packet : CapturedPacket) (outcome : Outcome) : System :=
  let (sink, answer) := s.sink.write stream bounds index packet outcome
  let s := { s with sink }
  match answer with
  | .more => s.setReader index .reading
  | .done => s.return index none
  | .failed err => s.return index (some err)

def ReaderState.hasReturned : ReaderState → Bool
  | .returned => true
  | _ => false

def step (bounds : Bounds) (s : System) : Event → Option System
  | .header outcome => if s.phase = .opening then some (s.writeHeader stream outcome) else none
  | .read index now packet =>
    match s.phase, s.readers[index]? with
    | .running, some .reading => some (s.read bounds index now packet)
    | _, _ => none
  | .readFailed index err =>
    match s.phase, s.readers[index]? with
    | .running, some .reading =>
      -- a read that fails because the capture ended is no error
      some (s.return index (if s.done then none else some err))
    | _, _ => none
  | .write index outcome =>
    match s.phase, s.readers[index]? with
    | .running, some (.holding packet) => some (s.write stream bounds index packet outcome)
    | _, _ => none
  | .clientClosed err =>
    if s.phase = .running ∨ s.sink.finished = true then
      some { s with sink := s.sink.end (waitForPacketCaptureClientClose err) }
    else none
  | .timeout =>
    if s.phase = .opening ∨ bounds.duration = 0 then none else some { s with timedOut := true }
  | .cancel err => some { s with cancelled := s.cancelled <|> some err }
  | .finish =>
    if s.phase = .running ∧ s.readers.all ReaderState.hasReturned = true then
      some { s with phase := .ended, sink := { s.sink with finished := true } }
    else none

def opened (interfaces : ℕ) : System where
  sink := { record := { interfaces := List.replicate interfaces 0 } }
  readers := List.replicate interfaces .reading

inductive Status where
  | succeeded
  | failed
  deriving DecidableEq

structure AuditRecord where
  status : Status
  reason : List UInt8
  record : Counters

def finalRecord (closeErrs : List (List UInt8)) : AuditRecord :=
  let errs := (s.failure <|> s.cancelled).toList ++ closeErrs
  if errs.isEmpty then { status := .succeeded, reason := s.sink.reason, record := s.sink.record }
  else
    { status := .failed,
      reason := boundedPacketCaptureReason ((text "\n").intercalate errs),
      record := s.sink.record }

def Sink.closing (bounds : Bounds) (sink : Sink) (index : ℕ)
    (packet : CapturedPacket) : Outcome → Bool
  | .closed _ => !sink.full bounds && (stream.packet index packet).toOption.isSome
  | _ => false

def closes (bounds : Bounds) (s : System) : Event → Bool
  | .header (.closed _) => stream.header.toOption.isSome && !s.sink.finished
  | .write index outcome =>
    match s.readers[index]? with
    | some (.holding packet) => s.sink.closing stream bounds index packet outcome
    | _ => false
  | .clientClosed _ => !s.sink.finished
  | _ => false

section Write

variable {stream : Stream} {bounds : Bounds} {sink : Sink} {index : ℕ} {packet : CapturedPacket}
  {outcome : Outcome}

theorem Sink.write_cases : sink.closing stream bounds index packet outcome = false ∧
        (sink.write stream bounds index packet outcome).1 = sink ∨
      sink.closing stream bounds index packet outcome = true ∧ sink.full bounds = false ∧
        (∃ err, (sink.write stream bounds index packet outcome).1 =
          { sink.note (packetCaptureOutputClosedReason err) with outputClosed := true }) ∨
      sink.closing stream bounds index packet outcome = false ∧ sink.full bounds = false ∧
        (∃ bytes, stream.packet index packet = .ok bytes) ∧
        ∃ stopped, (sink.write stream bounds index packet outcome).1 =
          { sink with
            record := sink.record.add index packet, written := sink.written ++ [(index, packet)],
            stopped } := by
  by_cases hfull : sink.full bounds = true
  · refine .inl ⟨?_, by simp only [Sink.write, if_pos hfull]⟩
    cases outcome <;> simp [Sink.closing, hfull]
  · unfold Sink.write
    rw [if_neg hfull]
    rw [Bool.not_eq_true] at hfull
    cases hpacket : stream.packet index packet with
    | error err =>
      refine .inl ⟨?_, rfl⟩
      cases outcome <;> simp [Sink.closing, hpacket, Except.toOption]
    | ok bytes =>
      cases outcome with
      | ok =>
        refine .inr (.inr ⟨rfl, hfull, ⟨bytes, rfl⟩, ?_⟩)
        simp only
        split_ifs
        · exact ⟨true, rfl⟩
        · exact ⟨sink.stopped, rfl⟩
      | closed err =>
        refine .inr (.inl ⟨?_, hfull, err, rfl⟩)
        simp [Sink.closing, hfull, hpacket, Except.toOption]
      | failed err => exact .inl ⟨rfl, rfl⟩

end Write

theorem prefix_boundedPacketCaptureReason {rest : List UInt8} : packetCaptureReasonClientClosed <+:
      boundedPacketCaptureReason (packetCaptureReasonClientClosed ++ rest) := by
  have hlength : packetCaptureReasonClientClosed.length ≤ 512 := by decide +kernel
  rw [boundedPacketCaptureReason, take_append, take_of_length_le hlength]
  exact prefix_append _ _

theorem prefix_outputClosedReason {err : List UInt8} :
    packetCaptureReasonClientClosed <+: packetCaptureOutputClosedReason err := by
  rw [packetCaptureOutputClosedReason, append_assoc]
  exact prefix_boundedPacketCaptureReason

variable {written : List (ℕ × CapturedPacket)} {err : Option (List UInt8)}

theorem prefix_clientClose :
    packetCaptureReasonClientClosed <+: waitForPacketCaptureClientClose err := by
  cases err with
  | some err =>
    rw [waitForPacketCaptureClientClose, append_assoc]
    exact prefix_boundedPacketCaptureReason
  | none => exact prefix_append _ _

theorem clientClosed_ne_nil : packetCaptureReasonClientClosed ≠ [] := by decide +kernel

def tally (interfaces : ℕ) (written : List (ℕ × CapturedPacket)) : Counters where
  packets := written.length
  capturedBytes := (written.map fun packet => packet.2.data.length).sum
  interfaces := (List.range interfaces).map fun index =>
    written.countP fun packet => packet.1 == index

variable {interfaces : ℕ}

theorem tally_add {index : ℕ} {packet : CapturedPacket} :
    tally interfaces (written ++ [(index, packet)]) =
      (tally interfaces written).add index packet := by
  simp only [tally, Counters.add, Counters.mk.injEq, length_append, length_singleton,
    map_append, map_singleton, sum_append, sum_singleton, true_and]
  refine ext_getElem (by simp) fun i hi _ => ?_
  rw [getElem_modify, getElem_map, getElem_map, getElem_range]
  by_cases heq : index = i
  · simp [heq]
  · simp [heq]

theorem sum_map_range_add {f : ℕ → ℕ} {a n : ℕ} :
    ((List.range n).map fun i => f i + if a = i then 1 else 0).sum =
      ((List.range n).map f).sum + if a < n then 1 else 0 := by
  induction n with
  | zero => rfl
  | succ n ih =>
    simp only [range_succ, map_append, map_singleton, sum_append, sum_singleton, ih]
    split_ifs <;> omega

theorem sum_tally (h : ∀ packet ∈ written, packet.1 < interfaces) :
    (tally interfaces written).interfaces.sum = written.length := by
  induction written with
  | nil => simp [tally]
  | cons packet written ih =>
    have hrest := ih fun other hother => h other (mem_cons_of_mem _ hother)
    simp only [tally, countP_cons, beq_iff_eq] at hrest ⊢
    rw [sum_map_range_add, hrest, if_pos (h packet mem_cons_self), length_cons]

inductive Effect (stream : Stream) (bounds : Bounds) (s : System) (e : Event) (sink : Sink) :
    Prop where
  | quiet (hcloses : closes stream bounds s e = false) (hrecord : sink.record = s.sink.record)
      (hwritten : sink.written = s.sink.written) (hreason : sink.reason = s.sink.reason)
      (hclosed : s.sink.outputClosed = true → sink.outputClosed = true)
  | noted (hcloses : closes stream bounds s e = true) (hrecord : sink.record = s.sink.record)
      (hwritten : sink.written = s.sink.written) (reason : List UInt8)
      (hstart : packetCaptureReasonClientClosed <+: reason)
      (hreason : sink.reason = if s.sink.reason = [] then reason else s.sink.reason)
      (hclosed : s.sink.outputClosed = true → sink.outputClosed = true)
  | taken (hcloses : closes stream bounds s e = false) (hfull : s.sink.full bounds = false)
      (index : ℕ) (packet : CapturedPacket) (hreader : s.readers[index]? = some (.holding packet))
      (hpacket : ∃ bytes, stream.packet index packet = .ok bytes)
      (hrecord : sink.record = s.sink.record.add index packet)
      (hwritten : sink.written = s.sink.written ++ [(index, packet)])
      (hreason : sink.reason = s.sink.reason)

variable {events : List Event}

section Steps

variable {stream : Stream} {bounds : Bounds} {s s' : System} {e : Event}

variable {outcome : Outcome}

theorem effect_header :
    Effect stream bounds s (.header outcome) (s.writeHeader stream outcome).sink := by
  unfold System.writeHeader
  cases hheader : stream.header with
  | error err =>
    refine .quiet ?_ rfl rfl rfl id
    cases outcome <;> simp [closes, hheader, Except.toOption]
  | ok bytes =>
    cases outcome with
    | ok | failed err => exact .quiet rfl rfl rfl rfl id
    | closed err =>
      simp only [Sink.end]
      split_ifs with hfinished
      · exact .quiet (by simp [closes, hfinished]) rfl rfl rfl fun _ => rfl
      · exact .noted (by simpa [closes, hheader, Except.toOption] using hfinished) rfl rfl _
          prefix_outputClosedReason rfl fun _ => rfl

theorem effect_write {index : ℕ} {packet : CapturedPacket}
    (hreader : s.readers[index]? = some (.holding packet)) :
    Effect stream bounds s (.write index outcome)
      (s.write stream bounds index packet outcome).sink := by
  have hsink : (s.write stream bounds index packet outcome).sink =
      (s.sink.write stream bounds index packet outcome).1 := by
    unfold System.write
    cases hwrite : s.sink.write stream bounds index packet outcome with
    | mk sink answer => cases answer <;> rfl
  have hcloses : closes stream bounds s (.write index outcome) =
      s.sink.closing stream bounds index packet outcome := by
    simp only [closes, hreader]
  rw [hsink]
  rcases @Sink.write_cases stream bounds s.sink index packet outcome with
    ⟨hclosing, heq⟩ | ⟨hclosing, -, err, heq⟩ | ⟨hclosing, hfull, hpacket, stopped, heq⟩
  · rw [heq]
    exact .quiet (hcloses.trans hclosing) rfl rfl rfl id
  · rw [heq]
    exact .noted (hcloses.trans hclosing) rfl rfl _ prefix_outputClosedReason rfl fun _ => rfl
  · rw [heq]
    exact .taken (hcloses.trans hclosing) hfull index packet hreader hpacket rfl rfl rfl

theorem effect_clientClosed : Effect stream bounds s (.clientClosed err)
      (s.sink.end (waitForPacketCaptureClientClose err)) := by
  unfold Sink.end
  split_ifs with hfinished
  · exact .quiet (by simp [closes, hfinished]) rfl rfl rfl id
  · exact .noted (by simpa [closes] using hfinished) rfl rfl _ prefix_clientClose rfl id

def Held (bounds : Bounds) (readers : List ReaderState) : Prop :=
  ∀ packet, .holding packet ∈ readers → Prepared bounds packet

structure Holds (stream : Stream) (bounds : Bounds) (interfaces : ℕ) (s : System) : Prop where
  readers : s.readers.length = interfaces
  held : Held bounds s.readers
  record : s.sink.record = tally interfaces s.sink.written
  written : ∀ packet ∈ s.sink.written, packet.1 < interfaces ∧ Prepared bounds packet.2 ∧
    ∃ bytes, stream.packet packet.1 packet.2 = .ok bytes
  limit : bounds.packetLimit ≠ 0 → s.sink.written.length ≤ bounds.packetLimit

theorem effect_step (he : step stream bounds s e = some s') : Effect stream bounds s e s'.sink := by
  cases e with
  | header outcome =>
    simp only [step] at he
    split_ifs at he
    cases he
    exact effect_header
  | read index now packet =>
    simp only [step] at he
    split at he
    · cases he
      unfold System.read
      split <;> exact .quiet rfl rfl rfl rfl id
    · cases he
  | readFailed index err =>
    simp only [step] at he
    split at he
    · cases he
      exact .quiet rfl rfl rfl rfl id
    · cases he
  | write index outcome =>
    simp only [step] at he
    split at he
    · next packet _ hreader =>
      cases he
      exact effect_write hreader
    · cases he
  | clientClosed err =>
    simp only [step] at he
    split_ifs at he
    cases he
    exact effect_clientClosed
  | timeout | finish =>
    simp only [step] at he
    split_ifs at he
    cases he
    exact .quiet rfl rfl rfl rfl id
  | cancel err =>
    cases he
    exact .quiet rfl rfl rfl rfl id

theorem Held.set {readers : List ReaderState} {index : ℕ} {reader : ReaderState}
    (h : Held bounds readers)
    (hreader : ∀ packet, reader = .holding packet → Prepared bounds packet) :
    Held bounds (readers.set index reader) := by
  intro packet hpacket
  rcases mem_or_eq_of_mem_set hpacket with hpacket | heq
  · exact h packet hpacket
  · exact hreader packet heq.symm

theorem readers_step (he : step stream bounds s e = some s') :
    s'.readers = s.readers ∨ ∃ index reader, s'.readers = s.readers.set index reader ∧
      ∀ packet, reader = .holding packet → Prepared bounds packet := by
  cases e with
  | header outcome =>
    simp only [step] at he
    split_ifs at he
    cases he
    refine .inl ?_
    unfold System.writeHeader
    split
    · rfl
    · split <;> rfl
  | read index now packet =>
    simp only [step] at he
    split at he
    · cases he
      unfold System.read
      split
      · next prepared hprepared =>
        refine .inr ⟨index, .holding prepared, rfl, fun packet heq => ?_⟩
        cases heq
        exact prepared_of_preparePacket hprepared
      · exact .inr ⟨index, .returned, rfl, nofun⟩
    · cases he
  | readFailed index err =>
    simp only [step] at he
    split at he
    · cases he
      exact .inr ⟨index, .returned, rfl, nofun⟩
    · cases he
  | write index outcome =>
    simp only [step] at he
    split at he
    · cases he
      unfold System.write
      split
      next sink answer _ =>
      cases answer with
      | more => exact .inr ⟨index, .reading, rfl, nofun⟩
      | done | failed err => exact .inr ⟨index, .returned, rfl, nofun⟩
    · cases he
  | clientClosed err | timeout | finish =>
    simp only [step] at he
    split_ifs at he
    cases he
    exact .inl rfl
  | cancel err =>
    cases he
    exact .inl rfl

theorem holds_step (h : Holds stream bounds interfaces s) (he : step stream bounds s e = some s') :
    Holds stream bounds interfaces s' := by
  have hreaders : s'.readers.length = interfaces ∧ Held bounds s'.readers := by
    rcases readers_step he with heq | ⟨index, reader, heq, hreader⟩
    · rw [heq]
      exact ⟨h.readers, h.held⟩
    · rw [heq, length_set]
      exact ⟨h.readers, h.held.set hreader⟩
  cases effect_step he with
  | quiet _ hrecord hwritten _ _ | noted _ hrecord hwritten _ _ _ _ =>
    exact ⟨hreaders.1, hreaders.2, by rw [hrecord, hwritten, h.record], hwritten ▸ h.written,
      hwritten ▸ h.limit⟩
  | taken _ hfull index packet hreader hpacket hrecord hwritten _ =>
    refine ⟨hreaders.1, hreaders.2, ?_, ?_, ?_⟩
    · rw [hrecord, hwritten, h.record, tally_add]
    · intro other hother
      rw [hwritten, mem_append, mem_singleton] at hother
      rcases hother with hother | rfl
      · exact h.written other hother
      · obtain ⟨hindex, -⟩ := List.getElem?_eq_some_iff.mp hreader
        exact ⟨h.readers ▸ hindex, h.held packet (mem_of_getElem? hreader), hpacket⟩
    · intro hlimit
      have hpackets : s.sink.record.packets = s.sink.written.length := by rw [h.record, tally]
      rw [Sink.full, Bool.or_eq_false_iff, reached, hpackets] at hfull
      have hroom : s.sink.written.length < bounds.packetLimit := by simpa [hlimit] using hfull.2
      rw [hwritten, length_append, length_singleton]
      omega

theorem holds_opened : Holds stream bounds interfaces (opened interfaces) := by
  refine ⟨length_replicate, ?_, ?_, ?_, fun _ => Nat.zero_le _⟩
  · intro packet hpacket
    cases (mem_replicate.mp hpacket).2
  · simp [opened, tally, map_const']
  · intro packet hpacket
    cases hpacket

theorem full_step (h : s.sink.full bounds = true) (he : step stream bounds s e = some s') :
    s'.sink.full bounds = true ∧ s'.sink.written = s.sink.written := by
  cases effect_step he with
  | quiet _ hrecord hwritten _ hclosed | noted _ hrecord hwritten _ _ _ hclosed =>
    refine ⟨?_, hwritten⟩
    rw [Sink.full, Bool.or_eq_true] at h ⊢
    rw [hrecord]
    exact h.imp_left hclosed
  | taken _ hfull =>
    rw [h] at hfull
    cases hfull

theorem written_of_full (h : s.sink.full bounds = true)
    (hrun : run (step stream bounds) s events = some s') : s'.sink.written = s.sink.written := by
  have hinvariant : s'.sink.full bounds = true ∧ s'.sink.written = s.sink.written := by
    refine run_invariant_of_step (P := fun t => t.sink.full bounds = true ∧
      t.sink.written = s.sink.written) ⟨h, rfl⟩ (fun t e t' ht he => ?_) events s' hrun
    obtain ⟨hfull, hwritten⟩ := full_step ht.1 he
    exact ⟨hfull, hwritten.trans ht.2⟩
  exact hinvariant.2

variable (hrun : run (step stream bounds) (opened interfaces) events = some s)

include hrun

theorem reason_run : (s.sink.reason = [] ∨ packetCaptureReasonClientClosed <+: s.sink.reason) ∧
      (s.sink.reason ≠ [] ↔ Happened (step stream bounds) (opened interfaces)
        (fun s e => closes stream bounds s e = true) events) := by
  refine run_invariant (P := fun events s =>
    (s.sink.reason = [] ∨ packetCaptureReasonClientClosed <+: s.sink.reason) ∧
      (s.sink.reason ≠ [] ↔ Happened (step stream bounds) (opened interfaces)
        (fun s e => closes stream bounds s e = true) events)) ?_ ?_ events s runMeets_true hrun
  · exact ⟨.inl rfl, fun h => absurd rfl h, fun h => absurd h happened_nil⟩
  · intro events s e s' hs ⟨htext, hiff⟩ _ he
    rw [happened_append_singleton hs]
    cases effect_step he with
    | quiet hcloses _ _ hreason _ | taken hcloses _ _ _ _ _ _ _ hreason =>
      rw [hreason, hcloses, hiff]
      exact ⟨htext, by simp⟩
    | noted hcloses _ _ reason hstart hreason _ =>
      rw [hreason]
      split_ifs with hempty
      · refine ⟨.inr hstart, fun _ => .inr hcloses, fun _ hnil => ?_⟩
        rw [hnil] at hstart
        exact clientClosed_ne_nil (prefix_nil.mp hstart)
      · exact ⟨htext, fun _ => .inr hcloses, fun _ => hempty⟩

theorem holds_run : Holds stream bounds interfaces s :=
  run_invariant_of_step holds_opened (fun _ _ _ h he => holds_step h he) events s hrun

end Steps

/-- A capture after any interleaving of its readers with closures, failures and bounds. -/
theorem capture_bounds {stream : Stream} {bounds : Bounds} {interfaces : ℕ} {events : List Event}
    {s : System} (hrun : run (step stream bounds) (opened interfaces) events = some s) :
    (bounds.packetLimit ≠ 0 → s.sink.written.length ≤ bounds.packetLimit) ∧
      (s.sink.outputClosed = true ∨
          bounds.packetLimit ≠ 0 ∧ bounds.packetLimit ≤ s.sink.written.length →
        ∀ later s', run (step stream bounds) s later = some s' → s'.sink.written = s.sink.written) ∧
      (∀ packet ∈ s.sink.written, packet.2.data.length ≤ bounds.snapLength) ∧
      ∀ closeErrs,
        ((finalRecord s closeErrs).record.packets = s.sink.written.length ∧
          (finalRecord s closeErrs).record.capturedBytes =
            (s.sink.written.map fun packet => packet.2.data.length).sum ∧
          (finalRecord s closeErrs).record.interfaces.sum = s.sink.written.length ∧
          (finalRecord s closeErrs).record.interfaces =
            (List.range interfaces).map fun index =>
              s.sink.written.countP fun packet => packet.1 == index) ∧
        ((finalRecord s closeErrs).status = .succeeded →
          (packetCaptureReasonClientClosed <+: (finalRecord s closeErrs).reason ↔
            Happened (step stream bounds) (opened interfaces)
              (fun s e => closes stream bounds s e = true) events)) := by
  have h := holds_run hrun
  have hfinal : ∀ closeErrs, (finalRecord s closeErrs).record =
    tally interfaces s.sink.written := by
    intro closeErrs
    rw [← h.record]
    simp only [finalRecord]
    split_ifs <;> rfl
  refine ⟨h.limit, ?_, fun packet hpacket => (h.written packet hpacket).2.1.snapped,
    fun closeErrs => ⟨?_, fun hstatus => ?_⟩⟩
  · intro hend later s' hlater
    refine written_of_full ?_ hlater
    rw [Sink.full, Bool.or_eq_true, reached, h.record]
    refine hend.imp_right fun hlimit => ?_
    rw [Bool.and_eq_true, bne_iff_ne, decide_eq_true_iff]
    exact hlimit
  · rw [hfinal]
    exact ⟨rfl, rfl, sum_tally fun packet hpacket => (h.written packet hpacket).1, rfl⟩
  · have hreason : (finalRecord s closeErrs).reason = s.sink.reason := by
      simp only [finalRecord] at hstatus ⊢
      split_ifs at hstatus ⊢
      rfl
    obtain ⟨htext, hiff⟩ := reason_run hrun
    rw [hreason, ← hiff]
    constructor
    · intro hstart hnil
      rw [hnil] at hstart
      exact clientClosed_ne_nil (prefix_nil.mp hstart)
    · exact fun hne => htext.resolve_left hne

/-- The packet limit ends the capture while both readers hold a packet, and the client leaves before
the sink is told that they finished. -/
def lateClose : List Event :=
  [.header .ok, .read 0 0 ping, .read 1 0 ping, .write 0 .ok, .write 1 .ok, .clientClosed none,
    .finish]

def twoInterfaces : Stream := pcapngStream [[101], [102]] leastBounds.snapLength

theorem lateClose_bounds : ∃ s, run (step twoInterfaces leastBounds) (opened 2) lateClose = some s ∧
    s.sink.written = [(0, ping)] ∧ s.sink.written.length ≤ 1 ∧
    (finalRecord s []).record.packets = 1 := by
  obtain ⟨s, hrun, h⟩ : ∃ s, run (step twoInterfaces leastBounds) (opened 2) lateClose = some s ∧
      s.sink.written = [(0, ping)] := by
    decide +kernel
  obtain ⟨hlimit, -, -, hrecord⟩ := capture_bounds hrun
  refine ⟨s, hrun, h, hlimit (by decide), (hrecord []).1.1.trans ?_⟩
  rw [h]
  rfl

/-- The record says that the client was closed, which was noted after the readers had returned. -/
theorem lateClose_noted : ∃ s, run (step twoInterfaces leastBounds) (opened 2) lateClose = some s ∧
    (finalRecord s []).status = .succeeded ∧
    packetCaptureReasonClientClosed <+: (finalRecord s []).reason ∧
    ¬Happened (step twoInterfaces leastBounds) (opened 2) (fun s e =>
      closes twoInterfaces leastBounds s e = true ∧
        s.readers.all ReaderState.hasReturned = false) lateClose := by
  obtain ⟨s, hrun, hstatus, hreason⟩ : ∃ s,
      run (step twoInterfaces leastBounds) (opened 2) lateClose = some s ∧
        (finalRecord s []).status = .succeeded ∧
        packetCaptureReasonClientClosed <+: (finalRecord s []).reason := by
    decide +kernel
  exact ⟨s, hrun, hstatus, hreason, (runMeets_of_meets (by decide +kernel)).not_happened⟩

end Clabernetes.Capture
