import Clabernetes.DevicePlan.NormalForm
import Clabernetes.Planning.Frames

/-!
# Framed records in noise

`internal/deviceplan/worker.go:114-361` and `session.go:308-397`. The log decoder splits the whole
output into lines and takes the last record of its kind; the decoder of an attached stream reads
line by line with a bounded buffer. Base64 and the JSON of a frame are parameters.
-/

namespace Clabernetes.Planning

open Base DevicePlan List

abbrev Bytes := List UInt8

/-- `encoding/base64` without padding, strict or not, and the JSON of records. -/
structure RecordLibrary (φ : Type) extends Library where
  encode : Bytes → Bytes
  decodeString : Bool → Bytes → Option Bytes
  encodedLen : Nat → Nat
  decode_encode : ∀ strict raw, decodeString strict (encode raw) = some raw
  length_encode_le : ∀ raw n, raw.length ≤ n → (encode raw).length ≤ encodedLen n
  printable : ∀ raw, ∀ byte ∈ encode raw, byte ≠ 10 ∧ byte ≠ 13
  encode_ne_nil : ∀ raw, raw ≠ [] → encode raw ≠ []
  /-- The bytes of a JSON text. -/
  bytes : Text → Bytes
  text : Bytes → Text
  marshal : φ → Option Bytes
  unmarshal : Bytes → Option φ
  unmarshal_marshal : ∀ frame raw, marshal frame = some raw → raw ≠ [] ∧ unmarshal raw = some frame
  validateSessionFrame : φ → Except Error Unit
  decodeWorkerError : Bytes → Except Error Error

variable {φ : Type}

section
variable (lib : RecordLibrary φ)

def framed (marker raw : Bytes) : Bytes := 10 :: (marker ++ lib.encode raw) ++ [10]

def encodeWorkerOutput (plan : Plan) : Except Error Bytes :=
  (plan.canonicalJSON lib.toLibrary).map fun json => framed lib workerOutputPrefix (lib.bytes json)

def readFramedLine (marker : Bytes) (maxEncodedBytes : Nat) (found : Bytes × Bool) (line : Bytes) :
    Bytes × Bool :=
  match cutPrefix line marker with
  | none => found
  | some value => if maxEncodedBytes < value.length then (found.1, true) else (value, false)

def decodeFramedWorkerOutput (raw marker : Bytes) (maxBytes : Nat) (document : String) :
    Except Error Bytes :=
  if maxBytes = 0 then
    .error (planningError .errorInvalidInput "worker.maxOutputBytes"
      "maximum output size must be positive")
  else
    let (encoded, oversizedFrame) := (splitLines raw).foldl
      (readFramedLine marker (lib.encodedLen maxBytes)) ([], false)
    let failure message :=
      .error (planningError .errorSerialization "worker.output" (document ++ message))
    if oversizedFrame then failure " worker output exceeds its framing limit"
    else if encoded = [] then failure " worker emitted no framed output"
    else
      match lib.decodeString true encoded with
      | none => failure " worker emitted invalid framed output"
      | some decoded =>
        if decoded = [] ∨ maxBytes < decoded.length then
          failure " worker emitted invalid framed output"
        else .ok decoded

def decodeWorkerOutput (raw : Bytes) (maxPlanBytes : Nat) : Except Error Plan :=
  match decodeFramedWorkerOutput lib raw workerOutputPrefix maxPlanBytes "plan" with
  | .error err => .error err
  | .ok decoded => decodePlan lib.toLibrary (lib.text decoded)

def writeSessionFrame (frame : φ) : Except Error Bytes :=
  match lib.validateSessionFrame frame with
  | .error err => .error err
  | .ok _ =>
    match lib.marshal frame with
    | none => .error (planningError .errorSerialization "session.frame"
        "cannot serialize planner session frame")
    | some raw => .ok (framed lib sessionFramePrefix raw)

/-- The buffer of the scanner; `session.go:315-323`. -/
def scannerCapacity (maxBytes : Nat) : Nat :=
  max (64 * 2 ^ 10) (if maxBytes = 0 then 8 * 2 ^ 20 else maxBytes)

/-- A line as `bufio.ScanLines` returns it, without a carriage return at its end. -/
def dropCR (line : Bytes) : Bytes := if line.getLast? = some 13 then line.dropLast else line

/-- `session.go:329-372`, on the lines of the stream; `none` is the end of the stream. The scanner
fails at a line that, with its line break, does not fit into its buffer. -/
def nextFrame (capacity : Nat) : List Bytes → Except (Option Error) φ
  | [] => .error none
  | line :: rest =>
    if capacity ≤ line.length then
      .error (some (planningError .errorSerialization "session.frame"
        "cannot read planner session frame"))
    else if workerErrorPrefix <+: dropCR line then
      match lib.decodeWorkerError (dropCR line) with
      | .error err => .error (some err)
      | .ok _ => nextFrame capacity rest
    else
      match cutPrefix (dropCR line) sessionFramePrefix with
      | none => nextFrame capacity rest
      | some encoded =>
        match lib.decodeString false encoded with
        | none => .error (some (planningError .errorSerialization "session.frame"
            "cannot decode planner session frame"))
        | some raw =>
          match lib.unmarshal raw with
          | none => .error (some (planningError .errorSerialization "session.frame"
              "cannot parse planner session frame"))
          | some frame =>
            match lib.validateSessionFrame frame with
            | .error err => .error (some err)
            | .ok _ => .ok frame

def firstFrame (raw : Bytes) (maxBytes : Nat) : Except (Option Error) φ :=
  nextFrame lib (scannerCapacity maxBytes) (splitLines raw)

end

variable {lib : RecordLibrary φ} {marker raw before after : Bytes} {maxBytes : Nat}

def Noise (text : Bytes) : Prop :=
  ∀ line ∈ splitLines text, ∀ marker ∈ framePrefixes, ¬marker <+: line

theorem splitLines_framed (lib : RecordLibrary φ) (before raw after : Bytes)
    (hmarker : 10 ∉ marker) : splitLines (before ++ framed lib marker raw ++ after) =
      splitLines before ++ (marker ++ lib.encode raw) :: splitLines after := by
  have hline : 10 ∉ marker ++ lib.encode raw := by
    intro h
    rcases mem_append.mp h with h | h
    · exact hmarker h
    · exact (lib.printable raw 10 h).1 rfl
  have hsingle : (marker ++ lib.encode raw).splitOnP (· == 10) = [marker ++ lib.encode raw] := by
    rw [splitOnP_eq_singleton]
    intro byte hbyte
    simpa using fun heq : byte = 10 => hline (heq ▸ hbyte)
  have htext : before ++ framed lib marker raw ++ after =
      before ++ 10 :: ((marker ++ lib.encode raw) ++ 10 :: after) := by simp [framed]
  rw [htext, splitLines, List.splitOn, splitOnP_append_cons _ _ (by simp),
    splitOnP_append_cons _ _ (by simp), hsingle]
  rfl

theorem foldl_readFramedLine {limit : Nat} {found : Bytes × Bool} (hmarker : marker ∈ framePrefixes)
    (h : Noise after) : (splitLines after).foldl (readFramedLine marker limit) found = found := by
  unfold Noise at h
  generalize splitLines after = lines at h ⊢
  induction lines with
  | nil => rfl
  | cons line lines ih =>
    simp only [forall_mem_cons] at h
    rw [foldl_cons, readFramedLine, cutPrefix, if_neg (h.1 marker hmarker), ih h.2]

theorem newline_notMem_of_mem (h : marker ∈ framePrefixes) : 10 ∉ marker ∧ 13 ∉ marker := by
  revert marker
  decide +kernel

theorem decodeFramed_eq (hbefore : Noise before) (hafter : Noise after)
    (hmarker : marker ∈ framePrefixes) (hraw : raw ≠ []) (hlength : raw.length ≤ maxBytes)
    (document : String) :
    decodeFramedWorkerOutput lib (before ++ framed lib marker raw ++ after) marker maxBytes
      document = .ok raw := by
  have hpositive : maxBytes ≠ 0 := by
    have := length_pos_iff.mpr hraw
    omega
  have hread : ∀ found, readFramedLine marker (lib.encodedLen maxBytes) found
      (marker ++ lib.encode raw) = (lib.encode raw, false) := by
    intro found
    simp [readFramedLine, cutPrefix, Nat.not_lt.mpr (lib.length_encode_le raw maxBytes hlength)]
  have hfound : (splitLines (before ++ framed lib marker raw ++ after)).foldl
      (readFramedLine marker (lib.encodedLen maxBytes)) ([], false) = (lib.encode raw, false) := by
    rw [splitLines_framed _ _ _ _ (newline_notMem_of_mem hmarker).1, foldl_append,
      foldl_cons, foldl_readFramedLine hmarker hbefore, hread,
      foldl_readFramedLine hmarker hafter]
  simp only [decodeFramedWorkerOutput, hpositive, hfound, lib.encode_ne_nil raw hraw,
    lib.decode_encode, hraw, Nat.not_lt.mpr hlength, ↓reduceIte, Bool.false_eq_true, or_self]

theorem dropCR_isPrefix_line (line : Bytes) : dropCR line <+: line := by
  unfold dropCR
  split
  · exact dropLast_prefix line
  · exact prefix_rfl

theorem nextFrame_noise {capacity : Nat} {lines rest : List Bytes}
    (h : ∀ line ∈ lines, ∀ marker ∈ framePrefixes, ¬marker <+: line) (frame : φ) :
    nextFrame lib capacity (lines ++ rest) = .ok frame ↔
      (∀ line ∈ lines, line.length < capacity) ∧ nextFrame lib capacity rest = .ok frame := by
  induction lines with
  | nil => simp
  | cons line lines ih =>
    simp only [forall_mem_cons] at h ⊢
    have hnone : ∀ marker ∈ framePrefixes, ¬marker <+: dropCR line :=
      fun marker hmarker hpre => h.1 marker hmarker (hpre.trans (dropCR_isPrefix_line line))
    rw [cons_append, nextFrame, and_assoc, ← ih h.2]
    by_cases hlength : capacity ≤ line.length
    · simp [hlength, Nat.not_lt.mpr hlength]
    · rw [if_neg hlength, if_neg (hnone _ (by simp [framePrefixes])), cutPrefix,
        if_neg (hnone _ (by simp [framePrefixes]))]
      simp [Nat.lt_of_not_le hlength]

/-- In noise, the log decoder returns every plan and every frame that its bound allows; the stream
decoder returns the frame exactly if its line and those before it fit into the buffer. -/
theorem records_survive_noise (lib : RecordLibrary φ) (hbefore : Noise before)
    (hafter : Noise after) :
    (∀ plan json normalized maxBytes, plan.canonicalJSON lib.toLibrary = .ok json →
      normalizePlan lib.toLibrary plan = .ok normalized → lib.bytes json ≠ [] →
      lib.text (lib.bytes json) = json → (lib.bytes json).length ≤ maxBytes →
      ∃ record, encodeWorkerOutput lib plan = .ok record ∧
        decodeWorkerOutput lib (before ++ record ++ after) maxBytes = .ok normalized) ∧
    ∀ frame raw maxBytes, lib.validateSessionFrame frame = .ok () →
      lib.marshal frame = some raw →
      ∃ record, writeSessionFrame lib frame = .ok record ∧
        (raw.length ≤ maxBytes → decodeFramedWorkerOutput lib (before ++ record ++ after)
          sessionFramePrefix maxBytes "session" = .ok raw) ∧
        (firstFrame lib (before ++ record ++ after) maxBytes = .ok frame ↔
          ∀ line ∈ splitLines before ++ [sessionFramePrefix ++ lib.encode raw],
            line.length < scannerCapacity maxBytes) := by
  constructor
  · intro plan json normalized maxBytes hjson hnormalized hbytes htext hlength
    refine ⟨framed lib workerOutputPrefix (lib.bytes json), by rw [encodeWorkerOutput, hjson]; rfl,
      ?_⟩
    obtain ⟨-, json', hjson', hdecode, -⟩ := plan_normal_form lib.toLibrary hnormalized
    obtain rfl : json = json' := Except.ok.inj (hjson.symm.trans hjson')
    rw [decodeWorkerOutput, decodeFramed_eq hbefore hafter (by simp [framePrefixes])
      hbytes hlength]
    exact (congrArg _ htext).trans hdecode
  · intro frame raw maxBytes hvalid hmarshal
    obtain ⟨hraw, hunmarshal⟩ := lib.unmarshal_marshal frame raw hmarshal
    have hmarker : sessionFramePrefix ∈ framePrefixes := by simp [framePrefixes]
    refine ⟨framed lib sessionFramePrefix raw, by rw [writeSessionFrame, hvalid, hmarshal],
      fun hlength => decodeFramed_eq hbefore hafter hmarker hraw hlength _, ?_⟩
    rw [firstFrame, splitLines_framed _ _ _ _ (newline_notMem_of_mem hmarker).1,
      nextFrame_noise hbefore, forall_mem_append, forall_mem_singleton]
    refine and_congr_right fun _ => ?_
    have hdrop : dropCR (sessionFramePrefix ++ lib.encode raw) =
        sessionFramePrefix ++ lib.encode raw := by
      refine if_neg fun hlast => ?_
      rcases mem_append.mp (mem_of_getLast? hlast) with h | h
      · exact (newline_notMem_of_mem hmarker).2 h
      · exact (lib.printable raw 13 h).2 rfl
    have herror : ¬workerErrorPrefix <+: sessionFramePrefix ++ lib.encode raw := by
      rw [prefix_iff_eq_take, take_append_of_le_length (by decide +kernel)]
      decide +kernel
    rw [nextFrame, hdrop, if_neg herror, cutPrefix, if_pos (prefix_append _ _), drop_left]
    split
    · next hlength => exact iff_of_false nofun (Nat.not_lt.mpr hlength)
    · next hlength =>
      simp only [lib.decode_encode, hunmarshal, hvalid]
      exact iff_of_true trivial (Nat.lt_of_not_le hlength)

/-- An encoding in pairs of bytes, none of them a line break. -/
def pairs (raw : Bytes) : Bytes :=
  raw.flatMap fun byte => if byte = 10 then [2, 2] else if byte = 13 then [2, 3] else [1, byte]

def ofPairs : Bytes → Bytes
  | first :: second :: rest =>
    (if first = 1 then second else if second = 2 then 10 else 13) :: ofPairs rest
  | _ => []

theorem ofPairs_pairs (raw : Bytes) : ofPairs (pairs raw) = raw := by
  induction raw with
  | nil => rfl
  | cons byte raw ih =>
    rw [pairs, flatMap_cons, ← pairs]
    split_ifs <;> simp_all [ofPairs]

def pairRecords : RecordLibrary Unit where
  toLibrary := valueLibrary
  encode := pairs
  decodeString _ raw := some (ofPairs raw)
  encodedLen n := 2 * n
  decode_encode _ raw := congrArg some (ofPairs_pairs raw)
  length_encode_le raw n h := by
    have hlength : (pairs raw).length = 2 * raw.length := by
      induction raw with
      | nil => rfl
      | cons byte raw ih =>
        rw [pairs, flatMap_cons, length_append, ← pairs, ih (by simp at h; omega)]
        split_ifs <;> simp <;> omega
    omega
  printable raw byte hbyte := by
    obtain ⟨source, -, hbyte⟩ := mem_flatMap.mp hbyte
    split_ifs at hbyte <;> simp_all <;> rcases hbyte with rfl | rfl <;> simp_all
  encode_ne_nil raw h := by
    intro hempty
    rw [← ofPairs_pairs raw, hempty] at h
    exact h rfl
  bytes _ := [1]
  text _ := .inr ((normalizePlan valueLibrary samplePlan).toOption.getD samplePlan)
  marshal _ := some [1]
  unmarshal _ := some ()
  unmarshal_marshal := by simp
  validateSessionFrame _ := .ok ()
  decodeWorkerError _ := .error (planningError .errorSerialization "" "")

theorem frame_survives_hook :
    (∃ record plan, encodeWorkerOutput pairRecords samplePlan = .ok record ∧
      decodeWorkerOutput pairRecords
        (bytesOf "a hook\r\nC9S_DEVICE" ++ record ++ bytesOf "more") 1 = .ok plan ∧
      plan.containers.map (·.runtimeID) = ["c"]) ∧
    ∃ record, writeSessionFrame pairRecords () = .ok record ∧
      firstFrame pairRecords (bytesOf "a hook\r\nC9S_DEVICE" ++ record ++ bytesOf "more") 0 =
        .ok () := by
  obtain ⟨hplans, hframes⟩ := records_survive_noise pairRecords
    (show Noise (bytesOf "a hook\r\nC9S_DEVICE") by unfold Noise; decide +kernel)
    (show Noise (bytesOf "more") by unfold Noise; decide +kernel)
  constructor
  · obtain ⟨plan, hplan, hruntime⟩ : ∃ plan, normalizePlan valueLibrary samplePlan = .ok plan ∧
        plan.containers.map (·.runtimeID) = ["c"] := by
      decide +kernel
    obtain ⟨record, hrecord, hdecoded⟩ := hplans samplePlan (pairRecords.text [1]) plan 1 rfl
      hplan (by simp [pairRecords]) rfl le_rfl
    exact ⟨record, plan, hrecord, hdecoded, hruntime⟩
  · obtain ⟨record, hrecord, -, hframe⟩ := hframes () [1] 0 rfl rfl
    exact ⟨record, hrecord, hframe.mpr (by decide +kernel)⟩

/-- A line of noise that fills the buffer ends the stream before the frame. -/
theorem long_line_ends_stream :
    Noise (.replicate 65536 120) ∧
    firstFrame pairRecords (.replicate 65536 120 ++ framed pairRecords sessionFramePrefix [1]) 1 =
      .error (some (planningError .errorSerialization "session.frame"
        "cannot read planner session frame")) := by
  have hlines : splitLines (.replicate 65536 120) = [.replicate 65536 120] := by
    rw [splitLines, List.splitOn, splitOnP_eq_singleton]
    intro byte hbyte
    rw [eq_of_mem_replicate hbyte]
    rfl
  constructor
  · intro line hline marker hmarker hpre
    have hhead : ∀ marker ∈ framePrefixes, 67 ∈ marker := by decide +kernel
    rw [hlines, mem_singleton] at hline
    subst hline
    exact absurd (eq_of_mem_replicate (hpre.subset (hhead marker hmarker))) (by decide)
  · have hsplit := splitLines_framed pairRecords (.replicate 65536 120) [1] []
      (show 10 ∉ sessionFramePrefix by decide +kernel)
    rw [append_nil] at hsplit
    rw [firstFrame, hsplit, hlines, singleton_append, nextFrame, if_pos]
    rw [length_replicate]
    decide

end Clabernetes.Planning
