import Clabernetes.Base.Prefix
import Clabernetes.Compiler.Links

/-!
# Port definitions

`compiler/ports.go`, its copy in `util/containerlab/ports.go` and the expose-ports label of
`compiler/compilecontainerlab.go`.
-/

namespace Clabernetes.Compiler

open Base DevicePlan Links Std List Nat Char

inductive Protocol where
  | tcp
  | udp
  deriving DecidableEq

def Protocol.text : Protocol → String
  | .tcp => "TCP"
  | .udp => "UDP"

def maxPort : ℕ := 65535

structure TypedPort where
  protocol : Protocol
  destinationPort : ℕ
  one_le : 1 ≤ destinationPort
  le_maxPort : destinationPort ≤ maxPort
  deriving DecidableEq

def digitsValue (digits : List Char) : Option ℕ :=
  if digits ≠ [] ∧ digits.all isDigit then some (ofDigitChars 10 digits 0) else none

/-- `strconv.Atoi`; what does not fit a machine word is no port either. -/
def atoi (text : String) : Option ℤ :=
  match text.toList with
  | '-' :: digits => (digitsValue digits).map fun n => -(n : ℤ)
  | '+' :: digits => (digitsValue digits).map Int.ofNat
  | digits => (digitsValue digits).map Int.ofNat

/-- The protocol after the slash. Only ASCII letters have an upper case in `TCP` or `UDP`. -/
def declaredProtocol : Option String → Option Protocol
  | none => some .tcp
  | some part => [Protocol.tcp, .udp].find? fun protocol =>
      part.toList.map toUpper = protocol.text.toList

def portInRange (protocol : Protocol) : Option ℤ → Option TypedPort
  | some (.ofNat port) =>
    if h : 1 ≤ port ∧ port ≤ maxPort then some ⟨protocol, port, h.1, h.2⟩ else none
  | _ => none

def portError (errParse text reason : String) : String :=
  errParse ++ ": port definition " ++ quoted text ++ reason

def protocolReason (part : String) : String :=
  " declares unsupported protocol " ++ quoted part ++ ", expected tcp or udp"

def bindingReason : String :=
  " looks like a docker style host:container binding -- declare only the destination port (the " ++
    "port the node listens on), clabernetes allocates the pod side port itself"

def rangeReason : String :=
  " is invalid, expected a destination port between 1 and " ++ toString maxPort ++
    " with an optional protocol, i.e. \"22\" or \"5201/udp\""

/-- The compiler's parser; `compiler/ports.go:38-86`. -/
def processPortDefinition (definition : String) : Except String TypedPort :=
  let text := trimSpace definition
  match declaredProtocol (cutSlash text).2 with
  | none => .error (portError "parse error" text (protocolReason ((cutSlash text).2.getD "")))
  | some protocol =>
    if ':' ∈ (cutSlash text).1.toList then .error (portError "parse error" text bindingReason)
    else match portInRange protocol (atoi (cutSlash text).1) with
      | some port => .ok port
      | none => .error (portError "parse error" text rangeReason)

/-- The controllers' parser; `util/containerlab/ports.go:44-92`. -/
def Containerlab.processPortDefinition (definition : String) : Except String TypedPort :=
  let text := trimSpace definition
  match declaredProtocol (cutSlash text).2 with
  | none => .error (portError "errParse" text (protocolReason ((cutSlash text).2.getD "")))
  | some protocol =>
    if ':' ∈ (cutSlash text).1.toList then .error (portError "errParse" text bindingReason)
    else match portInRange protocol (atoi (cutSlash text).1) with
      | some port => .ok port
      | none => .error (portError "errParse" text rangeReason)

def canonicalPortDefinition (port : TypedPort) : String :=
  Nat.repr port.destinationPort ++ "/" ++
    String.ofList (port.protocol.text.toList.map toLower)

def portOf (text : String) : Option TypedPort :=
  (declaredProtocol (cutSlash text).2).bind fun protocol =>
    if ':' ∈ (cutSlash text).1.toList then none else portInRange protocol (atoi (cutSlash text).1)

theorem toOption_processPortDefinition (definition : String) :
    (processPortDefinition definition).toOption = portOf (trimSpace definition) ∧
      (Containerlab.processPortDefinition definition).toOption = portOf (trimSpace definition) := by
  simp only [processPortDefinition, Containerlab.processPortDefinition, portOf]
  cases declaredProtocol (cutSlash (trimSpace definition)).2 with
  | none => exact ⟨rfl, rfl⟩
  | some protocol =>
    by_cases hcolon : ':' ∈ (cutSlash (trimSpace definition)).1.toList
    · simp [hcolon, Except.toOption]
    · simp only [hcolon, ↓reduceIte, Option.bind_some]
      cases portInRange protocol (atoi (cutSlash (trimSpace definition)).1) <;> exact ⟨rfl, rfl⟩

variable {port : TypedPort} {digits : List Char}

theorem isSpace_of_isDigit {c : Char} (h : c.isDigit = true) : isSpace c = false := by
  have hrange : 48 ≤ c.toNat ∧ c.toNat ≤ 57 := by
    simpa [isDigit, UInt32.le_iff_toNat_le] using h
  simp only [isSpace, mem_cons, not_mem_nil, or_false, Bool.or_eq_false_iff,
    decide_eq_false_iff_not, Bool.and_eq_false_iff]
  omega

theorem trimSpace_of_forall {text : String} (h : ∀ c ∈ text.toList, isSpace c = false) :
    trimSpace text = text := by
  have hkeep : ∀ l : List Char, (∀ c ∈ l, isSpace c = false) → l.dropWhile isSpace = l := by
    intro l hl
    cases l with
    | nil => rfl
    | cons c l => rw [dropWhile_cons_of_neg (by simp [hl c])]
  rw [trimSpace, hkeep _ h, hkeep _ (fun c hc => h c (mem_reverse.mp hc)),
    reverse_reverse, String.ofList_toList]

theorem atoi_digits (hne : digits ≠ []) (h : ∀ c ∈ digits, c.isDigit = true) :
    atoi (String.ofList digits) = some (Int.ofNat (ofDigitChars 10 digits 0)) := by
  have hvalue : digitsValue digits = some (ofDigitChars 10 digits 0) := by
    rw [digitsValue, if_pos ⟨hne, all_eq_true.mpr h⟩]
  rw [atoi, String.toList_ofList]
  split
  · exact absurd (h '-' (by simp)) (by decide)
  · exact absurd (h '+' (by simp)) (by decide)
  · rw [hvalue, Option.map_some]

theorem isDigit_repr {n : ℕ} {c : Char} (h : c ∈ (Nat.repr n).toList) : c.isDigit = true := by
  rw [Nat.repr, String.toList_ofList] at h
  exact Nat.isDigit_of_mem_toDigits (by decide) (by decide) h

theorem trimSpace_canonical (port : TypedPort) :
    trimSpace (canonicalPortDefinition port) = canonicalPortDefinition port := by
  apply trimSpace_of_forall
  intro c hc
  simp only [canonicalPortDefinition, String.toList_append, mem_append] at hc
  rcases hc with (hdigit | hslash) | hletter
  · exact isSpace_of_isDigit (isDigit_repr hdigit)
  · rw [mem_singleton.mp hslash]
    decide
  · have hall : ((port.protocol.text.toList.map toLower).all fun c => !isSpace c) = true := by
      cases port.protocol <;> decide
    rw [String.toList_ofList] at hletter
    simpa using all_eq_true.mp hall c hletter

theorem portOf_canonical (port : TypedPort) :
    portOf (canonicalPortDefinition port) = some port := by
  have hnot : ∀ c : Char, c.isDigit = false → c ∉ (Nat.repr port.destinationPort).toList :=
    fun c hc hmem => absurd (isDigit_repr hmem) (by simp [hc])
  have hnumber : atoi (Nat.repr port.destinationPort) = some (Int.ofNat port.destinationPort) := by
    rw [Nat.repr, atoi_digits Nat.toDigits_ne_nil
      fun c hc => isDigit_of_mem_toDigits (by decide) (by decide) hc,
      ofDigitChars_ten_toDigits]
  have hprotocol : declaredProtocol
      (some (String.ofList (port.protocol.text.toList.map toLower))) = some port.protocol := by
    cases port.protocol <;> decide
  rw [portOf, canonicalPortDefinition, AddrText.cutSlash_append (hnot '/' rfl), hprotocol,
    Option.bind_some, if_neg (hnot ':' rfl), hnumber, portInRange,
    dif_pos ⟨port.one_le, port.le_maxPort⟩]

theorem toOption_canonical (port : TypedPort) :
    (processPortDefinition (canonicalPortDefinition port)).toOption = some port := by
  rw [(toOption_processPortDefinition _).1, trimSpace_canonical, portOf_canonical]

theorem canonicalPortDefinition_injective : Function.Injective canonicalPortDefinition := by
  intro a b h
  rw [← Option.some_inj, ← portOf_canonical a, h, portOf_canonical]

structure PortIntent where
  ports : List String
  labels : GoMap String String

def labelExposePorts : String := "c9s.run/exposePorts"

def declaredPorts (definitions : List String) : List TypedPort :=
  definitions.filterMap fun definition => (processPortDefinition definition).toOption

def labelEntries (value : String) : List String :=
  (value.toList.splitOn ',').map fun entry => trimSpace (String.ofList entry)

structure Exposing where
  seen : List String
  ports : List String
  diagnostics : List Diagnostic := []

def exposeEntry (nodeName : String) (s : Exposing) (entry : String × ℕ) : Exposing :=
  match processPortDefinition entry.1 with
  | .error err => { s with diagnostics := s.diagnostics ++ [{
      code := "invalid-expose-ports-label"
      path := indexed ("topology.nodes." ++ nodeName ++ ".labels." ++ labelExposePorts) entry.2
      message := "node " ++ quoted nodeName ++ " expose ports label entry " ++ quoted entry.1 ++
        " is invalid: " ++ err }] }
  | .ok port =>
    let canonical := canonicalPortDefinition port
    if canonical ∈ s.seen then s
    else { s with seen := canonical :: s.seen, ports := s.ports ++ [canonical] }

def consumeExposePortsLabel (nodeName : String) (node : PortIntent) :
    PortIntent × List Diagnostic :=
  match node.labels[labelExposePorts]? with
  | none => (node, [])
  | some value =>
    let s := (labelEntries value).zipIdx.foldl (exposeEntry nodeName)
      { seen := (declaredPorts node.ports).map canonicalPortDefinition, ports := node.ports }
    ({ ports := s.ports, labels := node.labels.erase labelExposePorts }, s.diagnostics)

theorem declaredPorts_append (a b : List String) :
    declaredPorts (a ++ b) = declaredPorts a ++ declaredPorts b := filterMap_append

theorem declaredPorts_map_canonical (new : List TypedPort) :
    declaredPorts (new.map canonicalPortDefinition) = new := by
  simp [declaredPorts, filterMap_map, toOption_canonical]

/-- After some entries: the normal forms seen are those of the ports declared, which are the
existing ones and the valid entries; the definitions added declare new ports, each one once. -/
structure Exposed (ports entries : List String) (s : Exposing) : Prop where
  seen : ∀ port, canonicalPortDefinition port ∈ s.seen ↔ port ∈ declaredPorts s.ports
  union : ∀ port, port ∈ declaredPorts s.ports ↔
    port ∈ declaredPorts ports ∨ port ∈ declaredPorts entries
  added : ∃ new : List TypedPort, s.ports = ports ++ new.map canonicalPortDefinition ∧ new.Nodup ∧
    ∀ port ∈ new, port ∉ declaredPorts ports

variable {ports entries : List String} {s : Exposing} {nodeName entry : String} {index : ℕ}

theorem Exposed.start (ports : List String) :
    Exposed ports [] { seen := (declaredPorts ports).map canonicalPortDefinition, ports } where
  seen port := mem_map_of_injective canonicalPortDefinition_injective
  union port := by simp [declaredPorts]
  added := ⟨[], by simp⟩

theorem Exposed.step (h : Exposed ports entries s) :
    Exposed ports (entries ++ [entry]) (exposeEntry nodeName s (entry, index)) := by
  rw [exposeEntry]
  cases hparse : processPortDefinition entry with
  | error err =>
    have hnone : declaredPorts [entry] = [] := by simp [declaredPorts, hparse, Except.toOption]
    exact ⟨h.seen, fun port => by rw [h.union, declaredPorts_append, hnone, append_nil],
      h.added⟩
  | ok port =>
    have hone : declaredPorts [entry] = [port] := by simp [declaredPorts, hparse, Except.toOption]
    by_cases hseen : canonicalPortDefinition port ∈ s.seen
    · simp only [hseen, ↓reduceIte]
      refine ⟨h.seen, fun other => ?_, h.added⟩
      rw [declaredPorts_append, hone, mem_append, mem_singleton, ← or_assoc, ← h.union]
      refine (or_iff_left_of_imp ?_).symm
      rintro rfl
      exact (h.seen other).mp hseen
    · simp only [hseen, ↓reduceIte]
      obtain ⟨new, hports, hnodup, hfresh⟩ := h.added
      have hfree : port ∉ declaredPorts s.ports := fun hmem => hseen ((h.seen port).mpr hmem)
      have hone' : declaredPorts [canonicalPortDefinition port] = [port] :=
        declaredPorts_map_canonical [port]
      refine ⟨fun other => ?_, fun other => ?_, new ++ [port], ?_, ?_, ?_⟩
      · simp only [mem_cons, canonicalPortDefinition_injective.eq_iff, h.seen,
          declaredPorts_append, hone', mem_append, not_mem_nil, or_false]
        exact or_comm
      · simp only [declaredPorts_append, hone', hone, mem_append, h.union, or_assoc]
      · rw [hports, map_append, append_assoc, map_singleton]
      · rw [hports, declaredPorts_append, declaredPorts_map_canonical, mem_append, not_or] at hfree
        exact nodup_append.mpr ⟨hnodup, nodup_singleton port, by
          rintro a ha b hb rfl
          exact hfree.2 (mem_singleton.mp hb ▸ ha)⟩
      · intro other hother
        rcases mem_append.mp hother with hold | hlast
        · exact hfresh other hold
        · rw [mem_singleton.mp hlast]
          exact fun hmem => hfree ((h.union port).mpr (.inl hmem))

theorem Exposed.run (h : Exposed ports entries s) (nodeName : String) (rest : List String)
    (first : ℕ) :
    Exposed ports (entries ++ rest) ((rest.zipIdx first).foldl (exposeEntry nodeName) s) := by
  induction rest generalizing entries s first with
  | nil => simpa using h
  | cons head rest ih =>
    rw [zipIdx_cons, foldl_cons, append_cons]
    exact ih h.step (first + 1)

/-- Both parsers read a definition alike and read back the normal form of every port, and the label
adds the ports of its valid entries that the node does not declare, each one once. -/
theorem port_definitions_normal : (∀ definition, (processPortDefinition definition).toOption =
      (Containerlab.processPortDefinition definition).toOption) ∧
    (∀ port, processPortDefinition (canonicalPortDefinition port) = .ok port) ∧
    ∀ nodeName node value, node.labels[labelExposePorts]? = some value → ∃ new : List TypedPort,
        (consumeExposePortsLabel nodeName node).1.ports =
          node.ports ++ new.map canonicalPortDefinition ∧
        new.Nodup ∧ (∀ port ∈ new, port ∉ declaredPorts node.ports) ∧
        ∀ port, port ∈ declaredPorts (consumeExposePortsLabel nodeName node).1.ports ↔
          port ∈ declaredPorts node.ports ∨ port ∈ declaredPorts (labelEntries value) := by
  refine ⟨fun definition => ?_, fun port => ?_, fun nodeName node value hvalue => ?_⟩
  · rw [(toOption_processPortDefinition _).1, (toOption_processPortDefinition _).2]
  · have hread := toOption_canonical port
    cases hparse : processPortDefinition (canonicalPortDefinition port) with
    | error err => simp [hparse, Except.toOption] at hread
    | ok other =>
      rw [hparse, Except.toOption, Option.some_inj] at hread
      rw [hread]
  · simp only [consumeExposePortsLabel, hvalue]
    have h := (Exposed.start node.ports).run nodeName (labelEntries value) 0
    obtain ⟨new, hports, hnodup, hfresh⟩ := h.added
    exact ⟨new, hports, hnodup, hfresh, h.union⟩

/-- The label of a node with the ports `22` and, spelled with a sign, `80`. -/
def labelledNode : PortIntent where
  ports := ["22", "+080/Tcp", "x"]
  labels := (∅ : GoMap String String).insert labelExposePorts " 80,22/udp, 22/UDP,0"

theorem labelledNode_normal :
    (consumeExposePortsLabel "r1" labelledNode).1.ports = ["22", "+080/Tcp", "x", "22/udp"] ∧
      (declaredPorts (consumeExposePortsLabel "r1" labelledNode).1.ports).map
        canonicalPortDefinition = ["22/tcp", "80/tcp", "22/udp"] ∧
      ∀ port, port ∈ declaredPorts (consumeExposePortsLabel "r1" labelledNode).1.ports ↔
        port ∈ declaredPorts labelledNode.ports ∨
          port ∈ declaredPorts (labelEntries " 80,22/udp, 22/UDP,0") := by
  have hvalue : labelledNode.labels[labelExposePorts]? = some " 80,22/udp, 22/UDP,0" := by
    simp [labelledNode]
  obtain ⟨new, -, -, -, hunion⟩ := port_definitions_normal.2.2 "r1" labelledNode _ hvalue
  exact ⟨by decide +kernel, by decide +kernel, hunion⟩

end Clabernetes.Compiler
