import Mathlib.Algebra.Group.Int.Defs
import Clabernetes.Base.Interrupted
import Clabernetes.Base.JsonText
import Clabernetes.Planning.Frames

/-!
# Sensitive values and persisted artifacts

`controllers/node/planconfigmap.go`, `plannerinputconfigmap.go`, `workeroutput.go` and
`sensitivevalues.go`. Before a plan, a planning input or a worker record becomes a ConfigMap, its
bytes are searched for each sensitive value. The search sees the text, in which some characters are
escaped, so it finds a value in every string that has it only if the value occurs in its own
spelling.
-/

namespace Clabernetes.Artifacts

open Base Planning List Json

abbrev Bytes := List UInt8

def contains (text value : Bytes) : Bool := decide (value <:+: text)

def publicTextContains (publicText : List Bytes) (value : Bytes) : Bool :=
  publicText.any fun text => contains text value

def screenSensitiveValues (publicText : List Bytes) (sets : List (List Bytes)) : List Bytes :=
  sets.flatMap fun set =>
    set.filter fun value => !(value.isEmpty || publicTextContains publicText value)

variable {value : Bytes}

theorem mem_screenSensitiveValues {publicText : List Bytes} {sets : List (List Bytes)} :
    value ∈ screenSensitiveValues publicText sets ↔
      (∃ set ∈ sets, value ∈ set) ∧ value ≠ [] ∧ publicTextContains publicText value = false := by
  simp only [screenSensitiveValues, mem_flatMap, mem_filter, Bool.not_eq_true',
    Bool.or_eq_false_iff, isEmpty_eq_false_iff]
  constructor
  · rintro ⟨set, hsets, hset, hkept⟩
    exact ⟨⟨set, hsets, hset⟩, hkept⟩
  · rintro ⟨⟨set, hsets, hset⟩, hkept⟩
    exact ⟨set, hsets, hset, hkept⟩

/-- The guard of the three artifacts: a value that is not empty occurs in the text. -/
def leaks (values : List Bytes) (text : Bytes) : Bool :=
  values.any fun value => !value.isEmpty && contains text value

theorem leaks_of_occurs {values : List Bytes} {text : Bytes} (hmem : value ∈ values)
    (hne : value ≠ []) (h : value <:+: text) : leaks values text = true := by
  rw [leaks, any_eq_true]
  exact ⟨value, hmem, by simp [contains, h, hne]⟩

structure NodeIdentity where
  name : String
  namespaceName : String
  uid : String

def NodeIdentity.complete (node : NodeIdentity) : Bool :=
  node.name != "" && node.namespaceName != "" && node.uid != ""

structure ConfigMap where
  name : String
  owner : NodeIdentity
  component : String
  annotations : List (String × String)
  dataKey : String
  data : Bytes

def defaultMaxPlanBytes : ℤ := 768 * 2 ^ 10

def defaultMaxInputBytes : ℤ := 4 * 2 ^ 20

def kubernetesNameLimit : ℕ := 63

def ceiling (configured default : ℤ) : ℤ := if configured = 0 then default else configured

/-- `planconfigmap.go:268-276` and `plannerinputconfigmap.go:159-168`, for their separators. -/
def artifactConfigMapName (separator nodeName digest : String) : String :=
  let digestSuffix := (digest.toList.drop "sha256:".length).take 12
  let maxNodeLength := kubernetesNameLimit - separator.length - digestSuffix.length
  let kept :=
    if maxNodeLength < nodeName.length then
      ((nodeName.toList.take maxNodeLength).reverse.dropWhile (· = '-')).reverse
    else nodeName.toList
  String.ofList (kept ++ separator.toList ++ digestSuffix)

structure PlanArtifact where
  plan : Bytes
  normalizedInputs : Bytes
  sensitiveValues : List Bytes

structure PlanArtifactIdentity where
  name : String
  planDigest : String
  inputDigest : String

section Rendering

variable (digestArtifact : Bytes → String)

def errInvalidPlanArtifact (text : String) : String :=
  "invalid direct-runtime plan artifact: " ++ text

/-- A nil Node is `none`. -/
def validateAndIdentify (maxPlanBytes maxInputBytes : ℤ) (node : Option NodeIdentity)
    (artifact : PlanArtifact) : Except String PlanArtifactIdentity :=
  let maxPlan := ceiling maxPlanBytes defaultMaxPlanBytes
  let maxInput := ceiling maxInputBytes defaultMaxInputBytes
  match node with
  | none => .error (errInvalidPlanArtifact "Node identity is incomplete")
  | some node =>
    if node.complete = false then .error (errInvalidPlanArtifact "Node identity is incomplete")
    else if maxPlan < 0 ∨ maxInput < 0 then
      .error (errInvalidPlanArtifact "size ceilings must not be negative")
    else if artifact.plan = [] ∨ maxPlan < artifact.plan.length then
      .error (errInvalidPlanArtifact
        s!"plan size {artifact.plan.length} is outside 1..{maxPlan} bytes")
    else if artifact.normalizedInputs = [] ∨ maxInput < artifact.normalizedInputs.length then
      .error (errInvalidPlanArtifact
        s!"normalized input size {artifact.normalizedInputs.length} is outside 1..{maxInput} bytes")
    else if valid artifact.plan = false ∨ valid artifact.normalizedInputs = false then
      .error (errInvalidPlanArtifact "plan and normalized inputs must be valid JSON")
    else if artifact.sensitiveValues.any fun sensitive => !sensitive.isEmpty &&
        (contains artifact.plan sensitive || contains artifact.normalizedInputs sensitive) then
      .error (errInvalidPlanArtifact "plan input contains a sensitive value")
    else
      .ok
        { name := artifactConfigMapName "-plan-" node.name (digestArtifact artifact.plan)
          planDigest := digestArtifact artifact.plan
          inputDigest := digestArtifact artifact.normalizedInputs }

def renderPlan (maxPlanBytes maxInputBytes : ℤ) (node : Option NodeIdentity)
    (artifact : PlanArtifact) : Except String ConfigMap := do
  let identity ← validateAndIdentify digestArtifact maxPlanBytes maxInputBytes node artifact
  return {
    name := identity.name
    owner := node.getD ⟨"", "", ""⟩
    component := "node-plan"
    annotations := [("c9s.run/planDigest", identity.planDigest),
      ("c9s.run/planInputDigest", identity.inputDigest)]
    dataKey := "plan.json"
    data := artifact.plan }

def errInvalidPlannerInput (text : String) : String :=
  "invalid direct-runtime planner input: " ++ text

/-- `plannerinputconfigmap.go:49-115`. The canonical text of the input that the bytes decode to,
if they satisfy the schema, is `recode`. -/
def renderPlannerInput (recode : Bytes → Option Bytes) (maxInputBytes : ℤ)
    (node : Option NodeIdentity) (canonicalInput : Bytes) (sensitiveValues : List Bytes) :
    Except String ConfigMap :=
  let maxInput := ceiling maxInputBytes defaultMaxInputBytes
  match node with
  | none => .error (errInvalidPlannerInput "Node identity is incomplete")
  | some node =>
    if node.complete = false then .error (errInvalidPlannerInput "Node identity is incomplete")
    else if maxInput < 0 ∨ canonicalInput = [] ∨ maxInput < canonicalInput.length then
      .error (errInvalidPlannerInput
        s!"input size {canonicalInput.length} is outside 1..{maxInput} bytes")
    else if valid canonicalInput = false then
      .error (errInvalidPlannerInput "input must be valid JSON")
    else if leaks sensitiveValues canonicalInput then
      .error (errInvalidPlannerInput "input contains a sensitive value")
    else
      match recode canonicalInput with
      | none => .error (errInvalidPlannerInput "input does not satisfy the planner schema")
      | some canonical =>
        if canonical ≠ canonicalInput then
          .error (errInvalidPlannerInput "input is not canonical")
        else
          let digest := digestArtifact canonicalInput
          .ok
            { name := artifactConfigMapName "-plan-input-" node.name digest
              owner := node
              component := "node-plan-input"
              annotations := [("c9s.run/planInputDigest", digest)]
              dataKey := "input.json"
              data := canonicalInput }

end Rendering

def errWorkerOutputConflict (text : String) : String :=
  "immutable direct-runtime worker output conflicts with existing ConfigMap: " ++ text

def renderWorkerOutput (decodeString : Bytes → Option Bytes) (node : NodeIdentity)
    (name workerCommand : String) (frame : Bytes) (sensitiveValues : List Bytes) :
    Except String ConfigMap :=
  if frame = [] then .error (errWorkerOutputConflict "empty worker record")
  else
    match decodeWorkerFramePayload decodeString frame with
    | none => .error (errWorkerOutputConflict "record is not a framed worker output")
    | some payload =>
      if leaks sensitiveValues payload then
        .error (errWorkerOutputConflict "record contains a sensitive value")
      else
        .ok
          { name, owner := node, component := "planner-output"
            annotations := [("c9s.run/workerCommand", workerCommand)]
            dataKey := "output", data := frame }

variable {node : Option NodeIdentity}

variable {maxInputBytes : ℤ}

theorem renderPlan_error {digestArtifact : Bytes → String} {maxPlanBytes : ℤ}
    {artifact : PlanArtifact} (h : leaks artifact.sensitiveValues artifact.plan = true ∨
      leaks artifact.sensitiveValues artifact.normalizedInputs = true) :
    ∃ e, renderPlan digestArtifact maxPlanBytes maxInputBytes node artifact = .error e := by
  have hany : (artifact.sensitiveValues.any fun sensitive => !sensitive.isEmpty &&
      (contains artifact.plan sensitive || contains artifact.normalizedInputs sensitive)) =
        true := by
    simp only [leaks, any_eq_true, Bool.and_eq_true, Bool.or_eq_true] at h ⊢
    rcases h with ⟨value, hmem, hne, hin⟩ | ⟨value, hmem, hne, hin⟩
    · exact ⟨value, hmem, hne, .inl hin⟩
    · exact ⟨value, hmem, hne, .inr hin⟩
  have hvalidate : ∃ e,
      validateAndIdentify digestArtifact maxPlanBytes maxInputBytes node artifact = .error e := by
    unfold validateAndIdentify
    simp only [hany]
    split
    · exact ⟨_, rfl⟩
    · split_ifs
      all_goals exact ⟨_, rfl⟩
  obtain ⟨e, he⟩ := hvalidate
  exact ⟨e, by rw [renderPlan, he]; rfl⟩

variable {sensitiveValues : List Bytes}

theorem renderPlannerInput_error {digestArtifact : Bytes → String} {recode : Bytes → Option Bytes}
    {canonicalInput : Bytes} (h : leaks sensitiveValues canonicalInput = true) :
    ∃ e, renderPlannerInput digestArtifact recode maxInputBytes node canonicalInput
      sensitiveValues = .error e := by
  unfold renderPlannerInput
  simp only [h]
  split
  · exact ⟨_, rfl⟩
  · split_ifs
    all_goals exact ⟨_, rfl⟩

structure Refused (document : List Json.Token) (sensitiveValues : List Bytes) : Prop where
  plan : ∀ (digestArtifact : Bytes → String) (maxPlanBytes maxInputBytes : ℤ)
    (node : Option NodeIdentity) (inputs : Bytes), ∃ e,
      renderPlan digestArtifact maxPlanBytes maxInputBytes node
        ⟨text document, inputs, sensitiveValues⟩ = .error e
  inputs : ∀ (digestArtifact : Bytes → String) (maxPlanBytes maxInputBytes : ℤ)
    (node : Option NodeIdentity) (plan : Bytes), ∃ e,
      renderPlan digestArtifact maxPlanBytes maxInputBytes node
        ⟨plan, text document, sensitiveValues⟩ = .error e
  plannerInput : ∀ (digestArtifact : Bytes → String) (recode : Bytes → Option Bytes)
    (maxInputBytes : ℤ) (node : Option NodeIdentity), ∃ e,
      renderPlannerInput digestArtifact recode maxInputBytes node (text document)
        sensitiveValues = .error e
  workerOutput : ∀ (decodeString : Bytes → Option Bytes) (node : NodeIdentity)
    (name workerCommand : String) (frame : Bytes),
      decodeWorkerFramePayload decodeString frame = some (text document) → ∃ e,
        renderWorkerOutput decodeString node name workerCommand frame sensitiveValues = .error e

/-- The strings are spelled as `encoding/json` spells them. -/
def Canonical (document : List Json.Token) : Prop :=
  ∀ pieces, Json.Token.string pieces ∈ document → ∃ s, pieces = encodeString s

theorem refused_of_leaks {document : List Json.Token}
    (hleaks : leaks sensitiveValues (text document) = true) : Refused document sensitiveValues := by
  constructor
  · intro digestArtifact maxPlanBytes maxInputBytes node inputs
    exact renderPlan_error (.inl hleaks)
  · intro digestArtifact maxPlanBytes maxInputBytes node plan
    exact renderPlan_error (.inr hleaks)
  · intro digestArtifact recode maxInputBytes node
    exact renderPlannerInput_error hleaks
  · intro decodeString node name workerCommand frame hframe
    unfold renderWorkerOutput
    simp only [hframe, hleaks]
    split_ifs
    all_goals exact ⟨_, rfl⟩

theorem Refused.leaks {document : List Json.Token} (h : Refused document sensitiveValues)
    (hne : text document ≠ []) : leaks sensitiveValues (text document) = true := by
  have hencoded : (splitLines (workerOutputPrefix ++ [48])).foldl (fun encoded line =>
      framePrefixes.foldl (fun encoded marker => (cutPrefix line marker).getD encoded) encoded)
      [] = [48] := by decide +kernel
  have hframe : decodeWorkerFramePayload (fun _ => some (text document))
      (workerOutputPrefix ++ [48]) = some (text document) := by
    simp [decodeWorkerFramePayload, hencoded, hne, Option.filter]
  obtain ⟨e, he⟩ := h.workerOutput (fun _ => some (text document)) ⟨"", "", ""⟩ "" "" _ hframe
  by_contra hleaks
  simp [renderWorkerOutput, hframe, hleaks] at he

def environmentPlan (value : String) : List Json.Token :=
  let name (text : String) := Json.Token.string (encodeString text.toList)
  let mark (c : Char) := Json.Token.other [c]
  [mark '\x7b', name "containers", mark ':', mark '[', mark '\x7b', name "environment", mark ':',
    mark '[', mark '\x7b', name "name", mark ':', name "PASSWORD", mark ',', name "value", mark ':',
    name value, mark '\x7d', mark ']', mark '\x7d', mark ']', mark '\x7d']

end Clabernetes.Artifacts
