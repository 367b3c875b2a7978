import Clabernetes.Base.Paths
import Clabernetes.Base.Rekey
import Clabernetes.DevicePlan.Validate
import Clabernetes.Links.Api

/-!
# Containerlab links

`compiler/links.go` and the diagnostics of `compiler/compile.go`. The links are modelled from where
the YAML of a definition is a tree.
-/

namespace Clabernetes.Compiler

open Base DevicePlan Links Std List

structure Diagnostic where
  code : String
  path : String
  line : ℕ := 0
  message : String
  warning : Bool := false
  deriving DecidableEq

inductive CompileError where
  /-- What follows `errParse`. -/
  | parse (message : String)
  /-- `UnsupportedFeaturesError`. -/
  | unsupported (diagnostics : List Diagnostic)
  deriving DecidableEq

def diagnosticBefore (a b : Diagnostic) : Bool :=
  (compareLex (compareOn Diagnostic.path) (compareLex (compareOn Diagnostic.line)
    (compareLex (compareOn Diagnostic.code) (compareOn Diagnostic.message))) a b).isLE

def diagnosticsError (diagnostics : List Diagnostic) : Except CompileError Unit :=
  let errors := diagnostics.filter (!·.warning)
  if errors = [] then .ok () else .error (.unsupported (errors.mergeSort diagnosticBefore))

variable {diagnostics : List Diagnostic}

theorem diagnosticsError_eq_ok :
    diagnosticsError diagnostics = .ok () ↔ ∀ d ∈ diagnostics, d.warning = true := by
  have herrors : diagnostics.filter (!·.warning) = [] ↔ ∀ d ∈ diagnostics, d.warning = true := by
    simp [filter_eq_nil_iff]
  by_cases h : diagnostics.filter (!·.warning) = []
  · simp only [diagnosticsError, h, ↓reduceIte, true_iff]
    exact herrors.mp h
  · simp only [diagnosticsError, h, ↓reduceIte, reduceCtorEq, false_iff]
    exact fun hall => h (herrors.mpr hall)

/-- The value of a field: a string, or something else that the YAML library may or may not read
as one. -/
inductive EndpointField where
  | text (value : String)
  | other (readable : Bool)
  deriving DecidableEq

/-- An entry of a link's endpoints; the fields of a structured one are in the order written, with
no key twice. -/
inductive EndpointNode where
  | scalar (value : String)
  | mapping (fields : List (String × EndpointField))
  | other
  deriving DecidableEq

/-- `:17-29`; of labels and variables only whether there are any matters. -/
structure SourceLink where
  endpoints : List EndpointNode
  hasLabels : Bool := false
  hasVars : Bool := false
  mtu : Int := 0
  type : String := ""
  deriving DecidableEq

def trimSpace (text : String) : String :=
  String.ofList ((text.toList.dropWhile isSpace).reverse.dropWhile isSpace).reverse

def splitColon (text : String) : List String := (text.toList.splitOn ':').map String.ofList

def endpointParts (value : String) : Except CompileError (String × String) :=
  match splitColon (trimSpace value) with
  | [node, interface] =>
    if trimSpace node = "" ∨ trimSpace interface = "" then
      .error (.parse ("link endpoint " ++ quoted value ++
        " requires non-empty node and interface"))
    else .ok (trimSpace node, trimSpace interface)
  | _ => .error (.parse ("link endpoint " ++ quoted value ++ " must use node:interface syntax"))

def canonicalLinkEndpoint (value : String) : Except CompileError String :=
  (endpointParts value).map fun parts => parts.1 ++ ":" ++ parts.2

def isEndpointKey (key : String) : Bool := key = "node" ∨ key = "interface"

/-- `Decode` of a structured endpoint, whose own error text is left out; `:52-64`. Other
keys are ignored. -/
def decodeEndpoint (fields : List (String × EndpointField)) : Except CompileError Unit :=
  if fields.any fun field => isEndpointKey field.1 && field.2 == .other false then
    .error (.parse "decoding structured link endpoint")
  else .ok ()

def validateStructuredLinkEndpoint : List (String × EndpointField) → Except CompileError Unit
  | [] => .ok ()
  | (key, field) :: rest =>
    match isEndpointKey key, field with
    | true, .other _ =>
      .error (.parse ("structured link endpoint field " ++ quoted key ++ " must be a string"))
    | _, _ => validateStructuredLinkEndpoint rest

def fieldText (fields : List (String × EndpointField)) (key : String) : String :=
  match fields.lookup key with
  | some (.text value) => value
  | _ => ""

def endpointText : EndpointNode → Except CompileError String
  | .scalar value => .ok value
  | .mapping fields => do
    decodeEndpoint fields
    validateStructuredLinkEndpoint fields
    return fieldText fields "node" ++ ":" ++ fieldText fields "interface"
  | .other => .error (.parse "link endpoint must be a string or node/interface mapping")

def parseEndpoint (endpoint : EndpointNode) : Except CompileError String :=
  endpointText endpoint >>= canonicalLinkEndpoint

structure LinkDefinition where
  endpoints : List String
  hasLabels : Bool
  hasVars : Bool
  mtu : Int
  type : String
  deriving DecidableEq

def parseLink (link : SourceLink) : Except CompileError LinkDefinition := do
  let endpoints ← link.endpoints.mapM parseEndpoint
  return { link with endpoints }

structure Endpoint where
  nodeName : String
  interfaceName : String
  deriving DecidableEq

structure CompiledLink where
  endpointA : Endpoint
  endpointB : Endpoint
  mtu : Int
  deriving DecidableEq

def quotedList (texts : List String) : String :=
  "[" ++ " ".intercalate (texts.map quoted) ++ "]"

def unsupportedContainerlabLinkTypeDiagnostic (linkType linkPath : String) : Diagnostic where
  code := "unsupported-link-type"
  path := linkPath ++ ".type"
  message :=
    if linkType = "host" then
      "explicit native link type " ++ quoted linkType ++ " requires structured endpoints that " ++
        "the c9s topology compiler does not support; use brief endpoints"
    else "native link type " ++ quoted linkType ++ " has no c9s topology-link equivalent"

def endpointDiagnostics (nodes : String → Bool) (linkPath : String) (index : ℕ)
    (nodeName : String) : List Diagnostic :=
  let path := linkPath ++ ".endpoints[" ++ toString index ++ "]"
  if nodeName = linkHostNodeName then []
  else if nodeName = "mgmt-net" ∨ nodeName = "macvlan" then
    [{ code := "unsupported-special-endpoint", path
       message := "special endpoint " ++ quoted nodeName ++
        " requires host networking that c9s does not provide" }]
  else if nodes nodeName = false then
    [{ code := "unknown-link-endpoint", path
       message := "link endpoint references nonexistent node " ++ quoted nodeName }]
  else []

def endpointsDiagnostics (nodes : String → Bool) (linkPath nodeA nodeB : String) :
    List Diagnostic :=
  endpointDiagnostics nodes linkPath 0 nodeA ++ endpointDiagnostics nodes linkPath 1 nodeB ++
    if nodeA = linkHostNodeName ∧ nodeB = linkHostNodeName then
      [{ code := "invalid-host-link", path := linkPath ++ ".endpoints"
         message := "a c9s host link must have exactly one Node endpoint" }]
    else []

def linkFieldDiagnostics (linkPath : String) (link : LinkDefinition) : List Diagnostic :=
  (if link.hasLabels then
    [{ code := "unsupported-link-labels", path := linkPath ++ ".labels"
       message := "link labels are not preserved by the c9s Link API" }] else []) ++
  if link.hasVars then
    [{ code := "unsupported-link-vars", path := linkPath ++ ".vars"
       message := "link vars are not preserved by the c9s Link API" }] else []

def compileLink (nodes : String → Bool) (index : ℕ) (link : LinkDefinition) :
    Except CompileError (List CompiledLink × List Diagnostic) :=
  let linkPath := "topology.links[" ++ toString index ++ "]"
  let diagnostics := linkFieldDiagnostics linkPath link
  if link.type ∉ ["", "brief", "veth"] then
    .ok ([], diagnostics ++ [unsupportedContainerlabLinkTypeDiagnostic link.type linkPath])
  else
    match link.endpoints with
    | [textA, textB] =>
      match splitColon textA, splitColon textB with
      | [nodeA, interfaceA], [nodeB, interfaceB] =>
        let found := endpointsDiagnostics nodes linkPath nodeA nodeB
        .ok (if found = [] then [⟨⟨nodeA, interfaceA⟩, ⟨nodeB, interfaceB⟩, link.mtu⟩] else [],
          diagnostics ++ found)
      | _, _ => .error (.parse ("endpoint '" ++ quotedList link.endpoints ++
          "' has wrong syntax, bad node:interface config"))
    | _ => .error (.parse ("endpoint '" ++ quotedList link.endpoints ++
        "' has wrong syntax, unexpected number of items"))

def compileContainerlabLinks (nodes : String → Bool) : ℕ → List LinkDefinition →
    Except CompileError (List CompiledLink × List Diagnostic)
  | _, [] => .ok ([], [])
  | index, link :: rest => do
    let first ← compileLink nodes index link
    let others ← compileContainerlabLinks nodes (index + 1) rest
    return (first.1 ++ others.1, first.2 ++ others.2)

variable {nodes : String → Bool} {linkPath text : String} {index : ℕ}

theorem colon_notMem_of_mem_splitColon {part : String} (h : part ∈ splitColon text) :
    ':' ∉ part.toList := by
  simp only [splitColon, mem_map] at h
  obtain ⟨part, hpart, rfl⟩ := h
  intro hcolon
  have hother := not_separator_of_mem_splitOnP hpart ':' (by simpa using hcolon)
  simp at hother

theorem colon_notMem_trimSpace (h : ':' ∉ text.toList) : ':' ∉ (trimSpace text).toList := by
  simp only [trimSpace, String.toList_ofList, mem_reverse]
  intro hcolon
  have hreversed := (dropWhile_sublist _).mem hcolon
  exact h ((dropWhile_sublist _).mem (mem_reverse.mp hreversed))

theorem splitColon_append {node interface : String} (hnode : ':' ∉ node.toList)
    (hinterface : ':' ∉ interface.toList) :
    splitColon (node ++ ":" ++ interface) = [node, interface] := by
  have hparts : (node.toList ++ ':' :: interface.toList).splitOn ':' =
      [node.toList, interface.toList] := by
    rw [List.splitOn, splitOnP_append_cons _ _ (by simp),
      splitOnP_eq_singleton, splitOnP_eq_singleton]
    · rfl
    · intro x hx
      simpa using fun heq : x = ':' => hinterface (heq ▸ hx)
    · intro x hx
      simpa using fun heq : x = ':' => hnode (heq ▸ hx)
  simp [splitColon, hparts]

def readEndpoint (endpoint : EndpointNode) : Except CompileError (String × String) :=
  endpointText endpoint >>= endpointParts

theorem colon_notMem_of_endpointParts {value : String} {parts : String × String}
    (h : endpointParts value = .ok parts) : ':' ∉ parts.1.toList ∧ ':' ∉ parts.2.toList := by
  unfold endpointParts at h
  split at h
  · rename_i node interface hsplit
    split at h
    · cases h
    · cases h
      have hpart : ∀ part ∈ [node, interface], ':' ∉ part.toList := by
        rw [← hsplit]
        exact fun part hpart => colon_notMem_of_mem_splitColon hpart
      exact ⟨colon_notMem_trimSpace (hpart node (by simp)),
        colon_notMem_trimSpace (hpart interface (by simp))⟩
  · cases h

theorem splitColon_of_parseEndpoint {endpoint : EndpointNode}
    (h : parseEndpoint endpoint = .ok text) :
    ∃ parts, readEndpoint endpoint = .ok parts ∧ splitColon text = [parts.1, parts.2] := by
  obtain ⟨value, hvalue, hcanonical⟩ := bind_eq_ok_iff.mp h
  unfold canonicalLinkEndpoint at hcanonical
  cases hparts : endpointParts value with
  | error err => rw [hparts] at hcanonical; cases hcanonical
  | ok parts =>
    rw [hparts] at hcanonical
    cases hcanonical
    have hcolon := colon_notMem_of_endpointParts hparts
    exact ⟨parts, bind_eq_ok_iff.mpr ⟨value, hvalue, hparts⟩, splitColon_append hcolon.1 hcolon.2⟩

/-- A compiled link joins the two endpoints that the link of the definition names, each on the
host or on a node. -/
structure Joins (nodes : String → Bool) (source : SourceLink) (link : CompiledLink) : Prop where
  endpoints : ∃ a b, source.endpoints = [a, b] ∧
    readEndpoint a = .ok (link.endpointA.nodeName, link.endpointA.interfaceName) ∧
    readEndpoint b = .ok (link.endpointB.nodeName, link.endpointB.interfaceName)
  mtu : link.mtu = source.mtu
  knownA : link.endpointA.nodeName = linkHostNodeName ∨ nodes link.endpointA.nodeName = true
  knownB : link.endpointB.nodeName = linkHostNodeName ∨ nodes link.endpointB.nodeName = true

theorem known_of_endpointDiagnostics {nodeName : String}
    (h : endpointDiagnostics nodes linkPath index nodeName = []) :
    nodeName = linkHostNodeName ∨ nodes nodeName = true := by
  by_cases hhost : nodeName = linkHostNodeName
  · exact .inl hhost
  · right
    by_contra hmissing
    simp only [endpointDiagnostics, hhost, Bool.not_eq_true _ ▸ hmissing, ↓reduceIte] at h
    split at h <;> cases h

variable {link : LinkDefinition} {out : List CompiledLink}

theorem compileLink_eq_ok (h : compileLink nodes index link = .ok (out, diagnostics)) :
    ∃ linkPath, (∃ d, d.warning = false ∧ out = [] ∧
        diagnostics = linkFieldDiagnostics linkPath link ++ [d]) ∨
      ∃ textA textB nodeA interfaceA nodeB interfaceB, link.endpoints = [textA, textB] ∧
        splitColon textA = [nodeA, interfaceA] ∧ splitColon textB = [nodeB, interfaceB] ∧
        out = (if endpointsDiagnostics nodes linkPath nodeA nodeB = [] then
          [⟨⟨nodeA, interfaceA⟩, ⟨nodeB, interfaceB⟩, link.mtu⟩] else []) ∧
        diagnostics = linkFieldDiagnostics linkPath link ++
          endpointsDiagnostics nodes linkPath nodeA nodeB := by
  unfold compileLink at h
  refine ⟨"topology.links[" ++ toString index ++ "]", ?_⟩
  by_cases htype : link.type ∈ ["", "brief", "veth"]
  · right
    rw [if_neg (not_not_intro htype)] at h
    split at h
    · rename_i textA textB htexts
      split at h
      · rename_i nodeA interfaceA nodeB interfaceB hA hB
        cases h
        exact ⟨textA, textB, nodeA, interfaceA, nodeB, interfaceB, htexts, hA, hB, rfl, rfl⟩
      · cases h
    · cases h
  · left
    rw [if_pos htype] at h
    cases h
    exact ⟨_, rfl, rfl, rfl⟩

theorem warning_of_mem_endpointDiagnostics {nodeName : String} {d : Diagnostic}
    (hd : d ∈ endpointDiagnostics nodes linkPath index nodeName) : d.warning = false := by
  unfold endpointDiagnostics at hd
  split_ifs at hd <;> simp_all

theorem warning_of_mem_linkFieldDiagnostics {d : Diagnostic}
    (hd : d ∈ linkFieldDiagnostics linkPath link) : d.warning = false := by
  unfold linkFieldDiagnostics at hd
  split_ifs at hd <;> simp_all
  rcases hd with rfl | rfl <;> rfl

theorem warning_of_compileLink (h : compileLink nodes index link = .ok (out, diagnostics)) :
    ∀ d ∈ diagnostics, d.warning = false := by
  intro d hd
  obtain ⟨linkPath, ⟨last, hlast, -, rfl⟩ | ⟨-, -, nodeA, -, nodeB, -, -, -, -, -, rfl⟩⟩ :=
    compileLink_eq_ok h
  · rcases mem_append.mp hd with hd | hd
    · exact warning_of_mem_linkFieldDiagnostics hd
    · rwa [mem_singleton.mp hd]
  · rcases mem_append.mp hd with hd | hd
    · exact warning_of_mem_linkFieldDiagnostics hd
    · simp only [endpointsDiagnostics, mem_append] at hd
      rcases hd with (hd | hd) | hd
      · exact warning_of_mem_endpointDiagnostics hd
      · exact warning_of_mem_endpointDiagnostics hd
      · split_ifs at hd <;> simp_all

theorem warning_of_compileContainerlabLinks {links : List LinkDefinition} :
    ∀ {index : ℕ} {out : List CompiledLink} {diagnostics : List Diagnostic},
    compileContainerlabLinks nodes index links = .ok (out, diagnostics) →
    ∀ d ∈ diagnostics, d.warning = false := by
  induction links with
  | nil =>
    intro index out diagnostics h
    cases h
    simp
  | cons link links ih =>
    intro index out diagnostics h d hd
    obtain ⟨first, hfirst, hrest⟩ := bind_eq_ok_iff.mp h
    obtain ⟨others, hothers, hout⟩ := bind_eq_ok_iff.mp hrest
    cases hout
    rcases mem_append.mp hd with hd | hd
    · exact warning_of_compileLink hfirst d hd
    · exact ih hothers d hd

theorem joins_of_compileLink {source : SourceLink} (hparse : parseLink source = .ok link)
    (h : compileLink nodes index link = .ok (out, [])) :
    ∃ compiled, out = [compiled] ∧ Joins nodes source compiled := by
  obtain ⟨texts, htexts, hlink⟩ := bind_eq_ok_iff.mp hparse
  cases hlink
  obtain ⟨linkPath, ⟨d, -, -, hd⟩ | ⟨textA, textB, nodeA, interfaceA, nodeB, interfaceB,
    rfl, hA, hB, hout, hdiagnostics⟩⟩ := compileLink_eq_ok h
  · simp at hd
  · rw [eq_comm, append_eq_nil_iff] at hdiagnostics
    have hfound := hdiagnostics.2
    rw [if_pos hfound] at hout
    refine ⟨_, hout, ?_⟩
    obtain ⟨a, afterA, ha, hafterA, hsource⟩ :=
      forall₂_cons_right_iff.mp (mapM_eq_ok_iff.mp htexts)
    obtain ⟨b, afterB, hb, hafterB, rfl⟩ := forall₂_cons_right_iff.mp hafterA
    rw [forall₂_nil_right_iff] at hafterB
    subst hafterB
    obtain ⟨partsA, hreadA, hsplitA⟩ := splitColon_of_parseEndpoint ha
    obtain ⟨partsB, hreadB, hsplitB⟩ := splitColon_of_parseEndpoint hb
    rw [hA] at hsplitA
    rw [hB] at hsplitB
    cases hsplitA
    cases hsplitB
    simp only [endpointsDiagnostics, append_eq_nil_iff] at hfound
    exact
      { endpoints := ⟨a, b, hsource, hreadA, hreadB⟩
        mtu := rfl
        knownA := known_of_endpointDiagnostics hfound.1.1
        knownB := known_of_endpointDiagnostics hfound.1.2 }

theorem joins_of_compileContainerlabLinks {sources : List SourceLink} :
    ∀ {index : ℕ} {links : List LinkDefinition} {out : List CompiledLink},
    sources.mapM parseLink = .ok links →
    compileContainerlabLinks nodes index links = .ok (out, []) →
    List.Forall₂ (Joins nodes) sources out := by
  induction sources with
  | nil =>
    intro index links out hparse h
    cases hparse
    cases h
    exact .nil
  | cons source sources ih =>
    intro index links out hparse h
    obtain ⟨link, links, hlink, hlinks, rfl⟩ :=
      forall₂_cons_left_iff.mp (mapM_eq_ok_iff.mp hparse)
    obtain ⟨first, hfirst, hrest⟩ := bind_eq_ok_iff.mp h
    obtain ⟨others, hothers, hout⟩ := bind_eq_ok_iff.mp hrest
    obtain ⟨firstOut, firstFound⟩ := first
    obtain ⟨othersOut, othersFound⟩ := others
    simp only [pure, Except.pure, Except.ok.injEq, Prod.mk.injEq, append_eq_nil_iff] at hout
    obtain ⟨rfl, rfl, rfl⟩ := hout
    obtain ⟨compiled, rfl, hjoins⟩ := joins_of_compileLink hlink hfirst
    exact .cons hjoins (ih (mapM_eq_ok_iff.mpr hlinks) hothers)

end Clabernetes.Compiler
