import Clabernetes.Compiler.Links

/-!
# Compiled definitions

`compiler/names.go` and the passes of `compiler/compilecontainerlab.go` that read node names. A
definition is modelled from where its Nodes are flattened; what the passes that are left out report
comes with it. The order in which a loop visits a map is a rank on its keys.
-/

namespace Clabernetes.Compiler

open Base Links Std List Option ExtTreeMap GoMap

/-- The fields of a flattened node that the modelled passes read, and the rest of them. -/
structure NodeDefinition (φ : Type) where
  networkMode : String := ""
  labels : GoMap String String := ∅
  group : String := ""
  rest : φ

structure AppProtocol where
  port : String
  appProtocol : String
  deriving DecidableEq

structure FlattenedNode (φ : Type) where
  definition : NodeDefinition φ
  appProtocols : List AppProtocol := []

structure SourceDefinition (φ : Type) where
  nodes : GoMap String (FlattenedNode φ)
  links : List SourceLink
  diagnostics : List Diagnostic := []

structure CompiledDefinition (φ : Type) where
  nodes : GoMap String (NodeDefinition φ)
  appProtocols : GoMap String (List AppProtocol)
  links : List CompiledLink := []
  nodeNameSources : GoMap String String := ∅

variable {φ : Type} {name : String}

def CompiledDefinition.sourceNodeName (compiled : CompiledDefinition φ) (nodeName : String) :
    String :=
  compiled.nodeNameSources[nodeName]?.getD nodeName

/-- What the compiler uses of other packages: containerlab's names and Kubernetes' label values. -/
structure NameLibrary where
  sanitizeName : String → String
  /-- The new name of every given name that needs one. -/
  sanitizeNodeNames : List String → Except String (GoMap String String)
  validLabelValue : String → Bool

def networkModeContainerPrefix : String := "container:"

def parseNetworkModeContainer (networkMode : String) : String :=
  if networkModeContainerPrefix.toList <+: networkMode.toList then
    String.ofList (networkMode.toList.drop networkModeContainerPrefix.toList.length)
  else ""

/-- The loop of `compilecontainerlab.go:1273-1297`: whether following the network modes from
`current` meets a node again. -/
def meetsCycle (nodes : GoMap String (NodeDefinition φ)) : ℕ → List String → String → Bool
  | 0, _, _ => false
  | fuel + 1, seen, current =>
    if current = "" then false
    else if current ∈ seen then true
    else
      match nodes[current]? with
      | none => false
      | some next =>
        meetsCycle nodes fuel (current :: seen) (parseNetworkModeContainer next.networkMode)

variable (library : NameLibrary)

def networkModeDiagnostics (nodes : GoMap String (NodeDefinition φ))
    (nodeName : String) (networkMode : String) : List Diagnostic :=
  let primary := parseNetworkModeContainer networkMode
  let path := "topology.nodes." ++ nodeName ++ ".network-mode"
  if networkMode = "" then []
  else if primary = "" ∨ library.sanitizeName primary = "" then
    [{ code := "unsupported-network-mode", path
       message := "node " ++ quoted nodeName ++ " network-mode " ++ quoted networkMode ++
        " is unsupported; c9s accepts only container:<primary node name>" }]
  else if primary ∉ nodes then
    [{ code := "unknown-network-mode-primary", path
       message := "node " ++ quoted nodeName ++ " shares a pod with nonexistent primary node " ++
        quoted primary }]
  else if meetsCycle nodes (nodes.size + 1) [nodeName] primary then
    [{ code := "network-mode-cycle", path
       message := "node " ++ quoted nodeName ++
        " network-mode participates in a pod-group cycle" }]
  else []

def validateNodeNetworkModes (nodes : GoMap String (NodeDefinition φ)) : List Diagnostic :=
  nodes.toList.flatMap fun entry => networkModeDiagnostics library nodes entry.1 entry.2.networkMode

def labelOriginalNodeName : String := "c9s.run/originalNodeName"

def sortedNodeNames (nodes : GoMap String (NodeDefinition φ)) : List String := nodes.keys

def nodeNameRenames (nodes : GoMap String (NodeDefinition φ)) :
    Except String (GoMap String String) :=
  (library.sanitizeNodeNames (sortedNodeNames nodes)).mapError fun message =>
    errInvalidData ++ ": " ++ message

def compiledName (renames : GoMap String String) (nodeName : String) : String :=
  renames[nodeName]?.getD nodeName

def renameNetworkModePrimary (renames : GoMap String String) (definition : NodeDefinition φ) :
    NodeDefinition φ :=
  match renames[parseNetworkModeContainer definition.networkMode]? with
  | none => definition
  | some name => { definition with networkMode := networkModeContainerPrefix ++ name }

def renameLinkEndpointNode (renames : GoMap String String) (endpoint : Endpoint) : Endpoint :=
  { endpoint with nodeName := compiledName renames endpoint.nodeName }

def recordOriginalName (nodeName : String) (definition : NodeDefinition φ) : NodeDefinition φ :=
  if labelOriginalNodeName ∈ definition.labels then definition
  else if library.validLabelValue nodeName then
    { definition with labels := definition.labels.insert labelOriginalNodeName nodeName }
  else definition

def renameNodes (rank : String → ℕ) (renames : GoMap String String)
    (compiled : CompiledDefinition φ) : CompiledDefinition φ :=
  if renames.isEmpty then compiled
  else
    { nodes := (compiled.nodes.rekey rank (compiledName renames)).map
        fun _ => renameNetworkModePrimary renames
      appProtocols := compiled.appProtocols.rekey rank (compiledName renames)
      links := compiled.links.map fun link =>
        { link with
          endpointA := renameLinkEndpointNode renames link.endpointA
          endpointB := renameLinkEndpointNode renames link.endpointB }
      nodeNameSources := GoMap.rekey rank (compiledName renames) <|
        compiled.nodes.filterMap fun nodeName _ =>
          if nodeName ∈ renames then some nodeName else none }

def sanitizeCompiledNodeNames (rank : String → ℕ)
    (compiled : CompiledDefinition φ) : CompiledDefinition φ × List Diagnostic :=
  match nodeNameRenames library compiled.nodes with
  | .error message =>
    (compiled, [{ code := "colliding-node-names", path := "topology.nodes", message }])
  | .ok renames =>
    (renameNodes rank renames
      { compiled with nodes := compiled.nodes.map (recordOriginalName library) }, [])

def compileNodes (source : SourceDefinition φ) : CompiledDefinition φ where
  nodes := source.nodes.map fun _ node => node.definition
  appProtocols := source.nodes.filterMap fun _ node =>
    if node.appProtocols = [] then none else some node.appProtocols

/-- The links' YAML is read before anything else. -/
def compileContainerlabDefinition (rank : String → ℕ)
    (source : SourceDefinition φ) : Except CompileError (CompiledDefinition φ) := do
  let definitions ← source.links.mapM parseLink
  let compiled := compileNodes source
  let (links, linkDiagnostics) ←
    compileContainerlabLinks (fun name => decide (name ∈ source.nodes)) 0 definitions
  let (renamed, nameDiagnostics) := sanitizeCompiledNodeNames library rank { compiled with links }
  diagnosticsError (source.diagnostics ++ validateNodeNetworkModes library compiled.nodes ++
    linkDiagnostics ++ nameDiagnostics)
  return renamed

variable {nodes : GoMap String (NodeDefinition φ)}

theorem primary_of_networkModeDiagnostics {library : NameLibrary} {nodeName networkMode : String}
    (h : networkModeDiagnostics library nodes nodeName networkMode = []) :
    networkMode = "" ∨ library.sanitizeName (parseNetworkModeContainer networkMode) ≠ "" ∧
      parseNetworkModeContainer networkMode ∈ nodes := by
  unfold networkModeDiagnostics at h
  by_cases hempty : networkMode = ""
  · exact .inl hempty
  · right
    rw [if_neg hempty] at h
    split_ifs at h with hunsupported hunknown
    exact ⟨(not_or.mp hunsupported).2, hunknown⟩

theorem warning_of_mem_validateNodeNetworkModes {library : NameLibrary} {d : Diagnostic}
    (hd : d ∈ validateNodeNetworkModes library nodes) : d.warning = false := by
  obtain ⟨entry, -, hd⟩ := mem_flatMap.mp hd
  simp only [networkModeDiagnostics] at hd
  split_ifs at hd <;> simp_all

@[simp] theorem parseNetworkModeContainer_append (name : String) :
    parseNetworkModeContainer (networkModeContainerPrefix ++ name) = name := by
  simp [parseNetworkModeContainer]

@[simp] theorem parseNetworkModeContainer_empty : parseNetworkModeContainer "" = "" := by
  decide

/-- A renaming gives new names to some nodes and fails where two would share one; the host's name
and the empty one stay. -/
structure NameLibrary.Lawful (library : NameLibrary) : Prop where
  renamed : ∀ {names : List String} {renames : GoMap String String},
    library.sanitizeNodeNames names = .ok renames → ∀ {name newName : String},
    renames[name]? = some newName →
      name ∈ names ∧ newName = library.sanitizeName name ∧ newName ≠ name
  apart : ∀ {names : List String} {renames : GoMap String String},
    library.sanitizeNodeNames names = .ok renames → ∀ a ∈ names, ∀ b ∈ names,
    compiledName renames a = compiledName renames b → a = b
  sanitizeName_host : library.sanitizeName linkHostNodeName = linkHostNodeName
  sanitizeName_empty : library.sanitizeName "" = ""

structure Renames (library : NameLibrary) (nodes : GoMap String (NodeDefinition φ))
    (renames : GoMap String String) : Prop where
  mem : ∀ {name newName : String}, renames[name]? = some newName → name ∈ nodes
  sanitized : ∀ {name newName : String}, renames[name]? = some newName →
    newName = library.sanitizeName name
  apart : ∀ a ∈ nodes, ∀ b ∈ nodes, compiledName renames a = compiledName renames b → a = b
  host : renames[linkHostNodeName]? = none
  empty : renames[""]? = none

theorem NameLibrary.Lawful.renames {library : NameLibrary} (hlaws : library.Lawful)
    {renames : GoMap String String} (h : nodeNameRenames library nodes = .ok renames) :
    Renames library nodes renames := by
  have hrenames : library.sanitizeNodeNames nodes.keys = .ok renames := mapError_eq_ok.mp h
  have hfixed : ∀ {name : String}, library.sanitizeName name = name → renames[name]? = none := by
    intro name hname
    cases hlookup : renames[name]? with
    | none => rfl
    | some newName =>
      obtain ⟨-, hsanitized, hne⟩ := hlaws.renamed hrenames hlookup
      exact absurd (hsanitized.trans hname) hne
  exact
    { mem := fun hlookup => ExtTreeMap.mem_keys.mp (hlaws.renamed hrenames hlookup).1
      sanitized := fun hlookup => (hlaws.renamed hrenames hlookup).2.1
      apart := fun a ha b hb => hlaws.apart hrenames a (ExtTreeMap.mem_keys.mpr ha) b
        (ExtTreeMap.mem_keys.mpr hb)
      host := hfixed hlaws.sanitizeName_host
      empty := hfixed hlaws.sanitizeName_empty }

theorem Renames.of_mem_iff {library : NameLibrary} {nodes' : GoMap String (NodeDefinition φ)}
    {renames : GoMap String String} (h : Renames library nodes renames)
    (hmem : ∀ name, name ∈ nodes' ↔ name ∈ nodes) : Renames library nodes' renames :=
  { h with
    mem := fun hlookup => (hmem _).mpr (h.mem hlookup)
    apart := fun a ha b hb => h.apart a ((hmem a).mp ha) b ((hmem b).mp hb) }

theorem primary_renameNetworkModePrimary (renames : GoMap String String)
    (definition : NodeDefinition φ) :
    parseNetworkModeContainer (renameNetworkModePrimary renames definition).networkMode =
      compiledName renames (parseNetworkModeContainer definition.networkMode) := by
  unfold renameNetworkModePrimary compiledName
  cases renames[parseNetworkModeContainer definition.networkMode]? with
  | none => rfl
  | some name => exact parseNetworkModeContainer_append name

@[simp] theorem compiledName_empty (name : String) : compiledName ∅ name = name := by
  simp [compiledName]

@[simp] theorem renameNetworkModePrimary_empty (definition : NodeDefinition φ) :
    renameNetworkModePrimary ∅ definition = definition := by
  simp [renameNetworkModePrimary]

section Rename

variable {library : NameLibrary} {rank : String → ℕ} {renames : GoMap String String}
  {compiled : CompiledDefinition φ}

@[simp] theorem renameNodes_empty : renameNodes rank ∅ compiled = compiled := by simp [renameNodes]

theorem lookup_nodes_renameNodes (hrenames : Renames library compiled.nodes renames)
    {definition : NodeDefinition φ} :
    (renameNodes rank renames compiled).nodes[name]? = some definition ↔
      ∃ source original, compiled.nodes[source]? = some original ∧
        compiledName renames source = name ∧
        renameNetworkModePrimary renames original = definition := by
  by_cases hempty : renames = ∅
  · subst hempty
    simp
  · simp only [renameNodes, ExtTreeMap.isEmpty_iff, hempty, ↓reduceIte, ExtTreeMap.getElem?_map,
      map_eq_some_iff,
      lookup_rekey fun a ha b hb hak hbk =>
        congrArg _ (hrenames.apart a ha b hb (hak.trans hbk.symm))]
    constructor
    · rintro ⟨original, ⟨source, hsource, hname⟩, hdefinition⟩
      exact ⟨source, original, hsource, hname, hdefinition⟩
    · rintro ⟨source, original, hsource, hname, hdefinition⟩
      exact ⟨original, ⟨source, hsource, hname⟩, hdefinition⟩

theorem lookup_appProtocols_renameNodes (hrenames : Renames library compiled.nodes renames)
    (hkeys : ∀ n ∈ compiled.appProtocols, n ∈ compiled.nodes) {source : String}
    (hsource : source ∈ compiled.nodes) :
    (renameNodes rank renames compiled).appProtocols[compiledName renames source]? =
      compiled.appProtocols[source]? := by
  by_cases hempty : renames = ∅
  · subst hempty
    simp
  · simp only [renameNodes, ExtTreeMap.isEmpty_iff, hempty, ↓reduceIte]
    refine lookup_rekey_apply_iff.mpr ?_ rank
    intro b protocols hb hsame
    rwa [← hrenames.apart b (hkeys b (mem_of_lookup hb)) source hsource hsame]

theorem links_renameNodes :
    (renameNodes rank renames compiled).links = compiled.links.map fun link =>
      { link with
        endpointA := renameLinkEndpointNode renames link.endpointA
        endpointB := renameLinkEndpointNode renames link.endpointB } := by
  by_cases hempty : renames = ∅
  · subst hempty
    simp [renameLinkEndpointNode]
  · simp [renameNodes, ExtTreeMap.isEmpty_iff, hempty]

variable (rank) in
theorem lookup_nodeNameSources (hrenames : Renames library compiled.nodes renames)
    (hnone : compiled.nodeNameSources = ∅) {source : String} :
    (renameNodes rank renames compiled).nodeNameSources[name]? = some source ↔
      renames[source]? = some name := by
  by_cases hempty : renames = ∅
  · subst hempty
    simp [hnone]
  · have hlookup : ∀ {a v : String}, (compiled.nodes.filterMap fun nodeName _ =>
        if nodeName ∈ renames then some nodeName else none)[a]? = some v ↔
        a ∈ renames ∧ v = a := by
      intro a v
      rw [getElem?_filterMap']
      by_cases ha : a ∈ renames
      · obtain ⟨newName, hnew⟩ :=
          exists_lookup ha
        obtain ⟨definition, hdefinition⟩ := exists_lookup (hrenames.mem hnew)
        simp [ha, hdefinition, eq_comm]
      · cases compiled.nodes[a]? <;> simp [ha]
    simp only [renameNodes, ExtTreeMap.isEmpty_iff, hempty, ↓reduceIte]
    rw [lookup_rekey]
    · simp only [hlookup]
      constructor
      · rintro ⟨a, ⟨ha, rfl⟩, rfl⟩
        obtain ⟨newName, hnew⟩ := exists_lookup ha
        simp [compiledName, hnew]
      · intro h
        have hmem : source ∈ renames := mem_of_lookup h
        exact ⟨source, ⟨hmem, rfl⟩, by simp [compiledName, h]⟩
    · have hnodes : ∀ a ∈ compiled.nodes.filterMap (fun nodeName _ =>
          if nodeName ∈ renames then some nodeName else none), a ∈ compiled.nodes :=
        fun a ha => mem_of_mem_filterMap ha
      exact fun a ha b hb hak hbk =>
        congrArg _ (hrenames.apart a (hnodes a ha) b (hnodes b hb) (hak.trans hbk.symm))

theorem sourceNodeName_renameNodes (hrenames : Renames library compiled.nodes renames)
    (hnone : compiled.nodeNameSources = ∅) {source : String} (hsource : source ∈ compiled.nodes) :
    (renameNodes rank renames compiled).sourceNodeName (compiledName renames source) = source := by
  unfold CompiledDefinition.sourceNodeName
  cases hlookup : (renameNodes rank renames compiled).nodeNameSources[
      compiledName renames source]? with
  | none =>
    cases hnew : renames[source]? with
    | none => simp [compiledName, hnew]
    | some newName =>
      have hrecorded := (lookup_nodeNameSources rank hrenames hnone).mpr hnew
      rw [compiledName, hnew, getD_some, hrecorded] at hlookup
      cases hlookup
  | some found =>
    have hfound := (lookup_nodeNameSources rank hrenames hnone).mp hlookup
    exact hrenames.apart found (hrenames.mem hfound) source hsource
      (by rw [compiledName, hfound]; rfl)

end Rename

def beforeRenaming (source : SourceDefinition φ)
    (links : List CompiledLink) : CompiledDefinition φ :=
  { compileNodes source with
    links
    nodes := (compileNodes source).nodes.map (recordOriginalName library) }

variable {source : SourceDefinition φ}

theorem mem_beforeRenaming {library : NameLibrary} {links : List CompiledLink} :
    name ∈ (beforeRenaming library source links).nodes ↔ name ∈ source.nodes := by
  simp [beforeRenaming, compileNodes]

structure Compiles (library : NameLibrary) (rank : String → ℕ) (source : SourceDefinition φ)
    (compiled : CompiledDefinition φ) (renames : GoMap String String)
    (links : List CompiledLink) : Prop where
  renamed : Renames library (beforeRenaming library source links).nodes renames
  joins : List.Forall₂ (Joins fun name => decide (name ∈ source.nodes)) source.links links
  primary : ∀ {name : String} {node : FlattenedNode φ}, source.nodes[name]? = some node →
    node.definition.networkMode = "" ∨
      library.sanitizeName (parseNetworkModeContainer node.definition.networkMode) ≠ "" ∧
      parseNetworkModeContainer node.definition.networkMode ∈ source.nodes
  eq : compiled = renameNodes rank renames (beforeRenaming library source links)

theorem eq_nil_of_warnings {diagnostics : List Diagnostic}
    (herrors : ∀ d ∈ diagnostics, d.warning = false)
    (hwarnings : ∀ d ∈ diagnostics, d.warning = true) : diagnostics = [] := by
  apply eq_nil_iff_forall_not_mem.mpr
  intro d hd
  have hd' := hwarnings d hd
  rw [herrors d hd] at hd'
  cases hd'

theorem networkModes_of_compile {library : NameLibrary} {rank : String → ℕ}
    {compiled : CompiledDefinition φ}
    (h : compileContainerlabDefinition library rank source = .ok compiled) :
    validateNodeNetworkModes library (compileNodes source).nodes = [] := by
  obtain ⟨definitions, -, h⟩ := bind_eq_ok_iff.mp h
  obtain ⟨⟨links, linkDiagnostics⟩, -, h⟩ := bind_eq_ok_iff.mp h
  obtain ⟨hdiagnostics, -⟩ := bind_eq_ok.mp h
  have hwarnings := diagnosticsError_eq_ok.mp hdiagnostics
  exact eq_nil_of_warnings (fun d => warning_of_mem_validateNodeNetworkModes) fun d hd =>
    hwarnings d (mem_append_left _ (mem_append_left _ (mem_append_right _ hd)))

theorem NameLibrary.Lawful.compiles {library : NameLibrary} (hlaws : library.Lawful)
    {rank : String → ℕ} {compiled : CompiledDefinition φ}
    (hcompile : compileContainerlabDefinition library rank source = .ok compiled) :
    ∃ renames links, nodeNameRenames library (compileNodes source).nodes = .ok renames ∧
      Compiles library rank source compiled renames links := by
  obtain ⟨definitions, hdefinitions, h⟩ := bind_eq_ok_iff.mp hcompile
  obtain ⟨⟨links, linkDiagnostics⟩, hlinks, h⟩ := bind_eq_ok_iff.mp h
  have hnames : ({ compileNodes source with links } : CompiledDefinition φ).nodes =
      (compileNodes source).nodes := rfl
  dsimp only [sanitizeCompiledNodeNames] at h
  rw [hnames] at h
  cases hrenames : nodeNameRenames library (compileNodes source).nodes with
  | error message =>
    rw [hrenames] at h
    obtain ⟨hdiagnostics, -⟩ := bind_eq_ok.mp h
    have hwarning := diagnosticsError_eq_ok.mp hdiagnostics _
      (mem_append_right _ (mem_singleton.mpr rfl))
    cases hwarning
  | ok renames =>
    rw [hrenames] at h
    obtain ⟨hdiagnostics, hcompiled⟩ := bind_eq_ok.mp h
    cases hcompiled
    have hwarnings := diagnosticsError_eq_ok.mp hdiagnostics
    simp only [append_nil, mem_append] at hwarnings
    have hmodes := networkModes_of_compile hcompile
    have hlinkDiagnostics := eq_nil_of_warnings (warning_of_compileContainerlabLinks hlinks)
      fun d hd => hwarnings d (.inr hd)
    subst hlinkDiagnostics
    refine ⟨renames, links, rfl, ?_, joins_of_compileContainerlabLinks hdefinitions hlinks, ?_, rfl⟩
    · apply (hlaws.renames hrenames).of_mem_iff
      intro name
      simp [beforeRenaming]
    · intro name node hnode
      have hmode := primary_of_networkModeDiagnostics (flatMap_eq_nil_iff.mp hmodes
        (name, node.definition) (by
          rw [mem_toList_iff_getElem?_eq_some]; simp [compileNodes, hnode]))
      simpa [compileNodes] using hmode

end Clabernetes.Compiler
