import Clabernetes.Base.Interrupted
import Clabernetes.Base.Sorting
import Clabernetes.Base.Wiring
import Clabernetes.Compiler.Render

/-!
# Renaming preserves the topology

A definition, with the policy written for it, and the objects rendered from it are both wired
graphs. Compiling is one injective renaming of the graph, unless a renamed node takes a name that
means something else: the reserved name of the host, where it has a link, or a name under which the
probe policy says what it does not say of the node.
-/

namespace Clabernetes.Compiler

open Base Links Std List Option ExtTreeMap GoMap

variable {φ ρ σ : Type} {definition : NodeDefinition φ} {name nodeName : String}
  {nodeNames : List String} {newName : String}

def target (nodeName : String) : Target String :=
  if nodeName = linkHostNodeName then .outside else .node nodeName

def SourceLink.wire (link : SourceLink) : Option (Wire String) :=
  match link.endpoints.map fun endpoint => (readEndpoint endpoint).toOption with
  | [some (nodeA, interfaceA), some (nodeB, interfaceB)] =>
    some ⟨⟨target nodeA, interfaceA⟩, ⟨target nodeB, interfaceB⟩, link.mtu⟩
  | _ => none

inductive Policy (ρ : Type) where
  | filesFromConfigMap (files : List FileFromConfigMap)
  | filesFromSecret (files : List FileFromSecret)
  | filesFromURL (files : List FileFromURL)
  | appProtocols (protocols : List AppProtocol)
  | resources (requirements : ρ)
  | probe (configuration : ProbeConfiguration)
  | excludedFromProbes

variable (library : RenderLibrary ρ) {renames : GoMap String String} {names : NameLibrary}
  {source : SourceDefinition φ}

/-- The policy of a source node. A list that is empty says nothing, and neither do resources that
are the default ones. -/
def Written (input : Input ρ σ) (source : SourceDefinition φ)
    (nodeName : String) : Policy ρ → Prop
  | .filesFromConfigMap files => files ≠ [] ∧ input.filesFromConfigMap[nodeName]? = some files
  | .filesFromSecret files => files ≠ [] ∧ input.filesFromSecret[nodeName]? = some files
  | .filesFromURL files => files ≠ [] ∧ input.filesFromURL[nodeName]? = some files
  | .appProtocols protocols =>
    protocols ≠ [] ∧ source.nodes[nodeName]?.map FlattenedNode.appProtocols = some protocols
  | .resources requirements =>
    hasDistinctProfilePolicy library input nodeName = true ∧
      input.resources[nodeName]? = some requirements
  | .probe configuration =>
    input.statusProbes.nodeProbeConfigurations[nodeName]? = some configuration
  | .excludedFromProbes => nodeName ∈ input.statusProbes.excludedNodes

structure NameRecord where
  sourceName : String
  label : Option String
  deriving DecidableEq

/-- The label that is to record a node's name: the author's, then the name itself if a label can
hold it, then one given for the whole topology. -/
def originalNameLabel (names : NameLibrary) (input : Input ρ σ) (nodeName : String)
    (definition : NodeDefinition φ) : Option String :=
  (definition.labels[labelOriginalNodeName]?.or
    (if names.validLabelValue nodeName then some nodeName else none)).or
    input.labels[labelOriginalNodeName]?

def body (definition : NodeDefinition φ) : NodeDefinition φ :=
  { definition with
    networkMode := ""
    labels := definition.labels.erase labelOriginalNodeName }

def sourceGraph (names : NameLibrary) (library : RenderLibrary ρ) (input : Input ρ σ)
    (source : SourceDefinition φ) : Graph String (NodeDefinition φ) (Policy ρ) NameRecord where
  nodes := {e | ∃ node, source.nodes[e.1]? = some node ∧ e.2 = body node.definition}
  wires := source.links.filterMap SourceLink.wire
  primaries := {e | e.2 ≠ "" ∧ ∃ node, source.nodes[e.1]? = some node ∧
    parseNetworkModeContainer node.definition.networkMode = e.2}
  policies := {e | e.1 ∈ source.nodes ∧ Written library input source e.1 e.2}
  records := {e | ∃ node, source.nodes[e.1]? = some node ∧
    e.2 = ⟨e.1, originalNameLabel names input e.1 node.definition⟩}

def RenderedLink.wire (link : RenderedLink) : Wire String where
  endA := ⟨target link.endpointA.nodeName, link.endpointA.interfaceName⟩
  endB := ⟨target link.endpointB.nodeName, link.endpointB.interfaceName⟩
  mtu := link.mtu

/-- The policy that reaches a compiled node. Resources come with the profile made for it, the
probe policy with any of the profiles. -/
def Carried (order : String → ℕ) (input : Input ρ σ)
    (compiled : CompiledDefinition φ) (node : RenderedNode φ) : Policy ρ → Prop
  | .filesFromConfigMap files => files ≠ [] ∧ node.filesFromConfigMap = files
  | .filesFromSecret files => files ≠ [] ∧ node.filesFromSecret = files
  | .filesFromURL files => files ≠ [] ∧ node.filesFromURL = files
  | .appProtocols protocols => protocols ≠ [] ∧ node.appProtocols = protocols
  | .resources requirements =>
    node.name ∈ perNodeNames library input compiled ∧
      (renderDedicatedProfile library order input compiled node.name).resources = some requirements
  | .probe configuration =>
    (compiledStatusProbes order input compiled).nodeProbeConfigurations[node.name]? =
      some configuration
  | .excludedFromProbes => node.name ∈ (compiledStatusProbes order input compiled).excludedNodes

def renderedGraph (order : String → ℕ) (input : Input ρ σ)
    (compiled : CompiledDefinition φ) : Graph String (NodeDefinition φ) (Policy ρ) NameRecord where
  nodes := {e | ∃ node ∈ renderNodes library input compiled,
    node.name = e.1 ∧ e.2 = body node.definition}
  wires := (renderLinks library input compiled).map RenderedLink.wire
  primaries := {e | e.2 ≠ "" ∧ ∃ node ∈ renderNodes library input compiled,
    node.name = e.1 ∧ parseNetworkModeContainer node.definition.networkMode = e.2}
  policies := {e | ∃ node ∈ renderNodes library input compiled,
    node.name = e.1 ∧ Carried library order input compiled node e.2}
  records := {e | ∃ node ∈ renderNodes library input compiled,
    node.name = e.1 ∧
      e.2 = ⟨compiled.sourceNodeName node.name, node.labels[labelOriginalNodeName]?⟩}

def renamedDefinition (names : NameLibrary) (renames : GoMap String String) (nodeName : String)
    (definition : NodeDefinition φ) : NodeDefinition φ :=
  renameNetworkModePrimary renames (recordOriginalName names nodeName definition)

@[simp] theorem group_renamedDefinition {names : NameLibrary} {renames : GoMap String String} :
    (renamedDefinition names renames nodeName definition).group = definition.group := by
  unfold renamedDefinition renameNetworkModePrimary recordOriginalName
  split <;> split_ifs <;> rfl

theorem labels_renamedDefinition :
    (renamedDefinition names renames nodeName definition).labels =
      (recordOriginalName names nodeName definition).labels := by
  unfold renamedDefinition renameNetworkModePrimary
  split <;> rfl

theorem networkMode_recordOriginalName :
    (recordOriginalName names nodeName definition).networkMode = definition.networkMode := by
  unfold recordOriginalName
  split_ifs <;> rfl

theorem lookup_label_recordOriginalName :
    (recordOriginalName names nodeName definition).labels[labelOriginalNodeName]? =
      definition.labels[labelOriginalNodeName]?.or
        (if names.validLabelValue nodeName then some nodeName else none) := by
  unfold recordOriginalName
  by_cases hlabel : labelOriginalNodeName ∈ definition.labels
  · simp [hlabel]
  · by_cases hvalid : names.validLabelValue nodeName = true <;> simp [hlabel, hvalid]

theorem body_renamedDefinition :
    body (renamedDefinition names renames nodeName definition) = body definition := by
  have hlabels : (recordOriginalName names nodeName definition).labels.erase
      labelOriginalNodeName = definition.labels.erase labelOriginalNodeName := by
    unfold recordOriginalName
    split_ifs
    · rfl
    · ext key value
      simp only [lookup_erase, lookup_insert]
      split_ifs <;> rfl
    · rfl
  have hrest : (renamedDefinition names renames nodeName definition).rest = definition.rest := by
    unfold renamedDefinition renameNetworkModePrimary recordOriginalName
    split <;> split_ifs <;> rfl
  simp only [body, labels_renamedDefinition, hlabels, group_renamedDefinition, hrest]

theorem primary_renamedDefinition :
    parseNetworkModeContainer (renamedDefinition names renames nodeName definition).networkMode =
      compiledName renames (parseNetworkModeContainer definition.networkMode) := by
  rw [renamedDefinition, primary_renameNetworkModePrimary, networkMode_recordOriginalName]

section Graph

variable {names : NameLibrary} {library : RenderLibrary ρ} {rank order : String → ℕ}
  {input : Input ρ σ} {source : SourceDefinition φ} {compiled : CompiledDefinition φ}
  {renames : GoMap String String} {links : List CompiledLink} {node : FlattenedNode φ}
  {rendered : RenderedNode φ} {a b : String}

variable (h : Compiles names rank source compiled renames links)

theorem lookup_beforeRenaming : (beforeRenaming names source links).nodes[name]? = some definition ↔
      ∃ node, source.nodes[name]? = some node ∧
        recordOriginalName names name node.definition = definition := by
  simp [beforeRenaming, compileNodes]

include h in
theorem Compiles.apart (ha : a ∈ source.nodes) (hb : b ∈ source.nodes)
    (hab : compiledName renames a = compiledName renames b) : a = b :=
  h.renamed.apart a (mem_beforeRenaming.mpr ha) b (mem_beforeRenaming.mpr hb) hab

include h in
theorem Compiles.sourceNodeName (hname : name ∈ source.nodes) :
    compiled.sourceNodeName (compiledName renames name) = name := by
  rw [h.eq]
  exact sourceNodeName_renameNodes h.renamed rfl (mem_beforeRenaming.mpr hname)

include h in
theorem Compiles.lookup : compiled.nodes[newName]? = some definition ↔
      ∃ name node, source.nodes[name]? = some node ∧ compiledName renames name = newName ∧
        renamedDefinition names renames name node.definition = definition := by
  rw [h.eq, lookup_nodes_renameNodes h.renamed]
  constructor
  · rintro ⟨name, original, horiginal, hname, hdefinition⟩
    obtain ⟨node, hnode, rfl⟩ := lookup_beforeRenaming.mp horiginal
    exact ⟨name, node, hnode, hname, hdefinition⟩
  · rintro ⟨name, node, hnode, hname, hdefinition⟩
    exact ⟨name, _, lookup_beforeRenaming.mpr ⟨node, hnode, rfl⟩, hname, hdefinition⟩

def renderedFor (names : NameLibrary) (library : RenderLibrary ρ) (input : Input ρ σ)
    (compiled : CompiledDefinition φ) (renames : GoMap String String) (name : String)
    (node : FlattenedNode φ) : RenderedNode φ :=
  renderNode library input compiled (compiledName renames name)
    (renamedDefinition names renames name node.definition)

include h in
theorem Compiles.sourceNodeName_renderedFor (hname : name ∈ source.nodes) : compiled.sourceNodeName
    (renderedFor names library input compiled renames name node).name = name :=
  h.sourceNodeName hname

include h in
theorem Compiles.mem_renderNodes :
    rendered ∈ renderNodes library input compiled ↔ ∃ name node, source.nodes[name]? = some node ∧
      renderedFor names library input compiled renames name node = rendered := by
  simp only [renderNodes, List.mem_map, Prod.exists, mem_toList_iff_getElem?_eq_some, h.lookup]
  constructor
  · rintro ⟨_, _, ⟨name, node, hnode, rfl, rfl⟩, rfl⟩
    exact ⟨name, node, hnode, rfl⟩
  · rintro ⟨name, node, hnode, rfl⟩
    exact ⟨_, _, ⟨name, node, hnode, rfl, rfl⟩, rfl⟩

include h in
theorem Compiles.exists_rendered_iff
    (hnode : source.nodes[name]? = some node) {p : RenderedNode φ → Prop} :
    (∃ rendered ∈ renderNodes library input compiled,
      rendered.name = compiledName renames name ∧ p rendered) ↔
      p (renderedFor names library input compiled renames name node) := by
  constructor
  · rintro ⟨rendered, hrendered, hname, hp⟩
    obtain ⟨other, otherNode, hother, rfl⟩ := h.mem_renderNodes.mp hrendered
    have hsame := h.apart (mem_of_lookup hother) (mem_of_lookup hnode) hname
    subst hsame
    rw [hnode] at hother
    cases hother
    exact hp
  · intro hp
    exact ⟨_, h.mem_renderNodes.mpr ⟨name, node, hnode, rfl⟩, rfl, hp⟩

include h in
theorem Compiles.exists_source (hrendered : rendered ∈ renderNodes library input compiled) :
    ∃ name ∈ source.nodes, compiledName renames name = rendered.name := by
  obtain ⟨name, node, hnode, rfl⟩ := h.mem_renderNodes.mp hrendered
  exact ⟨name, mem_of_lookup hnode, rfl⟩

def Taken (renames : GoMap String String) (name : String) : Prop :=
  ∃ other : String, renames[other]? = some name

theorem target_eq_node : target nodeName = .node name ↔
    nodeName = name ∧ name ≠ linkHostNodeName := by
  unfold target
  split_ifs with hhost
  · exact ⟨fun h => (by cases h), fun h => absurd hhost (h.1 ▸ h.2)⟩
  · rw [Target.node.injEq]
    exact ⟨fun h => ⟨h, h ▸ hhost⟩, fun h => h.1⟩

theorem target_compiledName (hrenames : renames[linkHostNodeName]? = none)
    (hhost : ∀ n, target name = .node n → compiledName renames n ≠ linkHostNodeName) :
    target (compiledName renames name) = (target name).map (compiledName renames) := by
  by_cases hname : name = linkHostNodeName
  · subst hname
    simp [target, compiledName, hrenames, Target.map]
  · have hother := hhost name (target_eq_node.mpr ⟨rfl, hname⟩)
    simp [target, hname, hother, Target.map]

def CompiledLink.wire (link : CompiledLink) : Wire String where
  endA := ⟨target link.endpointA.nodeName, link.endpointA.interfaceName⟩
  endB := ⟨target link.endpointB.nodeName, link.endpointB.interfaceName⟩
  mtu := link.mtu

theorem wire_of_joins {nodes : String → Bool} {link : SourceLink} {joined : CompiledLink}
    (h : Joins nodes link joined) : link.wire = some joined.wire := by
  obtain ⟨a, b, hendpoints, ha, hb⟩ := h.endpoints
  simp [SourceLink.wire, CompiledLink.wire, hendpoints, ha, hb, h.mtu, Except.toOption]

theorem filterMap_wire {nodes : String → Bool} {sources : List SourceLink}
    {joined : List CompiledLink} (h : List.Forall₂ (Joins nodes) sources joined) :
    sources.filterMap SourceLink.wire = joined.map CompiledLink.wire := by
  induction h with
  | nil => rfl
  | cons hjoin _ ih => simp [wire_of_joins hjoin, ih]

/-- No end of a link at a node becomes one at the host. -/
def HostFree (renames : GoMap String String) (source : SourceDefinition φ) : Prop :=
  ∀ wire ∈ source.links.filterMap SourceLink.wire, ∀ name,
    wire.endA.target = .node name ∨ wire.endB.target = .node name →
      compiledName renames name ≠ linkHostNodeName

include h in
/-- The rendered Links, in whatever order, are the links of the definition under new names. -/
theorem Compiles.wires (hhost : HostFree renames source) :
    (((renderLinks library input compiled).map RenderedLink.wire : List _) :
        Multiset (Wire String)) =
      Multiset.map (Wire.map (compiledName renames))
        (source.links.filterMap SourceLink.wire : List _) := by
  rw [HostFree, filterMap_wire h.joins] at hhost
  rw [filterMap_wire h.joins, Multiset.map_coe, Multiset.coe_eq_coe, List.map_map, renderLinks,
    List.map_map, h.eq, links_renameNodes]
  refine ((mergeSort_perm _ _).map _).trans ?_
  rw [List.map_map]
  apply List.Perm.of_eq
  apply map_congr_left
  intro link hlink
  have htargetA := target_compiledName h.renamed.host fun name hname =>
    hhost link.wire (mem_map_of_mem hlink) name (.inl hname)
  have htargetB := target_compiledName h.renamed.host fun name hname =>
    hhost link.wire (mem_map_of_mem hlink) name (.inr hname)
  simp [RenderedLink.wire, CompiledLink.wire, Wire.map, WireEnd.map, renameLinkEndpointNode,
    htargetA, htargetB]

/-- No wire of the rendered Links ends at a node of the host's name. -/
theorem rename_ne_host {rename : String → String} {wire : Wire String}
    (hwire : Wire.map rename wire ∈ (renderLinks library input compiled).map RenderedLink.wire)
    (hname : wire.endA.target = .node name ∨ wire.endB.target = .node name) :
    rename name ≠ linkHostNodeName := by
  obtain ⟨link, -, hlink⟩ := mem_map.mp hwire
  have hne : ∀ {t nodeName}, target nodeName = Target.map rename t → t = .node name →
      rename name ≠ linkHostNodeName := by
    rintro _ nodeName hend rfl
    exact (target_eq_node.mp hend).2
  rcases hname with hname | hname
  · exact hne (congrArg (fun wire => wire.endA.target) hlink) hname
  · exact hne (congrArg (fun wire => wire.endB.target) hlink) hname

theorem mem_of_target
    (hknown : nodeName = linkHostNodeName ∨ decide (nodeName ∈ source.nodes) = true)
    (htarget : target nodeName = .node name) : name ∈ source.nodes := by
  by_cases hhost : nodeName = linkHostNodeName
  · simp [target, hhost] at htarget
  · rw [target, if_neg hhost] at htarget
    cases htarget
    simpa [hhost] using hknown

/-- A node has in one probe policy, under one name, what another name has in another policy. -/
def SameProbes (probes : StatusProbes) (nodeName : String) (written : StatusProbes)
    (name : String) : Prop :=
  probes.nodeProbeConfigurations[nodeName]? = written.nodeProbeConfigurations[name]? ∧
    (nodeName ∈ probes.excludedNodes ↔ name ∈ written.excludedNodes)

/-- The probe policy says nothing more of a node under another name that becomes its new one. -/
def ProbesOwn (renames : GoMap String String) (written : StatusProbes) (name : String) : Prop :=
  ∀ other, compiledName renames other = compiledName renames name →
    (∀ configuration, written.nodeProbeConfigurations[other]? = some configuration →
      written.nodeProbeConfigurations[name]? = some configuration) ∧
    (other ∈ written.excludedNodes → name ∈ written.excludedNodes)

include h in
theorem Compiles.renameSourceToCompiled
    (name : String) : renameSourceToCompiled order compiled name = compiledName renames name := by
  rw [h.eq]
  exact renameSourceToCompiled_renameNodes h.renamed rfl name

include h in
theorem Compiles.sameProbes_iff : (∀ order, SameProbes (compiledStatusProbes order input compiled)
      (compiledName renames name) input.statusProbes name) ↔
    ProbesOwn renames input.statusProbes name := by
  have hrename : ∀ order, Compiler.renameSourceToCompiled order compiled = compiledName renames :=
    fun order => funext h.renameSourceToCompiled
  simp only [SameProbes, compiledStatusProbes, hrename, forall_and, lookup_rekey_apply_iff,
    List.mem_map, ProbesOwn]
  constructor
  · rintro ⟨hlookup, hexcluded⟩
    exact ⟨fun other hsame configuration hother => hlookup other configuration hother hsame,
      fun other hsame hother => (hexcluded fun _ => 0).mp ⟨other, hother, hsame⟩⟩
  · rintro ⟨hlookup, hexcluded⟩
    refine ⟨fun other configuration hother hsame => hlookup other hsame configuration hother,
      fun _ => ⟨?_, fun hname => ⟨name, hname, rfl⟩⟩⟩
    rintro ⟨other, hother, hsame⟩
    exact hexcluded other hsame hother

include h in
theorem Compiles.lookup_appProtocols (hnode : source.nodes[name]? = some node) :
    compiled.appProtocols[compiledName renames name]?.getD [] = node.appProtocols := by
  have hkeys : ∀ n ∈ (beforeRenaming names source links).appProtocols,
      n ∈ (beforeRenaming names source links).nodes := by
    intro n hn
    exact mem_beforeRenaming.mpr (mem_of_mem_filterMap hn)
  rw [h.eq, lookup_appProtocols_renameNodes h.renamed hkeys
    (mem_beforeRenaming.mpr (mem_of_lookup hnode))]
  simp only [beforeRenaming, compileNodes, getElem?_filterMap', hnode, bind_some]
  split_ifs with hempty
  · exact hempty.symm
  · rfl

include h in
/-- The policy that reaches a Node is the one written for its source node if the probes are. -/
theorem Compiles.carried_iff (hnode : source.nodes[name]? = some node) :
    (∀ policy, Carried library order input compiled
        (renderedFor names library input compiled renames name node) policy ↔
      Written library input source name policy) ↔
    SameProbes (compiledStatusProbes order input compiled) (compiledName renames name)
      input.statusProbes name := by
  refine ⟨fun hsame => ⟨Option.ext fun configuration => hsame (.probe configuration),
    hsame .excludedFromProbes⟩, ?_⟩
  rintro ⟨hprobe, hexcluded⟩ policy
  have hname := mem_of_lookup hnode
  have hfiles : ∀ {γ : Type} {files : List γ} {written : Option (List γ)},
      files ≠ [] ∧ written.getD [] = files ↔ files ≠ [] ∧ written = some files := by
    intro γ files written
    cases written with
    | none => simp [eq_comm]
    | some found => simp
  cases policy with
  | filesFromConfigMap files | filesFromSecret files | filesFromURL files =>
    simp only [Carried, Written, renderedFor, renderNode, h.sourceNodeName hname, hfiles]
  | appProtocols protocols =>
    simp [Carried, Written, renderedFor, renderNode, h.lookup_appProtocols hnode, hnode]
  | resources requirements =>
    have hkey : compiledName renames name ∈ compiled.nodes.keys :=
      ExtTreeMap.mem_keys.mpr (isSome_getElem?_iff_mem.mp
        (by rw [h.lookup.mpr ⟨name, node, hnode, rfl, rfl⟩]; rfl))
    simp only [Carried, Written, renderedFor, renderNode, perNodeNames, List.mem_filter, hkey,
      true_and, renderDedicatedProfile, h.sourceNodeName hname]
    apply and_congr_right
    intro hdistinct
    cases hresources : input.resources[name]? with
    | none => simp [hasDistinctProfilePolicy, hresources] at hdistinct
    | some found => simp
  | probe configuration =>
    simp only [Carried, Written, renderedFor, renderNode, hprobe]
  | excludedFromProbes => exact hexcluded

theorem lookup_originalNodeName_ownedObjectLabels :
    (ownedObjectLabels input name)[labelOriginalNodeName]? =
      input.labels[labelOriginalNodeName]? := by
  have hfixed : (GoMap.ofEntries [(labelApp, labelAppValue), (labelName, name),
      (labelOwner, input.name), (labelKind, topologyKindContainerlab)])[
      labelOriginalNodeName]? = none :=
    getElem?_ofList_of_contains_eq_false (by rfl)
  have hkept : compilerOwnedLabel labelOriginalNodeName false = false := by decide
  rw [ownedObjectLabels, getElem?_union, getElem?_filter', hfixed, or_none]
  cases input.labels[labelOriginalNodeName]? with
  | none => rfl
  | some value => simp [Option.filter, hkept]

theorem lookup_originalNodeName_nodeLabels :
    (nodeLabels input nodeName definition)[labelOriginalNodeName]? =
      definition.labels[labelOriginalNodeName]?.or input.labels[labelOriginalNodeName]? := by
  have hgroup : labelGroup ≠ labelOriginalNodeName := by decide
  have hnode : labelNode ≠ labelOriginalNodeName := by decide
  have hkept : ∀ hasGroup, compilerOwnedLabel labelOriginalNodeName hasGroup = false := by decide
  have hlabels : ∀ hasGroup, ((ownedObjectLabels input nodeName ∪
      definition.labels.filter fun key _ => !compilerOwnedLabel key hasGroup).insert
        labelNode nodeName)[labelOriginalNodeName]? =
      definition.labels[labelOriginalNodeName]?.or input.labels[labelOriginalNodeName]? := by
    intro hasGroup
    rw [lookup_insert, if_neg hnode, getElem?_union, getElem?_filter',
      lookup_originalNodeName_ownedObjectLabels]
    cases definition.labels[labelOriginalNodeName]? with
    | none => rfl
    | some value => simp [Option.filter, hkept]
  unfold nodeLabels
  by_cases hasGroup : definition.group ≠ ""
  · rw [if_pos hasGroup, lookup_insert, if_neg hgroup, hlabels]
  · rw [if_neg hasGroup, hlabels]

theorem label_renderedFor : (renderedFor names library input compiled renames name node).labels[
        labelOriginalNodeName]? =
      originalNameLabel names input name node.definition := by
  simp only [renderedFor, renderNode, lookup_originalNodeName_nodeLabels,
    labels_renamedDefinition, lookup_label_recordOriginalName, originalNameLabel]

include h in
theorem Compiles.compiledName_primary_ne (hnode : source.nodes[name]? = some node)
    (hprimary : parseNetworkModeContainer node.definition.networkMode ≠ "") :
    compiledName renames (parseNetworkModeContainer node.definition.networkMode) ≠ "" := by
  rcases h.primary hnode with hmode | ⟨hsanitized, -⟩
  · rw [hmode] at hprimary
    exact absurd parseNetworkModeContainer_empty hprimary
  · unfold compiledName
    cases hlookup : renames[parseNetworkModeContainer node.definition.networkMode]? with
    | none => exact hprimary
    | some newName =>
      rw [getD_some, h.renamed.sanitized hlookup]
      exact hsanitized

include h in
theorem Compiles.primaries : (renderedGraph library order input compiled).primaries =
      ((sourceGraph names library input source).map (compiledName renames)).primaries := by
  have hempty : compiledName renames "" = "" := by simp [compiledName, h.renamed.empty]
  ext ⟨newName, newPrimary⟩
  simp only [renderedGraph, sourceGraph, Base.Graph.map, Set.mem_ofPred_eq, Set.mem_image,
    Prod.exists,
    Prod.map_apply, Prod.mk.injEq]
  constructor
  · rintro ⟨hne, rendered, hrendered, rfl, rfl⟩
    obtain ⟨name, node, hnode, rfl⟩ := h.mem_renderNodes.mp hrendered
    have hparse : parseNetworkModeContainer
        (renamedDefinition names renames name node.definition).networkMode =
        compiledName renames (parseNetworkModeContainer node.definition.networkMode) :=
      primary_renamedDefinition
    refine ⟨name, _, ⟨?_, node, hnode, rfl⟩, rfl, hparse.symm⟩
    intro hprimary
    rw [hprimary, hempty] at hparse
    exact hne hparse
  · rintro ⟨name, _, ⟨hne, node, hnode, rfl⟩, rfl, rfl⟩
    exact ⟨h.compiledName_primary_ne hnode hne,
      (h.exists_rendered_iff hnode).mpr primary_renamedDefinition⟩

include h in
theorem Compiles.eq_image_iff {γ : Type}
    {s t : Set (String × γ)} (p : RenderedNode φ → γ → Prop)
    (ht : ∀ e, e ∈ t ↔ ∃ rendered ∈ renderNodes library input compiled,
      rendered.name = e.1 ∧ p rendered e.2) (hs : ∀ e ∈ s, e.1 ∈ source.nodes) :
    t = Prod.map (compiledName renames) id '' s ↔
      ∀ name node, source.nodes[name]? = some node → ∀ x,
        p (renderedFor names library input compiled renames name node) x ↔ (name, x) ∈ s := by
  have hp : ∀ {name node}, source.nodes[name]? = some node → ∀ x,
      p (renderedFor names library input compiled renames name node) x ↔
        (compiledName renames name, x) ∈ t :=
    fun hnode x => ((ht _).trans (h.exists_rendered_iff hnode)).symm
  rw [Base.eq_image_iff {name | name ∈ source.nodes} hs]
  · constructor
    · exact fun heq name node hnode x => (hp hnode x).trans (heq name (mem_of_lookup hnode) x)
    · intro hsame name hname x
      obtain ⟨node, hnode⟩ := exists_lookup hname
      exact (hp hnode x).symm.trans (hsame name node hnode x)
  · intro e he
    obtain ⟨rendered, hrendered, hname, -⟩ := (ht e).mp he
    rw [← hname]
    exact h.exists_source hrendered
  · exact fun a ha b hb => h.apart ha hb

include h in
theorem Compiles.nodes : (renderedGraph library order input compiled).nodes =
      ((sourceGraph names library input source).map (compiledName renames)).nodes := by
  refine (h.eq_image_iff (fun rendered x => x = body rendered.definition) (fun e => Iff.rfl)
    ?_).mpr ?_
  · rintro e ⟨node, hnode, -⟩
    exact mem_of_lookup hnode
  · intro name node hnode x
    simp [sourceGraph, hnode, renderedFor, renderNode, body_renamedDefinition]

include h in
theorem Compiles.records : (renderedGraph library order input compiled).records =
      ((sourceGraph names library input source).map (compiledName renames)).records := by
  refine (h.eq_image_iff (fun rendered (x : NameRecord) =>
    x = ⟨compiled.sourceNodeName rendered.name, rendered.labels[labelOriginalNodeName]?⟩)
    (fun e => Iff.rfl) ?_).mpr ?_
  · rintro e ⟨node, hnode, -⟩
    exact mem_of_lookup hnode
  · intro name node hnode x
    simp [sourceGraph, hnode, label_renderedFor, h.sourceNodeName_renderedFor (mem_of_lookup hnode)]

include h in
theorem Compiles.policies_iff : (renderedGraph library order input compiled).policies =
      ((sourceGraph names library input source).map (compiledName renames)).policies ↔
    ∀ name ∈ source.nodes, SameProbes (compiledStatusProbes order input compiled)
      (compiledName renames name) input.statusProbes name := by
  have hsource : ∀ {name node}, source.nodes[name]? = some node → ∀ policy,
      (name, policy) ∈ (sourceGraph names library input source).policies ↔
        Written library input source name policy :=
    fun hnode policy => and_iff_right (mem_of_lookup hnode)
  refine (h.eq_image_iff (Carried library order input compiled) (fun e => Iff.rfl)
    fun e he => he.1).trans ⟨fun hsame name hname => ?_, fun hsame name node hnode policy => ?_⟩
  · obtain ⟨node, hnode⟩ := exists_lookup hname
    exact (h.carried_iff hnode).mp fun policy =>
      (hsame name node hnode policy).trans (hsource hnode policy)
  · exact ((h.carried_iff hnode).mpr (hsame name (mem_of_lookup hnode)) policy).trans
      (hsource hnode policy).symm

include h in
/-- The recorded names leave one renaming. -/
theorem Compiles.eq_compiledName {rename : String → String}
    (hrecords : (renderedGraph library order input compiled).records =
      ((sourceGraph names library input source).map rename).records) (hname : name ∈ source.nodes) :
    rename name = compiledName renames name := by
  obtain ⟨node, hnode⟩ := exists_lookup hname
  have hrecord : (rename name, NameRecord.mk name (originalNameLabel names input name
      node.definition)) ∈ (renderedGraph library order input compiled).records :=
    hrecords ▸ ⟨(name, _), ⟨node, hnode, rfl⟩, rfl⟩
  rw [h.records] at hrecord
  obtain ⟨⟨other, record⟩, ⟨otherNode, -, hother⟩, hsame⟩ := hrecord
  simp only [Prod.map_apply, id_eq, Prod.mk.injEq] at hsame hother
  rw [← hsame.1, show other = name by rw [hother] at hsame; exact congrArg (·.sourceName) hsame.2]

include h in
theorem Compiles.closed : (sourceGraph names library input source).Closed := by
  have hname : ∀ {name : String}, name ∈ source.nodes →
      name ∈ Prod.fst '' (sourceGraph names library input source).nodes := by
    intro name hname
    obtain ⟨node, hnode⟩ := exists_lookup hname
    exact ⟨(name, body node.definition), ⟨node, hnode, rfl⟩, rfl⟩
  constructor
  · intro w hw
    simp only [sourceGraph, filterMap_wire h.joins, Multiset.mem_coe, List.mem_map] at hw
    obtain ⟨joined, hjoined, rfl⟩ := hw
    obtain ⟨link, -, hjoins⟩ := exists_left_of_forall₂ h.joins hjoined
    exact ⟨fun name htarget => hname (mem_of_target hjoins.knownA htarget),
      fun name htarget => hname (mem_of_target hjoins.knownB htarget)⟩
  · rintro e ⟨hne, node, hnode, hparse⟩
    refine ⟨hname (mem_of_lookup hnode), ?_⟩
    rcases h.primary hnode with hmode | ⟨-, hprimary⟩
    · rw [hmode, parseNetworkModeContainer_empty] at hparse
      exact absurd hparse.symm hne
    · exact hname (hparse ▸ hprimary)
  · exact fun e he => hname he.1
  · rintro e ⟨node, hnode, -⟩
    exact hname (mem_of_lookup hnode)

end Graph

/-- The names that the nodes are given mean nothing else, to a link or to the probe policy. -/
def NamesFree (names : NameLibrary) (input : Input ρ σ) (source : SourceDefinition φ) : Prop :=
  ∀ renames, nodeNameRenames names (compileNodes source).nodes = .ok renames →
    HostFree renames source ∧ ∀ name ∈ source.nodes, ProbesOwn renames input.statusProbes name

/-- The rendered objects are the definition under one renaming of its nodes that keeps them apart,
with every link, network mode, policy and recorded name, exactly if the new names mean nothing
else. -/
theorem rendered_graph_eq_map (hlaws : names.Lawful) (library : RenderLibrary ρ) (rank : String → ℕ)
    (input : Input ρ σ)
    {compiled : CompiledDefinition φ}
    (hcompiled : compileContainerlabDefinition names rank source = .ok compiled) :
    (∀ link ∈ source.links, link.wire.isSome = true) ∧
      (sourceGraph names library input source).Closed ∧
      ((∀ order, ∃ rename : String → String, Set.InjOn rename {name | name ∈ source.nodes} ∧
        renderedGraph library order input compiled =
          (sourceGraph names library input source).map rename) ↔ NamesFree names input source) := by
  obtain ⟨renames, links, hrenames, h⟩ := hlaws.compiles hcompiled
  refine ⟨?_, h.closed, fun hgraph renames' hrenames' => ?_, fun hfree order => ?_⟩
  · intro link hlink
    obtain ⟨joined, -, hjoins⟩ := exists_left_of_forall₂ h.joins.flip hlink
    rw [wire_of_joins hjoins]
    rfl
  · obtain rfl : renames = renames' := Except.ok.inj (hrenames.symm.trans hrenames')
    constructor
    · intro wire hwire name hend
      obtain ⟨rename, -, hmap⟩ := hgraph fun _ => 0
      have hnode : name ∈ source.nodes := by
        have hclosed : (sourceGraph names library input source).Closed := h.closed
        have hin := hclosed.wires wire (Multiset.mem_coe.mpr hwire)
        obtain ⟨e, ⟨node, hnode, -⟩, rfl⟩ := hend.elim (hin.1 name) (hin.2 name)
        exact mem_of_lookup hnode
      rw [← h.eq_compiledName (congrArg Graph.records hmap) hnode]
      have hwires : Wire.map rename wire ∈
          (renderedGraph library (fun _ => 0) input compiled).wires :=
        hmap ▸ Multiset.mem_map_of_mem _ (Multiset.mem_coe.mpr hwire)
      exact rename_ne_host (Multiset.mem_coe.mp hwires) hend
    · intro name hname
      refine h.sameProbes_iff.mp fun order => ?_
      obtain ⟨rename, -, hmap⟩ := hgraph order
      refine h.policies_iff.mp ((congrArg Graph.policies hmap).trans ?_) name hname
      apply Set.image_congr
      intro e he
      exact Prod.ext (h.eq_compiledName (congrArg Graph.records hmap) he.1) rfl
  · obtain ⟨hhost, hprobes⟩ := hfree renames hrenames
    refine ⟨compiledName renames, fun a ha b hb => h.apart ha hb, ?_⟩
    ext1
    · exact h.nodes
    · exact h.wires hhost
    · exact h.primaries
    · exact h.policies_iff.mpr fun name hname => h.sameProbes_iff.mpr (hprobes name hname) order
    · exact h.records

/-- No node has two different probe configurations, one under each of its names. -/
def OneProbeEach (names : NameLibrary) (input : Input ρ σ) (source : SourceDefinition φ) : Prop :=
  ∀ renames, nodeNameRenames names (compileNodes source).nodes = .ok renames →
    ∀ a ∈ input.statusProbes.nodeProbeConfigurations,
    ∀ b ∈ input.statusProbes.nodeProbeConfigurations,
    compiledName renames a = compiledName renames b →
      input.statusProbes.nodeProbeConfigurations[a]? =
        input.statusProbes.nodeProbeConfigurations[b]?

/-- The rendered probes do not depend on the visiting order exactly when no node has two different
configurations. -/
theorem status_probes_eq_iff (hlaws : names.Lawful) (input : Input ρ σ) {rank rank' : String → ℕ}
    {compiled compiled' : CompiledDefinition φ}
    (hcompile : compileContainerlabDefinition names rank source = .ok compiled)
    (hcompile' : compileContainerlabDefinition names rank' source = .ok compiled') :
    (∀ order order', compiledStatusProbes order input compiled =
        compiledStatusProbes order' input compiled') ↔ OneProbeEach names input source := by
  obtain ⟨renames, links, hrenames, h⟩ := hlaws.compiles hcompile
  obtain ⟨renames', links', hrenames', h'⟩ := hlaws.compiles hcompile'
  obtain rfl : renames = renames' := Except.ok.inj (hrenames.symm.trans hrenames')
  have hprobes : ∀ order order', compiledStatusProbes order input compiled =
      compiledStatusProbes order' input compiled' ↔
      input.statusProbes.nodeProbeConfigurations.rekey order (compiledName renames) =
        input.statusProbes.nodeProbeConfigurations.rekey order' (compiledName renames) := by
    intro order order'
    have hname : renameSourceToCompiled order compiled = compiledName renames :=
      funext h.renameSourceToCompiled
    have hname' : renameSourceToCompiled order' compiled' = compiledName renames :=
      funext h'.renameSourceToCompiled
    rw [compiledStatusProbes, compiledStatusProbes, hname, hname', StatusProbes.mk.injEq]
    exact and_iff_right rfl
  simp only [hprobes]
  rw [rekey_eq_iff]
  constructor
  · intro hone renames' hrenames'
    obtain rfl : renames = renames' := Except.ok.inj (hrenames.symm.trans hrenames')
    exact hone
  · exact fun hone => hone renames hrenames

def lowerCase (name : String) : String := String.ofList (name.toList.map Char.toLower)

def lowerCaseNames : NameLibrary where
  sanitizeName := lowerCase
  sanitizeNodeNames nodeNames :=
    if (nodeNames.map lowerCase).Nodup then
      .ok (GoMap.ofEntries ((nodeNames.filter fun name => lowerCase name ≠ name).map
        fun name => (name, lowerCase name)))
    else .error "two node names map onto one name"
  validLabelValue _ := true

theorem lookup_lowerCaseNames (h : lowerCaseNames.sanitizeNodeNames nodeNames = .ok renames)
    : renames[name]? = some newName ↔
      name ∈ nodeNames ∧ lowerCase name ≠ name ∧ newName = lowerCase name := by
  simp only [lowerCaseNames] at h
  split_ifs at h with hnodup
  cases h
  have hmem : ∀ {value}, (name, value) ∈ (nodeNames.filter fun name => lowerCase name ≠ name).map
      (fun name => (name, lowerCase name)) ↔
      name ∈ nodeNames ∧ lowerCase name ≠ name ∧ value = lowerCase name := by
    simp only [List.mem_map, List.mem_filter, decide_eq_true_eq, Prod.mk.injEq]
    intro value
    constructor
    · rintro ⟨a, ⟨ha, hne⟩, rfl, rfl⟩
      exact ⟨ha, hne, rfl⟩
    · rintro ⟨ha, hne, rfl⟩
      exact ⟨name, ⟨ha, hne⟩, rfl, rfl⟩
  rw [lookup_ofEntries, hmem]
  exact fun v hv w hw => (hmem.mp hv).2.2.trans (hmem.mp hw).2.2.symm

theorem compiledName_lowerCaseNames (h : lowerCaseNames.sanitizeNodeNames nodeNames = .ok renames)
    (hname : name ∈ nodeNames) :
    compiledName renames name = lowerCase name := by
  unfold compiledName
  cases hlookup : renames[name]? with
  | some newName => exact ((lookup_lowerCaseNames h).mp hlookup).2.2
  | none =>
    by_contra hne
    have hnew := (lookup_lowerCaseNames h).mpr ⟨hname, fun heq => hne heq.symm, rfl⟩
    rw [hlookup] at hnew
    cases hnew

theorem compiledName_of_lowerCase
    (h : nodeNameRenames lowerCaseNames (compileNodes source).nodes = .ok renames) {name : String}
    (hname : name ∈ source.nodes.keys) : compiledName renames name = lowerCase name := by
  refine compiledName_lowerCaseNames (mapError_eq_ok.mp h) ?_
  simpa [sortedNodeNames, compileNodes] using hname

theorem lowerCaseNames_lawful : lowerCaseNames.Lawful where
  renamed h name newName hlookup := by
    obtain ⟨hname, hne, rfl⟩ := (lookup_lowerCaseNames h).mp hlookup
    exact ⟨hname, rfl, hne⟩
  apart h a ha b hb hab := by
    rw [compiledName_lowerCaseNames h ha, compiledName_lowerCaseNames h hb] at hab
    simp only [lowerCaseNames] at h
    split_ifs at h with hnodup
    exact inj_on_of_nodup_map hnodup ha hb hab
  sanitizeName_host := by decide
  sanitizeName_empty := by decide

def plainRendering : RenderLibrary Unit where
  safeConcatNameKubernetes := "-".intercalate
  linkResourceName a b :=
    "-".intercalate [a.nodeName, a.interfaceName, b.nodeName, b.interfaceName]
  sameResources _ _ := true

/-- Two routers joined by a link, one of them also joined to the host and sharing its place with a
console. -/
def sampleDefinition : SourceDefinition Unit where
  nodes := GoMap.ofEntries [("R1", { definition := { rest := () } }),
    ("Client", { definition := { rest := () } }),
    ("R1-console", { definition := { networkMode := "container:R1", rest := () } })]
  links := [{ endpoints := [.scalar "R1:eth1", .scalar "Client:eth1"] },
    { endpoints := [.scalar "Client:eth2",
      .mapping [("node", .text "host"), ("interface", .text "ens5")]] }]

def sampleInput : Input Unit Unit where
  name := "lab"
  resources := GoMap.ofEntries [("Client", ())]
  statusProbes := { excludedNodes := ["R1"] }
  shared := ()

theorem sample_names_free : NamesFree lowerCaseNames sampleInput sampleDefinition := by
  intro renames hrenames
  have hnames : sampleDefinition.nodes.keys = ["Client", "R1", "R1-console"] := by decide +kernel
  have hcompiled : ∀ name ∈ ["Client", "R1", "R1-console"],
      compiledName renames name = lowerCase name :=
    fun name hname => compiledName_of_lowerCase hrenames (hnames ▸ hname)
  constructor
  · have hends : ∀ wire ∈ sampleDefinition.links.filterMap SourceLink.wire,
        ∀ e ∈ [wire.endA.target, wire.endB.target], e = .outside ∨ e = .node "R1" ∨
          e = .node "Client" := by decide +kernel
    intro wire hwire name hname
    have hname : name = "R1" ∨ name = "Client" := by
      simpa [or_imp] using hends wire hwire (.node name)
        (by rcases hname with hname | hname <;> simp [hname])
    rcases hname with rfl | rfl
    · rw [hcompiled _ (by decide)]
      decide
    · rw [hcompiled _ (by decide)]
      decide
  · intro name hname other hsame
    refine ⟨fun configuration hother => absurd hother (by simp [sampleInput]), fun hother => ?_⟩
    obtain rfl : other = "R1" := mem_singleton.mp hother
    rw [← ExtTreeMap.mem_keys, hnames] at hname
    rw [hcompiled _ (by decide), hcompiled name hname] at hsame
    have hlower : ∀ a ∈ ["Client", "R1", "R1-console"], lowerCase "R1" = lowerCase a →
        a ∈ ["R1"] := by decide
    exact hlower name hname hsame

theorem sample_compiles : ∃ compiled,
    compileContainerlabDefinition lowerCaseNames (fun _ => 0) sampleDefinition = .ok compiled := by
  decide +kernel

theorem sample_graph_eq_map :
    ∃ compiled, compileContainerlabDefinition lowerCaseNames (fun _ => 0) sampleDefinition =
        .ok compiled ∧
      ∀ order, ∃ rename : String → String, Set.InjOn rename {name | name ∈ sampleDefinition.nodes} ∧
        renderedGraph plainRendering order sampleInput compiled =
          (sourceGraph lowerCaseNames plainRendering sampleInput sampleDefinition).map rename := by
  obtain ⟨compiled, hcompiled⟩ := sample_compiles
  exact ⟨compiled, hcompiled, (rendered_graph_eq_map lowerCaseNames_lawful plainRendering
    (fun _ => 0) sampleInput hcompiled).2.2.mpr sample_names_free⟩

def bothNames (first second : ℤ) : Input Unit Unit where
  name := "lab"
  statusProbes :=
    { nodeProbeConfigurations := GoMap.ofEntries
        [("R1", { startupSeconds := first }), ("r1", { startupSeconds := second })] }
  shared := ()

theorem both_names_alike :
    ∃ compiled, compileContainerlabDefinition lowerCaseNames (fun _ => 0) sampleDefinition =
        .ok compiled ∧
      ∀ order order', compiledStatusProbes order (bothNames 60 60) compiled =
        compiledStatusProbes order' (bothNames 60 60) compiled := by
  obtain ⟨compiled, hcompiled⟩ := sample_compiles
  refine ⟨compiled, hcompiled, (status_probes_eq_iff lowerCaseNames_lawful _ hcompiled
    hcompiled).mpr ?_⟩
  have hone : ∀ a ∈ ["R1", "r1"], (bothNames 60 60).statusProbes.nodeProbeConfigurations[a]? =
      some { startupSeconds := 60 } := by decide +kernel
  have hkey : ∀ a ∈ (bothNames 60 60).statusProbes.nodeProbeConfigurations, a ∈ ["R1", "r1"] :=
    fun a ha => by simpa using mem_ofList.mp ha
  exact fun _ _ a ha b hb _ => (hone a (hkey a ha)).trans (hone b (hkey b hb)).symm

/-- Of two configurations for one node the one visited last is rendered. -/
theorem both_names_differ :
    lowerCaseNames.Lawful ∧ ∃ compiled,
      compileContainerlabDefinition lowerCaseNames (fun _ => 0) sampleDefinition = .ok compiled ∧
      compiledStatusProbes (fun name => if name = "R1" then 1 else 0) (bothNames 60 90) compiled ≠
        compiledStatusProbes (fun name => if name = "r1" then 1 else 0) (bothNames 60 90)
          compiled := by
  obtain ⟨compiled, hcompiled, hne⟩ : ∃ compiled,
      compileContainerlabDefinition lowerCaseNames (fun _ => 0) sampleDefinition = .ok compiled ∧
        (compiledStatusProbes (fun name => if name = "R1" then 1 else 0) (bothNames 60 90)
          compiled).nodeProbeConfigurations["r1"]? ≠
        (compiledStatusProbes (fun name => if name = "r1" then 1 else 0) (bothNames 60 90)
          compiled).nodeProbeConfigurations["r1"]? := by
    decide +kernel
  exact ⟨lowerCaseNames_lawful, compiled, hcompiled, fun heq => hne (heq ▸ rfl)⟩

def hostDefinition : SourceDefinition Unit where
  nodes := GoMap.ofEntries [("Host", { definition := { rest := () } }),
    ("r1", { definition := { rest := () } })]
  links := [{ endpoints := [.scalar "Host:eth1", .scalar "r1:eth1"] }]

/-- The node is renamed to the reserved name, so its end of the link becomes one on the host. -/
theorem host_name_taken :
    lowerCaseNames.Lawful ∧ ∃ compiled,
      compileContainerlabDefinition lowerCaseNames (fun _ => 0) hostDefinition = .ok compiled ∧
      ¬∃ rename : String → String,
        renderedGraph plainRendering (fun _ => 0) { name := "lab", shared := () } compiled =
          (sourceGraph lowerCaseNames plainRendering { name := "lab", shared := () }
            hostDefinition).map rename := by
  obtain ⟨compiled, hcompiled, hlinks⟩ : ∃ compiled,
      compileContainerlabDefinition lowerCaseNames (fun _ => 0) hostDefinition = .ok compiled ∧
        compiled.links = [⟨⟨"host", "eth1"⟩, ⟨"r1", "eth1"⟩, 0⟩] := by
    decide +kernel
  refine ⟨lowerCaseNames_lawful, compiled, hcompiled, ?_⟩
  rintro ⟨rename, hgraph⟩
  have hsource : hostDefinition.links.filterMap SourceLink.wire =
      [⟨⟨.node "Host", "eth1"⟩, ⟨.node "r1", "eth1"⟩, 0⟩] := by decide +kernel
  have hwires := congrArg Graph.wires hgraph
  simp [renderedGraph, sourceGraph, Base.Graph.map, renderLinks, hlinks, hsource,
    RenderedLink.wire, Wire.map, WireEnd.map, Target.map, target, linkHostNodeName] at hwires

end Clabernetes.Compiler
