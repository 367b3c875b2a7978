import Clabernetes.Compiler.NetworkModes
import Clabernetes.Compiler.Renaming

/-!
# Nodes and Pods at startup

The fields of Nodes and Pods that startup admission reads or writes, the newest Pod of a Node and
the workload groups of a set of Nodes.
-/

namespace Clabernetes.Startup

open Base Links Std Option GoMap

/-- A Node; `ignored` is the label of `constants/labels.go:84`, and the two annotations are those
of `constants/rollout.go`. A missing hold and an empty one are the same to every reader. -/
structure Node where
  namespaceName : String := ""
  name : String
  uid : String
  resourceVersion : ℕ := 0
  creationTimestamp : ℕ := 0
  deleting : Bool := false
  ignored : Bool := false
  ownerUIDs : List String := []
  networkMode : String := ""
  stopped : Bool := false
  startupHold : String := ""
  startupAdmitted : Option String := none
  deriving DecidableEq

structure PodCondition where
  type : String
  status : ConditionStatus
  deriving DecidableEq

/-- A Pod; `nodeUID` is the annotation that names the Node it runs. -/
structure Pod where
  nodeUID : String := ""
  creationTimestamp : ℕ := 0
  deleting : Bool := false
  conditions : List PodCondition := []
  deriving DecidableEq

def podReadyToStartContainers : String := "PodReadyToStartContainers"

/-- `node/startupadmission.go:109-114`, and the same test of `topology/rollout.go:192-198`. -/
def startupSandboxReady (pod : Pod) : Bool :=
  pod.conditions.any fun condition =>
    condition.type == podReadyToStartContainers && condition.status == .conditionTrue

def keepNewest (newest : GoMap String Pod) (pod : Pod) : GoMap String Pod :=
  if pod.deleting then newest
  else
    match newest[pod.nodeUID]? with
    | none => newest.insert pod.nodeUID pod
    | some prior =>
      if prior.creationTimestamp < pod.creationTimestamp then newest.insert pod.nodeUID pod
      else newest

/-- `node/startupadmission.go:276-293`, and the same loop of `topology/rollout.go:180-190`. -/
def startupAdmissionPods (pods : List Pod) : GoMap String Pod := pods.foldl keepNewest ∅

def sandboxReady (pods : List Pod) (uid : String) : Bool :=
  (startupAdmissionPods pods)[uid]?.any startupSandboxReady

variable (nodes : GoMap String Node)

def grouping : Nodes :=
  nodes.map fun _ node => { uid := node.uid, networkMode := node.networkMode }

def resolvePrimaryNode (nodeName : String) : String :=
  Links.resolvePrimaryNode (grouping nodes) nodeName

def NoCycle : Prop := Acyclic (sharesWith (grouping nodes))

def Node.isPrimary (node : Node) : Bool := parseNetworkModeContainer node.networkMode == ""

variable {nodes : GoMap String Node}

variable {name : String}

theorem lookup_grouping : (grouping nodes)[name]? =
      nodes[name]?.map fun node => { uid := node.uid, networkMode := node.networkMode } := by
  simp [grouping]

variable {node : Node}

theorem sharesWith_grouping_eq_none (hnode : nodes[name]? = some node) :
    sharesWith (grouping nodes) name = none ↔ node.isPrimary = true := by
  rw [sharesWith_eq_none (by rw [lookup_grouping, hnode]; rfl), Node.isPrimary, beq_iff_eq]

theorem noCycle_of_flat (h : nodes.anyEntry (fun _ node =>
      nodes[parseNetworkModeContainer node.networkMode]?.any fun host => !host.isPrimary) =
        false) : NoCycle nodes := by
  apply acyclic_of_flat
  intro a b hab
  obtain ⟨hosted, hhosted, hparse, -⟩ := sharesWith_eq_some.mp hab
  rw [lookup_grouping, map_eq_some_iff] at hhosted
  obtain ⟨node, hnode, rfl⟩ := hhosted
  have hflat := (anyEntry_eq_false_iff _ _).mp h a node hnode
  rw [show parseNetworkModeContainer node.networkMode = b from hparse] at hflat
  cases hhost : nodes[b]? with
  | none => simp [sharesWith, lookup_grouping, hhost]
  | some host => exact (sharesWith_grouping_eq_none hhost).mpr (by simpa [hhost] using hflat)

theorem NoCycle.of_networkModes {nodes' : GoMap String Node} (h : NoCycle nodes)
    (hmodes : ∀ name : String, nodes'[name]?.map Node.networkMode =
      nodes[name]?.map Node.networkMode) : NoCycle nodes' := by
  have hsame : sharesWith (grouping nodes') = sharesWith (grouping nodes) := by
    ext name primary
    have hname := hmodes name
    rw [sharesWith_eq_some, sharesWith_eq_some, lookup_grouping, lookup_grouping]
    cases hnode : nodes[name]? with
    | none =>
      rw [hnode, map_none, map_eq_none_iff] at hname
      simp [hname]
    | some node =>
      rw [hnode, map_some, map_eq_some_iff] at hname
      obtain ⟨node', hnode', hmode⟩ := hname
      simp [hnode', hmode]
  rw [NoCycle, hsame]
  exact h

theorem resolvePrimaryNode_of_isPrimary (hnode : nodes[name]? = some node)
    (hprimary : node.isPrimary = true) : resolvePrimaryNode nodes name = name := by
  rw [Node.isPrimary, beq_iff_eq] at hprimary
  rw [resolvePrimaryNode, Links.resolvePrimaryNode, walkPrimary, lookup_grouping, hnode]
  exact if_pos hprimary

theorem isPrimary_of_resolvePrimaryNode (hcycle : NoCycle nodes) {primary : String}
    (hprimary : resolvePrimaryNode nodes name = primary) (hnode : nodes[primary]? = some node) :
    node.isPrimary = true :=
  (sharesWith_grouping_eq_none hnode).mp ((resolvePrimaryNode_eq_iff hcycle).mp hprimary).2

theorem resolvePrimaryNode_mono {nodes' : GoMap String Node} (hcycle : NoCycle nodes)
    (hcycle' : NoCycle nodes') (hle : ∀ (name : String) (node : Node), nodes[name]? = some node →
      ∃ node' : Node, nodes'[name]? = some node' ∧ node'.networkMode = node.networkMode)
    (hprimary : resolvePrimaryNode nodes name ∈ nodes) :
    resolvePrimaryNode nodes' name = resolvePrimaryNode nodes name := by
  have hends := ends_resolvePrimaryNode hcycle name
  apply (resolvePrimaryNode_eq_iff hcycle').mpr
  apply hends.mono
  · intro a b hab
    obtain ⟨node, hnode, hmode, hne⟩ := sharesWith_eq_some.mp hab
    rw [lookup_grouping, map_eq_some_iff] at hnode
    obtain ⟨before, hbefore, rfl⟩ := hnode
    obtain ⟨after, hafter, hsame⟩ := hle a before hbefore
    refine sharesWith_eq_some.mpr ⟨_, by rw [lookup_grouping, hafter]; rfl, ?_, hne⟩
    rw [← hmode]
    change parseNetworkModeContainer after.networkMode =
      parseNetworkModeContainer before.networkMode
    rw [hsame]
  · obtain ⟨before, hbefore⟩ :=
      exists_lookup hprimary
    obtain ⟨after, hafter, hsame⟩ := hle _ before hbefore
    have hnone := (sharesWith_grouping_eq_none hbefore).mp hends.2
    apply (sharesWith_grouping_eq_none hafter).mpr
    rw [Node.isPrimary, hsame]
    exact hnone

/-- The Nodes of a compiled topology have no cycle, however many of them are there. -/
theorem noCycle_of_compile {φ : Type} {library : Compiler.NameLibrary} (hlaws : library.Lawful)
    {rank : String → ℕ} {source : Compiler.SourceDefinition φ}
    {compiled : Compiler.CompiledDefinition φ}
    (hcompiled : Compiler.compileContainerlabDefinition library rank source = .ok compiled)
    (hmodes : ∀ (name : String) (node : Node), nodes[name]? = some node →
      ∃ definition, compiled.nodes[name]? = some definition ∧
        definition.networkMode = node.networkMode) : NoCycle nodes := by
  obtain ⟨renames, links, -, h⟩ := hlaws.compiles hcompiled
  have hacyclic := (Compiler.validateNodeNetworkModes_iff.mp
    (Compiler.networkModes_of_compile hcompiled)).acyclic
  refine hacyclic.of_lift (f := Compiler.compiledName renames) (p := (· ∈ source.nodes)) h.apart ?_
  intro a b hab
  obtain ⟨hosted, hhosted, hparse, hne⟩ := sharesWith_eq_some.mp hab
  rw [lookup_grouping, map_eq_some_iff] at hhosted
  obtain ⟨before, hbefore, rfl⟩ := hhosted
  obtain ⟨definition, hdefinition, hmode⟩ := hmodes a before hbefore
  obtain ⟨name, node, hnode, hname, rfl⟩ := h.lookup.mp hdefinition
  have hb : Compiler.compiledName renames
      (Compiler.parseNetworkModeContainer node.definition.networkMode) = b := by
    rw [← Compiler.primary_renamedDefinition, hmode, ← Compiler.parseNetworkModeContainer_eq]
    exact hparse
  have hprimary : Compiler.parseNetworkModeContainer node.definition.networkMode ≠ "" := by
    intro hempty
    rw [hempty, Compiler.compiledName, h.renamed.empty] at hb
    exact hne hb.symm
  have hmem : Compiler.parseNetworkModeContainer node.definition.networkMode ∈ source.nodes := by
    rcases h.primary hnode with hempty | ⟨-, hmem⟩
    · rw [hempty] at hprimary
      exact absurd Compiler.parseNetworkModeContainer_empty hprimary
    · exact hmem
  exact ⟨name, _, mem_of_lookup hnode, hmem, hname, hb,
    Compiler.reference_eq_some.mpr
      ⟨node.definition, by simp [Compiler.compileNodes, hnode], rfl, hprimary⟩⟩

theorem sample_noCycle : ∃ compiled, Compiler.compileContainerlabDefinition Compiler.lowerCaseNames
      (fun _ => 0) Compiler.sampleDefinition = .ok compiled ∧
    NoCycle (ExtTreeMap.map (fun name definition =>
      { name, uid := name, networkMode := definition.networkMode }) compiled.nodes) := by
  obtain ⟨compiled, hcompiled⟩ := Compiler.sample_compiles
  refine ⟨compiled, hcompiled, noCycle_of_compile Compiler.lowerCaseNames_lawful hcompiled ?_⟩
  intro name node hnode
  rw [ExtTreeMap.getElem?_map, map_eq_some_iff] at hnode
  obtain ⟨definition, hdefinition, rfl⟩ := hnode
  exact ⟨definition, hdefinition, rfl⟩

end Clabernetes.Startup
