import Clabernetes.Compiler.Names

/-!
# Rendered objects

The parts of `compiler/render.go` and `compiler/input.go` that depend on node names. What every
object of a topology carries alike is one value of the input; resource requirements, names that end
in a digest and the JSON forms are left to the libraries.
-/

namespace Clabernetes.Compiler

open Base Links Std

structure FileFromConfigMap where
  filePath : String
  configMapName : String
  configMapPath : String := ""
  mode : String := ""
  deriving DecidableEq

structure FileFromSecret where
  filePath : String
  secretName : String
  secretPath : String := ""
  mode : String := ""
  deriving DecidableEq

structure FileFromURL where
  filePath : String
  url : String
  digest : String := ""
  deriving DecidableEq

structure SSHProbeConfiguration where
  username : String
  password : String
  port : Int := 0
  deriving DecidableEq

/-- `input.go:94-101`; a TCP probe is its port. -/
structure ProbeConfiguration where
  startupSeconds : Int := 0
  sshProbeConfiguration : Option SSHProbeConfiguration := none
  tcpProbeConfiguration : Option Int := none
  deriving DecidableEq

/-- `input.go:82-91`; the switch and the default are part of what all objects share. -/
structure StatusProbes where
  excludedNodes : List String := []
  nodeProbeConfigurations : GoMap String ProbeConfiguration := ∅

/-- `ρ` are resource requirements and `σ` what does not depend on a node. -/
structure Input (ρ σ : Type) where
  name : String
  labels : GoMap String String := ∅
  filesFromConfigMap : GoMap String (List FileFromConfigMap) := ∅
  filesFromSecret : GoMap String (List FileFromSecret) := ∅
  filesFromURL : GoMap String (List FileFromURL) := ∅
  resources : GoMap String ρ := ∅
  statusProbes : StatusProbes := {}
  shared : σ

/-- What rendering uses of other packages, and the names that end in a digest;
`:272-313`. -/
structure RenderLibrary (ρ : Type) where
  safeConcatNameKubernetes : List String → String
  linkResourceName : Endpoint → Endpoint → String
  sameResources : ρ → ρ → Bool

def labelApp : String := "c9s.run/app"
def labelName : String := "c9s.run/name"
def labelOwner : String := "c9s.run/topologyOwner"
def labelKind : String := "c9s.run/topologyKind"
def labelNode : String := "c9s.run/topologyNode"
def labelGroup : String := "c9s.run/topologyGroup"
def labelAppValue : String := "clabernetes"

def topologyKindContainerlab : String := "containerlab"

def compilerOwnedLabel (key : String) (hasGroup : Bool) : Bool :=
  if key ∈ [labelApp, labelName, labelOwner, labelKind, labelNode] then true
  else if key = labelGroup then hasGroup
  else false

variable {ρ σ φ : Type}

def ownedObjectLabels (input : Input ρ σ) (name : String) : GoMap String String :=
  GoMap.ofEntries [(labelApp, labelAppValue), (labelName, name), (labelOwner, input.name),
    (labelKind, topologyKindContainerlab)] ∪
  input.labels.filter fun key _ => !compilerOwnedLabel key false

def nodeLabels (input : Input ρ σ) (nodeName : String) (definition : NodeDefinition φ) :
    GoMap String String :=
  let hasGroup := definition.group ≠ ""
  let labels := (ownedObjectLabels input nodeName ∪
    definition.labels.filter fun key _ => !compilerOwnedLabel key hasGroup).insert
      labelNode nodeName
  if hasGroup then labels.insert labelGroup definition.group else labels

def defaultResourceName : String := "default"

variable (library : RenderLibrary ρ)

def hasDistinctProfilePolicy (input : Input ρ σ) (nodeName : String) : Bool :=
  match input.resources[nodeName]?, input.resources[defaultResourceName]? with
  | none, _ => false
  | some _, none => true
  | some nodeResources, some defaultResources =>
    !library.sameResources nodeResources defaultResources

def nodeProfileNameForNode (input : Input ρ σ)
    (compiled : CompiledDefinition φ) (nodeName : String) : String :=
  if hasDistinctProfilePolicy library input (compiled.sourceNodeName nodeName) then
    library.safeConcatNameKubernetes [input.name, nodeName]
  else input.name

/-- A list that is absent and an empty one render alike. -/
structure RenderedNode (φ : Type) where
  name : String
  labels : GoMap String String
  definition : NodeDefinition φ
  profileRef : Option String
  filesFromConfigMap : List FileFromConfigMap
  filesFromSecret : List FileFromSecret
  filesFromURL : List FileFromURL
  appProtocols : List AppProtocol

def renderNode (input : Input ρ σ) (compiled : CompiledDefinition φ)
    (nodeName : String) (definition : NodeDefinition φ) : RenderedNode φ :=
  let sourceName := compiled.sourceNodeName nodeName
  let profileName := nodeProfileNameForNode library input compiled nodeName
  { name := nodeName
    labels := nodeLabels input nodeName definition
    definition
    profileRef := if profileName = "" then none else some profileName
    filesFromConfigMap := input.filesFromConfigMap[sourceName]?.getD []
    filesFromSecret := input.filesFromSecret[sourceName]?.getD []
    filesFromURL := input.filesFromURL[sourceName]?.getD []
    appProtocols := compiled.appProtocols[nodeName]?.getD [] }

def renderNodes (input : Input ρ σ) (compiled : CompiledDefinition φ) : List (RenderedNode φ) :=
  compiled.nodes.toList.map fun entry => renderNode library input compiled entry.1 entry.2

structure RenderedLink where
  name : String
  labels : GoMap String String
  endpointA : Endpoint
  endpointB : Endpoint
  mtu : Int

def renderLinks (input : Input ρ σ) (compiled : CompiledDefinition φ) : List RenderedLink :=
  let name (link : CompiledLink) := library.linkResourceName link.endpointA link.endpointB
  (compiled.links.mergeSort fun a b => decide (name a ≤ name b)).map fun link =>
    { name := name link
      labels := ownedObjectLabels input (name link)
      endpointA := link.endpointA
      endpointB := link.endpointB
      mtu := link.mtu }

variable (rank : String → ℕ)

def renameSourceToCompiled (compiled : CompiledDefinition φ) (sourceName : String) : String :=
  match (compiled.nodeNameSources.iterate rank).find? fun entry => entry.2 = sourceName with
  | some entry => entry.1
  | none => sourceName

def compiledStatusProbes (input : Input ρ σ) (compiled : CompiledDefinition φ) : StatusProbes where
  excludedNodes := input.statusProbes.excludedNodes.map (renameSourceToCompiled rank compiled)
  nodeProbeConfigurations :=
    input.statusProbes.nodeProbeConfigurations.rekey rank (renameSourceToCompiled rank compiled)

structure RenderedProfile (ρ σ : Type) where
  name : String
  labels : GoMap String String
  resources : Option ρ
  statusProbes : StatusProbes
  shared : σ

def renderTopologyNodeProfile (input : Input ρ σ)
    (compiled : CompiledDefinition φ) (profileName : String) : RenderedProfile ρ σ where
  name := profileName
  labels := ownedObjectLabels input profileName
  resources := input.resources[defaultResourceName]?
  statusProbes := compiledStatusProbes rank input compiled
  shared := input.shared

def renderDedicatedProfile (input : Input ρ σ)
    (compiled : CompiledDefinition φ) (nodeName : String) : RenderedProfile ρ σ :=
  let profile := renderTopologyNodeProfile rank input compiled
    (library.safeConcatNameKubernetes [input.name, nodeName])
  match input.resources[compiled.sourceNodeName nodeName]? with
  | none => profile
  | some resources => { profile with resources := some resources }

def perNodeNames (input : Input ρ σ) (compiled : CompiledDefinition φ) : List String :=
  compiled.nodes.keys.filter fun nodeName =>
    hasDistinctProfilePolicy library input (compiled.sourceNodeName nodeName)

def renderNodeProfiles (input : Input ρ σ)
    (compiled : CompiledDefinition φ) : List (RenderedProfile ρ σ) :=
  let names := perNodeNames library input compiled
  let sharedProfileNeeded := compiled.nodes.keys.any (· ∉ names)
  (if sharedProfileNeeded then [renderTopologyNodeProfile rank input compiled input.name]
    else []) ++ names.map (renderDedicatedProfile library rank input compiled)

section Rename

variable {library : NameLibrary} {rank order : String → ℕ} {renames : GoMap String String}
  {compiled : CompiledDefinition φ}

theorem renameSourceToCompiled_renameNodes (hrenames : Renames library compiled.nodes renames)
    (hnone : compiled.nodeNameSources = ∅) (name : String) :
    renameSourceToCompiled order (renameNodes rank renames compiled) name =
      compiledName renames name := by
  unfold renameSourceToCompiled
  split
  · rename_i entry hfound
    obtain ⟨newName, source⟩ := entry
    have hlookup := (GoMap.mem_iterate _ _ _ _).mp (List.mem_of_find?_eq_some hfound)
    have hsource : source = name := by simpa using List.find?_some hfound
    rw [lookup_nodeNameSources rank hrenames hnone, hsource] at hlookup
    simp [compiledName, hlookup]
  · rename_i hfound
    cases hnew : renames[name]? with
    | none => simp [compiledName, hnew]
    | some newName =>
      have hrecorded := (lookup_nodeNameSources rank hrenames hnone).mpr hnew
      have hother := List.find?_eq_none.mp hfound _ ((GoMap.mem_iterate order _ _ _).mpr hrecorded)
      simp at hother

end Rename

end Clabernetes.Compiler
