import Clabernetes.Base.Separated
import Clabernetes.Compiler.Renaming

/-!
# Names of Link resources and NodeProfiles

`compiler/render.go:245-313`: a Link is named by its two nodes and interfaces with dashes between
them, and a NodeProfile that is not shared by the topology and its node. Lower case of a character
and the hexadecimal SHA-256 of a text are left to a library; a name is cut by characters.
-/

namespace Clabernetes.Compiler

open Base Std List GoMap

variable {φ ρ σ : Type}

structure LinkNaming where
  /-- `unicode.ToLower`. -/
  lower : Char → Char
  /-- The hexadecimal digest of a text. -/
  digest : String → String

def nameMaxLen : ℕ := 63

def nameDigestLen : ℕ := 7

def isLinkNameChar (c : Char) : Bool := 'a' ≤ c && c ≤ 'z' || '0' ≤ c && c ≤ '9' || c = '-'

def trimDashes (text : List Char) : List Char :=
  ((text.dropWhile (· = '-')).reverse.dropWhile (· = '-')).reverse

namespace LinkNaming

variable (naming : LinkNaming)

def safeConcatNameKubernetes (names : List String) : String :=
  let finalName := (String.singleton '-').intercalate names
  if finalName.utf8ByteSize ≤ nameMaxLen then finalName
  else String.ofList (finalName.toList.take (nameMaxLen - 8)) ++ "-" ++
    String.ofList ((naming.digest finalName).toList.take nameDigestLen)

def sanitizeLinkNamePart (rawPart : String) : String :=
  let safe := trimDashes (rawPart.toList.map fun c =>
    if isLinkNameChar (naming.lower c) then naming.lower c else '-')
  let part := if safe = [] then "x" else String.ofList safe
  if part ≠ rawPart then
    part ++ "-" ++ String.ofList ((naming.digest rawPart).toList.take 8)
  else part

variable (endpointA endpointB : Endpoint)

def linkNameParts : List String :=
  [endpointA.nodeName, naming.sanitizeLinkNamePart endpointA.interfaceName,
    endpointB.nodeName, naming.sanitizeLinkNamePart endpointB.interfaceName]

def linkResourceName : String :=
  naming.safeConcatNameKubernetes (naming.linkNameParts endpointA endpointB)

def rendering (sameResources : ρ → ρ → Bool) : RenderLibrary ρ where
  safeConcatNameKubernetes := naming.safeConcatNameKubernetes
  linkResourceName := naming.linkResourceName
  sameResources := sameResources

def Fits : Prop :=
  ((String.singleton '-').intercalate (naming.linkNameParts endpointA endpointB)).utf8ByteSize ≤
    nameMaxLen

/-- The parts of the two names hold equally many dashes, one by one. -/
def SameDashes (a b a' b' : Endpoint) : Prop :=
  List.Forall₂ (fun part part' : String => part.toList.count '-' = part'.toList.count '-')
    (naming.linkNameParts a b) (naming.linkNameParts a' b')

instance (a b : Endpoint) : Decidable (naming.Fits a b) := inferInstanceAs (Decidable (_ ≤ _))

instance (a b a' b' : Endpoint) : Decidable (naming.SameDashes a b a' b') :=
  inferInstanceAs (Decidable (List.Forall₂ _ _ _))

theorem linkResourceName_of_fits {a b : Endpoint} (h : naming.Fits a b) :
    naming.linkResourceName a b =
      (String.singleton '-').intercalate (naming.linkNameParts a b) := by
  rw [linkResourceName, safeConcatNameKubernetes]
  exact if_pos h

theorem linkNameParts_eq {a b a' b' : Endpoint} (hfits : naming.Fits a b)
    (hfits' : naming.Fits a' b') (hdashes : naming.SameDashes a b a' b')
    (hname : naming.linkResourceName a b = naming.linkResourceName a' b') :
    naming.linkNameParts a b = naming.linkNameParts a' b' := by
  rw [linkResourceName_of_fits naming hfits, linkResourceName_of_fits naming hfits',
    ← String.toList_inj, toList_intercalate, toList_intercalate] at hname
  refine map_injective_iff.mpr (fun _ _ => String.toList_inj.mp) (joinWith_inj ?_ hname)
  rw [forall₂_map_left_iff, forall₂_map_right_iff]
  exact hdashes

end LinkNaming

theorem name_of_mem_renderLinks {naming : LinkNaming} {sameResources : ρ → ρ → Bool}
    {input : Input ρ σ} {compiled : CompiledDefinition φ} {link : RenderedLink}
    (h : link ∈ renderLinks (naming.rendering sameResources) input compiled) :
    link.name = naming.linkResourceName link.endpointA link.endpointB ∧
      ∃ source ∈ compiled.links,
        source.endpointA = link.endpointA ∧ source.endpointB = link.endpointB := by
  obtain ⟨source, hsource, rfl⟩ := mem_map.mp h
  exact ⟨rfl, source, mem_mergeSort.mp hsource, rfl, rfl⟩

def interfaceNames (links : List CompiledLink) : List String :=
  links.flatMap fun link => [link.endpointA.interfaceName, link.endpointB.interfaceName]

def InterfacesApart (naming : LinkNaming) (links : List CompiledLink) : Prop :=
  ∀ a ∈ interfaceNames links, ∀ b ∈ interfaceNames links,
    naming.sanitizeLinkNamePart a = naming.sanitizeLinkNamePart b → a = b

instance (naming : LinkNaming) (links : List CompiledLink) :
    Decidable (InterfacesApart naming links) :=
  inferInstanceAs (Decidable (∀ a ∈ _, ∀ b ∈ _, _ → _))

theorem mem_interfaceNames {links : List CompiledLink} {link : CompiledLink} (h : link ∈ links) :
    link.endpointA.interfaceName ∈ interfaceNames links ∧
      link.endpointB.interfaceName ∈ interfaceNames links :=
  ⟨mem_flatMap.mpr ⟨link, h, by simp⟩, mem_flatMap.mpr ⟨link, h, by simp⟩⟩

/-- Rendered Links with other endpoints have other names, if these fit, hold equally many dashes
part by part, and no two interfaces are written alike. -/
theorem link_names_distinct {naming : LinkNaming} {sameResources : ρ → ρ → Bool}
    {input : Input ρ σ} {compiled : CompiledDefinition φ}
    (hinterfaces : InterfacesApart naming compiled.links) {link link' : RenderedLink}
    (hlink : link ∈ renderLinks (naming.rendering sameResources) input compiled)
    (hlink' : link' ∈ renderLinks (naming.rendering sameResources) input compiled)
    (hfits : naming.Fits link.endpointA link.endpointB)
    (hfits' : naming.Fits link'.endpointA link'.endpointB)
    (hdashes : naming.SameDashes link.endpointA link.endpointB link'.endpointA link'.endpointB)
    (hends : (link.endpointA, link.endpointB) ≠ (link'.endpointA, link'.endpointB)) :
    link.name ≠ link'.name := by
  intro hname
  obtain ⟨hnamed, source, hsource, hA, hB⟩ := name_of_mem_renderLinks hlink
  obtain ⟨hnamed', source', hsource', hA', hB'⟩ := name_of_mem_renderLinks hlink'
  rw [hnamed, hnamed'] at hname
  have hparts := naming.linkNameParts_eq hfits hfits' hdashes hname
  simp only [LinkNaming.linkNameParts, List.cons.injEq, and_true] at hparts
  obtain ⟨hnodeA, hpartA, hnodeB, hpartB⟩ := hparts
  have hinterfaceA : link.endpointA.interfaceName = link'.endpointA.interfaceName :=
    hinterfaces _ (hA ▸ (mem_interfaceNames hsource).1) _ (hA' ▸ (mem_interfaceNames hsource').1)
      hpartA
  have hinterfaceB : link.endpointB.interfaceName = link'.endpointB.interfaceName :=
    hinterfaces _ (hB ▸ (mem_interfaceNames hsource).2) _ (hB' ▸ (mem_interfaceNames hsource').2)
      hpartB
  apply hends
  rw [Prod.mk.injEq, Endpoint.mk.injEq, Endpoint.mk.injEq]
  exact ⟨⟨hnodeA, hinterfaceA⟩, hnodeB, hinterfaceB⟩

def effectiveResources (input : Input ρ σ) (sourceName : String) : Option ρ :=
  input.resources[sourceName]?.or input.resources[defaultResourceName]?

/-- A profile has what is meant for the source of a node: its probes under the new name, the policy
of the topology, and the resources. -/
structure Serves (library : RenderLibrary ρ) (input : Input ρ σ) (compiled : CompiledDefinition φ)
    (nodeName : String) (profile : RenderedProfile ρ σ) : Prop where
  probes : SameProbes profile.statusProbes nodeName input.statusProbes
    (compiled.sourceNodeName nodeName)
  shared : profile.shared = input.shared
  resources : let effective := effectiveResources input (compiled.sourceNodeName nodeName)
    profile.resources = effective ∨ ∃ own ∈ effective, ∃ carried ∈ profile.resources,
      library.sameResources own carried = true

section Profiles

variable {library : RenderLibrary ρ} {order : String → ℕ} {input : Input ρ σ}
  {compiled : CompiledDefinition φ} {nodeName : String}

section

variable (hprobes : SameProbes (compiledStatusProbes order input compiled) nodeName
  input.statusProbes (compiled.sourceNodeName nodeName))
include hprobes

theorem serves_renderDedicatedProfile
    (h : hasDistinctProfilePolicy library input (compiled.sourceNodeName nodeName) = true) :
    Serves library input compiled nodeName
      (renderDedicatedProfile library order input compiled nodeName) := by
  unfold renderDedicatedProfile
  cases hown : input.resources[compiled.sourceNodeName nodeName]? with
  | none => simp [hasDistinctProfilePolicy, hown] at h
  | some own => exact ⟨hprobes, rfl, .inl (by simp [effectiveResources, hown])⟩

theorem serves_renderTopologyNodeProfile
    (h : hasDistinctProfilePolicy library input (compiled.sourceNodeName nodeName) = false) :
    Serves library input compiled nodeName
      (renderTopologyNodeProfile order input compiled input.name) := by
  refine ⟨hprobes, rfl, ?_⟩
  unfold hasDistinctProfilePolicy at h
  cases hown : input.resources[compiled.sourceNodeName nodeName]? with
  | none => exact .inl (by simp [effectiveResources, hown, renderTopologyNodeProfile])
  | some own =>
    cases hdefault : input.resources[defaultResourceName]? with
    | none => simp [hown, hdefault] at h
    | some resources =>
      rw [hown, hdefault] at h
      exact .inr ⟨own, by simp [effectiveResources, hown], resources, hdefault, by simpa using h⟩

end

theorem mem_perNodeNames : nodeName ∈ perNodeNames library input compiled ↔
    nodeName ∈ compiled.nodes ∧
      hasDistinctProfilePolicy library input (compiled.sourceNodeName nodeName) = true := by
  rw [perNodeNames, mem_filter, ExtTreeMap.mem_keys]

theorem renderDedicatedProfile_spec :
    (renderDedicatedProfile library order input compiled nodeName).name =
        library.safeConcatNameKubernetes [input.name, nodeName] ∧
      (renderDedicatedProfile library order input compiled nodeName).statusProbes =
        compiledStatusProbes order input compiled := by
  unfold renderDedicatedProfile
  split <;> exact ⟨rfl, rfl⟩

theorem sharedProfileNeeded_iff :
    compiled.nodes.keys.any (· ∉ perNodeNames library input compiled) = true ↔
      ∃ nodeName ∈ compiled.nodes,
        hasDistinctProfilePolicy library input (compiled.sourceNodeName nodeName) = false := by
  simp only [any_eq_true, decide_eq_true_eq, mem_perNodeNames, ExtTreeMap.mem_keys]
  exact exists_congr fun nodeName => and_congr_right fun h => by simp [h]

/-- What a Node refers to is rendered, and has what is meant for the Node if the probes are. -/
theorem exists_profile (hname : input.name ≠ "") (hfits : ∀ nodeName ∈ compiled.nodes,
      library.safeConcatNameKubernetes [input.name, nodeName] = input.name ++ "-" ++ nodeName)
    {node : RenderedNode φ} (hnode : node ∈ renderNodes library input compiled) :
    ∃ profile ∈ renderNodeProfiles library order input compiled,
      node.profileRef = some profile.name ∧
      (Serves library input compiled node.name profile ↔
        SameProbes (compiledStatusProbes order input compiled) node.name input.statusProbes
          (compiled.sourceNodeName node.name)) := by
  obtain ⟨⟨nodeName, definition⟩, hentry, rfl⟩ := mem_map.mp hnode
  have hkey : nodeName ∈ compiled.nodes :=
    mem_of_lookup (ExtTreeMap.mem_toList_iff_getElem?_eq_some.mp hentry)
  cases hpolicy : hasDistinctProfilePolicy library input (compiled.sourceNodeName nodeName) with
  | true =>
    refine ⟨_, mem_append_right _ (mem_map_of_mem (mem_perNodeNames.mpr ⟨hkey, hpolicy⟩)), ?_,
      fun h => renderDedicatedProfile_spec.2 ▸ h.probes,
      fun hprobes => serves_renderDedicatedProfile hprobes hpolicy⟩
    simp [renderNode, nodeProfileNameForNode, hpolicy, renderDedicatedProfile_spec,
      hfits nodeName hkey]
  | false =>
    refine ⟨_, mem_append_left _ ?_, ?_, fun h => h.probes,
      fun hprobes => serves_renderTopologyNodeProfile hprobes hpolicy⟩
    · rw [if_pos (sharedProfileNeeded_iff.mpr ⟨nodeName, hkey, hpolicy⟩)]
      exact mem_singleton_self _
    · simp [renderNode, nodeProfileNameForNode, hpolicy, hname, renderTopologyNodeProfile]

/-- The probe policy says of every node nothing more under another name that becomes its new one. -/
def ProbesKept (names : NameLibrary) (input : Input ρ σ) (source : SourceDefinition φ) : Prop :=
  ∀ renames, nodeNameRenames names (compileNodes source).nodes = .ok renames →
    ∀ name ∈ source.nodes, ProbesOwn renames input.statusProbes name

end Profiles

def plainNaming : LinkNaming where
  lower := Char.toLower
  digest := id

def linkedDefinition (nodes : List String) (links : List (String × String)) :
    SourceDefinition Unit where
  nodes := GoMap.ofEntries (nodes.map fun node => (node, { definition := { rest := () } }))
  links := links.map fun link => { endpoints := [.scalar link.1, .scalar link.2] }

/-- Two links between two routers. -/
theorem parallel_names_distinct : ∃ compiled,
    compileContainerlabDefinition lowerCaseNames (fun _ => 0)
        (linkedDefinition ["R1", "R2"] [("R1:Gi0/1", "R2:Gi0/1"), ("R1:Gi0/2", "R2:Gi0/2")]) =
        .ok compiled ∧
      compiled.links.length = 2 ∧
      ∀ link ∈ renderLinks (plainNaming.rendering fun _ _ => true) sampleInput compiled,
        ∀ link' ∈ renderLinks (plainNaming.rendering fun _ _ => true) sampleInput compiled,
          (link.endpointA, link.endpointB) ≠ (link'.endpointA, link'.endpointB) →
            link.name ≠ link'.name := by
  obtain ⟨compiled, hcompiled, hlength, hinterfaces, hlinks⟩ : ∃ compiled,
      compileContainerlabDefinition lowerCaseNames (fun _ => 0)
        (linkedDefinition ["R1", "R2"] [("R1:Gi0/1", "R2:Gi0/1"), ("R1:Gi0/2", "R2:Gi0/2")]) =
        .ok compiled ∧ compiled.links.length = 2 ∧ InterfacesApart plainNaming compiled.links ∧
      ∀ link ∈ compiled.links, ∀ link' ∈ compiled.links,
        plainNaming.Fits link.endpointA link.endpointB ∧
        plainNaming.SameDashes link.endpointA link.endpointB link'.endpointA link'.endpointB := by
    decide +kernel
  refine ⟨compiled, hcompiled, hlength, fun link hlink link' hlink' hends => ?_⟩
  obtain ⟨-, source, hsource, hA, hB⟩ := name_of_mem_renderLinks hlink
  obtain ⟨-, source', hsource', hA', hB'⟩ := name_of_mem_renderLinks hlink'
  obtain ⟨hfits, hdashes⟩ := hlinks source hsource source' hsource'
  obtain ⟨hfits', -⟩ := hlinks source' hsource' source' hsource'
  rw [hA, hB] at hfits hdashes
  rw [hA', hB'] at hfits' hdashes
  exact link_names_distinct hinterfaces hlink hlink' hfits hfits' hdashes hends

/-- Two links without a common endpoint that are rendered under one name. -/
theorem links_share_name : ∃ compiled,
    compileContainerlabDefinition lowerCaseNames (fun _ => 0)
        (linkedDefinition ["r1", "r1-eth1", "r2", "eth1-r2"]
          [("r1-eth1:eth1", "r2:eth1"), ("r1:eth1", "eth1-r2:eth1")]) = .ok compiled ∧
      ∃ link ∈ renderLinks (plainNaming.rendering fun _ _ => true) sampleInput compiled,
        ∃ link' ∈ renderLinks (plainNaming.rendering fun _ _ => true) sampleInput compiled,
          plainNaming.Fits link.endpointA link.endpointB ∧
          plainNaming.Fits link'.endpointA link'.endpointB ∧
          link.endpointA ≠ link'.endpointA ∧ link.endpointA ≠ link'.endpointB ∧
          link.name = "r1-eth1-eth1-r2-eth1" ∧ link'.name = "r1-eth1-eth1-r2-eth1" := by
  obtain ⟨compiled, hcompiled, hlinks⟩ : ∃ compiled,
      compileContainerlabDefinition lowerCaseNames (fun _ => 0)
        (linkedDefinition ["r1", "r1-eth1", "r2", "eth1-r2"]
          [("r1-eth1:eth1", "r2:eth1"), ("r1:eth1", "eth1-r2:eth1")]) = .ok compiled ∧
      compiled.links =
        [⟨⟨"r1-eth1", "eth1"⟩, ⟨"r2", "eth1"⟩, 0⟩, ⟨⟨"r1", "eth1"⟩, ⟨"eth1-r2", "eth1"⟩, 0⟩] := by
    decide +kernel
  refine ⟨compiled, hcompiled,
    _, mem_map_of_mem (mem_mergeSort.mpr (hlinks ▸ mem_cons_self)),
    _, mem_map_of_mem (mem_mergeSort.mpr
      (hlinks ▸ mem_cons_of_mem _ mem_cons_self)), ?_⟩
  decide +kernel

end Clabernetes.Compiler
