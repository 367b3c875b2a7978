import Clabernetes.Compiler.Renaming
import Clabernetes.Planning.PlanInput
import Mathlib.Data.List.Perm.Lattice

/-!
# Aliases and Service names

`compiler/compilecontainerlab.go:1416-1464` checks the aliases of a topology against its node names,
before `compiler/names.go:62-146` gives some nodes new names. Every Node becomes Services of its
name, of its name on the fabric and of its aliases (`controllers/node/service.go`).
-/

namespace Clabernetes.Compiler

open Base Links Planning Std List Option ExtTreeMap

variable {φ ρ σ : Type} {renames : GoMap String String}

/-- The loop of `:1427-1463` over the aliases with their nodes and indexes:
`owners` says what each taken name is, `problems` is Kubernetes' check of a Service name. -/
def checkAliases (problems : String → List String) :
    GoMap String String → List (String × ℕ × String) → List Diagnostic
  | _, [] => []
  | owners, (nodeName, index, aliasName) :: rest =>
    let path := "topology.nodes." ++ nodeName ++ ".aliases[" ++ toString index ++ "]"
    if problems aliasName ≠ [] then
      { code := "invalid-alias", path
        message := "node " ++ quoted nodeName ++ " alias " ++ quoted aliasName ++
          " cannot become a Kubernetes Service name: " ++ "; ".intercalate (problems aliasName) } ::
        checkAliases problems owners rest
    else
      match owners[aliasName]? with
      | some owner =>
        { code := "duplicate-alias", path
          message := "node " ++ quoted nodeName ++ " alias " ++ quoted aliasName ++
            " collides with " ++ owner } ::
          checkAliases problems owners rest
      | none =>
        let owner := "node " ++ quoted nodeName ++ " alias " ++ quoted aliasName
        checkAliases problems (owners.insert aliasName owner) rest

variable (aliases : φ → List String)

def declarations (nodes : GoMap String (NodeDefinition φ)) : List (String × ℕ × String) :=
  nodes.toList.flatMap fun entry =>
    (aliases entry.2.rest).zipIdx.map fun aliasName => (entry.1, aliasName.2, aliasName.1)

def validateNodeAliases (problems : String → List String) (aliases : φ → List String)
    (nodes : GoMap String (NodeDefinition φ)) : List Diagnostic :=
  checkAliases problems (nodes.map fun nodeName _ => "node " ++ quoted nodeName)
    (declarations aliases nodes)

def compileAliased (library : NameLibrary) (rank : String → ℕ) (problems : String → List String)
    (aliases : φ → List String) (source : SourceDefinition φ) :
    Except CompileError (CompiledDefinition φ) :=
  compileContainerlabDefinition library rank { source with
    diagnostics := source.diagnostics ++
      validateNodeAliases problems aliases (compileNodes source).nodes }

/-- The names of the Services of a Node: `controllers/node/service.go:76-97`, `:120-138` and, for
the Nodes that expose a port, `:145-190`. -/
def serviceNames (exposes : String → Bool) (node : RenderedNode φ) : List String :=
  fabricServiceName node.name :: (aliases node.definition.rest ++ [node.name].filter exposes)

def aliasesOf (nodes : GoMap String (NodeDefinition φ)) : List String :=
  nodes.toList.flatMap fun entry => aliases entry.2.rest

theorem map_declarations (nodes : GoMap String (NodeDefinition φ)) :
    (declarations aliases nodes).map (·.2.2) = aliasesOf aliases nodes := by
  rw [declarations, aliasesOf, map_flatMap]
  congr 1
  funext entry
  rw [List.map_map]
  exact zipIdx_map_fst 0 _

theorem checkAliases_eq_nil {problems : String → List String} {owners : GoMap String String}
    {declared : List (String × ℕ × String)} (h : checkAliases problems owners declared = []) :
    (declared.map (·.2.2)).Nodup ∧ ∀ aliasName ∈ declared.map (·.2.2), aliasName ∉ owners := by
  induction declared generalizing owners with
  | nil => simp
  | cons first rest ih =>
    obtain ⟨nodeName, index, aliasName⟩ := first
    rw [checkAliases] at h
    split_ifs at h
    cases howner : owners[aliasName]? with
    | some owner => simp [howner] at h
    | none =>
      rw [howner] at h
      obtain ⟨hnodup, hfree⟩ := ih h
      have halias : aliasName ∉ owners := by
        rw [mem_iff_isSome_getElem?, howner]
        simp
      rw [map_cons, nodup_cons]
      refine ⟨⟨fun hmem => hfree aliasName hmem (by simp), hnodup⟩, ?_⟩
      intro other hother
      rcases mem_cons.mp hother with rfl | hother
      · exact halias
      · exact fun htaken => hfree other hother (mem_insert.mpr (.inr htaken))

theorem warning_of_mem_checkAliases {problems : String → List String} {d : Diagnostic} :
    ∀ {owners : GoMap String String} {declared : List (String × ℕ × String)},
      d ∈ checkAliases problems owners declared → d.warning = false := by
  intro owners declared
  induction declared generalizing owners with
  | nil => simp [checkAliases]
  | cons first rest ih =>
    obtain ⟨nodeName, index, aliasName⟩ := first
    rw [checkAliases]
    split_ifs
    · rw [mem_cons]
      rintro (rfl | hd)
      · rfl
      · exact ih hd
    · cases owners[aliasName]? with
      | some owner =>
        rw [mem_cons]
        rintro (rfl | hd)
        · rfl
        · exact ih hd
      | none => exact ih

theorem diagnostics_of_compile {library : NameLibrary} {rank : String → ℕ}
    {source : SourceDefinition φ} {compiled : CompiledDefinition φ}
    (h : compileContainerlabDefinition library rank source = .ok compiled) :
    ∀ d ∈ source.diagnostics, d.warning = true := by
  obtain ⟨definitions, -, h⟩ := bind_eq_ok_iff.mp h
  obtain ⟨⟨links, linkDiagnostics⟩, -, h⟩ := bind_eq_ok_iff.mp h
  obtain ⟨hdiagnostics, -⟩ := bind_eq_ok.mp h
  intro d hd
  exact diagnosticsError_eq_ok.mp hdiagnostics d
    (mem_append_left _ (mem_append_left _ (mem_append_left _ hd)))

section Compiled

variable {library : NameLibrary} {rank : String → ℕ} {problems : String → List String}
  {aliases : φ → List String} {source : SourceDefinition φ} {compiled : CompiledDefinition φ}
  {links : List CompiledLink}

section

variable (h : compileAliased library rank problems aliases source = .ok compiled)

include h

theorem validateNodeAliases_of_compile :
    validateNodeAliases problems aliases (compileNodes source).nodes = [] :=
  eq_nil_of_warnings (fun _ => warning_of_mem_checkAliases)
    fun d hd => diagnostics_of_compile h d (mem_append_right _ hd)

theorem aliases_of_compile : (aliasesOf aliases (compileNodes source).nodes).Nodup ∧
      ∀ aliasName ∈ aliasesOf aliases (compileNodes source).nodes, aliasName ∉ source.nodes := by
  obtain ⟨hnodup, hfree⟩ := checkAliases_eq_nil (validateNodeAliases_of_compile h)
  rw [map_declarations] at hnodup hfree
  refine ⟨hnodup, fun aliasName halias hmem => hfree aliasName halias ?_⟩
  simpa [compileNodes] using hmem

end

theorem nodup_toList {β : Type} (m : GoMap String β) : m.toList.Nodup := by
  refine List.Nodup.of_map Prod.fst ?_
  rw [map_fst_toList_eq_keys]
  exact nodup_keys

section

variable (h : Compiles library rank source compiled renames links)

include h

theorem toList_nodes_perm :
    compiled.nodes.toList.Perm ((compileNodes source).nodes.toList.map fun entry =>
      (compiledName renames entry.1, renamedDefinition library renames entry.1 entry.2)) := by
  have hinj : ∀ a ∈ (compileNodes source).nodes.toList, ∀ b ∈ (compileNodes source).nodes.toList,
      compiledName renames a.1 = compiledName renames b.1 → a = b := by
    rintro ⟨a, x⟩ ha ⟨b, y⟩ hb hab
    rw [mem_toList_iff_getElem?_eq_some] at ha hb
    have hmem : ∀ {name definition}, (compileNodes source).nodes[name]? = some definition →
        name ∈ (beforeRenaming library source links).nodes := by
      intro name definition hname
      rw [mem_beforeRenaming]
      have : name ∈ (compileNodes source).nodes :=
        mem_iff_isSome_getElem?.mpr (by simp [hname])
      simpa [compileNodes] using this
    obtain rfl := h.renamed.apart a (hmem ha) b (hmem hb) hab
    rw [ha] at hb
    cases hb
    rfl
  rw [perm_ext_iff_of_nodup]
  · rintro ⟨name, definition⟩
    rw [mem_toList_iff_getElem?_eq_some, h.eq, lookup_nodes_renameNodes h.renamed, List.mem_map]
    simp only [beforeRenaming, ExtTreeMap.getElem?_map, map_eq_some_iff]
    constructor
    · rintro ⟨original, _, ⟨node, hnode, rfl⟩, hname, hdefinition⟩
      refine ⟨(original, node), ?_, ?_⟩
      · rwa [mem_toList_iff_getElem?_eq_some]
      · exact Prod.ext hname hdefinition
    · rintro ⟨⟨original, node⟩, hmem, hentry⟩
      cases hentry
      rw [mem_toList_iff_getElem?_eq_some] at hmem
      exact ⟨original, _, ⟨node, hmem, rfl⟩, rfl, rfl⟩
  · exact nodup_toList _
  · apply List.Nodup.map_on _ (nodup_toList _)
    intro a ha b hb hab
    exact hinj a ha b hb (congrArg Prod.fst hab)

theorem keys_nodes_perm :
    compiled.nodes.keys.Perm (source.nodes.keys.map (compiledName renames)) := by
  have hkeys : (compileNodes source).nodes.toList.map Prod.fst = source.nodes.keys := by
    rw [map_fst_toList_eq_keys]
    simp [compileNodes]
  have hperm := (toList_nodes_perm h).map Prod.fst
  rw [map_fst_toList_eq_keys, List.map_map] at hperm
  rw [← hkeys, List.map_map]
  exact hperm

theorem aliasesOf_perm :
    (aliasesOf aliases compiled.nodes).Perm (aliasesOf aliases (compileNodes source).nodes) := by
  have hrest : ∀ (name : String) (definition : NodeDefinition φ),
      (renamedDefinition library renames name definition).rest = definition.rest := by
    intro name definition
    unfold renamedDefinition renameNetworkModePrimary recordOriginalName
    split <;> split_ifs <;> rfl
  have hperm := (toList_nodes_perm h).flatMap_right fun entry => aliases entry.2.rest
  rw [flatMap_map] at hperm
  simpa only [hrest, aliasesOf] using hperm

end

def AliasesKept (library : NameLibrary) (aliases : φ → List String)
    (source : SourceDefinition φ) : Prop :=
  ∀ renames, nodeNameRenames library (compileNodes source).nodes = .ok renames →
    ∀ aliasName ∈ aliasesOf aliases (compileNodes source).nodes, ¬ Taken renames aliasName

/-- No node, under its compiled name, and no alias has the name of a Service on the fabric. -/
def FabricKept (library : NameLibrary) (aliases : φ → List String)
    (source : SourceDefinition φ) : Prop :=
  ∀ renames, nodeNameRenames library (compileNodes source).nodes = .ok renames →
    ∀ name ∈ source.nodes.keys.map (compiledName renames) ++
      aliasesOf aliases (compileNodes source).nodes, ∀ nodeName ∈ source.nodes,
        name ≠ fabricServiceName (compiledName renames nodeName)

theorem fabricServiceName_injective : Function.Injective fabricServiceName := by
  intro a b h
  rw [fabricServiceName, fabricServiceName, ← String.toList_inj, String.toList_append,
    String.toList_append] at h
  exact String.toList_inj.mp (append_cancel_right h)

theorem flatMap_serviceNames_perm (exposes : String → Bool) (nodes : List (RenderedNode φ)) :
    (nodes.flatMap (serviceNames aliases exposes)).Perm
      (nodes.map (fabricServiceName ·.name) ++
        (nodes.flatMap (aliases ·.definition.rest) ++ (nodes.map (·.name)).filter exposes)) := by
  have hexposed : nodes.flatMap (fun node => [node.name].filter exposes) =
      (nodes.map (·.name)).filter exposes := by
    rw [← flatMap_singleton' (nodes.map (·.name)), filter_flatMap, flatMap_map]
  rw [← hexposed]
  refine ((map_append_flatMap_perm nodes _ _).symm).trans (List.Perm.append_left _ ?_)
  exact (flatMap_append_perm nodes _ _).symm

/-- The names are distinct exactly where no alias is a name that a node is renamed to. -/
theorem nodup_names_iff (hlaws : library.Lawful)
    (hcompile : compileAliased library rank problems aliases source = .ok compiled)
    (hrenames : nodeNameRenames library (compileNodes source).nodes = .ok renames)
    (hcompiles : Compiles library rank source compiled renames links) :
    (source.nodes.keys.map (compiledName renames) ++
        aliasesOf aliases (compileNodes source).nodes).Nodup ↔
      AliasesKept library aliases source := by
  obtain ⟨hnodup, hfree⟩ := aliases_of_compile hcompile
  constructor
  · intro hnames renames' hrenames' aliasName halias htaken
    rw [hrenames] at hrenames'
    cases hrenames'
    obtain ⟨nodeName, hrenamed⟩ := htaken
    have hnode : nodeName ∈ source.nodes.keys := by
      simpa [sortedNodeNames, compileNodes] using
        (hlaws.renamed (mapError_eq_ok.mp hrenames) hrenamed).1
    refine (nodup_append.mp hnames).2.2 _ (List.mem_map_of_mem hnode) aliasName halias ?_
    rw [compiledName, hrenamed, getD_some]
  · intro hkept
    refine nodup_append.mpr ⟨(keys_nodes_perm hcompiles).nodup_iff.mp nodup_keys, hnodup, ?_⟩
    rintro _ hname aliasName halias rfl
    obtain ⟨nodeName, hnode, hcompiled⟩ := List.mem_map.mp hname
    cases hrenamed : renames[nodeName]? with
    | some newName =>
      rw [compiledName, hrenamed, getD_some] at hcompiled
      exact hkept renames hrenames _ halias ⟨nodeName, hcompiled ▸ hrenamed⟩
    | none =>
      rw [compiledName, hrenamed, getD_none] at hcompiled
      exact hfree _ halias (hcompiled ▸ ExtTreeMap.mem_keys.mp hnode)

/-- Node names and aliases are distinct exactly where no alias is a name that a node is renamed to,
and all Services exactly where besides none of them has the name of one on the fabric. -/
theorem compiled_names_distinct (hlaws : library.Lawful)
    (hcompile : compileAliased library rank problems aliases source = .ok compiled)
    (rendering : RenderLibrary ρ) (input : Input ρ σ) :
    ((compiled.nodes.keys ++ aliasesOf aliases compiled.nodes).Nodup ↔
      AliasesKept library aliases source) ∧
    ((∀ exposes : String → Bool, ((renderNodes rendering input compiled).flatMap
        (serviceNames aliases exposes)).Nodup) ↔
      AliasesKept library aliases source ∧ FabricKept library aliases source) := by
  obtain ⟨renames, links, hrenames, hcompiles⟩ := hlaws.compiles hcompile
  replace hcompiles : Compiles library rank source compiled renames links := { hcompiles with }
  replace hrenames : nodeNameRenames library (compileNodes source).nodes = .ok renames := hrenames
  have hkeys := keys_nodes_perm hcompiles
  have hperm : (compiled.nodes.keys ++ aliasesOf aliases compiled.nodes).Perm
      (source.nodes.keys.map (compiledName renames) ++
        aliasesOf aliases (compileNodes source).nodes) :=
    hkeys.append (aliasesOf_perm hcompiles)
  have hnames := hperm.nodup_iff.trans (nodup_names_iff hlaws hcompile hrenames hcompiles)
  have hrendered : (renderNodes rendering input compiled).map (·.name) = compiled.nodes.keys := by
    rw [renderNodes, List.map_map]
    exact map_fst_toList_eq_keys
  have hservices : ∀ exposes, ((renderNodes rendering input compiled).flatMap
      (serviceNames aliases exposes)).Nodup ↔ (compiled.nodes.keys.map fabricServiceName ++
        (aliasesOf aliases compiled.nodes ++ compiled.nodes.keys.filter exposes)).Nodup := by
    intro exposes
    have haliasesOf : (renderNodes rendering input compiled).flatMap (aliases ·.definition.rest) =
        aliasesOf aliases compiled.nodes := by
      rw [renderNodes, flatMap_map]
      rfl
    rw [(flatMap_serviceNames_perm exposes _).nodup_iff, haliasesOf, hrendered,
      show (renderNodes rendering input compiled).map (fabricServiceName ·.name) =
        compiled.nodes.keys.map fabricServiceName by rw [← hrendered, List.map_map]; rfl]
  refine ⟨hnames, fun hall => ?_, fun hkept exposes => ?_⟩
  · have hnodup := nodup_append.mp ((hservices fun _ => true).mp (hall _))
    rw [filter_true] at hnodup
    refine ⟨hnames.mp (perm_append_comm.nodup_iff.mp hnodup.2.1), ?_⟩
    intro renames' hrenames' name hname nodeName hnode
    rw [hrenames] at hrenames'
    cases hrenames'
    refine (hnodup.2.2 _ (List.mem_map_of_mem (hkeys.mem_iff.mpr
      (List.mem_map_of_mem (ExtTreeMap.mem_keys.mpr hnode)))) name ?_).symm
    exact perm_append_comm.mem_iff.mp (hperm.mem_iff.mpr hname)
  · refine (hservices exposes).mpr (nodup_append.mpr ⟨?_, ?_, ?_⟩)
    · exact List.Nodup.map fabricServiceName_injective nodup_keys
    · exact (perm_append_comm.nodup_iff.mp (hnames.mpr hkept.1)).sublist
        (List.Sublist.append_left filter_sublist _)
    · rintro _ hfabricName name hname rfl
      obtain ⟨compiledNode, hcompiledNode, rfl⟩ := List.mem_map.mp hfabricName
      obtain ⟨nodeName, hnode, rfl⟩ := List.mem_map.mp (hkeys.mem_iff.mp hcompiledNode)
      refine hkept.2 renames hrenames _ (hperm.mem_iff.mp ?_) nodeName
        (ExtTreeMap.mem_keys.mp hnode) rfl
      rcases mem_append.mp hname with halias | hexposed
      · exact mem_append_right _ halias
      · exact mem_append_left _ (List.mem_of_mem_filter hexposed)

end Compiled

/-- The labels that Kubernetes takes as Service names: letters in lower case, digits and dashes,
with a letter first and no dash last. -/
def labelProblems (label : String) : List String :=
  if label.toList.all (fun c => c.isLower || c.isDigit || c == '-') &&
      (label.toList.head?.any Char.isLower) && label.toList.getLast? != some '-' &&
      label.length ≤ 63 then []
  else ["a DNS-1035 label must consist of lower case alphanumeric characters or '-'"]

def aliasedDefinition (nodes : List (String × List String)) : SourceDefinition (List String) where
  nodes := GoMap.ofEntries (nodes.map fun node => (node.1, { definition := { rest := node.2 } }))
  links := []

theorem sample_names_distinct : ∃ compiled,
    compileAliased lowerCaseNames (fun _ => 0) labelProblems id
        (aliasedDefinition [("R1", ["edge", "gw"]), ("s1", ["spine"])]) = .ok compiled ∧
      (compiled.nodes.keys ++ aliasesOf id compiled.nodes).Nodup ∧
      ((renderNodes plainRendering sampleInput compiled).flatMap
        (serviceNames id fun _ => true)).Nodup := by
  let source := aliasedDefinition [("R1", ["edge", "gw"]), ("s1", ["spine"])]
  obtain ⟨compiled, hcompiled, hdistinct⟩ : ∃ compiled,
      compileAliased lowerCaseNames (fun _ => 0) labelProblems id source = .ok compiled ∧
        (compiled.nodes.keys ++ aliasesOf id compiled.nodes).Nodup := by
    decide +kernel
  obtain ⟨hnames, hservices⟩ := compiled_names_distinct lowerCaseNames_lawful hcompiled
    plainRendering sampleInput
  refine ⟨compiled, hcompiled, hdistinct, hservices.mpr ⟨hnames.mp hdistinct, ?_⟩ _⟩
  have hkeys : source.nodes.keys = ["R1", "s1"] := by decide +kernel
  have haliases : aliasesOf id (compileNodes source).nodes = ["edge", "gw", "spine"] := by
    decide +kernel
  have hapart : ∀ name ∈ ["R1", "s1"].map lowerCase ++ ["edge", "gw", "spine"],
      ∀ nodeName ∈ ["R1", "s1"], name ≠ fabricServiceName (lowerCase nodeName) := by decide
  intro renames hrenames name hname nodeName hnode
  rw [map_congr_left fun a ha => compiledName_of_lowerCase hrenames ha, haliases, hkeys] at hname
  rw [← ExtTreeMap.mem_keys] at hnode
  rw [compiledName_of_lowerCase hrenames hnode]
  exact hapart name hname nodeName (hkeys ▸ hnode)

/-- The alias of one node is the name that another is given, and an alias is the name of a node on
the fabric. -/
theorem alias_takes_compiled_name :
    (∃ compiled, compileAliased lowerCaseNames (fun _ => 0) labelProblems id
        (aliasedDefinition [("R1", []), ("s1", ["r1"])]) = .ok compiled ∧
      ¬ (compiled.nodes.keys ++ aliasesOf id compiled.nodes).Nodup) ∧
    (∃ compiled, compileAliased lowerCaseNames (fun _ => 0) labelProblems id
        (aliasedDefinition [("r1", []), ("s1", ["r1-wire"])]) = .ok compiled ∧
      (compiled.nodes.keys ++ aliasesOf id compiled.nodes).Nodup ∧
      ¬ ((renderNodes plainRendering sampleInput compiled).flatMap
        (serviceNames id fun _ => false)).Nodup) := by
  constructor <;> decide +kernel

end Clabernetes.Compiler
