import Clabernetes.Compiler.Names
import Clabernetes.Links.Grouping
import Mathlib.Data.List.Perm.Subperm

/-!
# Network modes at compile time and at run time

The validation of `compiler/compilecontainerlab.go:1225-1299` follows the references of each node
until it meets one again; the runtime (`util/containerlab/grouping.go:26-54`) walks the same
references to the primary of a Node. Both are compared with where the chain of references ends.
-/

namespace Clabernetes.Compiler

open Base Links Relation Std List Option ExtTreeMap

variable {φ : Type} {nodes : GoMap String (NodeDefinition φ)} {library : NameLibrary}
  {seen : List String} {name : String}

def reference (nodes : GoMap String (NodeDefinition φ)) (name : String) : Option String :=
  match nodes[name]? with
  | none => none
  | some definition =>
    let primary := parseNetworkModeContainer definition.networkMode
    if primary = "" then none else some primary

theorem reference_eq_some {primary : String} :
    reference nodes name = some primary ↔ ∃ definition, nodes[name]? = some definition ∧
      parseNetworkModeContainer definition.networkMode = primary ∧ primary ≠ "" := by
  unfold reference
  cases nodes[name]? with
  | none => simp
  | some definition =>
    by_cases hempty : parseNetworkModeContainer definition.networkMode = ""
    · simp only [hempty, ↓reduceIte, reduceCtorEq, some.injEq, exists_eq_left', false_iff]
      rintro ⟨rfl, hne⟩
      exact hne rfl
    · simp only [hempty, ↓reduceIte, some.injEq, exists_eq_left']
      constructor
      · rintro rfl
        exact ⟨rfl, hempty⟩
      · exact fun h => h.1

theorem reference_of_empty {definition : NodeDefinition φ} (hnode : nodes[name]? = some definition)
    (hempty : parseNetworkModeContainer definition.networkMode = "") :
    reference nodes name = none := by
  simp [reference, hnode, hempty]

/-- A network mode that c9s accepts: none, or a container of a node that is there, under a name that
can be carried. -/
def Supported (library : NameLibrary) (nodes : GoMap String (NodeDefinition φ))
    (networkMode : String) : Prop :=
  networkMode = "" ∨ parseNetworkModeContainer networkMode ≠ "" ∧
    library.sanitizeName (parseNetworkModeContainer networkMode) ≠ "" ∧
    parseNetworkModeContainer networkMode ∈ nodes

theorem networkModeDiagnostics_eq_nil {networkMode : String} :
    networkModeDiagnostics library nodes name networkMode = [] ↔
      Supported library nodes networkMode ∧ (networkMode ≠ "" →
        meetsCycle nodes (nodes.size + 1) [name] (parseNetworkModeContainer networkMode) =
          false) := by
  simp only [networkModeDiagnostics, Supported]
  by_cases hmode : networkMode = ""
  · simp [hmode]
  · rw [if_neg hmode]
    split
    · next hname =>
      simp only [hmode, reduceCtorEq, false_or, false_iff]
      rintro ⟨⟨hprimary, hsanitized, -⟩, -⟩
      exact hname.elim hprimary hsanitized
    · next hname =>
      rw [not_or] at hname
      by_cases hmem : parseNetworkModeContainer networkMode ∈ nodes
      · rw [if_neg (not_not_intro hmem)]
        simp [hmode, hname, hmem]
      · rw [if_pos hmem]
        simp [hmode, hmem]

theorem length_lt_of_nodup (hnodup : seen.Nodup) (hseen : ∀ name ∈ seen, name ∈ nodes) :
    seen.length ≤ nodes.size := by
  rw [← length_keys]
  apply List.Subperm.length_le
  exact subperm_of_subset hnodup fun name hname => ExtTreeMap.mem_keys.mpr (hseen name hname)

theorem exists_ends_of_meetsCycle {fuel : ℕ} {current : String}
    (h : meetsCycle nodes fuel seen current = false) (hnodup : seen.Nodup)
    (hseen : ∀ name ∈ seen, name ∈ nodes) (hfuel : nodes.size < fuel + seen.length)
    (hcurrent : current ≠ "") : ∃ last, Ends (reference nodes) current last := by
  induction fuel generalizing seen current with
  | zero =>
    have hlength := length_lt_of_nodup hnodup hseen
    omega
  | succ fuel ih =>
    rw [meetsCycle, if_neg hcurrent] at h
    split at h
    · cases h
    · next hnew =>
      cases hnode : nodes[current]? with
      | none => exact ⟨current, ends_self (by simp [reference, hnode])⟩
      | some definition =>
        rw [hnode] at h
        by_cases hempty : parseNetworkModeContainer definition.networkMode = ""
        · exact ⟨current, ends_self (reference_of_empty hnode hempty)⟩
        · have hmem : current ∈ nodes := mem_iff_isSome_getElem?.mpr (by simp [hnode])
          obtain ⟨last, hends⟩ := ih h (nodup_cons.mpr ⟨hnew, hnodup⟩)
            (forall_mem_cons.mpr ⟨hmem, hseen⟩) (by rw [length_cons]; omega) hempty
          exact ⟨last, hends.cons (reference_eq_some.mpr ⟨definition, hnode, rfl, hempty⟩)⟩

theorem meetsCycle_of_ends {fuel : ℕ} {current last : String}
    (h : Ends (reference nodes) current last)
    (hseen : ∀ name ∈ seen, TransGen (Follows (reference nodes)) name current) :
    meetsCycle nodes fuel seen current = false := by
  induction fuel generalizing seen current with
  | zero => rfl
  | succ fuel ih =>
    rw [meetsCycle]
    by_cases hempty : current = ""
    · rw [if_pos hempty]
    · have hnew : current ∉ seen := fun hmem => h.not_transGen (hseen current hmem)
      rw [if_neg hempty, if_neg hnew]
      cases hnode : nodes[current]? with
      | none => rfl
      | some definition =>
        dsimp only
        by_cases hmode : parseNetworkModeContainer definition.networkMode = ""
        · rw [hmode]
          cases fuel with
          | zero => rfl
          | succ fuel => rw [meetsCycle, if_pos rfl]
        · have hstep : reference nodes current =
              some (parseNetworkModeContainer definition.networkMode) :=
            reference_eq_some.mpr ⟨definition, hnode, rfl, hmode⟩
          apply ih (h.tail hstep)
          intro name hname
          rcases mem_cons.mp hname with rfl | hname
          · exact .single hstep
          · exact (hseen name hname).tail hstep

/-- Every network mode is supported, and every chain of references ends. -/
structure Groupable (library : NameLibrary) (nodes : GoMap String (NodeDefinition φ)) : Prop where
  supported : ∀ (name : String) (definition : NodeDefinition φ),
    nodes[name]? = some definition → Supported library nodes definition.networkMode
  ends : ∀ name ∈ nodes, ∃ last, Ends (reference nodes) name last

theorem validateNodeNetworkModes_eq_nil : validateNodeNetworkModes library nodes = [] ↔
      ∀ (name : String) (definition : NodeDefinition φ), nodes[name]? = some definition →
        networkModeDiagnostics library nodes name definition.networkMode = [] := by
  rw [validateNodeNetworkModes, flatMap_eq_nil_iff]
  constructor
  · intro h name definition hnode
    exact h (name, definition) (mem_toList_iff_getElem?_eq_some.mpr hnode)
  · rintro h ⟨name, definition⟩ hmem
    exact h name definition (mem_toList_iff_getElem?_eq_some.mp hmem)

theorem validateNodeNetworkModes_iff :
    validateNodeNetworkModes library nodes = [] ↔ Groupable library nodes := by
  rw [validateNodeNetworkModes_eq_nil]
  simp only [networkModeDiagnostics_eq_nil]
  constructor
  · intro h
    refine ⟨fun name definition hnode => (h name definition hnode).1, ?_⟩
    intro name hname
    obtain ⟨definition, hnode⟩ := isSome_iff_exists.mp
      (mem_iff_isSome_getElem?.mp hname)
    obtain ⟨hsupported, hcycle⟩ := h name definition hnode
    by_cases hempty : parseNetworkModeContainer definition.networkMode = ""
    · exact ⟨name, ends_self (reference_of_empty hnode hempty)⟩
    · have hmode : definition.networkMode ≠ "" := by
        intro hmode
        rw [hmode] at hempty
        exact hempty parseNetworkModeContainer_empty
      obtain ⟨last, hends⟩ := exists_ends_of_meetsCycle (hcycle hmode) (nodup_singleton name)
        (by simpa using hname) (by rw [length_singleton]; omega) hempty
      exact ⟨last, hends.cons (reference_eq_some.mpr ⟨definition, hnode, rfl, hempty⟩)⟩
  · intro h name definition hnode
    have hsupported := h.supported name definition hnode
    refine ⟨hsupported, fun hmode => ?_⟩
    obtain ⟨hne, -⟩ := hsupported.resolve_left hmode
    have hname : name ∈ nodes := mem_iff_isSome_getElem?.mpr (by simp [hnode])
    have hstep : reference nodes name = some (parseNetworkModeContainer definition.networkMode) :=
      reference_eq_some.mpr ⟨definition, hnode, rfl, hne⟩
    obtain ⟨last, hends⟩ := h.ends name hname
    apply meetsCycle_of_ends (hends.tail hstep)
    intro other hother
    rw [mem_singleton] at hother
    exact hother ▸ .single hstep

def runtimeNodes (uid : String → String) (nodes : GoMap String (NodeDefinition φ)) : Nodes :=
  nodes.map fun name definition => { uid := uid name, networkMode := definition.networkMode }

theorem parseNetworkModeContainer_eq (networkMode : String) :
    Links.parseNetworkModeContainer networkMode = parseNetworkModeContainer networkMode := by
  simp only [Links.parseNetworkModeContainer, parseNetworkModeContainer, isPrefixOf_iff_prefix]
  rfl

theorem sharesWith_runtimeNodes (uid : String → String) :
    sharesWith (runtimeNodes uid nodes) = reference nodes := by
  funext name
  rw [sharesWith, reference, runtimeNodes, ExtTreeMap.getElem?_map]
  cases nodes[name]? with
  | none => rfl
  | some definition => simp [parseNetworkModeContainer_eq]

theorem Groupable.acyclic (h : Groupable library nodes) : Acyclic (reference nodes) := by
  intro name hcycle
  obtain ⟨next, hstep, -⟩ := TransGen.head'_iff.mp hcycle
  obtain ⟨definition, hnode, -⟩ := reference_eq_some.mp hstep
  have hname : name ∈ nodes := mem_iff_isSome_getElem?.mpr (by simp [hnode])
  obtain ⟨last, hends⟩ := h.ends name hname
  exact hends.not_transGen hcycle

theorem Groupable.last (h : Groupable library nodes) {last : String} (hname : name ∈ nodes)
    (hends : Ends (reference nodes) name last) :
    ∃ definition, nodes[last]? = some definition ∧ definition.networkMode = "" := by
  have hchain : ∀ last, ReflTransGen (Follows (reference nodes)) name last → last ∈ nodes := by
    intro last hpath
    induction hpath with
    | refl => exact hname
    | tail _ hstep _ =>
      obtain ⟨definition, hnode, rfl, hne⟩ := reference_eq_some.mp hstep
      rcases h.supported _ definition hnode with hempty | ⟨-, -, hmem⟩
      · rw [hempty] at hne
        exact absurd parseNetworkModeContainer_empty hne
      · exact hmem
  obtain ⟨definition, hnode⟩ := isSome_iff_exists.mp
    (mem_iff_isSome_getElem?.mp (hchain last hends.1))
  refine ⟨definition, hnode, ?_⟩
  rcases h.supported last definition hnode with hempty | ⟨hne, -⟩
  · exact hempty
  · have hstep := reference_eq_some.mpr ⟨definition, hnode, rfl, hne⟩
    rw [hends.2] at hstep
    cases hstep

/-- Validation accepts exactly the network modes that name nodes which are there and lead to an end,
and the runtime resolves every node to that end. -/
theorem network_mode_validation (library : NameLibrary) (nodes : GoMap String (NodeDefinition φ)) :
    (validateNodeNetworkModes library nodes = [] ↔ Groupable library nodes) ∧
    (validateNodeNetworkModes library nodes = [] → ∀ uid : String → String, ∀ name ∈ nodes,
      Ends (reference nodes) name (resolvePrimaryNode (runtimeNodes uid nodes) name) ∧
        ∃ definition, nodes[resolvePrimaryNode (runtimeNodes uid nodes) name]? = some definition ∧
          definition.networkMode = "") := by
  refine ⟨validateNodeNetworkModes_iff, ?_⟩
  intro hvalid uid name hname
  have hgroupable := validateNodeNetworkModes_iff.mp hvalid
  have hacyclic : Acyclic (sharesWith (runtimeNodes uid nodes)) := by
    rw [sharesWith_runtimeNodes]
    exact hgroupable.acyclic
  have hends := ends_resolvePrimaryNode hacyclic name
  rw [sharesWith_runtimeNodes] at hends
  exact ⟨hends, hgroupable.last hname hends⟩

def plainNames : NameLibrary where
  sanitizeName := id
  sanitizeNodeNames _ := .ok ∅
  validLabelValue _ := true

def chainedNodes : GoMap String (NodeDefinition Unit) :=
  .ofEntries [("card", { networkMode := "container:slot", rest := () }),
    ("chassis", { rest := () }), ("slot", { networkMode := "container:chassis", rest := () })]

theorem chainedNodes_validation :
    validateNodeNetworkModes plainNames chainedNodes = [] ∧
      ∀ uid : String → String, ∀ name ∈ chainedNodes, Ends (reference chainedNodes) name
        (resolvePrimaryNode (runtimeNodes uid chainedNodes) name) := by
  have hvalid : validateNodeNetworkModes plainNames chainedNodes = [] := by decide +kernel
  exact ⟨hvalid, fun uid name hname =>
    ((network_mode_validation plainNames chainedNodes).2 hvalid uid name hname).1⟩

/-- A node in the namespace of the host has no container network mode, and is reported. -/
theorem host_mode_reported :
    reference (.ofEntries [("r1", ({ networkMode := "host", rest := () } : NodeDefinition Unit))])
        "r1" = none ∧
      (validateNodeNetworkModes plainNames (.ofEntries
        [("r1", ({ networkMode := "host", rest := () } : NodeDefinition Unit))])).map (·.code) =
        ["unsupported-network-mode"] := by
  decide +kernel

end Clabernetes.Compiler
