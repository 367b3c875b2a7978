import Clabernetes.Base.Chains
import Clabernetes.Links.Endpoints

/-!
# Workload groups

The Node whose Pod hosts another Node (`util/containerlab/grouping.go:26-77`) is the end of a chain
of network modes, if no chain comes back. A Node that refers to itself ends a chain; the walk
returns on longer cycles too, but where depends on where it started.
-/

namespace Clabernetes.Links

open Base Relation Std

def sharesWith (nodes : Nodes) (name : String) : Option String :=
  match nodes[name]? with
  | none => none
  | some node =>
    let primary := parseNetworkModeContainer node.networkMode
    if primary = "" then none else some primary

variable {nodes : Nodes} {name : String} {seen : List String} {primary current : String}

theorem sharesWith_eq_some :
    sharesWith nodes name = some primary ↔ ∃ node, nodes[name]? = some node ∧
      parseNetworkModeContainer node.networkMode = primary ∧ primary ≠ "" := by
  unfold sharesWith
  cases nodes[name]? with
  | none => simp
  | some node =>
    by_cases hempty : parseNetworkModeContainer node.networkMode = ""
    · simp [hempty]
    · simp only [hempty, ↓reduceIte, Option.some.injEq, exists_eq_left']
      constructor
      · rintro rfl
        exact ⟨rfl, hempty⟩
      · exact fun h => h.1

theorem sharesWith_eq_none {node : Node} (hnode : nodes[name]? = some node) :
    sharesWith nodes name = none ↔ parseNetworkModeContainer node.networkMode = "" := by
  simp [sharesWith, hnode]

/-- The loop of `grouping.go:34-53` returns `result` from a state: a derivation is a run of it. -/
inductive Returns (nodes : Nodes) : List String → String → String → Prop where
  | missing {seen : List String} {current : String} (hnode : nodes[current]? = none) :
      Returns nodes seen current current
  | primary {seen : List String} {current : String} {node : Node}
      (hnode : nodes[current]? = some node)
      (hempty : parseNetworkModeContainer node.networkMode = "") :
      Returns nodes seen current current
  | cycle {seen : List String} {current : String} {node : Node}
      (hnode : nodes[current]? = some node)
      (hne : parseNetworkModeContainer node.networkMode ≠ "")
      (hseen : parseNetworkModeContainer node.networkMode ∈ seen) :
      Returns nodes seen current current
  | step {seen : List String} {current result : String} {node : Node}
      (hnode : nodes[current]? = some node)
      (hne : parseNetworkModeContainer node.networkMode ≠ "")
      (hseen : parseNetworkModeContainer node.networkMode ∉ seen)
      (hrest : Returns nodes (current :: seen) (parseNetworkModeContainer node.networkMode)
        result) :
      Returns nodes seen current result

theorem returns_walkPrimary {fuel : ℕ} (hfuel : walkMeasure nodes seen current < fuel) :
    Returns nodes seen current (walkPrimary nodes fuel seen current) := by
  induction fuel generalizing seen current with
  | zero => omega
  | succ fuel ih =>
    rw [walkPrimary]
    cases hnode : nodes[current]? with
    | none => exact .missing hnode
    | some node =>
      have hcurrent : current ∈ nodes := ExtTreeMap.mem_iff_isSome_getElem?.mpr (by simp [hnode])
      dsimp only
      split
      · next hempty => exact .primary hnode hempty
      · next hempty =>
        by_cases hseen : parseNetworkModeContainer node.networkMode ∈ seen
        · rw [if_pos hseen]
          exact .cycle hnode hempty hseen
        · rw [if_neg hseen]
          have hlt := walkMeasure_lt hcurrent hseen
          exact .step hnode hempty hseen (ih (by omega))

theorem returns_resolvePrimaryNode (nodes : Nodes) (name : String) :
    Returns nodes [] name (resolvePrimaryNode nodes name) :=
  returns_walkPrimary (walkMeasure_lt_bound nodes name)

section

variable (hcycles : OnlySelfCycles (sharesWith nodes))

include hcycles

theorem Returns.ends {result : String} (h : Returns nodes seen current result)
    (hseen : ∀ a ∈ seen, a = current ∨ TransGen (Follows (proper (sharesWith nodes))) a current) :
    Ends (proper (sharesWith nodes)) current result := by
  induction h with
  | missing hnode => exact ends_self (proper_eq_none.mpr (.inl (by simp [sharesWith, hnode])))
  | primary hnode hempty =>
    exact ends_self (proper_eq_none.mpr (.inl ((sharesWith_eq_none hnode).mpr hempty)))
  | @cycle seen current node hnode hne hmem =>
    have hstep : sharesWith nodes current = some (parseNetworkModeContainer node.networkMode) :=
      sharesWith_eq_some.mpr ⟨node, hnode, rfl, hne⟩
    by_cases hself : parseNetworkModeContainer node.networkMode = current
    · rw [hself] at hstep
      exact ends_self (proper_eq_none.mpr (.inr hstep))
    · have hback := (hseen _ hmem).resolve_left hself
      exact absurd (hback.tail (proper_eq_some.mpr ⟨hstep, hself⟩))
        (hcycles.acyclic_proper _)
  | @step seen current result node hnode hne hnew hrest ih =>
    have hstep : sharesWith nodes current = some (parseNetworkModeContainer node.networkMode) :=
      sharesWith_eq_some.mpr ⟨node, hnode, rfl, hne⟩
    by_cases hself : parseNetworkModeContainer node.networkMode = current
    · rw [hself] at ih
      apply ih
      intro a ha
      rcases List.mem_cons.mp ha with rfl | ha
      · exact .inl rfl
      · exact hseen a ha
    · have hproper := proper_eq_some.mpr ⟨hstep, hself⟩
      apply Ends.cons hproper
      apply ih
      intro a ha
      rcases List.mem_cons.mp ha with rfl | ha
      · exact .inr (.single hproper)
      · rcases hseen a ha with rfl | hpath
        · exact .inr (.single hproper)
        · exact .inr (hpath.tail hproper)

theorem ends_proper_resolvePrimaryNode (name : String) :
    Ends (proper (sharesWith nodes)) name (resolvePrimaryNode nodes name) :=
  (returns_resolvePrimaryNode nodes name).ends hcycles (by simp)

theorem resolvePrimaryNode_idem (name : String) :
    resolvePrimaryNode nodes (resolvePrimaryNode nodes name) = resolvePrimaryNode nodes name :=
  (ends_proper_resolvePrimaryNode hcycles _).unique
    (ends_proper_resolvePrimaryNode hcycles name).idem

end

theorem ends_resolvePrimaryNode (hacyclic : Acyclic (sharesWith nodes)) (name : String) :
    Ends (sharesWith nodes) name (resolvePrimaryNode nodes name) := by
  have hends := ends_proper_resolvePrimaryNode hacyclic.onlySelfCycles name
  rwa [hacyclic.proper_eq] at hends

theorem resolvePrimaryNode_eq_iff (hacyclic : Acyclic (sharesWith nodes)) :
    resolvePrimaryNode nodes name = primary ↔ Ends (sharesWith nodes) name primary := by
  constructor
  · rintro rfl
    exact ends_resolvePrimaryNode hacyclic name
  · exact (ends_resolvePrimaryNode hacyclic name).unique

end Clabernetes.Links
