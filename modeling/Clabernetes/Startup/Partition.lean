import Clabernetes.Planning.PlanInput
import Clabernetes.Startup.Rollout

/-!
# Groups are a partition

Every Node is hosted by one Pod and released with one startup group. The Pod of a Node is that of
its primary (`util/containerlab/grouping.go:26-77`), whose members are the Nodes of that primary.
This is a partition if the primary of a primary is itself, which longer cycles of network modes
break. Startup groups (`controllers/topology/rollout.go:209-220`) list the Nodes of a primary only,
so they are a partition in any case.
-/

namespace Clabernetes.Startup

open Base Links Planning Relation Std ExtTreeMap

variable {nodes : GoMap String Node} {name primary : String}

def podMembers (nodes : GoMap String Node) (primary : String) : List String :=
  resolveGroupMembers (grouping nodes) primary

def LeadsPod (nodes : GoMap String Node) (primary : String) : Prop :=
  ∃ name ∈ nodes, resolvePrimaryNode nodes name = primary

theorem mem_grouping : name ∈ grouping nodes ↔ name ∈ nodes := by
  rw [mem_iff_isSome_getElem?, lookup_grouping, Option.isSome_map, mem_iff_isSome_getElem?]

theorem mem_podMembers : name ∈ podMembers nodes primary ↔
      name = primary ∨ name ∈ nodes ∧ resolvePrimaryNode nodes name = primary := by
  rw [podMembers, resolveGroupMembers, List.mem_cons, List.mem_insertionSort, List.mem_filter,
    mem_keys, mem_grouping]
  simp only [Bool.and_eq_true, bne_iff_ne, ne_eq, beq_iff_eq]
  by_cases hname : name = primary
  · simp [hname]
  · simp [hname, resolvePrimaryNode]

theorem nodup_podMembers (primary : String) : (podMembers nodes primary).Nodup := by
  rw [podMembers, resolveGroupMembers, List.nodup_cons, (List.perm_insertionSort _ _).nodup_iff]
  constructor
  · simp [List.mem_insertionSort]
  · exact (nodup_keys).filter _

theorem mem_podMembers_primary (hname : name ∈ nodes) :
    name ∈ podMembers nodes (resolvePrimaryNode nodes name) :=
  mem_podMembers.mpr (.inr ⟨hname, rfl⟩)

theorem mem_or_eq_of_mem_podMembers {member : String} (h : member ∈ podMembers nodes primary) :
    member ∈ nodes ∨ member = primary ∧ primary ∉ nodes := by
  by_cases hmember : member ∈ nodes
  · exact .inl hmember
  · rcases mem_podMembers.mp h with rfl | ⟨hmem, -⟩
    · exact .inr ⟨rfl, hmember⟩
    · exact absurd hmem hmember

theorem eq_of_mem_podMembers (hcycles : OnlySelfCycles (sharesWith (grouping nodes)))
    (hprimary : LeadsPod nodes primary) (hname : name ∈ podMembers nodes primary) :
    primary = resolvePrimaryNode nodes name := by
  rcases mem_podMembers.mp hname with rfl | ⟨-, hsame⟩
  · obtain ⟨other, -, rfl⟩ := hprimary
    exact (resolvePrimaryNode_idem hcycles other).symm
  · exact hsame.symm

/-- Resolving a primary returns; if only Nodes that refer to themselves make cycles, every Node is
in the Pod, and in the startup group, of exactly one primary. -/
theorem workload_grouping_partition (nodes : GoMap String Node) :
    (∀ name, Returns (grouping nodes) [] name (resolvePrimaryNode nodes name)) ∧
    (OnlySelfCycles (sharesWith (grouping nodes)) →
      (∀ name, resolvePrimaryNode nodes (resolvePrimaryNode nodes name) =
        resolvePrimaryNode nodes name) ∧
      ∀ name ∈ nodes, ∃! primary : String,
        LeadsPod nodes primary ∧ name ∈ podMembers nodes primary) ∧
    (∀ primary, LeadsPod nodes primary → (podMembers nodes primary).Nodup ∧
      ∀ member ∈ podMembers nodes primary, member ∈ nodes ∨ member = primary ∧ primary ∉ nodes) ∧
    ∀ rank groups, startupGroups rank nodes = some groups →
      ∀ name : String, name ∈ nodes → ∃! primary : String, name ∈ groups[primary]?.getD [] := by
  refine ⟨fun name => returns_resolvePrimaryNode _ name, ?_, ?_, ?_⟩
  · intro hcycles
    refine ⟨fun name => resolvePrimaryNode_idem hcycles name, ?_⟩
    intro name hname
    refine ⟨resolvePrimaryNode nodes name, ⟨⟨name, hname, rfl⟩, mem_podMembers_primary hname⟩, ?_⟩
    rintro primary ⟨hprimary, hmember⟩
    exact eq_of_mem_podMembers hcycles hprimary hmember
  · intro primary _
    exact ⟨nodup_podMembers primary, fun member => mem_or_eq_of_mem_podMembers⟩
  · intro rank groups hgroups name hname
    have hgrouped := grouped_startupGroups hgroups
    refine ⟨resolvePrimaryNode nodes name, hgrouped.members.mpr ⟨hname, rfl⟩, ?_⟩
    intro primary hprimary
    exact (hgrouped.members.mp hprimary).2.symm

def nodeEntry (name uid networkMode : String) : String × Node := (name, { name, uid, networkMode })

def looseNodes : GoMap String Node :=
  .ofEntries [nodeEntry "leaf" "1" "container:spine", nodeEntry "self" "2" "container:self",
    nodeEntry "spine" "3" "", nodeEntry "stray" "4" "container:gone"]

theorem looseNodes_partition :
    OnlySelfCycles (sharesWith (grouping looseNodes)) ∧
      (∀ name ∈ looseNodes, ∃! primary : String,
        LeadsPod looseNodes primary ∧ name ∈ podMembers looseNodes primary) ∧
      podMembers looseNodes "spine" = ["spine", "leaf"] := by
  have hflat : ∀ name ∈ looseNodes.keys, (sharesWith (grouping looseNodes) name).all (fun target =>
      target = name ∨ sharesWith (grouping looseNodes) target = none) = true := by
    decide +kernel
  have hcycles : OnlySelfCycles (sharesWith (grouping looseNodes)) := by
    apply onlySelfCycles_of_flat
    intro name target hstep
    obtain ⟨node, hnode, -⟩ := sharesWith_eq_some.mp hstep
    have hmem : name ∈ looseNodes := by
      rw [← mem_grouping, mem_iff_isSome_getElem?, hnode]
      rfl
    have hall := hflat name (mem_keys.mpr hmem)
    rw [hstep] at hall
    simpa using hall
  exact ⟨hcycles, ((workload_grouping_partition looseNodes).2.1 hcycles).2, by decide +kernel⟩

def pairNodes : GoMap String Node :=
  .ofEntries [nodeEntry "a" "1" "container:b", nodeEntry "b" "2" "container:a"]

/-- Each of the two is the primary of the other, and a Pod whose primary is missing has a member
that is no Node. -/
theorem cycle_not_partition :
    (resolvePrimaryNode pairNodes "a" = "b" ∧ resolvePrimaryNode pairNodes "b" = "a" ∧
      podMembers pairNodes "a" = ["a", "b"] ∧ podMembers pairNodes "b" = ["b", "a"]) ∧
    resolvePrimaryNode looseNodes "stray" = "gone" ∧
      podMembers looseNodes "gone" = ["gone", "stray"] ∧ "gone" ∉ looseNodes := by
  decide +kernel

end Clabernetes.Startup
