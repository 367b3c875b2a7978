import Clabernetes.Startup.Workloads

/-!
# Rollout passes

`controllers/topology/rollout.go`. A pass reads the Nodes of the namespace and then makes its
requests one after the other: it clears holds, and between the groups that it finishes and those
that it releases it looks at the Pods. The order in which a loop visits a map is a rank on its keys.
-/

namespace Clabernetes.Startup

open Base Std List Option ExtTreeMap GoMap

/-- What a pass reads of a Topology. A negative batch size is refused before it; zero is none. -/
structure Topology where
  namespaceName : String := ""
  uid : String
  batchSize : ℕ

def Node.held (node : Node) : Bool := node.startupHold != ""

def ownedBy (node : Node) (topology : Topology) : Bool := node.ownerUIDs.contains topology.uid

def startupNodes (topology : Topology) (compiled : List String) (nodes : GoMap String Node) :
    GoMap String Node :=
  nodes.filter fun name node => compiled.contains name && ownedBy node topology

variable (nodes : GoMap String Node) {topology : Topology}

def joinGroup (groups : GoMap String (List String)) (name : String) :
    Option (GoMap String (List String)) :=
  let primary := resolvePrimaryNode nodes name
  if primary ∈ nodes then some (groups.insert primary (groups[primary]?.getD [] ++ [name]))
  else none

def startupGroups (rank : String → ℕ) (nodes : GoMap String Node) :
    Option (GoMap String (List String)) :=
  ((nodes.iterate rank).map Prod.fst).foldlM (joinGroup nodes) ∅

def nodeIs (p : Node → Bool) (name : String) : Bool :=
  nodes[name]?.any p

def runningGroups (order : String → ℕ) (nodes : GoMap String Node)
    (groups : GoMap String (List String)) : List (String × List String) :=
  (groups.iterate order).filter fun group => !nodeIs nodes Node.stopped group.1

def classifyStartupGroups (order : String → ℕ) (nodes : GoMap String Node)
    (groups : GoMap String (List String)) : List String × List String × Bool :=
  let running := runningGroups order nodes groups
  ((running.filter fun group => nodeIs nodes Node.held group.1).map Prod.fst,
    (running.filter fun group => !nodeIs nodes Node.held group.1).map Prod.fst,
    running.any fun group => group.2.any (nodeIs nodes Node.held))

inductive Request where
  /-- The patch that removes the hold of a Node. -/
  | clearHold (name : String)
  /-- The hold is another Topology's, so the pass ends here. -/
  | refuseHold (name : String)
  /-- The Pods are read; the pass goes on if every sandbox is ready. -/
  | awaitSandboxes (uids : List String)
  deriving DecidableEq

def releaseStartupGroup (topology : Topology) (nodes : GoMap String Node)
    (members : List String) : List Request :=
  members.flatMap fun name =>
    match nodes[name]? with
    | none => []
    | some node =>
      if node.startupHold = "" then []
      else if node.startupHold ≠ topology.uid then [.refuseHold name]
      else [.clearHold name]

def releaseGroups (topology : Topology) (nodes : GoMap String Node)
    (groups : GoMap String (List String)) (primaries : List String) : List Request :=
  primaries.flatMap fun primary => releaseStartupGroup topology nodes (groups[primary]?.getD [])

def sortedNames (names : List String) : List String := sortBy id names

def batchRequests (topology : Topology) (nodes : GoMap String Node)
    (groups : GoMap String (List String)) (pending admitted : List String) : List Request :=
  releaseGroups topology nodes groups admitted ++
    if 0 < topology.batchSize then
      .awaitSandboxes (admitted.map fun primary => (nodes[primary]?.map Node.uid).getD "") ::
        releaseGroups topology nodes groups ((sortedNames pending).take topology.batchSize)
    else releaseGroups topology nodes groups (sortedNames pending)

/-- Without requests to make there is nothing pending (`none`) or something to
wait for (`some []`). -/
def advanceStartupBatch (topology : Topology) (compiled : List String) (rank order : String → ℕ)
    (namespaceNodes : GoMap String Node) : Option (List Request) :=
  let nodes := startupNodes topology compiled namespaceNodes
  if nodes.anyEntry (fun _ node => node.held) = false then none
  else if nodes.size ≠ compiled.length then some []
  else
    match startupGroups rank nodes with
    | none => some []
    | some groups =>
      let (pending, admitted, active) := classifyStartupGroups order nodes groups
      if active = false then none
      else some (batchRequests topology nodes groups pending admitted)

structure Cluster where
  nodes : GoMap String Node
  pods : List Pod

inductive PassEnd where
  /-- `errStartupHoldOwner`. -/
  | holdOwner (message : String)
  /-- Some sandbox is not ready. -/
  | waiting
  deriving DecidableEq

def Node.release (node : Node) : Node := { node with startupHold := "" }

/-- What a request does; in a pass the Nodes are as it read them. -/
def Request.perform (topology : Topology) (cluster : Cluster) : Request → Except PassEnd Cluster
  | .clearHold name => .ok { cluster with nodes := cluster.nodes.modify name Node.release }
  | .refuseHold name =>
    .error (.holdOwner ("startup admission belongs to a different Topology UID: Node " ++
      topology.namespaceName ++ "/" ++ name))
  | .awaitSandboxes uids =>
    if uids.all (sandboxReady cluster.pods) then .ok cluster else .error .waiting

def rolloutPass (topology : Topology) (compiled : List String) (rank order : String → ℕ)
    (count : ℕ) (cluster : Cluster) : Cluster :=
  match advanceStartupBatch topology compiled rank order cluster.nodes with
  | none => cluster
  | some requests => (attempt (Request.perform topology) count cluster requests).1

/-- The Nodes under the changed names are updated, and no others. -/
def Updated (changed : String → Prop) [DecidablePred changed] (f : Node → Node)
    (nodes nodes' : GoMap String Node) : Prop :=
  ∀ name : String, nodes'[name]? = if changed name then nodes[name]?.map f else nodes[name]?

theorem performAll_requests {done : List Request} {cluster after : Cluster}
    (h : performAll (Request.perform topology) cluster done = .ok after) :
    Updated (.clearHold · ∈ done) Node.release cluster.nodes after.nodes ∧
      (∀ name, .refuseHold name ∉ done) ∧
      ∀ uids, .awaitSandboxes uids ∈ done → uids.all (sandboxReady cluster.pods) = true := by
  induction done generalizing cluster with
  | nil =>
    cases h
    simp [Updated]
  | cons request done ih =>
    obtain ⟨next, hnext, hrest⟩ := performAll_cons_eq_ok.mp h
    obtain ⟨hnodes, hrefused, hready⟩ := ih hrest
    cases request with
    | clearHold cleared =>
      cases hnext
      refine ⟨?_, by simpa using hrefused, by simpa using hready⟩
      intro name
      rw [hnodes name, lookup_modify]
      by_cases hname : cleared = name
      · subst hname
        simp only [↓reduceIte, mem_cons, true_or, Option.map_map]
        split <;> rfl
      · simp [hname, Ne.symm hname]
    | refuseHold name => cases hnext
    | awaitSandboxes uids =>
      simp only [Request.perform] at hnext
      split_ifs at hnext with huids
      cases hnext
      refine ⟨by simpa [Updated] using hnodes, by simpa using hrefused, ?_⟩
      intro others hothers
      rcases mem_cons.mp hothers with heq | hothers
      · cases heq
        exact huids
      · exact hready others hothers

variable {names members : List String} {pods : List Pod} {name : String}

section Groups

variable {nodes : GoMap String Node} {rank order : String → ℕ}
  {groups : GoMap String (List String)}

theorem foldlM_joinGroup {before after : GoMap String (List String)}
    (h : names.foldlM (joinGroup nodes) before = some after) :
    (∀ name ∈ names, resolvePrimaryNode nodes name ∈ nodes) ∧
      (∀ primary : String, after[primary]?.getD [] = before[primary]?.getD [] ++
        names.filter fun name => resolvePrimaryNode nodes name = primary) ∧
      ∀ primary : String, primary ∈ after ↔
        primary ∈ before ∨ ∃ name ∈ names, resolvePrimaryNode nodes name = primary := by
  induction names generalizing before with
  | nil =>
    cases h
    simp
  | cons name names ih =>
    rw [foldlM_cons, bind_eq_bind, bind_eq_some_iff] at h
    obtain ⟨next, hnext, hrest⟩ := h
    simp only [joinGroup] at hnext
    split_ifs at hnext with hprimary
    cases hnext
    obtain ⟨hnames, hmembers, hkeys⟩ := ih hrest
    refine ⟨?_, ?_, ?_⟩
    · intro other hother
      rcases mem_cons.mp hother with rfl | hother
      · exact hprimary
      · exact hnames other hother
    · intro primary
      rw [hmembers primary, lookup_insert]
      by_cases hsame : resolvePrimaryNode nodes name = primary
      · simp [hsame]
      · simp [hsame]
    · intro primary
      rw [hkeys primary, mem_insert, LawfulEqOrd.compare_eq_iff_eq]
      simp only [mem_cons, exists_eq_or_imp]
      constructor
      · rintro ((h | h) | h)
        · exact .inr (.inl h)
        · exact .inl h
        · exact .inr (.inr h)
      · rintro (h | h | h)
        · exact .inl (.inr h)
        · exact .inl (.inl h)
        · exact .inr h

/-- What the groups are: every Node is in the group of its primary, which is there. -/
structure Grouped (nodes : GoMap String Node) (groups : GoMap String (List String)) : Prop where
  primary : ∀ name ∈ nodes, resolvePrimaryNode nodes name ∈ nodes
  members : ∀ {primary name : String}, name ∈ groups[primary]?.getD [] ↔
    name ∈ nodes ∧ resolvePrimaryNode nodes name = primary
  keys : ∀ {primary : String}, primary ∈ groups ↔
    ∃ name ∈ nodes, resolvePrimaryNode nodes name = primary

theorem grouped_startupGroups (h : startupGroups rank nodes = some groups) :
    Grouped nodes groups := by
  obtain ⟨hnames, hmembers, hkeys⟩ := foldlM_joinGroup h
  have hmem : ∀ name, name ∈ (nodes.iterate rank).map Prod.fst ↔ name ∈ nodes := by
    intro name
    simp only [List.mem_map, Prod.exists, exists_and_right, exists_eq_right, GoMap.mem_iterate,
      ← isSome_getElem?_iff_mem, isSome_iff_exists]
  constructor
  · exact fun name hname => hnames name ((hmem name).mpr hname)
  · intro primary name
    rw [hmembers primary]
    simp [hmem]
  · intro primary
    rw [hkeys primary]
    simp [hmem]

end Groups

/-- The Node of that name is held, is not, is not stopped. -/
def IsHeld (name : String) : Prop :=
  ∃ node : Node, nodes[name]? = some node ∧ node.startupHold ≠ ""

@[inherit_doc IsHeld] def IsReleased (name : String) : Prop :=
  ∃ node : Node, nodes[name]? = some node ∧ node.startupHold = ""

@[inherit_doc IsHeld] def IsRunning (name : String) : Prop :=
  ∃ node : Node, nodes[name]? = some node ∧ node.stopped = false

/-- What is known of the Nodes whose holds a pass clears. -/
structure Clears (topology : Topology) (nodes : GoMap String Node) (pods : List Pod)
    (cleared : List String) : Prop where
  own : ∀ name ∈ cleared, ∃ node : Node, nodes[name]? = some node ∧
    node.startupHold = topology.uid ∧ node.startupHold ≠ ""
  running : ∀ name ∈ cleared, IsRunning nodes (resolvePrimaryNode nodes name)
  /-- A group is begun only if the sandbox of every group begun before is ready. -/
  ready : 0 < topology.batchSize → ∀ name ∈ cleared,
    IsHeld nodes (resolvePrimaryNode nodes name) →
    ∀ (primary : String) (node : Node), nodes[primary]? = some node → node.isPrimary = true →
      node.stopped = false → node.startupHold = "" → sandboxReady pods node.uid = true
  /-- By then those groups are finished, and the held ones that come first. -/
  finished : ∀ name ∈ cleared, IsHeld nodes (resolvePrimaryNode nodes name) →
    ∀ other ∈ nodes, IsRunning nodes (resolvePrimaryNode nodes other) →
      ¬IsHeld nodes (resolvePrimaryNode nodes other) ∨
        resolvePrimaryNode nodes other < resolvePrimaryNode nodes name →
      ¬IsHeld nodes other ∨ other ∈ cleared
  /-- A pass begins no more groups than a batch has. -/
  batch : 0 < topology.batchSize → ∃ batch : List String, batch.length ≤ topology.batchSize ∧
    ∀ name ∈ cleared, IsHeld nodes (resolvePrimaryNode nodes name) →
      resolvePrimaryNode nodes name ∈ batch

theorem clears_nil {nodes : GoMap String Node} :
    Clears topology nodes pods [] where
  own := by simp
  running := by simp
  ready := by simp
  finished := by simp
  batch _ := ⟨[], Nat.zero_le _, by simp⟩

theorem nodeIs_held {nodes : GoMap String Node} :
    nodeIs nodes Node.held name = true ↔ IsHeld nodes name := by
  simp [nodeIs, IsHeld, Node.held, Option.any_eq_true]

theorem nodeIs_stopped {nodes : GoMap String Node} (hname : name ∈ nodes) :
    nodeIs nodes Node.stopped name = false ↔ IsRunning nodes name := by
  obtain ⟨node, hnode⟩ := exists_lookup hname
  simp [nodeIs, IsRunning, hnode]

instance (nodes : GoMap String Node) (name : String) : Decidable (IsHeld nodes name) :=
  decidable_of_iff _ nodeIs_held

instance (nodes : GoMap String Node) (name : String) : Decidable (IsReleased nodes name) :=
  decidable_of_iff (nodeIs nodes (fun node => !node.held) name = true)
    (by simp [nodeIs, IsReleased, Node.held, Option.any_eq_true])

theorem mem_releaseStartupGroup {nodes : GoMap String Node} :
    .clearHold name ∈ releaseStartupGroup topology nodes members ↔ name ∈ members ∧
      ∃ node : Node, nodes[name]? = some node ∧ node.startupHold = topology.uid ∧
        node.startupHold ≠ "" := by
  simp only [releaseStartupGroup, mem_flatMap]
  constructor
  · rintro ⟨member, hmember, hrequest⟩
    split at hrequest
    · cases hrequest
    · next node hnode =>
      split_ifs at hrequest with hempty hother
      · simp at hrequest
      · simp at hrequest
      · simp only [mem_singleton, Request.clearHold.injEq] at hrequest
        subst hrequest
        exact ⟨hmember, node, hnode, not_not.mp hother, hempty⟩
  · rintro ⟨hmember, node, hnode, howner, hheld⟩
    exact ⟨name, hmember, by simp [hnode, howner, howner ▸ hheld]⟩

theorem request_of_held (topology : Topology) {nodes : GoMap String Node}
    (hmember : name ∈ members) (hheld : IsHeld nodes name) :
    .clearHold name ∈ releaseStartupGroup topology nodes members ∨
      .refuseHold name ∈ releaseStartupGroup topology nodes members := by
  obtain ⟨node, hnode, hheld⟩ := hheld
  by_cases howner : node.startupHold = topology.uid
  · exact .inl (mem_releaseStartupGroup.mpr ⟨hmember, node, hnode, howner, hheld⟩)
  · right
    exact mem_flatMap.mpr ⟨name, hmember, by simp [hnode, hheld, howner]⟩

def Request.cleared : Request → Option String
  | .clearHold name => some name
  | _ => none

theorem mem_filterMap_cleared {done : List Request} :
    name ∈ done.filterMap Request.cleared ↔ .clearHold name ∈ done := by
  rw [List.mem_filterMap]
  constructor
  · rintro ⟨request, hrequest, hcleared⟩
    cases request with
    | clearHold other =>
      cases hcleared
      exact hrequest
    | refuseHold other => cases hcleared
    | awaitSandboxes uids => cases hcleared
  · exact fun h => ⟨_, h, rfl⟩

section Clears

variable {topology : Topology} {nodes : GoMap String Node} {groups : GoMap String (List String)}
  {order : String → ℕ} {done : List Request} {primaries pending admitted : List String}
  {name : String} {active : Bool}

theorem releaseGroups_append {others : List String} :
    releaseGroups topology nodes groups (primaries ++ others) =
      releaseGroups topology nodes groups primaries ++
        releaseGroups topology nodes groups others := flatMap_append

section

variable (hgrouped : Grouped nodes groups)

include hgrouped

theorem clearHold_mem_releaseGroups :
    .clearHold name ∈ releaseGroups topology nodes groups primaries ↔
      resolvePrimaryNode nodes name ∈ primaries ∧ ∃ node : Node, nodes[name]? = some node ∧
        node.startupHold = topology.uid ∧ node.startupHold ≠ "" := by
  simp only [releaseGroups, mem_flatMap, mem_releaseStartupGroup, hgrouped.members]
  constructor
  · rintro ⟨primary, hprimary, ⟨-, rfl⟩, hnode⟩
    exact ⟨hprimary, hnode⟩
  · rintro ⟨hprimary, node, hnode, howner⟩
    have hmem : name ∈ nodes := mem_of_lookup hnode
    exact ⟨_, hprimary, ⟨hmem, rfl⟩, node, hnode, howner⟩

theorem released_of_subset (hsubset : releaseGroups topology nodes groups primaries ⊆ done)
    (hrefused : ∀ name, .refuseHold name ∉ done) (hname : name ∈ nodes)
    (hprimary : resolvePrimaryNode nodes name ∈ primaries) :
    ¬IsHeld nodes name ∨ .clearHold name ∈ done := by
  by_cases hheld : IsHeld nodes name
  · right
    have hmember : name ∈ groups[resolvePrimaryNode nodes name]?.getD [] :=
      hgrouped.members.mpr ⟨hname, rfl⟩
    rcases request_of_held topology hmember hheld with hclear | hrefuse
    · exact hsubset (mem_flatMap.mpr ⟨_, hprimary, hclear⟩)
    · exact absurd (hsubset (mem_flatMap.mpr ⟨_, hprimary, hrefuse⟩)) (hrefused name)
  · exact .inl hheld

theorem mem_classified {p : String → Bool} :
    name ∈ ((runningGroups order nodes groups).filter fun group => p group.1).map Prod.fst ↔
      IsRunning nodes name ∧ p name = true ∧
        ∃ member ∈ nodes, resolvePrimaryNode nodes member = name := by
  have hmem : ∀ {primary}, (∃ members, groups[primary]? = some members) ↔
      ∃ member ∈ nodes, resolvePrimaryNode nodes member = primary := by
    intro primary
    rw [← hgrouped.keys, ← isSome_getElem?_iff_mem, isSome_iff_exists]
  simp only [runningGroups, List.mem_map, List.mem_filter, GoMap.mem_iterate, Prod.exists,
    exists_and_right, exists_eq_right, Bool.not_eq_true', hmem]
  constructor
  · rintro ⟨⟨⟨member, hmember, rfl⟩, hrunning⟩, hp⟩
    exact ⟨(nodeIs_stopped (hgrouped.primary member hmember)).mp hrunning, hp, member, hmember, rfl⟩
  · rintro ⟨hrunning, hp, member, hmember, rfl⟩
    exact ⟨⟨⟨member, hmember, rfl⟩,
      (nodeIs_stopped (hgrouped.primary member hmember)).mpr hrunning⟩,
      hp⟩

theorem mem_classifyStartupGroups
    (h : classifyStartupGroups order nodes groups = (pending, admitted, active)) :
    (∀ primary, primary ∈ pending ↔ IsRunning nodes primary ∧ IsHeld nodes primary ∧
        ∃ member ∈ nodes, resolvePrimaryNode nodes member = primary) ∧
      ∀ primary, primary ∈ admitted ↔ IsRunning nodes primary ∧ ¬IsHeld nodes primary ∧
        ∃ member ∈ nodes, resolvePrimaryNode nodes member = primary := by
  cases h
  constructor
  · intro primary
    rw [mem_classified hgrouped, nodeIs_held]
  · intro primary
    rw [← nodeIs_held, Bool.not_eq_true, ← Bool.not_eq_true']
    exact mem_classified hgrouped (p := fun name => !nodeIs nodes Node.held name)

end

theorem batchRequests_eq (topology : Topology) (nodes : GoMap String Node)
    (groups : GoMap String (List String)) (pending admitted : List String) :
    ∃ gate batch, batchRequests topology nodes groups pending admitted =
        releaseGroups topology nodes groups admitted ++
          (gate ++ releaseGroups topology nodes groups batch) ∧
      batch <+: sortedNames pending ∧ (∀ name, .clearHold name ∉ gate) ∧
      (0 < topology.batchSize → batch.length ≤ topology.batchSize ∧
        gate = [.awaitSandboxes
          (admitted.map fun primary => (nodes[primary]?.map Node.uid).getD "")]) := by
  by_cases hsize : 0 < topology.batchSize
  · refine ⟨[_], _, by rw [batchRequests, if_pos hsize]; rfl, take_prefix _ _, by simp, ?_⟩
    exact fun _ => ⟨length_take_le _ _, rfl⟩
  · exact ⟨[], _, by rw [batchRequests, if_neg hsize]; rfl, prefix_rfl, by simp,
      fun h => absurd h hsize⟩

theorem mem_sortedNames : name ∈ sortedNames names ↔ name ∈ names := mem_sortBy id

theorem mem_before_of_lt {before after : List String} {first second : String}
    (hsorted : sortedNames names = before ++ second :: after) (hfirst : first ∈ names)
    (hlt : first < second) : first ∈ before := by
  have hpairwise : SortedBy id (sortedNames names) := sortedBy_sortBy id names
  rw [hsorted, SortedBy, pairwise_append, pairwise_cons] at hpairwise
  rw [← mem_sortedNames, hsorted, mem_append, mem_cons] at hfirst
  rcases hfirst with h | rfl | h
  · exact h
  · exact absurd hlt (lt_irrefl _)
  · exact absurd (hpairwise.2.1.1 first h) hlt.not_ge

/-- What of the requests of a pass was carried out, however far it came. -/
theorem clears_of_requests (hgrouped : Grouped nodes groups)
    (hclassified : classifyStartupGroups order nodes groups = (pending, admitted, active))
    (hdone : done <+: batchRequests topology nodes groups pending admitted)
    (hrefused : ∀ name, .refuseHold name ∉ done)
    (hready : ∀ uids, .awaitSandboxes uids ∈ done → uids.all (sandboxReady pods) = true) :
    Clears topology nodes pods (done.filterMap Request.cleared) := by
  obtain ⟨hpending, hadmitted⟩ := mem_classifyStartupGroups hgrouped hclassified
  obtain ⟨gate, batch, hrequests, hbatch, hgate, hsize⟩ :=
    batchRequests_eq topology nodes groups pending admitted
  rw [hrequests] at hdone
  have hinBatch : ∀ primary ∈ batch, primary ∈ pending :=
    fun primary h => mem_sortedNames.mp (hbatch.mem h)
  -- where a group with a held primary is begun, the earlier requests were all carried out
  have hbegun : ∀ {name}, .clearHold name ∈ done → IsHeld nodes (resolvePrimaryNode nodes name) →
      resolvePrimaryNode nodes name ∈ batch ∧
        .clearHold name ∉ releaseGroups topology nodes groups admitted ++ gate := by
    intro name hname hheld
    have hnotAdmitted : .clearHold name ∉ releaseGroups topology nodes groups admitted := by
      intro h
      have := ((hadmitted _).mp ((clearHold_mem_releaseGroups hgrouped).mp h).1).2.1
      exact this hheld
    have hmem := hdone.mem hname
    simp only [mem_append, hnotAdmitted, hgate name, false_or,
      clearHold_mem_releaseGroups hgrouped] at hmem
    exact ⟨hmem.1, by simp [hnotAdmitted, hgate name]⟩
  have hcleared : ∀ {name}, .clearHold name ∈ done →
      (resolvePrimaryNode nodes name ∈ admitted ∨ resolvePrimaryNode nodes name ∈ batch) ∧
        ∃ node : Node, nodes[name]? = some node ∧ node.startupHold = topology.uid ∧
          node.startupHold ≠ "" := by
    intro name hname
    have hmem := hdone.mem hname
    simp only [mem_append, hgate name, false_or, clearHold_mem_releaseGroups hgrouped] at hmem
    exact hmem.elim (fun h => ⟨.inl h.1, h.2⟩) fun h => ⟨.inr h.1, h.2⟩
  constructor
  · intro name hname
    exact (hcleared (mem_filterMap_cleared.mp hname)).2
  · intro name hname
    rcases (hcleared (mem_filterMap_cleared.mp hname)).1 with h | h
    · exact ((hadmitted _).mp h).1
    · exact ((hpending _).mp (hinBatch _ h)).1
  · intro hpositive name hname hheld primary node hnode hprimary hrunning hreleased
    obtain ⟨-, hnot⟩ := hbegun (mem_filterMap_cleared.mp hname) hheld
    rw [← append_assoc] at hdone
    have hbefore := prefix_of_mem_of_notMem hdone (mem_filterMap_cleared.mp hname) hnot
    rw [(hsize hpositive).2] at hbefore
    have hawait := hready _ (hbefore.mem (mem_append_right _ mem_cons_self))
    have hmem : primary ∈ admitted := by
      apply (hadmitted primary).mpr
      refine ⟨⟨node, hnode, hrunning⟩, ?_, primary,
        mem_of_lookup hnode,
        resolvePrimaryNode_of_isPrimary hnode hprimary⟩
      rintro ⟨other, hother, hheld⟩
      rw [hnode] at hother
      cases hother
      exact hheld hreleased
    have := List.all_eq_true.mp hawait _ (List.mem_map.mpr ⟨primary, hmem, rfl⟩)
    rwa [hnode] at this
  · intro name hname hheld other hother hrunning hor
    rw [mem_filterMap_cleared] at hname ⊢
    obtain ⟨hin, hnot⟩ := hbegun hname hheld
    by_cases hotherHeld : IsHeld nodes (resolvePrimaryNode nodes other)
    · -- a pending group that comes first
      have hlt := hor.resolve_left (not_not.mpr hotherHeld)
      obtain ⟨before, after, hsplit, hnotBefore⟩ := eq_append_cons_of_mem hin
      obtain ⟨rest, hrest⟩ := hbatch
      have hfirst : resolvePrimaryNode nodes other ∈ before :=
        mem_before_of_lt (by rw [← hrest, hsplit, append_assoc, cons_append])
          ((hpending _).mpr ⟨hrunning, hotherHeld, other, hother, rfl⟩) hlt
      rw [hsplit, releaseGroups_append, ← append_assoc, ← append_assoc] at hdone
      have hbefore := prefix_of_mem_of_notMem hdone hname (by
        rw [mem_append, not_or]
        exact ⟨hnot, fun h => hnotBefore ((clearHold_mem_releaseGroups hgrouped).mp h).1⟩)
      exact released_of_subset hgrouped
        (fun request h => hbefore.mem (mem_append_right _ h)) hrefused hother hfirst
    · rw [← append_assoc] at hdone
      have hbefore := prefix_of_mem_of_notMem hdone hname hnot
      exact released_of_subset hgrouped
        (fun request h => hbefore.mem (mem_append_left _ h)) hrefused hother
        ((hadmitted _).mpr ⟨hrunning, hotherHeld, other, hother, rfl⟩)
  · intro hpositive
    refine ⟨batch, (hsize hpositive).1, fun name hname hheld => ?_⟩
    exact (hbegun (mem_filterMap_cleared.mp hname) hheld).1

end Clears

theorem rolloutPass_spec (topology : Topology) (compiled : List String) (cluster : Cluster)
    (rank order : String → ℕ) (count : ℕ) :
    ∃ cleared, Clears topology (startupNodes topology compiled cluster.nodes) cluster.pods cleared ∧
      Updated (· ∈ cleared) Node.release cluster.nodes
        (rolloutPass topology compiled rank order count cluster).nodes := by
  unfold rolloutPass
  cases hadvance : advanceStartupBatch topology compiled rank order cluster.nodes with
  | none => exact ⟨[], clears_nil, fun name => by simp⟩
  | some requests =>
    obtain ⟨done, rest, heq, hperformed⟩ :=
      @exists_performed _ _ _ (Request.perform topology) count cluster requests
    obtain ⟨hnodes, hrefused, hready⟩ := performAll_requests hperformed
    refine ⟨done.filterMap Request.cleared, ?_, by simpa only [Updated, mem_filterMap_cleared]⟩
    simp only [advanceStartupBatch] at hadvance
    split_ifs at hadvance with hheld hcomplete
    · cases hadvance
      obtain ⟨rfl, rfl⟩ := append_eq_nil_iff.mp heq.symm
      exact clears_nil
    · cases hgroups : startupGroups rank (startupNodes topology compiled cluster.nodes) with
      | none =>
        rw [hgroups] at hadvance
        cases hadvance
        obtain ⟨rfl, rfl⟩ := append_eq_nil_iff.mp heq.symm
        exact clears_nil
      | some groups =>
        rw [hgroups] at hadvance
        simp only at hadvance
        split_ifs at hadvance with hactive
        cases hadvance
        exact clears_of_requests (grouped_startupGroups hgroups) rfl ⟨rest, heq.symm⟩
          hrefused hready

end Clabernetes.Startup
