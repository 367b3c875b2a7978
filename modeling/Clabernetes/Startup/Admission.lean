import Clabernetes.Startup.Workloads

/-!
# Startup admission of Nodes

`controllers/node/startupadmission.go`. One pass over all Nodes: what the manager has written and
does not see yet is put over the Nodes that it read, the Nodes are put in groups, and the requests
of the pass follow from the groups and the Pods. A group without a Pod waits for a slot.
-/

namespace Clabernetes.Startup.Admission

open Base Std List GoMap Prod

def startupAdmissionRequired (node : Node) (size : ℕ) : Bool :=
  decide (0 < size) && (node.uid == "" || node.startupAdmitted.getD "" != node.uid)

def admitted (node : Node) : Bool := !startupAdmissionRequired node 1

def admitNode (node : Node) : Node := { node with startupAdmitted := some node.uid }

def withdraw (node : Node) : Node := { node with startupAdmitted := none }

abbrev Written := GoMap String Unit

def observeNode (size : ℕ) (seen : Written × List Node) (node : Node) : Written × List Node :=
  if node.uid ∈ seen.1 then
    if startupAdmissionRequired node size then (seen.1, seen.2 ++ [admitNode node])
    else (seen.1.erase node.uid, seen.2 ++ [node])
  else (seen.1, seen.2 ++ [node])

def observeStartupAdmissions (written : Written) (nodes : List Node) (size : ℕ) :
    Written × List Node :=
  let (written, observed) := nodes.foldl (observeNode size) (written, [])
  (written.filter fun uid _ => nodes.any fun node => node.uid == uid, observed)

structure PodGroup where
  primary : Node
  members : List Node
  deriving DecidableEq

structure Order where
  namespaces : String → ℕ
  nodes : String → ℕ
  groups : String → ℕ

def addNode (namespaces : GoMap String (GoMap String Node)) (node : Node) :
    GoMap String (GoMap String Node) :=
  if node.deleting then namespaces
  else namespaces.insert node.namespaceName
    ((namespaces[node.namespaceName]?.getD ∅).insert node.name node)

def joinMembers (byName : GoMap String Node) (groups : GoMap String (List Node))
    (entry : String × Node) : GoMap String (List Node) :=
  let primary := resolvePrimaryNode byName entry.1
  if primary ∈ byName then groups.insert primary (groups[primary]?.getD [] ++ [entry.2])
  else groups

def podGroup (byName : GoMap String Node) (group : String × List Node) : Option PodGroup :=
  match byName[group.1]? with
  | none => none
  | some primary =>
    if primary.ignored then none
    else some
      { primary,
        members := primary :: (sortBy Node.name group.2).filter fun node => node.name != group.1 }

def startupAdmissionGroups (order : Order) (nodes : List Node) : List PodGroup :=
  ((nodes.foldl addNode ∅).iterate order.namespaces).flatMap fun entry =>
    (((entry.2.iterate order.nodes).foldl (joinMembers entry.2) ∅).iterate order.groups).filterMap
      (podGroup entry.2)

/-- What a pass asks for; it fails if the Node is not as it was read. -/
inductive Request where
  | admitNode (node : Node)
  | withdraw (node : Node)
  deriving DecidableEq

def admitStartupGroup (group : PodGroup) : List Request :=
  (group.members.filter fun node => startupAdmissionRequired node 1).map .admitNode

def withdrawStartupGroup (group : PodGroup) : List Request :=
  (group.members.filter fun node => node.startupAdmitted.isSome).map .withdraw

inductive Fate where
  | stopped
  /-- Admitted, or with a Pod from before. -/
  | admitted (ready : Bool)
  | pending
  | held
  deriving DecidableEq

def fate (newest : GoMap String Pod) (size : ℕ) (group : PodGroup) : Fate :=
  if group.primary.stopped then .stopped
  else
    let pod := newest[group.primary.uid]?
    if !startupAdmissionRequired group.primary size || pod.isSome then
      .admitted (pod.any startupSandboxReady)
    else if group.primary.startupHold = "" then .pending
    else .held

def settleGroup (newest : GoMap String Pod) (size : ℕ) (group : PodGroup) : List Request :=
  match fate newest size group with
  | .stopped => withdrawStartupGroup group
  | .admitted _ => admitStartupGroup group
  | .pending => []
  | .held => []

/-- The requests, the groups that wait for a slot, and whether there is none to give. -/
def pendingStartupGroups (groups : List PodGroup) (newest : GoMap String Pod) (size : ℕ) :
    List Request × List PodGroup × Bool :=
  (groups.flatMap (settleGroup newest size),
    groups.filter fun group => fate newest size group == .pending,
    groups.any fun group => fate newest size group == .admitted false)

def startsBefore (a b : PodGroup) : Prop :=
  a.primary.creationTimestamp < b.primary.creationTimestamp ∨
    a.primary.creationTimestamp = b.primary.creationTimestamp ∧
      a.primary.namespaceName ++ "/" ++ a.primary.name ≤
        b.primary.namespaceName ++ "/" ++ b.primary.name

instance : DecidableRel startsBefore := fun _ _ => inferInstanceAs (Decidable (_ ∨ _))

def startupBatch (pending : List PodGroup) (size : ℕ) : List PodGroup :=
  (pending.insertionSort startsBefore).take size

/-- The requests of `:146-176`, for a positive size. -/
def reconcileStartupAdmission (order : Order) (nodes : List Node) (pods : List Pod) (size : ℕ) :
    List Request :=
  let (requests, pending, blocked) :=
    pendingStartupGroups (startupAdmissionGroups order nodes) (startupAdmissionPods pods) size
  if blocked then requests
  else requests ++ (startupBatch pending size).flatMap admitStartupGroup

section Admissions

variable {node : Node} {size : ℕ}

theorem admitted_iff :
    admitted node = true ↔ node.uid ≠ "" ∧ node.startupAdmitted.getD "" = node.uid := by
  simp [admitted, startupAdmissionRequired]

theorem startupAdmissionRequired_eq (hsize : 0 < size) :
    startupAdmissionRequired node size = !admitted node := by
  simp [startupAdmissionRequired, admitted, hsize]

theorem admitted_admitNode (huid : node.uid ≠ "") : admitted (admitNode node) = true :=
  admitted_iff.mpr ⟨huid, rfl⟩

theorem admitted_withdraw : admitted (withdraw node) = false := by
  rw [← Bool.not_eq_true, admitted_iff]
  exact fun ⟨hne, heq⟩ => hne heq.symm

theorem isSome_of_admitted (h : admitted node = true) : node.startupAdmitted.isSome = true := by
  obtain ⟨hne, heq⟩ := admitted_iff.mp h
  cases hmark : node.startupAdmitted with
  | none =>
    rw [hmark] at heq
    exact absurd heq.symm hne
  | some mark => rfl

end Admissions

section Observed

variable {written : Written} {nodes : List Node} {size : ℕ} {uid : String}

def overlay (written : Written) (size : ℕ) (node : Node) : Node :=
  if node.uid ∈ written ∧ startupAdmissionRequired node size = true then admitNode node else node

variable {seen : Written × List Node}

theorem mem_observeNode {node : Node} : uid ∈ (observeNode size seen node).1 ↔
      uid ∈ seen.1 ∧ (node.uid = uid → startupAdmissionRequired node size = true) := by
  unfold observeNode
  split_ifs with hwritten hrequired
  · simp [hrequired]
  · rw [ExtTreeMap.mem_erase, ne_eq, LawfulEqOrd.compare_eq_iff_eq]
    simp [hrequired, and_comm]
  · refine ⟨fun h => ⟨h, fun heq => absurd (heq ▸ h) hwritten⟩, fun h => h.1⟩

theorem snd_observeNode {node : Node} :
    (observeNode size seen node).2 = seen.2 ++ [overlay seen.1 size node] := by
  unfold observeNode overlay
  split_ifs <;> simp_all

theorem mem_foldl_observeNode : uid ∈ (nodes.foldl (observeNode size) seen).1 ↔ uid ∈ seen.1 ∧
      ∀ node ∈ nodes, node.uid = uid → startupAdmissionRequired node size = true := by
  induction nodes generalizing seen with
  | nil => simp
  | cons node nodes ih => rw [foldl_cons, ih, mem_observeNode, and_assoc, forall_mem_cons]

theorem snd_foldl_observeNode (hnodup : (nodes.map Node.uid).Nodup) :
    (nodes.foldl (observeNode size) seen).2 = seen.2 ++ nodes.map (overlay seen.1 size) := by
  induction nodes generalizing seen with
  | nil => simp
  | cons node nodes ih =>
    rw [map_cons, nodup_cons] at hnodup
    have hsame : nodes.map (overlay (observeNode size seen node).1 size) =
        nodes.map (overlay seen.1 size) := by
      refine map_congr_left fun other hother => ?_
      have hne : node.uid ≠ other.uid := fun heq => hnodup.1 (heq ▸ mem_map_of_mem hother)
      simp [overlay, mem_observeNode, hne]
    rw [foldl_cons, ih hnodup.2, snd_observeNode, hsame, map_cons, append_assoc, singleton_append]

theorem mem_observeStartupAdmissions :
    uid ∈ (observeStartupAdmissions written nodes size).1 ↔ uid ∈ written ∧
      (∃ node ∈ nodes, node.uid = uid) ∧
      ∀ node ∈ nodes, node.uid = uid → startupAdmissionRequired node size = true := by
  rw [observeStartupAdmissions, mem_filter_keys, mem_foldl_observeNode, any_eq_true]
  simp only [beq_iff_eq]
  tauto

theorem snd_observeStartupAdmissions (hnodup : (nodes.map Node.uid).Nodup) :
    (observeStartupAdmissions written nodes size).2 = nodes.map (overlay written size) := by
  rw [observeStartupAdmissions, snd_foldl_observeNode hnodup, nil_append]

end Observed

section Groups

variable {nodes : List Node} {order : Order} {node : Node} {name : String}
  {entries : List (String × Node)} {namespaceName : String}

def Named (nodes : List Node) : Prop :=
  ∀ a ∈ nodes, ∀ b ∈ nodes, a.namespaceName = b.namespaceName → a.name = b.name → a = b

theorem lookup_addNode {namespaces : GoMap String (GoMap String Node)} :
    ((addNode namespaces node)[namespaceName]?.getD ∅)[name]? =
      if node.deleting = false ∧ node.namespaceName = namespaceName ∧ node.name = name
      then some node
      else (namespaces[namespaceName]?.getD ∅)[name]? := by
  unfold addNode
  by_cases hdeleting : node.deleting = true
  · simp [hdeleting]
  · rw [if_neg hdeleting, lookup_insert]
    by_cases hnamespace : node.namespaceName = namespaceName
    · simp [hnamespace, hdeleting, lookup_insert]
    · simp [hnamespace]

theorem lookup_namespaces (hnamed : Named nodes) :
    ((nodes.foldl addNode ∅)[namespaceName]?.getD ∅)[name]? = some node ↔
      node ∈ nodes ∧ node.deleting = false ∧ node.namespaceName = namespaceName ∧
        node.name = name := by
  induction nodes using List.reverseRecOn with
  | nil => simp
  | append_singleton nodes last ih =>
    have hbefore : Named nodes := fun a ha b hb =>
      hnamed a (mem_append_left _ ha) b (mem_append_left _ hb)
    rw [foldl_append, foldl_cons, foldl_nil, lookup_addNode]
    split_ifs with hlast
    · rw [Option.some.injEq]
      constructor
      · rintro rfl
        exact ⟨by simp, hlast⟩
      · rintro ⟨hnode, -, hnamespace, hname⟩
        exact hnamed last (by simp) node hnode (hlast.2.1.trans hnamespace.symm)
          (hlast.2.2.trans hname.symm)
    · rw [ih hbefore, mem_append, mem_singleton]
      constructor
      · exact fun h => ⟨.inl h.1, h.2⟩
      · rintro ⟨hnode | rfl, h⟩
        · exact ⟨hnode, h⟩
        · exact absurd h hlast

variable {byName : GoMap String Node}

theorem mem_foldl_joinMembers {primary : String} {members : List Node}
    (h : (entries.foldl (joinMembers byName) ∅)[primary]? = some members) :
    ∀ node ∈ members, ∃ name, (name, node) ∈ entries ∧
      resolvePrimaryNode byName name = primary := by
  induction entries using List.reverseRecOn generalizing primary members with
  | nil => simp at h
  | append_singleton entries last ih =>
    rw [foldl_append, foldl_cons, foldl_nil] at h
    simp only [joinMembers] at h
    intro node hnode
    split_ifs at h with hprimary
    · rw [lookup_insert] at h
      split_ifs at h with heq
      · cases h
        rcases mem_append.mp hnode with hnode | hnode
        · cases hbefore : (entries.foldl (joinMembers byName) ∅)[
            resolvePrimaryNode byName last.1]? with
          | none => simp [hbefore] at hnode
          | some before =>
            rw [hbefore] at hnode
            obtain ⟨name, hname, hsame⟩ := ih hbefore node hnode
            exact ⟨name, mem_append_left _ hname, hsame.trans heq⟩
        · rw [mem_singleton] at hnode
          exact ⟨last.1, by simp [hnode], heq⟩
      · obtain ⟨name, hname, hsame⟩ := ih h node hnode
        exact ⟨name, mem_append_left _ hname, hsame⟩
    · obtain ⟨name, hname, hsame⟩ := ih h node hnode
      exact ⟨name, mem_append_left _ hname, hsame⟩

theorem exists_foldl_joinMembers (hname : name ∈ entries.map fst)
    (hprimary : resolvePrimaryNode byName name ∈ byName) :
    ∃ members, (entries.foldl (joinMembers byName) ∅)[resolvePrimaryNode byName name]? =
      some members := by
  induction entries using List.reverseRecOn with
  | nil => simp at hname
  | append_singleton entries last ih =>
    rw [foldl_append, foldl_cons, foldl_nil]
    simp only [joinMembers]
    rw [map_append, mem_append, map_singleton, mem_singleton] at hname
    split_ifs with hlast
    · rw [lookup_insert]
      split_ifs with heq
      · exact ⟨_, rfl⟩
      · exact ih (hname.resolve_right fun h => heq (by rw [h]))
    · exact ih (hname.resolve_right fun h => hlast (h ▸ hprimary))

variable {group : PodGroup}

theorem mem_startupAdmissionGroups_iff : group ∈ startupAdmissionGroups order nodes ↔
      ∃ (namespaceName : String) (byName : GoMap String Node) (name : String)
        (members : List Node), (nodes.foldl addNode ∅)[namespaceName]? = some byName ∧
        ((byName.iterate order.nodes).foldl (joinMembers byName) ∅)[name]? = some members ∧
        podGroup byName (name, members) = some group := by
  simp only [startupAdmissionGroups, mem_flatMap, mem_filterMap, Prod.exists, GoMap.mem_iterate]
  constructor
  · rintro ⟨namespaceName, byName, hnamespace, name, members, hmembers, hgroup⟩
    exact ⟨namespaceName, byName, name, members, hnamespace, hmembers, hgroup⟩
  · rintro ⟨namespaceName, byName, name, members, hnamespace, hmembers, hgroup⟩
    exact ⟨namespaceName, byName, hnamespace, name, members, hmembers, hgroup⟩

theorem mem_startupAdmissionGroups (hnamed : Named nodes)
    (h : group ∈ startupAdmissionGroups order nodes) : group.primary ∈ group.members ∧
      ∀ node ∈ group.members, node ∈ nodes ∧ (node.isPrimary = true → node = group.primary) := by
  obtain ⟨namespaceName, byName, name, members, hnamespace, hmembers, hgroup⟩ :=
    mem_startupAdmissionGroups_iff.mp h
  have hlookup : ∀ {name : String} {node : Node}, byName[name]? = some node → node ∈ nodes := by
    intro name node hnode
    exact ((lookup_namespaces hnamed).mp (by rw [hnamespace]; exact hnode)).1
  unfold podGroup at hgroup
  split at hgroup
  · cases hgroup
  · next primary hprimary =>
    split_ifs at hgroup
    cases hgroup
    refine ⟨mem_cons_self, fun node hnode => ?_⟩
    rcases mem_cons.mp hnode with rfl | hnode
    · exact ⟨hlookup hprimary, fun _ => rfl⟩
    · rw [mem_filter, mem_sortBy] at hnode
      obtain ⟨other, hother, hresolve⟩ := mem_foldl_joinMembers hmembers node hnode.1
      rw [GoMap.mem_iterate] at hother
      refine ⟨hlookup hother, fun hisPrimary => ?_⟩
      rw [resolvePrimaryNode_of_isPrimary hother hisPrimary] at hresolve
      subst hresolve
      rw [hother] at hprimary
      exact Option.some.inj hprimary

variable (order) in
theorem exists_startupAdmissionGroup (hnamed : Named nodes) (hnode : node ∈ nodes)
    (hdeleting : node.deleting = false) (hignored : node.ignored = false)
    (hprimary : node.isPrimary = true) :
    ∃ group ∈ startupAdmissionGroups order nodes, group.primary = node := by
  have hlookup := (lookup_namespaces hnamed).mpr ⟨hnode, hdeleting, rfl, rfl⟩
  cases hnamespace : (nodes.foldl addNode ∅)[node.namespaceName]? with
  | none => simp [hnamespace] at hlookup
  | some byName =>
    rw [hnamespace, Option.getD_some] at hlookup
    have hself := resolvePrimaryNode_of_isPrimary hlookup hprimary
    have hentry : node.name ∈ (byName.iterate order.nodes).map fst :=
      mem_map.mpr ⟨(node.name, node), (GoMap.mem_iterate _ _ _ _).mpr hlookup, rfl⟩
    obtain ⟨members, hmembers⟩ := exists_foldl_joinMembers hentry
      (by rw [hself]; exact mem_of_lookup hlookup)
    rw [hself] at hmembers
    have hgroup : podGroup byName (node.name, members) =
        some ⟨node, node ::
          (sortBy Node.name members).filter fun other => other.name != node.name⟩ := by
      simp [podGroup, hlookup, hignored]
    exact ⟨_, mem_startupAdmissionGroups_iff.mpr
      ⟨_, byName, node.name, members, hnamespace, hmembers, hgroup⟩, rfl⟩

end Groups

section Requests

variable {order : Order} {nodes : List Node} {pods : List Pod} {size : ℕ} {node : Node}
  {groups : List PodGroup} {group : PodGroup} {newest : GoMap String Pod}

theorem fate_eq_stopped : fate newest size group = .stopped ↔ group.primary.stopped = true := by
  unfold fate
  cases group.primary.stopped with
  | true => simp
  | false =>
    simp only [Bool.false_eq_true, ↓reduceIte, iff_false]
    split_ifs <;> simp

theorem fate_eq_pending (h : fate newest size group = .pending) :
    group.primary.stopped = false ∧ startupAdmissionRequired group.primary size = true ∧
      newest[group.primary.uid]? = none := by
  simp only [fate] at h
  split_ifs at h with hstopped hadmitted
  rw [Bool.not_eq_true, Bool.or_eq_false_iff, Bool.not_eq_false', Option.isSome_eq_false_iff,
    Option.isNone_iff_eq_none] at hadmitted
  exact ⟨by simpa using hstopped, hadmitted⟩

theorem fate_eq_admitted (hrunning : group.primary.stopped = false)
    (h : startupAdmissionRequired group.primary size = false ∨
      newest[group.primary.uid]?.isSome = true) :
    fate newest size group = .admitted (newest[group.primary.uid]?.any startupSandboxReady) := by
  unfold fate
  rcases h with h | h
  · simp [hrunning, h]
  · simp [hrunning, h]

theorem pendingStartupGroups_filter (groups : List PodGroup) (newest : GoMap String Pod)
    (size : ℕ) : (pendingStartupGroups groups newest size).2 =
      (pendingStartupGroups (groups.filter fun group => !group.primary.stopped) newest size).2 := by
  have hrunning : ∀ {group other}, fate newest size group = other → other ≠ .stopped →
      group.primary.stopped = false := by
    intro group other hfate hne
    rw [← Bool.not_eq_true]
    exact fun hstopped => hne (hfate ▸ fate_eq_stopped.mpr hstopped)
  simp only [pendingStartupGroups, filter_filter, any_filter, mk.injEq]
  constructor
  · refine filter_congr fun group _ => ?_
    by_cases hfate : fate newest size group = .pending
    · simp [hfate, hrunning hfate]
    · simp [hfate]
  · refine congrArg (groups.any ·) (funext fun group => ?_)
    by_cases hfate : fate newest size group = .admitted false
    · simp [hfate, hrunning hfate]
    · simp [hfate]

theorem mem_startupBatch (h : group ∈ startupBatch (groups.filter fun group =>
    fate newest size group == .pending) size) :
    group ∈ groups ∧ fate newest size group = .pending := by
  have hmem := mem_of_mem_take h
  rw [mem_insertionSort, mem_filter, beq_iff_eq] at hmem
  exact hmem

theorem length_startupBatch : (startupBatch groups size).length ≤ size := length_take_le _ _

variable {request : Request}

theorem mem_settleGroup (h : request ∈ settleGroup newest size group) :
    (fate newest size group = .stopped ∧ ∃ node ∈ group.members,
      node.startupAdmitted.isSome = true ∧
        request = .withdraw node) ∨
      ∃ ready, fate newest size group = .admitted ready ∧ ∃ node ∈ group.members,
        startupAdmissionRequired node 1 = true ∧ request = .admitNode node := by
  unfold settleGroup at h
  split at h
  · next hfate =>
    left
    simp only [withdrawStartupGroup, mem_map, mem_filter] at h
    obtain ⟨node, ⟨hnode, hadmitted⟩, rfl⟩ := h
    exact ⟨hfate, node, hnode, hadmitted, rfl⟩
  · next ready hfate =>
    right
    simp only [admitStartupGroup, mem_map, mem_filter] at h
    obtain ⟨node, ⟨hnode, hrequired⟩, rfl⟩ := h
    exact ⟨ready, hfate, node, hnode, hrequired, rfl⟩
  · cases h
  · cases h

theorem mem_admitStartupGroup (h : request ∈ admitStartupGroup group) :
    ∃ node ∈ group.members, startupAdmissionRequired node 1 = true ∧ request = .admitNode node := by
  simp only [admitStartupGroup, mem_map, mem_filter] at h
  obtain ⟨node, ⟨hnode, hrequired⟩, rfl⟩ := h
  exact ⟨node, hnode, hrequired, rfl⟩

variable (order nodes pods size) in
theorem reconcileStartupAdmission_eq : ∃ batch, reconcileStartupAdmission order nodes pods size =
        (startupAdmissionGroups order nodes).flatMap
          (settleGroup (startupAdmissionPods pods) size) ++
          batch.flatMap admitStartupGroup ∧
      batch.length ≤ size ∧
      (∀ group ∈ batch, group ∈ startupAdmissionGroups order nodes ∧
        fate (startupAdmissionPods pods) size group = .pending) ∧
      (batch ≠ [] → ∀ group ∈ startupAdmissionGroups order nodes,
        fate (startupAdmissionPods pods) size group ≠ .admitted false) := by
  unfold reconcileStartupAdmission
  cases hpending : pendingStartupGroups (startupAdmissionGroups order nodes)
    (startupAdmissionPods pods) size with
  | mk requests rest =>
    obtain ⟨pending, blocked⟩ := rest
    rw [pendingStartupGroups, mk.injEq, mk.injEq] at hpending
    obtain ⟨rfl, rfl, hblocked⟩ := hpending
    cases blocked with
    | true => exact ⟨[], by simp, Nat.zero_le _, by simp, fun h => absurd rfl h⟩
    | false =>
      refine ⟨_, rfl, length_startupBatch, fun group hgroup => mem_startupBatch hgroup, ?_⟩
      intro _ group hgroup hfate
      exact any_eq_false.mp hblocked group hgroup (by simp [hfate])

theorem fate_admitted {ready : Bool} (h : fate newest size group = .admitted ready) :
    group.primary.stopped = false ∧ (startupAdmissionRequired group.primary size = false ∨
      newest[group.primary.uid]?.isSome = true) := by
  simp only [fate] at h
  split_ifs at h with hstopped hadmitted
  rw [Bool.or_eq_true, Bool.not_eq_true'] at hadmitted
  exact ⟨by simpa using hstopped, hadmitted⟩

theorem mem_reconcileStartupAdmission
    (h : request ∈ reconcileStartupAdmission order nodes pods size) :
    ∃ group ∈ startupAdmissionGroups order nodes, ∃ node ∈ group.members,
      group.primary.stopped = true ∧ request = .withdraw node ∨
        group.primary.stopped = false ∧ admitted node = false ∧ request = .admitNode node := by
  obtain ⟨batch, heq, -, hbatch, -⟩ := reconcileStartupAdmission_eq order nodes pods size
  rw [heq, mem_append, mem_flatMap, mem_flatMap] at h
  rcases h with ⟨group, hgroup, h⟩ | ⟨group, hgroup, h⟩
  · rcases mem_settleGroup h with ⟨hfate, node, hnode, -, hrequest⟩ |
      ⟨ready, hfate, node, hnode, hrequired, hrequest⟩
    · exact ⟨group, hgroup, node, hnode, .inl ⟨fate_eq_stopped.mp hfate, hrequest⟩⟩
    · exact ⟨group, hgroup, node, hnode,
        .inr ⟨(fate_admitted hfate).1, by simpa [admitted] using hrequired, hrequest⟩⟩
  · obtain ⟨node, hnode, hrequired, hrequest⟩ := mem_admitStartupGroup h
    obtain ⟨hmem, hfate⟩ := hbatch group hgroup
    exact ⟨group, hmem, node, hnode,
      .inr ⟨(fate_eq_pending hfate).1, by simpa [admitted] using hrequired, hrequest⟩⟩

variable (hnamed : Named nodes)

include hnamed

theorem admit_mem (h : .admitNode node ∈ reconcileStartupAdmission order nodes pods size) :
    node ∈ nodes ∧ admitted node = false ∧ (node.isPrimary = true → node.stopped = false) := by
  obtain ⟨group, hgroup, member, hmember, ⟨-, hrequest⟩ | ⟨hrunning, hnot, hrequest⟩⟩ :=
    mem_reconcileStartupAdmission h
  · cases hrequest
  · cases hrequest
    obtain ⟨hnode, hprimary⟩ := (mem_startupAdmissionGroups hnamed hgroup).2 node hmember
    exact ⟨hnode, hnot, fun h => hprimary h ▸ hrunning⟩

theorem withdraw_mem (h : .withdraw node ∈ reconcileStartupAdmission order nodes pods size) :
    node ∈ nodes ∧ (node.isPrimary = true → node.stopped = true) := by
  obtain ⟨group, hgroup, member, hmember, ⟨hstopped, hrequest⟩ | ⟨-, -, hrequest⟩⟩ :=
    mem_reconcileStartupAdmission h
  · cases hrequest
    obtain ⟨hnode, hprimary⟩ := (mem_startupAdmissionGroups hnamed hgroup).2 node hmember
    exact ⟨hnode, fun h => hprimary h ▸ hstopped⟩
  · cases hrequest

theorem slots_of_admit (hsize : 0 < size) {done : List Request}
    (hdone : done <+: reconcileStartupAdmission order nodes pods size) {slot : Node}
    (hslot : .admitNode slot ∈ done) (hprimary : slot.isPrimary = true)
    (hpod : (startupAdmissionPods pods)[slot.uid]? = none) :
    ∃ taken : List String, taken.length ≤ size ∧ ∀ seen ∈ nodes, seen.deleting = false →
      seen.ignored = false → seen.isPrimary = true →
      admitted seen = true ∨ .admitNode seen ∈ done → .withdraw seen ∉ done →
      sandboxReady pods seen.uid = true ∨ seen.uid ∈ taken := by
  obtain ⟨batch, heq, hlength, hbatch, hopen⟩ := reconcileStartupAdmission_eq order nodes pods size
  have hnot := (admit_mem hnamed (hdone.mem hslot)).2.1
  -- a primary of a group that is settled is admitted or has a Pod
  have hsettled : ∀ {seen : Node}, seen.isPrimary = true →
      .admitNode seen ∈ (startupAdmissionGroups order nodes).flatMap
        (settleGroup (startupAdmissionPods pods) size) →
      admitted seen = true ∨ (startupAdmissionPods pods)[seen.uid]?.isSome = true := by
    intro seen hseen h
    obtain ⟨group, hgroup, h⟩ := mem_flatMap.mp h
    rcases mem_settleGroup h with ⟨-, node, -, -, hrequest⟩
      | ⟨ready, hfate, node, hnode, -, hrequest⟩
    · cases hrequest
    · cases hrequest
      have hsame := ((mem_startupAdmissionGroups hnamed hgroup).2 seen hnode).2 hseen
      have h := (fate_admitted hfate).2
      rw [startupAdmissionRequired_eq hsize, Bool.not_eq_false', ← hsame] at h
      exact h
  have hlate : .admitNode slot ∉ (startupAdmissionGroups order nodes).flatMap
      (settleGroup (startupAdmissionPods pods) size) := by
    intro h
    rcases hsettled hprimary h with h | h
    · rw [hnot] at h
      cases h
    · rw [hpod] at h
      cases h
  rw [heq] at hdone
  have hfirst := prefix_of_mem_of_notMem hdone hslot hlate
  have hunblocked := hopen (by
    rintro rfl
    simpa [hlate] using hdone.mem hslot)
  refine ⟨batch.map fun group => group.primary.uid, by simpa using hlength, ?_⟩
  intro seen hseen hdeleting hignored hisPrimary hadmission hwithdrawn
  obtain ⟨group, hgroup, rfl⟩ := exists_startupAdmissionGroup order hnamed hseen hdeleting hignored
    hisPrimary
  by_cases hstopped : group.primary.stopped = true
  · -- a stopped group was withdrawn, and none is admitted
    rcases hadmission with hadmitted | hadmit
    · refine absurd (hfirst.mem (mem_flatMap.mpr ⟨group, hgroup, ?_⟩)) hwithdrawn
      rw [settleGroup, fate_eq_stopped.mpr hstopped]
      exact mem_map_of_mem (mem_filter.mpr
        ⟨(mem_startupAdmissionGroups hnamed hgroup).1, isSome_of_admitted hadmitted⟩)
    · have hrunning := (admit_mem hnamed (heq ▸ hdone.mem hadmit)).2.2 hisPrimary
      rw [hstopped] at hrunning
      cases hrunning
  · rw [Bool.not_eq_true] at hstopped
    by_cases hshown : admitted group.primary = true ∨
        (startupAdmissionPods pods)[group.primary.uid]?.isSome = true
    · left
      have hfate := hunblocked group hgroup
      rw [fate_eq_admitted hstopped
        (by rwa [startupAdmissionRequired_eq hsize, Bool.not_eq_false'])] at hfate
      simpa [sandboxReady] using hfate
    · right
      have hadmit := hadmission.resolve_left fun h => hshown (.inl h)
      have hmem := hdone.mem hadmit
      rw [mem_append] at hmem
      obtain ⟨other, hother, hmem⟩ := mem_flatMap.mp
        (hmem.resolve_left fun h => hshown (hsettled hisPrimary h))
      obtain ⟨node, hnode, -, hrequest⟩ := mem_admitStartupGroup hmem
      cases hrequest
      have hsame := ((mem_startupAdmissionGroups hnamed (hbatch other hother).1).2 _ hnode).2
        hisPrimary
      exact mem_map.mpr ⟨other, hother, by rw [hsame]⟩

end Requests

end Clabernetes.Startup.Admission
