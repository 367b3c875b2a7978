import Clabernetes.Base.Counting
import Clabernetes.Base.Runs
import Clabernetes.Startup.Rollout

/-!
# Batches of a Topology

A run is any sequence of rollout passes, each cut off at any request, between which Nodes come to be
owned by the Topology, Nodes start and the Pods change. Nothing is kept between two passes but the
Nodes, so a restart of the manager is no event. What was held or ready earlier is read off the
events.
-/

namespace Clabernetes.Startup

open Base Std List Option ExtTreeMap GoMap

def ownNodes (topology : Topology) (nodes : GoMap String Node) : GoMap String Node :=
  nodes.filter fun _ node => ownedBy node topology

inductive Event where
  /-- A pass that makes at most `count` requests. -/
  | pass (compiled : List String) (rank order : String → ℕ) (count : ℕ)
  /-- A Node that the Topology did not own is created or changed. -/
  | join (name : String) (node : Node)
  | start (name : String)
  | pods (pods : List Pod)

def Node.start (node : Node) : Node := { node with stopped := false }

def step (topology : Topology) (cluster : Cluster) : Event → Option Cluster
  | .pass compiled rank order count => some (rolloutPass topology compiled rank order count cluster)
  | .join name node => some { cluster with nodes := cluster.nodes.insert name node }
  | .start name => some { cluster with nodes := cluster.nodes.modify name Node.start }
  | .pods pods => some { cluster with pods := pods }

/-- No Node of the Topology is deleted, so each is one of the definition's. The definition has no
cycle of network modes (`noCycle_of_compile`). -/
def Environment (topology : Topology) (cluster : Cluster) : Event → Prop
  | .pass compiled _ _ _ => ∀ name ∈ ownNodes topology cluster.nodes, name ∈ compiled
  | .join name node => name ∉ ownNodes topology cluster.nodes ∧
      NoCycle (ownNodes topology (cluster.nodes.insert name node))
  | .start _ => True
  | .pods _ => True

def Event.touches : Event → Option String
  | .join name _ => some name
  | .start name => some name
  | .pass .. => none
  | .pods _ => none

/-- The group of a held primary has a member that is not held. -/
def HalfReleased (nodes : GoMap String Node) (primary : String) : Prop :=
  IsRunning nodes primary ∧ IsHeld nodes primary ∧
    ∃ member, IsReleased nodes member ∧ resolvePrimaryNode nodes member = primary

/-- While a group is half released, no Node is created or started whose name comes first. -/
def Undisturbed (topology : Topology) (cluster : Cluster) (event : Event) : Prop :=
  ∀ name, event.touches = some name →
    ∀ primary, HalfReleased (ownNodes topology cluster.nodes) primary → primary ≤ name

section History

variable (topology : Topology) (init : Cluster)

def HeldAt (name : String) (events : List Event) : Prop :=
  ∃ s, run (step topology) init events = some s ∧ IsHeld (ownNodes topology s.nodes) name

def Cleared (events : List Event) (name : String) : Prop :=
  Once (HeldAt topology init name) events ∧
    ∃ s, run (step topology) init events = some s ∧ IsReleased (ownNodes topology s.nodes) name

/-- After the events the hold of the Node is cleared and its sandbox ready. -/
def ReadyAt (name : String) (events : List Event) : Prop :=
  Cleared topology init events name ∧
    ∃ s, run (step topology) init events = some s ∧ ∃ node : Node,
      (ownNodes topology s.nodes)[name]? = some node ∧ sandboxReady s.pods node.uid = true

/-- The primary of a running group whose hold was cleared and whose sandbox is not yet ready. -/
def Waiting (events : List Event) (primary : String) : Prop :=
  Cleared topology init events primary ∧ ¬Once (ReadyAt topology init primary) events ∧
    ∃ s, run (step topology) init events = some s ∧ ∃ node : Node,
      (ownNodes topology s.nodes)[primary]? = some node ∧ node.isPrimary = true ∧
        node.stopped = false

end History

section Steps

variable {topology : Topology} {s s' : Cluster} {e : Event}

variable {name : String}

variable {nodes : GoMap String Node}

theorem lookup_ownNodes {node : Node} :
    (ownNodes topology nodes)[name]? = some node ↔
      nodes[name]? = some node ∧ ownedBy node topology = true := by
  rw [ownNodes, getElem?_filter', filter_eq_some_iff]

theorem startupNodes_eq {compiled : List String}
    (h : ∀ name ∈ ownNodes topology nodes, name ∈ compiled) :
    startupNodes topology compiled nodes = ownNodes topology nodes := by
  ext name node
  rw [lookup_ownNodes, startupNodes, getElem?_filter', filter_eq_some_iff,
    Bool.and_eq_true, List.contains_iff_mem]
  constructor
  · rintro ⟨hnode, -, howned⟩
    exact ⟨hnode, howned⟩
  · intro hnode
    refine ⟨hnode.1, h name ?_, hnode.2⟩
    exact isSome_getElem?_iff_mem.mp (by rw [lookup_ownNodes.mpr hnode]; rfl)

/-- The Nodes that are there stay, in their groups, and do not stop. -/
structure Extends (nodes nodes' : GoMap String Node) : Prop where
  kept : ∀ (name : String) (node : Node), nodes[name]? = some node → ∃ node' : Node,
    nodes'[name]? = some node' ∧ node'.networkMode = node.networkMode ∧ node'.uid = node.uid ∧
      (node.stopped = false → node'.stopped = false)

theorem extends_rfl : Extends nodes nodes :=
  ⟨fun _ node h => ⟨node, h, rfl, rfl, id⟩⟩

section Update

variable {f : Node → Node} {changed : String → Prop} [DecidablePred changed]
  {nodes nodes' : GoMap String Node}

variable (topology) in
theorem Updated.own (h : Updated changed f nodes nodes')
    (howners : ∀ node, (f node).ownerUIDs = node.ownerUIDs) :
    Updated changed f (ownNodes topology nodes) (ownNodes topology nodes') := by
  intro name
  simp only [ownNodes, getElem?_filter', h name]
  split_ifs
  · cases nodes[name]? with
    | none => rfl
    | some node =>
      simp only [map_some, filter_some, ownedBy, howners]
      split_ifs <;> rfl
  · rfl

theorem Updated.extends (h : Updated changed f nodes nodes')
    (hf : ∀ node, (f node).networkMode = node.networkMode ∧ (f node).uid = node.uid ∧
      (node.stopped = false → (f node).stopped = false)) : Extends nodes nodes' := by
  constructor
  intro name node hnode
  rw [h name, hnode]
  split_ifs
  · exact ⟨f node, rfl, hf node⟩
  · exact ⟨node, rfl, rfl, rfl, id⟩

theorem Updated.noCycle (h : Updated changed f nodes nodes')
    (hf : ∀ node, (f node).networkMode = node.networkMode) (hcycle : NoCycle nodes) :
    NoCycle nodes' := by
  apply hcycle.of_networkModes
  intro name
  rw [h name]
  split_ifs
  · rw [Option.map_map]
    exact congrArg (nodes[name]?.map ·) (funext hf)
  · rfl

end Update

theorem pass_change {compiled : List String} {rank order : String → ℕ} {count : ℕ}
    (henv : Environment topology s (.pass compiled rank order count))
    (h : step topology s (.pass compiled rank order count) = some s') :
    ∃ cleared, Clears topology (ownNodes topology s.nodes) s.pods cleared ∧
      Updated (· ∈ cleared) Node.release s.nodes s'.nodes := by
  cases h
  rw [← startupNodes_eq henv]
  exact rolloutPass_spec topology compiled s rank order count

/-- What an event other than a pass does to the Nodes that the Topology owns. -/
structure Quiet (e : Event) (nodes nodes' : GoMap String Node) : Prop where
  holds : ∀ (name : String) (node : Node), nodes[name]? = some node →
    ∃ node' : Node, nodes'[name]? = some node' ∧ node'.startupHold = node.startupHold
  others : ∀ name : String, e.touches ≠ some name → nodes'[name]? = nodes[name]?

theorem step_cases (hcycle : NoCycle (ownNodes topology s.nodes)) (henv : Environment topology s e)
    (h : step topology s e = some s') : NoCycle (ownNodes topology s'.nodes) ∧
      Extends (ownNodes topology s.nodes) (ownNodes topology s'.nodes) ∧
      ((∃ cleared, Clears topology (ownNodes topology s.nodes) s.pods cleared ∧
          Updated (· ∈ cleared) Node.release (ownNodes topology s.nodes)
            (ownNodes topology s'.nodes)) ∨
        Quiet e (ownNodes topology s.nodes) (ownNodes topology s'.nodes)) := by
  cases e with
  | pass compiled rank order count =>
    obtain ⟨cleared, hclears, hnodes⟩ := pass_change henv h
    have hown := hnodes.own topology fun _ => rfl
    exact ⟨hown.noCycle (fun _ => rfl) hcycle, hown.extends fun _ => ⟨rfl, rfl, id⟩,
      .inl ⟨cleared, hclears, hown⟩⟩
  | join name node =>
    cases h
    obtain ⟨hname, hcycle'⟩ := henv
    have hother : ∀ other ≠ name, (ownNodes topology (s.nodes.insert name node))[other]? =
        (ownNodes topology s.nodes)[other]? := by
      intro other hne
      simp [ownNodes, lookup_insert, Ne.symm hne]
    have hne : ∀ {other : String} {found : Node},
        (ownNodes topology s.nodes)[other]? = some found → other ≠ name := by
      rintro other found hfound rfl
      exact hname (mem_of_lookup hfound)
    refine ⟨hcycle', ⟨fun other found hfound => ?_⟩, .inr ⟨fun other found hfound => ?_, ?_⟩⟩
    · exact ⟨found, by rw [hother other (hne hfound), hfound], rfl, rfl, id⟩
    · exact ⟨found, by rw [hother other (hne hfound), hfound], rfl⟩
    · intro other htouches
      exact hother other fun heq => htouches (heq ▸ rfl)
  | start name =>
    cases h
    have hnodes : Updated (name = ·) Node.start s.nodes (s.nodes.modify name Node.start) := by
      intro other
      rw [lookup_modify]
      split_ifs with heq
      · rw [heq]
      · rfl
    have hown := hnodes.own topology fun _ => rfl
    refine ⟨hown.noCycle (fun _ => rfl) hcycle,
      hown.extends fun _ => ⟨rfl, rfl, fun _ => rfl⟩, .inr ⟨?_, ?_⟩⟩
    · intro other node hnode
      rw [hown other, hnode]
      split_ifs
      · exact ⟨node.start, rfl, rfl⟩
      · exact ⟨node, rfl, rfl⟩
    · intro other htouches
      rw [hown other, if_neg]
      rintro rfl
      exact htouches rfl
  | pods pods =>
    cases h
    exact ⟨hcycle, extends_rfl, .inr ⟨fun _ node hnode => ⟨node, hnode, rfl⟩, fun _ _ => rfl⟩⟩

end Steps

section Nodes

variable {nodes nodes' : GoMap String Node} {name : String}

theorem IsRunning.mem (h : IsRunning nodes name) : name ∈ nodes := by
  obtain ⟨node, hnode, -⟩ := h
  exact mem_of_lookup hnode

theorem IsHeld.not_isReleased (h : IsHeld nodes name) : ¬IsReleased nodes name := by
  rintro ⟨node, hnode, hreleased⟩
  obtain ⟨same, hsame, hheld⟩ := h
  rw [hnode] at hsame
  cases hsame
  exact hheld hreleased

theorem isHeld_or_isReleased (h : name ∈ nodes) : IsHeld nodes name ∨ IsReleased nodes name := by
  obtain ⟨node, hnode⟩ := exists_lookup h
  by_cases hhold : node.startupHold = ""
  · exact .inr ⟨node, hnode, hhold⟩
  · exact .inl ⟨node, hnode, hhold⟩

theorem Updated.mem_of_isReleased {cleared : List String}
    (hnodes : Updated (· ∈ cleared) Node.release nodes nodes') (hheld : IsHeld nodes name)
    (hreleased : IsReleased nodes' name) : name ∈ cleared := by
  by_contra hnot
  obtain ⟨node, hnode, hhold⟩ := hreleased
  rw [hnodes name, if_neg hnot] at hnode
  exact hheld.not_isReleased ⟨node, hnode, hhold⟩

theorem Quiet.isHeld {e : Event} (h : Quiet e nodes nodes') (hheld : IsHeld nodes name) :
    IsHeld nodes' name := by
  obtain ⟨node, hnode, hhold⟩ := hheld
  obtain ⟨node', hnode', hsame⟩ := h.holds name node hnode
  exact ⟨node', hnode', hsame ▸ hhold⟩

theorem lookup_of_held {cleared : List String} {node : Node}
    (hnodes : Updated (· ∈ cleared) Node.release nodes nodes')
    (hnode : nodes'[name]? = some node) (hheld : node.startupHold ≠ "") :
    nodes[name]? = some node ∧ name ∉ cleared := by
  rw [hnodes name] at hnode
  split_ifs at hnode with hcleared
  · obtain ⟨before, -, rfl⟩ := map_eq_some_iff.mp hnode
    exact absurd rfl hheld
  · exact ⟨hnode, hcleared⟩

variable (h : Extends nodes nodes')

include h

theorem Extends.mem (hname : name ∈ nodes) : name ∈ nodes' := by
  obtain ⟨node, hnode⟩ := exists_lookup hname
  obtain ⟨node', hnode', -⟩ := h.kept name node hnode
  exact isSome_getElem?_iff_mem.mp (by rw [hnode']; rfl)

theorem Extends.isRunning (hname : IsRunning nodes name) : IsRunning nodes' name := by
  obtain ⟨node, hnode, hrunning⟩ := hname
  obtain ⟨node', hnode', -, -, hstays⟩ := h.kept name node hnode
  exact ⟨node', hnode', hstays hrunning⟩

theorem Extends.resolvePrimaryNode (hcycle : NoCycle nodes)
    (hcycle' : NoCycle nodes') (hprimary : Startup.resolvePrimaryNode nodes name ∈ nodes) :
    Startup.resolvePrimaryNode nodes' name = Startup.resolvePrimaryNode nodes name := by
  refine resolvePrimaryNode_mono hcycle hcycle' (fun other node hnode => ?_) hprimary
  obtain ⟨node', hnode', hmode, -⟩ := h.kept other node hnode
  exact ⟨node', hnode', hmode⟩

end Nodes

section Runs

variable {topology : Topology} {init s s' : Cluster} {events : List Event} {e : Event}

theorem cleared_of_released (hcycle : NoCycle (ownNodes topology s.nodes))
    (henv : Environment topology s e) (h : step topology s e = some s')
    (hheld : IsHeld (ownNodes topology s.nodes) name)
    (hreleased : IsReleased (ownNodes topology s'.nodes) name) :
    ∃ cleared, Clears topology (ownNodes topology s.nodes) s.pods cleared ∧ name ∈ cleared ∧
      Updated (· ∈ cleared) Node.release (ownNodes topology s.nodes)
        (ownNodes topology s'.nodes) := by
  rcases (step_cases hcycle henv h).2.2 with ⟨cleared, hclears, hnodes⟩ | hquiet
  · exact ⟨cleared, hclears, hnodes.mem_of_isReleased hheld hreleased, hnodes⟩
  · exact absurd hreleased (hquiet.isHeld hheld).not_isReleased

/-- What is known after the events of the Nodes that were ever held. -/
structure Settled (topology : Topology) (init : Cluster) (events : List Event) (s : Cluster) :
    Prop where
  cycle : NoCycle (ownNodes topology s.nodes)
  owned : ∀ name, Once (HeldAt topology init name) events → name ∈ ownNodes topology s.nodes
  running : ∀ name, Cleared topology init events name →
    IsRunning (ownNodes topology s.nodes)
      (resolvePrimaryNode (ownNodes topology s.nodes) name)

theorem Cleared.isReleased (h : Cleared topology init events name)
    (hs : run (step topology) init events = some s) :
    IsReleased (ownNodes topology s.nodes) name := by
  obtain ⟨-, t, ht, hreleased⟩ := h
  rw [hs] at ht
  cases ht
  exact hreleased

theorem HeldAt.isHeld (h : HeldAt topology init name events)
    (hs : run (step topology) init events = some s) : IsHeld (ownNodes topology s.nodes) name := by
  obtain ⟨t, ht, hheld⟩ := h
  rw [hs] at ht
  cases ht
  exact hheld

theorem cleared_step (hsettled : Settled topology init events s)
    (hs : run (step topology) init events = some s) (he : step topology s e = some s')
    (h : Cleared topology init (events ++ [e]) name) : Cleared topology init events name ∨
      IsHeld (ownNodes topology s.nodes) name ∧ IsReleased (ownNodes topology s'.nodes) name := by
  have hs' := run_append_singleton_eq_some.mpr ⟨s, hs, he⟩
  have hreleased := h.isReleased hs'
  have honce : Once (HeldAt topology init name) events := by
    rcases once_append_singleton.mp h.1 with honce | hnow
    · exact honce
    · exact absurd hreleased (hnow.isHeld hs').not_isReleased
  rcases isHeld_or_isReleased (hsettled.owned name honce) with hheld | hbefore
  · exact .inr ⟨hheld, hreleased⟩
  · exact .inl ⟨honce, s, hs, hbefore⟩

theorem not_cleared_nil : ¬Cleared topology init [] name := by
  rintro ⟨⟨before, hbefore, hheld⟩, t, ht, hreleased⟩
  rw [prefix_nil.mp hbefore] at hheld
  exact (hheld.isHeld ht).not_isReleased hreleased

theorem settled_init (hinit : NoCycle (ownNodes topology init.nodes)) :
    Settled topology init [] init where
  cycle := hinit
  owned := by
    rintro name ⟨before, hbefore, hheld⟩
    rw [prefix_nil.mp hbefore] at hheld
    obtain ⟨node, hnode, -⟩ := hheld.isHeld (run_nil _ _)
    exact mem_of_lookup hnode
  running name hcleared := absurd hcleared not_cleared_nil

/-- The held primary of a group with a cleared member comes before all that are pending. -/
def FirstPending (topology : Topology) (init : Cluster) (events : List Event) (s : Cluster) :
    Prop :=
  ∀ member, Cleared topology init events member →
    IsHeld (ownNodes topology s.nodes) (resolvePrimaryNode (ownNodes topology s.nodes) member) →
    ∀ (primary : String) (node : Node), (ownNodes topology s.nodes)[primary]? = some node →
      node.isPrimary = true → node.stopped = false → node.startupHold ≠ "" →
      resolvePrimaryNode (ownNodes topology s.nodes) member ≤ primary

section

variable (hsettled : Settled topology init events s)
  (hs : run (step topology) init events = some s) (henv : Environment topology s e)
  (he : step topology s e = some s')

include hsettled hs henv he

theorem running_of_cleared (h : Cleared topology init (events ++ [e]) name) :
    IsRunning (ownNodes topology s.nodes)
      (resolvePrimaryNode (ownNodes topology s.nodes) name) := by
  rcases cleared_step hsettled hs he h with hbefore | ⟨hheld, hreleased⟩
  · exact hsettled.running name hbefore
  · obtain ⟨cleared, hclears, hname, -⟩ :=
      cleared_of_released hsettled.cycle henv he hheld hreleased
    exact hclears.running name hname

theorem settled_step : Settled topology init (events ++ [e]) s' := by
  have hs' := run_append_singleton_eq_some.mpr ⟨s, hs, he⟩
  obtain ⟨hcycle', hextends, -⟩ := step_cases hsettled.cycle henv he
  refine ⟨hcycle', ?_, ?_⟩
  · intro name honce
    rcases once_append_singleton.mp honce with honce | hnow
    · exact hextends.mem (hsettled.owned name honce)
    · obtain ⟨node, hnode, -⟩ := hnow.isHeld hs'
      exact mem_of_lookup hnode
  · intro name hcleared
    have hrunning := running_of_cleared hsettled hs henv he hcleared
    rw [hextends.resolvePrimaryNode hsettled.cycle hcycle' hrunning.mem]
    exact hextends.isRunning hrunning

theorem waiting_step {primary : String} (h : Waiting topology init (events ++ [e]) primary) :
    (∃ node : Node, (ownNodes topology s.nodes)[primary]? = some node ∧ node.isPrimary = true) ∧
      (Waiting topology init events primary ∨
        IsHeld (ownNodes topology s.nodes) primary ∧
          IsReleased (ownNodes topology s'.nodes) primary) := by
  obtain ⟨hcleared, hready, t, ht, node', hnode', hprimary', -⟩ := h
  rw [run_append_singleton_eq_some.mpr ⟨s, hs, he⟩] at ht
  cases ht
  obtain ⟨-, hextends, -⟩ := step_cases hsettled.cycle henv he
  have hcases := cleared_step hsettled hs he hcleared
  have hmem : primary ∈ ownNodes topology s.nodes := by
    rcases hcases with hbefore | ⟨hheld, -⟩
    · exact hsettled.owned primary hbefore.1
    · exact hsettled.owned primary (.now ⟨s, hs, hheld⟩)
  obtain ⟨node, hnode⟩ := exists_lookup hmem
  have hprimary : node.isPrimary = true := by
    obtain ⟨same, hsame, hmode, -⟩ := hextends.kept primary node hnode
    rw [hnode'] at hsame
    cases hsame
    rwa [Node.isPrimary, ← hmode]
  refine ⟨⟨node, hnode, hprimary⟩, hcases.imp (fun hbefore => ?_) id⟩
  refine ⟨hbefore, fun honce => hready (once_append_singleton.mpr (.inl honce)), s, hs, node, hnode,
    hprimary, ?_⟩
  have hrunning := hsettled.running primary hbefore
  rw [resolvePrimaryNode_of_isPrimary hnode hprimary] at hrunning
  obtain ⟨same, hsame, hrunning⟩ := hrunning
  rw [hnode] at hsame
  cases hsame
  exact hrunning

/-- A batch is opened when nothing is waited for, and it is no larger than the bound. -/
theorem waiting_bound_step (hsize : 0 < topology.batchSize)
    (h : {primary | Waiting topology init events primary}.encard ≤ topology.batchSize) :
    {primary | Waiting topology init (events ++ [e]) primary}.encard ≤ topology.batchSize := by
  by_cases hopened : ∃ primary, Waiting topology init (events ++ [e]) primary ∧
      IsHeld (ownNodes topology s.nodes) primary ∧ IsReleased (ownNodes topology s'.nodes) primary
  · obtain ⟨opened, hwaiting, hheld, hreleased⟩ := hopened
    obtain ⟨cleared, hclears, hopened, hnodes⟩ :=
      cleared_of_released hsettled.cycle henv he hheld hreleased
    obtain ⟨batch, hlength, hbatch⟩ := hclears.batch hsize
    have hself : ∀ {primary}, Waiting topology init (events ++ [e]) primary →
        resolvePrimaryNode (ownNodes topology s.nodes) primary = primary := by
      intro primary hprimary
      obtain ⟨⟨node, hnode, hisPrimary⟩, -⟩ := waiting_step hsettled hs henv he hprimary
      exact resolvePrimaryNode_of_isPrimary hnode hisPrimary
    refine encard_le_of_subset_list batch (fun primary hprimary => ?_) hlength
    rcases (waiting_step hsettled hs henv he hprimary).2 with hbefore | ⟨hheld', hreleased'⟩
    · obtain ⟨hbefore, hnever, t, ht, node, hnode, hisPrimary, hrunning⟩ := hbefore
      rw [hs] at ht
      cases ht
      obtain ⟨same, hsame, hhold⟩ := hbefore.isReleased hs
      rw [hnode] at hsame
      cases hsame
      have hready := hclears.ready hsize opened hopened ((hself hwaiting).symm ▸ hheld) primary node
        hnode hisPrimary hrunning hhold
      exact absurd (Once.now ⟨hbefore, s, hs, node, hnode, hready⟩) hnever
    · have hin := hbatch primary (hnodes.mem_of_isReleased hheld' hreleased')
        ((hself hprimary).symm ▸ hheld')
      rwa [hself hprimary] at hin
  · refine (Set.encard_le_encard fun primary hprimary => ?_).trans h
    refine (waiting_step hsettled hs henv he hprimary).2.resolve_right fun hnew => ?_
    exact hopened ⟨primary, hprimary, hnew⟩

theorem firstPending_step (hundisturbed : Undisturbed topology s e)
    (h : FirstPending topology init events s) : FirstPending topology init (events ++ [e]) s' := by
  intro member hcleared hheld primary node hnode hprimary hrunning hhold
  obtain ⟨hcycle', hextends, hcases⟩ := step_cases hsettled.cycle henv he
  have hgroup := running_of_cleared hsettled hs henv he hcleared
  rw [hextends.resolvePrimaryNode hsettled.cycle hcycle' hgroup.mem] at hheld ⊢
  rcases hcases with ⟨cleared, hclears, hnodes⟩ | hquiet
  · obtain ⟨first, hfirst, hfirstHeld⟩ := hheld
    have hheld := (lookup_of_held hnodes hfirst hfirstHeld).1
    obtain ⟨hbefore, hnot⟩ := lookup_of_held hnodes hnode hhold
    rcases cleared_step hsettled hs he hcleared with hcleared | ⟨hmember, hreleased⟩
    · exact h member hcleared ⟨first, hheld, hfirstHeld⟩ primary node hbefore hprimary hrunning
        hhold
    · -- the pass itself began the group, so it had come past every smaller one
      have hself := resolvePrimaryNode_of_isPrimary hbefore hprimary
      by_contra hlt
      have hfinished := hclears.finished member
        (hnodes.mem_of_isReleased hmember hreleased) ⟨first, hheld, hfirstHeld⟩ primary
        (mem_of_lookup hbefore)
        (by rw [hself]; exact ⟨node, hbefore, hrunning⟩)
        (.inr (by rw [hself]; exact lt_of_not_ge hlt))
      exact hfinished.elim (fun hnotHeld => hnotHeld ⟨node, hbefore, hhold⟩) hnot
  · have hkept : ∀ {name}, name ∈ ownNodes topology s.nodes →
        IsHeld (ownNodes topology s'.nodes) name → IsHeld (ownNodes topology s.nodes) name := by
      intro name hname hheld
      refine (isHeld_or_isReleased hname).resolve_right ?_
      rintro ⟨before, hbefore, hreleased⟩
      obtain ⟨after, hafter, hsame⟩ := hquiet.holds name before hbefore
      exact hheld.not_isReleased ⟨after, hafter, hsame.trans hreleased⟩
    have hheld := hkept hgroup.mem hheld
    have hcleared : Cleared topology init events member := by
      refine (cleared_step hsettled hs he hcleared).resolve_right ?_
      rintro ⟨hmember, hreleased⟩
      exact (hquiet.isHeld hmember).not_isReleased hreleased
    by_cases htouches : e.touches = some primary
    · exact hundisturbed primary htouches _
        ⟨hgroup, hheld, member, hcleared.isReleased hs, rfl⟩
    · rw [hquiet.others primary htouches] at hnode
      exact h member hcleared hheld primary node hnode hprimary hrunning hhold

end

theorem settled_of_run (hinit : NoCycle (ownNodes topology init.nodes))
    (henv : RunMeets (step topology) init (Environment topology) events)
    (hs : run (step topology) init events = some s) : Settled topology init events s :=
  run_invariant (settled_init hinit)
    (fun _ _ _ _ hs hsettled henv he => settled_step hsettled hs henv he) events s henv hs

theorem waiting_bound (hsize : 0 < topology.batchSize)
    (hinit : NoCycle (ownNodes topology init.nodes))
    (henv : RunMeets (step topology) init (Environment topology) events)
    (hs : run (step topology) init events = some s) :
    {primary | Waiting topology init events primary}.encard ≤ topology.batchSize := by
  refine (run_invariant (P := fun events s => Settled topology init events s ∧
    {primary | Waiting topology init events primary}.encard ≤ topology.batchSize) ?_ ?_
    events s henv hs).2
  · refine ⟨settled_init hinit, ?_⟩
    exact encard_le_of_subset_list []
      (fun primary hprimary => absurd hprimary.1 not_cleared_nil) (Nat.zero_le _)
  · intro events s e s' hs hinv henv he
    exact ⟨settled_step hinv.1 hs henv he, waiting_bound_step hinv.1 hs henv he hsize hinv.2⟩

theorem firstPending_of_run (hinit : NoCycle (ownNodes topology init.nodes))
    (henv : RunMeets (step topology) init (Environment topology) events)
    (hundisturbed : RunMeets (step topology) init (Undisturbed topology) events)
    (hs : run (step topology) init events = some s) : FirstPending topology init events s := by
  refine (run_invariant (P := fun events s => Settled topology init events s ∧
    FirstPending topology init events s) ?_ ?_ events s (henv.and hundisturbed) hs).2
  · exact ⟨settled_init hinit, fun member hcleared => absurd hcleared not_cleared_nil⟩
  · intro events s e s' hs hinv hallowed he
    exact ⟨settled_step hinv.1 hs hallowed.1 he,
      firstPending_step hinv.1 hs hallowed.1 he hallowed.2 hinv.2⟩

end Runs

/-- At most `batchSize` groups are waited for, a group is begun only when the admitted ones are
ready and the released ones whole, and a foreign hold is never cleared. -/
theorem rollout_batches {topology : Topology} (hsize : 0 < topology.batchSize) {init s : Cluster}
    {events : List Event} (hinit : NoCycle (ownNodes topology init.nodes))
    (henv : RunMeets (step topology) init (Environment topology) events)
    (hs : run (step topology) init events = some s) :
    {primary | Waiting topology init events primary}.encard ≤ topology.batchSize ∧
      ∀ (compiled : List String) (rank order : String → ℕ) (count : ℕ) (s' : Cluster),
        Environment topology s (.pass compiled rank order count) →
        step topology s (.pass compiled rank order count) = some s' →
        (∀ name, IsHeld (ownNodes topology s.nodes) name →
          IsReleased (ownNodes topology s'.nodes) name →
          IsHeld (ownNodes topology s.nodes)
            (resolvePrimaryNode (ownNodes topology s.nodes) name) →
          (∀ (primary : String) (node : Node), (ownNodes topology s.nodes)[primary]? = some node →
            node.isPrimary = true → node.stopped = false → node.startupHold = "" →
            sandboxReady s.pods node.uid = true) ∧
          (RunMeets (step topology) init (Undisturbed topology) events →
            ∀ released member, Cleared topology init events released →
              member ∈ ownNodes topology s.nodes →
              resolvePrimaryNode (ownNodes topology s.nodes) member =
                resolvePrimaryNode (ownNodes topology s.nodes) released →
              resolvePrimaryNode (ownNodes topology s.nodes) released ≠
                resolvePrimaryNode (ownNodes topology s.nodes) name →
              ¬IsHeld (ownNodes topology s'.nodes) member)) ∧
        ∀ (name : String) (node : Node), s.nodes[name]? = some node →
          node.startupHold ≠ topology.uid → s'.nodes[name]? = some node := by
  have hsettled := settled_of_run hinit henv hs
  refine ⟨waiting_bound hsize hinit henv hs, ?_⟩
  intro compiled rank order count s' hpass hstep
  constructor
  · intro name hheld hreleased hbegun
    obtain ⟨cleared, hclears, hname, hnodes⟩ :=
      cleared_of_released hsettled.cycle hpass hstep hheld hreleased
    refine ⟨hclears.ready hsize name hname hbegun, ?_⟩
    intro hundisturbed released member hcleared hmember hsame hother
    have hrunning := hsettled.running released hcleared
    have hfirst : ¬IsHeld (ownNodes topology s.nodes)
          (resolvePrimaryNode (ownNodes topology s.nodes) released) ∨
        resolvePrimaryNode (ownNodes topology s.nodes) released <
          resolvePrimaryNode (ownNodes topology s.nodes) name := by
      by_cases hhalf : IsHeld (ownNodes topology s.nodes)
          (resolvePrimaryNode (ownNodes topology s.nodes) released)
      · right
        obtain ⟨node, hnode, hhold⟩ := hbegun
        have hprimary := isPrimary_of_resolvePrimaryNode hsettled.cycle rfl hnode
        obtain ⟨same, hnodeSame, hstopped⟩ := hclears.running name hname
        rw [hnode] at hnodeSame
        cases hnodeSame
        exact (firstPending_of_run hinit henv hundisturbed hs released hcleared hhalf _ node hnode
          hprimary hstopped hhold).lt_of_ne hother
      · exact .inl hhalf
    rw [← hsame] at hfirst hrunning
    rintro ⟨node', hnode', hhold'⟩
    obtain ⟨hnode, hnot⟩ := lookup_of_held hnodes hnode' hhold'
    exact (hclears.finished name hname hbegun member hmember hrunning hfirst).elim
      (fun h => h ⟨node', hnode, hhold'⟩) hnot
  · intro name node hnode hhold
    obtain ⟨cleared, hclears, hnodes⟩ := pass_change hpass hstep
    rw [hnodes name, if_neg, hnode]
    intro hcleared
    obtain ⟨found, hfound, howner, -⟩ := hclears.own name hcleared
    rw [(lookup_ownNodes.mp hfound).1] at hnode
    cases hnode
    exact hhold howner

def pairs : Topology := { uid := "uid", batchSize := 2 }

def singles : Topology := { uid := "uid", batchSize := 1 }

def heldNode (name networkMode : String) (stopped : Bool) : Node :=
  { name := name, uid := name, ownerUIDs := ["uid"], networkMode := networkMode,
    stopped := stopped, startupHold := "uid" }

def routers : Cluster where
  nodes := .ofList [("r1", heldNode "r1" "" false),
    ("r1-console", heldNode "r1-console" "container:r1" false), ("r2", heldNode "r2" "" false)]
  pods := []

def consoleFirst (name : String) : ℕ := if name = "r1-console" ∨ name = "r2-console" then 0 else 1

def cutPass : Event := .pass ["r1", "r1-console", "r2"] consoleFirst consoleFirst 2

theorem forall_mem_ownNodes {topology : Topology} {P : String → Prop}
    (h : ∀ name ∈ (ownNodes topology nodes).keys, P name) :
    ∀ name ∈ ownNodes topology nodes, P name :=
  fun name hname => h name (ExtTreeMap.mem_keys.mpr hname)

/-- The pass after it begins the second group and completes the first. -/
theorem routers_completed :
    ∃ s s', run (step pairs) routers [cutPass] = some s ∧
      step pairs s (.pass ["r1", "r1-console", "r2"] consoleFirst consoleFirst 4) = some s' ∧
      {primary | Waiting pairs routers [cutPass] primary}.encard ≤ 2 ∧
      IsHeld (ownNodes pairs s.nodes) "r1" ∧ IsReleased (ownNodes pairs s'.nodes) "r2" ∧
      ¬IsHeld (ownNodes pairs s'.nodes) "r1" := by
  have hinit : NoCycle (ownNodes pairs routers.nodes) := noCycle_of_flat (by decide +kernel)
  have henv : RunMeets (step pairs) routers (Environment pairs) [cutPass] :=
    runMeets_cons (forall_mem_ownNodes (by decide +kernel)) fun _ _ => runMeets_nil
  have hundisturbed : RunMeets (step pairs) routers (Undisturbed pairs) [cutPass] :=
    runMeets_cons nofun fun _ _ => runMeets_nil
  obtain ⟨hbound, hpass⟩ := rollout_batches (by decide) hinit henv rfl
  obtain ⟨hbegun, -⟩ := hpass ["r1", "r1-console", "r2"] consoleFirst consoleFirst 4 _
    (forall_mem_ownNodes (by decide +kernel)) rfl
  refine ⟨_, _, rfl, rfl, hbound, by decide +kernel, by decide +kernel, ?_⟩
  obtain ⟨-, hcompleted⟩ := hbegun "r2" (by decide +kernel) (by decide +kernel) (by decide +kernel)
  refine hcompleted hundisturbed "r1-console" "r1" ⟨⟨[], nil_prefix, _, rfl, ?_⟩, _, rfl, ?_⟩
    (by decide +kernel) (by decide +kernel) (by decide +kernel)
  · decide +kernel
  · decide +kernel

def stoppedRouter : Cluster where
  nodes := .ofList [("r1", heldNode "r1" "" true), ("r2", heldNode "r2" "" false),
    ("r2-console", heldNode "r2-console" "container:r2" false)]
  pods := []

/-- The pass has cleared the hold of the console only when the stopped Node is started. -/
def startedBetween : List Event :=
  [.pass ["r1", "r2", "r2-console"] consoleFirst consoleFirst 2, .start "r1"]

/-- The pass after it releases the started Node, and leaves the other group half released. -/
theorem left_half_released :
    RunMeets (step singles) stoppedRouter (Environment singles) startedBetween ∧
      ∃ s s', run (step singles) stoppedRouter startedBetween = some s ∧
        step singles s (.pass ["r1", "r2", "r2-console"] consoleFirst consoleFirst 4) = some s' ∧
        Environment singles s (.pass ["r1", "r2", "r2-console"] consoleFirst consoleFirst 4) ∧
        Cleared singles stoppedRouter startedBetween "r2-console" ∧
        resolvePrimaryNode (ownNodes singles s.nodes) "r2-console" = "r2" ∧
        resolvePrimaryNode (ownNodes singles s.nodes) "r1" = "r1" ∧
        IsHeld (ownNodes singles s.nodes) "r1" ∧ IsReleased (ownNodes singles s'.nodes) "r1" ∧
        IsHeld (ownNodes singles s'.nodes) "r2" := by
  refine ⟨runMeets_cons (forall_mem_ownNodes (by decide +kernel)) fun s hs =>
    runMeets_cons trivial fun _ _ => runMeets_nil, _, _, rfl, rfl,
    forall_mem_ownNodes (by decide +kernel),
    ⟨⟨[], nil_prefix, _, rfl, by decide +kernel⟩, _, rfl, by decide +kernel⟩, ?_⟩
  decide +kernel

end Clabernetes.Startup
