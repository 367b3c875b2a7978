import Clabernetes.Base.Lagging
import Clabernetes.Startup.Admission

/-!
# A manager that lags behind its writes

The manager makes one pass of startup admission after the other. A pass reads the Nodes from a cache
that may lag behind its own writes and ends where a request fails; between any two requests Nodes
are created, edited and removed. Nodes do not change their group, and only the manager writes the
mark of an admission.
-/

namespace Clabernetes.Startup.Admission

open Base Std List GoMap Lagging

instance : Versioned Node where
  version := Node.resourceVersion
  stamp v node := { node with resourceVersion := v }
  version_stamp _ _ := rfl

structure Pass where
  order : Order
  nodes : List Node
  pods : List Pod
  size : ℕ
  done : List Request := []
  todo : List Request

structure Manager where
  store : Lagging Node
  written : Written := ∅
  pass : Option Pass := none

def edit (stopped deleting : Bool) (hold : String) (node : Node) : Node :=
  { node with stopped := stopped, deleting := node.deleting || deleting, startupHold := hold }

inductive Event where
  | create (node : Node)
  | edit (uid : String) (stopped deleting : Bool) (hold : String)
  | remove (uid : String)
  /-- A pass begins. It reads a state that many states later than the last pass did. -/
  | pass (later : ℕ) (list : String → ℕ) (order : Order) (pods : List Pod) (size : ℕ)
  /-- The next request of the pass, which may fail for any reason. -/
  | request (ok : Bool)

/-- The requests of a pass and what it leaves of the written admissions;
`startupadmission.go:121-150`. -/
def beginPass (manager : Manager) (list : String → ℕ) (order : Order) (pods : List Pod)
    (size : ℕ) : Manager :=
  if size = 0 then { manager with pass := none }
  else
    let (written, nodes) := observeStartupAdmissions manager.written
      ((manager.store.cache.iterate list).map Prod.snd) size
    let todo := reconcileStartupAdmission order nodes pods size
    { manager with written := written, pass := some { order, nodes, pods, size, todo } }

def performRequest (manager : Manager) (pass : Pass) (request : Request) (todo : List Request)
    (ok : Bool) : Manager :=
  let ended : Manager := { manager with pass := some { pass with todo := [] } }
  let next : Pass := { pass with done := pass.done ++ [request], todo := todo }
  if ok then
    match request with
    | .admitNode node =>
      match manager.store.patch node.uid node.resourceVersion admitNode with
      | none => ended
      | some store =>
        { store := store, written := manager.written.insert node.uid (), pass := some next }
    | .withdraw node =>
      match manager.store.patch node.uid node.resourceVersion withdraw with
      | none => ended
      | some store =>
        { store := store, written := manager.written.erase node.uid, pass := some next }
  else ended

def nameTaken (nodes : GoMap String Node) (node : Node) : Bool :=
  nodes.anyEntry fun _ other => other.namespaceName == node.namespaceName && other.name == node.name

def step (manager : Manager) : Event → Option Manager
  | .create node =>
    if node.uid = "" ∨ admitted node = true ∨ nameTaken manager.store.current node = true then none
    else (manager.store.create node.uid node).map fun store => { manager with store := store }
  | .edit uid stopped deleting hold =>
    (manager.store.update uid (edit stopped deleting hold)).map fun store =>
      { manager with store := store }
  | .remove uid => some { manager with store := manager.store.remove uid }
  | .pass later list order pods size =>
    -- one worker: the last pass has ended
    if manager.pass.any (fun pass => !pass.todo.isEmpty) then none
    else (manager.store.advance later).map fun store =>
      beginPass { manager with store := store } list order pods size
  | .request ok =>
    match manager.pass with
    | none => none
    | some pass =>
      match pass.todo with
      | [] => none
      | request :: todo => some (performRequest manager pass request todo ok)

structure Static (node node' : Node) : Prop where
  uid : node'.uid = node.uid
  namespaceName : node'.namespaceName = node.namespaceName
  name : node'.name = node.name
  networkMode : node'.networkMode = node.networkMode
  ignored : node'.ignored = node.ignored
  deleting : node.deleting = true → node'.deleting = true

theorem static_refl (node : Node) : Static node node := ⟨rfl, rfl, rfl, rfl, rfl, id⟩

theorem static_trans (a b c : Node) (hab : Static a b) (hbc : Static b c) : Static a c :=
  ⟨hbc.uid.trans hab.uid, hbc.namespaceName.trans hab.namespaceName, hbc.name.trans hab.name,
    hbc.networkMode.trans hab.networkMode, hbc.ignored.trans hab.ignored,
    fun h => hbc.deleting (hab.deleting h)⟩

/-- Nodes are kept under their UID, and have a name of their own. -/
structure Keyed (nodes : GoMap String Node) : Prop where
  uid : ∀ (uid : String) (node : Node), nodes[uid]? = some node → node.uid = uid ∧ uid ≠ ""
  name : ∀ (uid uid' : String) (node node' : Node), nodes[uid]? = some node →
    nodes[uid']? = some node' → node.namespaceName = node'.namespaceName →
    node.name = node'.name → uid = uid'

abbrev Stored : Lagging Node → Prop := Kept Static Keyed

section Store

variable {store store' : Lagging Node} {uid : String} {node : Node}

variable (h : Stored store)

include h

theorem stored_insert {node' : Node} (hnode : store.current[uid]? = some node)
    (hstatic : Static node node') :
    Stored (store.push (store.current.insert uid (Versioned.stamp (store.last + 1) node'))) := by
  have hkeyed := h.keyed _ current_mem_states
  have hstamp : Static node (Versioned.stamp (store.last + 1) node') :=
    ⟨hstatic.uid, hstatic.namespaceName, hstatic.name, hstatic.networkMode, hstatic.ignored,
      hstatic.deleting⟩
  have hlookup : ∀ (other : String) (found : Node),
      (store.current.insert uid (Versioned.stamp (store.last + 1) node'))[other]? = some found →
      ∃ before, store.current[other]? = some before ∧ Static before found := by
    intro other found hfound
    rw [lookup_insert] at hfound
    split_ifs at hfound with heq
    · cases hfound
      exact ⟨node, heq ▸ hnode, hstamp⟩
    · exact ⟨found, hfound, static_refl found⟩
  refine h.insert static_refl static_trans (.inl ⟨node, hnode, hstamp⟩) ⟨?_, ?_⟩
  · intro other found hfound
    obtain ⟨before, hbefore, hsame⟩ := hlookup other found hfound
    rw [hsame.uid]
    exact hkeyed.uid other before hbefore
  · intro a b x y hx hy hnamespace hname
    obtain ⟨x', hx', hxx⟩ := hlookup a x hx
    obtain ⟨y', hy', hyy⟩ := hlookup b y hy
    exact hkeyed.name a b x' y' hx' hy'
      (hxx.namespaceName.symm.trans (hnamespace.trans hyy.namespaceName))
      (hxx.name.symm.trans (hname.trans hyy.name))

theorem stored_create (huid : node.uid ≠ "") (hname : nameTaken store.current node = false)
    (hcreate : store.create node.uid node = some store') : Stored store' := by
  obtain ⟨hfresh, rfl⟩ := create_spec hcreate
  have hkeyed := h.keyed _ current_mem_states
  rw [nameTaken, anyEntry_eq_false_iff] at hname
  have hclash : ∀ (other : String) (found : Node), store.current[other]? = some found →
      node.namespaceName = found.namespaceName → node.name = found.name → False := by
    intro other found hfound hnamespace hsame
    simpa [hnamespace, hsame] using hname other found hfound
  refine h.insert static_refl static_trans (.inr hfresh) ⟨?_, ?_⟩
  · intro other found hfound
    rw [lookup_insert] at hfound
    split_ifs at hfound with heq
    · cases hfound
      exact ⟨heq, heq ▸ huid⟩
    · exact hkeyed.uid other found hfound
  · intro a b x y hx hy hnamespace hsame
    rw [lookup_insert] at hx hy
    split_ifs at hx hy with ha hb
    · exact ha.symm.trans hb
    · cases hx
      exact (hclash b y hy hnamespace hsame).elim
    · cases hy
      exact (hclash a x hx hnamespace.symm hsame.symm).elim
    · exact hkeyed.name a b x y hx hy hnamespace hsame

theorem stored_remove : Stored (store.remove uid) := by
  have hkeyed := h.keyed _ current_mem_states
  have hlookup : ∀ (other : String) (found : Node),
      (store.current.erase uid)[other]? = some found → store.current[other]? = some found := by
    intro other found hfound
    rw [lookup_erase] at hfound
    split_ifs at hfound
    exact hfound
  exact h.remove static_refl static_trans
    ⟨fun other found hfound => hkeyed.uid other found (hlookup other found hfound),
      fun a b x y hx hy => hkeyed.name a b x y (hlookup a x hx) (hlookup b y hy)⟩

end Store

/-- An admission that is there is seen in every state since the last read, or is written down; and
one that is written down was not withdrawn since it can be seen. -/
structure Known (store : Lagging Node) (written : Written) : Prop where
  seen : ∀ (uid : String) (node : Node), store.current[uid]? = some node → admitted node = true →
    ∀ w ∈ store.states, ∃ seen : Node, w[uid]? = some seen ∧ (admitted seen = true ∨ uid ∈ written)
  visible : ∀ uid ∈ written, store.states.Pairwise fun w w' => ∀ x x' : Node, w[uid]? = some x →
    admitted x = true → w'[uid]? = some x' → admitted x' = true

/-- What a write can do to the admission of a Node. -/
inductive Marks (store : Lagging Node) (written written' : Written) (nodes : GoMap String Node)
    (uid : String) : Prop where
  | kept (hwritten : uid ∈ written' ↔ uid ∈ written)
      (h : ∀ node' : Node, nodes[uid]? = some node' →
        (∃ node, store.current[uid]? = some node ∧ admitted node' = admitted node) ∨
          (∀ w ∈ store.states, uid ∉ w) ∧ admitted node' = false)
  | admitted (hwritten : uid ∈ written')
      (h : ∀ w ∈ store.states, ∃ x : Node, w[uid]? = some x ∧ admitted x = false)
  | withdrawn (hwritten : uid ∉ written')
      (h : ∀ node' : Node, nodes[uid]? = some node' → admitted node' = false)

section Knows

variable {store store' : Lagging Node} {written written' : Written} {nodes : GoMap String Node}

theorem known_push (h : Known store written)
    (hmarks : ∀ uid : String, Marks store written written' nodes uid) :
    Known (store.push nodes) written' := by
  constructor
  · intro uid node' hnode' hadmitted w hw
    rw [current_push] at hnode'
    rw [states_push, mem_append, mem_singleton] at hw
    rcases hw with hw | rfl
    · cases hmarks uid with
      | kept hwritten hkept =>
        rcases hkept node' hnode' with ⟨node, hnode, hsame⟩ | ⟨-, hnot⟩
        · rw [hwritten]
          exact h.seen uid node hnode (hsame ▸ hadmitted) w hw
        · rw [hadmitted] at hnot
          cases hnot
      | admitted hwritten hbefore =>
        obtain ⟨x, hx, -⟩ := hbefore w hw
        exact ⟨x, hx, .inr hwritten⟩
      | withdrawn _ hnot =>
        rw [hnot node' hnode'] at hadmitted
        cases hadmitted
    · exact ⟨node', hnode', .inl hadmitted⟩
  · intro uid huid
    rw [states_push, pairwise_append]
    cases hmarks uid with
    | kept hwritten hkept =>
      have hvisible := h.visible uid (hwritten.mp huid)
      refine ⟨hvisible, pairwise_singleton _ _, ?_⟩
      intro w hw w' hw' x x' hx hadmitted hx'
      rw [mem_singleton.mp hw'] at hx'
      rcases hkept x' hx' with ⟨node, hnode, hsame⟩ | ⟨hfresh, -⟩
      · rw [hsame]
        rcases rel_current hvisible hw with rfl | hrel
        · rw [hx] at hnode
          cases hnode
          exact hadmitted
        · exact hrel x node hx hadmitted hnode
      · exact absurd (mem_iff_lookup.mpr ⟨x, hx⟩) (hfresh w hw)
    | admitted _ hbefore =>
      have hnone : ∀ w ∈ store.states, ∀ x : Node, w[uid]? = some x →
          admitted x = true → False := by
        intro w hw x hx hadmitted
        obtain ⟨same, hsame, hnot⟩ := hbefore w hw
        rw [hx] at hsame
        cases hsame
        rw [hadmitted] at hnot
        cases hnot
      refine ⟨pairwise_of_forall_mem_list ?_, pairwise_singleton _ _, ?_⟩
      all_goals
        intro w hw w' _ x x' hx hadmitted _
        exact (hnone w hw x hx hadmitted).elim
    | withdrawn hwritten _ => exact absurd huid hwritten

end Knows

end Clabernetes.Startup.Admission
