import Clabernetes.Base.Counting
import Clabernetes.Base.Lagging
import Clabernetes.Base.Runs
import Clabernetes.Startup.HostGrants

/-!
# Hosts under cache lag and lost responses

The manager lets Pods through their startup gates, pass after pass. A pass reads the Pods from a
cache that may lag behind; a request may fail, or take effect although its response is an error.
Between any two requests Pods are created, scheduled, start and go. The limits and the owners of
Nodes are fixed, though a pass may not see all.
-/

namespace Clabernetes.Startup.Hosts

open Base Std List GoMap Lagging

instance : Versioned Pod where
  version := Pod.resourceVersion
  stamp v pod := { pod with resourceVersion := v }
  version_stamp _ _ := rfl

/-- The limit for all Pods of a host, the limit of a Topology there, and the owners of Nodes. -/
structure Policy where
  global : ℕ
  limit : String → ℕ
  owner : String → String

structure Pass where
  owners : GoMap String String
  limits : GoMap String ℕ
  counted : List Pod
  done : List Pod := []
  todo : List Pod

structure Manager where
  store : Lagging Pod
  reserved : Reserved := ∅
  pass : Option Pass := none
  /-- The grants that took effect although the response was an error;
  no part of the code's state. -/
  lost : List String := []

inductive Outcome where
  | ok
  | failed
  /-- The request takes effect, and its response is an error. -/
  | lost
  deriving DecidableEq

inductive Event where
  | create (pod : Pod)
  | edit (uid nodeName : String) (statuses : List ContainerStatus) (phase : PodPhase)
      (deleting : Bool)
  | remove (uid : String)
  /-- A pass begins. It reads a state that many states later than the last pass did. -/
  | pass (later : ℕ) (list : String → ℕ) (nodes : List Node) (topologies : List Topology)
  | request (outcome : Outcome)

def edit (nodeName : String) (statuses : List ContainerStatus) (phase : PodPhase) (deleting : Bool)
    (pod : Pod) : Pod :=
  { pod with nodeName, statuses, phase, deleting := pod.deleting || deleting }

def editAllowed (pod pod' : Pod) : Bool :=
  (pod.nodeName == "" || pod'.nodeName == pod.nodeName) && (!started pod || started pod')

def beginPass (policy : Policy) (manager : Manager) (list : String → ℕ) (nodes : List Node)
    (topologies : List Topology) : Manager :=
  let pods := (manager.store.cache.iterate list).map Prod.snd
  if pods.any hasStartupHostGate then
    match scanPods (owners nodes) manager.reserved pods with
    | (reserved, none) => { manager with reserved, pass := none }
    | (reserved, some scan) =>
      { manager with
        reserved,
        pass := some
          { owners := owners nodes, limits := limits topologies, counted := scan.counted,
            todo := grantPods (owners nodes) (limits topologies) policy.global scan.counted
              (scan.pending.insertionSort before) } }
  else { manager with pass := none }

variable (manager : Manager)

def performRequest (pass : Pass) (pod : Pod) (todo : List Pod) (outcome : Outcome) : Manager :=
  let ended : Manager := { manager with pass := some { pass with todo := [] } }
  match outcome, manager.store.patch pod.uid pod.resourceVersion grant with
  | .ok, some store =>
    { manager with
      store, reserved := manager.reserved.insert pod.uid (),
      pass := some { pass with done := pass.done ++ [pod], todo } }
  | .lost, some store =>
    { manager with
      store, lost := pod.uid :: manager.lost,
      pass := some { pass with done := pass.done ++ [pod], todo := [] } }
  | .failed, _ => ended
  | _, none => ended

def step (policy : Policy) (manager : Manager) : Event → Option Manager
  | .create pod =>
    if pod.uid = "" ∨ granted pod = true then none
    else (manager.store.create pod.uid pod).map fun store => { manager with store }
  | .edit uid nodeName statuses phase deleting =>
    match manager.store.current[uid]? with
    | none => none
    | some pod =>
      if editAllowed pod (edit nodeName statuses phase deleting pod) then
        (manager.store.update uid (edit nodeName statuses phase deleting)).map fun store =>
          { manager with store }
      else none
  | .remove uid => some { manager with store := manager.store.remove uid }
  | .pass later list nodes topologies =>
    -- one worker: the last pass has ended
    if manager.pass.any (fun pass => !pass.todo.isEmpty) then none
    else (manager.store.advance later).map fun store =>
      beginPass policy { manager with store } list nodes topologies
  | .request outcome =>
    match manager.pass with
    | none => none
    | some pass =>
      match pass.todo with
      | [] => none
      | pod :: todo => some (performRequest manager pass pod todo outcome)

/-- What a pass reads of Nodes and Topologies is as it is; it may not be all of it. -/
def Faithful (policy : Policy) (_ : Manager) : Event → Prop
  | .pass _ _ nodes topologies =>
    (∀ node ∈ nodes, ownerOf node = policy.owner node.uid) ∧
      ∀ topology ∈ topologies, limitOf topology = policy.limit topology.uid
  | _ => True

/-- A pass sees the grants whose responses were lost. -/
def CaughtUp : Event → Prop
  | .pass later _ _ _ => ∀ store, manager.store.advance later = some store →
      ∀ uid ∈ manager.lost, ∀ pod : Pod, store.cache[uid]? = some pod → granted pod = true
  | _ => True

/-- A gated Pod of the host that holds a grant and has neither started nor finished. -/
def Starting (host : String) (uid : String) (pod : Pod) : Prop :=
  manager.store.current[uid]? = some pod ∧ hasStartupHostGate pod = true ∧ granted pod = true ∧
    pod.nodeName = host ∧ started pod = false

structure Within (policy : Policy) (manager : Manager) : Prop where
  global : 0 < policy.global → ∀ host,
    {uid | ∃ pod, Starting manager host uid pod}.encard ≤ policy.global
  topology : ∀ topology ≠ "", 0 < policy.limit topology → ∀ host,
    {uid | ∃ pod, Starting manager host uid pod ∧ policy.owner pod.nodeUID = topology}.encard ≤
      policy.limit topology

/-- What edits and grants leave of a Pod. -/
structure Static (pod pod' : Pod) : Prop where
  uid : pod'.uid = pod.uid
  nodeUID : pod'.nodeUID = pod.nodeUID
  gate : hasStartupHostGate pod' = hasStartupHostGate pod
  host : pod.nodeName ≠ "" → pod'.nodeName = pod.nodeName
  started : started pod = true → started pod' = true
  granted : granted pod = true → granted pod' = true

theorem static_refl (pod : Pod) : Static pod pod := ⟨rfl, rfl, rfl, fun _ => rfl, id, id⟩

theorem static_trans (a b c : Pod) (hab : Static a b) (hbc : Static b c) : Static a c where
  uid := hbc.uid.trans hab.uid
  nodeUID := hbc.nodeUID.trans hab.nodeUID
  gate := hbc.gate.trans hab.gate
  host h := (hbc.host (hab.host h ▸ h)).trans (hab.host h)
  started h := hbc.started (hab.started h)
  granted h := hbc.granted (hab.granted h)

variable {pods : GoMap String Pod} {pod' : Pod} {pod : Pod}

theorem Static.stamp {v : ℕ} (h : Static pod pod') :
    Static pod (Versioned.stamp v pod') :=
  ⟨h.uid, h.nodeUID, h.gate, h.host, h.started, h.granted⟩

theorem static_edit {nodeName : String} {statuses : List ContainerStatus} {phase : PodPhase}
    {deleting : Bool}
    (h : editAllowed pod (edit nodeName statuses phase deleting pod) = true) :
    Static pod (edit nodeName statuses phase deleting pod) := by
  rw [editAllowed, Bool.and_eq_true, Bool.or_eq_true, Bool.or_eq_true, beq_iff_eq, beq_iff_eq,
    Bool.not_eq_true'] at h
  refine ⟨rfl, rfl, rfl, fun hhost => h.1.resolve_left hhost, fun hstarted => ?_, id⟩
  exact h.2.resolve_left (by rw [hstarted]; decide)

theorem static_grant : Static pod (grant pod) := by
  refine ⟨rfl, rfl, rfl, fun _ => rfl, id, fun h => ?_⟩
  rw [granted, Bool.and_eq_true] at h ⊢
  exact ⟨h.1, beq_self_eq_true _⟩

/-- A Pod is kept under its UID, and has a host when it holds a grant. -/
structure Keyed (uid : String) (pod : Pod) : Prop where
  same : pod.uid = uid
  named : uid ≠ ""
  placed : granted pod = true → pod.nodeName ≠ ""

abbrev Stored : Lagging Pod → Prop :=
  Kept Static fun pods => ∀ (uid : String) (pod : Pod), pods[uid]? = some pod → Keyed uid pod

variable {later : ℕ} {policy : Policy}

section Store

variable {store store' : Lagging Pod} {uid : String} {pod : Pod}

theorem keyed_insert
    (hpods : ∀ (uid : String) (pod : Pod), pods[uid]? = some pod → Keyed uid pod)
    (hpod : Keyed uid pod) : ∀ (other : String) (found : Pod),
      (pods.insert uid pod)[other]? = some found → Keyed other found := by
  intro other found hfound
  rw [lookup_insert] at hfound
  split_ifs at hfound with heq
  · cases hfound
    exact heq ▸ hpod
  · exact hpods other found hfound

variable (h : Stored store)

include h

theorem stored_insert (hpod : store.current[uid]? = some pod)
    (hstatic : Static pod pod') (hplaced : granted pod' = true → pod'.nodeName ≠ "") :
    Stored (store.push (store.current.insert uid (Versioned.stamp (store.last + 1) pod'))) := by
  have hkeyed := h.keyed _ current_mem_states uid pod hpod
  exact h.insert static_refl static_trans (.inl ⟨pod, hpod, hstatic.stamp⟩)
    (keyed_insert (h.keyed _ current_mem_states)
      ⟨hstatic.uid.trans hkeyed.same, hkeyed.named, hplaced⟩)

theorem stored_create (huid : pod.uid ≠ "") (hgranted : granted pod = false)
    (hcreate : store.create pod.uid pod = some store') : Stored store' := by
  obtain ⟨hfresh, rfl⟩ := create_spec hcreate
  refine h.insert static_refl static_trans (.inr hfresh)
    (keyed_insert (h.keyed _ current_mem_states) ⟨rfl, huid, fun h => ?_⟩)
  rw [show granted (Versioned.stamp (store.last + 1) pod) = granted pod from rfl, hgranted] at h
  cases h

theorem stored_remove : Stored (store.remove uid) := by
  refine h.remove static_refl static_trans fun other found hfound => ?_
  rw [lookup_erase] at hfound
  split_ifs at hfound
  exact h.keyed _ current_mem_states other found hfound

end Store

/-- A grant that is there is seen in every state since the last read, unless it is reserved or its
response was lost; the Pod has its host in all of them. -/
def Known (store : Lagging Pod) (reserved : Reserved) (lost : List String) : Prop :=
  ∀ (uid : String) (pod : Pod), store.current[uid]? = some pod → granted pod = true →
    ∀ w ∈ store.states, ∃ seen : Pod, w[uid]? = some seen ∧ seen.nodeName ≠ "" ∧
      (granted seen = true ∨ uid ∈ reserved ∨ uid ∈ lost)

/-- What is known of the store while a pass makes its requests. -/
structure InPass (policy : Policy) (store : Lagging Pod) (pass : Pass) : Prop where
  owners : ∀ nodeUID owner : String, pass.owners[nodeUID]? = some owner →
    policy.owner nodeUID = owner
  limits : ∀ (topology : String) (limit : ℕ), pass.limits[topology]? = some limit →
    policy.limit topology = limit
  requests : ∃ pending, pass.done ++ pass.todo <+:
      grantPods pass.owners pass.limits policy.global pass.counted pending ∧
    ∀ pod ∈ pending, store.cache[pod.uid]? = some pod ∧ pod.nodeName ≠ "" ∧ granted pod = false
  known : ∀ pod ∈ pass.counted ++ pass.done, pod.nodeUID ∈ pass.owners
  /-- A Pod that holds a grant and has not started was counted, or was granted by the pass. -/
  places : ∀ (uid : String) (pod : Pod), store.current[uid]? = some pod →
    hasStartupHostGate pod = true → granted pod = true → started pod = false →
    ∃ seen ∈ pass.counted ++ pass.done, seen.uid = uid ∧ seen.nodeName = pod.nodeName ∧
      seen.nodeUID = pod.nodeUID

structure Holds (policy : Policy) (manager : Manager) : Prop where
  stored : Stored manager.store
  known : Known manager.store manager.reserved manager.lost
  pass : ∀ pass, manager.pass = some pass → InPass policy manager.store pass
  within : Within policy manager

theorem Within.of_starting {manager manager' : Manager}
    (h : Within policy manager) (hstarting : ∀ host uid pod', Starting manager' host uid pod' →
      ∃ pod, Starting manager host uid pod ∧ pod.nodeUID = pod'.nodeUID) :
    Within policy manager' := by
  constructor
  · intro hglobal host
    refine (Set.encard_le_encard ?_).trans (h.global hglobal host)
    rintro uid ⟨pod', hpod'⟩
    obtain ⟨pod, hpod, -⟩ := hstarting host uid pod' hpod'
    exact ⟨pod, hpod⟩
  · intro topology hne hlimit host
    refine (Set.encard_le_encard ?_).trans (h.topology topology hne hlimit host)
    rintro uid ⟨pod', hpod', howner⟩
    obtain ⟨pod, hpod, hsame⟩ := hstarting host uid pod' hpod'
    exact ⟨pod, hpod, hsame ▸ howner⟩

section Steps

variable {policy : Policy} {manager manager' : Manager} {store store' : Lagging Pod}
  {reserved : Reserved} {lost : List String} {pass : Pass} {todo : List Pod} {list : String → ℕ}
  {topologies : List Topology} {nodes : List Node} {todo' : List Pod}

def Event.foreign : Event → Bool
  | .create _ => true
  | .edit .. => true
  | .remove _ => true
  | .pass .. => false
  | .request _ => false

variable {e : Event}

theorem foreign_step (h : Stored manager.store) (hforeign : e.foreign = true)
    (he : step policy manager e = some manager') :
    ∃ pods, manager' = { manager with store := manager.store.push pods } ∧
      Stored (manager.store.push pods) ∧
      ∀ (uid : String) (pod' : Pod), pods[uid]? = some pod' → granted pod' = true →
        ∃ pod, manager.store.current[uid]? = some pod ∧ Static pod pod' ∧ granted pod = true := by
  cases e with
  | create pod =>
    simp only [step] at he
    split_ifs at he with hrefused
    rw [not_or, Bool.not_eq_true] at hrefused
    obtain ⟨store, hcreate, rfl⟩ := Option.map_eq_some_iff.mp he
    have hstored := stored_create h hrefused.1 hrefused.2 hcreate
    obtain ⟨-, rfl⟩ := create_spec hcreate
    refine ⟨_, rfl, hstored, fun uid pod' hpod' hgranted => ?_⟩
    rw [lookup_insert] at hpod'
    split_ifs at hpod'
    · cases hpod'
      cases hrefused.2.symm.trans hgranted
    · exact ⟨pod', hpod', static_refl pod', hgranted⟩
  | edit uid nodeName statuses phase deleting =>
    simp only [step] at he
    split at he
    · cases he
    · next pod hpod =>
      split_ifs at he with hallowed
      obtain ⟨store, hupdate, rfl⟩ := Option.map_eq_some_iff.mp he
      obtain ⟨x, hx, rfl⟩ := update_spec hupdate
      rw [hpod] at hx
      cases hx
      have hstatic := static_edit hallowed
      refine ⟨_, rfl, stored_insert h hpod hstatic fun hgranted => ?_, ?_⟩
      · have hhost := (h.keyed _ current_mem_states uid pod hpod).placed hgranted
        rwa [hstatic.host hhost]
      · intro other pod' hpod' hgranted
        rw [lookup_insert] at hpod'
        split_ifs at hpod' with heq
        · cases hpod'
          exact ⟨pod, heq ▸ hpod, hstatic.stamp, hgranted⟩
        · exact ⟨pod', hpod', static_refl pod', hgranted⟩
  | remove uid =>
    cases he
    refine ⟨_, rfl, stored_remove h, fun other pod' hpod' hgranted => ?_⟩
    rw [lookup_erase] at hpod'
    split_ifs at hpod'
    exact ⟨pod', hpod', static_refl pod', hgranted⟩
  | pass => cases hforeign
  | request => cases hforeign

theorem holds_foreign (h : Holds policy manager) (hforeign : e.foreign = true)
    (he : step policy manager e = some manager') : Holds policy manager' := by
  obtain ⟨pods, rfl, hstored, hkept⟩ := foreign_step h.stored hforeign he
  have hplaced := h.stored.keyed _ current_mem_states
  -- a Pod that holds a place did so before, on the same host
  have hplace : ∀ (uid : String) (pod' : Pod), pods[uid]? = some pod' → granted pod' = true →
      hasStartupHostGate pod' = true → started pod' = false →
      ∃ pod, Starting manager pod'.nodeName uid pod ∧ pod.nodeUID = pod'.nodeUID := by
    intro uid pod' hpod' hgranted hgate hstarted
    obtain ⟨pod, hpod, hstatic, hbefore⟩ := hkept uid pod' hpod' hgranted
    refine ⟨pod, ⟨hpod, hstatic.gate ▸ hgate, hbefore, ?_, ?_⟩, hstatic.nodeUID.symm⟩
    · exact (hstatic.host ((hplaced uid pod hpod).placed hbefore)).symm
    · rw [← Bool.not_eq_true]
      intro h
      cases (hstatic.started h).symm.trans hstarted
  refine ⟨hstored, ?_, fun pass hpass => ?_, h.within.of_starting ?_⟩
  · intro uid pod' hpod' hgranted w hw
    rw [current_push] at hpod'
    rw [states_push, mem_append, mem_singleton] at hw
    rcases hw with hw | rfl
    · obtain ⟨pod, hpod, -, hbefore⟩ := hkept uid pod' hpod' hgranted
      exact h.known uid pod hpod hbefore w hw
    · have hkeyed := hstored.keyed _ current_mem_states uid pod'
        (by rwa [current_push])
      exact ⟨pod', hpod', hkeyed.placed hgranted, .inl hgranted⟩
  · have hin := h.pass pass hpass
    refine ⟨hin.owners, hin.limits, hin.requests, hin.known, ?_⟩
    intro uid pod' hpod' hgate hgranted hstarted
    rw [current_push] at hpod'
    obtain ⟨pod, ⟨hpod, hpodGate, hpodGranted, hhost, hpodStarted⟩, hnodeUID⟩ :=
      hplace uid pod' hpod' hgranted hgate hstarted
    obtain ⟨seen, hseen, hseenUid, hseenHost, hseenNode⟩ :=
      hin.places uid pod hpod hpodGate hpodGranted hpodStarted
    exact ⟨seen, hseen, hseenUid, hseenHost.trans hhost, hseenNode.trans hnodeUID⟩
  · rintro host uid pod' ⟨hpod', hgate, hgranted, rfl, hstarted⟩
    rw [current_push] at hpod'
    exact hplace uid pod' hpod' hgranted hgate hstarted

theorem known_advance (h : Known store reserved lost) (hadvance : store.advance later = some store')
    : Known store' reserved lost := by
  obtain ⟨hsuffix, hcurrent, -⟩ := advance_spec hadvance
  intro uid pod hpod hgranted w hw
  exact h uid pod (hcurrent ▸ hpod) hgranted w (hsuffix.mem hw)

theorem mem_pods : pod ∈ (store.cache.iterate list).map Prod.snd ↔
      ∃ uid : String, store.cache[uid]? = some pod := by
  simp [GoMap.mem_iterate]

theorem known_scan {owners : GoMap String String} (hstored : Stored store)
    (h : Known store reserved lost) :
    Known store (scanPods owners reserved ((store.cache.iterate list).map Prod.snd)).1 lost := by
  have hkeyed := hstored.keyed _ cache_mem_states
  intro uid pod hpod hgranted w hw
  obtain ⟨x, hx, hhost, hshown⟩ := h uid pod hpod hgranted w hw
  obtain ⟨seen, hseen, -⟩ := h uid pod hpod hgranted _ cache_mem_states
  refine ⟨x, hx, hhost, ?_⟩
  rcases hshown with hshown | hreserved | hlost
  · exact .inl hshown
  · cases hsight : granted seen with
    | true =>
      rcases mem_cons.mp hw with rfl | hlog
      · rw [hseen] at hx
        cases hx
        exact .inl hsight
      · have hstatic := rel_of_pairwise_cons hstored.static hlog uid seen x hseen hx
        exact .inl (hstatic.granted hsight)
    | false =>
      refine .inr (.inl (mem_scanPods.2 hreserved
        ⟨seen, mem_pods.mpr ⟨uid, hseen⟩, (hkeyed uid seen hseen).same⟩ fun other hother heq => ?_))
      obtain ⟨key, hkey⟩ := mem_pods.mp hother
      rw [← (hkeyed key other hkey).same, heq, hseen] at hkey
      cases hkey
      exact hsight
  · exact .inr (.inr hlost)

theorem inPass_begin {scan : Scan} {reserved' : Reserved} (hstored : Stored store)
    (hknown : Known store reserved lost)
    (hnodes : ∀ node ∈ nodes, ownerOf node = policy.owner node.uid)
    (htopologies : ∀ topology ∈ topologies, limitOf topology = policy.limit topology.uid)
    (hlost : ∀ uid ∈ lost, ∀ pod : Pod, store.cache[uid]? = some pod → granted pod = true)
    (hscan : scanPods (Hosts.owners nodes) reserved ((store.cache.iterate list).map Prod.snd) =
      (reserved', some scan)) : InPass policy store
      { owners := Hosts.owners nodes, limits := Hosts.limits topologies, counted := scan.counted,
        todo := grantPods (Hosts.owners nodes) (Hosts.limits topologies) policy.global scan.counted
          (scan.pending.insertionSort before) } := by
  have hkeyed := hstored.keyed _ cache_mem_states
  have hnodup : (((store.cache.iterate list).map Prod.snd).map Pod.uid).Nodup := by
    have hkeys : ((store.cache.iterate list).map Prod.snd).map Pod.uid =
        (store.cache.iterate list).map Prod.fst := by
      rw [map_map]
      refine map_congr_left fun entry hentry => ?_
      exact (hkeyed entry.1 entry.2 ((GoMap.mem_iterate _ _ _ _).mp hentry)).same
    rw [hkeys]
    exact nodup_keys_iterate list store.cache
  obtain ⟨hcounted, hpending, hknownOwner⟩ := scanPods_some hnodup hscan
  refine ⟨?_, ?_, ⟨_, by rw [nil_append], ?_⟩, ?_, ?_⟩
  · intro nodeUID owner howner
    obtain ⟨node, hnode, rfl, rfl⟩ := lookup_foldl_insert howner
    exact (hnodes node hnode).symm
  · intro uid limit hlimit
    obtain ⟨topology, htopology, rfl, rfl⟩ := lookup_foldl_insert hlimit
    exact (htopologies topology htopology).symm
  · intro pod hpod
    rw [mem_insertionSort, hpending, mem_filter, mem_pods] at hpod
    obtain ⟨⟨uid, hpod⟩, hwaits⟩ := hpod
    simp only [waits, Bool.and_eq_true, bne_iff_ne, Bool.not_eq_true'] at hwaits
    obtain ⟨⟨⟨⟨hhost, hgranted⟩, -⟩, -⟩, -⟩ := hwaits
    exact ⟨(hkeyed uid pod hpod).same ▸ hpod, hhost, hgranted⟩
  · intro pod hpod
    rw [append_nil, hcounted, mem_filter] at hpod
    exact hknownOwner pod hpod.1 hpod.2
  · intro uid pod hpod hgate hgranted hstarted
    obtain ⟨seen, hseen, hhost, hshown⟩ := hknown uid pod hpod hgranted _ cache_mem_states
    have hstatic := hstored.static.current static_refl cache_mem_states hseen hpod
    have hunstarted : started seen = false := by
      rw [← Bool.not_eq_true]
      intro h
      cases (hstatic.started h).symm.trans hstarted
    have hsight : granted seen = true ∨ seen.uid ∈ reserved := by
      rw [(hkeyed uid seen hseen).same]
      rcases hshown with hshown | hreserved | hmissed
      · exact .inl hshown
      · exact .inr hreserved
      · exact .inl (hlost uid hmissed seen hseen)
    refine ⟨seen, ?_, (hkeyed uid seen hseen).same, (hstatic.host hhost).symm, hstatic.nodeUID.symm⟩
    rw [append_nil, hcounted, mem_filter]
    refine ⟨mem_pods.mpr ⟨uid, hseen⟩, ?_⟩
    rcases hsight with hsight | hsight <;> simp [counts, waits, hhost, hunstarted, hsight]

theorem holds_begin (h : Holds policy manager)
    (hfaithful : Faithful policy manager (.pass later list nodes topologies))
    (hcaughtUp : CaughtUp manager (.pass later list nodes topologies))
    (hadvance : manager.store.advance later = some store) :
    Holds policy (beginPass policy { manager with store } list nodes topologies) := by
  have hstored := h.stored.advance hadvance
  have hknown := known_advance h.known hadvance
  have hwithin : ∀ manager' : Manager, manager'.store = store → Within policy manager' := by
    intro manager' hstore
    refine h.within.of_starting fun host uid pod hpod => ⟨pod, ?_, rfl⟩
    rwa [Starting, hstore, (advance_spec hadvance).2.1] at hpod
  have hscanned := @known_scan store manager.reserved manager.lost list (owners nodes)
    hstored hknown
  simp only [beginPass]
  split_ifs
  · split
    · next reserved hscan =>
      rw [hscan] at hscanned
      exact ⟨hstored, hscanned, nofun, hwithin _ rfl⟩
    · next reserved scan hscan =>
      rw [hscan] at hscanned
      refine ⟨hstored, hscanned, fun pass hpass => ?_, hwithin _ rfl⟩
      cases hpass
      exact inPass_begin hstored hknown hfaithful.1 hfaithful.2 (hcaughtUp store hadvance) hscan
  · exact ⟨hstored, hknown, nofun, hwithin _ rfl⟩

theorem grant_unchanged (hstored : Stored store) (hin : InPass policy store pass)
    (htodo : pass.todo = pod :: todo)
    (hpatch : store.patch pod.uid pod.resourceVersion grant = some store') :
    (∀ w ∈ store.states, w[pod.uid]? = some pod) ∧ pod.nodeName ≠ "" ∧ granted pod = false ∧
      pod.nodeUID ∈ pass.owners ∧ store' = store.push
        (store.current.insert pod.uid (Versioned.stamp (store.last + 1) (grant pod))) := by
  obtain ⟨pending, hstart, hpending⟩ := hin.requests
  obtain ⟨hmem, howner⟩ := mem_grantPods (hstart.mem (by simp [htodo] : pod ∈ _))
  obtain ⟨hcache, hhost, hgranted⟩ := hpending pod hmem
  obtain ⟨x, hx, hversion, rfl⟩ := patch_spec hpatch
  have hunchanged := hstored.wf.unchanged hcache hx hversion
  have hsame := hunchanged _ current_mem_states
  rw [hx] at hsame
  cases hsame
  exact ⟨hunchanged, hhost, hgranted, howner, rfl⟩

theorem room (hin : InPass policy store pass) (htodo : pass.todo = pod :: todo) :
    ∃ owner, pass.owners[pod.nodeUID]? = some owner ∧ policy.owner pod.nodeUID = owner ∧
      (0 < policy.global →
        (onHost pod.nodeName (pass.counted ++ pass.done)).length < policy.global) ∧
      (owner ≠ "" → 0 < policy.limit owner →
        (ofOwner pass.owners owner (onHost pod.nodeName (pass.counted ++ pass.done))).length <
          policy.limit owner) := by
  obtain ⟨pending, hstart, -⟩ := hin.requests
  have hnext : pass.done ++ [pod] <+: pass.done ++ pass.todo := by
    rw [htodo]
    exact ⟨todo, by simp⟩
  obtain ⟨owner, howner, hlimit, hroom⟩ := hostFull_of_grantPods (hnext.trans hstart)
  rw [hostFull, Bool.or_eq_false_iff, Bool.and_eq_false_imp, Bool.and_eq_false_imp] at hroom
  refine ⟨owner, howner, hin.owners _ _ howner, fun hglobal => ?_, fun hne hpositive => ?_⟩
  · simpa using hroom.1 (by simpa using hglobal)
  · obtain ⟨limit, hlookup⟩ := mem_iff_lookup.mp (hlimit.resolve_left hne)
    rw [hin.limits owner limit hlookup] at hpositive ⊢
    have hless := hroom.2
    rw [hlookup] at hless
    simpa using hless (by simpa using hpositive)

theorem inPass_grant (hstored : Stored store) (hin : InPass policy store pass)
    (htodo : pass.todo = pod :: todo) (hstart : todo' <+: todo)
    (hpatch : store.patch pod.uid pod.resourceVersion grant = some store') :
    InPass policy store' { pass with done := pass.done ++ [pod], todo := todo' } := by
  obtain ⟨hunchanged, hhost, hgranted, howner, rfl⟩ := grant_unchanged hstored hin htodo hpatch
  refine ⟨hin.owners, hin.limits, ?_, ?_, ?_⟩
  · obtain ⟨pending, hrequests, hpending⟩ := hin.requests
    refine ⟨pending, List.IsPrefix.trans ?_ hrequests, hpending⟩
    rw [htodo, append_assoc, singleton_append, prefix_append_right_inj, cons_prefix_cons]
    exact ⟨rfl, hstart⟩
  · intro other hother
    rw [← append_assoc, mem_append, mem_singleton] at hother
    rcases hother with hother | rfl
    · exact hin.known other hother
    · exact howner
  · intro uid pod' hpod' hgate hgranted' hstarted
    rw [current_push, lookup_insert] at hpod'
    split_ifs at hpod' with heq
    · cases hpod'
      exact ⟨pod, by simp, heq, rfl, rfl⟩
    · obtain ⟨seen, hseen, hsame⟩ := hin.places uid pod' hpod' hgate hgranted' hstarted
      refine ⟨seen, ?_, hsame⟩
      rw [← append_assoc]
      exact mem_append_left _ hseen

variable (h : Holds policy manager)

include h

section

variable (hpass : manager.pass = some pass)

include hpass

theorem within_grant (htodo : pass.todo = pod :: todo)
    (hpatch : manager.store.patch pod.uid pod.resourceVersion grant = some store)
    (hstore : manager'.store = store) : Within policy manager' := by
  have hin := h.pass pass hpass
  obtain ⟨owner, howner, hpolicy, hglobal, hlimit⟩ := room hin htodo
  have hin' := inPass_grant h.stored hin htodo prefix_rfl hpatch
  obtain ⟨hunchanged, -, -, -, hpush⟩ := grant_unchanged h.stored hin htodo hpatch
  have hcounted : ∀ {host uid : String} {pod' : Pod}, Starting manager' host uid pod' →
      ∃ seen ∈ (pass.counted ++ pass.done) ++ [pod],
        seen.uid = uid ∧ seen.nodeName = host ∧ seen.nodeUID = pod'.nodeUID := by
    rintro host uid pod' ⟨hpod', hgate, hgranted, rfl, hstarted⟩
    rw [append_assoc]
    exact hin'.places uid pod' (hstore ▸ hpod') hgate hgranted hstarted
  have helsewhere : ∀ {host uid : String} {pod' : Pod}, Starting manager' host uid pod' →
      host ≠ pod.nodeName ∨ pod'.nodeUID ≠ pod.nodeUID → Starting manager host uid pod' := by
    rintro host uid pod' ⟨hpod', hgate, hgranted, rfl, hstarted⟩ hother
    rw [hstore, hpush, current_push, lookup_insert] at hpod'
    split_ifs at hpod'
    · cases hpod'
      exact absurd hother (not_or.mpr ⟨fun h => h rfl, fun h => h rfl⟩)
    · exact ⟨hpod', hgate, hgranted, rfl, hstarted⟩
  constructor
  · intro hpositive host
    by_cases hhost : host = pod.nodeName
    · subst hhost
      refine encard_le_of_subset_list
        ((onHost pod.nodeName (pass.counted ++ pass.done) ++ [pod]).map Pod.uid) ?_ ?_
      · rintro uid ⟨pod', hpod'⟩
        obtain ⟨seen, hseen, rfl, hseenHost, -⟩ := hcounted hpod'
        refine mem_map_of_mem ?_
        rw [mem_append] at hseen ⊢
        refine hseen.imp_left fun hseen => ?_
        simpa [onHost, hseenHost] using hseen
      · have := hglobal hpositive
        simp only [length_map, length_append, length_singleton]
        omega
    · refine (Set.encard_le_encard ?_).trans (h.within.global hpositive host)
      rintro uid ⟨pod', hpod'⟩
      exact ⟨pod', helsewhere hpod' (.inl hhost)⟩
  · intro topology hne hpositive host
    by_cases hhere : host = pod.nodeName ∧ policy.owner pod.nodeUID = topology
    · obtain ⟨rfl, htopology⟩ := hhere
      obtain rfl : owner = topology := hpolicy.symm.trans htopology
      refine encard_le_of_subset_list
        ((ofOwner pass.owners owner (onHost pod.nodeName (pass.counted ++ pass.done)) ++
          [pod]).map Pod.uid) ?_ ?_
      · rintro uid ⟨pod', hpod', hpodOwner⟩
        obtain ⟨seen, hseen, rfl, hseenHost, hseenNode⟩ := hcounted hpod'
        refine mem_map_of_mem ?_
        rw [mem_append] at hseen ⊢
        refine hseen.imp_left fun hseen => ?_
        obtain ⟨seenOwner, hseenOwner⟩ := mem_iff_lookup.mp (hin.known seen hseen)
        have hsame : seenOwner = owner := by rw [← hin.owners _ _ hseenOwner, hseenNode, hpodOwner]
        rw [ofOwner, mem_filter, onHost, mem_filter]
        exact ⟨⟨hseen, by simpa using hseenHost⟩, by simp [hseenOwner, hsame]⟩
      · have := hlimit hne hpositive
        simp only [length_map, length_append, length_singleton]
        omega
    · refine (Set.encard_le_encard ?_).trans (h.within.topology topology hne hpositive host)
      rintro uid ⟨pod', hpod', hpodOwner⟩
      refine ⟨pod', helsewhere hpod' ?_, hpodOwner⟩
      by_contra hboth
      rw [not_or, not_not, not_not] at hboth
      exact hhere ⟨hboth.1, hboth.2 ▸ hpodOwner⟩

theorem holds_grant (htodo : pass.todo = pod :: todo) (hstart : todo' <+: todo)
    (hpatch : manager.store.patch pod.uid pod.resourceVersion grant = some store)
    (hnew : pod.uid ∈ reserved ∨ pod.uid ∈ lost)
    (hreserved : ∀ uid ∈ manager.reserved, uid ∈ reserved)
    (hlost : ∀ uid ∈ manager.lost, uid ∈ lost) : Holds policy
      { store, reserved, lost,
        pass := some { pass with done := pass.done ++ [pod], todo := todo' } } := by
  have hin := h.pass pass hpass
  have hin' := inPass_grant h.stored hin htodo hstart hpatch
  have hwithin : Within policy
      { store, reserved, lost,
        pass := some { pass with done := pass.done ++ [pod], todo := todo' } } :=
    within_grant h hpass htodo hpatch rfl
  obtain ⟨hunchanged, hhost, -, -, rfl⟩ := grant_unchanged h.stored hin htodo hpatch
  have hcurrent := hunchanged _ current_mem_states
  have hstored := stored_insert h.stored hcurrent static_grant fun _ => hhost
  refine ⟨hstored, ?_, fun next hnext => ?_, hwithin⟩
  · intro uid pod' hpod' hgranted w hw
    have hplaced := (hstored.keyed _ current_mem_states uid pod' hpod').placed hgranted
    rw [current_push, lookup_insert] at hpod'
    rw [states_push, mem_append, mem_singleton] at hw
    rcases hw with hw | rfl
    · split_ifs at hpod' with heq
      · subst heq
        exact ⟨pod, hunchanged w hw, hhost, .inr hnew⟩
      · obtain ⟨seen, hseen, hseenHost, hshown⟩ := h.known uid pod' hpod' hgranted w hw
        exact ⟨seen, hseen, hseenHost, hshown.imp_right (.imp (hreserved uid) (hlost uid))⟩
    · exact ⟨pod', by rwa [lookup_insert], hplaced, .inl hgranted⟩
  · cases hnext
    exact hin'

theorem holds_ended : Holds policy { manager with pass := some { pass with todo := [] } } := by
  refine ⟨h.stored, h.known, fun next hnext => ?_,
    h.within.of_starting fun host uid pod hpod => ⟨pod, hpod, rfl⟩⟩
  cases hnext
  have hin := h.pass pass hpass
  obtain ⟨pending, hrequests, hpending⟩ := hin.requests
  refine ⟨hin.owners, hin.limits, ⟨pending, ?_, hpending⟩, hin.known, hin.places⟩
  rw [append_nil]
  exact (prefix_append _ _).trans hrequests

theorem holds_request {outcome : Outcome} (htodo : pass.todo = pod :: todo) :
    Holds policy (performRequest manager pass pod todo outcome) := by
  simp only [performRequest]
  split
  · next store hpatch =>
    refine holds_grant h hpass htodo prefix_rfl hpatch (.inl ?_) (fun uid huid => ?_)
      fun _ h => h
    · exact ExtTreeMap.mem_insert_self
    · exact ExtTreeMap.mem_insert.mpr (.inr huid)
  · next store hpatch =>
    exact holds_grant h hpass htodo nil_prefix hpatch (.inr mem_cons_self) (fun _ h => h)
      fun _ h => mem_cons_of_mem _ h
  · exact holds_ended h hpass
  · exact holds_ended h hpass

end

theorem holds_step (hfaithful : Faithful policy manager e)
    (hcaughtUp : CaughtUp manager e) (he : step policy manager e = some manager') :
    Holds policy manager' := by
  cases e with
  | create | edit | remove => exact holds_foreign h rfl he
  | pass later list nodes topologies =>
    simp only [step] at he
    split_ifs at he
    obtain ⟨store, hadvance, rfl⟩ := Option.map_eq_some_iff.mp he
    exact holds_begin h hfaithful hcaughtUp hadvance
  | request outcome =>
    simp only [step] at he
    split at he
    · cases he
    · next pass hpass =>
      split at he
      · cases he
      · next pod todo htodo =>
        cases he
        exact holds_request h hpass htodo

end Steps

def launched (pods : GoMap String Pod) (last : ℕ) : Manager where
  store := { cache := pods, last := last }

/-- Pods as an API server keeps them, with grants on scheduled Pods only. -/
structure Installed (pods : GoMap String Pod) (last : ℕ) : Prop where
  keyed : ∀ (uid : String) (pod : Pod), pods[uid]? = some pod → Keyed uid pod
  versions : ∀ (uid : String) (pod : Pod), pods[uid]? = some pod → pod.resourceVersion ≤ last

theorem holds_launched {last : ℕ} (h : Installed pods last)
    (hwithin : Within policy (launched pods last)) : Holds policy (launched pods last) := by
  have hstates : (launched pods last).store.states = [pods] := rfl
  refine ⟨kept_start h.versions h.keyed, ?_, nofun, hwithin⟩
  intro uid pod hpod hgranted w hw
  rw [hstates, mem_singleton] at hw
  exact ⟨pod, hw ▸ hpod, (h.keyed uid pod hpod).placed hgranted, .inl hgranted⟩

/-- The limits of hosts at the end of any run of the manager whose passes see the grants that took
effect although their responses were lost. -/
theorem host_limits {pods : GoMap String Pod} {last : ℕ}
    (hpods : Installed pods last) (hwithin : Within policy (launched pods last))
    {events : List Event} {manager : Manager}
    (hfaithful : RunMeets (step policy) (launched pods last) (Faithful policy) events)
    (hcaughtUp : RunMeets (step policy) (launched pods last) CaughtUp events)
    (hrun : run (step policy) (launched pods last) events = some manager) :
    (0 < policy.global → ∀ host,
        {uid | ∃ pod, Starting manager host uid pod}.encard ≤ policy.global) ∧
      ∀ topology ≠ "", 0 < policy.limit topology → ∀ host,
        {uid | ∃ pod, Starting manager host uid pod ∧ policy.owner pod.nodeUID = topology}.encard ≤
          policy.limit topology := by
  have hholds := run_invariant (P := fun _ manager => Holds policy manager)
    (holds_launched hpods hwithin)
    (fun _ _ _ _ _ h hallowed he => holds_step h hallowed.1 hallowed.2 he) events manager
    (hfaithful.and hcaughtUp) hrun
  exact ⟨hholds.within.global, hholds.within.topology⟩

instance (policy : Policy) (manager : Manager) (e : Event) :
    Decidable (Faithful policy manager e) :=
  match e with
  | .pass _ _ _ _ => inferInstanceAs (Decidable (_ ∧ _))
  | .create _ | .edit .. | .remove _ | .request _ => isTrue trivial

instance (manager : Manager) (e : Event) : Decidable (CaughtUp manager e) :=
  match e with
  | .pass later _ _ _ => decidable_of_iff ((manager.store.advance later).all (fun store =>
      manager.lost.all fun uid => store.cache[uid]?.all granted) = true)
      (by simp [CaughtUp, Option.all_eq_true])
  | .create _ | .edit .. | .remove _ | .request _ => isTrue trivial

def starting (host uid : String) : Bool :=
  manager.store.current[uid]?.any fun pod =>
    hasStartupHostGate pod && granted pod && pod.nodeName == host && !started pod

theorem starting_iff {manager : Manager} {host uid : String} :
    starting manager host uid = true ↔ ∃ pod, Starting manager host uid pod := by
  simp [starting, Starting, Option.any_eq_true, and_assoc]

def onePerHost : Policy := { global := 1, limit := fun _ => 0, owner := fun _ => "" }

def older : Pod :=
  { name := "older", uid := "a", creationTimestamp := 1, nodeUID := "n",
    initContainers := [startupGateContainerName] }

def younger : Pod :=
  { name := "younger", uid := "b", creationTimestamp := 2, nodeUID := "n", nodeName := "host",
    initContainers := [startupGateContainerName] }

def gatedPods : GoMap String Pod := .ofList [("a", older), ("b", younger)]

theorem installed_gatedPods : Installed gatedPods 0 := by
  have hentries : ∀ entry ∈ gatedPods.toList, entry.2.uid = entry.1 ∧ entry.1 ≠ "" ∧
      granted entry.2 = false ∧ entry.2.resourceVersion ≤ 0 := by
    decide +kernel
  have hmem : ∀ {uid : String} {pod : Pod}, gatedPods[uid]? = some pod →
      (uid, pod) ∈ gatedPods.toList :=
    fun h => ExtTreeMap.mem_toList_iff_getElem?_eq_some.mpr h
  refine ⟨fun uid pod hpod => ?_, fun uid pod hpod => (hentries _ (hmem hpod)).2.2.2⟩
  obtain ⟨huid, hne, hgranted, -⟩ := hentries _ (hmem hpod)
  exact ⟨huid, hne, fun h => by cases hgranted.symm.trans h⟩

theorem within_gatedPods : Within onePerHost (launched gatedPods 0) := by
  have hentries : ∀ entry ∈ gatedPods.toList, granted entry.2 = false := by decide +kernel
  have hnone : ∀ host uid pod, ¬Starting (launched gatedPods 0) host uid pod := by
    rintro host uid pod ⟨hpod, -, hgranted, -⟩
    cases (hentries _ (ExtTreeMap.mem_toList_iff_getElem?_eq_some.mpr hpod)).symm.trans hgranted
  refine ⟨fun _ host => ?_, fun topology _ hlimit => absurd hlimit (Nat.lt_irrefl 0)⟩
  simp [hnone]

/-- The older Pod is scheduled while the first pass makes its request, whose response is lost. The
second pass reads so many states later. -/
def lostGrant (later : ℕ) : List Event :=
  [.pass 0 (fun _ => 0) [{ uid := "n" }] [], .edit "a" "host" [] .pending false, .request .lost,
    .pass later (fun _ => 0) [{ uid := "n" }] []]

theorem lostGrant_limits : ∃ manager,
    run (step onePerHost) (launched gatedPods 0) (lostGrant 2) = some manager ∧
      starting manager "host" "b" = true ∧
      {uid | ∃ pod, Starting manager "host" uid pod}.encard ≤ 1 := by
  obtain ⟨manager, hrun, h⟩ : ∃ manager,
      run (step onePerHost) (launched gatedPods 0) (lostGrant 2) = some manager ∧
        starting manager "host" "b" = true := by
    decide +kernel
  exact ⟨manager, hrun, h, (host_limits installed_gatedPods within_gatedPods
    (runMeets_of_meets (by decide +kernel)) (runMeets_of_meets (by decide +kernel)) hrun).1
    (by decide) "host"⟩

/-- The second pass sees the older Pod on its host and not the lost grant of the younger one. -/
theorem lostGrant_exceeds : Installed gatedPods 0 ∧ Within onePerHost (launched gatedPods 0) ∧
    RunMeets (step onePerHost) (launched gatedPods 0) (Faithful onePerHost)
      (lostGrant 1 ++ [.request .ok]) ∧
    ∃ manager, run (step onePerHost) (launched gatedPods 0) (lostGrant 1 ++ [.request .ok]) =
        some manager ∧
      ¬{uid | ∃ pod, Starting manager "host" uid pod}.encard ≤ onePerHost.global := by
  obtain ⟨manager, hrun, h⟩ : ∃ manager,
      run (step onePerHost) (launched gatedPods 0) (lostGrant 1 ++ [.request .ok]) = some manager ∧
        starting manager "host" "a" = true ∧ starting manager "host" "b" = true := by
    decide +kernel
  rw [starting_iff, starting_iff] at h
  refine ⟨installed_gatedPods, within_gatedPods, runMeets_of_meets (by decide +kernel), manager,
    hrun, fun hle => ?_⟩
  have hsame := Set.encard_le_one_iff.mp hle "a" "b" h.1 h.2
  exact absurd hsame (by decide)

end Clabernetes.Startup.Hosts
