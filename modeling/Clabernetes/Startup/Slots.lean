import Clabernetes.Base.Counting
import Clabernetes.Base.Runs
import Clabernetes.Startup.Manager

/-!
# Slots under cache lag

What the manager knows while a pass makes its requests, and what follows for the number of groups
that are admitted and not yet ready.
-/

namespace Clabernetes.Startup.Admission

open Base Std List Option ExtTreeMap GoMap Lagging

/-- What is known of the store while a pass makes its requests. -/
structure InPass (store : Lagging Node) (pass : Pass) : Prop where
  size : 0 < pass.size
  requests : pass.done ++ pass.todo <+:
    reconcileStartupAdmission pass.order pass.nodes pass.pods pass.size
  named : Named pass.nodes
  viewed : ∀ node ∈ pass.nodes, ∃ seen : Node, store.cache[node.uid]? = some seen ∧
    (node = seen ∨ node = admitNode seen)
  uids : ∀ a ∈ pass.nodes, ∀ b ∈ pass.nodes, a.uid = b.uid → a = b
  /-- A primary that is admitted was seen to be, or was admitted by the pass, and not withdrawn. -/
  admissions : ∀ (uid : String) (node : Node), store.current[uid]? = some node →
    node.isPrimary = true → admitted node = true →
    (∃ seen ∈ pass.nodes, seen.uid = uid ∧ (admitted seen = true ∨ .admitNode seen ∈ pass.done)) ∧
      ∀ seen, .withdraw seen ∈ pass.done → seen.uid ≠ uid

structure Holds (manager : Manager) : Prop where
  stored : Stored manager.store
  known : Known manager.store manager.written
  pass : ∀ pass, manager.pass = some pass → InPass manager.store pass

/-- Written by someone else: a Node is marked as it was, and a new one is not. -/
def MarksKept (store : Lagging Node) (nodes : GoMap String Node) : Prop :=
  ∀ (uid : String) (node' : Node), nodes[uid]? = some node' →
    (∃ node, store.current[uid]? = some node ∧ node.networkMode = node'.networkMode ∧
        admitted node' = admitted node) ∨
      (∀ w ∈ store.states, uid ∉ w) ∧ admitted node' = false

/-- What an event does to the manager. -/
inductive Moves (manager : Manager) : Manager → Prop
  | pushed {nodes : GoMap String Node} (hstored : Stored (manager.store.push nodes))
      (hkept : MarksKept manager.store nodes) :
      Moves manager { manager with store := manager.store.push nodes }
  | begun {later size : ℕ} {store : Lagging Node} (list : String → ℕ) (order : Order)
      (pods : List Pod) (hadvance : manager.store.advance later = some store) :
      Moves manager (beginPass { manager with store := store } list order pods size)
  | ended {pass : Pass} (hpass : manager.pass = some pass) :
      Moves manager { manager with pass := some { pass with todo := [] } }
  | admitted {pass : Pass} {node : Node} {todo : List Request} {store : Lagging Node}
      (hpass : manager.pass = some pass) (htodo : pass.todo = .admitNode node :: todo)
      (hpatch : manager.store.patch node.uid node.resourceVersion admitNode = some store) :
      Moves manager
        { store := store, written := manager.written.insert node.uid (),
          pass := some { pass with done := pass.done ++ [.admitNode node], todo := todo } }
  | withdrawn {pass : Pass} {node : Node} {todo : List Request} {store : Lagging Node}
      (hpass : manager.pass = some pass) (htodo : pass.todo = .withdraw node :: todo)
      (hpatch : manager.store.patch node.uid node.resourceVersion withdraw = some store) :
      Moves manager
        { store := store, written := manager.written.erase node.uid,
          pass := some { pass with done := pass.done ++ [.withdraw node], todo := todo } }

variable {nodes : GoMap String Node} {last : ℕ}

section Steps

variable {manager manager' : Manager} {store store' : Lagging Node} {written : Written}
  {pass : Pass} {node : Node} {list : String → ℕ} {e : Event} {size : ℕ} {todo : List Request}
  {pods : List Pod} {order : Order} {later : ℕ} {request : Request}

theorem inPass_push (h : InPass store pass)
    (hkept : ∀ (uid : String) (node' : Node), nodes[uid]? = some node' → admitted node' = true →
      ∃ node, store.current[uid]? = some node ∧ node.networkMode = node'.networkMode ∧
        admitted node = true) : InPass (store.push nodes) pass := by
  refine ⟨h.size, h.requests, h.named, h.viewed, h.uids, ?_⟩
  intro uid node' hnode' hprimary hadmitted
  rw [current_push] at hnode'
  obtain ⟨node, hnode, hmode, hnodeAdmitted⟩ := hkept uid node' hnode' hadmitted
  exact h.admissions uid node hnode (by rw [Node.isPrimary, hmode]; exact hprimary) hnodeAdmitted

theorem holds_push (h : Holds manager) (hstored : Stored (manager.store.push nodes))
    (hkept : MarksKept manager.store nodes) :
    Holds { manager with store := manager.store.push nodes } := by
  refine ⟨hstored, known_push h.known fun uid => .kept Iff.rfl fun node' hnode' => ?_,
    fun pass hpass => inPass_push (h.pass pass hpass) fun uid node' hnode' hadmitted => ?_⟩
  · rcases hkept uid node' hnode' with ⟨node, hnode, -, hsame⟩ | hfresh
    · exact .inl ⟨node, hnode, hsame⟩
    · exact .inr hfresh
  · rcases hkept uid node' hnode' with ⟨node, hnode, hmode, hsame⟩ | ⟨-, hnot⟩
    · exact ⟨node, hnode, hmode, hsame ▸ hadmitted⟩
    · rw [hadmitted] at hnot
      cases hnot

theorem inPass_begin (hstored : Stored store) (hknown : Known store written) (hsize : 0 < size)
    {nodes : List Node}
    (hnodes : nodes = ((store.cache.iterate list).map Prod.snd).map (overlay written size)) :
    InPass store
      { order, nodes, pods, size, todo := reconcileStartupAdmission order nodes pods size } := by
  have hkeyed := hstored.keyed _ cache_mem_states
  have hstatic : ∀ x : Node, Static x (overlay written size x) := by
    intro x
    unfold overlay
    split_ifs
    · exact ⟨rfl, rfl, rfl, rfl, rfl, id⟩
    · exact static_refl x
  have hmem : ∀ node ∈ nodes, ∃ (uid : String) (x : Node), store.cache[uid]? = some x ∧
      node = overlay written size x := by
    intro node hnode
    simp only [hnodes, List.mem_map, Prod.exists, exists_eq_right, GoMap.mem_iterate] at hnode
    obtain ⟨x, ⟨uid, hx⟩, rfl⟩ := hnode
    exact ⟨uid, x, hx, rfl⟩
  have huid : ∀ node ∈ nodes, ∃ x : Node, store.cache[node.uid]? = some x ∧
      node = overlay written size x := by
    intro node hnode
    obtain ⟨uid, x, hx, rfl⟩ := hmem node hnode
    rw [(hstatic x).uid, (hkeyed.uid uid x hx).1]
    exact ⟨x, hx, rfl⟩
  refine ⟨hsize, by rw [nil_append], ?_, ?_, ?_, ?_⟩
  · intro a ha b hb hnamespace hname
    obtain ⟨x, hx, hax⟩ := huid a ha
    obtain ⟨y, hy, hby⟩ := huid b hb
    have hsame : a.uid = b.uid := hkeyed.name _ _ x y hx hy
      (by rw [← (hstatic x).namespaceName, ← (hstatic y).namespaceName, ← hax, ← hby, hnamespace])
      (by rw [← (hstatic x).name, ← (hstatic y).name, ← hax, ← hby, hname])
    rw [hsame, hy] at hx
    cases hx
    rw [hax, hby]
  · intro node hnode
    obtain ⟨x, hx, heq⟩ := huid node hnode
    refine ⟨x, hx, ?_⟩
    rw [heq, overlay]
    split_ifs
    · exact .inr rfl
    · exact .inl rfl
  · intro a ha b hb hsame
    obtain ⟨x, hx, hax⟩ := huid a ha
    obtain ⟨y, hy, hby⟩ := huid b hb
    rw [hsame, hy] at hx
    cases hx
    rw [hax, hby]
  · intro uid node hnode _ hadmitted
    obtain ⟨seen, hseen, hshown⟩ := hknown.seen uid node hnode hadmitted _ cache_mem_states
    obtain ⟨hseenUid, hne⟩ := hkeyed.uid uid seen hseen
    refine ⟨⟨overlay written size seen, ?_, (hstatic seen).uid.trans hseenUid, .inl ?_⟩, ?_⟩
    · rw [hnodes]
      exact List.mem_map_of_mem (List.mem_map.mpr
        ⟨(uid, seen), (GoMap.mem_iterate _ _ _ _).mpr hseen, rfl⟩)
    · rw [overlay, startupAdmissionRequired_eq hsize]
      split_ifs with h
      · exact admitted_admitNode (hseenUid ▸ hne)
      · rcases hshown with hshown | hshown
        · exact hshown
        · simpa [hseenUid, hshown] using h
    · intro other hother
      cases hother

theorem known_advance (h : Known store written) (hadvance : store.advance later = some store') :
    Known store' written := by
  obtain ⟨hsuffix, hcurrent, -⟩ := advance_spec hadvance
  constructor
  · intro uid node hnode hadmitted w hw
    exact h.seen uid node (hcurrent ▸ hnode) hadmitted w (hsuffix.mem hw)
  · exact fun uid huid => (h.visible uid huid).sublist hsuffix.sublist

theorem known_observe (hstored : Stored store) (h : Known store written) (hsize : 0 < size) :
    Known store (observeStartupAdmissions written
      ((store.cache.iterate list).map Prod.snd) size).1 := by
  have hkeyed := hstored.keyed _ cache_mem_states
  have hmem : ∀ node, node ∈ (store.cache.iterate list).map Prod.snd ↔
      ∃ uid : String, store.cache[uid]? = some node := by
    intro node
    simp [GoMap.mem_iterate]
  constructor
  · intro uid node hnode hadmitted w hw
    obtain ⟨x, hx, hshown⟩ := h.seen uid node hnode hadmitted w hw
    refine ⟨x, hx, ?_⟩
    by_contra hneither
    rw [not_or] at hneither
    have hwritten := hshown.resolve_left hneither.1
    obtain ⟨seen, hseen, -⟩ := h.seen uid node hnode hadmitted _ cache_mem_states
    have hseenUid := (hkeyed.uid uid seen hseen).1
    refine hneither.2 (mem_observeStartupAdmissions.mpr
      ⟨hwritten, ⟨seen, (hmem seen).mpr ⟨uid, hseen⟩, hseenUid⟩, fun other hother heq => ?_⟩)
    -- the cache does not show it, or else every later state would
    obtain ⟨key, hkey⟩ := (hmem other).mp hother
    obtain rfl : key = uid := ((hkeyed.uid key other hkey).1.symm).trans heq
    rw [startupAdmissionRequired_eq hsize, Bool.not_eq_true']
    by_contra hother
    rw [Bool.not_eq_false] at hother
    rcases mem_cons.mp hw with rfl | hlog
    · rw [hkey] at hx
      cases hx
      exact hneither.1 hother
    · exact hneither.1
        (rel_of_pairwise_cons (h.visible key hwritten) hlog other x hkey hother hx)
  · exact fun uid huid => h.visible uid (mem_observeStartupAdmissions.mp huid).1

theorem holds_begin (h : Holds manager) (hadvance : manager.store.advance later = some store) :
    Holds (beginPass { manager with store := store } list order pods size) := by
  have hstored := h.stored.advance hadvance
  have hknown := known_advance h.known hadvance
  unfold beginPass
  split_ifs with hsize
  · exact ⟨hstored, hknown, fun pass hpass => by cases hpass⟩
  · have hpositive := Nat.pos_of_ne_zero hsize
    have hnodup : (((store.cache.iterate list).map Prod.snd).map Node.uid).Nodup := by
      have hkeys : ((store.cache.iterate list).map Prod.snd).map Node.uid =
          (store.cache.iterate list).map Prod.fst := by
        rw [List.map_map]
        refine map_congr_left fun entry hentry => ?_
        exact ((hstored.keyed _ cache_mem_states).uid entry.1 entry.2
          ((GoMap.mem_iterate _ _ _ _).mp hentry)).1
      rw [hkeys]
      exact nodup_keys_iterate list store.cache
    refine ⟨hstored, known_observe hstored hknown hpositive, fun pass hpass => ?_⟩
    cases hpass
    exact inPass_begin hstored hknown hpositive (snd_observeStartupAdmissions hnodup)

theorem admit_unchanged {f : Node → Node} (hstored : Stored store) (hpass : InPass store pass)
    (hmem : .admitNode node ∈ reconcileStartupAdmission pass.order pass.nodes pass.pods pass.size)
    (hpatch : store.patch node.uid node.resourceVersion f = some store') :
    (∀ w ∈ store.states, w[node.uid]? = some node) ∧ store' = store.push
      (store.current.insert node.uid (Versioned.stamp (store.last + 1) (f node))) := by
  obtain ⟨hnode, hnot, -⟩ := admit_mem hpass.named hmem
  obtain ⟨seen, hseen, hview⟩ := hpass.viewed node hnode
  have huid := (hstored.keyed _ cache_mem_states).uid _ seen hseen
  have hsame : node = seen := by
    refine hview.resolve_right fun heq => ?_
    rw [heq, admitted_admitNode (huid.1.symm ▸ huid.2)] at hnot
    cases hnot
  obtain ⟨x, hx, hversion, rfl⟩ := patch_spec hpatch
  have hunchanged := hstored.wf.unchanged (hsame ▸ hseen) hx hversion
  have hxnode := hunchanged _ current_mem_states
  rw [hx] at hxnode
  cases hxnode
  exact ⟨hunchanged, rfl⟩

theorem stamp_admitted {v : ℕ} : admitted (Versioned.stamp v node) = admitted node := rfl

theorem inPass_request {node' : Node} (hin : InPass store pass)
    (htodo : pass.todo = request :: todo)
    (hwithdraw : ∀ seen, request = .withdraw seen → seen.uid = node.uid)
    (hnode' : node'.isPrimary = true → admitted node' = true →
      (∃ seen ∈ pass.nodes, seen.uid = node.uid ∧
        (admitted seen = true ∨ .admitNode seen ∈ pass.done ++ [request])) ∧
      ∀ seen, .withdraw seen ∈ pass.done ++ [request] → seen.uid ≠ node.uid) :
    InPass (store.push (store.current.insert node.uid node'))
      { pass with done := pass.done ++ [request], todo := todo } := by
  refine ⟨hin.size, ?_, hin.named, hin.viewed, hin.uids, ?_⟩
  · have hrequests := hin.requests
    rw [htodo] at hrequests
    simpa using hrequests
  · intro uid found hfound hprimary hadmitted
    rw [current_push, lookup_insert] at hfound
    split_ifs at hfound with heq
    · cases hfound
      exact heq ▸ hnode' hprimary hadmitted
    · obtain ⟨⟨seen, hseen, huid, hor⟩, hkept⟩ :=
        hin.admissions uid found hfound hprimary hadmitted
      refine ⟨⟨seen, hseen, huid, hor.imp_right fun h => mem_append_left _ h⟩, ?_⟩
      intro other hother
      rcases mem_append.mp hother with hother | hlast
      · exact hkept other hother
      · rwa [hwithdraw other (mem_singleton.mp hlast).symm]

theorem InPass.mem_todo {todo : List Request} (h : InPass store pass)
    (htodo : pass.todo = request :: todo) :
    request ∈ reconcileStartupAdmission pass.order pass.nodes pass.pods pass.size :=
  h.requests.mem (by simp [htodo])

theorem holds_admit (h : Holds manager) (hpass : manager.pass = some pass)
    (htodo : pass.todo = .admitNode node :: todo)
    (hpatch : manager.store.patch node.uid node.resourceVersion admitNode = some store) : Holds
      { store := store, written := manager.written.insert node.uid (),
        pass := some { pass with done := pass.done ++ [.admitNode node], todo := todo } } := by
  have hin := h.pass pass hpass
  have hmem := hin.mem_todo htodo
  obtain ⟨hnode, hnot, hrunning⟩ := admit_mem hin.named hmem
  obtain ⟨hunchanged, rfl⟩ := admit_unchanged h.stored hin hmem hpatch
  have hcurrent := hunchanged _ current_mem_states
  have hne : node.uid ≠ "" :=
    ((h.stored.keyed _ current_mem_states).uid _ node hcurrent).2
  refine ⟨stored_insert h.stored hcurrent ⟨rfl, rfl, rfl, rfl, rfl, id⟩, known_push h.known ?_, ?_⟩
  · intro uid
    by_cases heq : node.uid = uid
    · refine .admitted ?_ fun w hw => ⟨node, heq ▸ hunchanged w hw, hnot⟩
      rw [mem_insert, LawfulEqOrd.compare_eq_iff_eq]
      exact .inl heq
    · refine .kept ?_ fun node' hnode' => .inl ⟨node', ?_, rfl⟩
      · rw [mem_insert, LawfulEqOrd.compare_eq_iff_eq]
        exact or_iff_right heq
      · rwa [lookup_insert, if_neg heq] at hnode'
  · intro next hnext
    cases hnext
    refine inPass_request hin htodo (by rintro seen ⟨⟩) fun hprimary _ => ?_
    refine ⟨⟨node, hnode, rfl, .inr (by simp)⟩, fun seen hseen hsame => ?_⟩
    -- what is withdrawn is stopped
    have hwithdraw : .withdraw seen ∈
        reconcileStartupAdmission pass.order pass.nodes pass.pods pass.size :=
      hin.requests.mem (mem_append_left _ (by simpa using hseen))
    obtain ⟨hseenMem, hstopped⟩ := withdraw_mem hin.named hwithdraw
    obtain rfl := hin.uids seen hseenMem node hnode hsame
    rw [hrunning hprimary] at hstopped
    cases hstopped hprimary

theorem holds_withdraw (h : Holds manager) (hpass : manager.pass = some pass)
    (htodo : pass.todo = .withdraw node :: todo)
    (hpatch : manager.store.patch node.uid node.resourceVersion withdraw = some store) : Holds
      { store := store, written := manager.written.erase node.uid,
        pass := some { pass with done := pass.done ++ [.withdraw node], todo := todo } } := by
  have hin := h.pass pass hpass
  obtain ⟨x, hx, -, rfl⟩ := patch_spec hpatch
  refine ⟨stored_insert h.stored hx ⟨rfl, rfl, rfl, rfl, rfl, id⟩, known_push h.known ?_, ?_⟩
  · intro uid
    by_cases heq : node.uid = uid
    · refine .withdrawn ?_ fun node' hnode' => ?_
      · rw [mem_erase, ne_eq, LawfulEqOrd.compare_eq_iff_eq]
        exact fun h => h.1 heq
      · rw [lookup_insert, if_pos heq] at hnode'
        cases hnode'
        exact admitted_withdraw
    · refine .kept ?_ fun node' hnode' => .inl ⟨node', ?_, rfl⟩
      · rw [mem_erase, ne_eq, LawfulEqOrd.compare_eq_iff_eq]
        exact and_iff_right heq
      · rwa [lookup_insert, if_neg heq] at hnode'
  · intro next hnext
    cases hnext
    refine inPass_request hin htodo (by rintro seen ⟨⟩; rfl) fun _ hadmitted => ?_
    rw [stamp_admitted, admitted_withdraw] at hadmitted
    cases hadmitted

theorem holds_ended (h : Holds manager) (hpass : manager.pass = some pass) :
    Holds { manager with pass := some { pass with todo := [] } } := by
  refine ⟨h.stored, h.known, fun next hnext => ?_⟩
  cases hnext
  have hin := h.pass pass hpass
  refine ⟨hin.size, ?_, hin.named, hin.viewed, hin.uids, hin.admissions⟩
  rw [append_nil]
  exact (prefix_append _ _).trans hin.requests

theorem moves_performRequest {ok : Bool} (hpass : manager.pass = some pass)
    (htodo : pass.todo = request :: todo) :
    Moves manager (performRequest manager pass request todo ok) := by
  unfold performRequest
  split_ifs
  · cases request with
    | admitNode node =>
      dsimp only
      split
      · exact .ended hpass
      · next store hpatch => exact .admitted hpass htodo hpatch
    | withdraw node =>
      dsimp only
      split
      · exact .ended hpass
      · next store hpatch => exact .withdrawn hpass htodo hpatch
  · exact .ended hpass

theorem moves_of_step (h : Stored manager.store) (he : step manager e = some manager') :
    Moves manager manager' := by
  cases e with
  | create node =>
    simp only [step] at he
    split_ifs at he with hrefused
    rw [not_or, not_or, Bool.not_eq_true, Bool.not_eq_true] at hrefused
    obtain ⟨store, hcreate, rfl⟩ := map_eq_some_iff.mp he
    have hstored := stored_create h hrefused.1 hrefused.2.2 hcreate
    obtain ⟨hfresh, rfl⟩ := create_spec hcreate
    refine .pushed hstored fun uid node' hnode' => ?_
    rw [lookup_insert] at hnode'
    split_ifs at hnode' with heq
    · cases hnode'
      exact .inr ⟨heq ▸ hfresh, hrefused.2.1⟩
    · exact .inl ⟨node', hnode', rfl, rfl⟩
  | edit uid stopped deleting hold =>
    obtain ⟨store, hupdate, rfl⟩ := map_eq_some_iff.mp he
    obtain ⟨x, hx, rfl⟩ := update_spec hupdate
    have hstatic : Static x (edit stopped deleting hold x) :=
      ⟨rfl, rfl, rfl, rfl, rfl, fun h => by simp [edit, h]⟩
    refine .pushed (stored_insert h hx hstatic) fun other node' hnode' => .inl ?_
    rw [lookup_insert] at hnode'
    split_ifs at hnode' with heq
    · cases hnode'
      exact ⟨x, heq ▸ hx, rfl, rfl⟩
    · exact ⟨node', hnode', rfl, rfl⟩
  | remove uid =>
    cases he
    refine .pushed (stored_remove h) fun other node' hnode' => .inl ⟨node', ?_, rfl, rfl⟩
    rw [lookup_erase] at hnode'
    split_ifs at hnode'
    exact hnode'
  | pass later list order pods size =>
    simp only [step] at he
    split_ifs at he
    obtain ⟨store, hadvance, rfl⟩ := map_eq_some_iff.mp he
    exact .begun list order pods hadvance
  | request ok =>
    simp only [step] at he
    split at he
    · cases he
    · next pass hpass =>
      split at he
      · cases he
      · next request todo htodo =>
        cases he
        exact moves_performRequest hpass htodo

variable (h : Holds manager) (he : step manager e = some manager')

include h he

theorem holds_step : Holds manager' := by
  cases moves_of_step h.stored he with
  | pushed hstored hkept => exact holds_push h hstored hkept
  | begun list order pods hadvance => exact holds_begin h hadvance
  | ended hpass => exact holds_ended h hpass
  | admitted hpass htodo hpatch => exact holds_admit h hpass htodo hpatch
  | withdrawn hpass htodo hpatch => exact holds_withdraw h hpass htodo hpatch

theorem admitted_of_step {pass' : Pass} {seen : Node} (hpass : manager.pass = some pass)
    (hpass' : manager'.pass = some pass') (hdone : pass'.done = pass.done ++ [.admitNode seen]) :
    manager.store.current[seen.uid]? = some seen ∧ admitted seen = false ∧
      (seen.isPrimary = true → seen.stopped = false) := by
  cases moves_of_step h.stored he with
  | pushed =>
    obtain rfl := some.inj (hpass.symm.trans hpass')
    simp at hdone
  | begun =>
    unfold beginPass at hpass'
    split_ifs at hpass'
    cases hpass'
    simp at hdone
  | ended hsame | withdrawn hsame =>
    obtain rfl := some.inj (hpass.symm.trans hsame)
    cases hpass'
    simp at hdone
  | admitted hsame htodo hpatch =>
    obtain rfl := some.inj (hpass.symm.trans hsame)
    cases hpass'
    obtain rfl : _ = seen := by simpa using hdone
    have hin := h.pass pass hpass
    have hmem := hin.mem_todo htodo
    exact ⟨(admit_unchanged h.stored hin hmem hpatch).1 _ current_mem_states,
      (admit_mem hin.named hmem).2⟩

theorem withdrawn_of_step {uid : String} {node' : Node}
    (hnode : manager.store.current[uid]? = some node)
    (hnode' : manager'.store.current[uid]? = some node') (hadmitted : admitted node = true)
    (hnot : admitted node' = false) :
    ∃ pass seen todo, manager.pass = some pass ∧ pass.todo = .withdraw seen :: todo ∧
      seen.uid = uid ∧ (seen.isPrimary = true → seen.stopped = true) := by
  have hsame : manager'.store.current[uid]? ≠ manager.store.current[uid]? := by
    intro heq
    rw [heq, hnode] at hnode'
    cases hnode'
    rw [hadmitted] at hnot
    cases hnot
  cases moves_of_step h.stored he with
  | pushed hstored hkept =>
    rcases hkept uid node' (by simpa using hnode') with ⟨x, hx, -, hmark⟩ | ⟨hfresh, -⟩
    · rw [hnode] at hx
      cases hx
      rw [hmark, hadmitted] at hnot
      cases hnot
    · cases hfresh _ current_mem_states (mem_iff_lookup.mpr ⟨node, hnode⟩)
  | begun list order pods hadvance =>
    refine (hsame ?_).elim
    unfold beginPass
    split_ifs <;> rw [(advance_spec hadvance).2.1]
  | ended => exact (hsame rfl).elim
  | @admitted _ seen _ _ _ _ hpatch =>
    obtain ⟨x, hx, -, rfl⟩ := patch_spec hpatch
    by_cases heq : seen.uid = uid
    · rw [heq, hnode] at hx
      cases hx
      obtain rfl : Versioned.stamp (manager.store.last + 1) (admitNode node) = node' := by
        simpa [heq, lookup_insert] using hnode'
      rw [stamp_admitted, admitted_admitNode (admitted_iff.mp hadmitted).1] at hnot
      cases hnot
    · exact (hsame (by simp [heq, lookup_insert])).elim
  | @withdrawn pass seen todo _ hpass htodo hpatch =>
    obtain ⟨x, -, -, rfl⟩ := patch_spec hpatch
    by_cases heq : seen.uid = uid
    · have hin := h.pass pass hpass
      have hmem := hin.mem_todo htodo
      exact ⟨pass, seen, todo, hpass, htodo, heq, (withdraw_mem hin.named hmem).2⟩
    · exact (hsame (by simp [heq, lookup_insert])).elim

end Steps

def started (nodes : GoMap String Node) (last : ℕ) : Manager where
  store := { cache := nodes, last := last }

/-- Nodes as an API server keeps them. -/
structure Installed (nodes : GoMap String Node) (last : ℕ) : Prop where
  keyed : Keyed nodes
  versions : ∀ (uid : String) (node : Node), nodes[uid]? = some node → node.resourceVersion ≤ last

theorem holds_started (h : Installed nodes last) : Holds (started nodes last) := by
  have hstates : (started nodes last).store.states = [nodes] := rfl
  refine ⟨kept_start h.versions h.keyed, ⟨?_, ?_⟩, nofun⟩
  · intro uid node hnode hadmitted w hw
    rw [hstates, mem_singleton] at hw
    exact ⟨node, hw ▸ hnode, .inl hadmitted⟩
  · intro uid huid
    exact pairwise_singleton _ _

theorem holds_run (h : Installed nodes last) {events : List Event} {manager : Manager}
    (hrun : run step (started nodes last) events = some manager) : Holds manager :=
  run_invariant_of_step (holds_started h) (fun _ _ _ h he => holds_step h he) events manager hrun

/-- The Node leads a running group that is admitted and whose sandbox is not ready. -/
def Unready (manager : Manager) (pods : List Pod) (uid : String) : Prop :=
  ∃ node : Node, manager.store.current[uid]? = some node ∧ node.isPrimary = true ∧
    node.deleting = false ∧ node.ignored = false ∧ node.stopped = false ∧ admitted node = true ∧
    sandboxReady pods uid = false

theorem unready_bound {manager : Manager} {pass : Pass} {slot : Node} (h : Holds manager)
    (hpass : manager.pass = some pass) (hslot : .admitNode slot ∈ pass.done)
    (hprimary : slot.isPrimary = true) (hpod : (startupAdmissionPods pass.pods)[slot.uid]? = none) :
    {uid | Unready manager pass.pods uid}.encard ≤ pass.size := by
  have hin := h.pass pass hpass
  obtain ⟨taken, hlength, htaken⟩ := slots_of_admit hin.named hin.size
    ((prefix_append _ _).trans hin.requests) hslot hprimary hpod
  refine encard_le_of_subset_list taken ?_ hlength
  rintro uid ⟨node, hnode, hisPrimary, hdeleting, hignored, -, hadmitted, hunready⟩
  obtain ⟨⟨seen, hseen, rfl, hshown⟩, hwithdrawn⟩ :=
    hin.admissions uid node hnode hisPrimary hadmitted
  obtain ⟨before, hbefore, hview⟩ := hin.viewed seen hseen
  have hstatic := h.stored.static.current static_refl cache_mem_states hbefore hnode
  have hsame : seen.networkMode = before.networkMode ∧ seen.ignored = before.ignored ∧
      seen.deleting = before.deleting := by
    rcases hview with rfl | rfl
    · exact ⟨rfl, rfl, rfl⟩
    · exact ⟨rfl, rfl, rfl⟩
  have hlive : seen.deleting = false := by
    rw [hsame.2.2, ← Bool.not_eq_true]
    intro hgone
    rw [hstatic.deleting hgone] at hdeleting
    cases hdeleting
  have hready := htaken seen hseen hlive (by rw [hsame.2.1, ← hstatic.ignored, hignored])
    (by rw [Node.isPrimary, hsame.1, ← hstatic.networkMode]; exact hisPrimary) hshown
    fun hmem => hwithdrawn seen hmem rfl
  refine hready.resolve_left fun hready => ?_
  rw [hunready] at hready
  cases hready

/-- No more groups are admitted without a ready sandbox than there are slots, stopped groups count
for nothing, and only stopped groups lose their admission. -/
theorem startup_slots {nodes : GoMap String Node} {last : ℕ} (hnodes : Installed nodes last)
    {events : List Event} {manager : Manager}
    (hrun : run step (started nodes last) events = some manager) :
    (∀ pass slot, manager.pass = some pass → .admitNode slot ∈ pass.done → slot.isPrimary = true →
        (startupAdmissionPods pass.pods)[slot.uid]? = none →
        {uid | Unready manager pass.pods uid}.encard ≤ pass.size) ∧
      (∀ groups newest size, (pendingStartupGroups groups newest size).2 =
        (pendingStartupGroups (groups.filter fun group => !group.primary.stopped) newest size).2) ∧
      ∀ e manager', step manager e = some manager' →
        (∀ pass pass' seen, manager.pass = some pass → manager'.pass = some pass' →
          pass'.done = pass.done ++ [.admitNode seen] →
          manager.store.current[seen.uid]? = some seen ∧ admitted seen = false ∧
            (seen.isPrimary = true → seen.stopped = false)) ∧
        ∀ (uid : String) (node node' : Node), manager.store.current[uid]? = some node →
          manager'.store.current[uid]? = some node' → admitted node = true →
          admitted node' = false →
          ∃ pass seen todo, manager.pass = some pass ∧ pass.todo = .withdraw seen :: todo ∧
            seen.uid = uid ∧ (seen.isPrimary = true → seen.stopped = true) := by
  have h := holds_run hnodes hrun
  refine ⟨fun pass slot hpass hslot hprimary hpod => unready_bound h hpass hslot hprimary hpod,
    pendingStartupGroups_filter, fun e manager' he => ⟨?_, ?_⟩⟩
  · intro pass pass' seen hpass hpass' hdone
    exact admitted_of_step h he hpass hpass' hdone
  · intro uid node node' hnode hnode' hadmitted hnot
    exact withdrawn_of_step h he hnode hnode' hadmitted hnot

instance (manager : Manager) (pods : List Pod) (uid : String) :
    Decidable (Unready manager pods uid) :=
  decidable_of_iff (manager.store.current[uid]?.any (fun node => node.isPrimary && !node.deleting &&
    !node.ignored && !node.stopped && admitted node && !sandboxReady pods uid) = true)
    (by simp [Unready, Option.any_eq_true, and_assoc])

theorem installed_of_entries (h : ∀ entry ∈ nodes.toList, (entry.2.uid = entry.1 ∧ entry.1 ≠ "") ∧
      entry.2.resourceVersion ≤ last)
    (hnames : ∀ a ∈ nodes.toList, ∀ b ∈ nodes.toList, a.2.namespaceName = b.2.namespaceName →
      a.2.name = b.2.name → a.1 = b.1) : Installed nodes last := by
  have hmem : ∀ {uid : String} {node : Node}, nodes[uid]? = some node →
      (uid, node) ∈ nodes.toList :=
    fun hnode => mem_toList_iff_getElem?_eq_some.mpr hnode
  refine ⟨⟨?_, ?_⟩, ?_⟩
  · exact fun uid node hnode => (h _ (hmem hnode)).1
  · exact fun a b x y hx hy => hnames _ (hmem hx) _ (hmem hy)
  · exact fun uid node hnode => (h _ (hmem hnode)).2

def leaf : Node := { name := "leaf", uid := "a", creationTimestamp := 1 }

def spine : Node := { name := "spine", uid := "b", creationTimestamp := 2 }

def pair : GoMap String Node := .ofList [("a", leaf), ("b", spine)]

theorem installed_pair : Installed pair 0 :=
  installed_of_entries (by decide +kernel) (by decide +kernel)

def firstReady : List Pod :=
  [{ nodeUID := "a", conditions := [⟨podReadyToStartContainers, .conditionTrue⟩] }]

def anyOrder : Order := ⟨fun _ => 0, fun _ => 0, fun _ => 0⟩

/-- The second pass reads what the first one read, before it had admitted the first Node. -/
def lagging : List Event :=
  [.pass 0 (fun _ => 0) anyOrder [] 1, .request true, .pass 0 (fun _ => 0) anyOrder firstReady 1,
    .request true]

theorem lagging_slots : ∃ manager, run step (started pair 0) lagging = some manager ∧
    Unready manager firstReady "b" ∧ {uid | Unready manager firstReady uid}.encard ≤ 1 := by
  obtain ⟨manager, hrun, hb, pass, hpass, hpods, hsize, hdone⟩ : ∃ manager,
      run step (started pair 0) lagging = some manager ∧ Unready manager firstReady "b" ∧
        ∃ pass, manager.pass = some pass ∧ pass.pods = firstReady ∧ pass.size = 1 ∧
          pass.done = [.admitNode spine] := by
    decide +kernel
  have hbound := (startup_slots installed_pair hrun).1 pass spine hpass (by rw [hdone]; simp)
    (by decide) (by rw [hpods]; decide +kernel)
  rw [hpods, hsize] at hbound
  exact ⟨manager, hrun, hb, hbound⟩

def fromBefore : List Pod := [{ nodeUID := "a" }, { nodeUID := "b" }]

/-- The first Node is admitted, stopped, withdrawn, started and admitted again. -/
def readmission : List Event :=
  [.pass 0 (fun _ => 0) anyOrder [] 1, .request true, .edit "a" true false "",
    .pass 2 (fun _ => 0) anyOrder [] 1, .request true, .request false, .edit "a" false false "",
    .pass 2 (fun _ => 0) anyOrder [] 1, .request true]

/-- One pass with one slot admits two Nodes that have Pods. -/
theorem adopted_over_limit : Installed pair 0 ∧
    (∃ manager, run step (started pair 0)
        [.pass 0 (fun _ => 0) anyOrder fromBefore 1, .request true, .request true] = some manager ∧
      ¬Unready (started pair 0) fromBefore "a" ∧ ¬Unready (started pair 0) fromBefore "b" ∧
      Unready manager fromBefore "a" ∧ Unready manager fromBefore "b") ∧
    [2, 5, 9].map (fun n => (run step (started pair 0) (readmission.take n)).bind
      (·.store.current["a"]?.map admitted)) = [some true, some false, some true] := by
  refine ⟨installed_pair, ?_⟩
  decide +kernel

end Clabernetes.Startup.Admission
