import Clabernetes.DevicePlan.NormalForm
import Clabernetes.Planning.Accepted
import Mathlib.Data.List.Dedup

/-!
# The interfaces of a group

A Link that the Link controller has settled compiles in every workload group, and the interfaces of
such Links only fill their section of the group's input. The two sides of a Link are told apart by
membership in the group.
-/

namespace Clabernetes.Planning

open Base DevicePlan Links Std List ExtTreeMap

def PlannedLink.nodeName (link : PlannedLink) (side : Side) : String :=
  (link.endpoint side).nodeName

structure Ready (nodes : PlannedNodes) (link : PlannedLink)
    (resolved : LinkResolvedEndpointsStatus) : Prop where
  uid : link.uid ≠ ""
  accepted : isStatusConditionTrue link.status.conditions linkConditionAccepted = true
  resolvedEndpoints : link.status.resolvedEndpoints = some resolved
  bound : ∀ side, Bound (linkNodes nodes) (link.nodeName side) (resolvedEndpoint resolved side)
  host : ∀ side, link.nodeName side = linkHostNodeName → (resolvedEndpoint resolved side).uid = ""
  interfaceName : ∀ side, (link.endpoint side).interfaceName ≠ ""
  mtu : 0 ≤ link.mtu
  wireID : if isLocalLink (linkNodes nodes) link.toLink then link.status.wireID = 0
    else 1 ≤ link.status.wireID

variable {name : String} {members : PlannedNodes} {knows : String → Bool}

theorem Bound.lookup {nodes : PlannedNodes} {endpoint : LinkResolvedEndpointStatus}
    (h : Bound (linkNodes nodes) name endpoint) (hhost : name ≠ linkHostNodeName) :
    endpoint.uid ≠ "" ∧ ∃ node, nodes[name]? = some node ∧ node.uid = endpoint.uid := by
  obtain ⟨huid, node, hnode, heq⟩ := h.node hhost
  rw [lookup_linkNodes, Option.map_eq_some_iff] at hnode
  obtain ⟨planned, hplanned, rfl⟩ := hnode
  exact ⟨huid, planned, hplanned, heq⟩

section

variable {nodes : PlannedNodes} {link : PlannedLink} {resolved : LinkResolvedEndpointsStatus}
  {primary : String} {intf : InterfaceInput} {side : Side} {links : List PlannedLink}

theorem Ready.validateResolvedEndpoint (h : Ready nodes link resolved) (side : Side) :
    validateResolvedEndpoint link (link.endpoint side) (resolvedEndpoint resolved side) nodes =
      .ok () := by
  have hname : (resolvedEndpoint resolved side).nodeName = (link.endpoint side).nodeName :=
    (h.bound side).nodeName_eq
  simp only [Planning.validateResolvedEndpoint, bind_eq_ok, rejectIf_eq_ok]
  refine ⟨not_not.mpr hname, ?_⟩
  by_cases hhost : (link.endpoint side).nodeName = linkHostNodeName
  · rw [if_pos hhost, rejectIf_eq_ok]
    exact not_not.mpr (h.host side hhost)
  · obtain ⟨huid, node, hnode, heq⟩ := (h.bound side).lookup hhost
    have hnode' : nodes[(link.endpoint side).nodeName]? = some node := hnode
    rw [if_neg hhost, bind_eq_ok, rejectIf_eq_ok, rejectIf_eq_ok, hnode']
    simp [huid, heq]

theorem isLocalLink_eq_true_iff : isLocalLink (linkNodes nodes) link.toLink = true ↔
    link.nodeName .a = linkHostNodeName ∨ link.nodeName .b = linkHostNodeName ∨
      primaryOf nodes (link.nodeName .a) = primaryOf nodes (link.nodeName .b) := by
  simp [isLocalLink, isHostLink, isSamePodLink, PlannedLink.nodeName, PlannedLink.endpoint,
    primaryOf, or_assoc]

theorem isLocalLink_side (side : Side) : isLocalLink (linkNodes nodes) link.toLink = true ↔
    link.nodeName side = linkHostNodeName ∨ link.nodeName side.peer = linkHostNodeName ∨
      primaryOf nodes (link.nodeName side) = primaryOf nodes (link.nodeName side.peer) := by
  rw [isLocalLink_eq_true_iff]
  cases side with
  | a => exact Iff.rfl
  | b =>
    show _ ↔ link.nodeName .b = linkHostNodeName ∨ link.nodeName .a = linkHostNodeName ∨
      primaryOf nodes (link.nodeName .b) = primaryOf nodes (link.nodeName .a)
    rw [eq_comm (a := primaryOf nodes (link.nodeName .a))]
    tauto

def sideConnectivity (nodes : PlannedNodes) (primary : String) (link : PlannedLink) (side : Side) :
    String :=
  interfaceConnectivity (link.endpoint side) (link.endpoint side.peer) (groupMap nodes primary)

def sideInterfaces (nodes : PlannedNodes) (primary : String) (link : PlannedLink)
    (resolved : LinkResolvedEndpointsStatus) (side : Side) : List InterfaceInput :=
  ((groupMap nodes primary)[link.nodeName side]?.map fun member =>
    interfaceInput link resolved side member (sideConnectivity nodes primary link side)).toList

theorem interfaceConnectivity_eq_wire {endpoint peer : LinkEndpointSpec} :
    interfaceConnectivity endpoint peer members = connectivityWire ↔
      peer.nodeName ≠ linkHostNodeName ∧ endpoint.nodeName ≠ peer.nodeName ∧
        peer.nodeName ∉ members := by
  unfold interfaceConnectivity
  split
  · next hhost => simp [hhost, connectivityHost, connectivityWire]
  · next hhost =>
    split
    · next hsame => simp [hsame, connectivityLoopback, connectivityWire]
    · next hsame =>
      split
      · next hmember => simp [hmember, connectivitySamePod, connectivityWire]
      · next hmember => simp [hhost, hsame, hmember]

section

variable (h : Ready nodes link resolved)

include h

theorem Ready.sideConnectivity_eq_wire
    (hhost : linkHostNodeName ∉ nodes) (hmember : link.nodeName side ∈ groupMap nodes primary) :
    sideConnectivity nodes primary link side = connectivityWire ↔
      isLocalLink (linkNodes nodes) link.toLink = false := by
  obtain ⟨hmem, rfl⟩ := mem_groupMap.mp hmember
  have hne : link.nodeName side ≠ linkHostNodeName := fun heq => hhost (heq ▸ hmem)
  rw [sideConnectivity, interfaceConnectivity_eq_wire, mem_groupMap, ← Bool.not_eq_true,
    isLocalLink_side side]
  show link.nodeName side.peer ≠ _ ∧ link.nodeName side ≠ link.nodeName side.peer ∧
    ¬(link.nodeName side.peer ∈ nodes ∧ _) ↔ _
  constructor
  · rintro ⟨hpeer, -, hother⟩ (hthis | hhostPeer | hsame)
    · exact hne hthis
    · exact hpeer hhostPeer
    · -- the Node at the other end exists, so it is in the group of its primary
      obtain ⟨-, node, hnode, -⟩ := (h.bound side.peer).lookup hpeer
      have hpeerMem : link.nodeName side.peer ∈ nodes :=
        mem_iff_isSome_getElem?.mpr (by rw [hnode]; rfl)
      exact hother ⟨hpeerMem, hsame.symm⟩
  · intro hcross
    rw [not_or, not_or] at hcross
    obtain ⟨-, hpeer, hgroups⟩ := hcross
    exact ⟨hpeer, fun hsame => hgroups (congrArg _ hsame), fun hmem => hgroups hmem.2.symm⟩

theorem Ready.wireID_ne_zero :
    link.status.wireID ≠ 0 ↔ isLocalLink (linkNodes nodes) link.toLink = false := by
  have hwire := h.wireID
  split at hwire
  · next hlocal => simp [hwire, hlocal]
  · next hlocal =>
    rw [Bool.not_eq_true] at hlocal
    simp only [hlocal, iff_true]
    omega

theorem Ready.compileSide (hhost : linkHostNodeName ∉ nodes) (primary : String) (side : Side) :
    compileSide nodes (groupMap nodes primary) link resolved side =
      .ok (sideInterfaces nodes primary link resolved side) := by
  rw [Planning.compileSide, bind_eq_ok]
  refine ⟨h.validateResolvedEndpoint side, ?_⟩
  have hname : (link.endpoint side).nodeName = link.nodeName side := rfl
  rw [sideInterfaces, hname]
  cases hmember : (groupMap nodes primary)[link.nodeName side]? with
  | none => rfl
  | some member =>
    have hmem : link.nodeName side ∈ groupMap nodes primary :=
      mem_iff_isSome_getElem?.mpr (by rw [hmember]; rfl)
    dsimp only
    rw [bind_eq_ok, rejectIf_eq_ok]
    refine ⟨?_, rfl⟩
    rintro ⟨hwire, hzero⟩
    have hcross := (h.sideConnectivity_eq_wire hhost hmem).mp hwire
    exact h.wireID_ne_zero.mpr hcross hzero

end

def linkInterfaces (nodes : PlannedNodes) (primary : String) (link : PlannedLink) :
    List InterfaceInput :=
  match link.status.resolvedEndpoints with
  | none => []
  | some resolved =>
    sideInterfaces nodes primary link resolved .a ++ sideInterfaces nodes primary link resolved .b

theorem Ready.linkInterfaces_eq (h : Ready nodes link resolved) (primary : String) :
    linkInterfaces nodes primary link =
      sideInterfaces nodes primary link resolved .a ++
        sideInterfaces nodes primary link resolved .b := by
  simp only [linkInterfaces, h.resolvedEndpoints]

theorem sideInterfaces_of_notMem (h : link.nodeName side ∉ groupMap nodes primary) :
    sideInterfaces nodes primary link resolved side = [] := by
  rw [sideInterfaces, getElem?_eq_none h]
  rfl

theorem Ready.compileLink (h : Ready nodes link resolved) (hhost : linkHostNodeName ∉ nodes)
    (primary : String) :
    compileLink nodes (groupMap nodes primary) link = .ok (linkInterfaces nodes primary link) := by
  rw [h.linkInterfaces_eq]
  unfold Planning.compileLink
  split
  · next hother =>
    rw [sideInterfaces_of_notMem hother.1, sideInterfaces_of_notMem hother.2]
    rfl
  · simp only [h.uid, h.accepted, h.resolvedEndpoints, reduceCtorEq, or_self, ↓reduceIte]
    rw [h.compileSide hhost, h.compileSide hhost]
    rfl

theorem mem_sideInterfaces : intf ∈ sideInterfaces nodes primary link resolved side ↔
      ∃ member, nodes[link.nodeName side]? = some member ∧
        primaryOf nodes (link.nodeName side) = primary ∧
        intf = interfaceInput link resolved side member
          (sideConnectivity nodes primary link side) := by
  rw [sideInterfaces, Option.mem_toList, Option.map_eq_some_iff, lookup_groupMap]
  split
  · next hprimary => simp [hprimary, eq_comm]
  · next hprimary => simp [hprimary]

theorem Ready.mem_linkInterfaces (h : Ready nodes link resolved) :
    intf ∈ Planning.linkInterfaces nodes primary link ↔
      ∃ side member, nodes[link.nodeName side]? = some member ∧
        primaryOf nodes (link.nodeName side) = primary ∧
        intf = interfaceInput link resolved side member
          (sideConnectivity nodes primary link side) := by
  rw [h.linkInterfaces_eq, mem_append, mem_sideInterfaces, mem_sideInterfaces]
  constructor
  · rintro (hmem | hmem)
    · exact ⟨.a, hmem⟩
    · exact ⟨.b, hmem⟩
  · rintro ⟨_ | _, hmem⟩
    · exact .inl hmem
    · exact .inr hmem

theorem interfaceID_injective {uid uid' : String} {side' : Side}
    (h : uid ++ "/" ++ side.letter = uid' ++ "/" ++ side'.letter) : uid = uid' ∧ side = side' := by
  have hlist := congrArg String.toList h
  simp only [String.toList_append, append_assoc] at hlist
  have hlength : ("/".toList ++ side.letter.toList).length =
      ("/".toList ++ side'.letter.toList).length := by
    cases side <;> cases side' <;> rfl
  obtain ⟨huid, hside⟩ := append_inj' hlist hlength
  refine ⟨String.toList_injective huid, ?_⟩
  cases side <;> cases side' <;> simp_all [Side.letter]

theorem linkID_of_mem_linkInterfaces (h : intf ∈ linkInterfaces nodes primary link) :
    intf.linkID = link.uid := by
  rw [linkInterfaces] at h
  split at h
  · cases h
  · simp only [mem_append, mem_sideInterfaces] at h
    obtain ⟨member, -, -, rfl⟩ | ⟨member, -, -, rfl⟩ := h <;> rfl

theorem exists_id_of_mem_linkInterfaces (h : intf ∈ linkInterfaces nodes primary link) :
    ∃ side : Side, intf.id = link.uid ++ "/" ++ side.letter := by
  rw [linkInterfaces] at h
  split at h
  · cases h
  · simp only [mem_append, mem_sideInterfaces] at h
    obtain ⟨member, -, -, rfl⟩ | ⟨member, -, -, rfl⟩ := h
    · exact ⟨.a, rfl⟩
    · exact ⟨.b, rfl⟩

theorem pairwise_id_linkInterfaces :
    (linkInterfaces nodes primary link).Pairwise fun a b => a.id ≠ b.id := by
  rw [linkInterfaces]
  split
  · exact .nil
  · next resolved _ =>
    have hside : ∀ side, (sideInterfaces nodes primary link resolved side).Pairwise
        fun a b => a.id ≠ b.id := by
      intro side
      rw [sideInterfaces]
      cases (groupMap nodes primary)[link.nodeName side]? with
      | none => exact .nil
      | some member => exact pairwise_singleton _ _
    rw [pairwise_append]
    refine ⟨hside .a, hside .b, ?_⟩
    intro a ha b hb heq
    obtain ⟨_, -, -, rfl⟩ := mem_sideInterfaces.mp ha
    obtain ⟨_, -, -, rfl⟩ := mem_sideInterfaces.mp hb
    exact absurd (interfaceID_injective heq).2 (by decide)

def groupInterfaces (nodes : PlannedNodes) (primary : String) (links : List PlannedLink) :
    List InterfaceInput :=
  links.flatMap (linkInterfaces nodes primary)

theorem pairwise_id_groupInterfaces (huids : (links.map (·.uid)).Nodup) :
    (groupInterfaces nodes primary links).Pairwise fun a b => a.id ≠ b.id := by
  rw [groupInterfaces, pairwise_flatMap]
  refine ⟨fun link _ => pairwise_id_linkInterfaces, ?_⟩
  refine (pairwise_map.mp huids).imp ?_
  intro link other hne a ha b hb heq
  obtain ⟨side, hside⟩ := exists_id_of_mem_linkInterfaces ha
  obtain ⟨side', hside'⟩ := exists_id_of_mem_linkInterfaces hb
  rw [hside, hside'] at heq
  exact hne (interfaceID_injective heq).1

theorem filter_groupInterfaces (huids : (links.map (·.uid)).Nodup) (hlink : link ∈ links) :
    (groupInterfaces nodes primary links).filter (·.linkID = link.uid) =
      linkInterfaces nodes primary link := by
  have hown : ∀ other : PlannedLink, (linkInterfaces nodes primary other).filter
      (·.linkID = link.uid) =
        if other.uid = link.uid then linkInterfaces nodes primary other else [] := by
    intro other
    split
    · next heq =>
      rw [filter_eq_self]
      intro intf hmem
      rw [linkID_of_mem_linkInterfaces hmem, heq]
      exact decide_eq_true rfl
    · next hne =>
      rw [filter_eq_nil_iff]
      intro intf hmem
      rw [linkID_of_mem_linkInterfaces hmem]
      simpa using hne
  rw [groupInterfaces, filter_flatMap]
  simp only [hown]
  induction links with
  | nil => cases hlink
  | cons first rest ih =>
    rw [map_cons, nodup_cons] at huids
    rw [flatMap_cons]
    obtain rfl | hrest := mem_cons.mp hlink
    · have hnone : rest.flatMap (fun other =>
          if other.uid = link.uid then linkInterfaces nodes primary other else []) = [] := by
        rw [flatMap_eq_nil_iff]
        intro other hother
        apply if_neg
        intro heq
        exact huids.1 (mem_map.mpr ⟨other, hother, heq⟩)
      rw [if_pos rfl, hnone, append_nil]
    · have hne : first.uid ≠ link.uid := fun heq =>
        huids.1 (mem_map.mpr ⟨link, hrest, heq.symm⟩)
      rw [if_neg hne, nil_append]
      exact ih huids.2 hrest

theorem Ready.validInterface (h : Ready nodes link resolved)
    (hknows : ∀ name member, nodes[name]? = some member → primaryOf nodes name = primary →
      knows member.uid = true) (hmem : intf ∈ Planning.linkInterfaces nodes primary link) :
    validateInterfaceInput knows [] intf = .ok () := by
  obtain ⟨side, member, hmember, hprimary, rfl⟩ := h.mem_linkInterfaces.mp hmem
  have hid : link.uid ++ "/" ++ side.letter ≠ "" := by simp [String.append_eq_empty_iff]
  have hconnectivity : sideConnectivity nodes primary link side ≠ "" := by
    show interfaceConnectivity _ _ _ ≠ ""
    unfold interfaceConnectivity
    split_ifs <;> decide
  have hwire : 0 ≤ link.status.wireID := by
    have hwire := h.wireID
    split at hwire <;> omega
  simp only [validateInterfaceInput, bind_eq_ok, rejectIf_eq_ok, interfaceInput, hid, h.uid,
    hknows _ _ hmember hprimary, h.interfaceName side, hconnectivity, false_or, reduceCtorEq,
    not_mem_nil, false_and, exists_false, not_false_eq_true, and_true, not_or, Int.not_lt]
  exact ⟨hwire, h.mtu⟩

end

section

variable {lib : Library} {nodes : PlannedNodes} {links : List PlannedLink} {primary : String}
  {request : PlanInputCompileRequest} {input : Input}

def AllReady (nodes : PlannedNodes) (links : List PlannedLink) : Prop :=
  ∀ link ∈ links, ∃ resolved, Ready nodes link resolved

theorem mapM_eq_ok_map {ε α β : Type} {f : α → Except ε β} {g : α → β} {l : List α}
    (h : ∀ a ∈ l, f a = .ok (g a)) : l.mapM f = .ok (l.map g) := by
  rw [mapM_eq_ok_iff, forall₂_map_right_iff, forall₂_same]
  exact h

theorem compileAcceptedInterfaces_eq (hready : AllReady nodes links)
    (hhost : linkHostNodeName ∉ nodes) :
    compileAcceptedInterfaces lib links nodes (groupMap nodes primary) =
      .ok (lib.sorting.sort (compareOn (·.id)) (groupInterfaces nodes primary links)) := by
  have hcompiled : links.mapM (compileLink nodes (groupMap nodes primary)) =
      .ok (links.map (linkInterfaces nodes primary)) := by
    apply mapM_eq_ok_map
    intro link hlink
    obtain ⟨resolved, hlinkReady⟩ := hready link hlink
    exact hlinkReady.compileLink hhost primary
  rw [compileAcceptedInterfaces, hcompiled]
  rfl

theorem compileAcceptedInterfaces_nil :
    compileAcceptedInterfaces lib [] nodes members = .ok [] := by
  have hsort : lib.sorting.sort (compareOn InterfaceInput.id) [] = [] :=
    (lib.sorting.perm_sort _ _).eq_nil
  show Except.ok (lib.sorting.sort (compareOn InterfaceInput.id) []) = _
  rw [hsort]

structure GroupRequest (nodes : PlannedNodes) (links : List PlannedLink) (primary : String)
    (request : PlanInputCompileRequest) : Prop where
  primaryName : request.primaryName = primary
  found : nodes[primary]? = some request.primary
  groupMembers : request.groupMembers = resolveGroupMembers (linkNodes nodes) primary
  nodesByName : request.nodesByName = nodes
  links : request.links = links

theorem GroupRequest.compileMember_eq_ok (h : GroupRequest nodes links primary request)
    {entry : PlannedNode × NodeInput} (hentry : compileMember request name = .ok entry) :
    nodes[name]? = some entry.1 ∧ entry.2.id = entry.1.uid := by
  have hfound : (if name = request.primaryName then some request.primary
      else request.nodesByName[name]?) = nodes[name]? := by
    split
    · next heq => rw [heq, h.primaryName, h.found]
    · rw [h.nodesByName]
  simp only [compileMember, hfound] at hentry
  split at hentry
  · cases hentry
  · next node hnode =>
    split at hentry
    · cases hentry
    · split at hentry
      · cases hentry
      · cases hentry
        exact ⟨hnode, rfl⟩

theorem lookup_members {names : List String} {members : List PlannedNode}
    (h : List.Forall₂ (fun name member => nodes[name]? = some member) names members)
    (m : PlannedNodes) (name : String) :
    ((names.zip members).foldl (fun m entry => m.insert entry.1 entry.2) m)[name]? =
      if name ∈ names then nodes[name]? else m[name]? := by
  induction h generalizing m with
  | nil => simp
  | @cons first member rest members hfirst _ ih =>
    rw [zip_cons_cons, foldl_cons, ih, GoMap.lookup_insert]
    by_cases hrest : name ∈ rest
    · simp [hrest]
    · by_cases heq : name = first
      · simp [heq, hfirst]
      · simp [hrest, heq, Ne.symm heq]

theorem GroupRequest.mem_memberNames (h : GroupRequest nodes links primary request)
    (hprimary : IsPrimary nodes primary) :
    name ∈ (lib.sorting.sort compare request.groupMembers).dedup ↔
      name ∈ nodes ∧ primaryOf nodes name = primary := by
  rw [mem_dedup, (lib.sorting.perm_sort compare _).mem_iff, h.groupMembers,
    mem_resolveGroupMembers hprimary]

theorem GroupRequest.memberMap_eq (h : GroupRequest nodes links primary request)
    (hprimary : IsPrimary nodes primary) {compiled : List (PlannedNode × NodeInput)}
    (hcompiled : (lib.sorting.sort compare request.groupMembers).dedup.mapM
      (compileMember request) = .ok compiled) :
    memberMap (lib.sorting.sort compare request.groupMembers).dedup (compiled.map Prod.fst) =
      groupMap nodes primary := by
  apply ExtTreeMap.ext_getElem?
  intro name
  have hnames : name ∈ (lib.sorting.sort compare request.groupMembers).dedup ↔
      name ∈ nodes ∧ primaryOf nodes name = primary := h.mem_memberNames hprimary
  have hmembers : List.Forall₂ (fun name member => nodes[name]? = some member)
      (lib.sorting.sort compare request.groupMembers).dedup (compiled.map Prod.fst) := by
    rw [forall₂_map_right_iff]
    refine (mapM_eq_ok_iff.mp hcompiled).imp ?_
    intro name entry hentry
    exact (h.compileMember_eq_ok hentry).1
  rw [memberMap, lookup_members hmembers, lookup_groupMap]
  by_cases hgroup : primaryOf nodes name = primary
  · by_cases hmem : name ∈ nodes
    · rw [if_pos hgroup, if_pos (hnames.mpr ⟨hmem, hgroup⟩)]
    · rw [if_pos hgroup, if_neg fun hname => hmem (hnames.mp hname).1, getElem?_eq_none hmem]
      exact getElem?_empty
  · rw [if_neg hgroup, if_neg fun hname => hgroup (hnames.mp hname).2]
    exact getElem?_empty

theorem validateInput_interfaces
    (h : checkEach (validateInterfaceInput input.knows) input.interfaces = .ok ()) :
    validateInput lib.toTextLibrary input =
      validateInput lib.toTextLibrary { input with interfaces := [] } := by
  unfold validateInput
  rw [h]
  rfl

theorem id_of_plain {node plain : NodeInput} (h : node.plain lib.toTextLibrary = some plain) :
    plain.id = node.id := by
  unfold NodeInput.plain at h
  split at h
  · cases h
    rfl
  · obtain ⟨text, -, rfl⟩ := Option.map_eq_some_iff.mp h
    rfl

theorem knows_of_plain {copies : List NodeInput}
    (h : input.nodes.mapM (NodeInput.plain lib.toTextLibrary) = some copies) :
    Input.knows { input with nodes := copies } = input.knows := by
  have hids : List.Forall₂ (fun node copy => (copy : NodeInput).id = (node : NodeInput).id)
      input.nodes copies :=
    (mapM_eq_some_iff.mp h).imp fun _ _ => id_of_plain
  funext id
  show copies.any (·.id = id) = input.nodes.any (·.id = id)
  clear h
  generalize input.nodes = sources at hids
  induction hids with
  | nil => rfl
  | cons hid _ ih => rw [any_cons, any_cons, hid, ih]

theorem normalizeInput_eq_map
    (h : checkEach (validateInterfaceInput input.knows) input.interfaces = .ok ()) :
    normalizeInput lib input =
      (normalizeInput lib { input with interfaces := [] }).map fun normalized =>
        { normalized with interfaces := lib.sorting.sort (compareOn (·.id)) input.interfaces } := by
  simp only [normalizeInput, Codec.normalize, Codec.clone_eq_plain, lib.plain_input, Input.plain]
  cases hcopies : input.nodes.mapM (NodeInput.plain lib.toTextLibrary) with
  | none => rfl
  | some copies =>
    rw [← knows_of_plain hcopies] at h
    simp only [Option.map_some, settleInput]
    rw [validateInput_interfaces h]
    cases validateInput lib.toTextLibrary { input with nodes := copies, interfaces := [] } with
    | error err => rfl
    | ok => rfl

def sortedInterfaces (lib : Library) (nodes : PlannedNodes) (primary : String)
    (links : List PlannedLink) : List InterfaceInput :=
  lib.sorting.sort (compareOn (·.id)) (groupInterfaces nodes primary links)

theorem perm_sortedInterfaces :
    (sortedInterfaces lib nodes primary links).Perm (groupInterfaces nodes primary links) :=
  lib.sorting.perm_sort _ _

theorem checkEach_sortedInterfaces (hready : AllReady nodes links)
    (huids : (links.map (·.uid)).Nodup)
    (hknows : ∀ name member, nodes[name]? = some member → primaryOf nodes name = primary →
      knows member.uid = true) :
    checkEach (validateInterfaceInput knows) (sortedInterfaces lib nodes primary links) =
      .ok () := by
  rw [validateInterfaceInput_apart.checkEach_eq_ok]
  constructor
  · intro intf hmem
    obtain ⟨link, hlink, hintf⟩ := mem_flatMap.mp (perm_sortedInterfaces.mem_iff.mp hmem)
    obtain ⟨resolved, hlinkReady⟩ := hready link hlink
    exact hlinkReady.validInterface hknows hintf
  · rw [perm_sortedInterfaces.pairwise_iff fun h => Ne.symm h]
    exact pairwise_id_groupInterfaces huids

/-- The interfaces of the accepted Links only fill their section of the group's input: whatever
else may be wrong with it is wrong without them too. -/
theorem GroupRequest.compilePlanInput_eq (h : GroupRequest nodes links primary request)
    (hprimary : IsPrimary nodes primary) (hready : AllReady nodes links)
    (hhost : linkHostNodeName ∉ nodes) (huids : (links.map (·.uid)).Nodup) :
    compilePlanInput lib request =
      (compilePlanInput lib { request with links := [] }).map fun input =>
        { input with interfaces := sortedInterfaces lib nodes primary links } := by
  unfold compilePlanInput
  dsimp only
  generalize rejectIf (request.primaryName = "" ∨ request.primary.namespaceName = "" ∨
    request.primary.uid = "") _ = identity
  cases identity with
  | error err => rfl
  | ok =>
    simp only [bind, Except.bind]
    generalize rejectIf (request.primaryName ∉
      (lib.sorting.sort compare request.groupMembers).dedup) _ = contained
    cases contained with
    | error err => rfl
    | ok =>
      have hsame : compileMember { request with links := [] } = compileMember request := rfl
      rw [hsame]
      dsimp only
      cases hcompiled : (lib.sorting.sort compare request.groupMembers).dedup.mapM
          (compileMember request) with
      | error err => rfl
      | ok compiled =>
        dsimp only
        rw [h.memberMap_eq hprimary hcompiled, h.nodesByName, h.links,
          compileAcceptedInterfaces_eq hready hhost, compileAcceptedInterfaces_nil]
        show normalizeInput lib _ = _
        rw [normalizeInput_eq_map]
        · simp only [sortedInterfaces, SortFunc.sort_sort]
        · apply checkEach_sortedInterfaces hready huids
          intro name member hmember hgroup
          have hname : name ∈ (lib.sorting.sort compare request.groupMembers).dedup :=
            (h.mem_memberNames hprimary).mpr
            ⟨mem_iff_isSome_getElem?.mpr (by rw [hmember]; rfl), hgroup⟩
          have hentries : List.Forall₂ (fun entry name => compileMember request name = .ok entry)
              compiled _ := (mapM_eq_ok_iff.mp hcompiled).flip
          obtain ⟨entry, hentry, heq⟩ := exists_left_of_forall₂ hentries hname
          obtain ⟨hfound, hid⟩ := h.compileMember_eq_ok heq
          cases hmember.symm.trans hfound
          show (compiled.map Prod.snd).any (·.id = entry.1.uid) = true
          rw [any_eq_true]
          exact ⟨entry.2, mem_map_of_mem hentry, decide_eq_true hid⟩

end

end Clabernetes.Planning
