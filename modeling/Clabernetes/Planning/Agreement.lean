import Clabernetes.Planning.Group

/-!
# The Link controller and planning agree

The Link controller decides by primaries whether a Link leaves its Pod, and planning by the members
of a group. At the fixed point of the Link controller the two agree: compiling the input of a group
never fails for a Link, and the two ends of a wire mirror each other.
-/

namespace Clabernetes.Planning

open Base DevicePlan Links Std List ExtTreeMap

def acceptedLinks (links : List PlannedLink) : List PlannedLink :=
  links.filter fun link =>
    isStatusConditionTrue link.status.conditions linkConditionAccepted &&
      link.status.resolvedEndpoints.isSome

/-- A namespace where a pass of the Link controller changes nothing. The API server gives every
object a UID of its own, and its schema asks for the interface names. -/
structure Settled (ctx : PassContext) (nodes : PlannedNodes) (links : List PlannedLink) : Prop where
  nodes_eq : ctx.nodes = linkNodes nodes
  reports : Reports ctx.conditions
  grouped : Grouped nodes
  names : (links.map (·.name)).Nodup
  uids : (links.map (·.uid)).Nodup
  uid_ne : ∀ link ∈ links, link.uid ≠ ""
  interfaceName : ∀ link ∈ links, ∀ side, (link.endpoint side).interfaceName ≠ ""
  fixed : FixedPoint ctx (links.map PlannedLink.toLink)

/-- What planning needs besides: no Node has the name of the host, the Link is maintained, an end on
the host is bound without a UID, and the MTU is not negative. -/
structure Plannable (nodes : PlannedNodes) (links : List PlannedLink) : Prop where
  host : linkHostNodeName ∉ nodes
  maintained : ∀ link ∈ acceptedLinks links, skipped link.toLink = false
  hostUID : ∀ link ∈ acceptedLinks links, ∀ resolved,
    link.status.resolvedEndpoints = some resolved → ∀ side,
      link.nodeName side = linkHostNodeName → (resolvedEndpoint resolved side).uid = ""
  mtu : ∀ link ∈ acceptedLinks links, 0 ≤ link.mtu

variable (nodes : PlannedNodes)

def CrossPod (link : PlannedLink) : Prop :=
  (∀ side, link.nodeName side ≠ linkHostNodeName) ∧
    primaryOf nodes (link.nodeName .a) ≠ primaryOf nodes (link.nodeName .b)

def SamePod (link : PlannedLink) : Prop :=
  (∀ side, link.nodeName side ≠ linkHostNodeName) ∧
    primaryOf nodes (link.nodeName .a) = primaryOf nodes (link.nodeName .b)

def interfacesOf (link : PlannedLink) (input : Input) : List InterfaceInput :=
  input.interfaces.filter (·.linkID = link.uid)

structure EndOf (nodes : PlannedNodes) (link : PlannedLink) (side : Side) (intf : InterfaceInput) :
    Prop where
  nodeID : nodes[link.nodeName side]?.map (·.uid) = some intf.nodeID
  name : intf.name = (link.endpoint side).interfaceName
  linkID : intf.linkID = link.uid
  wireID : intf.wireID = link.status.wireID
  mtu : intf.mtu = link.mtu

/-- Two ends of a wire that mirror each other. -/
structure Mirrors (a b : InterfaceInput) : Prop where
  linkID : a.linkID = b.linkID
  wireID : a.wireID = b.wireID
  mtu : a.mtu = b.mtu
  interfaceNames : a.peerInterface = b.name ∧ b.peerInterface = a.name
  nodeIDs : a.peerNodeID = b.nodeID ∧ b.peerNodeID = a.nodeID

section

variable {ctx : PassContext} {nodes : PlannedNodes} {links : List PlannedLink}

theorem Settled.allReady (h : Settled ctx nodes links) (hplannable : Plannable nodes links) :
    AllReady nodes (acceptedLinks links) := by
  intro link hlink
  have hmem : link ∈ links := List.mem_of_mem_filter hlink
  have haccepted := (List.mem_filter.mp hlink).2
  rw [Bool.and_eq_true] at haccepted
  obtain ⟨haccepted, hsome⟩ := haccepted
  obtain ⟨resolved, hresolved⟩ := Option.isSome_iff_exists.mp hsome
  have hnames : ((links.map PlannedLink.toLink).map Links.Link.name).Nodup := by
    rw [List.map_map]
    exact h.names
  have hrest := atRest h.reports hnames h.fixed (mem_map_of_mem hmem)
    (hplannable.maintained link hlink) haccepted
  obtain ⟨hboundA, hboundB⟩ := hrest.bound hresolved
  have hwire := hrest.wireID
  rw [h.nodes_eq] at hboundA hboundB hwire
  refine ⟨resolved, h.uid_ne link hmem, haccepted, hresolved, ?_,
    hplannable.hostUID link hlink resolved hresolved, h.interfaceName link hmem,
    hplannable.mtu link hlink, hwire⟩
  intro side
  cases side with
  | a => exact hboundA
  | b => exact hboundB

theorem Settled.acceptedUIDs (h : Settled ctx nodes links) :
    ((acceptedLinks links).map (·.uid)).Nodup :=
  h.uids.sublist (filter_sublist.map _)

end

section

variable {nodes : PlannedNodes} {link : PlannedLink} {resolved : LinkResolvedEndpointsStatus}
  {side : Side}

theorem Ready.exists_member (h : Ready nodes link resolved)
    (hside : link.nodeName side ≠ linkHostNodeName) :
    ∃ member, nodes[link.nodeName side]? = some member ∧
      (resolvedEndpoint resolved side).uid = member.uid := by
  obtain ⟨-, node, hnode, heq⟩ := (h.bound side).lookup hside
  exact ⟨node, hnode, heq.symm⟩

theorem endOf_interfaceInput {member : PlannedNode}
    (hmember : nodes[link.nodeName side]? = some member) (connectivity : String) :
    EndOf nodes link side (interfaceInput link resolved side member connectivity) :=
  ⟨by rw [hmember]; rfl, rfl, rfl, rfl, rfl⟩

theorem Ready.mirrors (h : Ready nodes link resolved)
    (hhost : ∀ side, link.nodeName side ≠ linkHostNodeName) {memberA memberB : PlannedNode}
    (hA : nodes[link.nodeName .a]? = some memberA) (hB : nodes[link.nodeName .b]? = some memberB)
    (connectivityA connectivityB : String) :
    Mirrors (interfaceInput link resolved .a memberA connectivityA)
      (interfaceInput link resolved .b memberB connectivityB) := by
  have hpeer : ∀ side member, nodes[link.nodeName side]? = some member →
      (if (link.endpoint side).nodeName ≠ linkHostNodeName then
        (resolvedEndpoint resolved side).uid else "") = member.uid := by
    intro side member hmember
    obtain ⟨bound, hbound, huid⟩ := h.exists_member (hhost side)
    cases hmember.symm.trans hbound
    exact (if_pos (hhost side)).trans huid
  exact ⟨rfl, rfl, rfl, ⟨rfl, rfl⟩, hpeer .b memberB hB, hpeer .a memberA hA⟩

theorem sideInterfaces_of_lookup {primary : String} {member : PlannedNode}
    (hmember : nodes[link.nodeName side]? = some member) :
    sideInterfaces nodes primary link resolved side =
      if primaryOf nodes (link.nodeName side) = primary then
        [interfaceInput link resolved side member (sideConnectivity nodes primary link side)]
      else [] := by
  rw [sideInterfaces, lookup_groupMap]
  split
  · rw [hmember]
    rfl
  · rfl

end

section

variable {ctx : PassContext} {nodes : PlannedNodes} {links : List PlannedLink} {lib : Library}
  {primary : String} {request : PlanInputCompileRequest} {input : Input} {link : PlannedLink}

section

variable (h : Settled ctx nodes links) (hplannable : Plannable nodes links)

include h hplannable

section

variable (hprimary : IsPrimary nodes primary)
  (hrequest : GroupRequest nodes (acceptedLinks links) primary request)

include hprimary hrequest

theorem Settled.compilePlanInput_eq : compilePlanInput lib request =
      (compilePlanInput lib { request with links := [] }).map fun input =>
        { input with interfaces := sortedInterfaces lib nodes primary (acceptedLinks links) } :=
  hrequest.compilePlanInput_eq hprimary (h.allReady hplannable) hplannable.host h.acceptedUIDs

variable (hinput : compilePlanInput lib request = .ok input)

include hinput

theorem Settled.interfaces_eq :
    input.interfaces = sortedInterfaces lib nodes primary (acceptedLinks links) := by
  rw [h.compilePlanInput_eq hplannable hprimary hrequest] at hinput
  cases hbare : compilePlanInput lib { request with links := [] } with
  | error err =>
    rw [hbare] at hinput
    cases hinput
  | ok bare =>
    rw [hbare] at hinput
    cases hinput
    rfl

theorem Settled.interfacesOf_perm (hlink : link ∈ acceptedLinks links) :
    (interfacesOf link input).Perm (linkInterfaces nodes primary link) := by
  rw [interfacesOf, h.interfaces_eq hplannable hprimary hrequest hinput,
    ← filter_groupInterfaces h.acceptedUIDs hlink]
  exact perm_sortedInterfaces.filter _

theorem Settled.wire_iff {intf : InterfaceInput} (hintf : intf ∈ input.interfaces) :
    ∃ link ∈ acceptedLinks links, intf.linkID = link.uid ∧
      (intf.connectivity = connectivityWire ↔ link.status.wireID ≠ 0) := by
  rw [h.interfaces_eq hplannable hprimary hrequest hinput, perm_sortedInterfaces.mem_iff] at hintf
  obtain ⟨link, hlink, hmem⟩ := mem_flatMap.mp hintf
  obtain ⟨resolved, hready⟩ := h.allReady hplannable link hlink
  refine ⟨link, hlink, linkID_of_mem_linkInterfaces hmem, ?_⟩
  obtain ⟨side, member, hmember, hgroup, rfl⟩ := hready.mem_linkInterfaces.mp hmem
  have hside : link.nodeName side ∈ groupMap nodes primary :=
    mem_groupMap.mpr ⟨mem_iff_isSome_getElem?.mpr (by rw [hmember]; rfl), hgroup⟩
  rw [hready.wireID_ne_zero]
  exact hready.sideConnectivity_eq_wire hplannable.host hside

end

theorem Settled.crossPod (hlink : link ∈ acceptedLinks links) (hcross : CrossPod nodes link) :
    ∃ a b, EndOf nodes link .a a ∧ EndOf nodes link .b b ∧ Mirrors a b ∧
      a.peerTransport = fabricServiceName (link.nodeName .b) ∧
      b.peerTransport = fabricServiceName (link.nodeName .a) ∧
      ∀ primary request input, IsPrimary nodes primary →
        GroupRequest nodes (acceptedLinks links) primary request →
        compilePlanInput lib request = .ok input →
        interfacesOf link input =
          if primary = primaryOf nodes (link.nodeName .a) then [a]
          else if primary = primaryOf nodes (link.nodeName .b) then [b] else [] := by
  obtain ⟨resolved, hready⟩ := h.allReady hplannable link hlink
  obtain ⟨hnodes, hgroups⟩ := hcross
  obtain ⟨memberA, hA, -⟩ := hready.exists_member (hnodes .a)
  obtain ⟨memberB, hB, -⟩ := hready.exists_member (hnodes .b)
  have hcross : isLocalLink (linkNodes nodes) link.toLink = false := by
    rw [← Bool.not_eq_true, isLocalLink_eq_true_iff]
    simp [hnodes, hgroups]
  have hwire : ∀ side member, nodes[link.nodeName side]? = some member →
      sideConnectivity nodes (primaryOf nodes (link.nodeName side)) link side =
        connectivityWire := by
    intro side member hmember
    have hside : link.nodeName side ∈ groupMap nodes (primaryOf nodes (link.nodeName side)) :=
      mem_groupMap.mpr ⟨mem_iff_isSome_getElem?.mpr (by rw [hmember]; rfl), rfl⟩
    exact (hready.sideConnectivity_eq_wire hplannable.host hside).mpr hcross
  refine ⟨interfaceInput link resolved .a memberA connectivityWire,
    interfaceInput link resolved .b memberB connectivityWire, endOf_interfaceInput hA _,
    endOf_interfaceInput hB _, hready.mirrors hnodes hA hB _ _, rfl, rfl, ?_⟩
  intro primary request input hprimary hrequest hinput
  have hperm := h.interfacesOf_perm hplannable hprimary hrequest hinput hlink
  rw [hready.linkInterfaces_eq, sideInterfaces_of_lookup hA, sideInterfaces_of_lookup hB] at hperm
  by_cases hprimaryA : primary = primaryOf nodes (link.nodeName .a)
  · subst hprimaryA
    rw [if_pos rfl, if_neg (Ne.symm hgroups), hwire .a memberA hA, append_nil] at hperm
    rw [if_pos rfl]
    exact perm_singleton.mp hperm
  · by_cases hprimaryB : primary = primaryOf nodes (link.nodeName .b)
    · subst hprimaryB
      rw [if_neg hgroups, if_pos rfl, hwire .b memberB hB, nil_append] at hperm
      rw [if_neg (Ne.symm hgroups), if_pos rfl]
      exact perm_singleton.mp hperm
    · rw [if_neg (Ne.symm hprimaryA), if_neg (Ne.symm hprimaryB)] at hperm
      rw [if_neg hprimaryA, if_neg hprimaryB]
      exact hperm.eq_nil

theorem Settled.samePod (hlink : link ∈ acceptedLinks links) (hsame : SamePod nodes link) :
    link.status.wireID = 0 ∧ ∃ a b, EndOf nodes link .a a ∧ EndOf nodes link .b b ∧
      ∀ primary request input, IsPrimary nodes primary →
        GroupRequest nodes (acceptedLinks links) primary request →
        compilePlanInput lib request = .ok input →
        (interfacesOf link input).Perm
          (if primary = primaryOf nodes (link.nodeName .a) then [a, b] else []) := by
  obtain ⟨resolved, hready⟩ := h.allReady hplannable link hlink
  obtain ⟨hnodes, hgroup⟩ := hsame
  obtain ⟨memberA, hA, -⟩ := hready.exists_member (hnodes .a)
  obtain ⟨memberB, hB, -⟩ := hready.exists_member (hnodes .b)
  have hlocal : isLocalLink (linkNodes nodes) link.toLink = true :=
    isLocalLink_eq_true_iff.mpr (.inr (.inr hgroup))
  constructor
  · by_contra hne
    rw [hready.wireID_ne_zero.mp hne] at hlocal
    cases hlocal
  · let group := primaryOf nodes (link.nodeName .a)
    refine ⟨interfaceInput link resolved .a memberA (sideConnectivity nodes group link .a),
      interfaceInput link resolved .b memberB (sideConnectivity nodes group link .b),
      endOf_interfaceInput hA _, endOf_interfaceInput hB _, ?_⟩
    intro primary request input hprimary hrequest hinput
    have hperm := h.interfacesOf_perm hplannable hprimary hrequest hinput hlink
    rw [hready.linkInterfaces_eq, sideInterfaces_of_lookup hA, sideInterfaces_of_lookup hB,
      ← hgroup] at hperm
    by_cases hprimaryA : primary = primaryOf nodes (link.nodeName .a)
    · subst hprimaryA
      rw [if_pos rfl, if_pos rfl] at hperm
      rw [if_pos rfl]
      exact hperm
    · rw [if_neg (Ne.symm hprimaryA), if_neg (Ne.symm hprimaryA)] at hperm
      rw [if_neg hprimaryA]
      exact hperm

end

/-- At the fixed point of the Link controller, planning agrees with it on every accepted Link. -/
theorem planning_agrees (lib : Library) (h : Settled ctx nodes links)
    (hplannable : Plannable nodes links) :
    (∀ primary request, IsPrimary nodes primary →
      GroupRequest nodes (acceptedLinks links) primary request →
      (∀ err, compilePlanInput lib request = .error err →
        compilePlanInput lib { request with links := [] } = .error err) ∧
      ∀ input, compilePlanInput lib request = .ok input → ∀ intf ∈ input.interfaces,
        ∃ link ∈ acceptedLinks links, intf.linkID = link.uid ∧
          (intf.connectivity = connectivityWire ↔ link.status.wireID ≠ 0)) ∧
    (∀ link ∈ acceptedLinks links, CrossPod nodes link →
      ∃ a b, EndOf nodes link .a a ∧ EndOf nodes link .b b ∧ Mirrors a b ∧
        a.peerTransport = fabricServiceName (link.nodeName .b) ∧
        b.peerTransport = fabricServiceName (link.nodeName .a) ∧
        ∀ primary request input, IsPrimary nodes primary →
          GroupRequest nodes (acceptedLinks links) primary request →
          compilePlanInput lib request = .ok input →
          interfacesOf link input =
            if primary = primaryOf nodes (link.nodeName .a) then [a]
            else if primary = primaryOf nodes (link.nodeName .b) then [b]
            else []) ∧
    ∀ link ∈ acceptedLinks links, SamePod nodes link →
      link.status.wireID = 0 ∧ ∃ a b, EndOf nodes link .a a ∧ EndOf nodes link .b b ∧
        ∀ primary request input, IsPrimary nodes primary →
          GroupRequest nodes (acceptedLinks links) primary request →
          compilePlanInput lib request = .ok input →
          (interfacesOf link input).Perm
            (if primary = primaryOf nodes (link.nodeName .a) then [a, b] else []) := by
  refine ⟨?_, ?_, ?_⟩
  · intro primary request hprimary hrequest
    constructor
    · intro err herr
      rw [h.compilePlanInput_eq hplannable hprimary hrequest] at herr
      cases hbare : compilePlanInput lib { request with links := [] } with
      | error err' =>
        rw [hbare] at herr
        cases herr
        rfl
      | ok bare =>
        rw [hbare] at herr
        cases herr
    · intro input hinput intf hintf
      exact h.wire_iff hplannable hprimary hrequest hinput hintf
  · exact fun link => h.crossPod hplannable
  · exact fun link => h.samePod hplannable

end

theorem grouped_of_flat {nodes : PlannedNodes}
    (h : ∀ name ∈ nodes.keys, ∀ primary ∈ sharesWith (linkNodes nodes) name,
      primary ∈ nodes ∧ sharesWith (linkNodes nodes) primary = none) : Grouped nodes := by
  have hflat : ∀ name primary, sharesWith (linkNodes nodes) name = some primary →
      primary ∈ nodes ∧ sharesWith (linkNodes nodes) primary = none := by
    intro name primary hshares
    obtain ⟨node, hnode, -, -⟩ := sharesWith_eq_some.mp hshares
    have hmem : name ∈ nodes :=
      mem_linkNodes.mp (mem_iff_isSome_getElem?.mpr (by rw [hnode]; rfl))
    exact h name (ExtTreeMap.mem_keys.mpr hmem) primary hshares
  exact ⟨acyclic_of_flat fun name primary hshares => (hflat name primary hshares).2,
    fun name primary hshares => (hflat name primary hshares).1⟩

def labPass : PassContext where
  conditions := documentedConditions
  now := 5
  ns := "lab"
  nodes := linkNodes nodes

theorem settled_labPass {nodes : PlannedNodes} {links : List PlannedLink}
    (hflat : ∀ name ∈ nodes.keys, ∀ primary ∈ sharesWith (linkNodes nodes) name,
      primary ∈ nodes ∧ sharesWith (linkNodes nodes) primary = none)
    (hnames : (links.map (·.name)).Nodup) (huids : (links.map (·.uid)).Nodup)
    (hcomplete : ∀ link ∈ links, link.uid ≠ "" ∧ link.spec.endpointA.interfaceName ≠ "" ∧
      link.spec.endpointB.interfaceName ≠ "")
    (hfixed : ∃ visits, (labPass nodes).reconcile (links.map PlannedLink.toLink) = .ok visits ∧
      ∀ visit ∈ visits, visit.2 = .leave) : Settled (labPass nodes) nodes links := by
  refine ⟨rfl, reports_documentedConditions, grouped_of_flat hflat, hnames, huids,
    fun link hlink => (hcomplete link hlink).1, ?_, hfixed⟩
  intro link hlink side
  cases side with
  | a => exact (hcomplete link hlink).2.1
  | b => exact (hcomplete link hlink).2.2

def labNode (uid networkMode : String) : PlannedNode where
  uid := uid
  networkMode := networkMode
  namespaceName := "lab"
  kind := "linux"
  definition := some "1"

def labNodes : PlannedNodes :=
  (((∅ : PlannedNodes).insert "r1" (labNode "u1" "")).insert "r2" (labNode "u2" "")).insert "r3"
    (labNode "u3" "container:r1")

def PlannedLink.settledIn (link : PlannedLink) (nodes : PlannedNodes) (wireID : Int) :
    PlannedLink :=
  { link with status := (labPass nodes).acceptedStatus link.toLink wireID }

def labWire : PlannedLink where
  name := "l1"
  uid := "x1"
  mtu := 1500
  spec := ⟨⟨"r1", "eth1"⟩, ⟨"r2", "eth1"⟩⟩

def labPair : PlannedLink where
  name := "l2"
  uid := "x2"
  spec := ⟨⟨"r1", "eth2"⟩, ⟨"r3", "eth1"⟩⟩

def labLinks : List PlannedLink := [labWire.settledIn labNodes 1, labPair.settledIn labNodes 0]

def labRequest (links : List PlannedLink) (primary : String) : PlanInputCompileRequest where
  primaryName := primary
  primary := nodes[primary]?.getD (labNode "" "")
  groupMembers := resolveGroupMembers (linkNodes nodes) primary
  nodesByName := nodes
  links := acceptedLinks links
  compatibility := sampleCompatibility

theorem groupRequest_labRequest {nodes : PlannedNodes} (links : List PlannedLink) {primary : String}
    (h : primary ∈ nodes) :
    GroupRequest nodes (acceptedLinks links) primary (labRequest nodes links primary) := by
  refine ⟨rfl, ?_, rfl, rfl, rfl⟩
  obtain ⟨node, hnode⟩ := Option.isSome_iff_exists.mp (mem_iff_isSome_getElem?.mp h)
  show nodes[primary]? = some (nodes[primary]?.getD _)
  rw [hnode]
  rfl

theorem settled_lab : Settled (labPass labNodes) labNodes labLinks :=
  settled_labPass (by decide +kernel) (by decide +kernel) (by decide +kernel) (by decide +kernel)
    (by decide +kernel)

theorem plannable_lab : Plannable labNodes labLinks := by
  have hends : ∀ link ∈ acceptedLinks labLinks, link.spec.endpointA.nodeName ≠ linkHostNodeName ∧
      link.spec.endpointB.nodeName ≠ linkHostNodeName := by decide +kernel
  refine ⟨by decide +kernel, by decide +kernel, ?_, by decide +kernel⟩
  intro link hlink resolved _ side hhost
  cases side with
  | a => exact absurd hhost (hends link hlink).1
  | b => exact absurd hhost (hends link hlink).2

theorem lab_agrees :
    ∃ inputA inputB a b, compilePlanInput valueLibrary (labRequest labNodes labLinks "r1") =
        .ok inputA ∧
      compilePlanInput valueLibrary (labRequest labNodes labLinks "r2") = .ok inputB ∧
      interfacesOf labWire inputA = [a] ∧ interfacesOf labWire inputB = [b] ∧ Mirrors a b ∧
      a.wireID = 1 ∧ b.peerTransport = "r1-wire" ∧ (interfacesOf labPair inputA).length = 2 := by
  obtain ⟨inputA, hA⟩ : ∃ input,
      compilePlanInput valueLibrary (labRequest labNodes labLinks "r1") = .ok input := by
    decide +kernel
  obtain ⟨inputB, hB⟩ : ∃ input,
      compilePlanInput valueLibrary (labRequest labNodes labLinks "r2") = .ok input := by
    decide +kernel
  have hr1 : IsPrimary labNodes "r1" := ⟨by decide +kernel, by decide +kernel⟩
  have hr2 : IsPrimary labNodes "r2" := ⟨by decide +kernel, by decide +kernel⟩
  have hrequestA := groupRequest_labRequest labLinks hr1.mem
  have hrequestB := groupRequest_labRequest labLinks hr2.mem
  obtain ⟨-, hcross, hsame⟩ := planning_agrees valueLibrary settled_lab plannable_lab
  have hwire : CrossPod labNodes (labWire.settledIn labNodes 1) :=
    ⟨by rintro (_ | _) <;> decide, by decide +kernel⟩
  have hpair : SamePod labNodes (labPair.settledIn labNodes 0) :=
    ⟨by rintro (_ | _) <;> decide, by decide +kernel⟩
  obtain ⟨a, b, hendA, hendB, hmirrors, -, htransport, hcompiled⟩ :=
    hcross _ (by decide +kernel) hwire
  obtain ⟨-, _, _, -, -, hboth⟩ := hsame _ (by decide +kernel) hpair
  refine ⟨inputA, inputB, a, b, hA, hB, ?_, ?_, hmirrors, hendA.wireID, htransport, ?_⟩
  · refine (hcompiled "r1" _ inputA hr1 hrequestA hA).trans (if_pos ?_)
    decide +kernel
  · refine (hcompiled "r2" _ inputB hr2 hrequestB hB).trans ?_
    rw [if_neg (by decide +kernel), if_pos (by decide +kernel)]
  · have hlength := (hboth "r1" _ inputA hr1 hrequestA hA).length_eq
    rw [if_pos (by decide +kernel)] at hlength
    exact hlength

/-- Compiling the input of a group fails, and only for a Link. -/
def FailsForLink (links : List PlannedLink) (primary : String) : Prop :=
  Settled (labPass nodes) nodes links ∧ IsPrimary nodes primary ∧
    GroupRequest nodes (acceptedLinks links) primary (labRequest nodes links primary) ∧
    (∃ err, compilePlanInput valueLibrary (labRequest nodes links primary) = .error err) ∧
    ∃ input, compilePlanInput valueLibrary { labRequest nodes links primary with links := [] } =
      .ok input

theorem failsForLink_of_run {nodes : PlannedNodes} {links : List PlannedLink} {primary : String}
    (hsettled : Settled (labPass nodes) nodes links) (hprimary : IsPrimary nodes primary)
    (herror : (compilePlanInput valueLibrary (labRequest nodes links primary)).isOk = false)
    (hok : (compilePlanInput valueLibrary
      { labRequest nodes links primary with links := [] }).isOk = true) :
    FailsForLink nodes links primary := by
  refine ⟨hsettled, hprimary, groupRequest_labRequest _ hprimary.mem, ?_, ?_⟩
  · cases h : compilePlanInput valueLibrary (labRequest nodes links primary) with
    | error err => exact ⟨err, rfl⟩
    | ok input => simp [h, Except.isOk, Except.toBool] at herror
  · cases h : compilePlanInput valueLibrary { labRequest nodes links primary with links := [] } with
    | error err => simp [h, Except.isOk, Except.toBool] at hok
    | ok input => exact ⟨input, rfl⟩

def staleIgnored : PlannedLink :=
  { labWire.settledIn labNodes 1 with
    ignored := true
    status := { (labWire.settledIn labNodes 1).status with
      resolvedEndpoints := some ⟨⟨"r1", "u0"⟩, ⟨"r2", "u2"⟩⟩ } }

def negativeMTU : PlannedLink := { labWire with mtu := -1 }.settledIn labNodes 1

def hostLink : PlannedLink where
  name := "l1"
  uid := "x1"
  spec := ⟨⟨"r1", "eth1"⟩, ⟨"host", "veth1"⟩⟩

def hostNodes : PlannedNodes := labNodes.insert "host" (labNode "u4" "")

def boundHost : PlannedLink :=
  { hostLink with status := { resolvedEndpoints := some ⟨⟨"r1", "u1"⟩, ⟨"host", "u4"⟩⟩ } }.settledIn
    labNodes 0

/-- An accepted Link may still fail planning: if it is no longer maintained, has a negative MTU or
an end on the host with a UID, or a Node has the name of the host. -/
theorem accepted_link_fails : FailsForLink labNodes [staleIgnored] "r1" ∧
    FailsForLink labNodes [negativeMTU] "r1" ∧
    FailsForLink hostNodes [hostLink.settledIn hostNodes 0] "host" ∧
    FailsForLink labNodes [boundHost] "r1" := by
  refine ⟨failsForLink_of_run ?_ ?_ ?_ ?_, failsForLink_of_run ?_ ?_ ?_ ?_,
    failsForLink_of_run ?_ ?_ ?_ ?_, failsForLink_of_run ?_ ?_ ?_ ?_⟩
  case refine_1 | refine_5 | refine_9 | refine_13 =>
    exact settled_labPass (by decide +kernel) (by decide +kernel) (by decide +kernel)
      (by decide +kernel) (by decide +kernel)
  case refine_2 | refine_6 | refine_10 | refine_14 => exact ⟨by decide +kernel, by decide +kernel⟩
  all_goals decide +kernel

end Clabernetes.Planning
