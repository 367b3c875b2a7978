import Clabernetes.Links.Allocation
import Clabernetes.Links.Grouping
import Clabernetes.Planning.PlanInput

/-!
# Accepted Links at the fixed point

Where a pass of the Link controller leaves every Link as it is, an accepted Link that the controller
maintains has the status that the pass would write: its endpoints are bound to the Nodes there are,
and it holds a wire id exactly if it is not local to a Pod.
-/

namespace Clabernetes.Planning

open Base DevicePlan Links Relation Std ExtTreeMap

theorem lookup_linkNodes (nodes : PlannedNodes) (name : String) :
    (linkNodes nodes)[name]? = nodes[name]?.map PlannedNode.toNode := by
  rw [linkNodes, getElem?_map]

variable {nodes : PlannedNodes} {link : Links.Link} {name primary : String} {ctx : PassContext}
  {endpoint : LinkResolvedEndpointStatus} {conflictingLink : String}

theorem mem_linkNodes : name ∈ linkNodes nodes ↔ name ∈ nodes := by
  rw [← isSome_getElem?_iff_mem, lookup_linkNodes, Option.isSome_map, isSome_getElem?_iff_mem]

/-- The network modes of the Nodes name Nodes that are there, and no chain of them comes back. -/
structure Grouped (nodes : PlannedNodes) : Prop where
  acyclic : Acyclic (sharesWith (linkNodes nodes))
  targets : ∀ name primary, sharesWith (linkNodes nodes) name = some primary → primary ∈ nodes

def primaryOf (nodes : PlannedNodes) (name : String) : String :=
  resolvePrimaryNode (linkNodes nodes) name

structure IsPrimary (nodes : PlannedNodes) (primary : String) : Prop where
  mem : primary ∈ nodes
  leads : primaryOf nodes primary = primary

theorem mem_resolveGroupMembers (h : IsPrimary nodes primary) :
    name ∈ resolveGroupMembers (linkNodes nodes) primary ↔
      name ∈ nodes ∧ primaryOf nodes name = primary := by
  rw [resolveGroupMembers, List.mem_cons, List.mem_insertionSort, List.mem_filter,
    mem_keys, mem_linkNodes]
  simp only [Bool.and_eq_true, bne_iff_ne, ne_eq, beq_iff_eq]
  constructor
  · rintro (rfl | ⟨hmem, -, hprimary⟩)
    · exact ⟨h.mem, h.leads⟩
    · exact ⟨hmem, hprimary⟩
  · rintro ⟨hmem, hprimary⟩
    by_cases heq : name = primary
    · exact .inl heq
    · exact .inr ⟨hmem, heq, hprimary⟩

def groupMap (nodes : PlannedNodes) (primary : String) : PlannedNodes :=
  nodes.filter fun name _ => primaryOf nodes name == primary

theorem lookup_groupMap : (groupMap nodes primary)[name]? =
      if primaryOf nodes name = primary then nodes[name]? else none := by
  rw [groupMap, getElem?_filter']
  by_cases h : primaryOf nodes name = primary <;> cases nodes[name]? <;> simp [h]

theorem mem_groupMap :
    name ∈ groupMap nodes primary ↔ name ∈ nodes ∧ primaryOf nodes name = primary := by
  rw [groupMap, GoMap.mem_filter_keys, beq_iff_eq]

def FixedPoint (ctx : PassContext) (links : List Links.Link) : Prop :=
  ∃ visits, ctx.reconcile links = .ok visits ∧ ∀ visit ∈ visits, visit.2 = .leave

/-- `meta.SetStatusCondition` of apimachinery sets what `meta.IsStatusConditionTrue` reads. -/
def Reports (conditions : StatusConditions) : Prop :=
  ∀ now old condition, isStatusConditionTrue (conditions.set now old condition) condition.type =
    decide (condition.status = .conditionTrue)

theorem reports_documentedConditions : Reports documentedConditions := by
  intro now old condition
  show isStatusConditionTrue (setStatusCondition now condition old) condition.type = _
  induction old with
  | nil => simp [setStatusCondition, isStatusConditionTrue, Condition.transitioned]
  | cons existing rest ih =>
    rw [setStatusCondition]
    split
    · simp [isStatusConditionTrue, Condition.transitioned]
    · next hne =>
      rw [isStatusConditionTrue, List.find?_cons_of_neg (by simpa using hne)]
      exact ih

structure AtRest (ctx : PassContext) (link : Links.Link) : Prop where
  valid : validateLink link = .ok ()
  endpoints : validateLinkEndpoints ctx.nodes link = .ok ()
  lifecycle : (resolveLinkEndpoints link ctx.nodes).2 = ""
  resolved : link.status.resolvedEndpoints = (resolveLinkEndpoints link ctx.nodes).1
  wireID : if isLocalLink ctx.nodes link then link.status.wireID = 0 else 1 ≤ link.status.wireID

theorem rejection_eq_none {nodes : Nodes} (h : rejection nodes conflictingLink link = none) :
    validateLink link = .ok () ∧ validateLinkEndpoints nodes link = .ok () := by
  rw [rejection] at h
  split at h
  · cases h
  · next hvalid =>
    split at h
    · cases h
    · next hendpoints => exact ⟨hvalid, hendpoints⟩

theorem status_eq_of_leave {status : LinkStatus} (h : updateLinkStatus link status = .leave) :
    link.status = status := by
  unfold updateLinkStatus at h
  split at h
  · next heq => exact heq
  · cases h

theorem accepting_of_leave (hreports : Reports ctx.conditions) {r r' : WireReservations}
    {action : LinkAction} (h : ctx.Visit conflictingLink r link action r')
    (hleave : action = .leave) (hmaintained : skipped link = false)
    (haccepted : isStatusConditionTrue link.status.conditions linkConditionAccepted = true) :
    ctx.processed link = true ∧ rejection ctx.nodes conflictingLink link = none ∧
      link.status.resolvedEndpoints = (resolveLinkEndpoints link ctx.nodes).1 := by
  cases h with
  | skipped hskipped => simp [hskipped] at hmaintained
  | deleted => cases hleave
  | rejected hprocessed why hwhy =>
    have hfalse := hreports ctx.now link.status.conditions
      { type := linkConditionAccepted, status := .conditionFalse,
        observedGeneration := link.generation, reason := why.1, message := why.2 }
    have hconditions := congrArg LinkStatus.conditions (status_eq_of_leave hleave)
    rw [hconditions] at haccepted
    exact absurd (haccepted.symm.trans hfalse) (by simp)
  | accepted hprocessed hnone id _ hdesired =>
    exact ⟨hprocessed, hnone, congrArg LinkStatus.resolvedEndpoints (status_eq_of_leave hleave)⟩

theorem atRest {links : List Links.Link} (hreports : Reports ctx.conditions)
    (hnames : (links.map Links.Link.name).Nodup) (hfixed : FixedPoint ctx links)
    (hlink : link ∈ links) (hmaintained : skipped link = false)
    (haccepted : isStatusConditionTrue link.status.conditions linkConditionAccepted = true) :
    AtRest ctx link := by
  obtain ⟨visits, hpass, hleave⟩ := hfixed
  have hcompleted := completedPass hnames hpass
  have hmem : link ∈ visits.map Prod.fst := by
    rw [hcompleted.visitsAll]
    exact (List.perm_insertionSort _ links).mem_iff.mpr hlink
  obtain ⟨visit, hvisit, rfl⟩ := List.mem_map.mp hmem
  have hsame : visitedLink visit = visit.1 := by rw [visitedLink, hleave visit hvisit]; rfl
  obtain ⟨r, r', hcases⟩ := hcompleted.decisions.visited visit hvisit
  obtain ⟨hprocessed, hnone, hresolved⟩ :=
    accepting_of_leave hreports hcases (hleave visit hvisit) hmaintained haccepted
  obtain ⟨hvalid, hendpoints⟩ := rejection_eq_none hnone
  refine ⟨hvalid, hendpoints, ((ctx.processed_iff _).mp hprocessed).2, hresolved, ?_⟩
  have haccepts : ctx.acceptsCrossPod (CompletedPass.conflictOf ctx links visit.1) visit.1 =
      !isLocalLink ctx.nodes visit.1 := by
    rw [PassContext.acceptsCrossPod, CompletedPass.conflictOf, hprocessed, hnone]
    rfl
  split
  · next hlocal =>
    rw [← hsame]
    exact hcompleted.wireID_eq_zero hvisit hprocessed (by rw [haccepts, hlocal]; rfl)
  · next hlocal =>
    rw [Bool.not_eq_true] at hlocal
    rw [← hsame]
    exact (hcompleted.wireID_range hvisit (by rw [haccepts, hlocal]; rfl)).1

structure Bound (nodes : Nodes) (nodeName : String) (endpoint : LinkResolvedEndpointStatus) :
    Prop where
  nodeName_eq : endpoint.nodeName = nodeName
  node : nodeName ≠ linkHostNodeName →
    endpoint.uid ≠ "" ∧ ∃ node, nodes[nodeName]? = some node ∧ node.uid = endpoint.uid

theorem bound_of_lifecycle {nodes : Nodes} {side : String}
    (hcomplete : resolvedEndpointIsComplete endpoint = true)
    (hreason : resolvedEndpointLifecycleReason side endpoint nodes = "") :
    Bound nodes endpoint.nodeName endpoint := by
  refine ⟨rfl, fun hhost => ?_⟩
  rw [resolvedEndpointLifecycleReason, if_neg hhost] at hreason
  constructor
  · simpa [resolvedEndpointIsComplete, hhost] using hcomplete
  · cases hnode : nodes[endpoint.nodeName]? with
    | none => simp [hnode, String.append_eq_empty_iff] at hreason
    | some node =>
      refine ⟨node, rfl, ?_⟩
      by_contra hne
      simp [hnode, hne, String.append_eq_empty_iff] at hreason

theorem bound_of_resolveEndpoint {nodes : Nodes} {nodeName : String}
    (h : resolveEndpoint nodeName nodes = some endpoint) : Bound nodes nodeName endpoint := by
  obtain ⟨rfl, hcomplete, hreason⟩ := resolveEndpoint_eq_some h
  exact bound_of_lifecycle hcomplete (hreason "")

theorem AtRest.bound (h : AtRest ctx link) {resolved : LinkResolvedEndpointsStatus}
    (hresolved : link.status.resolvedEndpoints = some resolved) :
    Bound ctx.nodes link.spec.endpointA.nodeName resolved.endpointA ∧
      Bound ctx.nodes link.spec.endpointB.nodeName resolved.endpointB := by
  have hlifecycle := h.lifecycle
  have hkept := h.resolved
  simp only [resolveLinkEndpoints, hresolved] at hlifecycle hkept
  by_cases hmatches : endpointBindingMatchesSpec link resolved = true
  · rw [if_pos hmatches] at hlifecycle
    simp only [endpointBindingMatchesSpec, Bool.and_eq_true, beq_iff_eq] at hmatches
    obtain ⟨⟨⟨hnameA, hnameB⟩, hcompleteA⟩, hcompleteB⟩ := hmatches
    rw [← hnameA, ← hnameB]
    split at hlifecycle
    · next hstale => exact absurd hlifecycle hstale
    · next hA =>
      split at hlifecycle
      · next hstale => exact absurd hlifecycle hstale
      · next hB =>
        exact ⟨bound_of_lifecycle hcompleteA (not_not.mp hA),
          bound_of_lifecycle hcompleteB (not_not.mp hB)⟩
  · rw [if_neg hmatches] at hkept
    obtain ⟨hA, hB⟩ := resolveEndpoints_eq_some hkept.symm
    exact ⟨bound_of_resolveEndpoint hA, bound_of_resolveEndpoint hB⟩

end Clabernetes.Planning
