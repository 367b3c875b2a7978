import Clabernetes.Links.Api

/-!
# Endpoint checks and bindings

`util/containerlab/links.go:11-35`, `util/containerlab/grouping.go:26-54` and the endpoint part of
`controllers/link` (`allocate.go:18-90`, `reconcile.go:289-413`): which Links are well formed, which
Pod hosts an endpoint and which Nodes a Link is bound to.
-/

namespace Clabernetes.Links

open Base Std List

abbrev Nodes := GoMap String Node

variable (link : Link)

def validateLink : Except String Unit :=
  let a := link.spec.endpointA
  let b := link.spec.endpointB
  if a.nodeName = linkHostNodeName ∧ b.nodeName = linkHostNodeName then
    .error (errInvalidData ++ ": both endpoints are " ++ quoted linkHostNodeName ++
      " links, one endpoint must be a node")
  else if a.nodeName = b.nodeName ∧ a.interfaceName = b.interfaceName then
    .error (errInvalidData ++ ": link connects interface '" ++ a.nodeName ++ ":" ++
      a.interfaceName ++ "' to itself")
  else .ok ()

def validateLinkEndpoints (nodes : Nodes) (link : Link) : Except String Unit :=
  link.spec.endpoints.forM fun endpoint =>
    if endpoint.nodeName = linkHostNodeName then .ok ()
    else if nodes[endpoint.nodeName]?.isSome then .ok ()
    else .error (errInvalidData ++ ": endpoint Node " ++ quoted endpoint.nodeName ++
      " does not exist")

def linksWithResolvedEndpoints (links : List Link) (nodes : Nodes) : List Link :=
  links.filter fun link => (validateLinkEndpoints nodes link).isOk

def networkModeContainerPrefix : String := "container:"

def parseNetworkModeContainer (networkMode : String) : String :=
  if networkModeContainerPrefix.toList.isPrefixOf networkMode.toList then
    String.ofList (networkMode.toList.drop networkModeContainerPrefix.length)
  else ""

/-- The walk of `grouping.go:34-53`; the first argument bounds its steps. -/
def walkPrimary (nodes : Nodes) : Nat → List String → String → String
  | 0, _, current => current
  | fuel + 1, seen, current =>
    match nodes[current]? with
    | none => current
    | some node =>
      let primary := parseNetworkModeContainer node.networkMode
      if primary = "" then current
      else if primary ∈ seen then current
      else walkPrimary nodes fuel (current :: seen) primary

def resolvePrimaryNode (nodes : Nodes) (nodeName : String) : String :=
  walkPrimary nodes (2 * nodes.size + 3) [] nodeName

def isHostLink : Bool :=
  link.spec.endpointA.nodeName == linkHostNodeName ||
    link.spec.endpointB.nodeName == linkHostNodeName

def isSamePodLink (nodes : Nodes) (link : Link) : Bool :=
  resolvePrimaryNode nodes link.spec.endpointA.nodeName ==
    resolvePrimaryNode nodes link.spec.endpointB.nodeName

def isLocalLink (nodes : Nodes) (link : Link) : Bool := isHostLink link || isSamePodLink nodes link

def resolvedEndpointIsComplete (endpoint : LinkResolvedEndpointStatus) : Bool :=
  endpoint.nodeName == linkHostNodeName || endpoint.uid != ""

def endpointBindingMatchesSpec (resolved : LinkResolvedEndpointsStatus) : Bool :=
  resolved.endpointA.nodeName == link.spec.endpointA.nodeName &&
    resolved.endpointB.nodeName == link.spec.endpointB.nodeName &&
    resolvedEndpointIsComplete resolved.endpointA &&
    resolvedEndpointIsComplete resolved.endpointB

def resolvedEndpointLifecycleReason (side : String) (endpoint : LinkResolvedEndpointStatus)
    (nodes : Nodes) : String :=
  if endpoint.nodeName = linkHostNodeName then ""
  else match nodes[endpoint.nodeName]? with
  | none => side ++ " Node " ++ quoted endpoint.nodeName ++ " with UID " ++ quoted endpoint.uid ++
      " was deleted"
  | some node =>
    if node.uid ≠ endpoint.uid then
      side ++ " Node " ++ quoted endpoint.nodeName ++ " was replaced (bound UID " ++
        quoted endpoint.uid ++ ", current UID " ++ quoted node.uid ++ ")"
    else ""

def resolveEndpoint (nodeName : String) (nodes : Nodes) : Option LinkResolvedEndpointStatus :=
  if nodeName = linkHostNodeName then some { nodeName }
  else match nodes[nodeName]? with
  | none => none
  | some node => if node.uid = "" then none else some { nodeName, uid := node.uid }

def resolveEndpoints (spec : LinkSpec) (nodes : Nodes) : Option LinkResolvedEndpointsStatus :=
  match resolveEndpoint spec.endpointA.nodeName nodes with
  | none => none
  | some endpointA =>
    match resolveEndpoint spec.endpointB.nodeName nodes with
    | none => none
    | some endpointB => some { endpointA, endpointB }

def resolveLinkEndpoints (nodes : Nodes) : Option LinkResolvedEndpointsStatus × String :=
  match link.status.resolvedEndpoints with
  | some observed =>
    if endpointBindingMatchesSpec link observed then
      let reasonA := resolvedEndpointLifecycleReason "endpoint A" observed.endpointA nodes
      let reasonB := resolvedEndpointLifecycleReason "endpoint B" observed.endpointB nodes
      if reasonA ≠ "" then (none, reasonA)
      else if reasonB ≠ "" then (none, reasonB)
      else (some observed, "")
    else (resolveEndpoints link.spec nodes, "")
  | none => (resolveEndpoints link.spec nodes, "")

def unseen (nodes : Nodes) (seen : List String) (current : String) : List String :=
  nodes.keys.filter fun name => name ∉ current :: seen

/-- Bounds the steps that are left. A Node that names itself is visited twice. -/
def walkMeasure (nodes : Nodes) (seen : List String) (current : String) : Nat :=
  if current ∈ nodes then
    2 * (unseen nodes seen current).length + (if current ∈ seen then 1 else 2)
  else 0

variable {nodes : Nodes}

variable {seen : List String} {current : String}

theorem length_unseen_lt {primary : String} (hnode : primary ∈ nodes)
    (hnew : primary ∉ current :: seen) :
    (unseen nodes (current :: seen) primary).length < (unseen nodes seen current).length := by
  have hfilter : unseen nodes (current :: seen) primary =
      (unseen nodes seen current).filter (· != primary) := by
    simp only [unseen, filter_filter]
    refine filter_congr fun name _ => ?_
    by_cases h : name = primary <;> simp [h]
  rw [hfilter, length_filter_lt_length_iff_exists]
  exact ⟨primary, mem_filter.mpr ⟨ExtTreeMap.mem_keys.mpr hnode, by simpa using hnew⟩, by simp⟩

theorem walkMeasure_lt {primary : String} (hcurrent : current ∈ nodes) (hseen : primary ∉ seen) :
    walkMeasure nodes (current :: seen) primary < walkMeasure nodes seen current := by
  unfold walkMeasure
  rw [if_pos hcurrent]
  split
  · next hprimary =>
    by_cases hself : primary = current
    · subst hself
      have hsame : unseen nodes (primary :: seen) primary = unseen nodes seen primary := by
        simp [unseen]
      rw [hsame, if_pos mem_cons_self, if_neg hseen]
      omega
    · have hnew : primary ∉ current :: seen := by simp [hself, hseen]
      have hlt := length_unseen_lt hprimary hnew
      rw [if_neg hnew]
      split <;> omega
  · split <;> omega

theorem walkMeasure_lt_bound (nodes : Nodes) (nodeName : String) :
    walkMeasure nodes [] nodeName < 2 * nodes.size + 3 := by
  have hlength : (unseen nodes [] nodeName).length ≤ nodes.size := by
    rw [← ExtTreeMap.length_keys]
    exact length_filter_le _ _
  unfold walkMeasure
  split
  · rw [if_neg not_mem_nil]
    omega
  · omega

theorem resolveEndpoint_eq_some {nodeName : String} {endpoint : LinkResolvedEndpointStatus}
    (h : resolveEndpoint nodeName nodes = some endpoint) :
    endpoint.nodeName = nodeName ∧ resolvedEndpointIsComplete endpoint = true ∧
      ∀ side, resolvedEndpointLifecycleReason side endpoint nodes = "" := by
  unfold resolveEndpoint at h
  split at h
  · next hhost =>
    cases h
    simp [resolvedEndpointIsComplete, resolvedEndpointLifecycleReason, hhost]
  · next hhost =>
    split at h
    · cases h
    · next node hnode =>
      split at h
      · cases h
      · next huid =>
        cases h
        simp [resolvedEndpointIsComplete, resolvedEndpointLifecycleReason, hhost, hnode, huid]

theorem resolveEndpoints_eq_some {spec : LinkSpec} {resolved : LinkResolvedEndpointsStatus}
    (h : resolveEndpoints spec nodes = some resolved) :
    resolveEndpoint spec.endpointA.nodeName nodes = some resolved.endpointA ∧
      resolveEndpoint spec.endpointB.nodeName nodes = some resolved.endpointB := by
  unfold resolveEndpoints at h
  split at h
  · cases h
  · next hA =>
    split at h
    · cases h
    · next hB =>
      cases h
      exact ⟨hA, hB⟩

theorem resolveLinkEndpoints_bound {link link' : Link}
    (hreason : (resolveLinkEndpoints link nodes).2 = "") (hspec : link'.spec = link.spec)
    (hbound : link'.status.resolvedEndpoints = (resolveLinkEndpoints link nodes).1) :
    resolveLinkEndpoints link' nodes = resolveLinkEndpoints link nodes := by
  have hfresh : link'.status.resolvedEndpoints = resolveEndpoints link.spec nodes →
      resolveLinkEndpoints link' nodes = (resolveEndpoints link.spec nodes, "") := by
    intro hbound
    cases hresolve : resolveEndpoints link.spec nodes with
    | none => simp [resolveLinkEndpoints, hbound, hspec, hresolve]
    | some resolved =>
      obtain ⟨hA, hB⟩ := resolveEndpoints_eq_some hresolve
      obtain ⟨hnameA, hcompleteA, hreasonA⟩ := resolveEndpoint_eq_some hA
      obtain ⟨hnameB, hcompleteB, hreasonB⟩ := resolveEndpoint_eq_some hB
      simp [resolveLinkEndpoints, endpointBindingMatchesSpec, hbound, hspec, hresolve, hnameA,
        hnameB, hcompleteA, hcompleteB, hreasonA, hreasonB]
  unfold resolveLinkEndpoints at hreason hbound
  cases hobserved : link.status.resolvedEndpoints with
  | none =>
    simp only [hobserved] at hbound
    rw [hfresh hbound]
    simp [resolveLinkEndpoints, hobserved]
  | some observed =>
    simp only [hobserved] at hreason hbound
    split at hbound
    · next hmatches =>
      rw [if_pos hmatches] at hreason
      split at hreason
      · next hstale => exact absurd hreason hstale
      · next hA =>
        split at hreason
        · next hstale => exact absurd hreason hstale
        · next hB =>
          rw [if_neg hA, if_neg hB] at hbound
          have hmatches' : endpointBindingMatchesSpec link' observed = true := by
            simpa [endpointBindingMatchesSpec, hspec] using hmatches
          simp [resolveLinkEndpoints, hbound, hobserved, hmatches, hmatches']
    · next hmatches =>
      rw [hfresh hbound]
      simp [resolveLinkEndpoints, hobserved, hmatches]

end Clabernetes.Links
