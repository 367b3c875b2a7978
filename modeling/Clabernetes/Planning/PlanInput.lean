import Clabernetes.DevicePlan.Normalize
import Clabernetes.Links.Reconcile

/-!
# Compilation of planning inputs

`controllers/node/planinput.go`. The input of a workload group holds its Nodes and, for every
accepted Link that ends on one of them, the interfaces on the group's side. A Node carries here what
planning reads of it besides what the Link controller reads, and a Link its UID and MTU.
-/

namespace Clabernetes.Planning

open Base DevicePlan Links Std

/-- A Node as planning reads it. The definition is its JSON, if it can be encoded. -/
structure PlannedNode extends Links.Node where
  namespaceName : String
  topologyOwner : String := ""
  kind : String
  type : String := ""
  definition : Option String

structure PlannedLink extends Links.Link where
  uid : String
  mtu : Int := 0
deriving DecidableEq

abbrev PlannedNodes := GoMap String PlannedNode

def linkNodes (nodes : PlannedNodes) : Nodes := nodes.map fun _ node => node.toNode

inductive Side where
  | a
  | b
deriving DecidableEq

def Side.peer : Side → Side
  | a => b
  | b => a

def Side.letter : Side → String
  | a => "a"
  | b => "b"

variable (link : PlannedLink)

def PlannedLink.endpoint : Side → LinkEndpointSpec
  | .a => link.spec.endpointA
  | .b => link.spec.endpointB

def resolvedEndpoint (resolved : LinkResolvedEndpointsStatus) : Side → LinkResolvedEndpointStatus
  | .a => resolved.endpointA
  | .b => resolved.endpointB

def isStatusConditionTrue (conditions : List Condition) (type : String) : Bool :=
  (conditions.find? (·.type = type)).any (·.status = .conditionTrue)

def connectivitySamePod : String := "same-pod"

def connectivityLoopback : String := "loopback"

def connectivityHost : String := "host"

def connectivityWire : String := "wire"

def fabricServiceName (nodeName : String) : String := nodeName ++ "-wire"

def planInputError (code : ErrorCode) (field message : String) : Error :=
  { code, field, behavior := "controller-input", message }

def validateResolvedEndpoint (endpoint : LinkEndpointSpec)
    (resolved : LinkResolvedEndpointStatus) (nodes : PlannedNodes) : Except Error Unit := do
  let field := "links." ++ link.name ++ ".status.resolvedEndpoints"
  rejectIf (resolved.nodeName ≠ endpoint.nodeName)
    (planInputError .errorInvariant field "Link status names a stale endpoint")
  if endpoint.nodeName = linkHostNodeName then
    rejectIf (resolved.uid ≠ "")
      (planInputError .errorInvariant field "host endpoint unexpectedly has a Node UID")
  else
    rejectIf (resolved.uid = "")
      (planInputError .errorMissingInput field "Link endpoint UID is unresolved")
    rejectIf (nodes[endpoint.nodeName]?.any (·.uid ≠ resolved.uid))
      (planInputError .errorInvariant field "Link endpoint UID is stale")

def interfaceConnectivity (endpoint peer : LinkEndpointSpec) (members : PlannedNodes) : String :=
  if peer.nodeName = linkHostNodeName then connectivityHost
  else if endpoint.nodeName = peer.nodeName then connectivityLoopback
  else if peer.nodeName ∈ members then connectivitySamePod
  else connectivityWire

def interfaceInput (resolved : LinkResolvedEndpointsStatus) (side : Side)
    (member : PlannedNode) (connectivity : String) : InterfaceInput where
  id := link.uid ++ "/" ++ side.letter
  nodeID := member.uid
  name := (link.endpoint side).interfaceName
  linkID := link.uid
  linkName := link.name
  peerNodeID :=
    if (link.endpoint side.peer).nodeName ≠ linkHostNodeName then
      (resolvedEndpoint resolved side.peer).uid
    else ""
  peerInterface := (link.endpoint side.peer).interfaceName
  peerTransport :=
    if connectivity = connectivityWire then fabricServiceName (link.endpoint side.peer).nodeName
    else ""
  connectivity := connectivity
  wireID := link.status.wireID
  mtu := link.mtu

def compileSide (nodes members : PlannedNodes) (link : PlannedLink)
    (resolved : LinkResolvedEndpointsStatus) (side : Side) :
    Except Error (List InterfaceInput) := do
  validateResolvedEndpoint link (link.endpoint side) (resolvedEndpoint resolved side) nodes
  match members[(link.endpoint side).nodeName]? with
  | none => .ok []
  | some member =>
    let connectivity := interfaceConnectivity (link.endpoint side) (link.endpoint side.peer) members
    rejectIf (connectivity = connectivityWire ∧ link.status.wireID = 0)
      (planInputError .errorMissingInput ("links." ++ link.name ++ ".status.wireID")
        "cross-Pod Link allocation is not ready")
    .ok [interfaceInput link resolved side member connectivity]

def compileLink (nodes members : PlannedNodes) (link : PlannedLink) :
    Except Error (List InterfaceInput) :=
  if (link.endpoint .a).nodeName ∉ members ∧ (link.endpoint .b).nodeName ∉ members then .ok []
  else
    let unaccepted : Except Error (List InterfaceInput) :=
      .error (planInputError .errorMissingInput ("links." ++ link.name)
        "terminating Link has no accepted UID-bound endpoint inventory")
    if link.uid = "" ∨ isStatusConditionTrue link.status.conditions linkConditionAccepted = false
    then unaccepted
    else
      match link.status.resolvedEndpoints with
      | none => unaccepted
      | some resolved => do
        let first ← compileSide nodes members link resolved .a
        let second ← compileSide nodes members link resolved .b
        .ok (first ++ second)

def compileAcceptedInterfaces (lib : Library) (links : List PlannedLink)
    (nodes members : PlannedNodes) : Except Error (List InterfaceInput) := do
  let compiled ← links.mapM (compileLink nodes members)
  .ok (lib.sorting.sort (compareOn (·.id)) compiled.flatten)

def resolveGroupMembers (nodes : Nodes) (primaryNode : String) : List String :=
  primaryNode :: (nodes.keys.filter fun name =>
    name != primaryNode && resolvePrimaryNode nodes name == primaryNode).insertionSort (· ≤ ·)

structure PlanInputCompileRequest where
  primaryName : String
  primary : PlannedNode
  groupMembers : List String
  nodesByName : PlannedNodes
  links : List PlannedLink
  compatibility : Compatibility
  entropyDigest : String := ""
  images : List ImageInput := []
  payloads : List PayloadInput := []
  certificates : List CertificateInput := []
  management : List ManagementInput := []

def planningTopologyName (primary : PlannedNode) : String :=
  if primary.topologyOwner ≠ "" then primary.topologyOwner else primary.namespaceName

def compileMember (request : PlanInputCompileRequest) (name : String) :
    Except Error (PlannedNode × NodeInput) :=
  let found :=
    if name = request.primaryName then some request.primary else request.nodesByName[name]?
  let unresolved : Except Error (PlannedNode × NodeInput) :=
    .error (planInputError .errorMissingInput ("nodes." ++ name)
      "group member identity is unresolved")
  match found with
  | none => unresolved
  | some member =>
    if member.namespaceName ≠ request.primary.namespaceName ∨ member.uid = "" then unresolved
    else
      match member.definition with
      | none =>
        .error (planInputError .errorSerialization ("nodes." ++ name ++ ".definition")
          "cannot serialize Node definition")
      | some definition =>
        .ok (member,
          { id := member.uid, name := name, kind := member.kind, type := member.type
            groupOwner := if name ≠ request.primaryName then request.primary.uid else ""
            definition := some definition })

def memberMap (names : List String) (members : List PlannedNode) : PlannedNodes :=
  (names.zip members).foldl (fun m entry => m.insert entry.1 entry.2) ∅

/-- The names are sorted and each is taken once. -/
def compilePlanInput (lib : Library) (request : PlanInputCompileRequest) : Except Error Input := do
  rejectIf (request.primaryName = "" ∨ request.primary.namespaceName = "" ∨
      request.primary.uid = "")
    (planInputError .errorInvalidInput "nodes" "primary Node identity is incomplete")
  let memberNames := (lib.sorting.sort compare request.groupMembers).dedup
  rejectIf (request.primaryName ∉ memberNames)
    (planInputError .errorInvalidInput "nodes"
      "workload group does not contain its primary Node")
  let compiled ← memberNames.mapM (compileMember request)
  let interfaces ← compileAcceptedInterfaces lib request.links request.nodesByName
    (memberMap memberNames (compiled.map Prod.fst))
  normalizeInput lib
    { schemaVersion := schemaVersion
      topologyName := planningTopologyName request.primary
      compatibility := request.compatibility
      entropyDigest := request.entropyDigest
      nodes := compiled.map Prod.snd
      images := request.images
      payloads := request.payloads
      certificates := request.certificates
      management := request.management
      interfaces := interfaces }

end Clabernetes.Planning
