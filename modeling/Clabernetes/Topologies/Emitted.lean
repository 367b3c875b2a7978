import Mathlib.Data.List.Dedup
import Clabernetes.Base.Writes

/-!
# Emitted children

`controllers/topology/reconcile.go`. A pass of the topology controller renders the NodeProfiles,
Links and Nodes of the compiled Topology, looks for names that are taken, and enforces the three
kinds one after the other. Specs and statuses are their JSON documents; only a Node's run state,
which the compiler does not own, is kept apart. The lists that a pass reads are those at its start.
-/

namespace Clabernetes.Topologies

open Base Std

structure OwnerReference where
  apiVersion : String
  kind : String
  name : String
  uid : String
  controller : Bool
  blockOwnerDeletion : Bool
deriving DecidableEq

structure Topology where
  namespaceName : String
  name : String
  uid : String

structure Child (Spec Status : Type) where
  labels : GoMap String String
  annotations : GoMap String String
  ownerReferences : List OwnerReference
  spec : Spec
  status : Status

structure Rendered (Spec : Type) where
  name : String
  labels : GoMap String String
  annotations : GoMap String String
  spec : Spec

/-- The schema stores an unset run state as `Running`. -/
inductive NodeRunState where
  | running
  | stopped
deriving DecidableEq

structure NodeSpec (Doc : Type) where
  definition : Doc
  runState : NodeRunState := .running
deriving DecidableEq

def labelApp : String := "c9s.run/app"

def labelTopologyOwner : String := "c9s.run/topologyOwner"

def annotationStartupHold : String := "c9s.run/startup-hold"

def annotationStartupAdmitted : String := "c9s.run/startup-admitted"

def restartRequestedAnnotation : String := "c9s.run/restart-requested"

def deviceStateResetAnnotation : String := "c9s.run/device-state-reset"

def operationalNodeAnnotations : List String :=
  restartRequestedAnnotation :: deviceStateResetAnnotation :: []

variable {Spec Status Doc : Type}

def readKey (m : GoMap String String) (key : String) : String := m[key]?.getD ""

variable (topology : Topology)

def controllerReference : OwnerReference :=
  { apiVersion := "c9s.run/v1alpha1", kind := "Topology", name := topology.name,
    uid := topology.uid, controller := true, blockOwnerDeletion := true }

/-- The rendered object under its Topology's controller reference; the status is not rendered. -/
def Rendered.child [Inhabited Status] (topology : Topology) (rendered : Rendered Spec) :
    Child Spec Status where
  labels := rendered.labels
  annotations := rendered.annotations
  ownerReferences := [controllerReference topology]
  spec := rendered.spec
  status := default

def ownedBy (child : Child Spec Status) (topology : Topology) : Bool :=
  child.ownerReferences.any fun reference => reference.uid == topology.uid

def generatedForTopology (child : Child Spec Status) : Bool :=
  if ownedBy child topology then true
  else readKey child.labels labelApp == "clabernetes" &&
    readKey child.labels labelTopologyOwner == topology.name

def existingMapStringStringContainsAllExpectedKeyValues
    (existing expected : GoMap String String) : Bool :=
  if existing.isEmpty && !expected.isEmpty then false
  else expected.toList.all fun wanted =>
    existing.anyEntry fun key value => wanted.1 == key && wanted.2 == value

def ownerReferencesConform (existing rendered : Child Spec Status) : Bool :=
  rendered.ownerReferences.all fun expected => existing.ownerReferences.any (· == expected)

/-- `:485-501`; equal documents are equal bytes of JSON. -/
def emittedObjectConforms [DecidableEq Spec] (existing rendered : Child Spec Status) : Bool :=
  existing.spec == rendered.spec && ownerReferencesConform existing rendered &&
    existingMapStringStringContainsAllExpectedKeyValues existing.labels rendered.labels &&
    existingMapStringStringContainsAllExpectedKeyValues existing.annotations
      rendered.annotations

def emittedNodeConforms [DecidableEq Doc] (existing rendered : Child (NodeSpec Doc) Status) :
    Bool :=
  emittedObjectConforms existing
    { rendered with spec := { rendered.spec with runState := existing.spec.runState } }

def carryRequest (existing : GoMap String String) (annotations : GoMap String String)
    (key : String) : GoMap String String :=
  match existing[key]? with
  | none => annotations
  | some value => annotations.insert key value

def carryOverNode (existing rendered : Child (NodeSpec Doc) Status) : Child (NodeSpec Doc) Status :=
  { rendered with
    status := existing.status
    spec := { rendered.spec with runState := existing.spec.runState }
    annotations :=
      operationalNodeAnnotations.foldl (carryRequest existing.annotations)
        rendered.annotations }

def carryOverLink (existing rendered : Child Spec Status) : Child Spec Status :=
  { rendered with status := existing.status }

section Kind

variable [Inhabited Status]

/-- The loop of `:635-669`: its writes and what it leaves of `existing`. -/
def enforce (conforms : Child Spec Status → Child Spec Status → Bool)
    (carryOver : Child Spec Status → Child Spec Status → Child Spec Status) (topology : Topology) :
    List (Rendered Spec) → GoMap String (Child Spec Status) →
      List (Write String (Child Spec Status)) × GoMap String (Child Spec Status)
  | [], existing => ([], existing)
  | object :: rest, existing =>
    match existing[object.name]? with
    | none =>
      let (writes, left) := enforce conforms carryOver topology rest existing
      (.create object.name (object.child topology) :: writes, left)
    | some current =>
      let (writes, left) := enforce conforms carryOver topology rest (existing.erase object.name)
      if conforms current (object.child topology) then (writes, left)
      else (.update object.name (carryOver current (object.child topology)) :: writes, left)

/-- The rank orders the loop over the objects that are left. -/
def reconcileEmitted (rank : String → ℕ) (conforms : Child Spec Status → Child Spec Status → Bool)
    (carryOver : Child Spec Status → Child Spec Status → Child Spec Status)
    (topology : Topology) (rendered : List (Rendered Spec))
    (existing : GoMap String (Child Spec Status)) : List (Write String (Child Spec Status)) :=
  let (writes, left) := enforce conforms carryOver topology rendered existing
  writes ++ (left.iterate rank).map fun extra => .delete extra.1

end Kind

def generated (listed : GoMap String (Child Spec Status)) : GoMap String (Child Spec Status) :=
  listed.filter fun _ child => generatedForTopology topology child

def reconcileLinks [DecidableEq Doc] [Inhabited Doc] (rank : String → ℕ) (topology : Topology)
    (rendered : List (Rendered Doc)) (listed : GoMap String (Child Doc Doc)) :
    List (Write String (Child Doc Doc)) :=
  reconcileEmitted rank emittedObjectConforms carryOverLink topology rendered
    (generated topology listed)

/-- A NodeProfile has no status. -/
def reconcileNodeProfiles [DecidableEq Doc] (rank : String → ℕ) (topology : Topology)
    (rendered : List (Rendered Doc)) (listed : GoMap String (Child Doc Unit)) :
    List (Write String (Child Doc Unit)) :=
  reconcileEmitted rank emittedObjectConforms (fun _ object => object) topology rendered
    (generated topology listed)

/-- The startup annotations are the controllers' own: `:418-419`. -/
def Rendered.clearStartup (node : Rendered (NodeSpec Doc)) : Rendered (NodeSpec Doc) :=
  { node with
    annotations := (node.annotations.erase annotationStartupHold).erase annotationStartupAdmitted }

def Rendered.markStartup (batchSize : ℤ)
    (existing : GoMap String (Child (NodeSpec Doc) Status)) (node : Rendered (NodeSpec Doc)) :
    Rendered (NodeSpec Doc) :=
  let cleared := node.clearStartup.annotations
  { node with
    annotations :=
      match existing[node.name]? with
      | some current =>
        let admission := readKey current.annotations annotationStartupAdmitted
        let hold := readKey current.annotations annotationStartupHold
        let admitted :=
          if admission = "" then cleared else cleared.insert annotationStartupAdmitted admission
        if hold = "" then admitted else admitted.insert annotationStartupHold hold
      | none =>
        if 0 < batchSize then cleared.insert annotationStartupHold topology.uid else cleared }

def reconcileNodes [DecidableEq Doc] [Inhabited Doc] (rank : String → ℕ) (topology : Topology)
    (batchSize : ℤ) (rendered : List (Rendered (NodeSpec Doc)))
    (listed : GoMap String (Child (NodeSpec Doc) Doc)) :
    List (Write String (Child (NodeSpec Doc) Doc)) :=
  let existing := generated topology listed
  reconcileEmitted rank emittedNodeConforms carryOverNode topology
    (rendered.map (Rendered.markStartup topology batchSize existing)) existing

structure RenderedChildren (Doc : Type) where
  nodeProfiles : List (Rendered Doc)
  links : List (Rendered Doc)
  nodes : List (Rendered (NodeSpec Doc))

structure Namespace (Doc : Type) where
  nodeProfiles : GoMap String (Child Doc Unit)
  links : GoMap String (Child Doc Doc)
  nodes : GoMap String (Child (NodeSpec Doc) Doc)

inductive ChildKind where
  | nodeProfile
  | link
  | node
deriving DecidableEq

def ChildKind.text : ChildKind → String
  | nodeProfile => "nodeprofile"
  | link => "link"
  | node => "node"

def RenderedChildren.all (children : RenderedChildren Doc) : List (ChildKind × String) :=
  children.nodeProfiles.map (fun profile => (.nodeProfile, profile.name)) ++
    children.links.map (fun link => (.link, link.name)) ++
    children.nodes.map fun node => (.node, node.name)

def Namespace.takes (ns : Namespace Doc) (topology : Topology) : ChildKind × String → Bool
  | (.nodeProfile, name) => ns.nodeProfiles[name]?.any (!generatedForTopology topology ·)
  | (.link, name) => ns.links[name]?.any (!generatedForTopology topology ·)
  | (.node, name) => ns.nodes[name]?.any (!generatedForTopology topology ·)

def childConflicts (taken : ChildKind × String → Bool) (seen : List (ChildKind × String)) :
    List (ChildKind × String) → List (ChildKind × String)
  | [] => []
  | child :: rest =>
    if child ∈ seen then child :: childConflicts taken seen rest
    else if taken child then child :: childConflicts taken (child :: seen) rest
    else childConflicts taken (child :: seen) rest

def findChildResourceConflicts (rendered : RenderedChildren Doc)
    (ns : Namespace Doc) : List String :=
  ((childConflicts (ns.takes topology) [] rendered.all).map fun child =>
    child.1.text ++ "/" ++ child.2).dedup.insertionSort (· ≤ ·)

def formatChildResourceConflicts (namespaceName : String) (conflicts : List String) : String :=
  "duplicate resources found in the " ++ namespaceName ++ " namespace: " ++
    ", ".intercalate conflicts ++
    "\ncreate the topology in a different namespace or disambiguate node names."

inductive ChildWrite (Doc : Type) where
  | nodeProfile (write : Write String (Child Doc Unit))
  | link (write : Write String (Child Doc Doc))
  | node (write : Write String (Child (NodeSpec Doc) Doc))

/-- What a pass with fresh renderings comes to: a refusal, names that are taken, reported in the
status, or the writes of the three kinds. -/
inductive Reconciled (Doc : Type) where
  | invalidBatchSize
  | conflicts (message : String)
  | emitted (writes : List (ChildWrite Doc))

/-- Up to the observation of the startup and the status. -/
def reconcile [DecidableEq Doc] [Inhabited Doc] (rank : String → ℕ) (topology : Topology)
    (batchSize : ℤ) (rendered : RenderedChildren Doc) (ns : Namespace Doc) : Reconciled Doc :=
  if batchSize < 0 then .invalidBatchSize
  else
    match findChildResourceConflicts topology rendered ns with
    | [] =>
      .emitted
        ((reconcileNodeProfiles rank topology rendered.nodeProfiles ns.nodeProfiles).map
            .nodeProfile ++
          (reconcileLinks rank topology rendered.links ns.links).map .link ++
          (reconcileNodes rank topology batchSize rendered.nodes ns.nodes).map .node)
    | conflicts => .conflicts (formatChildResourceConflicts topology.namespaceName conflicts)

def Reconciled.writes : Reconciled Doc → List (ChildWrite Doc)
  | invalidBatchSize | conflicts _ => []
  | emitted writes => writes

def Namespace.apply (ns : Namespace Doc) : ChildWrite Doc → Option (Namespace Doc)
  | .nodeProfile write => (write.apply ns.nodeProfiles).map ({ ns with nodeProfiles := · })
  | .link write => (write.apply ns.links).map ({ ns with links := · })
  | .node write => (write.apply ns.nodes).map ({ ns with nodes := · })

end Clabernetes.Topologies
