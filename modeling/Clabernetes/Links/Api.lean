import Mathlib.Data.String.Basic
import Clabernetes.Base.GoMap

/-!
# Link and Node objects

The fields of `apis/v1alpha1/link.go` and of Kubernetes object metadata that the Link controller
reads or writes. One namespace is one list of Links and one map of Nodes.
-/

namespace Clabernetes.Links

open Base Std

def linkHostNodeName : String := "host"

def linkConditionAccepted : String := "Accepted"

def errInvalidData : String := "errInvalidData"

def quoted (text : String) : String :=
  "\"" ++ String.ofList (text.toList.flatMap fun c => (c.quoteCore true).toList) ++ "\""

structure LinkEndpointSpec where
  nodeName : String
  interfaceName : String
  deriving DecidableEq

structure LinkSpec where
  endpointA : LinkEndpointSpec
  endpointB : LinkEndpointSpec
  deriving DecidableEq

def LinkSpec.endpoints (spec : LinkSpec) : List LinkEndpointSpec := [spec.endpointA, spec.endpointB]

structure LinkResolvedEndpointStatus where
  nodeName : String
  uid : String := ""
  deriving DecidableEq

structure LinkResolvedEndpointsStatus where
  endpointA : LinkResolvedEndpointStatus
  endpointB : LinkResolvedEndpointStatus
  deriving DecidableEq

inductive ConditionStatus where
  | conditionTrue
  | conditionFalse
  | conditionUnknown
  deriving DecidableEq

structure Condition where
  type : String
  status : ConditionStatus
  observedGeneration : Int
  reason : String
  message : String
  lastTransitionTime : Int := 0
  deriving DecidableEq

structure LinkStatus where
  wireID : Int := 0
  resolvedEndpoints : Option LinkResolvedEndpointsStatus := none
  conditions : List Condition := []
  deriving DecidableEq

/-- `apis/v1alpha1/link.go:41-47`; `terminating` is a set deletion timestamp and `ignored` the
label of `constants/labels.go:84`. -/
structure Link where
  name : String
  generation : Int := 1
  terminating : Bool := false
  ignored : Bool := false
  spec : LinkSpec
  status : LinkStatus := {}
  deriving DecidableEq

structure Node where
  uid : String
  networkMode : String := ""
  deriving DecidableEq

/-- `meta.SetStatusCondition` of apimachinery. A condition that stands as it is to be set is left
alone, its transition time included. -/
structure StatusConditions where
  set : Int → List Condition → Condition → List Condition
  set_set : ∀ now now' conditions condition,
    set now' (set now conditions condition) condition = set now conditions condition

def Condition.transitioned (condition : Condition) (now : Int) : Condition :=
  { condition with lastTransitionTime := now }

/-- The first condition of the type takes the new values and, when its status changes, the instant;
one of a new type is appended. -/
def setStatusCondition (now : Int) (condition : Condition) : List Condition → List Condition
  | [] => [condition.transitioned now]
  | existing :: rest =>
    if existing.type = condition.type then
      condition.transitioned
        (if existing.status = condition.status then existing.lastTransitionTime else now) :: rest
    else existing :: setStatusCondition now condition rest

theorem setStatusCondition_idem (now now' : Int) (condition : Condition)
    (conditions : List Condition) :
    setStatusCondition now' condition (setStatusCondition now condition conditions) =
      setStatusCondition now condition conditions := by
  induction conditions with
  | nil => simp [setStatusCondition, Condition.transitioned]
  | cons existing rest ih =>
    rw [setStatusCondition]
    split
    · simp [setStatusCondition, Condition.transitioned]
    · next hne => rw [setStatusCondition, if_neg hne, ih]

/-- The documented behaviour keeps its contract. -/
def documentedConditions : StatusConditions where
  set now conditions condition := setStatusCondition now condition conditions
  set_set now now' conditions condition := setStatusCondition_idem now now' condition conditions

end Clabernetes.Links
