import Clabernetes.Base.GroupedChange
import Clabernetes.Connectivity.Identity

/-!
# Connectivity transitions

`internal/directruntime/connectivity.go:125-206,498-662`: from one pair to another the interfaces
are compared by identity, the Links of those that differ are affected, and the most disruptive mode
of any interface on an affected Link is required.
-/

namespace Clabernetes.Connectivity

open Base DevicePlan Links Std

structure ConnectivityTransition where
  changed : Bool
  requiredMode : LinkApplyMode
  affectedNodeIDs : List String
  deriving DecidableEq

def linkApplyModeRank : LinkApplyMode → ℕ
  | .linkApplyLive => 0
  | .linkApplyRestart => 1
  | .linkApplyRecreate => 2
  | .other .. => 3

/-- Whether the map of changed interfaces has an identity. A missing
entry reads as the zero value there, whose empty identity no accepted entry has. -/
def changedConnectivityInterfaces (base desired : Pair) (id : String) : Bool :=
  ((interfaceInputsByID base.input.interfaces id).isSome ||
      (interfaceInputsByID desired.input.interfaces id).isSome) &&
    decide (interfaceInputsByID base.input.interfaces id ≠
        interfaceInputsByID desired.input.interfaces id ∨
      interfacePlansByID base.plan.interfaces id ≠ interfacePlansByID desired.plan.interfaces id ∨
      interfaceWaitActionsByID base.plan.actions id ≠
        interfaceWaitActionsByID desired.plan.actions id)

def affectedLinks (base desired : Pair) : List String :=
  let changed := changedConnectivityInterfaces base desired
  (base.plan.interfaces.filter (changed ·.id)).map (·.linkID) ++
    (desired.plan.interfaces.filter (changed ·.id)).map (·.linkID) ++
    (base.input.interfaces.filter (changed ·.id)).map (·.linkID) ++
    (desired.input.interfaces.filter (changed ·.id)).map (·.linkID)

def affectedInterfaces (base desired : Pair) : List InterfacePlan :=
  (base.plan.interfaces ++ desired.plan.interfaces).filter
    (·.linkID ∈ affectedLinks base desired)

def raiseMode (mode : LinkApplyMode) (intf : InterfacePlan) : LinkApplyMode :=
  if linkApplyModeRank mode < linkApplyModeRank intf.linkApplyMode then intf.linkApplyMode
  else mode

variable (lib : Library)

def evaluateNormalizedConnectivityTransition (base desired : Pair) : ConnectivityTransition :=
  if affectedLinks base desired = [] then
    { changed := false, requiredMode := .linkApplyLive, affectedNodeIDs := [] }
  else
    { changed := true
      requiredMode := (affectedInterfaces base desired).foldl raiseMode .linkApplyLive
      affectedNodeIDs := lib.sorting.sort compare
        ((affectedInterfaces base desired).map (·.nodeID)).dedup }

def sameNonConnectivityInput (left right : Input) : Prop :=
  { left with interfaces := [] } = { right with interfaces := [] }

instance (left right : Input) : Decidable (sameNonConnectivityInput left right) :=
  inferInstanceAs (Decidable (_ = _))

def requireSameIdentity (base desired : Pair) : Except Refusal Unit := do
  rejectIf (¬sameNonConnectivityInput base.input desired.input)
    (.revision "desired input differs outside connectivity")
  rejectIf (base.plan.schemaVersion ≠ desired.plan.schemaVersion ∨
      base.plan.compatibility ≠ desired.plan.compatibility ∨
      base.plan.planner ≠ desired.plan.planner)
    (.revision "planner identity differs outside connectivity")

def evaluateConnectivityTransition (base desired : Pair) :
    Except Refusal ConnectivityTransition := do
  let base ← acceptPair lib base
  let desired ← acceptPair lib desired
  requireSameIdentity base desired
  let effective ← projectLiveConnectivity lib base desired.input.interfaces
    desired.plan.interfaces (connectivityWaitActions desired.plan.actions)
  return evaluateNormalizedConnectivityTransition lib base effective

end Clabernetes.Connectivity
