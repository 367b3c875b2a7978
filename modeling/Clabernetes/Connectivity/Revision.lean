import Clabernetes.Connectivity.Compose

/-!
# Connectivity revisions

`internal/directruntime/connectivity.go:112-124,227-348,402-496,664-859`: a revision carries the
live part of a desired plan, the digest of the cold plan that it was made for and the digest of the
effective plan that it leads to.
-/

namespace Clabernetes.Connectivity

open Base DevicePlan Links Std

structure ConnectivityRevision where
  schemaVersion : String
  basePlanDigest : String
  desiredPlanDigest : String
  maximumMode : LinkApplyMode := .other "" (by decide)
  inputInterfaces : List InterfaceInput := []
  interfaces : List InterfacePlan := []
  actions : List Action := []
  deriving DecidableEq

def connectivityRevisionSchemaVersion : String := "c9s.direct-connectivity/v1alpha1"

def maximumConnectivityRevisionJSONSize : ℕ := 768 * 2 ^ 10

structure RevisionLibrary extends Library where
  revisionCodec : Codec ConnectivityRevision Text
  plain_revision : revisionCodec.plain = some
  /-- The number of bytes; a JSON object has some. -/
  size : Text → ℕ
  size_marshal : ∀ revision text, revisionCodec.marshal revision = some text → 0 < size text
  /-- The first value of a text, unknown fields refused. -/
  decodeFirst : Text → Option ConnectivityRevision
  /-- Whether nothing follows it. -/
  atEnd : Text → Bool
  decodeStrict_eq : ∀ text,
    revisionCodec.decodeStrict text = (decodeFirst text).filter fun _ => atEnd text

def modeText : LinkApplyMode → String
  | .linkApplyLive => "Live"
  | .linkApplyRestart => "Restart"
  | .linkApplyRecreate => "Recreate"
  | .other text _ => text

def validRevisionDigest (value : String) : Bool :=
  let encoded := value.toList.drop 7
  "sha256:".toList.isPrefixOf value.toList && (String.ofList encoded).utf8ByteSize = 64 &&
    encoded.all isHexDigit

def orLive (mode : LinkApplyMode) : LinkApplyMode :=
  if mode = .other "" (by decide) then .linkApplyLive else mode

def validateInputIdentity (before : List InterfaceInput) (intf : InterfaceInput) :
    Except Refusal Unit :=
  rejectIf (intf.id = "" ∨ ∃ earlier ∈ before, earlier.id = intf.id)
    (.revision "input interface identity is invalid")

def validatePlannedIdentity (inputs : List InterfaceInput) (before : List InterfacePlan)
    (intf : InterfacePlan) : Except Refusal Unit :=
  rejectIf (intf.id = "" ∨ (∃ earlier ∈ before, earlier.id = intf.id) ∨
      ¬∃ input ∈ inputs, input.id = intf.id)
    (.revision "planned interface identity is invalid")

def validateWait (interfaces : List InterfacePlan) (before : List Action) (action : Action) :
    Except Refusal Unit :=
  rejectIf (isConnectivityWaitAction action = false ∨
      (∃ earlier ∈ before, waitedInterface earlier = waitedInterface action) ∨
      ¬∃ intf ∈ interfaces, intf.id = waitedInterface action)
    (.revision "interface wait action is invalid")

variable (lib : RevisionLibrary) (revision : ConnectivityRevision)

def orderRevision : ConnectivityRevision :=
  { revision with
    maximumMode := orLive revision.maximumMode
    inputInterfaces := lib.sorting.sort (compareOn (·.id)) revision.inputInterfaces
    interfaces := lib.sorting.sort (compareOn (·.id)) revision.interfaces
    actions := lib.sorting.sort (compareOn (·.id)) revision.actions }

def validateRevisionHeader : Except Refusal Unit :=
  rejectIf (revision.schemaVersion ≠ connectivityRevisionSchemaVersion ∨
      validRevisionDigest revision.basePlanDigest = false ∨
      validRevisionDigest revision.desiredPlanDigest = false)
    (.revision "schema or digest identity is invalid")

/-- What is checked in order; `:752-758,776-825`. The identities that the maps
count are those of the lists, since the loops have found them distinct. -/
def validateOrderedRevision : Except Refusal Unit := do
  rejectIf (revision.maximumMode ≠ .linkApplyLive ∧ revision.maximumMode ≠ .linkApplyRestart)
    (.revision "cumulative lifecycle mode is invalid")
  checkEach validateInputIdentity revision.inputInterfaces
  checkEach (validatePlannedIdentity revision.inputInterfaces) revision.interfaces
  rejectIf (revision.inputInterfaces.length ≠ revision.interfaces.length)
    (.revision "input and planned interface sets differ")
  checkEach (validateWait revision.interfaces) revision.actions
  rejectIf (revision.actions.length ≠ revision.interfaces.length)
    (.revision "interface wait coverage is incomplete")

def settleRevision : Except Refusal ConnectivityRevision := do
  validateRevisionHeader revision
  validateOrderedRevision (orderRevision lib revision)
  return orderRevision lib revision

def cloneRevisionRefusal : Refusal := .revision "cloning revision"

def normalizeConnectivityRevision : ConnectivityRevision → Except Refusal ConnectivityRevision :=
  lib.revisionCodec.normalize cloneRevisionRefusal (settleRevision lib)

def sizeRefusal : Refusal := .revision "revision exceeds the size ceiling"

def ConnectivityRevision.canonicalJSON : Except Refusal lib.Text := do
  let raw ← lib.revisionCodec.canonical cloneRevisionRefusal (.revision "serializing revision")
    (settleRevision lib) revision
  rejectIf (maximumConnectivityRevisionJSONSize < lib.size raw) sizeRefusal
  return raw

def decodeConnectivityRevision (raw : lib.Text) : Except Refusal ConnectivityRevision := do
  rejectIf (lib.size raw = 0 ∨ maximumConnectivityRevisionJSONSize < lib.size raw)
    (.revision "encoded revision size is invalid")
  match lib.decodeFirst raw with
  | none => .error (.revision "decoding revision")
  | some decoded =>
    rejectIf (lib.atEnd raw = false) (.revision "revision has trailing JSON")
    normalizeConnectivityRevision lib decoded

def applyConnectivityRevision (cold : Pair) (revision : ConnectivityRevision) :
    Except Refusal Pair := do
  let revision ← normalizeConnectivityRevision lib revision
  let base ← acceptPair lib.toLibrary cold
  let baseDigest ← fromPlanning (base.plan.digest lib.toLibrary)
  rejectIf (baseDigest ≠ revision.basePlanDigest)
    (.revision "base plan digest differs from the running Pod")
  let effective ← projectLiveConnectivity lib.toLibrary base revision.inputInterfaces
    revision.interfaces revision.actions
  let desiredPlanDigest ← fromPlanning (effective.plan.digest lib.toLibrary)
  rejectIf (desiredPlanDigest ≠ revision.desiredPlanDigest)
    (.revision "merged connectivity does not reproduce the desired plan digest")
  validateIdentity lib.toLibrary effective
  let transition := evaluateNormalizedConnectivityTransition lib.toLibrary base effective
  rejectIf (transition.requiredMode ≠ revision.maximumMode)
    (.revision ("merged connectivity requires " ++ modeText transition.requiredMode ++
      " rather than declared cumulative mode " ++ modeText revision.maximumMode))
  return effective

def builtRevision (desired : Pair) (basePlanDigest desiredPlanDigest : String)
    (requiredMode : LinkApplyMode) : ConnectivityRevision where
  schemaVersion := connectivityRevisionSchemaVersion
  basePlanDigest := basePlanDigest
  desiredPlanDigest := desiredPlanDigest
  maximumMode := requiredMode
  inputInterfaces := desired.input.interfaces
  interfaces := desired.plan.interfaces
  actions := connectivityWaitActions desired.plan.actions

def newConnectivityRevisionForMode (cold desired : Pair) (maximumMode : LinkApplyMode) :
    Except Refusal ConnectivityRevision := do
  rejectIf (maximumMode ≠ .linkApplyLive ∧ maximumMode ≠ .linkApplyRestart)
    (.revision ("projected connectivity mode " ++ quoted (modeText maximumMode) ++
      " is invalid"))
  let base ← acceptPair lib.toLibrary cold
  let desired ← acceptPair lib.toLibrary desired
  requireSameIdentity base desired
  let basePlanDigest ← fromPlanning (base.plan.digest lib.toLibrary)
  let effective ← projectLiveConnectivity lib.toLibrary base desired.input.interfaces
    desired.plan.interfaces (connectivityWaitActions desired.plan.actions)
  let transition := evaluateNormalizedConnectivityTransition lib.toLibrary base effective
  rejectIf (linkApplyModeRank maximumMode < linkApplyModeRank transition.requiredMode)
    (.revision ("affected connectivity requires " ++ modeText transition.requiredMode ++
      " rather than at most " ++ modeText maximumMode))
  let desiredPlanDigest ← fromPlanning (effective.plan.digest lib.toLibrary)
  let revision := builtRevision desired basePlanDigest desiredPlanDigest transition.requiredMode
  let _ ← applyConnectivityRevision lib base revision
  return revision

end Clabernetes.Connectivity
