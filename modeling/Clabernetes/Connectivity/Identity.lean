import Clabernetes.Base.Keyed
import Clabernetes.DevicePlan.NormalForm
import Clabernetes.Links.Api

/-!
# Inputs, plans and their common identity

`internal/directruntime/connectivity.go`: a plan belongs to an input when it names the input's
digest and repeats what the input says of each interface and management identity. The live part of a
plan, which can be replaced while its Pod runs, is the interfaces and the actions that wait for one.
-/

namespace Clabernetes.Connectivity

open Base DevicePlan Links Std

inductive Refusal where
  | planning (err : DevicePlan.Error)
  /-- What follows `ErrConnectivityRevision`. -/
  | revision (message : String)
  | identity (message : String)
  deriving DecidableEq

def fromPlanning {α : Type} (result : Except DevicePlan.Error α) : Except Refusal α :=
  result.mapError .planning

@[simp] theorem fromPlanning_eq_ok {α : Type} {result : Except DevicePlan.Error α} {a : α} :
    fromPlanning result = .ok a ↔ result = .ok a := mapError_eq_ok

structure Pair where
  input : Input
  plan : Plan
  deriving DecidableEq

def interfaceInputsByID (interfaces : List InterfaceInput) : String → Option InterfaceInput :=
  indexBy (·.id) interfaces

def interfacePlansByID (interfaces : List InterfacePlan) : String → Option InterfacePlan :=
  indexBy (·.id) interfaces

def isConnectivityWaitAction (action : Action) : Bool :=
  action.phase = .phasePreStart && action.kind = .actionWaitInterface &&
    action.waitInterface.isSome

variable (actions : List Action)

def connectivityWaitActions : List Action :=
  actions.filter isConnectivityWaitAction

def otherActions : List Action :=
  actions.filter (!isConnectivityWaitAction ·)

def waitedInterface (action : Action) : String := valueOrEmpty action.waitInterface (·.interfaceID)

/-- Of several waits for an interface the last one. -/
def interfaceWaitActionsByID : String → Option Action :=
  indexBy waitedInterface (connectivityWaitActions actions)

def Repeats (supplied : InterfaceInput) (planned : InterfacePlan) : Prop :=
  supplied.nodeID = planned.nodeID ∧ supplied.linkID = planned.linkID ∧
    supplied.linkName = planned.linkName ∧ supplied.peerNodeID = planned.peerNodeID ∧
    supplied.peerInterface = planned.peerInterface ∧
    supplied.peerTransport = planned.peerTransport ∧
    supplied.connectivity = planned.connectivity ∧ supplied.wireID = planned.wireID ∧
    supplied.mtu = planned.mtu

instance (supplied : InterfaceInput) (planned : InterfacePlan) :
    Decidable (Repeats supplied planned) := inferInstanceAs (Decidable (_ ∧ _))

/-- `:2971-2992`: the entry of an earlier planned interface is deleted. -/
def validateInterfaceIdentity (supplied : List InterfaceInput) (before : List InterfacePlan)
    (planned : InterfacePlan) : Except Refusal Unit :=
  let entry := if ∃ earlier ∈ before, earlier.id = planned.id then none
    else interfaceInputsByID supplied planned.id
  rejectIf (∀ intf ∈ entry, ¬Repeats intf planned)
    (.identity ("connectivity plan interface " ++ quoted planned.id ++
      " differs from accepted input"))

def CarriesIdentityOnly (planned : ManagementPlan) : Prop :=
  planned.ipv4 = "" ∧ planned.ipv4Gateway = "" ∧ planned.ipv6 = "" ∧ planned.ipv6Gateway = "" ∧
    planned.routes = [] ∧ planned.dns = {}

instance (planned : ManagementPlan) : Decidable (CarriesIdentityOnly planned) :=
  inferInstanceAs (Decidable (_ ∧ _))

def RepeatsManagement (supplied : ManagementInput) (planned : ManagementPlan) : Prop :=
  supplied.ipv4 = planned.ipv4 ∧ supplied.ipv4Gateway = planned.ipv4Gateway ∧
    supplied.ipv6 = planned.ipv6 ∧ supplied.ipv6Gateway = planned.ipv6Gateway ∧
    supplied.dns = planned.dns ∧
    (supplied.interfaceName = "" ∨ supplied.interfaceName = planned.interfaceName)

instance (supplied : ManagementInput) (planned : ManagementPlan) :
    Decidable (RepeatsManagement supplied planned) := inferInstanceAs (Decidable (_ ∧ _))

/-- `:3002-3037`: the entry of an earlier management plan is deleted. -/
def validateManagementIdentity (supplied : List ManagementInput) (before : List ManagementPlan)
    (planned : ManagementPlan) : Except Refusal Unit :=
  let entry := if ∃ earlier ∈ before, earlier.nodeID = planned.nodeID then none
    else indexBy ManagementInput.nodeID supplied planned.nodeID
  let refusal := Refusal.identity ("connectivity management plan " ++ quoted planned.id ++
    " differs from accepted input")
  match entry with
  | none => rejectIf (¬CarriesIdentityOnly planned) refusal
  | some management => rejectIf (¬RepeatsManagement management planned) refusal

def compareIdentity (input : Input) (plan : Plan) (digest : String) : Except Refusal Unit := do
  rejectIf (plan.inputDigest ≠ digest ∨ plan.compatibility ≠ input.compatibility)
    (.identity "connectivity plan and input identities differ")
  checkEach (validateInterfaceIdentity input.interfaces) plan.interfaces
  rejectIf (∃ supplied ∈ input.interfaces, ∀ planned ∈ plan.interfaces, planned.id ≠ supplied.id)
    (.identity "connectivity plan omits accepted interfaces")
  checkEach (validateManagementIdentity input.management) plan.management
  rejectIf (∃ supplied ∈ input.management,
      ∀ planned ∈ plan.management, planned.nodeID ≠ supplied.nodeID)
    (.identity "connectivity plan omits accepted management intent")

variable (lib : Library)

def validateIdentity (pair : Pair) : Except Refusal Unit := do
  let input ← fromPlanning (normalizeInput lib pair.input)
  let plan ← fromPlanning (normalizePlan lib pair.plan)
  let digest ← fromPlanning (input.digest lib)
  compareIdentity input plan digest

def acceptPair (pair : Pair) : Except Refusal Pair := do
  let input ← fromPlanning (normalizeInput lib pair.input)
  let plan ← fromPlanning (normalizePlan lib pair.plan)
  validateIdentity lib { input, plan }
  return { input, plan }

def projectLiveConnectivity (base : Pair) (inputInterfaces : List InterfaceInput)
    (interfaces : List InterfacePlan) (waitActions : List Action) : Except Refusal Pair := do
  let input ← fromPlanning
    (normalizeInput lib { base.input with interfaces := inputInterfaces })
  let inputDigest ← fromPlanning (input.digest lib)
  let plan ← fromPlanning (normalizePlan lib { base.plan with
    inputDigest, interfaces, actions := otherActions base.plan.actions ++ waitActions })
  return { input, plan }

variable {lib}

theorem acceptPair_eq_ok {pair accepted : Pair} : acceptPair lib pair = .ok accepted ↔
      normalizeInput lib pair.input = .ok accepted.input ∧
        normalizePlan lib pair.plan = .ok accepted.plan ∧
        validateIdentity lib accepted = .ok () := by
  simp only [acceptPair, bind_eq_ok_iff, fromPlanning_eq_ok]
  constructor
  · rintro ⟨input, hinput, plan, hplan, ⟨⟩, hidentity, hpure⟩
    cases hpure
    exact ⟨hinput, hplan, hidentity⟩
  · rintro ⟨hinput, hplan, hidentity⟩
    exact ⟨_, hinput, _, hplan, (), hidentity, rfl⟩

structure Accepted (lib : Library) (pair : Pair) : Prop where
  input_normal : normalizeInput lib pair.input = .ok pair.input
  plan_normal : normalizePlan lib pair.plan = .ok pair.plan
  identity : validateIdentity lib pair = .ok ()

theorem validateIdentity_eq_ok {pair : Pair}
    (hinput : normalizeInput lib pair.input = .ok pair.input)
    (hplan : normalizePlan lib pair.plan = .ok pair.plan) :
    validateIdentity lib pair = .ok () ↔ ∃ digest, pair.input.digest lib = .ok digest ∧
      compareIdentity pair.input pair.plan digest = .ok () := by
  simp [validateIdentity, bind_eq_ok_iff, fromPlanning_eq_ok, hinput, hplan]

theorem Accepted.acceptPair_eq {pair : Pair} (h : Accepted lib pair) :
    acceptPair lib pair = .ok pair :=
  acceptPair_eq_ok.mpr ⟨h.input_normal, h.plan_normal, h.identity⟩

theorem accepted_of_acceptPair {pair accepted : Pair} (h : acceptPair lib pair = .ok accepted) :
    Accepted lib accepted := by
  obtain ⟨hinput, hplan, hidentity⟩ := acceptPair_eq_ok.mp h
  exact ⟨(input_normal_form lib hinput).1, (plan_normal_form lib hplan).1, hidentity⟩

theorem validateInterfaceIdentity_eq_ok {supplied : List InterfaceInput}
    (before : List InterfacePlan) (planned : InterfacePlan) :
    validateInterfaceIdentity supplied before planned = .ok () ↔
      (∃ intf, interfaceInputsByID supplied planned.id = some intf ∧ Repeats intf planned) ∧
        ∀ earlier ∈ before, earlier.id ≠ planned.id := by
  rw [validateInterfaceIdentity, rejectIf_eq_ok]
  by_cases hbefore : ∃ earlier ∈ before, earlier.id = planned.id
  · simp [hbefore]
  · simpa [hbefore] using fun _ _ _ => by simpa using hbefore

section Accepted

variable {pair : Pair} (h : Accepted lib pair)
include h

theorem Accepted.identity_spec : pair.input.digest lib = .ok pair.plan.inputDigest ∧
      (∀ planned ∈ pair.plan.interfaces, ∃ intf,
        interfaceInputsByID pair.input.interfaces planned.id = some intf ∧ Repeats intf planned) ∧
      ∀ supplied ∈ pair.input.interfaces, ∃ planned ∈ pair.plan.interfaces,
        planned.id = supplied.id := by
  obtain ⟨digest, hdigest, hcompare⟩ :=
    (validateIdentity_eq_ok h.input_normal h.plan_normal).mp h.identity
  simp only [compareIdentity, bind_eq_ok, rejectIf_eq_ok, not_or, not_not,
    checkEach_eq_ok validateInterfaceIdentity_eq_ok] at hcompare
  obtain ⟨hsame, hinterfaces, hcomplete, -⟩ := hcompare
  simp only [not_exists, not_and, not_forall, not_not] at hcomplete
  refine ⟨by rw [hdigest, hsame.1], hinterfaces.1, fun supplied hsupplied => ?_⟩
  obtain ⟨planned, hplanned, hid⟩ := hcomplete supplied hsupplied
  exact ⟨planned, hplanned, hid⟩

theorem Accepted.interfaceInputs_apart : pair.input.interfaces.Pairwise fun a b => a.id ≠ b.id := by
  obtain ⟨-, hvalid, -⟩ := normal_input lib h.input_normal
  obtain ⟨-, -, -, -, -, -, -, -, hinterfaces⟩ := validateInput_eq_ok.mp hvalid
  exact (validateInterfaceInput_apart.checkEach_eq_ok.mp hinterfaces).2

theorem Accepted.interfacePlans_apart : pair.plan.interfaces.Pairwise fun a b => a.id ≠ b.id := by
  obtain ⟨-, hvalid, -⟩ := normal_plan lib h.plan_normal
  obtain ⟨-, -, -, -, -, -, -, -, -, -, -, hinterfaces, -⟩ := validatePlan_eq_ok.mp hvalid
  exact (validateInterfacePlan_apart.checkEach_eq_ok.mp hinterfaces).2

theorem Accepted.actions_apart : pair.plan.actions.Pairwise fun a b => a.id ≠ b.id := by
  obtain ⟨-, hvalid, -⟩ := normal_plan lib h.plan_normal
  obtain ⟨-, -, -, -, -, -, -, -, -, -, -, -, hactions⟩ := validatePlan_eq_ok.mp hvalid
  exact (validateAction_apart.checkEach_eq_ok.mp hactions).2

theorem Accepted.interfaceInputs_inOrder : InOrder (compareOn (·.id)) pair.input.interfaces := by
  have horder := congrArg Input.interfaces (normal_input lib h.input_normal).2.2
  rw [← horder]
  exact lib.sorting.inOrder_sort _ _

theorem Accepted.interfacePlans_inOrder : InOrder (compareOn (·.id)) pair.plan.interfaces := by
  have horder := congrArg Plan.interfaces (normal_plan lib h.plan_normal).2.2
  rw [← horder]
  exact lib.sorting.inOrder_sort _ _

theorem Accepted.actions_inOrder : InOrder compareAction pair.plan.actions := by
  have horder := congrArg Plan.actions (normal_plan lib h.plan_normal).2.2
  rw [← horder]
  exact lib.sorting.inOrder_sort compareAction _

end Accepted

end Clabernetes.Connectivity
