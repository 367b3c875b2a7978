import Clabernetes.DevicePlan.Validate

/-!
# What validation accepts

Each loop of the validation accepts the sections whose elements pass on their own and are pairwise
apart. The position of an element is in its error only, so that acceptance does not depend on an
order.
-/

namespace Clabernetes.DevicePlan

open Base

variable {lib : TextLibrary} {refs : References} {nodes : String → Bool} {field : String}

def UniqueNames (values : List KeyValue) : Prop :=
  (∀ value ∈ values, value.name ≠ "") ∧ values.Pairwise fun a b => a.name ≠ b.name

@[simp] theorem validateUniqueKeyValues_eq_ok {values : List KeyValue} :
    validateUniqueKeyValues values field = .ok () ↔ UniqueNames values := by
  apply checkEach_eq_ok
  intro before value
  simp

@[simp] theorem hasDuplicates_eq_false {values : List String} :
    hasDuplicates values = false ↔ "" ∉ values ∧ values.Nodup := by
  simp [hasDuplicates]

theorem validateNodeInput_apart :
    ChecksApart (validateNodeInput lib) fun a b => a.id ≠ b.id ∧ a.name ≠ b.name := by
  intro before node
  simp only [validateNodeInput, bind_eq_ok, rejectIf_eq_ok]
  grind

theorem validateGroupOwner_apart : ChecksApart (validateGroupOwner nodes) fun _ _ => True := by
  intro before node
  simp [validateGroupOwner]

theorem validateImageInput_apart :
    ChecksApart (validateImageInput nodes) fun a b => a.key ≠ b.key := by
  intro before image
  simp only [validateImageInput, bind_eq_ok, rejectIf_eq_ok, validateUniqueKeyValues_eq_ok]
  grind

theorem validatePayloadInput_apart :
    ChecksApart (validatePayloadInput nodes) fun a b => a.id ≠ b.id := by
  intro before payload
  simp only [validatePayloadInput, bind_eq_ok, rejectIf_eq_ok]
  grind

theorem validateCertificateInput_apart :
    ChecksApart (validateCertificateInput nodes) fun a b => a.identity ≠ b.identity := by
  intro before certificate
  simp only [validateCertificateInput, bind_eq_ok, rejectIf_eq_ok]
  grind

@[simp] theorem checkEach_validateInboundPort {ports : List Port} :
    checkEach (validateInboundPort lib field) ports = .ok () ↔
      ∀ port ∈ ports, (0 < port.number ∧ port.number ≤ 65535) ∧
        lib.toLower port.protocol ∈ ["", "tcp", "udp"] := by
  apply checkEach_eq_ok_of_forall
  intro before port
  simp only [validateInboundPort, bind_eq_ok, rejectIf_eq_ok]
  grind

def MeshComplete (lib : TextLibrary) (mesh : Option ManagementMesh) : Prop :=
  ∀ value, mesh = some value →
    (0 < value.tunnelID ∧ value.tunnelID ≤ maxVXLANIdentifier) ∧
      lib.parsesMAC value.gatewayMAC = true

@[simp] theorem validateOptionalMesh_eq_ok {mesh : Option ManagementMesh} :
    validateOptionalMesh lib field mesh = .ok () ↔ MeshComplete lib mesh := by
  cases mesh with
  | none => simp [validateOptionalMesh, MeshComplete]
  | some value =>
    simp only [validateOptionalMesh, validateManagementMesh, bind_eq_ok, rejectIf_eq_ok,
      MeshComplete]
    grind

theorem validateManagementInput_apart :
    ChecksApart (validateManagementInput lib nodes) fun a b => a.nodeID ≠ b.nodeID := by
  intro before management
  simp only [validateManagementInput, bind_eq_ok, rejectIf_eq_ok, checkEach_validateInboundPort,
    validateOptionalMesh_eq_ok]
  grind

theorem validateInterfaceInput_apart :
    ChecksApart (validateInterfaceInput nodes) fun a b => a.id ≠ b.id := by
  intro before intf
  simp only [validateInterfaceInput, bind_eq_ok, rejectIf_eq_ok]
  grind

def Input.HeaderComplete (input : Input) : Prop :=
  validateHeader input.schemaVersion input.compatibility = .ok () ∧
    blank input.topologyName = false ∧
    (input.entropyDigest ≠ "" → validDigest input.entropyDigest = true)

theorem validateInput_eq_ok {input : Input} : validateInput lib input = .ok () ↔
      input.HeaderComplete ∧ input.nodes ≠ [] ∧
      checkEach (validateNodeInput lib) input.nodes = .ok () ∧
      checkEach (validateGroupOwner input.knows) input.nodes = .ok () ∧
      checkEach (validateImageInput input.knows) input.images = .ok () ∧
      checkEach (validatePayloadInput input.knows) input.payloads = .ok () ∧
      checkEach (validateCertificateInput input.knows) input.certificates = .ok () ∧
      checkEach (validateManagementInput lib input.knows) input.management = .ok () ∧
      checkEach (validateInterfaceInput input.knows) input.interfaces = .ok () := by
  simp only [validateInput, bind_eq_ok, rejectIf_eq_ok, Input.HeaderComplete]
  grind

theorem validateNodePlan_apart : ChecksApart validateNodePlan fun a b => a.id ≠ b.id := by
  intro before node
  simp only [validateNodePlan, bind_eq_ok, rejectIf_eq_ok]
  grind

@[simp] theorem checkEach_validateContainerPort {ports : List Port} :
    checkEach (validateContainerPort field) ports = .ok () ↔
      (∀ port ∈ ports, (1 ≤ port.number ∧ port.number ≤ 65535) ∧
        (port.protocol = "TCP" ∨ port.protocol = "UDP")) ∧ ports.Pairwise (· ≠ ·) := by
  apply checkEach_eq_ok
  intro before port
  have hport : ∀ a : Port, a.number = port.number ∧ a.protocol = port.protocol ↔ a = port := by
    intro a
    cases a
    cases port
    simp
  simp only [validateContainerPort, bind_eq_ok, rejectIf_eq_ok, hport]
  grind

theorem validateContainerPlan_apart : ChecksApart (validateContainerPlan refs) fun a b =>
      a.id ≠ b.id ∧ a.runtimeID ≠ b.runtimeID := by
  intro before container
  simp only [validateContainerPlan, bind_eq_ok, rejectIf_eq_ok, validateUniqueKeyValues_eq_ok,
    checkEach_validateContainerPort]
  grind

theorem validateNamespaceOwner_apart :
    ChecksApart (validateNamespaceOwner refs) fun _ _ => True := by
  intro before container
  simp [validateNamespaceOwner]

theorem validateNodeContainers_apart :
    ChecksApart (validateNodeContainers refs) fun _ _ => True := by
  intro before node
  simp [validateNodeContainers]

def ArtifactComplete (file : FilePlan) : Prop :=
  match file.artifactKind.orRegular with
  | .artifactSymlink =>
    file.prepared = true ∧ file.linkTarget ≠ "" ∧
      file.linkTarget.utf8ByteSize ≤ maxGeneratedSymlinkTargetBytes ∧
      '\x00' ∉ file.linkTarget.toList ∧ file.mode = 0
  | .artifactDirectory =>
    file.prepared = true ∧ file.linkTarget = "" ∧ file.digest = "" ∧ file.destination = ""
  | _ => file.linkTarget = ""

@[simp] theorem validateArtifact_eq_ok {file : FilePlan} :
    validateArtifact field file = .ok () ↔ ArtifactComplete file := by
  unfold validateArtifact ArtifactComplete
  cases file.artifactKind.orRegular <;> simp

@[simp] theorem checkEach_validateExtendedAttribute {extended : List ExtendedAttribute} :
    checkEach (validateExtendedAttribute field) extended = .ok () ↔
      (∀ value ∈ extended, value.name ≠ "" ∧ value.name.utf8ByteSize ≤ 255 ∧
        '\x00' ∉ value.name.toList ∧ validDigest value.digest = true) ∧
      extended.Pairwise fun a b => a.name ≠ b.name := by
  apply checkEach_eq_ok
  intro before value
  simp only [validateExtendedAttribute, rejectIf_eq_ok]
  grind

theorem validateFilePlan_apart :
    ChecksApart (validateFilePlan lib refs) fun a b => a.id ≠ b.id := by
  intro before file
  simp only [validateFilePlan, bind_eq_ok, rejectIf_eq_ok, validateArtifact_eq_ok,
    checkEach_validateExtendedAttribute, validateUniqueKeyValues_eq_ok]
  grind

theorem validateVolumePlan_apart :
    ChecksApart (validateVolumePlan refs) fun a b => a.id ≠ b.id := by
  intro before volume
  simp only [validateVolumePlan, bind_eq_ok, rejectIf_eq_ok]
  grind

theorem validateMountPlan_apart :
    ChecksApart (validateMountPlan lib refs) fun a b => a.id ≠ b.id := by
  intro before mount
  simp only [validateMountPlan, bind_eq_ok, rejectIf_eq_ok]
  grind

theorem validateContainerMounts_apart :
    ChecksApart (validateContainerMounts refs) fun _ _ => True := by
  intro before container
  simp [validateContainerMounts]

def InterpositionComplete (lib : TextLibrary) (item : ManagementPlan) : Prop :=
  if item.interfaceSelector = .managementInterfaceInterposed then
    ∃ contract, item.interposition = some contract ∧ contract.deviceInterface ≠ "" ∧
      contract.deviceInterface.utf8ByteSize < 16 ∧ item.ipv4 ≠ "" ∧ item.ipv4Gateway ≠ "" ∧
      (contract.deviceMAC ≠ "" → lib.parsesMAC contract.deviceMAC = true) ∧
      (∀ cidr ∈ contract.transportCIDRs, lib.parsesPrefix cidr = true) ∧
      (∀ port ∈ contract.inboundPorts, (port.protocol = "tcp" ∨ port.protocol = "udp") ∧
        port.podPort ≠ 0 ∧ port.devicePort ≠ 0) ∧
      MeshComplete lib contract.mesh
  else item.interposition = none

@[simp] theorem validateManagementInterposition_eq_ok {item : ManagementPlan} :
    validateManagementInterposition lib field item = .ok () ↔ InterpositionComplete lib item := by
  unfold validateManagementInterposition InterpositionComplete
  by_cases hselector : item.interfaceSelector = .managementInterfaceInterposed
  · rw [if_neg (not_not.mpr hselector), if_pos hselector]
    cases item.interposition with
    | none => simp
    | some contract =>
      simp only [bind_eq_ok, rejectIf_eq_ok, checkEach_rejectIf, validateOptionalMesh_eq_ok,
        Option.some.injEq, exists_eq_left']
      grind
  · rw [if_pos hselector, if_neg hselector]
    simp

theorem validateManagementPlan_apart : ChecksApart (validateManagementPlan lib refs) fun a b =>
      a.id ≠ b.id ∧ a.nodeID ≠ b.nodeID := by
  intro before item
  simp only [validateManagementPlan, bind_eq_ok, rejectIf_eq_ok,
    validateManagementInterposition_eq_ok]
  grind

theorem validateInterfacePlan_apart :
    ChecksApart (validateInterfacePlan refs) fun a b => a.id ≠ b.id := by
  intro before intf
  simp only [validateInterfacePlan, bind_eq_ok, rejectIf_eq_ok]
  grind

@[simp] theorem validateActionPayload_eq_ok {action : Action} :
    validateActionPayload lib refs action field = .ok () ↔
      action.payloads = 1 ∧ validPayload lib refs action = true := by
  simp only [validateActionPayload, bind_eq_ok, rejectIf_eq_ok]
  cases hkind : action.kind with
  | other text unknown => simp [validPayload, hkind]
  | _ => simp

theorem validateAction_apart : ChecksApart (validateAction lib refs) fun a b => a.id ≠ b.id := by
  intro before action
  simp only [validateAction, bind_eq_ok, rejectIf_eq_ok, validateActionPayload_eq_ok]
  grind

def Plan.HeaderComplete (plan : Plan) : Prop :=
  validateHeader plan.schemaVersion plan.compatibility = .ok () ∧
    validDigest plan.inputDigest = true ∧ plan.planner.name ≠ "" ∧ plan.planner.revision ≠ ""

theorem validatePlan_eq_ok {plan : Plan} : validatePlan lib plan = .ok () ↔
      plan.HeaderComplete ∧ (plan.nodes ≠ [] ∧ plan.containers ≠ []) ∧
      checkEach validateNodePlan plan.nodes = .ok () ∧
      checkEach (validateContainerPlan plan.references) plan.containers = .ok () ∧
      checkEach (validateNamespaceOwner plan.references) plan.containers = .ok () ∧
      checkEach (validateNodeContainers plan.references) plan.nodes = .ok () ∧
      checkEach (validateFilePlan lib plan.references) plan.files = .ok () ∧
      checkEach (validateVolumePlan plan.references) plan.volumes = .ok () ∧
      checkEach (validateMountPlan lib plan.references) plan.mounts = .ok () ∧
      checkEach (validateContainerMounts plan.references) plan.containers = .ok () ∧
      checkEach (validateManagementPlan lib plan.references) plan.management = .ok () ∧
      checkEach (validateInterfacePlan plan.references) plan.interfaces = .ok () ∧
      checkEach (validateAction lib plan.references) plan.actions = .ok () := by
  simp only [validatePlan, bind_eq_ok, rejectIf_eq_ok, Plan.HeaderComplete]
  grind

end Clabernetes.DevicePlan
