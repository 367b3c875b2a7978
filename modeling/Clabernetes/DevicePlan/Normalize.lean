import Clabernetes.Base.Canonical
import Clabernetes.Base.SortFunc
import Clabernetes.DevicePlan.Validate

/-!
# Normal forms of inputs and plans

`internal/deviceplan/codec.go:22-233,1182-1342`: an input or a plan is copied through JSON, checked,
and its set-like lists are sorted. The canonical JSON is that of the sorted copy.
-/

namespace Clabernetes.DevicePlan

open Base Std

def compareImageInput : ImageInput → ImageInput → Ordering :=
  compareLex (compareOn (·.nodeID)) (compareLex (compareOn (·.role))
    (compareLex (compareOn (·.sourceReference)) (compareOn (·.componentID))))

instance : TransCmp compareImageInput := inferInstanceAs (TransCmp (compareLex _ _))

def compareKeyValue : KeyValue → KeyValue → Ordering := compareOn (·.name)

instance : TransCmp compareKeyValue := inferInstanceAs (TransCmp (compareOn _))

def comparePort : Port → Port → Ordering :=
  compareLex (compareOn (·.number)) (compareOn (·.protocol))

instance : TransCmp comparePort := inferInstanceAs (TransCmp (compareLex _ _))

/-- The permissions are not compared. -/
def compareDevice : Device → Device → Ordering :=
  compareLex (compareOn (·.containerPath)) (compareOn (·.hostPath))

instance : TransCmp compareDevice := inferInstanceAs (TransCmp (compareLex _ _))

def compareRoute : Route → Route → Ordering :=
  compareLex (compareOn (·.destination))
    (compareLex (compareOn (·.gateway)) (compareOn (·.metric)))

instance : TransCmp compareRoute := inferInstanceAs (TransCmp (compareLex _ _))

def actionPhaseRank : ActionPhase → Int
  | .phasePrepare => 0
  | .phasePreStart => 1
  | .phaseInterfaceFixup => 2
  | .phasePostStart => 3
  | .phaseReadiness => 4
  | .phaseSave => 5
  | .phasePostStop => 6
  | .other .. => -1

def compareAction : Action → Action → Ordering :=
  compareLex (compareOn (actionPhaseRank ·.phase))
    (compareLex (compareOn (·.order)) (compareOn (·.id)))

instance : TransCmp compareAction := inferInstanceAs (TransCmp (compareLex _ _))

def compareCertificate : CertificateInput → CertificateInput → Ordering :=
  compareLex (compareOn (·.nodeID)) (compareOn (·.storageName))

instance : TransCmp compareCertificate := inferInstanceAs (TransCmp (compareLex _ _))

/-- `:124-130`; the difference of two valid numbers does not overflow. -/
def compareInboundPort : Port → Port → Ordering :=
  compareLex (compareOn (·.protocol)) (compareOn (·.number))

instance : TransCmp compareInboundPort := inferInstanceAs (TransCmp (compareLex _ _))

/-- `:218-224`: the device port is not compared. -/
def comparePortMap : ManagementPortMap → ManagementPortMap → Ordering :=
  compareLex (compareOn (·.protocol)) (compareOn (·.podPort.toNat))

instance : TransCmp comparePortMap := inferInstanceAs (TransCmp (compareLex _ _))

def NodeInput.plain (lib : TextLibrary) (node : NodeInput) : Option NodeInput :=
  match node.definition with
  | none => some { node with definition := some "null" }
  | some raw => (lib.compact raw).map fun text => { node with definition := some text }

def Input.plain (lib : TextLibrary) (input : Input) : Option Input :=
  (input.nodes.mapM (NodeInput.plain lib)).map fun nodes => { input with nodes }

structure Library extends TextLibrary where
  compact_null : compact "null" = some "null"
  sorting : SortFunc
  Text : Type
  inputCodec : Codec Input Text
  planCodec : Codec Plan Text
  plain_input : inputCodec.plain = Input.plain toTextLibrary
  plain_plan : planCodec.plain = some
  /-- The hexadecimal SHA-256 sum. -/
  sha256 : Text → String

variable (lib : Library)

def normalizeImageConfig (config : ImageConfig) : ImageConfig :=
  { config with
    environment := lib.sorting.sort compareKeyValue config.environment
    labels := lib.sorting.sort compareKeyValue config.labels
    ports := lib.sorting.sort comparePort config.ports
    declaredDirs := lib.sorting.sort compare config.declaredDirs }

def orderImage (image : ImageInput) : ImageInput :=
  { image with
    config := normalizeImageConfig lib image.config
    platform := { image.platform with
      osFeatures := lib.sorting.sort compare image.platform.osFeatures } }

def orderManagementInput (management : ManagementInput) : ManagementInput :=
  { management with
    inboundPorts := lib.sorting.sort compareInboundPort management.inboundPorts }

def orderInput (input : Input) : Input :=
  { input with
    nodes := lib.sorting.sort (compareOn (·.id)) input.nodes
    images := (lib.sorting.sort compareImageInput input.images).map (orderImage lib)
    payloads := lib.sorting.sort (compareOn (·.id)) input.payloads
    certificates := lib.sorting.sort compareCertificate input.certificates
    management := (lib.sorting.sort (compareOn (·.nodeID)) input.management).map
      (orderManagementInput lib)
    interfaces := lib.sorting.sort (compareOn (·.id)) input.interfaces }

def settleInput (input : Input) : Except Error Input :=
  match validateInput lib.toTextLibrary input with
  | .error err => .error err
  | .ok _ => .ok (orderInput lib input)

def cloneInputError : Error := planningError .errorSerialization "input" "cannot clone input"

def normalizeInput : Input → Except Error Input :=
  lib.inputCodec.normalize cloneInputError (settleInput lib)

def Input.canonicalJSON : Input → Except Error lib.Text :=
  lib.inputCodec.canonical cloneInputError
    (planningError .errorSerialization "input" "cannot encode canonical JSON") (settleInput lib)

def decodeInput : lib.Text → Except Error Input :=
  lib.inputCodec.decode cloneInputError
    (planningError .errorSerialization "input" "cannot decode JSON") (settleInput lib)

def digest (raw : lib.Text) : String := "sha256:" ++ lib.sha256 raw

def Input.digest (input : Input) : Except Error String :=
  (input.canonicalJSON lib).map (DevicePlan.digest lib)

def ContainerPlan.withRuntimeID (container : ContainerPlan) : ContainerPlan :=
  { container with
    runtimeID := if container.runtimeID = "" then container.id else container.runtimeID }

def FilePlan.withArtifactKind (file : FilePlan) : FilePlan :=
  { file with artifactKind := file.artifactKind.orRegular }

variable (plan : Plan)

def Plan.withDefaults : Plan :=
  { plan with
    containers := plan.containers.map ContainerPlan.withRuntimeID
    files := plan.files.map FilePlan.withArtifactKind }

def orderNode (node : NodePlan) : NodePlan :=
  { node with
    readinessContainerIDs := lib.sorting.sort compare node.readinessContainerIDs
    aliases := lib.sorting.sort compare node.aliases }

def orderContainer (container : ContainerPlan) : ContainerPlan :=
  { container with
    mountIDs := lib.sorting.sort compare container.mountIDs
    security := { container.security with
      capabilitiesAdd := lib.sorting.sort compare container.security.capabilitiesAdd
      capabilitiesDrop := lib.sorting.sort compare container.security.capabilitiesDrop
      devices := lib.sorting.sort compareDevice container.security.devices
      sysctls := lib.sorting.sort compareKeyValue container.security.sysctls }
    environment := lib.sorting.sort compareKeyValue container.environment
    labels := lib.sorting.sort compareKeyValue container.labels
    ports := lib.sorting.sort comparePort container.ports }

def orderFile (file : FilePlan) : FilePlan :=
  { file with
    fileVariables := lib.sorting.sort compareKeyValue file.fileVariables
    extendedAttributes := lib.sorting.sort (compareOn (·.name)) file.extendedAttributes }

def orderContract (contract : ManagementInterposition) : ManagementInterposition :=
  { contract with
    transportCIDRs := lib.sorting.sort compare contract.transportCIDRs
    inboundPorts := lib.sorting.sort comparePortMap contract.inboundPorts }

def orderManagementPlan (item : ManagementPlan) : ManagementPlan :=
  { item with
    routes := lib.sorting.sort compareRoute item.routes
    interposition := item.interposition.map (orderContract lib) }

def orderPlan : Plan :=
  { plan with
    nodes := (lib.sorting.sort (compareOn (·.id)) plan.nodes).map (orderNode lib)
    containers := (lib.sorting.sort (compareOn (·.id)) plan.containers).map (orderContainer lib)
    files := (lib.sorting.sort (compareOn (·.id)) plan.files).map (orderFile lib)
    volumes := lib.sorting.sort (compareOn (·.id)) plan.volumes
    mounts := lib.sorting.sort (compareOn (·.id)) plan.mounts
    actions := lib.sorting.sort compareAction plan.actions
    management := (lib.sorting.sort (compareOn (·.id)) plan.management).map
      (orderManagementPlan lib)
    interfaces := lib.sorting.sort (compareOn (·.id)) plan.interfaces }

def settlePlan : Except Error Plan :=
  match validatePlan lib.toTextLibrary plan.withDefaults with
  | .error err => .error err
  | .ok _ => .ok (orderPlan lib plan.withDefaults)

def clonePlanError : Error := planningError .errorSerialization "plan" "cannot clone plan"

def normalizePlan : Plan → Except Error Plan :=
  lib.planCodec.normalize clonePlanError (settlePlan lib)

def Plan.canonicalJSON : Plan → Except Error lib.Text :=
  lib.planCodec.canonical clonePlanError
    (planningError .errorSerialization "plan" "cannot encode canonical JSON") (settlePlan lib)

def decodePlan : lib.Text → Except Error Plan :=
  lib.planCodec.decode clonePlanError
    (planningError .errorSerialization "plan" "cannot decode JSON") (settlePlan lib)

def Plan.digest : Except Error String :=
  (plan.canonicalJSON lib).map (DevicePlan.digest lib)

end Clabernetes.DevicePlan
