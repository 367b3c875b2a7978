import Mathlib.Algebra.Group.Int.Defs
import Clabernetes.Base.Checks
import Clabernetes.DevicePlan.Types

/-!
# Validation of inputs and plans

`internal/deviceplan/codec.go:235-1180,1344-1444`. Validation stops at its first error, which names
the field. A map of the identities seen so far is the list of the earlier elements; the maps of a
whole section are `References`.
-/

namespace Clabernetes.DevicePlan

open Base

structure TextLibrary where
  /-- The compact form in which `json.Marshal` writes a raw message; none if it is not JSON. -/
  compact : String → Option String
  compact_compact : ∀ raw text, compact raw = some text → compact text = some text
  /-- `strings.ToLower`. -/
  toLower : String → String
  /-- `strings.EqualFold`. -/
  equalFold : String → String → Bool
  /-- `path.Clean`. -/
  cleanPath : String → String
  /-- Whether `net.ParseMAC` accepts a text. -/
  parsesMAC : String → Bool
  /-- Whether `netip.ParsePrefix` accepts a text. -/
  parsesPrefix : String → Bool

def indexed (name : String) (index : Nat) : String := name ++ "[" ++ toString index ++ "]"

def isSpace (c : Char) : Bool :=
  c.toNat ∈ [0x09, 0x0a, 0x0b, 0x0c, 0x0d, 0x20, 0x85, 0xa0, 0x1680, 0x2028, 0x2029, 0x202f, 0x205f,
    0x3000] || (0x2000 ≤ c.toNat && c.toNat ≤ 0x200a)

def blank (text : String) : Bool := text.toList.all isSpace

def isAbs (path : String) : Bool := path.toList.head? = some '/'

def isHexDigit (c : Char) : Bool := c.isDigit || ('a' ≤ c && c ≤ 'f') || ('A' ≤ c && c ≤ 'F')

def validDigest (value : String) : Bool :=
  value.utf8ByteSize = 71 && "sha256:".toList.isPrefixOf value.toList &&
    (value.toList.drop 7).all isHexDigit

def validPortableOwnership (value : Option Int) : Bool :=
  value.all fun value => 0 ≤ value && value < 2 ^ 31

def validateHeader (schema : String) (compatibility : Compatibility) : Except Error Unit := do
  rejectIf (schema ≠ schemaVersion)
    (planningError .errorInvalidInput "schemaVersion" "unsupported schema version")
  rejectIf (compatibility.containerlabModule = "" ∨ compatibility.containerlabVersion = "" ∨
      validDigest compatibility.registryDigest = false ∨
      compatibility.planSchemaVersion ≠ schemaVersion)
    (planningError .errorInvalidInput "compatibility" "compatibility identity is incomplete")

def validateUniqueKeyValues (values : List KeyValue) (field : String) : Except Error Unit :=
  checkEach (fun before value =>
    rejectIf (value.name = "" ∨ ∃ earlier ∈ before, earlier.name = value.name)
      (planningError .errorInvalidInput field "key names must be non-empty and unique")) values

def hasDuplicates (values : List String) : Bool := "" ∈ values || !decide values.Nodup

def maxVXLANIdentifier : Int := 2 ^ 24 - 1

def validPayloadKind (kind : PayloadKind) : Bool :=
  kind ∈ [.payloadConfigMap, .payloadSecret, .payloadURL, .payloadInline]

def validFileSourceKind (kind : FileSourceKind) : Bool :=
  kind ∈ [.fileSourcePayload, .fileSourceGenerator, .fileSourceCertificate, .fileSourceEmpty]

def validVolumeKind (kind : VolumeKind) : Bool :=
  kind ∈ [.volumeArtifacts, .volumeEmptyDir, .volumeConfigMap, .volumeSecret, .volumePersistent,
    .volumeDevice]

def validActionPhase (phase : ActionPhase) : Bool :=
  phase ∈ [.phasePrepare, .phasePreStart, .phaseInterfaceFixup, .phasePostStart, .phaseReadiness,
    .phaseSave, .phasePostStop]

def validLinkApplyMode (mode : LinkApplyMode) : Bool :=
  mode ∈ [.linkApplyLive, .linkApplyRestart, .linkApplyRecreate]

section

variable (lib : TextLibrary)

def validJSON (raw : Option String) : Bool := raw.any fun text => (lib.compact text).isSome

variable (field : String)

def validateManagementMesh (mesh : ManagementMesh) : Except Error Unit := do
  rejectIf (mesh.tunnelID ≤ 0 ∨ maxVXLANIdentifier < mesh.tunnelID)
    (planningError .errorInvalidInput (field ++ ".tunnelID") "mesh tunnel ID is invalid")
  rejectIf (lib.parsesMAC mesh.gatewayMAC = false)
    (planningError .errorInvalidInput (field ++ ".gatewayMAC") "gateway MAC is invalid")

def validateOptionalMesh : Option ManagementMesh → Except Error Unit
  | none => .ok ()
  | some mesh => validateManagementMesh lib field mesh

def Input.knows (input : Input) (id : String) : Bool := input.nodes.any (·.id = id)

def validateNodeInput (before : List NodeInput) (node : NodeInput) : Except Error Unit := do
  let field := indexed "nodes" before.length
  rejectIf (node.id = "" ∨ node.name = "" ∨ node.kind = "")
    (planningError .errorInvalidInput field "id, name, and kind are required")
  rejectIf (∃ earlier ∈ before, earlier.id = node.id ∨ earlier.name = node.name)
    (planningError .errorInvalidInput field "Node identity is duplicated")
  rejectIf (validJSON lib node.definition = false)
    (planningError .errorInvalidInput (field ++ ".definition") "must be valid JSON")

variable (nodes : String → Bool)

def validateGroupOwner (before : List NodeInput) (node : NodeInput) : Except Error Unit :=
  rejectIf (node.groupOwner ≠ "" ∧ nodes node.groupOwner = false)
    (planningError .errorMissingInput (indexed "nodes" before.length ++ ".groupOwner")
      "references an unknown Node")

def ImageInput.key (image : ImageInput) : String :=
  image.nodeID ++ "\x00" ++ if image.role = "" then image.sourceReference else image.role

def validateImageInput (before : List ImageInput) (image : ImageInput) : Except Error Unit := do
  let field := indexed "images" before.length
  rejectIf (nodes image.nodeID = false)
    (planningError .errorMissingInput (field ++ ".nodeID") "references an unknown Node")
  rejectIf (∃ earlier ∈ before, earlier.key = image.key)
    (planningError .errorInvalidInput field "image identity is duplicated")
  rejectIf (image.sourceReference = "" ∨ image.digestReference = "" ∨ image.platform.os = "" ∨
      image.platform.architecture = "")
    (planningError .errorMissingInput field
      "source, digest, operating system, and architecture are required")
  validateUniqueKeyValues image.config.environment (field ++ ".config.environment")
  validateUniqueKeyValues image.config.labels (field ++ ".config.labels")

def validatePayloadInput (before : List PayloadInput)
    (payload : PayloadInput) : Except Error Unit := do
  let field := indexed "payloads" before.length
  rejectIf (payload.id = "" ∨ payload.destination = "" ∨ nodes payload.nodeID = false)
    (planningError .errorInvalidInput field "id, known Node, and destination are required")
  rejectIf (∃ earlier ∈ before, earlier.id = payload.id)
    (planningError .errorInvalidInput (field ++ ".id") "payload ID is duplicated")
  rejectIf (validPayloadKind payload.kind = false)
    (planningError .errorUnsupported (field ++ ".kind") "payload kind is unsupported")
  rejectIf (payload.reference = "" ∨ payload.kind = .payloadInline ∧ payload.digest = "")
    (planningError .errorMissingInput field "payload identity is incomplete")

def CertificateInput.identity (certificate : CertificateInput) : String :=
  certificate.nodeID ++ "\x00" ++ certificate.storageName

def validateCertificateInput (before : List CertificateInput)
    (certificate : CertificateInput) : Except Error Unit := do
  let field := indexed "certificates" before.length
  rejectIf (nodes certificate.nodeID = false)
    (planningError .errorMissingInput (field ++ ".nodeID") "references an unknown Node")
  rejectIf (blank certificate.storageName = true ∨
      validDigest certificate.certificateDigest = false ∨
      validDigest certificate.privateKeyDigest = false ∨
      validDigest certificate.caCertificateDigest = false ∨
      validDigest certificate.caPrivateKeyDigest = false)
    (planningError .errorInvalidInput field
      "certificate storage identity and material digests are required")
  rejectIf (∃ earlier ∈ before, earlier.identity = certificate.identity)
    (planningError .errorInvalidInput field "certificate storage identity is duplicated")

def validateInboundPort (before : List Port) (port : Port) : Except Error Unit := do
  let portField := indexed (field ++ ".inboundPorts") before.length
  rejectIf (port.number ≤ 0 ∨ 65535 < port.number)
    (planningError .errorInvalidInput portField "port number is invalid")
  rejectIf (lib.toLower port.protocol ∉ ["", "tcp", "udp"])
    (planningError .errorInvalidInput portField "port protocol is invalid")

def validateManagementInput (before : List ManagementInput)
    (management : ManagementInput) : Except Error Unit := do
  let field := indexed "management" before.length
  rejectIf (nodes management.nodeID = false)
    (planningError .errorInvalidInput field "known Node is required")
  rejectIf (management.interfaceName = "" ∧ management.ipv4 = "" ∧ management.ipv4Gateway = "" ∧
      management.ipv6 = "" ∧ management.ipv6Gateway = "" ∧ management.dns.servers = [] ∧
      management.dns.search = [] ∧ management.dns.options = [])
    (planningError .errorInvalidInput field "management intent is empty")
  rejectIf (∃ earlier ∈ before, earlier.nodeID = management.nodeID)
    (planningError .errorInvalidInput field "Node management input is duplicated")
  checkEach (validateInboundPort lib field) management.inboundPorts
  validateOptionalMesh lib (field ++ ".mesh") management.mesh

def validateInterfaceInput (before : List InterfaceInput)
    (intf : InterfaceInput) : Except Error Unit := do
  let field := indexed "interfaces" before.length
  rejectIf (intf.id = "" ∨ nodes intf.nodeID = false ∨ intf.name = "" ∨ intf.linkID = "" ∨
      intf.connectivity = "" ∨ intf.wireID < 0 ∨ intf.mtu < 0)
    (planningError .errorInvalidInput field "interface input is incomplete")
  rejectIf (∃ earlier ∈ before, earlier.id = intf.id)
    (planningError .errorInvalidInput (field ++ ".id") "interface ID is duplicated")

def validateInput (input : Input) : Except Error Unit := do
  validateHeader input.schemaVersion input.compatibility
  rejectIf (blank input.topologyName = true)
    (planningError .errorMissingInput "topologyName" "topology name is required")
  rejectIf (input.entropyDigest ≠ "" ∧ validDigest input.entropyDigest = false)
    (planningError .errorInvalidInput "entropyDigest" "must be a sha256 digest")
  rejectIf (input.nodes = [])
    (planningError .errorMissingInput "nodes" "at least one Node is required")
  checkEach (validateNodeInput lib) input.nodes
  checkEach (validateGroupOwner input.knows) input.nodes
  checkEach (validateImageInput input.knows) input.images
  checkEach (validatePayloadInput input.knows) input.payloads
  checkEach (validateCertificateInput input.knows) input.certificates
  checkEach (validateManagementInput lib input.knows) input.management
  checkEach (validateInterfaceInput input.knows) input.interfaces

structure References where
  node : String → Bool
  /-- The Node of a container. -/
  container : String → Option String
  /-- The kind of a file's artifact. -/
  file : String → Option ArtifactKind
  volume : String → Option VolumePlan
  mount : String → Option MountPlan
  management : String → Bool
  interface : String → Bool

def Plan.references (plan : Plan) : References where
  node id := plan.nodes.any (·.id = id)
  container id := (plan.containers.find? (·.id = id)).map (·.nodeID)
  file id := (plan.files.find? (·.id = id)).map (·.artifactKind)
  volume id := plan.volumes.find? (·.id = id)
  mount id := plan.mounts.find? (·.id = id)
  management id := plan.management.any (·.id = id)
  interface id := plan.interfaces.any (·.id = id)

variable (refs : References)

def validateNodePlan (before : List NodePlan) (node : NodePlan) : Except Error Unit := do
  let field := indexed "nodes" before.length
  rejectIf (node.id = "" ∨ node.name = "" ∨ node.kind = "" ∨ node.containerIDs = [] ∨
      node.readinessContainerIDs = [])
    (planningError .errorInvalidInput field "logical Node plan is incomplete")
  rejectIf (∃ earlier ∈ before, earlier.id = node.id)
    (planningError .errorInvariant (field ++ ".id") "Node ID is duplicated")
  rejectIf (hasDuplicates node.containerIDs = true ∨
      hasDuplicates node.readinessContainerIDs = true)
    (planningError .errorInvariant field "container references are duplicated")

def validateContainerPort (before : List Port) (port : Port) : Except Error Unit := do
  let portField := indexed (field ++ ".ports") before.length
  rejectIf (port.number < 1 ∨ 65535 < port.number ∨
      (port.protocol ≠ "TCP" ∧ port.protocol ≠ "UDP"))
    (planningError .errorInvalidInput portField "port number or protocol is invalid")
  rejectIf (∃ earlier ∈ before, earlier.number = port.number ∧ earlier.protocol = port.protocol)
    (planningError .errorInvariant portField "container port is duplicated")

variable (before : List ContainerPlan)

def validateContainerPlan (container : ContainerPlan) : Except Error Unit := do
  let field := indexed "containers" before.length
  rejectIf (container.id = "" ∨ container.runtimeID = "" ∨ container.image = "" ∨
      container.namespaceOwnerID = "")
    (planningError .errorInvalidInput field "container identity and image are required")
  rejectIf (container.imageDigest ≠ "" ∧ validDigest container.imageDigest = false)
    (planningError .errorInvalidInput (field ++ ".imageDigest")
      "image digest must be a sha256 digest")
  rejectIf (refs.node container.nodeID = false)
    (planningError .errorInvariant (field ++ ".nodeID") "references an unknown Node")
  rejectIf (∃ earlier ∈ before, earlier.id = container.id)
    (planningError .errorInvariant (field ++ ".id") "container ID is duplicated")
  rejectIf (∃ earlier ∈ before, earlier.runtimeID = container.runtimeID)
    (planningError .errorInvariant (field ++ ".runtimeID") "runtime ID is duplicated")
  validateUniqueKeyValues container.environment (field ++ ".environment")
  validateUniqueKeyValues container.labels (field ++ ".labels")
  validateUniqueKeyValues container.security.sysctls (field ++ ".security.sysctls")
  checkEach (validateContainerPort field) container.ports

def validateNamespaceOwner (container : ContainerPlan) : Except Error Unit :=
  rejectIf (refs.container container.namespaceOwnerID = none)
    (planningError .errorInvariant (indexed "containers" before.length ++ ".namespaceOwnerID")
      "references an unknown container")

def validateNodeContainers (before : List NodePlan) (node : NodePlan) : Except Error Unit := do
  let field := indexed "nodes" before.length
  checkEach (fun _ containerID =>
    rejectIf (refs.container containerID ≠ some node.id)
      (planningError .errorInvariant (field ++ ".containerIDs")
        "references a missing or foreign container"))
    (node.containerIDs ++ node.readinessContainerIDs)
  checkEach (fun _ containerID =>
    rejectIf (containerID ∉ node.containerIDs)
      (planningError .errorInvariant (field ++ ".readinessContainerIDs")
        "references a container outside the Node component inventory"))
    node.readinessContainerIDs

def ArtifactKind.orRegular (kind : ArtifactKind) : ArtifactKind :=
  if kind = .other "" (by decide) then .artifactRegular else kind

def maxGeneratedSymlinkTargetBytes : Nat := 4096

def FilePlan.prepared (file : FilePlan) : Bool :=
  file.sourceKind = .fileSourceGenerator || file.sourceKind = .fileSourceCertificate

def validateArtifact (file : FilePlan) : Except Error Unit :=
  match file.artifactKind.orRegular with
  | .artifactSymlink =>
    rejectIf (file.prepared = false ∨ file.linkTarget = "" ∨
        maxGeneratedSymlinkTargetBytes < file.linkTarget.utf8ByteSize ∨
        '\x00' ∈ file.linkTarget.toList ∨ file.mode ≠ 0)
      (planningError .errorInvalidInput field "symbolic-link plan is incomplete")
  | .artifactDirectory =>
    rejectIf (file.prepared = false ∨ file.linkTarget ≠ "" ∨ file.digest ≠ "" ∨
        file.destination ≠ "")
      (planningError .errorInvalidInput field "directory plan is incomplete")
  | _ =>
    rejectIf (file.linkTarget ≠ "")
      (planningError .errorInvalidInput field "regular artifact has a link target")

def validateExtendedAttribute (before : List ExtendedAttribute)
    (extended : ExtendedAttribute) : Except Error Unit :=
  rejectIf (extended.name = "" ∨ 255 < extended.name.utf8ByteSize ∨
      '\x00' ∈ extended.name.toList ∨ validDigest extended.digest = false ∨
      ∃ earlier ∈ before, earlier.name = extended.name)
    (planningError .errorInvalidInput
      (indexed (field ++ ".extendedAttributes") before.length)
      "extended attribute metadata is invalid")

def validateFilePlan (before : List FilePlan) (file : FilePlan) : Except Error Unit := do
  let field := indexed "files" before.length
  let artifactPath := lib.cleanPath file.artifactPath
  rejectIf (file.id = "" ∨ validFileSourceKind file.sourceKind = false ∨
      file.artifactKind.orRegular ∉ [.artifactRegular, .artifactSymlink, .artifactDirectory] ∨
      file.artifactPath = "" ∨ isAbs file.artifactPath = true ∨
      (artifactPath = "." ∧ file.artifactKind.orRegular ≠ .artifactDirectory) ∨
      "../".toList.isPrefixOf artifactPath.toList = true ∨
      (file.destination ≠ "" ∧ isAbs file.destination = false) ∨ 0o777 < file.mode ∨
      validPortableOwnership file.uid = false ∨ validPortableOwnership file.gid = false)
    (planningError .errorInvalidInput field "file plan is incomplete")
  validateArtifact field file
  rejectIf (128 < file.extendedAttributes.length ∨
      (file.extendedAttributes ≠ [] ∧ file.prepared = false))
    (planningError .errorInvalidInput field "artifact metadata is invalid")
  checkEach (validateExtendedAttribute field) file.extendedAttributes
  rejectIf (file.sourceKind = .fileSourcePayload ∧ file.destination = "")
    (planningError .errorInvalidInput field "payload destination is required")
  rejectIf (file.digest ≠ "" ∧ validDigest file.digest = false)
    (planningError .errorInvalidInput (field ++ ".digest") "file digest is invalid")
  rejectIf (¬(file.sourceKind = .fileSourceEmpty ↔ file.sourceReference = ""))
    (planningError .errorInvalidInput field "file source identity is invalid")
  validateUniqueKeyValues file.fileVariables (field ++ ".variables")
  rejectIf (refs.node file.nodeID = false)
    (planningError .errorInvariant (field ++ ".nodeID") "references an unknown Node")
  rejectIf (∃ earlier ∈ before, earlier.id = file.id)
    (planningError .errorInvariant (field ++ ".id") "file ID is duplicated")

def validateVolumePlan (before : List VolumePlan) (volume : VolumePlan) : Except Error Unit := do
  let field := indexed "volumes" before.length
  rejectIf (volume.id = "" ∨ validVolumeKind volume.kind = false)
    (planningError .errorInvalidInput field "volume ID or kind is invalid")
  rejectIf (refs.node volume.nodeID = false)
    (planningError .errorInvariant (field ++ ".nodeID") "references an unknown Node")
  rejectIf (∃ earlier ∈ before, earlier.id = volume.id)
    (planningError .errorInvariant (field ++ ".id") "volume ID is duplicated")

def validateMountPlan (before : List MountPlan) (mount : MountPlan) : Except Error Unit := do
  let field := indexed "mounts" before.length
  rejectIf (mount.id = "" ∨ mount.destination = "" ∨ isAbs mount.destination = false ∨
      lib.cleanPath mount.destination ≠ mount.destination)
    (planningError .errorInvalidInput field "mount ID and destination are required")
  rejectIf (refs.container mount.containerID = none)
    (planningError .errorInvariant (field ++ ".containerID") "references an unknown container")
  rejectIf (refs.volume mount.volumeID = none)
    (planningError .errorInvariant (field ++ ".volumeID") "references an unknown volume")
  rejectIf (∃ earlier ∈ before, earlier.id = mount.id)
    (planningError .errorInvariant (field ++ ".id") "mount ID is duplicated")

def validateContainerMounts (container : ContainerPlan) : Except Error Unit :=
  checkEach (fun _ mountID =>
    rejectIf ((refs.mount mountID).map (·.containerID) ≠ some container.id)
      (planningError .errorInvariant (indexed "containers" before.length ++ ".mountIDs")
        "references a missing or foreign mount"))
    container.mountIDs

def validateManagementInterposition (item : ManagementPlan) : Except Error Unit :=
  if item.interfaceSelector ≠ .managementInterfaceInterposed then
    rejectIf (item.interposition.isSome = true)
      (planningError .errorInvalidInput (field ++ ".interposition")
        "interposition contract requires the Interposed selector")
  else
    let noInterface := planningError .errorInvalidInput (field ++ ".interposition")
      "interposed management requires a valid device interface"
    match item.interposition with
    | none => .error noInterface
    | some contract => do
      rejectIf (contract.deviceInterface = "" ∨ 16 ≤ contract.deviceInterface.utf8ByteSize)
        noInterface
      rejectIf (item.ipv4 = "" ∨ item.ipv4Gateway = "")
        (planningError .errorInvalidInput (field ++ ".interposition")
          "interposed management requires an allocated IPv4 identity and gateway")
      rejectIf (contract.deviceMAC ≠ "" ∧ lib.parsesMAC contract.deviceMAC = false)
        (planningError .errorInvalidInput (field ++ ".interposition.deviceMAC")
          "device MAC is invalid")
      checkEach (fun _ cidr =>
        rejectIf (lib.parsesPrefix cidr = false)
          (planningError .errorInvalidInput (field ++ ".interposition.transportCIDRs")
            "transport CIDR is invalid")) contract.transportCIDRs
      checkEach (fun _ port =>
        rejectIf ((port.protocol ≠ "tcp" ∧ port.protocol ≠ "udp") ∨ port.podPort = 0 ∨
            port.devicePort = 0)
          (planningError .errorInvalidInput (field ++ ".interposition.inboundPorts")
            "inbound port map is invalid")) contract.inboundPorts
      validateOptionalMesh lib (field ++ ".interposition.mesh") contract.mesh

def validateManagementPlan (before : List ManagementPlan) (item : ManagementPlan) :
    Except Error Unit := do
  let field := indexed "management" before.length
  let unset : ManagementInterfaceSelector := .other "" (by decide)
  rejectIf (item.id = "" ∨ (item.interfaceName = "" ∧ item.interfaceSelector = unset) ∨
      (item.interfaceName ≠ "" ∧ item.interfaceSelector ≠ unset) ∨
      item.interfaceSelector ∉
        [unset, .managementInterfacePodTransport, .managementInterfaceInterposed])
    (planningError .errorInvalidInput field "management plan is incomplete")
  validateManagementInterposition lib field item
  rejectIf (refs.node item.nodeID = false ∨ ∃ earlier ∈ before, earlier.nodeID = item.nodeID)
    (planningError .errorInvariant (field ++ ".nodeID") "Node is unknown or duplicated")
  rejectIf (∃ earlier ∈ before, earlier.id = item.id)
    (planningError .errorInvariant (field ++ ".id") "management ID is duplicated")

def validateInterfacePlan (before : List InterfacePlan) (intf : InterfacePlan) :
    Except Error Unit := do
  let field := indexed "interfaces" before.length
  rejectIf (intf.id = "" ∨ intf.name = "" ∨ intf.namespaceOwnerID = "" ∨ intf.linkID = "" ∨
      intf.connectivity = "" ∨ intf.wireID < 0 ∨ intf.mtu < 0 ∨
      validLinkApplyMode intf.linkApplyMode = false)
    (planningError .errorInvalidInput field "interface plan is incomplete")
  rejectIf (refs.node intf.nodeID = false)
    (planningError .errorInvariant (field ++ ".nodeID") "references an unknown Node")
  rejectIf (refs.container intf.namespaceOwnerID = none)
    (planningError .errorInvariant (field ++ ".namespaceOwnerID")
      "references an unknown container")
  rejectIf (∃ earlier ∈ before, earlier.id = intf.id)
    (planningError .errorInvariant (field ++ ".id") "interface ID is duplicated")

def valueOrEmpty {α : Type} (value : Option α) (get : α → String) : String :=
  (value.map get).getD ""

def filesystemTmpfs : String := "tmpfs"

variable (action : Action)

def Action.payloads : Nat :=
  [action.exec.isSome, action.file.isSome, action.writeStdin.isSome, action.mount.isSome,
    action.sysctl.isSome, action.waitInterface.isSome, action.renameInterface.isSome,
    action.managementForwarding.isSome, action.importedDeployEndpoints.isSome,
    action.importedPostDeploy.isSome, action.importedReadiness.isSome,
    action.save.isSome].count true

def References.regularFile (id : String) : Bool := refs.file id = some .artifactRegular

def validMountAction : Bool :=
  match refs.mount (valueOrEmpty action.mount (·.mountID)) with
  | none => false
  | some mount =>
    (refs.volume mount.volumeID).any (fun volume =>
      volume.kind = .volumeEmptyDir && lib.equalFold volume.medium "Memory") &&
    action.mount.any (fun value =>
      value.filesystem = filesystemTmpfs && value.source = filesystemTmpfs &&
        value.options.all fun option =>
          option ≠ "" && option.toList.all fun c => c ∉ ['\x00', '\n', '\r']) &&
    action.phase = .phasePreStart && action.target.containerID = mount.containerID

def validFileAction : Bool :=
  match refs.file (valueOrEmpty action.file (·.fileID)) with
  | none => false
  | some artifactKind =>
    action.file.any fun value =>
      value.writeMode ∈ [.other "" (by decide), .fileWriteReplace, .fileWriteAppend] &&
        (action.phase ≠ .phasePostStart ||
          (value.destination ≠ "" && artifactKind = .artifactRegular))

def validPayload : Bool :=
  match action.kind with
  | .actionExec => action.exec.any fun value => value.command ≠ []
  | .actionFile => validFileAction refs action
  | .actionWriteStdin => refs.regularFile (valueOrEmpty action.writeStdin (·.fileID))
  | .actionMount => validMountAction lib refs action
  | .actionSysctl => action.sysctl.any fun value => value.name ≠ ""
  | .actionWaitInterface =>
    refs.interface (valueOrEmpty action.waitInterface (·.interfaceID)) &&
      action.waitInterface.any fun value => 0 < value.timeoutSeconds
  | .actionRenameInterface =>
    refs.interface (valueOrEmpty action.renameInterface (·.interfaceID)) &&
      action.renameInterface.any fun value => value.fromName ≠ "" && value.toName ≠ ""
  | .actionManagementForwarding =>
    refs.management (valueOrEmpty action.managementForwarding (·.managementID))
  | .actionImportedDeployEndpoints =>
    action.importedDeployEndpoints.isSome && action.phase = .phaseInterfaceFixup &&
      action.target.containerID ≠ "" && action.target.namespaceOwnerID ≠ ""
  | .actionImportedPostDeploy =>
    action.importedPostDeploy.isSome && action.phase = .phasePostStart &&
      action.target.containerID ≠ ""
  | .actionImportedReadiness =>
    action.importedReadiness.isSome && action.phase = .phaseReadiness &&
      action.target.containerID ≠ ""
  | .actionSave =>
    action.save.any fun value =>
      value.method = saveMethodImported && action.phase = .phaseSave &&
        action.target.containerID ≠ "" && (value.fileID = "" || refs.regularFile value.fileID)
  | .other .. => false

def validateActionPayload (field : String) : Except Error Unit := do
  rejectIf (action.payloads ≠ 1)
    (planningError .errorInvariant field "action must contain exactly one typed payload")
  match action.kind with
  | .other .. =>
    .error (planningError .errorUnsupported (field ++ ".kind") "action kind is unsupported")
  | _ =>
    rejectIf (validPayload lib refs action = false)
      (planningError .errorInvariant field "typed action payload is incomplete or mismatched")

def validateAction (before : List Action) (action : Action) : Except Error Unit := do
  let field := indexed "actions" before.length
  rejectIf (action.id = "" ∨ validActionPhase action.phase = false)
    (planningError .errorInvalidInput field "action ID or phase is invalid")
  rejectIf (∃ earlier ∈ before, earlier.id = action.id)
    (planningError .errorInvariant (field ++ ".id") "action ID is duplicated")
  rejectIf (refs.node action.target.nodeID = false)
    (planningError .errorInvariant (field ++ ".target.nodeID") "references an unknown Node")
  rejectIf (action.target.containerID ≠ "" ∧ refs.container action.target.containerID = none)
    (planningError .errorInvariant (field ++ ".target.containerID")
      "references an unknown container")
  rejectIf (action.target.namespaceOwnerID ≠ "" ∧
      refs.container action.target.namespaceOwnerID = none)
    (planningError .errorInvariant (field ++ ".target.namespaceOwnerID")
      "references an unknown container")
  validateActionPayload lib refs action field

def validatePlan (plan : Plan) : Except Error Unit := do
  let refs := plan.references
  validateHeader plan.schemaVersion plan.compatibility
  rejectIf (validDigest plan.inputDigest = false)
    (planningError .errorInvalidInput "inputDigest" "must be a sha256 digest")
  rejectIf (plan.planner.name = "" ∨ plan.planner.revision = "")
    (planningError .errorMissingInput "planner" "name and revision are required")
  rejectIf (plan.nodes = [] ∨ plan.containers = [])
    (planningError .errorMissingInput "plan" "Nodes and containers are required")
  checkEach validateNodePlan plan.nodes
  checkEach (validateContainerPlan refs) plan.containers
  checkEach (validateNamespaceOwner refs) plan.containers
  checkEach (validateNodeContainers refs) plan.nodes
  checkEach (validateFilePlan lib refs) plan.files
  checkEach (validateVolumePlan refs) plan.volumes
  checkEach (validateMountPlan lib refs) plan.mounts
  checkEach (validateContainerMounts refs) plan.containers
  checkEach (validateManagementPlan lib refs) plan.management
  checkEach (validateInterfacePlan refs) plan.interfaces
  checkEach (validateAction lib refs) plan.actions

end

end Clabernetes.DevicePlan
