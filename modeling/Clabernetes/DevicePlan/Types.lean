import Mathlib.Data.String.Basic

/-!
# Planning inputs and device plans

`internal/deviceplan/types.go` and the errors of `error.go`. A nil slice and an empty one are the
same list: normalisation, which starts with a copy through JSON, turns both into the same value. The
string enumerations keep every other text as well, because a decoded text can hold anything; the
empty text of an unset field is one of them.
-/

namespace Clabernetes.DevicePlan

inductive ErrorCode where
  | errorInvalidInput
  | errorMissingInput
  | errorUnsupported
  | errorInvariant
  | errorSideEffect
  | errorSerialization
  deriving DecidableEq

structure Error where
  code : ErrorCode
  nodeID : String := ""
  field : String := ""
  behavior : String := ""
  message : String
  deriving DecidableEq

def planningError (code : ErrorCode) (field message : String) : Error := { code, field, message }

def schemaVersion : String := "v1alpha1"

structure Compatibility where
  containerlabModule : String
  containerlabVersion : String
  registryDigest : String
  planSchemaVersion : String
  deriving DecidableEq

structure KeyValue where
  name : String
  value : String
  deriving DecidableEq

structure Port where
  number : Int
  protocol : String
  deriving DecidableEq

structure Healthcheck where
  test : List String := []
  interval : Int := 0
  timeout : Int := 0
  startPeriod : Int := 0
  retries : Int := 0
  deriving DecidableEq

structure DNSConfig where
  servers : List String := []
  search : List String := []
  options : List String := []
  deriving DecidableEq

structure ManagementMesh where
  tunnelID : Int
  gatewayMAC : String
  deriving DecidableEq

/-- `:45-52`; `none` is a nil definition. -/
structure NodeInput where
  id : String
  name : String
  kind : String
  type : String := ""
  groupOwner : String := ""
  definition : Option String
  deriving DecidableEq

structure Platform where
  os : String
  architecture : String
  variant : String := ""
  osVersion : String := ""
  osFeatures : List String := []
  deriving DecidableEq

structure ImageConfig where
  entrypoint : List String := []
  command : List String := []
  environment : List KeyValue := []
  user : String := ""
  workingDir : String := ""
  ports : List Port := []
  stopSignal : String := ""
  healthcheck : Option Healthcheck := none
  labels : List KeyValue := []
  declaredDirs : List String := []
  deriving DecidableEq

structure ImageInput where
  nodeID : String
  role : String := ""
  componentID : String := ""
  sourceReference : String
  digestReference : String
  platform : Platform
  config : ImageConfig := {}
  deriving DecidableEq

inductive PayloadKind where
  | payloadConfigMap
  | payloadSecret
  | payloadURL
  | payloadInline
  | other (text : String) (unknown : text ∉ ["ConfigMap", "Secret", "URL", "Inline"])
  deriving DecidableEq

structure PayloadInput where
  id : String
  nodeID : String
  kind : PayloadKind
  reference : String
  digest : String := ""
  destination : String
  mode : UInt32 := 0
  sensitive : Bool := false
  deriving DecidableEq

structure CertificateInput where
  nodeID : String
  storageName : String
  certificateDigest : String
  privateKeyDigest : String
  caCertificateDigest : String
  caPrivateKeyDigest : String
  deriving DecidableEq

structure ManagementInput where
  nodeID : String
  interfaceName : String := ""
  ipv4 : String := ""
  ipv4Gateway : String := ""
  ipv6 : String := ""
  ipv6Gateway : String := ""
  dns : DNSConfig := {}
  inboundPorts : List Port := []
  mesh : Option ManagementMesh := none
  deriving DecidableEq

structure InterfaceInput where
  id : String
  nodeID : String
  name : String
  linkID : String
  linkName : String := ""
  peerNodeID : String := ""
  peerInterface : String := ""
  peerTransport : String := ""
  connectivity : String
  wireID : Int := 0
  mtu : Int := 0
  deriving DecidableEq

structure Input where
  schemaVersion : String
  topologyName : String
  compatibility : Compatibility
  entropyDigest : String := ""
  nodes : List NodeInput
  images : List ImageInput := []
  payloads : List PayloadInput := []
  certificates : List CertificateInput := []
  management : List ManagementInput := []
  interfaces : List InterfaceInput := []
  deriving DecidableEq

structure PlannerIdentity where
  name : String
  revision : String
  deriving DecidableEq

structure NodePlan where
  id : String
  name : String
  kind : String
  group : String := ""
  position : String := ""
  aliases : List String := []
  containerIDs : List String
  readinessContainerIDs : List String
  primaryContainerID : String := ""
  enforceStartupConfig : Bool := false
  deriving DecidableEq

structure Device where
  hostPath : String
  containerPath : String
  permissions : String := ""
  deriving DecidableEq

structure SecurityPlan where
  privileged : Bool := false
  capabilitiesAdd : List String := []
  capabilitiesDrop : List String := []
  devices : List Device := []
  sysctls : List KeyValue := []
  seccompProfile : String := ""
  appArmorProfile : String := ""
  readOnlyRootFS : Bool := false
  deriving DecidableEq

structure ResourcePlan where
  cpuRequest : String := ""
  cpuLimit : String := ""
  memoryRequest : String := ""
  memoryLimit : String := ""
  hugePages : String := ""
  cpuSet : String := ""
  deriving DecidableEq

structure ContainerPlan where
  id : String
  nodeID : String
  runtimeID : String := ""
  componentID : String := ""
  namespaceOwnerID : String
  image : String
  imageDigest : String := ""
  imagePullPolicy : String := ""
  imagePullPolicyExplicit : Bool := false
  imageEntrypoint : List String := []
  imageCommand : List String := []
  entrypoint : List String := []
  command : List String := []
  environment : List KeyValue := []
  labels : List KeyValue := []
  user : String := ""
  workingDir : String := ""
  ports : List Port := []
  stopSignal : String := ""
  restartPolicy : String := ""
  startupDelay : Nat := 0
  tty : Bool := false
  stdin : Bool := false
  security : SecurityPlan := {}
  resources : ResourcePlan := {}
  dns : DNSConfig := {}
  healthcheck : Option Healthcheck := none
  required : Bool := false
  mountIDs : List String := []
  deriving DecidableEq

inductive FileSourceKind where
  | fileSourcePayload
  | fileSourceGenerator
  | fileSourceCertificate
  | fileSourceEmpty
  | other (text : String) (unknown : text ∉ ["Payload", "Generator", "Certificate", "Empty"])
  deriving DecidableEq

inductive ArtifactKind where
  | artifactRegular
  | artifactSymlink
  | artifactDirectory
  | other (text : String) (unknown : text ∉ ["Regular", "Symlink", "Directory"])
  deriving DecidableEq

structure ExtendedAttribute where
  name : String
  digest : String
  deriving DecidableEq

structure FilePlan where
  id : String
  nodeID : String
  sourceKind : FileSourceKind
  artifactKind : ArtifactKind := .other "" (by decide)
  sourceReference : String := ""
  digest : String := ""
  artifactPath : String
  linkTarget : String := ""
  destination : String := ""
  mode : UInt32 := 0
  uid : Option Int := none
  gid : Option Int := none
  extendedAttributes : List ExtendedAttribute := []
  sensitive : Bool := false
  preserveExisting : Bool := false
  fileVariables : List KeyValue := []
  deriving DecidableEq

inductive VolumeKind where
  | volumeArtifacts
  | volumeEmptyDir
  | volumeConfigMap
  | volumeSecret
  | volumePersistent
  | volumeDevice
  | other (text : String)
      (unknown : text ∉ ["Artifacts", "EmptyDir", "ConfigMap", "Secret", "Persistent", "Device"])
  deriving DecidableEq

structure VolumePlan where
  id : String
  nodeID : String
  kind : VolumeKind
  reference : String := ""
  size : String := ""
  medium : String := ""
  deriving DecidableEq

structure MountPlan where
  id : String
  containerID : String
  volumeID : String
  sourcePath : String := ""
  destination : String
  readOnly : Bool := false
  propagation : String := ""
  deriving DecidableEq

inductive ActionPhase where
  | phasePrepare
  | phasePreStart
  | phasePostStart
  | phaseReadiness
  | phaseInterfaceFixup
  | phaseSave
  | phasePostStop
  | other (text : String)
      (unknown : text ∉ ["Prepare", "PreStart", "PostStart", "Readiness", "InterfaceFixup", "Save",
        "PostStop"])
  deriving DecidableEq

inductive ActionKind where
  | actionExec
  | actionFile
  | actionWriteStdin
  | actionMount
  | actionSysctl
  | actionWaitInterface
  | actionRenameInterface
  | actionManagementForwarding
  | actionImportedDeployEndpoints
  | actionImportedPostDeploy
  | actionImportedReadiness
  | actionSave
  | other (text : String)
      (unknown : text ∉ ["Exec", "File", "WriteStdin", "Mount", "Sysctl", "WaitInterface",
        "RenameInterface", "ManagementForwarding", "ImportedDeployEndpoints", "ImportedPostDeploy",
        "ImportedReadiness", "Save"])
  deriving DecidableEq

def saveMethodImported : String := "ImportedPackage"

structure ActionTarget where
  nodeID : String
  containerID : String := ""
  namespaceOwnerID : String := ""
  deriving DecidableEq

structure ExecAction where
  command : List String
  shell : Bool := false
  wait : Bool := false
  continueOnError : Bool := false
  timeoutSeconds : Int := 0
  deriving DecidableEq

inductive FileWriteMode where
  | fileWriteReplace
  | fileWriteAppend
  | other (text : String) (unknown : text ∉ ["Replace", "Append"])
  deriving DecidableEq

structure FileAction where
  fileID : String
  destination : String := ""
  writeMode : FileWriteMode := .other "" (by decide)
  deriving DecidableEq

structure WriteStdinAction where
  fileID : String
  deriving DecidableEq

structure MountAction where
  mountID : String
  filesystem : String
  source : String
  options : List String := []
  deriving DecidableEq

structure SysctlAction where
  name : String
  value : String
  deriving DecidableEq

structure WaitInterfaceAction where
  interfaceID : String
  timeoutSeconds : Int
  deriving DecidableEq

structure RenameInterfaceAction where
  interfaceID : String
  fromName : String
  toName : String
  deriving DecidableEq

structure ManagementForwardingAction where
  managementID : String
  namespaceName : String := ""
  ipv4Forward : Bool := false
  deriving DecidableEq

structure SaveAction where
  method : String
  fileID : String := ""
  deriving DecidableEq

/-- `:425-443`; the payloads without fields are whether they are there. -/
structure Action where
  id : String
  phase : ActionPhase
  order : Int
  target : ActionTarget
  kind : ActionKind
  exec : Option ExecAction := none
  file : Option FileAction := none
  writeStdin : Option WriteStdinAction := none
  mount : Option MountAction := none
  sysctl : Option SysctlAction := none
  waitInterface : Option WaitInterfaceAction := none
  renameInterface : Option RenameInterfaceAction := none
  managementForwarding : Option ManagementForwardingAction := none
  importedDeployEndpoints : Option Unit := none
  importedPostDeploy : Option Unit := none
  importedReadiness : Option Unit := none
  save : Option SaveAction := none
  deriving DecidableEq

inductive LinkApplyMode where
  | linkApplyLive
  | linkApplyRestart
  | linkApplyRecreate
  | other (text : String) (unknown : text ∉ ["Live", "Restart", "Recreate"])
  deriving DecidableEq

structure ManagementPortMap where
  protocol : String
  podPort : UInt16
  devicePort : UInt16
  deriving DecidableEq

structure ManagementInterposition where
  deviceInterface : String
  deviceMAC : String := ""
  transportCIDRs : List String := []
  inboundPorts : List ManagementPortMap := []
  mesh : Option ManagementMesh := none
  deriving DecidableEq

inductive ManagementInterfaceSelector where
  | managementInterfacePodTransport
  | managementInterfaceInterposed
  | other (text : String) (unknown : text ∉ ["PodTransport", "Interposed"])
  deriving DecidableEq

structure Route where
  destination : String
  gateway : String := ""
  metric : Int := 0
  deriving DecidableEq

structure ManagementPlan where
  id : String
  nodeID : String
  interfaceName : String := ""
  interfaceSelector : ManagementInterfaceSelector := .other "" (by decide)
  ipv4 : String := ""
  ipv4Gateway : String := ""
  ipv6 : String := ""
  ipv6Gateway : String := ""
  routes : List Route := []
  dns : DNSConfig := {}
  interposition : Option ManagementInterposition := none
  deriving DecidableEq

structure InterfacePlan where
  id : String
  nodeID : String
  namespaceOwnerID : String
  name : String
  interfaceAlias : String := ""
  linkID : String
  linkName : String := ""
  peerNodeID : String := ""
  peerInterface : String := ""
  peerTransport : String := ""
  connectivity : String
  wireID : Int := 0
  mtu : Int := 0
  linkApplyMode : LinkApplyMode
  requiredAtStart : Bool := false
  deriving DecidableEq

structure Plan where
  schemaVersion : String
  compatibility : Compatibility
  inputDigest : String
  planner : PlannerIdentity
  nodes : List NodePlan
  containers : List ContainerPlan
  files : List FilePlan := []
  volumes : List VolumePlan := []
  mounts : List MountPlan := []
  actions : List Action := []
  management : List ManagementPlan := []
  interfaces : List InterfacePlan := []
  deriving DecidableEq

end Clabernetes.DevicePlan
