import Clabernetes.DevicePlan.Normalize
import Clabernetes.Links.Api

/-!
# Pods and render options

The part of a rendered Pod that says what its containers can read: volumes, mounts and commands,
with the names and paths of `internal/directpod/renderer.go:35-100` and the options that decide
them.
Names are cut by characters, which for the ASCII names of Kubernetes are bytes.
-/

namespace Clabernetes.DirectPod

open Base DevicePlan Links

structure KeyToPath where
  key : String
  path : String
  mode : Option Nat := none
  deriving DecidableEq

/-- `corev1.VolumeProjection`, as far as it is used. -/
inductive Projection where
  | serviceAccountToken (path : String) (expirationSeconds : Nat)
  | configMap (name : String) (items : List KeyToPath) (optional : Bool)
  deriving DecidableEq

/-- `corev1.HostPathType`, as far as it is used. -/
inductive HostPathType where
  | directoryOrCreate
  | directory
  | charDev
  deriving DecidableEq

/-- `corev1.VolumeSource`, as far as it is used. A ConfigMap or Secret without items has all its
keys. -/
inductive VolumeSource where
  | emptyDir (memory : Bool) (sizeLimit : String)
  | configMap (name : String) (items : List KeyToPath)
  | secret (secretName : String) (items : List KeyToPath)
  | persistentVolumeClaim (claimName : String)
  | hostPath (path : String) (type : HostPathType)
  | projected (sources : List Projection)
  | downwardAPI (items : List (String × String))
  deriving DecidableEq

structure Volume where
  name : String
  source : VolumeSource
  deriving DecidableEq

inductive MountPropagation where
  | hostToContainer
  | bidirectional
  deriving DecidableEq

structure VolumeMount where
  name : String
  mountPath : String
  subPath : String := ""
  readOnly : Bool := false
  propagation : Option MountPropagation := none
  deriving DecidableEq

/-- `corev1.EnvVar`: a value or a field of the Pod. -/
inductive EnvVar where
  | value (name value : String)
  | fieldRef (name fieldPath : String)
  deriving DecidableEq

def EnvVar.name : EnvVar → String
  | .value name _ => name
  | .fieldRef name _ => name

/-- `corev1.Container`, as far as it is modelled. The commands of the probe and of the post-start
hook are those of the lifecycle binary. -/
structure Container where
  name : String
  image : String
  command : List String := []
  args : List String := []
  env : List EnvVar := []
  volumeMounts : List VolumeMount := []
  postStart : Option (List String) := none
  readiness : Option (List String) := none
  deriving DecidableEq

structure Pod where
  initContainers : List Container
  containers : List Container
  volumes : List Volume
  deriving DecidableEq

structure ProbePolicy where
  startupSeconds : Int := 0
  tcpPort : Int := 0
  sshUsername : String := ""
  sshPort : Int := 0
  sshPasswordKey : String := ""
  deriving DecidableEq

/-- Without what only labels, schedules or sizes the workload. -/
structure Options where
  startupGate : Bool := false
  name : String
  namespaceName : String
  planConfigMapName : String
  inputConfigMapName : String
  connectivityRevisionConfigMapName : String := ""
  preparationImage : String
  connectivityImage : String
  serviceAccountName : String := ""
  imagePullSecrets : List String := []
  applicationImagePullPolicy : String := ""
  payloads : List PayloadInput := []
  certificateSecretName : String := ""
  certificateInputs : List CertificateInput := []
  entropySecretName : String := ""
  probeSecretName : String := ""
  probePolicies : GoMap String ProbePolicy := ∅
  persistentVolumeClaims : GoMap String String := ∅
  deviceStateResets : GoMap String String := ∅
  enableContainerStopSignals : Bool := false
  enableApplicationLogBroker : Bool := false
  linkLifecycleMode : String := ""
  linkLifecyclePlanDigest : String := ""
  networkIsolation : Bool := false

def Options.policy (options : Options) (nodeID : String) : ProbePolicy :=
  options.probePolicies[nodeID]?.getD {}

/-- What rendering calls besides the codec of plans. -/
structure RenderLibrary extends Library where
  /-- `validation.IsDNS1123Subdomain` finds no problem. -/
  isDNS1123Subdomain : String → Bool
  /-- `validation.IsDNS1123Label` finds no problem. -/
  isDNS1123Label : String → Bool
  /-- `validation.IsEnvVarName` finds no problem. -/
  isEnvVarName : String → Bool
  /-- `resource.ParseQuantity` accepts a text. -/
  parsesQuantity : String → Bool
  /-- The SHA-256 digest of a text in hexadecimal. -/
  textDigest : String → String
  /-- `unicode.IsLetter` or `unicode.IsDigit`. -/
  isAlphanumeric : Char → Bool
  /-- `strings.ToUpper`. -/
  toUpper : String → String
  /-- `ValidatePlanCapabilities` of the direct runtime. -/
  validatePlanCapabilities : Plan → Except Error Unit
  /-- Security context, resources and health checks of a container (`:2003-2182`); no
  mount depends on them. -/
  validateSettings : ContainerPlan → Except String Unit

def planVolumeName : String := "node-plan"

def planMountPath : String := "/var/run/clabernetes/plan"

def inputVolumeName : String := "node-plan-input"

def inputMountPath : String := "/var/run/clabernetes/input"

def artifactRootPath : String := "/var/run/clabernetes/artifacts"

def payloadRootPath : String := "/var/run/clabernetes/payloads"

def certificateVolumeName : String := "node-certificates"

def certificateRootPath : String := "/var/run/clabernetes/certificates"

def entropyVolumeName : String := "node-entropy"

def entropyRootPath : String := "/var/run/clabernetes/entropy"

def endpointCertificateName : String := "node-endpoint-certificates"

def preparationScratchName : String := "node-preparation-scratch"

def preparationScratchPath : String := "/tmp"

def connectivityStateName : String := "clabwire-state"

def connectivityStatePath : String := "/var/run/clabernetes/connectivity"

def deviceNetnsVolumeName : String := "device-netns"

def deviceNetnsHostPath : String := "/var/run/clabernetes/device-netns"

def deviceNetnsMountPath : String := "/var/run/netns"

def deviceNetnsInitName : String := "device-netns-init"

def deviceNetnsFileName : String := "$(C9S_POD_UID).ns"

def connectivityRevisionVolumeName : String := "clabwire-revision"

def peerDirectoryVolumeName : String := "node-peer-directory"

def connectivityRevisionMountPath : String := "/var/run/clabernetes/connectivity-revision"

def hostNetworkNamespaceName : String := "worker-host-network-namespace"

def hostNetworkNamespaceSourcePath : String := "/proc/1/ns"

def hostNetworkNamespaceMountPath : String := "/var/run/clabernetes/host-network-namespaces"

def lifecycleVolumeName : String := "node-lifecycle-manager"

def lifecycleCacheVolumeName : String := "worker-runtime-binary-cache"

def lifecycleBinaryRoot : String := "/var/lib/clabernetes/lifecycle-bin"

def lifecycleBinaryPath : String := lifecycleBinaryRoot ++ "/manager"

def runtimeBinaryPath : String := "/clabernetes/manager"

def lifecyclePlanRoot : String := "/var/lib/clabernetes/lifecycle-plan"

def lifecycleInputRoot : String := "/var/lib/clabernetes/lifecycle-input"

def lifecycleArtifactRoot : String := "/var/lib/clabernetes/lifecycle-artifacts"

def lifecycleCertificateRoot : String := "/var/lib/clabernetes/lifecycle-certificates"

def lifecycleEntropyRoot : String := "/var/lib/clabernetes/lifecycle-entropy"

def lifecycleScratchName : String := "node-lifecycle-scratch"

def lifecycleScratchRoot : String := "/var/lib/clabernetes/lifecycle-scratch"

def applicationRuntimeAPIName : String := "node-runtime-api"

def applicationRuntimeAPIRoot : String := "/var/lib/clabernetes/runtime-api"

def applicationRuntimeCredentialName : String := "node-runtime-credentials"

def applicationRuntimeCredentialRoot : String := "/var/run/secrets/kubernetes.io/serviceaccount"

def probeSecretVolumeName : String := "node-probe-secrets"

def probePasswordPath : String := "/var/lib/clabernetes/probe-secret/password"

def preparationName : String := "planner"

def connectivityName : String := "clabwire"

def runtimeCommandName : String := "node-runtime"

def podUIDEnvironmentName : String := "C9S_POD_UID"

def podUIDFieldPath : String := "metadata.uid"

def podAddressFieldPath : String := "status.podIP"

def podAddressEnvironmentVariable : String := "C9S_POD_ADDRESS"

def lifecycleBinaryCachePath : String := "/var/lib/clabernetes/runtime-binary-cache"

def applicationPeerDirectoryRoot : String := "/var/lib/clabernetes/peer-directory"

def connectivityPeerDirectoryRoot : String := "/var/run/clabernetes/peer-directory"

def startupGateContainerName : String := "startup-gate"

def entropySeedKey : String := "seed"

def certificateCACertKey : String := "ca.crt"

section

variable (lib : RenderLibrary)

/-- The letters and digits of an identity, each run of others between them one dash;
`:3079-3086`. -/
def dashed : List Char → List Char → List Char
  | out, [] => out
  | out, c :: rest =>
    if lib.isAlphanumeric c then dashed (out ++ [c]) rest
    else if out ≠ [] ∧ out.getLast? ≠ some '-' then dashed (out ++ ['-']) rest
    else dashed out rest

def trimRightDashes (text : List Char) : List Char := (text.reverse.dropWhile (· = '-')).reverse

def dnsName (stem identity : String) : String :=
  let trimmed := trimRightDashes ((dashed lib [] (lib.toLower identity).toList).dropWhile (· = '-'))
  let base := if trimmed = [] then stem.toList else trimmed
  let suffix := (lib.textDigest identity).toList.take 10
  let maxBase := 63 - stem.length - suffix.length - 2
  let base := if maxBase < base.length then trimRightDashes (base.take maxBase) else base
  String.ofList (stem.toList ++ '-' :: (base ++ '-' :: suffix))

def applicationContainerName (identity : String) : String := dnsName lib "node" identity

def artifactNodeDirectory (nodeID : String) : String :=
  "node-" ++ String.ofList ((lib.textDigest nodeID).toList.take 12)

def certificateMaterialKeys (nodeID storageName : String) : String × String :=
  let suffix := String.ofList ((lib.textDigest (nodeID ++ "\x00" ++ storageName)).toList.take 24)
  ("node-" ++ suffix ++ ".crt", "node-" ++ suffix ++ ".key")

def joinPath (root name : String) : String := lib.cleanPath (root ++ "/" ++ name)

end

def stemmed (stem name : String) : Prop := (stem.toList ++ ['-']) <+: name.toList

instance (stem name : String) : Decidable (stemmed stem name) :=
  inferInstanceAs (Decidable (_ <+: _))

theorem stemmed_dnsName (lib : RenderLibrary) (stem identity : String) :
    stemmed stem (dnsName lib stem identity) := by
  unfold stemmed dnsName
  simp only [String.toList_ofList]
  exact ⟨_, by rw [List.append_assoc]; rfl⟩

end Clabernetes.DirectPod
