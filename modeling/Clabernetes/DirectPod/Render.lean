import Clabernetes.DirectPod.Storage

/-!
# Rendering a plan

`internal/directpod/renderer.go`: the preflight of plan and options, the application containers with
the mounts that the plan, the devices, the lifecycle actions and the network isolation give them,
the helper containers, and the Pod. The rest is kept as far as mounts or failures depend on it.
-/

namespace Clabernetes.DirectPod

open Base DevicePlan Links Prod

variable (lib : RenderLibrary)

def directPlanPreflightError (nodeID field message : String) : RenderError :=
  .plan { code := .errorUnsupported, nodeID, field, behavior := "kubernetes-workload-preflight"
          message }

variable (value : String)

def portableHostDevicePath : Bool :=
  value ≠ "" && '\x00' ∉ value.toList && lib.cleanPath value = value &&
    "/dev/".toList.isPrefixOf value.toList

def portableContainerDevicePath : Bool :=
  value ≠ "" && '\x00' ∉ value.toList && isAbs value && lib.cleanPath value = value

def portableDevicePermissions : Bool :=
  value ≠ "" && value.utf8ByteSize ≤ 3 && value.toList.all (· ∈ ['r', 'w', 'm']) &&
    decide value.toList.Nodup

/-- The profile that a localhost text names, empty for the other profiles, none for a text that is
no profile. -/
def localhostProfile : Option String :=
  if lib.equalFold value "RuntimeDefault" = true ∨ lib.equalFold value "runtime/default" = true ∨
      lib.equalFold value "Unconfined" = true then some ""
  else if "localhost/".toList.isPrefixOf (lib.toLower value).toList then
    some (if "localhost/".toList.isPrefixOf value.toList then
      String.ofList (value.toList.drop 10) else value)
  else none

def portableProfile : Bool :=
  value = "" || (localhostProfile lib value).any fun local_ =>
    local_ = "" || ('\x00' ∉ local_.toList && !isAbs local_ && lib.cleanPath local_ = local_ &&
      local_ ≠ "." && !"../".toList.isPrefixOf local_.toList)

/-- One device of a container; `:266-306`. The devices before it are those of the
containers before its own as well. -/
def validateDevice (container : ContainerPlan) (field : String) (before : List Device)
    (device : Device) : Except RenderError Unit := do
  rejectIf (container.security.privileged = false)
    (directPlanPreflightError container.nodeID field
      "host device requires privileged container cgroup access")
  rejectIf (portableHostDevicePath lib device.hostPath = false ∨
      portableContainerDevicePath lib device.containerPath = false ∨
      portableDevicePermissions device.permissions = false)
    (directPlanPreflightError container.nodeID field
      "host device path, target, or permissions are not portable")
  rejectIf (∃ earlier ∈ before, earlier.containerPath = device.containerPath ∧
      earlier.hostPath ≠ device.hostPath)
    (directPlanPreflightError container.nodeID (field ++ ".containerPath")
      "multiple host devices request the same target-worker path")

variable (before : List ContainerPlan)

def validateContainerPortability (container : ContainerPlan) : Except RenderError Unit := do
  let securityField := indexed "containers" before.length ++ ".security"
  rejectIf (portableProfile lib container.security.seccompProfile = false)
    (directPlanPreflightError container.nodeID (securityField ++ ".seccompProfile")
      "seccomp profile has no portable Kubernetes representation")
  rejectIf (portableProfile lib container.security.appArmorProfile = false)
    (directPlanPreflightError container.nodeID (securityField ++ ".appArmorProfile")
      "AppArmor profile has no portable Kubernetes representation")
  checkEach (fun devices device =>
    validateDevice lib container (indexed (securityField ++ ".devices") devices.length)
      (before.flatMap (·.security.devices) ++ devices) device) container.security.devices

def containerNodeID (plan : Plan) (containerID : String) : String :=
  ((plan.containers.find? (·.id = containerID)).map (·.nodeID)).getD ""

def validateMountDestination (plan : Plan) (before : List MountPlan) (mount : MountPlan) :
    Except RenderError Unit :=
  match before.find? fun earlier =>
      earlier.containerID = mount.containerID ∧ earlier.destination = mount.destination with
  | none => .ok ()
  | some earlier =>
    .error (.plan
      { code := .errorInvariant
        field := indexed "mounts" before.length ++ ".destination"
        nodeID := containerNodeID plan mount.containerID
        behavior := "kubernetes-workload-preflight"
        message := "mounts " ++ quoted earlier.id ++ " and " ++ quoted mount.id ++
          " both land on container path " ++ quoted mount.destination ++
          "; a Kubernetes container cannot mount one path twice" })

def validateNormalizedPlan (plan : Plan) : Except RenderError Unit := do
  (lib.validatePlanCapabilities plan).mapError .plan
  checkEach (validateContainerPortability lib) plan.containers
  checkEach (fun before volume =>
    rejectIf (volume.kind = .volumeDevice ∧ portableHostDevicePath lib volume.reference = false)
      (directPlanPreflightError volume.nodeID (indexed "volumes" before.length ++ ".reference")
        "device volume is not a canonical character-device path under /dev")) plan.volumes
  checkEach (validateMountDestination plan) plan.mounts

def validProbePort (port : Int) : Bool := 0 ≤ port && port ≤ 65535

def validateProbePolicy (nodeID : String) (policy : ProbePolicy) : Except RenderError Unit := do
  rejectIf (nodeID = "" ∨ policy.startupSeconds < 0 ∨ validProbePort policy.tcpPort = false ∨
      validProbePort policy.sshPort = false)
    (.text "direct Pod probe policy is invalid")
  let sshFields :=
    [decide (policy.sshUsername ≠ ""), decide (policy.sshPort ≠ 0),
      decide (policy.sshPasswordKey ≠ "")].countP id
  rejectIf (sshFields ≠ 0 ∧ sshFields ≠ 3) (.text "direct Pod SSH probe policy is incomplete")

variable (options : Options)

def validateOptions : Except RenderError Unit := do
  checkEach (fun _ (field : String × String) =>
    rejectIf (blank field.2 = true) (.text ("direct Pod " ++ field.1 ++ " is required")))
    [("name", options.name), ("namespace", options.namespaceName),
      ("plan ConfigMap", options.planConfigMapName),
      ("input ConfigMap", options.inputConfigMapName),
      ("preparation image", options.preparationImage),
      ("connectivity image", options.connectivityImage)]
  rejectIf (lib.isDNS1123Subdomain options.name = false) (.text "direct Pod name is invalid")
  rejectIf (lib.isDNS1123Label options.namespaceName = false)
    (.text "direct Pod namespace is invalid")
  checkEach (fun _ (entry : String × ProbePolicy) => validateProbePolicy entry.1 entry.2)
    options.probePolicies.toList
  rejectIf ((options.probePolicies.toList.any fun entry => entry.2.sshPasswordKey ≠ "") ≠
      decide (options.probeSecretName ≠ ""))
    (.text "direct Pod probe Secret identity is inconsistent")
  rejectIf (¬(options.linkLifecycleMode ≠ "" ↔ options.linkLifecyclePlanDigest ≠ ""))
    (.text "direct Pod Link lifecycle identity is incomplete")
  if options.linkLifecycleMode ≠ "" then
    rejectIf (options.linkLifecycleMode ≠ "Recreate")
      (.text ("direct Pod Link lifecycle mode " ++ quoted options.linkLifecycleMode ++
        " does not roll a Pod"))
    let digest := options.linkLifecyclePlanDigest.toList
    let encoded := if "sha256:".toList.isPrefixOf digest then digest.drop 7 else digest
    rejectIf (encoded.length ≠ 64 ∨ encoded.all isHexDigit = false)
      (.text "direct Pod Link lifecycle plan digest is invalid")

def defaultApplicationContainer (plan : Plan) (workloadName : String) : Except RenderError String :=
  match plan.nodes.find? (·.name = workloadName) with
  | none => .error (.text ("direct workload has no logical primary named " ++ quoted workloadName))
  | some node =>
    match node.containerIDs with
    | [] => .error (.text "direct workload primary Node has no application container")
    | first :: _ =>
      let primaryID := if node.primaryContainerID = "" then first else node.primaryContainerID
      .ok (applicationContainerName lib primaryID)

def portableRestartPolicy : Bool :=
  lib.toLower value ∈ ["", "always", "unless-stopped"]

def pullPolicy : Except RenderError String :=
  let text := lib.toLower (String.ofList (value.toList.filter (· ≠ '-')))
  if text = "" ∨ text = "ifnotpresent" then .ok "IfNotPresent"
  else if text = "always" then .ok "Always"
  else if text = "never" then .ok "Never"
  else .error (.text ("image pull policy " ++ quoted value ++ " is unsupported"))

def immutableImage (reference digest : String) : String :=
  if digest = "" ∨ '@' ∈ reference.toList then reference
  else
    -- the text after the last slash, up to its last colon
    let reversed := reference.toList.reverse
    let tag := reversed.takeWhile fun c => c ≠ ':' ∧ c ≠ '/'
    let repository :=
      if (reversed.drop tag.length).head? = some ':' then
        (reversed.drop (tag.length + 1)).reverse else reference.toList
    String.ofList repository ++ "@" ++ digest

def deviceVolumeName (containerID : String) (index : Nat) (device : Device) : String :=
  dnsName lib "device" (containerID ++ "/" ++ toString index ++ "/" ++ device.hostPath)

def renderDevice (containerID : String) (index : Nat) (device : Device) : Volume × VolumeMount :=
  let name := deviceVolumeName lib containerID index device
  ({ name, source := .hostPath device.hostPath .charDev },
    { name, mountPath := device.containerPath, readOnly := 'w' ∉ device.permissions.toList })

def renderContainer (planned : ContainerPlan) (mounts : List VolumeMount)
    (enableStopSignals : Bool) : Except RenderError (Container × List Volume) := do
  let subject := "container " ++ quoted planned.id
  rejectIf (planned.resources.cpuSet ≠ "" ∨ planned.resources.hugePages ≠ "")
    (.text (subject ++ " requests CPU pinning or unsized huge pages with no portable Pod mapping"))
  rejectIf (planned.stopSignal ≠ "" ∧ enableStopSignals = false)
    (.text (subject ++ " requires the Kubernetes ContainerStopSignals feature"))
  rejectIf (portableRestartPolicy lib planned.restartPolicy = false)
    (.text (subject ++ " restart policy " ++ quoted planned.restartPolicy ++
      " has no shared-Pod mapping"))
  (lib.validateSettings planned).mapError fun message => RenderError.within subject (.text message)
  let _ ← (pullPolicy lib planned.imagePullPolicy).mapError (RenderError.within subject)
  checkEach (fun _ (entry : KeyValue) =>
    rejectIf (lib.isEnvVarName entry.name = false) (.text "invalid environment variable name"))
    planned.environment
  rejectIf (planned.security.devices ≠ [] ∧ planned.security.privileged = false)
    (.text ("device " ++ quoted ((planned.security.devices.head?.map (·.hostPath)).getD "") ++
      " requires privileged container cgroup access"))
  let devices := planned.security.devices.mapIdx fun index device =>
    renderDevice lib planned.id index device
  .ok (
    { name := applicationContainerName lib planned.id
      image := immutableImage planned.image planned.imageDigest
      command := planned.entrypoint
      args := planned.command
      env := .fieldRef podAddressEnvironmentVariable podAddressFieldPath ::
        planned.environment.map fun entry => .value entry.name entry.value
      volumeMounts := mounts ++ devices.map snd },
    devices.map fst)

def validateContainerName (planned : ContainerPlan) : Except RenderError Unit :=
  match before.find? fun earlier =>
      applicationContainerName lib earlier.id = applicationContainerName lib planned.id ∧
        earlier.id ≠ planned.id with
  | none => .ok ()
  | some previous =>
    .error (.text ("planned container names " ++ quoted previous.id ++ " and " ++
      quoted planned.id ++ " collide as " ++ quoted (applicationContainerName lib planned.id)))

def validateSharedSettings (planned : ContainerPlan) : Except RenderError Unit := do
  match planned.security.sysctls.find? fun sysctl => before.any fun earlier =>
      earlier.security.sysctls.any fun other =>
        other.name = sysctl.name && other.value ≠ sysctl.value with
  | some sysctl =>
    .error (.text ("containers request conflicting network-namespace sysctl " ++
      quoted sysctl.name))
  | none =>
    rejectIf (planned.dns ≠ {} ∧ ∃ earlier ∈ before, earlier.dns ≠ {} ∧ earlier.dns ≠ planned.dns)
      (.text "containers request conflicting Pod DNS")

def renderContainersFrom (plan : Plan) (indexed : List (String × VolumeMount))
    (enableStopSignals : Bool) : List ContainerPlan → List ContainerPlan →
    Except RenderError (List (Container × List Volume))
  | _, [] => .ok []
  | before, planned :: rest => do
    rejectIf (plan.containers.any (·.id = planned.namespaceOwnerID) = false)
      (.text ("container " ++ quoted planned.id ++ " has unknown namespace owner " ++
        quoted planned.namespaceOwnerID))
    let rendered ←
      renderContainer lib planned (mountsByContainer indexed planned.id) enableStopSignals
    validateSharedSettings before planned
    let others ← renderContainersFrom plan indexed enableStopSignals (before ++ [planned]) rest
    .ok (rendered :: others)

/-- Without the DNS of the Pod. -/
def renderContainers (plan : Plan) (indexed : List (String × VolumeMount))
    (enableStopSignals : Bool) : Except RenderError (List (Container × List Volume)) := do
  checkEach (validateContainerName lib) plan.containers
  renderContainersFrom lib plan indexed enableStopSignals [] plan.containers

structure LifecycleTargets where
  artifact : List String := []
  postStart : List String := []
  importedPostDeploy : List String := []
  importedSave : List String := []
  readiness : List String := []
  deriving DecidableEq

def containsLinuxCapability (values : List String) (expected : String) : Bool :=
  values.any fun value =>
    let trimmed := ((value.toList.dropWhile isSpace).reverse.dropWhile isSpace).reverse
    let upper := (lib.toUpper (String.ofList trimmed)).toList
    (if "CAP_".toList.isPrefixOf upper then upper.drop 4 else upper) = expected.toList

def fileNodeID (plan : Plan) (fileID : String) : String :=
  ((plan.files.find? (·.id = fileID)).map (·.nodeID)).getD ""

def actionKindText : ActionKind → String
  | .actionExec => "Exec"
  | .actionFile => "File"
  | .actionWriteStdin => "WriteStdin"
  | .actionMount => "Mount"
  | .actionSysctl => "Sysctl"
  | .actionWaitInterface => "WaitInterface"
  | .actionRenameInterface => "RenameInterface"
  | .actionManagementForwarding => "ManagementForwarding"
  | .actionImportedDeployEndpoints => "ImportedDeployEndpoints"
  | .actionImportedPostDeploy => "ImportedPostDeploy"
  | .actionImportedReadiness => "ImportedReadiness"
  | .actionSave => "Save"
  | .other text _ => text

def postStartTargets (plan : Plan) (targets : LifecycleTargets) (action : Action)
    (nodeID : String) : Except RenderError LifecycleTargets := do
  let subject := "post-start action " ++ quoted action.id
  let containerID := action.target.containerID
  let reached := { targets with postStart := containerID :: targets.postStart }
  match action.kind with
  | .actionImportedPostDeploy =>
    rejectIf (action.importedPostDeploy = none)
      (.text (subject ++ " has no imported post-deploy payload"))
    .ok { reached with
          artifact := containerID :: targets.artifact
          importedPostDeploy := containerID :: targets.importedPostDeploy }
  | .actionExec => .ok reached
  | .actionFile =>
    rejectIf (action.file.all fun file => fileNodeID plan file.fileID ≠ nodeID)
      (.text (subject ++ " has an unscoped file"))
    .ok { reached with artifact := containerID :: targets.artifact }
  | .actionWriteStdin =>
    rejectIf (action.writeStdin.all fun stdin => fileNodeID plan stdin.fileID ≠ nodeID)
      (.text (subject ++ " has unscoped stdin data"))
    .ok { reached with artifact := containerID :: targets.artifact }
  | kind =>
    .error (.text (subject ++ " uses unsupported application-container operation " ++
      quoted (actionKindText kind)))

def lifecycleAction (plan : Plan) (targets : LifecycleTargets) (action : Action) :
    Except RenderError LifecycleTargets := do
  let preStartMount := action.phase = .phasePreStart ∧ action.kind = .actionMount
  let importedReadiness := action.phase = .phaseReadiness ∧ action.kind = .actionImportedReadiness
  let importedSave := action.phase = .phaseSave ∧ action.kind = .actionSave
  if action.phase ≠ .phasePostStart ∧ ¬preStartMount ∧ ¬importedReadiness ∧ ¬importedSave then
    .ok targets
  else
    let containerID := action.target.containerID
    match plan.containers.find? (·.id = containerID) with
    | none =>
      .error (.text ("application lifecycle action " ++ quoted action.id ++
        " has no application-container target"))
    | some planned =>
      rejectIf (containerID = "")
        (.text ("application lifecycle action " ++ quoted action.id ++
          " has no application-container target"))
      rejectIf (planned.nodeID = "" ∨ action.target.nodeID ≠ planned.nodeID)
        (.text ("application lifecycle action " ++ quoted action.id ++
          " crosses logical Node ownership"))
      if importedReadiness then
        rejectIf (action.importedReadiness = none)
          (.text ("readiness action " ++ quoted action.id ++
            " has no imported readiness payload"))
        .ok { targets with readiness := containerID :: targets.readiness }
      else if importedSave then
        rejectIf (action.save.all fun save => save.method ≠ saveMethodImported)
          (.text ("save action " ++ quoted action.id ++ " has no imported save payload"))
        .ok { targets with
              artifact := containerID :: targets.artifact
              importedSave := containerID :: targets.importedSave }
      else if preStartMount then
        rejectIf (action.mount.all fun mount => mount.filesystem ≠ "tmpfs" ∨ mount.source ≠ "tmpfs")
          (.text ("pre-start action " ++ quoted action.id ++
            " has unsupported scoped filesystem operation"))
        rejectIf (planned.security.privileged = false ∧
            containsLinuxCapability lib planned.security.capabilitiesAdd "SYS_ADMIN" = false)
          (.text ("pre-start mount action " ++ quoted action.id ++
            " requires privileged execution or SYS_ADMIN"))
        .ok targets
      else postStartTargets plan targets action planned.nodeID

def artifactVolumes (plan : Plan) (nodeID : String) : String :=
  match plan.volumes.find? fun volume =>
      volume.kind = .volumeArtifacts ∧ volume.nodeID = nodeID with
  | none => ""
  | some volume => volumeNames lib plan volume.id

structure LifecycleContext where
  plan : Plan
  options : Options
  targets : LifecycleTargets
  items : String → List KeyToPath

variable (ctx : LifecycleContext)

def lifecycleMounts (planned : ContainerPlan) : Except RenderError (List VolumeMount) := do
  let readiness := planned.id ∈ ctx.targets.readiness
  let postStart := planned.id ∈ ctx.targets.postStart
  let postDeploy := planned.id ∈ ctx.targets.importedPostDeploy
  let save := planned.id ∈ ctx.targets.importedSave
  let policy := ctx.options.policy planned.nodeID
  let certificateVolume := certificateNames lib ctx.plan ctx.items planned.nodeID
  let artifactVolume := artifactVolumes lib ctx.plan planned.nodeID
  rejectIf (readiness ∧ policy.sshPasswordKey ≠ "" ∧ ctx.options.probeSecretName = "")
    (.text "readiness target has no probe Secret")
  rejectIf (planned.id ∈ ctx.targets.artifact ∧ artifactVolume = "")
    (.text "post-start target has no plan-owned artifact volume")
  .ok (
    [{ name := lifecycleVolumeName, mountPath := lifecycleBinaryRoot, readOnly := true },
      { name := planVolumeName, mountPath := lifecyclePlanRoot, readOnly := true },
      { name := lifecycleScratchName, mountPath := lifecycleScratchRoot },
      { name := peerDirectoryVolumeName, mountPath := applicationPeerDirectoryRoot
        readOnly := true }] ++
    (if readiness ∨ postStart ∨ save then
      [{ name := inputVolumeName, mountPath := lifecycleInputRoot, readOnly := true }] else []) ++
    (if ctx.options.connectivityRevisionConfigMapName ≠ "" ∧ postStart then
      [{ name := connectivityRevisionVolumeName, mountPath := connectivityRevisionMountPath
         readOnly := true }] else []) ++
    (if ctx.options.entropySecretName ≠ "" ∧ (readiness ∨ postDeploy ∨ save) then
      [{ name := entropyVolumeName, mountPath := lifecycleEntropyRoot, readOnly := true }]
      else []) ++
    (if readiness ∧ policy.sshPasswordKey ≠ "" then
      [{ name := probeSecretVolumeName, mountPath := probePasswordPath
         subPath := policy.sshPasswordKey, readOnly := true }] else []) ++
    (if planned.id ∈ ctx.targets.artifact then
      [{ name := artifactVolume
         mountPath := joinPath lib lifecycleArtifactRoot (artifactNodeDirectory lib planned.nodeID)
         readOnly := ¬postDeploy ∧ ¬save }] else []) ++
    (if postDeploy ∧ certificateVolume ≠ "" then
      [{ name := certificateVolume, mountPath := lifecycleCertificateRoot, readOnly := true }]
      else []) ++
    (if postDeploy ∧ usesLogBroker ctx.plan ctx.options = true then
      [{ name := applicationRuntimeAPIName, mountPath := applicationRuntimeAPIRoot
         readOnly := true }] else []))

def sortMounts (mounts : List VolumeMount) : List VolumeMount :=
  lib.sorting.sort (compareOn (·.mountPath)) mounts

def postStartCommand (planned : ContainerPlan) : List String :=
  let postDeploy := planned.id ∈ ctx.targets.importedPostDeploy
  [lifecycleBinaryPath, runtimeCommandName, "lifecycle", "--plan",
    lifecyclePlanRoot ++ "/plan.json",
    "--input", lifecycleInputRoot ++ "/input.json", "--phase", "PostStart",
    "--containerID", planned.id, "--artifacts", lifecycleArtifactRoot,
    "--scratch", lifecycleScratchRoot, "--revision", ctx.plan.planner.revision] ++
  ctx.options.persistentVolumeClaims.keys.flatMap (fun nodeID => ["--persistentNode", nodeID]) ++
  (if postDeploy ∧ certificateNames lib ctx.plan ctx.items planned.nodeID ≠ "" then
    ["--certificates", lifecycleCertificateRoot] else []) ++
  (if ctx.options.entropySecretName ≠ "" ∧ postDeploy then
    ["--entropy", lifecycleEntropyRoot] else []) ++
  (if ctx.options.connectivityRevisionConfigMapName ≠ "" then
    ["--connectivityRevision", connectivityRevisionMountPath ++ "/revision.json"] else [])

def readinessCommand (planned : ContainerPlan) : List String :=
  let policy := ctx.options.policy planned.nodeID
  [lifecycleBinaryPath, runtimeCommandName, "readiness", "--plan",
    lifecyclePlanRoot ++ "/plan.json", "--input", lifecycleInputRoot ++ "/input.json",
    "--containerID", planned.id, "--scratch", lifecycleScratchRoot,
    "--revision", ctx.plan.planner.revision] ++
  (if ctx.options.entropySecretName ≠ "" then ["--entropy", lifecycleEntropyRoot] else []) ++
  (if policy.tcpPort ≠ 0 then ["--tcpPort", toString policy.tcpPort] else []) ++
  (if policy.sshPasswordKey ≠ "" then
    ["--sshUsername", policy.sshUsername, "--sshPort", toString policy.sshPort,
      "--sshPasswordFile", probePasswordPath] else [])

def applyLifecycle (planned : ContainerPlan) (container : Container) :
    Except RenderError Container := do
  let mounts ← lifecycleMounts lib ctx planned
  checkEach (fun before (mount : VolumeMount) =>
    rejectIf (∃ existing ∈ container.volumeMounts ++ before, existing.mountPath = mount.mountPath)
      (.text ("container " ++ quoted planned.id ++ " already uses lifecycle mount path " ++
        quoted mount.mountPath))) mounts
  .ok { container with
        volumeMounts := sortMounts lib (container.volumeMounts ++ mounts)
        command := [lifecycleBinaryPath, runtimeCommandName, "launch", "--plan",
          lifecyclePlanRoot ++ "/plan.json", "--containerID", planned.id]
        args := []
        postStart :=
          if planned.id ∈ ctx.targets.postStart then some (postStartCommand lib ctx planned)
          else none
        readiness :=
          if planned.id ∈ ctx.targets.readiness then some (readinessCommand ctx planned)
          else none }

/-- Every application container is a target. -/
def renderApplicationLifecycle (plan : Plan) (options : Options) (items : String → List KeyToPath)
    (containers : List Container) : Except RenderError (List Container) := do
  checkEach (fun before volume =>
    rejectIf (∃ earlier ∈ before, earlier.nodeID = volume.nodeID)
      (.text "logical Node has multiple artifact volumes"))
    (plan.volumes.filter fun volume => volume.kind = .volumeArtifacts)
  let targets ← plan.actions.foldlM (lifecycleAction lib plan) {}
  let ctx : LifecycleContext := { plan, options, targets, items }
  (plan.containers.zip containers).mapM fun entry => applyLifecycle lib ctx entry.1 entry.2

def deviceNetnsPath : String := deviceNetnsMountPath ++ "/" ++ deviceNetnsFileName

def applyDeviceNetns (container : Container) : Except RenderError Container := do
  rejectIf (container.command.take 3 ≠ [lifecycleBinaryPath, runtimeCommandName, "launch"])
    (.text ("application container " ++ quoted container.name ++
      " does not use the launch boundary"))
  rejectIf (∃ mount ∈ container.volumeMounts, mount.mountPath = deviceNetnsMountPath)
    (.text ("application container " ++ quoted container.name ++
      " already uses netns mount path " ++ quoted deviceNetnsMountPath))
  rejectIf (∃ entry ∈ container.env, EnvVar.name entry = podUIDEnvironmentName)
    (.text ("application container " ++ quoted container.name ++
      " already declares C9S_POD_UID"))
  .ok { container with
        env := container.env ++ [.fieldRef podUIDEnvironmentName podUIDFieldPath]
        volumeMounts := sortMounts lib (container.volumeMounts ++
          [{ name := deviceNetnsVolumeName, mountPath := deviceNetnsMountPath
             propagation := some .hostToContainer }])
        command := container.command ++ ["--deviceNetns", deviceNetnsPath] }

def isolateContainers (containers : List Container) : Except RenderError (List Container) :=
  if options.networkIsolation then containers.mapM (applyDeviceNetns lib) else .ok containers

/-- Without the policies themselves. -/
def applyApplicationImagePullPolicy : Except RenderError Unit :=
  if options.applicationImagePullPolicy = "" then .ok ()
  else ((pullPolicy lib options.applicationImagePullPolicy).mapError
    (RenderError.within "direct Pod application image pull policy")).map fun _ => ()

def artifactMounts (plan : Plan) : List VolumeMount :=
  (plan.volumes.filter fun volume => volume.kind = .volumeArtifacts).map fun volume =>
    { name := volumeNames lib plan volume.id
      mountPath := joinPath lib artifactRootPath (artifactNodeDirectory lib volume.nodeID) }

def deviceMounts (plan : Plan) : List VolumeMount :=
  let mounts := plan.containers.flatMap fun container =>
    container.security.devices.mapIdx fun index device =>
      { (renderDevice lib container.id index device).2 with readOnly := true }
  mounts.foldl (fun kept mount =>
    if kept.any (·.mountPath = mount.mountPath) then kept else kept ++ [mount]) []

def preparationMounts (plan : Plan) (options : Options) (payloadMounts : List VolumeMount) :
    List VolumeMount :=
  [{ name := planVolumeName, mountPath := planMountPath, readOnly := true },
    { name := inputVolumeName, mountPath := inputMountPath, readOnly := true },
    { name := preparationScratchName, mountPath := preparationScratchPath }] ++
  (if options.certificateSecretName ≠ "" then
    [{ name := certificateVolumeName, mountPath := certificateRootPath, readOnly := true }]
    else []) ++
  (if options.entropySecretName ≠ "" then
    [{ name := entropyVolumeName, mountPath := entropyRootPath, readOnly := true }] else []) ++
  (if plan.containers ≠ [] then
    [{ name := lifecycleVolumeName, mountPath := lifecycleBinaryRoot },
      { name := lifecycleCacheVolumeName, mountPath := lifecycleBinaryCachePath }] else []) ++
  deviceMounts lib plan ++ payloadMounts ++ artifactMounts lib plan

def connectivityMounts (plan : Plan) (options : Options) (items : String → List KeyToPath)
    (payloadMounts : List VolumeMount) : List VolumeMount :=
  [{ name := planVolumeName, mountPath := planMountPath, readOnly := true },
    { name := inputVolumeName, mountPath := inputMountPath, readOnly := true },
    { name := connectivityStateName, mountPath := connectivityStatePath },
    { name := peerDirectoryVolumeName, mountPath := connectivityPeerDirectoryRoot
      readOnly := true }] ++
  (if options.networkIsolation then
    [{ name := deviceNetnsVolumeName, mountPath := deviceNetnsMountPath
       propagation := some .hostToContainer }] else []) ++
  (if options.connectivityRevisionConfigMapName ≠ "" then
    [{ name := connectivityRevisionVolumeName, mountPath := connectivityRevisionMountPath
       readOnly := true }] else []) ++
  (if usesLogBroker plan options then
    [{ name := applicationRuntimeAPIName, mountPath := applicationRuntimeAPIRoot },
      { name := applicationRuntimeCredentialName, mountPath := applicationRuntimeCredentialRoot
        readOnly := true }] else []) ++
  (if hasImportedEndpointLifecycle plan then
    [{ name := hostNetworkNamespaceName, mountPath := hostNetworkNamespaceMountPath
       readOnly := true }] ++ payloadMounts ++
    (if options.entropySecretName ≠ "" then
      [{ name := entropyVolumeName, mountPath := entropyRootPath, readOnly := true }] else []) ++
    artifactMounts lib plan ++
    (if (renderEndpointCertificateVolume lib plan options items).isSome then
      [{ name := endpointCertificateName, mountPath := certificateRootPath, readOnly := true }]
      else []) else [])

/-- Without arguments, environment, security and probes. -/
def renderHelpers (plan : Plan) (options : Options) (items : String → List KeyToPath)
    (payloadMounts : List VolumeMount) : Except RenderError (List Container) := do
  let mounts := preparationMounts lib plan options payloadMounts
  checkEach (fun before (mount : VolumeMount) =>
    match before.find? fun earlier => earlier.mountPath = mount.mountPath with
    | none => .ok ()
    | some previous =>
      .error (RenderError.text ("target-worker preflight mount path " ++ quoted mount.mountPath ++
        " is requested by " ++ quoted previous.name ++ " and " ++ quoted mount.name))) mounts
  .ok [
    { name := preparationName, image := options.preparationImage
      command := [runtimeBinaryPath, runtimeCommandName, "prepare"]
      volumeMounts := sortMounts lib mounts },
    { name := connectivityName, image := options.connectivityImage
      command := [runtimeBinaryPath, runtimeCommandName, "connectivity"]
      volumeMounts := sortMounts lib (connectivityMounts lib plan options items payloadMounts) }]

def deviceNetnsInitContainer : Container where
  name := deviceNetnsInitName
  image := options.preparationImage
  command := [runtimeBinaryPath, runtimeCommandName, "device-netns"]
  args := ["--path", deviceNetnsPath]
  env := [.fieldRef podUIDEnvironmentName podUIDFieldPath]
  volumeMounts := [{ name := deviceNetnsVolumeName, mountPath := deviceNetnsMountPath
                     propagation := some .bidirectional }]

def startupGateContainer (image : String) : Container where
  name := startupGateContainerName
  image := image
  command := [runtimeBinaryPath, runtimeCommandName, "startup-gate"]
  args := ["--directory", "/var/run/c9s-startup"]
  volumeMounts := [{ name := startupGateContainerName, mountPath := "/var/run/c9s-startup"
                     readOnly := true }]

def initContainers (helpers : List Container) : List Container :=
  let isolated :=
    if options.networkIsolation then
      let before := helpers.takeWhile (·.name ≠ connectivityName)
      before ++ deviceNetnsInitContainer options :: helpers.drop before.length
    else helpers
  if options.startupGate then startupGateContainer options.preparationImage :: isolated
  else isolated

def renderNormalized (plan : Plan) (options : Options) : Except RenderError Pod := do
  validateOptions lib options
  validateNormalizedPlan lib plan
  let _ ← (plan.digest lib.toLibrary).mapError RenderError.plan
  let _ ← defaultApplicationContainer lib plan options.name
  let planned ← renderVolumes lib plan.volumes options.persistentVolumeClaims
  let payloads ← renderPayloadSources lib plan options.namespaceName options.payloads
  let items ← certificateProjectionItemsByNode lib plan options
  let indexed ← indexMounts lib plan
  let rendered ← renderContainers lib plan indexed options.enableContainerStopSignals
  let containers ← renderApplicationLifecycle lib plan options items (rendered.map fst)
  let containers ← isolateContainers lib options containers
  rejectIf (usesLogBroker plan options = true ∧ options.serviceAccountName = "")
    (.text "application log broker has no service account")
  applyApplicationImagePullPolicy lib options
  let volumes := planned ++ fixedVolumes lib plan options (payloads.map fst) items ++
    rendered.flatMap snd
  validateUniqueVolumeNames volumes
  let helpers ← renderHelpers lib plan options items (payloads.map snd)
  .ok { initContainers := initContainers options helpers
        containers
        volumes := volumes ++ if options.startupGate then [startupGateVolume] else [] }

def render (plan : Plan) (options : Options) : Except RenderError Pod := do
  let normalized ← (normalizePlan lib.toLibrary plan).mapError RenderError.plan
  renderNormalized lib normalized options

end Clabernetes.DirectPod
