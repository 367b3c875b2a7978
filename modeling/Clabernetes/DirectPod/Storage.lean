import Clabernetes.DirectPod.Pod

/-!
# The volumes of a Pod

The volumes that `internal/directpod/renderer.go` renders: those of the plan, the sources of
payloads, and the projections of the certificate Secret. A map that the source builds and only looks
up is the function that looks it up.
-/

namespace Clabernetes.DirectPod

open Base DevicePlan Links

inductive RenderError where
  | plan (err : Error)
  | text (message : String)
  deriving DecidableEq

def RenderError.within (subject : String) : RenderError → RenderError
  | .plan err => .plan err
  | .text message => .text (subject ++ ": " ++ message)

variable (lib : RenderLibrary)

def volumeSource (claims : GoMap String String) (planned : VolumePlan) :
    Except RenderError VolumeSource := do
  let subject := "volume " ++ quoted planned.id
  match planned.kind with
  | .volumeArtifacts =>
    let claimName := claims[planned.nodeID]?.getD ""
    if claimName ≠ "" then
      rejectIf (lib.isDNS1123Subdomain claimName = false)
        (.text (subject ++ " has an invalid claim name"))
      .ok (.persistentVolumeClaim claimName)
    else .ok (.emptyDir false "")
  | .volumeEmptyDir =>
    let memory := lib.equalFold planned.medium "Memory"
    rejectIf (memory = false ∧ planned.medium ≠ "") (.text (subject ++ " has unsupported medium"))
    rejectIf (planned.size ≠ "" ∧ lib.parsesQuantity planned.size = false)
      (.text (subject ++ " has invalid size"))
    .ok (.emptyDir memory planned.size)
  | .volumeConfigMap =>
    rejectIf (planned.reference = "") (.text (subject ++ " has no ConfigMap reference"))
    .ok (.configMap planned.reference [])
  | .volumeSecret =>
    rejectIf (planned.reference = "") (.text (subject ++ " has no Secret reference"))
    .ok (.secret planned.reference [])
  | .volumePersistent =>
    rejectIf (planned.reference = "") (.text (subject ++ " has no claim reference"))
    .ok (.persistentVolumeClaim planned.reference)
  | .volumeDevice =>
    rejectIf (lib.cleanPath planned.reference ≠ planned.reference ∨
        "/dev/".toList.isPrefixOf planned.reference.toList = false)
      (.text (subject ++ " is not a portable host device"))
    .ok (.hostPath planned.reference .charDev)
  | .other text _ => .error (.text (subject ++ " has unsupported kind " ++ quoted text))

def plannedVolumeName (id : String) : String := dnsName lib "volume" id

def renderVolumesFrom (claims : GoMap String String) :
    List VolumePlan → List VolumePlan → Except RenderError (List Volume)
  | _, [] => .ok []
  | before, planned :: rest => do
    match before.find? fun earlier =>
        plannedVolumeName lib earlier.id = plannedVolumeName lib planned.id ∧
          earlier.id ≠ planned.id with
    | some previous =>
      .error (.text ("planned volume names " ++ quoted previous.id ++ " and " ++
        quoted planned.id ++ " collide"))
    | none =>
      let source ← volumeSource lib claims planned
      let volumes ← renderVolumesFrom claims (before ++ [planned]) rest
      .ok ({ name := plannedVolumeName lib planned.id, source } :: volumes)

def renderVolumes (plans : List VolumePlan) (claims : GoMap String String) :
    Except RenderError (List Volume) :=
  renderVolumesFrom lib claims [] plans

def volumeNames (plan : Plan) (id : String) : String :=
  if plan.volumes.any (·.id = id) then plannedVolumeName lib id else ""

def mountPropagation (value : String) : Except RenderError (Option MountPropagation) :=
  let text := lib.toLower value
  if text ∈ ["", "private", "rprivate"] then .ok none
  else if text ∈ ["slave", "rslave"] then .ok (some .hostToContainer)
  else if text ∈ ["shared", "rshared"] then .ok (some .bidirectional)
  else .error (.text ("mount propagation " ++ quoted value ++ " is unsupported"))

def indexMount (plan : Plan) (mount : MountPlan) : Except RenderError (String × VolumeMount) := do
  let volumeName := volumeNames lib plan mount.volumeID
  rejectIf (volumeName = "")
    (.text ("mount " ++ quoted mount.id ++ " references unknown volume"))
  let propagation ← (mountPropagation lib mount.propagation).mapError
    (RenderError.within ("mount " ++ quoted mount.id))
  .ok (mount.containerID,
    { name := volumeName, mountPath := mount.destination, subPath := mount.sourcePath
      readOnly := mount.readOnly, propagation })

def indexMounts (plan : Plan) : Except RenderError (List (String × VolumeMount)) :=
  plan.mounts.mapM (indexMount lib plan)

def mountsByContainer (indexed : List (String × VolumeMount)) (containerID : String) :
    List VolumeMount :=
  (indexed.filter (·.1 = containerID)).map Prod.snd

def cutAt (separator : Char) : List Char → Option (List Char × List Char)
  | [] => none
  | c :: rest =>
    if c = separator then some ([], rest)
    else (cutAt separator rest).map fun parts => (c :: parts.1, parts.2)

def parsePayloadObjectReference (reference : String) : Option (String × String × String) :=
  match cutAt ':' reference.toList with
  | none => none
  | some (object, key) =>
    match cutAt '/' object with
    | none => none
    | some (namespaceName, name) =>
      if namespaceName = [] ∨ name = [] ∨ key = [] ∨ '/' ∈ key then none
      else some (String.ofList namespaceName, String.ofList name, String.ofList key)

def payloadVolumeName (id : String) : String := dnsName lib "payload" id

def payloadSource (namespaceName : String) (payload : PayloadInput) :
    Except RenderError (Option VolumeSource) :=
  let subject := "payload input " ++ quoted payload.id
  if payload.kind = .payloadURL then .ok none
  else if payload.kind ≠ .payloadConfigMap ∧ payload.kind ≠ .payloadSecret then
    .error (.text (subject ++ " has no typed Pod source"))
  else
    let invalid : Except RenderError (Option VolumeSource) :=
      .error (.text (subject ++ " has an invalid same-namespace object reference"))
    match parsePayloadObjectReference payload.reference with
    | none => invalid
    | some (objectNamespace, objectName, key) =>
      if objectNamespace ≠ namespaceName then invalid
      else
        let items : List KeyToPath := [{ key, path := "source", mode := some 0o444 }]
        if payload.kind = .payloadConfigMap then .ok (some (.configMap objectName items))
        else .ok (some (.secret objectName items))

def payloadFile (plan : Plan) (payload : PayloadInput) : Option FilePlan :=
  plan.files.find? fun file =>
    file.sourceKind = .fileSourcePayload ∧ file.sourceReference = payload.id

def renderPayloadSource (plan : Plan) (namespaceName : String) (before : List PayloadInput)
    (payload : PayloadInput) : Except RenderError (List (Volume × VolumeMount)) := do
  let subject := "payload input " ++ quoted payload.id
  rejectIf (∃ earlier ∈ before, earlier.id = payload.id) (.text (subject ++ " is duplicated"))
  rejectIf ((payloadFile plan payload).all fun file =>
      file.nodeID ≠ payload.nodeID ∨ file.destination ≠ payload.destination ∨
        file.mode ≠ payload.mode ∨ file.digest ≠ payload.digest)
    (.text (subject ++ " differs from the accepted file plan"))
  match ← payloadSource namespaceName payload with
  | none => .ok []
  | some source =>
    let name := payloadVolumeName lib payload.id
    .ok [({ name, source },
      { name, mountPath := joinPath lib payloadRootPath (artifactNodeDirectory lib payload.id)
        readOnly := true })]

def renderPayloadSourcesFrom (plan : Plan) (namespaceName : String) :
    List PayloadInput → List PayloadInput → Except RenderError (List (Volume × VolumeMount))
  | _, [] => .ok []
  | before, payload :: rest => do
    let first ← renderPayloadSource lib plan namespaceName before payload
    let others ← renderPayloadSourcesFrom plan namespaceName (before ++ [payload]) rest
    .ok (first ++ others)

def renderPayloadSources (plan : Plan) (namespaceName : String) (payloads : List PayloadInput) :
    Except RenderError (List (Volume × VolumeMount)) := do
  let files := plan.files.filter fun file => file.sourceKind = .fileSourcePayload
  checkEach (fun before file =>
    rejectIf (∃ earlier ∈ before, earlier.sourceReference = file.sourceReference)
      (.text ("payload " ++ quoted file.sourceReference ++
        " is referenced by multiple file plans"))) files
  let sources ← renderPayloadSourcesFrom lib plan namespaceName [] payloads
  rejectIf (∃ file ∈ files, ∀ payload ∈ payloads, payload.id ≠ file.sourceReference)
    (.text "accepted file plan references an unavailable typed payload source")
  .ok sources

def materialKeys (options : Options) (nodeID : String) : List String :=
  (options.certificateInputs.filter (·.nodeID = nodeID)).flatMap fun input =>
    let keys := certificateMaterialKeys lib input.nodeID input.storageName
    [keys.1, keys.2]

def certificateItems (options : Options) (nodeID : String) : List KeyToPath :=
  if options.certificateInputs.any (·.nodeID = nodeID) then
    (lib.sorting.sort compare (certificateCACertKey :: materialKeys lib options nodeID).dedup).map
      fun key => { key, path := key }
  else []

def certificateProjectionItemsByNode (plan : Plan) (options : Options) :
    Except RenderError (String → List KeyToPath) := do
  if options.certificateInputs = [] then .ok fun _ => []
  else
    rejectIf (options.certificateSecretName = "")
      (.text "lifecycle certificates have no backing Secret")
    checkEach (fun _ input =>
      rejectIf (plan.nodes.any (·.id = input.nodeID) = false ∨ input.storageName = "")
        (.text "lifecycle certificate input has no planned Node identity"))
      options.certificateInputs
    .ok (certificateItems lib options)

def lifecycleCertificateName (nodeID : String) : String := dnsName lib "node-lifecycle-cert" nodeID

/-- `:1213-1245`; the map of the names is `certificateNames`. -/
def renderLifecycleCertificateVolumes (plan : Plan) (options : Options)
    (items : String → List KeyToPath) : List Volume :=
  (plan.nodes.filter fun node => items node.id ≠ []).map fun node =>
    { name := lifecycleCertificateName lib node.id
      source := .secret options.certificateSecretName (items node.id) }

def certificateNames (plan : Plan) (items : String → List KeyToPath) (nodeID : String) : String :=
  if plan.nodes.any (fun node => node.id = nodeID) ∧ items nodeID ≠ [] then
    lifecycleCertificateName lib nodeID
  else ""

def deploysEndpoints (action : Action) : Bool :=
  action.phase = .phaseInterfaceFixup && action.kind = .actionImportedDeployEndpoints &&
    action.importedDeployEndpoints.isSome

def renderEndpointCertificateVolume (plan : Plan) (options : Options)
    (items : String → List KeyToPath) : Option Volume :=
  let keys := ((plan.actions.filter deploysEndpoints).flatMap fun action =>
    (items action.target.nodeID).map (·.key)).dedup
  if keys = [] then none
  else some
    { name := endpointCertificateName
      source := .secret options.certificateSecretName
        ((lib.sorting.sort compare keys).map fun key => { key, path := key }) }

def peerDirectoryProjections : List Projection :=
  (List.range 8).map fun shard =>
    .configMap ("c9s-peer-directory-" ++ toString shard)
      [{ key := "peers.json", path := "peers-" ++ toString shard ++ ".json" }] true

def hasImportedEndpointLifecycle (plan : Plan) : Bool :=
  plan.actions.any deploysEndpoints || plan.interfaces.any (·.connectivity = "host")

def hasImportedPostDeployLifecycle (plan : Plan) : Bool :=
  plan.actions.any fun action =>
    action.phase = .phasePostStart && action.kind = .actionImportedPostDeploy &&
      action.importedPostDeploy.isSome

def validateUniqueVolumeNames (volumes : List Volume) : Except RenderError Unit :=
  checkEach (fun before volume =>
    rejectIf (∃ earlier ∈ before, earlier.name = volume.name)
      (.text ("rendered volume name " ++ quoted volume.name ++ " is duplicated"))) volumes

def usesLogBroker (plan : Plan) (options : Options) : Bool :=
  options.enableApplicationLogBroker && hasImportedPostDeployLifecycle plan

/-- The volumes that do not depend on the plan's own volumes, in the order in which they are
appended; `:514-778`. -/
def fixedVolumes (plan : Plan) (options : Options) (payloadVolumes : List Volume)
    (items : String → List KeyToPath) : List Volume :=
  [{ name := planVolumeName
     source := .configMap options.planConfigMapName
      [{ key := "plan.json", path := "plan.json" }] },
    { name := connectivityStateName, source := .emptyDir false "" }] ++
  (if options.networkIsolation then
    [{ name := deviceNetnsVolumeName
       source := .hostPath deviceNetnsHostPath .directoryOrCreate }] else []) ++
  [{ name := peerDirectoryVolumeName, source := .projected peerDirectoryProjections }] ++
  (if options.connectivityRevisionConfigMapName ≠ "" then
    [{ name := connectivityRevisionVolumeName
       source := .configMap options.connectivityRevisionConfigMapName
        [{ key := "revision.json", path := "revision.json" }] }] else []) ++
  (if hasImportedEndpointLifecycle plan then
    [{ name := hostNetworkNamespaceName
       source := .hostPath hostNetworkNamespaceSourcePath .directory }] else []) ++
  [{ name := preparationScratchName, source := .emptyDir false "" },
    { name := inputVolumeName
      source := .configMap options.inputConfigMapName
        [{ key := "input.json", path := "input.json" }] }] ++
  payloadVolumes ++
  (if options.certificateSecretName ≠ "" then
    [{ name := certificateVolumeName, source := .secret options.certificateSecretName [] }]
    else []) ++
  (if options.entropySecretName ≠ "" then
    [{ name := entropyVolumeName
       source := .secret options.entropySecretName
        [{ key := entropySeedKey, path := entropySeedKey }] }] else []) ++
  renderLifecycleCertificateVolumes lib plan options items ++
  (renderEndpointCertificateVolume lib plan options items).toList ++
  (if options.probeSecretName ≠ "" then
    [{ name := probeSecretVolumeName, source := .secret options.probeSecretName [] }] else []) ++
  (if plan.containers ≠ [] then
    [{ name := lifecycleVolumeName, source := .emptyDir false "" },
      { name := lifecycleCacheVolumeName
        source := .hostPath lifecycleBinaryCachePath .directoryOrCreate },
      { name := lifecycleScratchName, source := .emptyDir false "" }] else []) ++
  (if usesLogBroker plan options then
    [{ name := applicationRuntimeAPIName, source := .emptyDir false "" },
      { name := applicationRuntimeCredentialName
        source := .projected [.serviceAccountToken "token" 3600,
          .configMap "kube-root-ca.crt" [{ key := "ca.crt", path := "ca.crt" }] false] }] else [])

def startupGateVolume : Volume where
  name := startupGateContainerName
  source := .downwardAPI [("uid", podUIDFieldPath),
    ("admitted", "metadata.annotations['c9s.run/startup-host-admitted']")]

end Clabernetes.DirectPod
