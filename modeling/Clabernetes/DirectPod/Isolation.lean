import Clabernetes.DirectPod.Rendered
import Mathlib.Data.List.Dedup

/-!
# What application containers mount

Every mount of an application container is a mount of the plan, a device, or one that its lifecycle
boundary or the network isolation adds. A mount finds its volume by the uniqueness of volume names,
so what a container can read follows from where its mounts come from.
-/

namespace Clabernetes.DirectPod

open Base DevicePlan Links Std List Except

def Options.namedSecrets (options : Options) : List String :=
  [options.certificateSecretName, options.entropySecretName, options.probeSecretName] ++
    options.imagePullSecrets ++
    (options.payloads.filter (·.kind = .payloadSecret)).filterMap fun payload =>
      (parsePayloadObjectReference payload.reference).map (·.2.1)

inductive SecretScope (lib : RenderLibrary) (options : Options) (nodeID : String)
    (mount : VolumeMount) : String → List KeyToPath → Prop where
  /-- The certificates of the Node, beside the certificate of the authority. -/
  | certificates (items : List KeyToPath) (hitems : items ≠ [])
      (hkeys : ∀ item ∈ items, item.key = certificateCACertKey ∨
        item.key ∈ materialKeys lib options nodeID) :
      SecretScope lib options nodeID mount options.certificateSecretName items
  /-- The entropy of the workload. -/
  | entropy : SecretScope lib options nodeID mount options.entropySecretName
      [{ key := entropySeedKey, path := entropySeedKey }]
  /-- The probe password of the Node. -/
  | probe (hkey : (options.policy nodeID).sshPasswordKey ≠ "")
      (hsubPath : mount.subPath = (options.policy nodeID).sshPasswordKey) :
      SecretScope lib options nodeID mount options.probeSecretName []
  /-- Another Secret that the options name. -/
  | named (secretName : String) (hnamed : secretName ∈ options.namedSecrets)
      (hcertificate : secretName ≠ options.certificateSecretName)
      (hprobe : secretName ≠ options.probeSecretName) :
      SecretScope lib options nodeID mount secretName []

def ClaimScope (options : Options) (nodeID claimName : String) : Prop :=
  options.persistentVolumeClaims[nodeID]? = some claimName ∨
    ∀ other : String, options.persistentVolumeClaims[other]? ≠ some claimName

/-- A mount of a container of a Node reads that Node's material only. -/
structure Confined (lib : RenderLibrary) (plan : Plan) (options : Options) (nodeID : String)
    (mount : VolumeMount) (volume : Volume) : Prop where
  artifacts : ∀ planned ∈ plan.volumes, planned.kind = .volumeArtifacts →
    volume.name = plannedVolumeName lib planned.id → planned.nodeID = nodeID
  claims : ∀ claimName, volume.source = .persistentVolumeClaim claimName →
    ClaimScope options nodeID claimName
  secrets : ∀ secretName items, volume.source = .secret secretName items →
    SecretScope lib options nodeID mount secretName items
  payloads : ∀ payload ∈ options.payloads, volume.name ≠ payloadVolumeName lib payload.id
  certificateSecret : volume.name ≠ certificateVolumeName
  credentials : volume.name ≠ applicationRuntimeCredentialName ∧
    ∀ sources, volume.source = .projected sources →
      ∀ path seconds, .serviceAccountToken path seconds ∉ sources

/-- Another Secret that the options name than those for certificates and probes, or the Node's key
of the latter. -/
def OwnSecret (options : Options) (nodeID subPath secretName : String) : Prop :=
  (secretName ∈ options.namedSecrets ∧ secretName ≠ options.certificateSecretName ∧
      secretName ≠ options.probeSecretName) ∨
    secretName = options.probeSecretName ∧ (options.policy nodeID).sshPasswordKey ≠ "" ∧
      subPath = (options.policy nodeID).sshPasswordKey

def OwnVolume (options : Options) (nodeID subPath : String) (volume : VolumePlan) : Prop :=
  (volume.kind = .volumeArtifacts → volume.nodeID = nodeID) ∧
    (volume.kind = .volumePersistent → ClaimScope options nodeID volume.reference) ∧
    (volume.kind = .volumeSecret → OwnSecret options nodeID subPath volume.reference)

/-- The plan mounts into a container artifacts of its own Node only, no claim of another Node, and
Secrets as `OwnSecret` says. -/
def OwnMounts (plan : Plan) (options : Options) : Prop :=
  ∀ mount ∈ plan.mounts, ∀ container ∈ plan.containers, container.id = mount.containerID →
    ∀ volume ∈ plan.volumes, volume.id = mount.volumeID →
      OwnVolume options container.nodeID mount.sourcePath volume

def Harmless (source : VolumeSource) : Prop :=
  (∀ secretName items, source ≠ .secret secretName items) ∧
    (∀ claimName, source ≠ .persistentVolumeClaim claimName) ∧
    ∀ sources, source = .projected sources →
      ∀ path seconds, .serviceAccountToken path seconds ∉ sources

/-- A name that is neither of the plan's volumes, nor of a payload, nor of the two helpers' own. -/
def Reserved (name : String) : Prop :=
  ¬stemmed "volume" name ∧ ¬stemmed "payload" name ∧ name ≠ certificateVolumeName ∧
    name ≠ applicationRuntimeCredentialName

instance (name : String) : Decidable (Reserved name) := inferInstanceAs (Decidable (_ ∧ _ ∧ _ ∧ _))

/-- Where a mount of a container comes from, with the volume that it mounts. -/
inductive Origin (lib : RenderLibrary) (plan : Plan) (options : Options)
    (container : ContainerPlan) (mount : VolumeMount) : Volume → Prop where
  | planned (request : MountPlan) (hrequest : request ∈ plan.mounts)
      (hcontainer : container.id = request.containerID) (volume : VolumePlan)
      (hvolume : volume ∈ plan.volumes) (hid : volume.id = request.volumeID)
      (hsubPath : mount.subPath = request.sourcePath) (source : VolumeSource)
      (hsource : volumeSource lib options.persistentVolumeClaims volume = .ok source) :
      Origin lib plan options container mount
        { name := plannedVolumeName lib volume.id, source }
  | artifacts (volume : VolumePlan) (hvolume : volume ∈ plan.volumes)
      (hkind : volume.kind = .volumeArtifacts) (hnode : volume.nodeID = container.nodeID)
      (source : VolumeSource)
      (hsource : volumeSource lib options.persistentVolumeClaims volume = .ok source) :
      Origin lib plan options container mount
        { name := plannedVolumeName lib volume.id, source }
  | shared (name : String) (source : VolumeSource) (hname : Reserved name)
      (hsource : Harmless source) :
      Origin lib plan options container mount { name, source }
  | entropy : Origin lib plan options container mount
      { name := entropyVolumeName
        source := .secret options.entropySecretName
          [{ key := entropySeedKey, path := entropySeedKey }] }
  | probe (hkey : (options.policy container.nodeID).sshPasswordKey ≠ "")
      (hsubPath : mount.subPath = (options.policy container.nodeID).sshPasswordKey) :
      Origin lib plan options container mount
        { name := probeSecretVolumeName, source := .secret options.probeSecretName [] }
  | certificates (items : List KeyToPath) (hitems : items ≠ [])
      (hkeys : ∀ item ∈ items, item.key = certificateCACertKey ∨
        item.key ∈ materialKeys lib options container.nodeID) :
      Origin lib plan options container mount
        { name := lifecycleCertificateName lib container.nodeID
          source := .secret options.certificateSecretName items }

variable {container : ContainerPlan} {mount : VolumeMount} {nodeID stem name : String}
  {source : VolumeSource} {volumes : List Volume} {volume : Volume}

theorem not_stemmed_of_ne {other : String} (h : stemmed other name)
    (hne : ¬(stem.toList ++ ['-']) <+: (other.toList ++ ['-']))
    (hne' : ¬(other.toList ++ ['-']) <+: (stem.toList ++ ['-'])) : ¬stemmed stem name := by
  intro hstem
  rcases prefix_or_prefix_of_prefix hstem h with hprefix | hprefix
  · exact hne hprefix
  · exact hne' hprefix

theorem ne_of_not_stemmed (h : ¬stemmed stem name) (lib : RenderLibrary) (identity : String) :
    name ≠ dnsName lib stem identity := by
  rintro rfl
  exact h (stemmed_dnsName lib stem identity)

variable {lib : RenderLibrary} {plan : Plan} {options : Options}

theorem harmless_emptyDir (memory : Bool) (sizeLimit : String) :
    Harmless (.emptyDir memory sizeLimit) := by
  simp [Harmless]

theorem harmless_configMap (name : String) (items : List KeyToPath) :
    Harmless (.configMap name items) := by
  simp [Harmless]

theorem harmless_peers : Harmless (.projected peerDirectoryProjections) := by
  refine ⟨by simp, by simp, ?_⟩
  rintro sources ⟨⟩ path seconds hmem
  obtain ⟨shard, -, heq⟩ := mem_map.mp hmem
  cases heq

theorem harmless_hostPath (path : String) (type : HostPathType) :
    Harmless (.hostPath path type) := by
  simp [Harmless]

theorem volumeSource_cases {claims : GoMap String String} {planned : VolumePlan}
    (h : volumeSource lib claims planned = .ok source) : Harmless source ∨
      (planned.kind = .volumeArtifacts ∧
        ∃ claimName, claims[planned.nodeID]? = some claimName ∧
          source = .persistentVolumeClaim claimName) ∨
      (planned.kind = .volumePersistent ∧ source = .persistentVolumeClaim planned.reference) ∨
      (planned.kind = .volumeSecret ∧ source = .secret planned.reference []) := by
  cases hkind : planned.kind with simp only [volumeSource, hkind, bind_eq_ok, ok.injEq] at h
  | volumeArtifacts =>
    split at h
    · next hclaim =>
      obtain ⟨-, h⟩ := bind_eq_ok.mp h
      cases h
      cases hlookup : claims[planned.nodeID]? with
      | none => simp [hlookup] at hclaim
      | some claimName => exact .inr (.inl ⟨rfl, claimName, rfl, rfl⟩)
    · cases h
      exact .inl (harmless_emptyDir _ _)
  | volumeEmptyDir =>
    obtain ⟨-, -, rfl⟩ := h
    exact .inl (harmless_emptyDir _ _)
  | volumeConfigMap =>
    obtain ⟨-, rfl⟩ := h
    exact .inl (harmless_configMap _ _)
  | volumeSecret =>
    obtain ⟨-, rfl⟩ := h
    exact .inr (.inr (.inr ⟨rfl, rfl⟩))
  | volumePersistent =>
    obtain ⟨-, rfl⟩ := h
    exact .inr (.inr (.inl ⟨rfl, rfl⟩))
  | volumeDevice =>
    obtain ⟨-, rfl⟩ := h
    exact .inl (harmless_hostPath _ _)
  | other text unknown => cases h

def Distinct (lib : RenderLibrary) (plan : Plan) : Prop :=
  ∀ u ∈ plan.volumes, ∀ v ∈ plan.volumes,
    plannedVolumeName lib u.id = plannedVolumeName lib v.id → u = v

theorem reserved_of_stem (h : stemmed stem name)
    (hvolume : ¬"volume-".toList <+: (stem.toList ++ ['-']) ∧
      ¬(stem.toList ++ ['-']) <+: "volume-".toList)
    (hpayload : ¬"payload-".toList <+: (stem.toList ++ ['-']) ∧
      ¬(stem.toList ++ ['-']) <+: "payload-".toList)
    (hcertificate : ¬stemmed stem certificateVolumeName)
    (hcredential : ¬stemmed stem applicationRuntimeCredentialName) : Reserved name := by
  refine ⟨not_stemmed_of_ne h hvolume.1 hvolume.2, not_stemmed_of_ne h hpayload.1 hpayload.2,
    ?_, ?_⟩
  · rintro rfl
    exact hcertificate h
  · rintro rfl
    exact hcredential h

theorem Confined.of_reserved (hname : Reserved volume.name)
    (hclaims : ∀ claimName, volume.source ≠ .persistentVolumeClaim claimName)
    (hsecrets : ∀ secretName items, volume.source = .secret secretName items →
      SecretScope lib options nodeID mount secretName items)
    (htokens : ∀ sources, volume.source = .projected sources →
      ∀ path seconds, .serviceAccountToken path seconds ∉ sources) :
    Confined lib plan options nodeID mount volume := by
  obtain ⟨hvolume, hpayload, hcertificate, hcredential⟩ := hname
  refine ⟨?_, fun claimName heq => absurd heq (hclaims claimName), hsecrets, ?_, hcertificate,
    hcredential, htokens⟩
  · intro planned _ _ heq
    exact absurd heq (ne_of_not_stemmed hvolume lib planned.id)
  · intro payload _
    exact ne_of_not_stemmed hpayload lib payload.id

theorem SecretScope.own {secretName : String} {items : List KeyToPath}
    (h : SecretScope lib options nodeID mount secretName items) (hitems : items = []) :
    OwnSecret options nodeID mount.subPath secretName := by
  cases h with
  | certificates items hne => exact absurd hitems hne
  | entropy => cases hitems
  | probe hkey hsubPath => exact .inr ⟨rfl, hkey, hsubPath⟩
  | named secretName hnamed hcertificate hprobe => exact .inl ⟨hnamed, hcertificate, hprobe⟩

theorem Confined.own {volume : VolumePlan} (hvolume : volume ∈ plan.volumes)
    (hsource : volumeSource lib options.persistentVolumeClaims volume = .ok source)
    (h : Confined lib plan options nodeID mount
      { name := plannedVolumeName lib volume.id, source }) :
    OwnVolume options nodeID mount.subPath volume := by
  refine ⟨fun hkind => h.artifacts volume hvolume hkind rfl, fun hkind => ?_, fun hkind => ?_⟩
  all_goals
    simp only [volumeSource, hkind, bind_eq_ok, ok.injEq] at hsource
    obtain ⟨-, rfl⟩ := hsource
  · exact h.claims _ rfl
  · exact (h.secrets _ _ rfl).own rfl

theorem Confined.of_planned {volume : VolumePlan} (hdistinct : Distinct lib plan)
    (hvolume : volume ∈ plan.volumes)
    (hsource : volumeSource lib options.persistentVolumeClaims volume = .ok source)
    (hown : OwnVolume options nodeID mount.subPath volume) : Confined lib plan options nodeID mount
      { name := plannedVolumeName lib volume.id, source } := by
  obtain ⟨hartifacts, hclaim, hsecret⟩ := hown
  have hstem : stemmed "volume" (plannedVolumeName lib volume.id) := stemmed_dnsName _ _ _
  have hnotPayload : ¬stemmed "payload" (plannedVolumeName lib volume.id) :=
    not_stemmed_of_ne hstem (by decide) (by decide)
  constructor
  case artifacts =>
    intro planned hplanned hkind heq
    obtain rfl := hdistinct volume hvolume planned hplanned heq
    exact hartifacts hkind
  case payloads => exact fun payload _ => ne_of_not_stemmed hnotPayload lib payload.id
  case certificateSecret =>
    intro heq
    rw [show plannedVolumeName lib volume.id = certificateVolumeName from heq] at hstem
    exact absurd hstem (by decide)
  case credentials =>
    constructor
    · intro heq
      rw [show plannedVolumeName lib volume.id = applicationRuntimeCredentialName from heq] at hstem
      exact absurd hstem (by decide)
    · rintro sources rfl
      rcases volumeSource_cases hsource with hharmless | ⟨-, _, -, heq⟩ | ⟨-, heq⟩ | ⟨-, heq⟩
      · exact hharmless.2.2 sources rfl
      all_goals cases heq
  case claims =>
    rintro claimName rfl
    rcases volumeSource_cases hsource with hharmless | ⟨hkind, own, hown, heq⟩ | ⟨hkind, heq⟩ |
      ⟨-, heq⟩
    · exact absurd rfl (hharmless.2.1 claimName)
    · cases heq
      exact .inl (hartifacts hkind ▸ hown)
    · cases heq
      exact hclaim hkind
    · cases heq
  case secrets =>
    rintro secretName items rfl
    rcases volumeSource_cases hsource with hharmless | ⟨-, _, -, heq⟩ | ⟨-, heq⟩ | ⟨hkind, heq⟩
    · exact absurd rfl (hharmless.1 secretName items)
    · cases heq
    · cases heq
    · cases heq
      rcases hsecret hkind with ⟨hnamed, hcertificate, hprobe⟩ | ⟨hprobe, hkey, hsubPath⟩
      · exact .named _ hnamed hcertificate hprobe
      · rw [hprobe]
        exact .probe hkey hsubPath

/-- Where its mounts come from, a container reads its Node's material only. -/
theorem Origin.confined (h : Origin lib plan options container mount volume)
    (hdistinct : Distinct lib plan) (hcontainer : container ∈ plan.containers)
    (hown : OwnMounts plan options) : Confined lib plan options container.nodeID mount volume := by
  cases h with
  | planned request hrequest hid volume hvolume hvolumeID hsubPath source hsource =>
    apply Confined.of_planned hdistinct hvolume hsource
    rw [hsubPath]
    exact hown request hrequest container hcontainer hid volume hvolume hvolumeID
  | artifacts volume hvolume hkind hnode source hsource =>
    apply Confined.of_planned hdistinct hvolume hsource
    simp [OwnVolume, hkind, hnode]
  | shared name source hname hsource =>
    exact .of_reserved hname hsource.2.1
      (fun secretName items heq => absurd heq (hsource.1 secretName items)) hsource.2.2
  | entropy =>
    have hname : Reserved entropyVolumeName := by decide
    refine .of_reserved hname (by simp) ?_ (by simp)
    rintro secretName items ⟨⟩
    exact .entropy
  | probe hkey hsubPath =>
    have hname : Reserved probeSecretVolumeName := by decide
    refine .of_reserved hname (by simp) ?_ (by simp)
    rintro secretName items ⟨⟩
    exact .probe hkey hsubPath
  | certificates items hitems hkeys =>
    refine .of_reserved ?_ (by simp) ?_ (by simp)
    · exact reserved_of_stem (stemmed_dnsName lib "node-lifecycle-cert" container.nodeID)
        (by decide) (by decide) (by decide) (by decide)
    · rintro secretName keys ⟨⟩
      exact .certificates items hitems hkeys

theorem certificate_items_own {items : String → List KeyToPath}
    (h : certificateProjectionItemsByNode lib plan options = .ok items) (nodeID : String) :
    ∀ item ∈ items nodeID, item.key = certificateCACertKey ∨
      item.key ∈ materialKeys lib options nodeID := by
  unfold certificateProjectionItemsByNode at h
  split at h
  · cases h
    simp
  · obtain ⟨-, h⟩ := bind_eq_ok.mp h
    obtain ⟨-, h⟩ := bind_eq_ok.mp h
    cases h
    intro item hitem
    rw [certificateItems] at hitem
    split at hitem
    · obtain ⟨key, hkey, rfl⟩ := mem_map.mp hitem
      rw [(lib.sorting.perm_sort compare _).mem_iff, mem_dedup, mem_cons] at hkey
      exact hkey
    · cases hitem

theorem exists_artifactVolume (h : artifactVolumes lib plan nodeID ≠ "") :
    ∃ volume ∈ plan.volumes, volume.kind = .volumeArtifacts ∧ volume.nodeID = nodeID ∧
      artifactVolumes lib plan nodeID = plannedVolumeName lib volume.id := by
  unfold artifactVolumes at h ⊢
  split at h
  · exact absurd rfl h
  · next volume hfind =>
    have hmem := mem_of_find?_eq_some hfind
    have hprop := find?_some hfind
    simp only [Bool.decide_and, Bool.and_eq_true, decide_eq_true_eq] at hprop
    have hany : plan.volumes.any (·.id = volume.id) = true :=
      any_eq_true.mpr ⟨volume, hmem, by simp⟩
    exact ⟨volume, hmem, hprop.1, hprop.2, by rw [volumeNames, if_pos hany]⟩

theorem mem_certificateVolumes {items : String → List KeyToPath} (options : Options)
    (h : certificateNames lib plan items nodeID ≠ "") :
    certificateNames lib plan items nodeID = lifecycleCertificateName lib nodeID ∧
      items nodeID ≠ [] ∧
      ({ name := lifecycleCertificateName lib nodeID
         source := .secret options.certificateSecretName (items nodeID) } : Volume) ∈
        renderLifecycleCertificateVolumes lib plan options items := by
  unfold certificateNames at h ⊢
  split at h
  · next hnode =>
    have ⟨hany, hitems⟩ := hnode
    obtain ⟨node, hmem, hid⟩ := any_eq_true.mp hany
    rw [decide_eq_true_eq] at hid
    subst hid
    have hfilter : node ∈ plan.nodes.filter fun node => items node.id ≠ [] :=
      mem_filter.mpr ⟨hmem, by simpa using hitems⟩
    rw [if_pos hnode]
    exact ⟨rfl, hitems, mem_map.mpr ⟨node, hfilter, rfl⟩⟩
  · exact absurd rfl h

/-- A mount has a volume, and the container that mounts it an origin for it. -/
def Found (lib : RenderLibrary) (plan : Plan) (options : Options) (volumes : List Volume)
    (container : ContainerPlan) (mount : VolumeMount) : Prop :=
  ∃ volume ∈ volumes, volume.name = mount.name ∧ Origin lib plan options container mount volume

theorem Found.of_shared (source : VolumeSource) (hmem : { name := mount.name, source } ∈ volumes)
    (hname : Reserved mount.name) (hsource : Harmless source) :
    Found lib plan options volumes container mount :=
  ⟨_, hmem, rfl, .shared _ _ hname hsource⟩

theorem Found.mono {volumes' : List Volume} (h : Found lib plan options volumes container mount)
    (hsubset : volumes ⊆ volumes') : Found lib plan options volumes' container mount := by
  obtain ⟨volume, hvolume, hrest⟩ := h
  exact ⟨volume, hsubset hvolume, hrest⟩

theorem lifecycleMounts_found {ctx : LifecycleContext} {mounts : List VolumeMount}
    {planned : List Volume} (payloadVolumes : List Volume)
    (hitems : certificateProjectionItemsByNode lib ctx.plan ctx.options = .ok ctx.items)
    (hplanned : renderVolumes lib ctx.plan.volumes ctx.options.persistentVolumeClaims = .ok planned)
    (hcontainer : container ∈ ctx.plan.containers)
    (h : lifecycleMounts lib ctx container = .ok mounts) :
    ∀ mount ∈ mounts, Found lib ctx.plan ctx.options
      (planned ++ fixedVolumes lib ctx.plan ctx.options payloadVolumes ctx.items) container
        mount := by
  have hcontainers : ctx.plan.containers ≠ [] := ne_nil_of_mem hcontainer
  unfold lifecycleMounts at h
  obtain ⟨hprobe, h⟩ := bind_eq_ok.mp h
  obtain ⟨hartifact, h⟩ := bind_eq_ok.mp h
  rw [rejectIf_eq_ok] at hprobe hartifact
  obtain rfl := ok.inj h
  simp only [forall_mem_append, forall_mem_cons, not_mem_nil, false_imp_iff, implies_true, and_true]
  refine ⟨⟨⟨⟨⟨⟨⟨⟨?launch, ?plan, ?scratch, ?peers⟩, ?input⟩, ?revision⟩, ?entropy⟩, ?probe⟩,
    ?artifact⟩, ?certificate⟩, ?broker⟩
  case launch | scratch =>
    apply Found.of_shared (.emptyDir false "") ?_ (by decide) (harmless_emptyDir _ _)
    simp [fixedVolumes, hcontainers]
  case plan =>
    apply Found.of_shared (.configMap ctx.options.planConfigMapName
      [{ key := "plan.json", path := "plan.json" }]) ?_ (by decide) (harmless_configMap _ _)
    simp [fixedVolumes]
  case peers =>
    apply Found.of_shared (.projected peerDirectoryProjections) ?_ (by decide) harmless_peers
    simp [fixedVolumes]
  case input =>
    intro mount hmount
    obtain ⟨-, rfl⟩ := mem_ite_singleton.mp hmount
    apply Found.of_shared (.configMap ctx.options.inputConfigMapName
      [{ key := "input.json", path := "input.json" }]) ?_ (by decide) (harmless_configMap _ _)
    simp [fixedVolumes]
  case revision =>
    intro mount hmount
    obtain ⟨⟨hrevision, -⟩, rfl⟩ := mem_ite_singleton.mp hmount
    apply Found.of_shared (.configMap ctx.options.connectivityRevisionConfigMapName
      [{ key := "revision.json", path := "revision.json" }]) ?_ (by decide) (harmless_configMap _ _)
    simp [fixedVolumes, hrevision]
  case entropy =>
    intro mount hmount
    obtain ⟨⟨hentropy, -⟩, rfl⟩ := mem_ite_singleton.mp hmount
    refine ⟨_, ?_, rfl, .entropy⟩
    simp [fixedVolumes, hentropy]
  case probe =>
    intro mount hmount
    obtain ⟨⟨hreadiness, hkey⟩, rfl⟩ := mem_ite_singleton.mp hmount
    have hsecret : ctx.options.probeSecretName ≠ "" := by
      intro hempty
      exact hprobe ⟨hreadiness, hkey, hempty⟩
    refine ⟨_, ?_, rfl, .probe hkey rfl⟩
    simp [fixedVolumes, hsecret]
  case artifact =>
    intro mount hmount
    obtain ⟨htarget, rfl⟩ := mem_ite_singleton.mp hmount
    have hname : artifactVolumes lib ctx.plan container.nodeID ≠ "" := by
      intro hempty
      exact hartifact ⟨htarget, hempty⟩
    obtain ⟨volume, hvolume, hkind, hnode, hname⟩ := exists_artifactVolume hname
    obtain ⟨source, hsource, hmem⟩ := exists_rendered_volume hplanned hvolume
    refine ⟨{ name := plannedVolumeName lib volume.id, source }, mem_append_left _ hmem, ?_,
      .artifacts volume hvolume hkind hnode source hsource⟩
    simp only [hname]
  case certificate =>
    intro mount hmount
    obtain ⟨⟨-, hcertificate⟩, rfl⟩ := mem_ite_singleton.mp hmount
    obtain ⟨hname, hne, hmem⟩ := mem_certificateVolumes ctx.options hcertificate
    refine ⟨_, ?_, ?_, .certificates (ctx.items container.nodeID) hne
      (certificate_items_own hitems container.nodeID)⟩
    · simp [fixedVolumes, hmem]
    · simp only [hname]
  case broker =>
    intro mount hmount
    obtain ⟨⟨-, hbroker⟩, rfl⟩ := mem_ite_singleton.mp hmount
    apply Found.of_shared (.emptyDir false "") ?_ (by decide) (harmless_emptyDir _ _)
    simp [fixedVolumes, hbroker]

section

variable {pod : Pod} {planned : List Volume} {payloads : List (Volume × VolumeMount)}
  {items : String → List KeyToPath} {indexed : List (String × VolumeMount)}
  {rendered : List (Container × List Volume)} {launched helpers : List Container}

variable (run : Run lib plan options pod planned payloads items indexed rendered launched helpers)

include run in
theorem Run.planned_found (hmount : mount ∈ mountsByContainer indexed container.id) :
    Found lib plan options planned container mount := by
  obtain ⟨request, hrequest, hindexed⟩ := exists_request_of_mem run.indexed_eq hmount
  obtain ⟨hcontainer, -, hsubPath, volume, hvolume, hid, hname⟩ := indexMount_eq_ok hindexed
  obtain ⟨source, hsource, hmem⟩ := exists_rendered_volume run.planned_eq hvolume
  refine ⟨{ name := plannedVolumeName lib volume.id, source }, hmem, hname.symm, ?_⟩
  exact .planned request hrequest hcontainer volume hvolume hid hsubPath source hsource

include run in
theorem Run.device_found (hcontainer : container ∈ plan.containers)
    (hmount : mount ∈ (renderedDevices lib container).map Prod.snd) :
    Found lib plan options (rendered.flatMap Prod.snd) container mount := by
  obtain ⟨entry, hentry, rfl⟩ := mem_map.mp hmount
  have hmem := run.device_mem hcontainer hentry
  obtain ⟨index, hindex, rfl⟩ := mem_mapIdx.mp hentry
  refine ⟨_, hmem, rfl, .shared _ _ ?_ (harmless_hostPath _ _)⟩
  exact reserved_of_stem (stemmed_dnsName lib "device" _) (by decide) (by decide) (by decide)
    (by decide)

theorem isolation_found {payloadVolumes : List Volume} (hmount : mount ∈ isolationMounts options) :
    Found lib plan options (fixedVolumes lib plan options payloadVolumes items)
      container mount := by
  obtain ⟨hisolation, rfl⟩ := mem_ite_singleton.mp hmount
  apply Found.of_shared (.hostPath deviceNetnsHostPath .directoryOrCreate) ?_ (by decide)
    (harmless_hostPath _ _)
  simp [fixedVolumes, hisolation]

include run in
theorem Run.found
    {targets : LifecycleTargets} {lifecycle : List VolumeMount} {application : Container}
    (hcontainer : container ∈ plan.containers)
    (h : Launched lib { plan, options, targets, items } indexed container lifecycle application) :
    ∀ mount ∈ application.volumeMounts, Found lib plan options pod.volumes container mount := by
  intro mount hmount
  rw [run.volumes_eq]
  rw [h.mounts_perm.mem_iff, mem_append, mem_append, mem_append] at hmount
  rcases hmount with ((hplanned | hdevice) | hlifecycle) | hisolation
  · apply (run.planned_found hplanned).mono
    intro volume hvolume
    simp [hvolume]
  · apply (run.device_found hcontainer hdevice).mono
    intro volume hvolume
    exact mem_append_left _ (mem_append_right _ hvolume)
  · have hfound := lifecycleMounts_found (payloads.map Prod.fst) run.items_eq run.planned_eq
      hcontainer h.lifecycle_eq mount hlifecycle
    apply hfound.mono
    intro volume hvolume
    exact mem_append_left _ (mem_append_left _ hvolume)
  · apply (isolation_found hisolation).mono
    intro volume hvolume
    exact mem_append_left _ (mem_append_left _ (mem_append_right _ hvolume))

include run in
theorem Run.distinct
    (hvalid : validatePlan lib.toTextLibrary plan = .ok ()) : Distinct lib plan := by
  obtain ⟨-, -, -, -, -, -, -, hvolumes, -⟩ := validatePlan_eq_ok.mp hvalid
  have hids := (validateVolumePlan_apart.checkEach_eq_ok.mp hvolumes).2
  intro u hu v hv hname
  have hid : u.id = v.id := id_eq_of_name_eq run.planned_eq u hu v hv hname
  exact inj_on_of_nodup_map (pairwise_map.mpr hids) hu hv hid

end

theorem ownMounts_normalized :
    OwnMounts (orderPlan lib.toLibrary plan.withDefaults) options ↔ OwnMounts plan options := by
  unfold OwnMounts
  simp only [orderPlan, Plan.withDefaults, forall_mem_map, (lib.sorting.perm_sort _ _).mem_iff]
  rfl

/-- Every application mount of a rendered Pod names a volume of it. None shows material of another
Node exactly if the plan mounts into each container material of its own Node only. -/
theorem application_mounts_confined {pod : Pod} (h : render lib plan options = .ok pod) :
    ∃ normalized, normalizePlan lib.toLibrary plan = .ok normalized ∧
      List.Forall₂ (fun planned container =>
        container.name = applicationContainerName lib planned.id ∧
          ∀ mount ∈ container.volumeMounts, ∃ volume ∈ pod.volumes, volume.name = mount.name)
        normalized.containers pod.containers ∧
      (List.Forall₂ (fun planned container => ∀ mount ∈ container.volumeMounts,
          ∀ volume ∈ pod.volumes, volume.name = mount.name →
            Confined lib normalized options planned.nodeID mount volume)
        normalized.containers pod.containers ↔ OwnMounts plan options) := by
  obtain ⟨normalized, hnormalized, hrender⟩ := bind_eq_ok_iff.mp h
  rw [mapError_eq_ok] at hnormalized
  refine ⟨normalized, hnormalized, ?_⟩
  obtain ⟨hvalid, rfl⟩ := (normalizePlan_eq_ok lib.toLibrary).mp hnormalized
  have hvalid' := (orderPlan_reorders lib.toLibrary plan.withDefaults).validate hvalid
  obtain ⟨planned, payloads, items, indexed, rendered, launched, helpers, run⟩ := exists_run hrender
  obtain ⟨targets, happlications⟩ := run.applications
  have hlaunched := (forall₂_and_left _ _).mpr ⟨fun _ hmem => hmem, happlications⟩
  rw [← @ownMounts_normalized lib]
  refine ⟨hlaunched.imp ?_, fun hconfined => ?_, fun hown => hlaunched.imp ?_⟩
  · rintro container application ⟨hcontainer, lifecycle, hlaunched⟩
    refine ⟨hlaunched.name_eq, fun mount hmount => ?_⟩
    obtain ⟨volume, hvolume, hname, -⟩ := run.found hcontainer hlaunched mount hmount
    exact ⟨volume, hvolume, hname⟩
  · -- what the plan mounts is mounted, from the volume that the plan's one renders to
    intro request hrequest container hcontainer hid volume hvolume hvolumeID
    obtain ⟨⟨index, hlt⟩, rfl⟩ := mem_iff_get.mp hcontainer
    obtain ⟨hlength, hget⟩ := forall₂_iff_get.mp hlaunched
    obtain ⟨-, lifecycle, hlaunched⟩ := hget index hlt (hlength ▸ hlt)
    have hmounts := (forall₂_iff_get.mp hconfined).2 index hlt (hlength ▸ hlt)
    obtain ⟨mount, hmount, hindexed⟩ := exists_mount_of_mem run.indexed_eq hrequest
    obtain ⟨-, -, hsubPath, _, -, hsame, hname⟩ := indexMount_eq_ok hindexed
    obtain ⟨source, hsource, hmem⟩ := exists_rendered_volume run.planned_eq hvolume
    rw [hsame, ← hvolumeID] at hname
    rw [← hid] at hmount
    rw [← hsubPath]
    refine (hmounts mount (hlaunched.mounts_perm.mem_iff.mpr ?_)
      { name := plannedVolumeName lib volume.id, source } ?_ hname.symm).own hvolume hsource
    · simp only [mem_append, hmount, true_or]
    · simp [run.volumes_eq, hmem]
  · rintro container application ⟨hcontainer, lifecycle, hlaunched⟩ mount hmount other hother hname'
    obtain ⟨volume, hvolume, hname, horigin⟩ := run.found hcontainer hlaunched mount hmount
    have hnames : (pod.volumes.map (·.name)).Nodup := pairwise_map.mpr run.volumes_pairwise
    obtain rfl : other = volume :=
      inj_on_of_nodup_map hnames hother hvolume (hname'.trans hname.symm)
    exact horigin.confined (run.distinct hvalid') hcontainer hown

def Pod.Mounts (pod : Pod) (name : String) (source : VolumeSource) : Prop :=
  ∃ container ∈ pod.containers, container.name = name ∧
    ∃ mount ∈ container.volumeMounts, ∃ volume ∈ pod.volumes,
      volume.name = mount.name ∧ volume.source = source

instance (pod : Pod) (name : String) (source : VolumeSource) : Decidable (pod.Mounts name source) :=
  inferInstanceAs (Decidable (∃ container ∈ pod.containers, _ ∧ _))

def plainLibrary : RenderLibrary where
  toLibrary := valueLibrary
  isDNS1123Subdomain _ := true
  isDNS1123Label _ := true
  isEnvVarName _ := true
  parsesQuantity _ := true
  textDigest := id
  isAlphanumeric c := c.isAlphanum
  toUpper := String.toUpper
  validatePlanCapabilities _ := .ok ()
  validateSettings _ := .ok ()

def pairPlan (mounted : VolumePlan) : Plan where
  schemaVersion := schemaVersion
  compatibility := sampleCompatibility
  inputDigest := sampleDigest
  planner := { name := "p", revision := "r" }
  nodes := [{ id := "a", name := "a", kind := "k", containerIDs := ["a"]
              readinessContainerIDs := ["a"] },
    { id := "b", name := "b", kind := "k", containerIDs := ["b"], readinessContainerIDs := ["b"] }]
  containers := [{ id := "a", nodeID := "a", namespaceOwnerID := "a", image := "i"
                   imageDigest := sampleDigest, mountIDs := ["m"] },
    { id := "b", nodeID := "b", namespaceOwnerID := "a", image := "i"
      imageDigest := sampleDigest }]
  volumes := [mounted]
  mounts := [{ id := "m", containerID := "a", volumeID := mounted.id, destination := "/m" }]

def pairOptions : Options where
  name := "a"
  namespaceName := "lab"
  planConfigMapName := "plan"
  inputConfigMapName := "input"
  preparationImage := "p"
  connectivityImage := "c"
  certificateSecretName := "certificates"
  persistentVolumeClaims := .ofList [("a", "claim-a"), ("b", "claim-b")]

def ownArtifacts : VolumePlan where
  id := "v"
  nodeID := "a"
  kind := .volumeArtifacts

theorem pair_mounts_confined :
    ∃ pod, render plainLibrary (pairPlan ownArtifacts) pairOptions = .ok pod ∧
      pod.Mounts (applicationContainerName plainLibrary "a") (.persistentVolumeClaim "claim-a") ∧
      ∃ normalized, normalizePlan valueLibrary (pairPlan ownArtifacts) = .ok normalized ∧
        List.Forall₂ (fun planned container => ∀ mount ∈ container.volumeMounts,
            ∀ volume ∈ pod.volumes, volume.name = mount.name →
              Confined plainLibrary normalized pairOptions planned.nodeID mount volume)
          normalized.containers pod.containers := by
  obtain ⟨pod, hpod, hmounts⟩ : ∃ pod,
      render plainLibrary (pairPlan ownArtifacts) pairOptions = .ok pod ∧
        pod.Mounts (applicationContainerName plainLibrary "a")
          (.persistentVolumeClaim "claim-a") := by
    decide +kernel
  obtain ⟨normalized, hnormalized, -, hiff⟩ := application_mounts_confined hpod
  refine ⟨pod, hpod, hmounts, normalized, hnormalized, hiff.mpr ?_⟩
  unfold OwnMounts
  simp only [pairPlan, mem_cons, not_mem_nil, or_false]
  rintro mount rfl container (rfl | rfl) hid volume rfl -
  · exact ⟨fun _ => rfl, nofun, nofun⟩
  · exact absurd hid (by decide)

/-- A validated plan can mount into a container artifacts or a claim of another Node, or the whole
certificate Secret. -/
theorem foreign_material_mounted :
    (∃ pod, render plainLibrary (pairPlan { id := "v", nodeID := "b", kind := .volumeArtifacts })
        pairOptions = .ok pod ∧
      pod.Mounts (applicationContainerName plainLibrary "a") (.persistentVolumeClaim "claim-b")) ∧
    (∃ pod, render plainLibrary (pairPlan { id := "v", nodeID := "a", kind := .volumePersistent
                                            reference := "claim-b" }) pairOptions = .ok pod ∧
      pod.Mounts (applicationContainerName plainLibrary "a") (.persistentVolumeClaim "claim-b")) ∧
    ∃ pod, render plainLibrary (pairPlan { id := "v", nodeID := "a", kind := .volumeSecret
                                           reference := "certificates" }) pairOptions = .ok pod ∧
      pod.Mounts (applicationContainerName plainLibrary "a") (.secret "certificates" []) := by
  refine ⟨?_, ?_, ?_⟩ <;> decide +kernel

end Clabernetes.DirectPod
