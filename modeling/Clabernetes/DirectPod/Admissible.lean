import Clabernetes.DirectPod.Isolation
import Mathlib.Algebra.Order.Group.Multiset
import Mathlib.Tactic.Abel

/-!
# Mount paths and volumes of a rendered Pod

Kubernetes admits a container only if its mount paths are distinct and every mount names a volume of
the Pod. Rendering compares the paths of lifecycle mounts, of the network namespace and of the
preparation helper with what is there; the devices of a container are compared with nothing, so the
result rests on the plan.
-/

namespace Clabernetes.DirectPod

open Base DevicePlan Links Std List

variable {lib : RenderLibrary} {plan : Plan} {options : Options} {mount : VolumeMount}
  {payloadMounts : List VolumeMount} {container : ContainerPlan} {name : String}

def mountPaths (mounts : List VolumeMount) : List String := mounts.map (·.mountPath)

/-- A container that Kubernetes admits beside the volumes of its Pod: no path is mounted twice, and
each mount names a volume that is defined once. -/
structure Admissible (volumes : List Volume) (container : Container) : Prop where
  paths : (mountPaths container.volumeMounts).Nodup
  defined : ∀ mount ∈ container.volumeMounts, (volumes.map (·.name)).count mount.name = 1

/-- The devices of each container have paths of their own, apart from those that the plan mounts
into the container. -/
def OwnDevicePaths (plan : Plan) : Prop :=
  ∀ container ∈ plan.containers,
    (container.security.devices.map (·.containerPath)).Nodup ∧
      ∀ device ∈ container.security.devices, ∀ mount ∈ plan.mounts,
        mount.containerID = container.id → mount.destination ≠ device.containerPath

instance (plan : Plan) : Decidable (OwnDevicePaths plan) :=
  inferInstanceAs (Decidable (∀ container ∈ plan.containers, _ ∧ _))

/-- `path.Join` leaves the directory of a Node below a clean root, since the name of the directory
is made of a hexadecimal digest. -/
def JoinsBelow (lib : RenderLibrary) : Prop :=
  ∀ root ∈ [payloadRootPath, artifactRootPath], ∀ id,
    joinPath lib root (artifactNodeDirectory lib id) = root ++ "/" ++ artifactNodeDirectory lib id

theorem nodup_mountPaths_append {old new : List VolumeMount} (hold : (mountPaths old).Nodup)
    (hnew : Fresh old new) : (mountPaths (old ++ new)).Nodup := by
  rw [mountPaths, map_append, nodup_append]
  refine ⟨hold, pairwise_map.mpr hnew.2, ?_⟩
  intro path hpath other hother heq
  obtain ⟨existing, hexisting, rfl⟩ := mem_map.mp hpath
  obtain ⟨mount, hmount, rfl⟩ := mem_map.mp hother
  exact hnew.1 mount hmount existing hexisting heq

theorem validateMountDestination_eq_ok (before : List MountPlan) (mount : MountPlan) :
    validateMountDestination plan before mount = .ok () ↔ True ∧ ∀ earlier ∈ before,
      ¬(earlier.containerID = mount.containerID ∧ earlier.destination = mount.destination) := by
  unfold validateMountDestination
  split
  · next hnone => simpa using hnone
  · next earlier hsome =>
    have hmem := mem_of_find?_eq_some hsome
    have hboth := find?_some hsome
    simp only [reduceCtorEq, true_and, false_iff, not_forall]
    exact ⟨earlier, hmem, by simpa using hboth⟩

theorem mounts_pairwise (h : validateNormalizedPlan lib plan = .ok ()) :
    plan.mounts.Pairwise fun a b =>
      ¬(a.containerID = b.containerID ∧ a.destination = b.destination) := by
  unfold validateNormalizedPlan at h
  obtain ⟨-, h⟩ := bind_eq_ok.mp h
  obtain ⟨-, h⟩ := bind_eq_ok.mp h
  obtain ⟨-, h⟩ := bind_eq_ok.mp h
  exact ((checkEach_eq_ok validateMountDestination_eq_ok).mp h).2

theorem nodup_mountsByContainer {indexed : List (String × VolumeMount)}
    (hvalid : validateNormalizedPlan lib plan = .ok ()) (h : indexMounts lib plan = .ok indexed)
    (containerID : String) : (mountPaths (mountsByContainer indexed containerID)).Nodup := by
  have hindexed : indexed.Pairwise fun a b => ¬(a.1 = b.1 ∧ a.2.mountPath = b.2.mountPath) := by
    refine pairwise_of_forall₂ (mapM_eq_ok_iff.mp h) (mounts_pairwise hvalid) ?_
    intro a b x y hx hy hne
    obtain ⟨hid, hpath, -⟩ := indexMount_eq_ok hx
    obtain ⟨hid', hpath', -⟩ := indexMount_eq_ok hy
    rwa [hid, hid', hpath, hpath']
  rw [mountPaths, mountsByContainer, map_map, List.Nodup, pairwise_map]
  refine (hindexed.filter _).imp_of_mem ?_
  intro a b ha hb hne hpath
  have hida : a.1 = containerID := of_decide_eq_true (mem_filter.mp ha).2
  have hidb : b.1 = containerID := of_decide_eq_true (mem_filter.mp hb).2
  exact hne ⟨hida.trans hidb.symm, hpath⟩

theorem mountPaths_devices (container : ContainerPlan) :
    mountPaths ((renderedDevices lib container).map Prod.snd) =
      container.security.devices.map (·.containerPath) := by
  apply ext_getElem
  · simp [mountPaths, renderedDevices]
  · intro index _ _
    simp [mountPaths, renderedDevices, renderDevice]

theorem OwnDevicePaths.fresh {indexed : List (String × VolumeMount)} (h : OwnDevicePaths plan)
    (hindexed : indexMounts lib plan = .ok indexed) (hcontainer : container ∈ plan.containers) :
    Fresh (mountsByContainer indexed container.id)
      ((renderedDevices lib container).map Prod.snd) := by
  obtain ⟨hnodup, hapart⟩ := h container hcontainer
  rw [← mountPaths_devices] at hnodup
  refine ⟨?_, pairwise_map.mp hnodup⟩
  intro mount hmount existing hexisting heq
  obtain ⟨request, hrequest, hentry⟩ := exists_request_of_mem hindexed hexisting
  obtain ⟨hid, hpath, -⟩ := indexMount_eq_ok hentry
  have hmem : mount.mountPath ∈ container.security.devices.map (·.containerPath) := by
    rw [← mountPaths_devices]
    exact mem_map_of_mem hmount
  obtain ⟨device, hdevice, hdevicePath⟩ := mem_map.mp hmem
  apply hapart device hdevice request hrequest hid.symm
  rw [← hpath, heq, ← hdevicePath]

theorem renderHelpers_eq_ok {items : String → List KeyToPath} {helpers : List Container}
    (h : renderHelpers lib plan options items payloadMounts = .ok helpers) :
    (mountPaths (preparationMounts lib plan options payloadMounts)).Nodup ∧
      ∃ preparation connectivity : Container, helpers = [preparation, connectivity] ∧
        preparation.volumeMounts =
          sortMounts lib (preparationMounts lib plan options payloadMounts) ∧
        connectivity.volumeMounts =
          sortMounts lib (connectivityMounts lib plan options items payloadMounts) := by
  unfold renderHelpers at h
  obtain ⟨hpaths, h⟩ := bind_eq_ok.mp h
  cases h
  refine ⟨?_, _, _, rfl, rfl, rfl⟩
  refine pairwise_map.mpr ((@checkEach_eq_ok _ _ _ _ (fun _ => True) _ ?_).mp hpaths).2
  intro before mount
  split
  · next hnone => simpa using hnone
  · next previous hsome =>
    have hmem := mem_of_find?_eq_some hsome
    have hpath := find?_some hsome
    simp only [reduceCtorEq, true_and, false_iff, not_forall]
    exact ⟨previous, hmem, by simpa using hpath⟩

theorem mem_initContainers {helpers : List Container} {container : Container}
    (h : container ∈ initContainers options helpers) : container ∈ helpers ∨
      (options.networkIsolation = true ∧ container = deviceNetnsInitContainer options) ∨
      (options.startupGate = true ∧ container = startupGateContainer options.preparationImage) := by
  have hisolated : ∀ container ∈ (if options.networkIsolation then
      helpers.takeWhile (·.name ≠ connectivityName) ++ deviceNetnsInitContainer options ::
        helpers.drop (helpers.takeWhile (·.name ≠ connectivityName)).length
      else helpers), container ∈ helpers ∨
        (options.networkIsolation = true ∧ container = deviceNetnsInitContainer options) := by
    intro container hmem
    split at hmem
    · next hisolation =>
      rw [mem_append, mem_cons] at hmem
      rcases hmem with hbefore | rfl | hafter
      · exact .inl ((takeWhile_sublist _).mem hbefore)
      · exact .inr ⟨hisolation, rfl⟩
      · exact .inl (mem_of_mem_drop hafter)
    · exact .inl hmem
  unfold initContainers at h
  dsimp only at h
  split at h
  · next hgate =>
    obtain rfl | hmem := mem_cons.mp h
    · exact .inr (.inr ⟨hgate, rfl⟩)
    · exact (hisolated container hmem).imp_right .inl
  · exact (hisolated container h).imp_right .inl

theorem mem_deviceMounts (h : mount ∈ deviceMounts lib plan) :
    ∃ container ∈ plan.containers, ∃ entry ∈ renderedDevices lib container,
      mount.name = entry.1.name := by
  have hkept : ∀ mounts kept : List VolumeMount,
      mount ∈ mounts.foldl (fun kept mount =>
        if kept.any (·.mountPath = mount.mountPath) then kept else kept ++ [mount]) kept →
      mount ∈ kept ∨ mount ∈ mounts := by
    intro mounts
    induction mounts with
    | nil => exact fun kept hmem => .inl hmem
    | cons first rest ih =>
      intro kept hmem
      rw [foldl_cons] at hmem
      rcases ih _ hmem with hmem | hmem
      · split at hmem
        · exact .inl hmem
        · rcases mem_append.mp hmem with hmem | hmem
          · exact .inl hmem
          · exact .inr (mem_singleton.mp hmem ▸ mem_cons_self)
      · exact .inr (mem_cons_of_mem _ hmem)
  rcases hkept _ _ h with hmem | hmem
  · cases hmem
  · obtain ⟨container, hcontainer, hmem⟩ := mem_flatMap.mp hmem
    obtain ⟨index, hindex, rfl⟩ := mem_mapIdx.mp hmem
    refine ⟨container, hcontainer, renderDevice lib container.id index _, ?_, rfl⟩
    exact mem_mapIdx.mpr ⟨index, hindex, rfl⟩

def connectivityPaths : List String :=
  [planMountPath, inputMountPath, connectivityStatePath, connectivityPeerDirectoryRoot] ++
    [deviceNetnsMountPath] ++ [connectivityRevisionMountPath] ++
    [applicationRuntimeAPIRoot, applicationRuntimeCredentialRoot] ++
    ([hostNetworkNamespaceMountPath] ++ [entropyRootPath] ++ [certificateRootPath])

theorem mountPaths_ite_sublist {p : Prop} [Decidable p] (mounts : List VolumeMount) :
    (mountPaths (if p then mounts else [])).Sublist (mountPaths mounts) := by
  by_cases h : p
  · rw [if_pos h]
  · rw [if_neg h]
    exact nil_sublist _

theorem connectivityMounts_subperm (items : String → List KeyToPath) :
    (mountPaths (connectivityMounts lib plan options items payloadMounts)).Subperm
      (connectivityPaths ++ mountPaths (payloadMounts ++ artifactMounts lib plan)) := by
  have hperm : ([planMountPath, inputMountPath, connectivityStatePath,
      connectivityPeerDirectoryRoot] ++ [deviceNetnsMountPath] ++ [connectivityRevisionMountPath] ++
      [applicationRuntimeAPIRoot, applicationRuntimeCredentialRoot] ++
      ([hostNetworkNamespaceMountPath] ++ mountPaths payloadMounts ++ [entropyRootPath] ++
        mountPaths (artifactMounts lib plan) ++ [certificateRootPath])).Perm
      (connectivityPaths ++ mountPaths (payloadMounts ++ artifactMounts lib plan)) := by
    rw [connectivityPaths, mountPaths, mountPaths, mountPaths, map_append, ← Multiset.coe_eq_coe]
    simp only [← Multiset.coe_add]
    abel
  refine hperm.subperm_left.mp (List.Sublist.subperm ?_)
  simp only [connectivityMounts, mountPaths, map_append]
  refine (((List.Sublist.refl _).append (mountPaths_ite_sublist _)).append
    (mountPaths_ite_sublist _)).append (mountPaths_ite_sublist _) |>.append ?_
  refine (mountPaths_ite_sublist _).trans ?_
  simp only [mountPaths, map_append]
  exact ((List.Sublist.refl _).append (mountPaths_ite_sublist _)).append (.refl _) |>.append
    (mountPaths_ite_sublist _)

theorem below_of_payload {payloads : List (Volume × VolumeMount)} (hjoin : JoinsBelow lib)
    (h : renderPayloadSources lib plan options.namespaceName options.payloads = .ok payloads) :
    ∀ mount ∈ payloads.map Prod.snd, ∃ name, mount.mountPath = payloadRootPath ++ "/" ++ name := by
  intro mount hmount
  obtain ⟨entry, hentry, rfl⟩ := mem_map.mp hmount
  obtain ⟨payload, -, -, -, hpath⟩ := renderPayloadSources_eq_ok h entry hentry
  exact ⟨_, hpath.trans (hjoin _ (by simp) payload.id)⟩

theorem below_of_artifact (hjoin : JoinsBelow lib) : ∀ mount ∈ artifactMounts lib plan, ∃ name,
      mount.mountPath = artifactRootPath ++ "/" ++ name := by
  intro mount hmount
  obtain ⟨volume, -, rfl⟩ := mem_map.mp hmount
  exact ⟨_, hjoin _ (by simp) volume.nodeID⟩

theorem connectivityPaths_not_below {root path : String}
    (hroot : root ∈ [payloadRootPath, artifactRootPath]) (hpath : path ∈ connectivityPaths) :
    path ≠ root ++ "/" ++ name := by
  have hbelow : ∀ root ∈ [payloadRootPath, artifactRootPath], ∀ path ∈ connectivityPaths,
      ¬(root.toList ++ ['/']) <+: path.toList := by
    decide
  rintro rfl
  apply hbelow root hroot _ hpath
  simp

section

variable {pod : Pod} {planned : List Volume} {payloads : List (Volume × VolumeMount)}
  {items : String → List KeyToPath} {indexed : List (String × VolumeMount)}
  {rendered : List (Container × List Volume)} {launched helpers : List Container}

variable (run : Run lib plan options pod planned payloads items indexed rendered launched helpers)

include run in
theorem Run.nodup_names : (pod.volumes.map (·.name)).Nodup :=
  pairwise_map.mpr run.volumes_pairwise

include run in
theorem Run.application_admissible
    (hdevices : OwnDevicePaths plan) {targets : LifecycleTargets} {lifecycle : List VolumeMount}
    {application : Container} (hcontainer : container ∈ plan.containers)
    (h : Launched lib { plan, options, targets, items } indexed container lifecycle application) :
    Admissible pod.volumes application := by
  constructor
  case paths =>
    rw [mountPaths, (h.mounts_perm.map _).nodup_iff]
    have hplanned := nodup_mountsByContainer run.validated run.indexed_eq container.id
    have hdevice := nodup_mountPaths_append hplanned (hdevices.fresh run.indexed_eq hcontainer)
    have hlifecycle := nodup_mountPaths_append hdevice h.lifecycle_fresh
    exact nodup_mountPaths_append hlifecycle h.isolation_fresh
  case defined =>
    intro mount hmount
    obtain ⟨volume, hvolume, hname, -⟩ := run.found hcontainer h mount hmount
    rw [← hname]
    exact count_eq_one_of_mem run.nodup_names (mem_map_of_mem hvolume)

include run in
theorem Run.ownDevicePaths
    (h : ∀ application ∈ pod.containers, Admissible pod.volumes application) :
    OwnDevicePaths plan := by
  intro container hcontainer
  obtain ⟨targets, happlications⟩ := run.applications
  obtain ⟨application, happlication, lifecycle, hlaunched⟩ :=
    exists_left_of_forall₂ happlications.flip hcontainer
  have hpaths := (h application happlication).paths
  rw [mountPaths, (hlaunched.mounts_perm.map _).nodup_iff, append_assoc, map_append] at hpaths
  replace hpaths := (nodup_append.mp hpaths).1
  rw [map_append, nodup_append] at hpaths
  obtain ⟨-, hdevices, hapart⟩ := hpaths
  rw [← mountPaths, mountPaths_devices] at hdevices
  refine ⟨hdevices, ?_⟩
  intro device hdevice request hrequest hid heq
  obtain ⟨mount, hmount, hindexed⟩ := exists_mount_of_mem run.indexed_eq hrequest
  rw [hid] at hmount
  refine hapart _ (mem_map_of_mem hmount) device.containerPath ?_
    ((indexMount_eq_ok hindexed).2.1.trans heq)
  rw [← mountPaths, mountPaths_devices]
  exact mem_map_of_mem hdevice

def Named (pod : Pod) (name : String) : Prop := name ∈ pod.volumes.map (·.name)

include run in
theorem Run.named_planned {volume : VolumePlan} (hvolume : volume ∈ plan.volumes) :
    Named pod (volumeNames lib plan volume.id) := by
  obtain ⟨source, -, hmem⟩ := exists_rendered_volume run.planned_eq hvolume
  have hany : plan.volumes.any (·.id = volume.id) = true :=
    any_eq_true.mpr ⟨volume, hvolume, by simp⟩
  rw [volumeNames, if_pos hany, Named, run.volumes_eq]
  refine mem_map.mpr ⟨{ name := plannedVolumeName lib volume.id, source }, ?_, rfl⟩
  simp [hmem]

include run in
theorem Run.named_fixed
    (h : name ∈ (fixedVolumes lib plan options (payloads.map Prod.fst) items).map (·.name)) :
    Named pod name := by
  obtain ⟨volume, hvolume, rfl⟩ := mem_map.mp h
  rw [Named, run.volumes_eq]
  apply mem_map_of_mem
  simp [hvolume]

include run in
theorem Run.named_device (h : mount ∈ deviceMounts lib plan) : Named pod mount.name := by
  obtain ⟨container, hcontainer, entry, hentry, hname⟩ := mem_deviceMounts h
  have hmem := run.device_mem hcontainer hentry
  rw [Named, run.volumes_eq, hname]
  apply mem_map_of_mem
  exact mem_append_left _ (mem_append_right _ hmem)

include run in
theorem Run.named_payload (h : mount ∈ payloads.map Prod.snd) : Named pod mount.name := by
  obtain ⟨entry, hentry, rfl⟩ := mem_map.mp h
  obtain ⟨payload, -, hvolume, hmount, -⟩ := renderPayloadSources_eq_ok run.payloads_eq entry hentry
  apply run.named_fixed
  rw [hmount, ← hvolume]
  apply mem_map_of_mem
  have hmem : entry.1 ∈ payloads.map Prod.fst := mem_map_of_mem hentry
  simp [fixedVolumes, hmem]

include run in
theorem Run.named_artifact (h : mount ∈ artifactMounts lib plan) : Named pod mount.name := by
  obtain ⟨volume, hvolume, rfl⟩ := mem_map.mp h
  exact run.named_planned (mem_filter.mp hvolume).1

include run in
theorem Run.named_preparation :
    ∀ mount ∈ preparationMounts lib plan options (payloads.map Prod.snd), Named pod mount.name := by
  simp only [preparationMounts, forall_mem_append, forall_mem_ite, forall_mem_cons,
    not_mem_nil, false_imp_iff, implies_true, and_true]
  refine ⟨⟨⟨⟨⟨⟨⟨?plan, ?input, ?scratch⟩, ?certificate⟩, ?entropy⟩, ?lifecycle⟩, ?device⟩,
    ?payload⟩, ?artifact⟩
  case device => exact fun mount hmount => run.named_device hmount
  case payload => exact fun mount hmount => run.named_payload hmount
  case artifact => exact fun mount hmount => run.named_artifact hmount
  case lifecycle =>
    intro hcontainers
    constructor <;> exact run.named_fixed (by simp [fixedVolumes, hcontainers])
  case certificate | entropy =>
    exact fun hname => run.named_fixed (by simp [fixedVolumes, hname])
  all_goals exact run.named_fixed (by simp [fixedVolumes])

include run in
theorem Run.named_connectivity :
    ∀ mount ∈ connectivityMounts lib plan options items (payloads.map Prod.snd),
      Named pod mount.name := by
  simp only [connectivityMounts, forall_mem_append, forall_mem_ite, forall_mem_cons,
    not_mem_nil, false_imp_iff, implies_true, and_true]
  refine ⟨⟨⟨⟨⟨?plan, ?input, ?state, ?peers⟩, ?isolation⟩, ?revision⟩, ?broker⟩, ?endpoint⟩
  case isolation | revision => exact fun h => run.named_fixed (by simp [fixedVolumes, h])
  case broker =>
    intro hbroker
    constructor <;> exact run.named_fixed (by simp [fixedVolumes, hbroker])
  case endpoint =>
    intro hendpoint
    refine ⟨⟨⟨⟨?host, ?payload⟩, ?entropy⟩, ?artifact⟩, ?certificate⟩
    case host => exact run.named_fixed (by simp [fixedVolumes, hendpoint])
    case payload => exact fun mount hmount => run.named_payload hmount
    case entropy => exact fun h => run.named_fixed (by simp [fixedVolumes, h])
    case artifact => exact fun mount hmount => run.named_artifact hmount
    case certificate =>
      intro hsome
      obtain ⟨volume, hvolume⟩ := Option.isSome_iff_exists.mp hsome
      have hname := name_endpointCertificate hvolume
      exact run.named_fixed (by simp [fixedVolumes, hvolume, hname])
  all_goals exact run.named_fixed (by simp [fixedVolumes])

theorem nodup_payloads_artifacts
    (h : (mountPaths (preparationMounts lib plan options payloadMounts)).Nodup) :
    (mountPaths (payloadMounts ++ artifactMounts lib plan)).Nodup := by
  refine (List.Sublist.map _ ?_).nodup h
  rw [preparationMounts, append_assoc _ payloadMounts]
  exact sublist_append_right _ _

include run in
theorem Run.nodup_connectivity (hjoin : JoinsBelow lib)
    (hpaths : (mountPaths (preparationMounts lib plan options (payloads.map Prod.snd))).Nodup) :
    (mountPaths (connectivityMounts lib plan options items (payloads.map Prod.snd))).Nodup := by
  have hconstants : connectivityPaths.Nodup := by decide
  obtain ⟨paths, hperm, hsublist⟩ :=
    @connectivityMounts_subperm lib plan options (payloads.map Prod.snd) items
  refine hperm.nodup_iff.mp (hsublist.nodup (nodup_append.mpr ⟨hconstants, ?_, ?_⟩))
  · exact nodup_payloads_artifacts hpaths
  · intro path hmem other hother
    obtain ⟨mount, hmount, rfl⟩ := mem_map.mp hother
    rcases mem_append.mp hmount with hpayload | hartifact
    · obtain ⟨name, hname⟩ := below_of_payload hjoin run.payloads_eq mount hpayload
      rw [hname]
      exact connectivityPaths_not_below (by simp) hmem
    · obtain ⟨name, hname⟩ := below_of_artifact hjoin mount hartifact
      rw [hname]
      exact connectivityPaths_not_below (by simp) hmem

include run in
theorem Run.admissible_of_sorted {container : Container} {mounts : List VolumeMount}
    (heq : container.volumeMounts = sortMounts lib mounts) (hpaths : (mountPaths mounts).Nodup)
    (hnamed : ∀ mount ∈ mounts, Named pod mount.name) : Admissible pod.volumes container := by
  constructor
  case paths =>
    rw [heq, mountPaths, sortMounts, ((lib.sorting.perm_sort _ _).map _).nodup_iff]
    exact hpaths
  case defined =>
    intro mount hmount
    rw [heq, mem_sortMounts] at hmount
    exact count_eq_one_of_mem run.nodup_names (hnamed mount hmount)

include run in
theorem Run.helper_admissible (hjoin : JoinsBelow lib) :
    ∀ container ∈ pod.initContainers, Admissible pod.volumes container := by
  intro container hcontainer
  obtain ⟨hpaths, preparation, connectivity, hhelpers, hpreparation, hconnectivity⟩ :=
    renderHelpers_eq_ok run.helpers_eq
  rw [run.initContainers_eq] at hcontainer
  rcases mem_initContainers hcontainer with hhelper | ⟨hisolation, rfl⟩ | ⟨hgate, rfl⟩
  · rw [hhelpers, mem_cons, mem_singleton] at hhelper
    rcases hhelper with rfl | rfl
    · exact run.admissible_of_sorted hpreparation hpaths run.named_preparation
    · exact run.admissible_of_sorted hconnectivity (run.nodup_connectivity hjoin hpaths)
        run.named_connectivity
  · refine ⟨by simp [mountPaths, deviceNetnsInitContainer], ?_⟩
    intro mount hmount
    rw [deviceNetnsInitContainer, mem_singleton] at hmount
    subst hmount
    apply count_eq_one_of_mem run.nodup_names
    exact run.named_fixed (by simp [fixedVolumes, hisolation])
  · refine ⟨by simp [mountPaths, startupGateContainer], ?_⟩
    intro mount hmount
    rw [startupGateContainer, mem_singleton] at hmount
    subst hmount
    apply count_eq_one_of_mem run.nodup_names
    rw [run.volumes_eq, if_pos hgate]
    simp [startupGateVolume]

end

theorem ownDevicePaths_normalized :
    OwnDevicePaths (orderPlan lib.toLibrary plan.withDefaults) ↔ OwnDevicePaths plan := by
  have hperm : ∀ container : ContainerPlan,
      (orderContainer lib.toLibrary container.withRuntimeID).security.devices.Perm
        container.security.devices := fun _ => lib.sorting.perm_sort _ _
  unfold OwnDevicePaths
  rw [orderPlan, forall_mem_map]
  simp only [(lib.sorting.perm_sort _ _).mem_iff]
  rw [Plan.withDefaults, forall_mem_map]
  refine forall₂_congr fun container _ => and_congr ((hperm container).map _).nodup_iff ?_
  simp only [(hperm container).mem_iff]
  rfl

/-- In every container of a rendered Pod the mount paths are distinct and each mount names one
volume, exactly if the devices of each container have paths of their own. -/
theorem rendered_admissible {pod : Pod} (hjoin : JoinsBelow lib)
    (h : render lib plan options = .ok pod) :
    (∀ container ∈ pod.initContainers ++ pod.containers, Admissible pod.volumes container) ↔
      OwnDevicePaths plan := by
  obtain ⟨normalized, hnormalized, hrender⟩ := bind_eq_ok_iff.mp h
  rw [mapError_eq_ok] at hnormalized
  obtain ⟨-, rfl⟩ := (normalizePlan_eq_ok lib.toLibrary).mp hnormalized
  obtain ⟨planned, payloads, items, indexed, rendered, launched, helpers, run⟩ := exists_run hrender
  rw [← @ownDevicePaths_normalized lib]
  constructor
  · intro hadmissible
    exact run.ownDevicePaths fun application happlication =>
      hadmissible application (mem_append_right _ happlication)
  · intro hdevices container hcontainer
    obtain ⟨targets, happlications⟩ := run.applications
    rcases mem_append.mp hcontainer with hinit | happlication
    · exact run.helper_admissible hjoin container hinit
    · obtain ⟨original, horiginal, lifecycle, hlaunched⟩ :=
        exists_left_of_forall₂ happlications happlication
      exact run.application_admissible hdevices horiginal hlaunched

def devicePlan (devices : List Device) : Plan :=
  { pairPlan ownArtifacts with
    containers := [{ id := "a", nodeID := "a", namespaceOwnerID := "a", image := "i"
                     imageDigest := sampleDigest, mountIDs := ["m"]
                     security := { privileged := true, devices } },
      { id := "b", nodeID := "b", namespaceOwnerID := "a", image := "i"
        imageDigest := sampleDigest }] }

theorem joinsBelow_plainLibrary : JoinsBelow plainLibrary := fun _ _ _ => rfl

theorem device_admissible :
    ∃ pod, render plainLibrary (devicePlan [{ hostPath := "/dev/kvm", containerPath := "/dev/kvm"
                                              permissions := "rwm" }]) pairOptions = .ok pod ∧
      pod.containers.length = 2 ∧
      ∀ container ∈ pod.initContainers ++ pod.containers, Admissible pod.volumes container := by
  obtain ⟨pod, hpod, hlength⟩ : ∃ pod,
      render plainLibrary (devicePlan [{ hostPath := "/dev/kvm", containerPath := "/dev/kvm"
                                         permissions := "rwm" }]) pairOptions = .ok pod ∧
        pod.containers.length = 2 := by
    decide +kernel
  exact ⟨pod, hpod, hlength, (rendered_admissible joinsBelow_plainLibrary hpod).mpr (by decide)⟩

/-- Two bindings of one device, and a device at a path that the plan mounts, render to a container
that mounts one path twice. -/
theorem device_path_mounted_twice :
    (∃ pod, render plainLibrary
        (devicePlan [{ hostPath := "/dev/kvm", containerPath := "/dev/kvm", permissions := "r" },
          { hostPath := "/dev/kvm", containerPath := "/dev/kvm", permissions := "rw" }])
        pairOptions = .ok pod ∧
      ∃ container ∈ pod.containers, ¬(mountPaths container.volumeMounts).Nodup) ∧
    ∃ pod, render plainLibrary
        (devicePlan [{ hostPath := "/dev/kvm", containerPath := "/m", permissions := "rw" }])
        pairOptions = .ok pod ∧
      ∃ container ∈ pod.containers, ¬(mountPaths container.volumeMounts).Nodup := by
  constructor <;> decide +kernel

end Clabernetes.DirectPod
