import Clabernetes.DevicePlan.NormalForm
import Clabernetes.DirectPod.Render

/-!
# What a completed rendering has gone through

The steps of `internal/directpod/renderer.go:442-871` taken apart: the volumes that the Pod is
given, and for each application container the mounts of the plan, of its devices, of its lifecycle
boundary and of the network isolation, with what each step checked about their paths.
-/

namespace Clabernetes.DirectPod

open Base DevicePlan Links Std List Prod

variable {lib : RenderLibrary} {plan : Plan} {options : Options} {out : List (Volume × VolumeMount)}
  {claims : GoMap String String} {before rest : List VolumePlan} {namespaceName : String}
  {α : Type*} {mounts : List VolumeMount} {container : Container} {mount : VolumeMount}
  {volume : Volume} {stop : Bool} {as : List α} {β γ : Type*} {p : Prop}

structure Run (lib : RenderLibrary) (plan : Plan) (options : Options) (pod : Pod)
    (planned : List Volume) (payloads : List (Volume × VolumeMount))
    (items : String → List KeyToPath) (indexed : List (String × VolumeMount))
    (rendered : List (Container × List Volume)) (launched helpers : List Container) : Prop where
  validated : validateNormalizedPlan lib plan = .ok ()
  planned_eq : renderVolumes lib plan.volumes options.persistentVolumeClaims = .ok planned
  payloads_eq : renderPayloadSources lib plan options.namespaceName options.payloads = .ok payloads
  items_eq : certificateProjectionItemsByNode lib plan options = .ok items
  indexed_eq : indexMounts lib plan = .ok indexed
  rendered_eq : renderContainers lib plan indexed options.enableContainerStopSignals = .ok rendered
  launched_eq : renderApplicationLifecycle lib plan options items (rendered.map fst) =
    .ok launched
  containers_eq : isolateContainers lib options launched = .ok pod.containers
  unique : validateUniqueVolumeNames (planned ++
    fixedVolumes lib plan options (payloads.map fst) items ++ rendered.flatMap snd) =
      .ok ()
  helpers_eq : renderHelpers lib plan options items (payloads.map snd) = .ok helpers
  initContainers_eq : pod.initContainers = initContainers options helpers
  volumes_eq : pod.volumes = planned ++
    fixedVolumes lib plan options (payloads.map fst) items ++ rendered.flatMap snd ++
      if options.startupGate then [startupGateVolume] else []

theorem exists_run {pod : Pod} (h : renderNormalized lib plan options = .ok pod) :
    ∃ planned payloads items indexed rendered launched helpers,
      Run lib plan options pod planned payloads items indexed rendered launched helpers := by
  unfold renderNormalized at h
  obtain ⟨-, h⟩ := bind_eq_ok.mp h
  obtain ⟨hvalidated, h⟩ := bind_eq_ok.mp h
  obtain ⟨_, -, h⟩ := bind_eq_ok_iff.mp h
  obtain ⟨_, -, h⟩ := bind_eq_ok_iff.mp h
  obtain ⟨planned, hplanned, h⟩ := bind_eq_ok_iff.mp h
  obtain ⟨payloads, hpayloads, h⟩ := bind_eq_ok_iff.mp h
  obtain ⟨items, hitems, h⟩ := bind_eq_ok_iff.mp h
  obtain ⟨indexed, hindexed, h⟩ := bind_eq_ok_iff.mp h
  obtain ⟨rendered, hrendered, h⟩ := bind_eq_ok_iff.mp h
  obtain ⟨launched, hlaunched, h⟩ := bind_eq_ok_iff.mp h
  obtain ⟨containers, hcontainers, h⟩ := bind_eq_ok_iff.mp h
  obtain ⟨-, h⟩ := bind_eq_ok.mp h
  obtain ⟨-, h⟩ := bind_eq_ok.mp h
  obtain ⟨hunique, h⟩ := bind_eq_ok.mp h
  obtain ⟨helpers, hhelpers, h⟩ := bind_eq_ok_iff.mp h
  cases h
  exact ⟨planned, payloads, items, indexed, rendered, launched, helpers,
    ⟨hvalidated, hplanned, hpayloads, hitems, hindexed, hrendered, hlaunched, hcontainers, hunique,
      hhelpers, rfl, rfl⟩⟩

theorem forall₂_renderVolumesFrom {out : List Volume}
    (h : renderVolumesFrom lib claims before rest = .ok out) :
    List.Forall₂ (fun planned volume => ∃ source, volumeSource lib claims planned = .ok source ∧
      volume = { name := plannedVolumeName lib planned.id, source }) rest out := by
  induction rest generalizing before out with
  | nil =>
    cases h
    exact .nil
  | cons first rest ih =>
    rw [renderVolumesFrom] at h
    split at h
    · cases h
    · obtain ⟨source, hsource, h⟩ := bind_eq_ok_iff.mp h
      obtain ⟨others, hothers, h⟩ := bind_eq_ok_iff.mp h
      cases h
      exact .cons ⟨source, hsource, rfl⟩ (ih hothers)

theorem exists_rendered_volume {out : List Volume}
    (h : renderVolumesFrom lib claims before rest = .ok out) {volume : VolumePlan}
    (hvolume : volume ∈ rest) : ∃ source, volumeSource lib claims volume = .ok source ∧
      { name := plannedVolumeName lib volume.id, source } ∈ out := by
  obtain ⟨_, hmem, source, hsource, rfl⟩ :=
    exists_left_of_forall₂ (forall₂_renderVolumesFrom h).flip hvolume
  exact ⟨source, hsource, hmem⟩

theorem exists_name_of_mem_renderVolumesFrom {out : List Volume}
    (h : renderVolumesFrom lib claims before rest = .ok out) (hvolume : volume ∈ out) :
    ∃ id, volume.name = plannedVolumeName lib id := by
  obtain ⟨planned, -, _, -, rfl⟩ := exists_left_of_forall₂ (forall₂_renderVolumesFrom h) hvolume
  exact ⟨planned.id, rfl⟩

theorem id_eq_of_name_eq {out : List Volume}
    (h : renderVolumesFrom lib claims before rest = .ok out) : ∀ u ∈ before ++ rest, ∀ v ∈ rest,
      plannedVolumeName lib u.id = plannedVolumeName lib v.id → u.id = v.id := by
  induction rest generalizing before out with
  | nil => simp
  | cons first rest ih =>
    rw [renderVolumesFrom] at h
    split at h
    · cases h
    · next hnone =>
      obtain ⟨source, -, h⟩ := bind_eq_ok_iff.mp h
      obtain ⟨others, hothers, -⟩ := bind_eq_ok_iff.mp h
      have hfirst : ∀ u ∈ before,
          plannedVolumeName lib u.id = plannedVolumeName lib first.id → u.id = first.id := by
        intro u hu hname
        have hu' := find?_eq_none.mp hnone u hu
        simp only [decide_eq_true_eq, not_and, not_not] at hu'
        exact hu' hname
      have hlater := ih hothers
      intro u hu v hv hname
      have hu' : u ∈ before ++ [first] ++ rest := by simpa using hu
      obtain rfl | hv := mem_cons.mp hv
      · rcases mem_append.mp hu with hbefore | hmem
        · exact hfirst u hbefore hname
        · obtain rfl | hrest := mem_cons.mp hmem
          · rfl
          · exact (hlater v (by simp) u hrest hname.symm).symm
      · exact hlater u hu' v hv hname

theorem indexMount_eq_ok {request : MountPlan} {entry : String × VolumeMount}
    (h : indexMount lib plan request = .ok entry) : entry.1 = request.containerID ∧
      entry.2.mountPath = request.destination ∧ entry.2.subPath = request.sourcePath ∧
      ∃ volume ∈ plan.volumes, volume.id = request.volumeID ∧
        entry.2.name = plannedVolumeName lib volume.id := by
  unfold indexMount at h
  obtain ⟨hname, h⟩ := bind_eq_ok.mp h
  obtain ⟨propagation, -, h⟩ := bind_eq_ok_iff.mp h
  cases h
  refine ⟨rfl, rfl, rfl, ?_⟩
  rw [rejectIf_eq_ok, volumeNames] at hname
  split at hname
  · next hany =>
    obtain ⟨volume, hvolume, hid⟩ := any_eq_true.mp hany
    rw [decide_eq_true_eq] at hid
    refine ⟨volume, hvolume, hid, ?_⟩
    show volumeNames lib plan request.volumeID = _
    rw [volumeNames, if_pos hany, hid]
  · exact absurd rfl hname

section

variable {indexed : List (String × VolumeMount)} (h : indexMounts lib plan = .ok indexed)

include h

theorem exists_request_of_mem {containerID : String}
    (hmount : mount ∈ mountsByContainer indexed containerID) :
    ∃ request ∈ plan.mounts, indexMount lib plan request = .ok (containerID, mount) := by
  obtain ⟨⟨_, _⟩, hmem, rfl⟩ := mem_map.mp hmount
  obtain ⟨hentry, hid⟩ := mem_filter.mp hmem
  obtain rfl := of_decide_eq_true hid
  exact exists_left_of_forall₂ (mapM_eq_ok_iff.mp h) hentry

theorem exists_mount_of_mem {request : MountPlan} (hrequest : request ∈ plan.mounts) :
    ∃ mount ∈ mountsByContainer indexed request.containerID,
      indexMount lib plan request = .ok (request.containerID, mount) := by
  obtain ⟨entry, hentry, hindexed⟩ :=
    exists_left_of_forall₂ (mapM_eq_ok_iff.mp h).flip hrequest
  have hid := (indexMount_eq_ok hindexed).1
  refine ⟨entry.2, mem_map_of_mem (mem_filter.mpr ⟨hentry, decide_eq_true hid⟩), ?_⟩
  rw [← hid]
  exact hindexed

end

structure ShowsPayload (lib : RenderLibrary) (payload : PayloadInput)
    (entry : Volume × VolumeMount) : Prop where
  volume : entry.1.name = payloadVolumeName lib payload.id
  mount : entry.2.name = payloadVolumeName lib payload.id
  path : entry.2.mountPath = joinPath lib payloadRootPath (artifactNodeDirectory lib payload.id)

theorem renderPayloadSource_eq_ok {before : List PayloadInput} {payload : PayloadInput}
    (h : renderPayloadSource lib plan namespaceName before payload = .ok out) :
    ∀ entry ∈ out, ShowsPayload lib payload entry := by
  unfold renderPayloadSource at h
  obtain ⟨-, h⟩ := bind_eq_ok.mp h
  obtain ⟨-, h⟩ := bind_eq_ok.mp h
  obtain ⟨source, -, h⟩ := bind_eq_ok_iff.mp h
  cases source with
  | none =>
    obtain rfl := Except.ok.inj h
    simp
  | some source =>
    obtain rfl := Except.ok.inj h
    intro entry hentry
    rw [mem_singleton] at hentry
    subst hentry
    exact ⟨rfl, rfl, rfl⟩

theorem renderPayloadSourcesFrom_eq_ok {before rest : List PayloadInput}
    (h : renderPayloadSourcesFrom lib plan namespaceName before rest = .ok out) :
    ∀ entry ∈ out, ∃ payload ∈ rest, ShowsPayload lib payload entry := by
  induction rest generalizing before out with
  | nil =>
    cases h
    simp
  | cons payload rest ih =>
    rw [renderPayloadSourcesFrom] at h
    obtain ⟨first, hfirst, h⟩ := bind_eq_ok_iff.mp h
    obtain ⟨others, hothers, h⟩ := bind_eq_ok_iff.mp h
    cases h
    intro entry hentry
    rcases mem_append.mp hentry with hentry | hentry
    · exact ⟨payload, mem_cons_self, renderPayloadSource_eq_ok hfirst entry hentry⟩
    · obtain ⟨later, hlater, hnames⟩ := ih hothers entry hentry
      exact ⟨later, mem_cons_of_mem _ hlater, hnames⟩

theorem renderPayloadSources_eq_ok {payloads : List PayloadInput}
    (h : renderPayloadSources lib plan namespaceName payloads = .ok out) :
    ∀ entry ∈ out, ∃ payload ∈ payloads, ShowsPayload lib payload entry := by
  unfold renderPayloadSources at h
  obtain ⟨-, h⟩ := bind_eq_ok.mp h
  obtain ⟨sources, hsources, h⟩ := bind_eq_ok_iff.mp h
  obtain ⟨-, h⟩ := bind_eq_ok.mp h
  cases h
  exact renderPayloadSourcesFrom_eq_ok hsources

def Ungated (name : String) : Prop := name ≠ startupGateContainerName

theorem ungated_dnsName (stem identity : String)
    (h : ¬stemmed stem startupGateContainerName) : Ungated (dnsName lib stem identity) := by
  intro heq
  exact h (heq ▸ stemmed_dnsName lib stem identity)

instance (name : String) : Decidable (Ungated name) :=
  inferInstanceAs (Decidable (name ≠ startupGateContainerName))

theorem mem_ite_singleton [Decidable p] {a x : α} : x ∈ (if p then [a] else []) ↔ p ∧ x = a := by
  by_cases h : p <;> simp [h]

theorem forall_mem_ite [Decidable p] {xs : List α} {q : α → Prop} :
    (∀ x ∈ (if p then xs else []), q x) ↔ (p → ∀ x ∈ xs, q x) := by
  by_cases h : p <;> simp [h]

theorem name_endpointCertificate {items : String → List KeyToPath}
    (h : renderEndpointCertificateVolume lib plan options items = some volume) :
    volume.name = endpointCertificateName := by
  rw [renderEndpointCertificateVolume] at h
  split at h
  · cases h
  · obtain rfl := Option.some.inj h
    rfl

theorem ungated_fixedVolumes {payloadVolumes : List Volume} {items : String → List KeyToPath}
    (hpayloads : ∀ volume ∈ payloadVolumes, Ungated volume.name) :
    ∀ volume ∈ fixedVolumes lib plan options payloadVolumes items, Ungated volume.name := by
  have hcertificate : ∀ volume ∈ renderLifecycleCertificateVolumes lib plan options items,
      Ungated volume.name := by
    intro volume hvolume
    obtain ⟨node, -, rfl⟩ := mem_map.mp hvolume
    exact ungated_dnsName "node-lifecycle-cert" node.id (by decide)
  have hendpoint : ∀ volume ∈ (renderEndpointCertificateVolume lib plan options items).toList,
      Ungated volume.name := by
    intro volume hvolume
    rw [name_endpointCertificate (Option.mem_toList.mp hvolume)]
    decide
  -- every other name is a constant
  simp +decide only [fixedVolumes, forall_mem_append, forall_mem_ite, forall_mem_cons,
    implies_true, and_true, true_and]
  exact ⟨⟨hpayloads, hcertificate⟩, hendpoint⟩

def renderedDevices (lib : RenderLibrary) (planned : ContainerPlan) : List (Volume × VolumeMount) :=
  planned.security.devices.mapIdx fun index device => renderDevice lib planned.id index device

def isolationMounts (options : Options) : List VolumeMount :=
  if options.networkIsolation then
    [{ name := deviceNetnsVolumeName, mountPath := deviceNetnsMountPath
       propagation := some .hostToContainer }] else []

/-- Mounts whose paths are apart from each other and from those of the mounts that are there. -/
def Fresh (old new : List VolumeMount) : Prop :=
  (∀ mount ∈ new, ∀ existing ∈ old, existing.mountPath ≠ mount.mountPath) ∧
    new.Pairwise fun a b => a.mountPath ≠ b.mountPath

theorem mem_sortMounts : mount ∈ sortMounts lib mounts ↔ mount ∈ mounts :=
  (lib.sorting.perm_sort _ _).mem_iff

theorem renderContainer_eq_ok {planned : ContainerPlan} {rendered : Container × List Volume}
    (h : renderContainer lib planned mounts stop = .ok rendered) :
    rendered.1.name = applicationContainerName lib planned.id ∧
      rendered.1.volumeMounts = mounts ++ (renderedDevices lib planned).map snd ∧
      rendered.2 = (renderedDevices lib planned).map fst := by
  unfold renderContainer at h
  obtain ⟨-, h⟩ := bind_eq_ok.mp h
  obtain ⟨-, h⟩ := bind_eq_ok.mp h
  obtain ⟨-, h⟩ := bind_eq_ok.mp h
  obtain ⟨-, h⟩ := bind_eq_ok.mp h
  obtain ⟨_, -, h⟩ := bind_eq_ok_iff.mp h
  obtain ⟨-, h⟩ := bind_eq_ok.mp h
  obtain ⟨-, h⟩ := bind_eq_ok.mp h
  obtain rfl := Except.ok.inj h
  exact ⟨rfl, rfl, rfl⟩

theorem renderContainersFrom_forall₂ {indexed : List (String × VolumeMount)}
    {before rest : List ContainerPlan} {out : List (Container × List Volume)}
    (h : renderContainersFrom lib plan indexed stop before rest = .ok out) :
    List.Forall₂ (fun planned rendered =>
      renderContainer lib planned (mountsByContainer indexed planned.id) stop = .ok rendered)
      rest out := by
  induction rest generalizing before out with
  | nil =>
    cases h
    exact .nil
  | cons first rest ih =>
    rw [renderContainersFrom] at h
    obtain ⟨-, h⟩ := bind_eq_ok.mp h
    obtain ⟨rendered, hrendered, h⟩ := bind_eq_ok_iff.mp h
    obtain ⟨-, h⟩ := bind_eq_ok.mp h
    obtain ⟨others, hothers, h⟩ := bind_eq_ok_iff.mp h
    cases h
    exact .cons hrendered (ih hothers)

theorem applyLifecycle_eq_ok {ctx : LifecycleContext} {planned : ContainerPlan}
    {launched : Container} (h : applyLifecycle lib ctx planned container = .ok launched) :
    ∃ mounts, lifecycleMounts lib ctx planned = .ok mounts ∧ launched.name = container.name ∧
      launched.volumeMounts.Perm (container.volumeMounts ++ mounts) ∧
      Fresh container.volumeMounts mounts := by
  unfold applyLifecycle at h
  obtain ⟨mounts, hmounts, h⟩ := bind_eq_ok_iff.mp h
  obtain ⟨hfresh, h⟩ := bind_eq_ok.mp h
  cases h
  refine ⟨mounts, hmounts, rfl, lib.sorting.perm_sort _ _, ?_⟩
  have hapart : ∀ (before : List VolumeMount) (mount : VolumeMount),
      (rejectIf (∃ existing ∈ container.volumeMounts ++ before,
          existing.mountPath = mount.mountPath) (RenderError.text ("container " ++
            quoted planned.id ++ " already uses lifecycle mount path " ++
            quoted mount.mountPath)) = .ok () ↔
        (∀ existing ∈ container.volumeMounts, existing.mountPath ≠ mount.mountPath) ∧
          ∀ existing ∈ before, existing.mountPath ≠ mount.mountPath) := by
    intro before mount
    simp only [rejectIf_eq_ok, mem_append, not_exists, not_and, or_imp, forall_and, ne_eq]
  exact (checkEach_eq_ok hapart).mp hfresh

theorem applyDeviceNetns_eq_ok {isolated : Container}
    (h : applyDeviceNetns lib container = .ok isolated) : isolated.name = container.name ∧
      isolated.volumeMounts.Perm (container.volumeMounts ++
        [{ name := deviceNetnsVolumeName, mountPath := deviceNetnsMountPath
           propagation := some .hostToContainer }]) ∧
      ∀ mount ∈ container.volumeMounts, mount.mountPath ≠ deviceNetnsMountPath := by
  unfold applyDeviceNetns at h
  obtain ⟨-, h⟩ := bind_eq_ok.mp h
  obtain ⟨hpath, h⟩ := bind_eq_ok.mp h
  obtain ⟨-, h⟩ := bind_eq_ok.mp h
  cases h
  refine ⟨rfl, lib.sorting.perm_sort _ _, ?_⟩
  intro mount hmount heq
  exact rejectIf_eq_ok.mp hpath ⟨mount, hmount, heq⟩

theorem isolateContainers_forall₂ {launched containers : List Container}
    (h : isolateContainers lib options launched = .ok containers) :
    List.Forall₂ (fun launched isolated => isolated.name = launched.name ∧
      isolated.volumeMounts.Perm (launched.volumeMounts ++ isolationMounts options) ∧
      Fresh launched.volumeMounts (isolationMounts options)) launched containers := by
  unfold isolateContainers at h
  split at h
  · next hisolation =>
    refine (mapM_eq_ok_iff.mp h).imp ?_
    intro launched isolated hisolated
    obtain ⟨hname, hperm, hpath⟩ := applyDeviceNetns_eq_ok hisolated
    rw [isolationMounts, if_pos hisolation]
    refine ⟨hname, hperm, ?_, pairwise_singleton _ _⟩
    simpa using hpath
  · next hisolation =>
    cases h
    rw [isolationMounts, if_neg hisolation]
    apply forall₂_same.mpr
    intro container _
    exact ⟨rfl, by simp, by simp, .nil⟩

/-- The mounts of an application container: those of the plan, of the devices, of the lifecycle
boundary and of the network isolation. -/
structure Launched (lib : RenderLibrary) (ctx : LifecycleContext)
    (indexed : List (String × VolumeMount)) (planned : ContainerPlan) (lifecycle : List VolumeMount)
    (container : Container) : Prop where
  name_eq : container.name = applicationContainerName lib planned.id
  lifecycle_eq : lifecycleMounts lib ctx planned = .ok lifecycle
  mounts_perm : container.volumeMounts.Perm (mountsByContainer indexed planned.id ++
    (renderedDevices lib planned).map snd ++ lifecycle ++ isolationMounts ctx.options)
  lifecycle_fresh : Fresh (mountsByContainer indexed planned.id ++
    (renderedDevices lib planned).map snd) lifecycle
  isolation_fresh : Fresh (mountsByContainer indexed planned.id ++
    (renderedDevices lib planned).map snd ++ lifecycle) (isolationMounts ctx.options)

theorem forall₂_of_zip {r : α → β → Prop} {s : α × β → γ → Prop} {bs : List β} {cs : List γ}
    (hleft : List.Forall₂ r as bs) (hzip : List.Forall₂ s (as.zip bs) cs) :
    List.Forall₂ (fun a c => ∃ b, r a b ∧ s (a, b) c) as cs := by
  induction hleft generalizing cs with
  | nil =>
    cases hzip
    exact .nil
  | cons hab _ ih =>
    cases hzip with
    | cons hc hrest => exact .cons ⟨_, hab, hc⟩ (ih hrest)

theorem forall₂_trans {r : α → β → Prop} {s : β → γ → Prop} {bs : List β} {cs : List γ}
    (hleft : List.Forall₂ r as bs) (hright : List.Forall₂ s bs cs) :
    List.Forall₂ (fun a c => ∃ b, r a b ∧ s b c) as cs := by
  induction hleft generalizing cs with
  | nil =>
    cases hright
    exact .nil
  | cons hab _ ih =>
    cases hright with
    | cons hc hrest => exact .cons ⟨_, hab, hc⟩ (ih hrest)

section

variable {pod : Pod} {planned : List Volume} {payloads : List (Volume × VolumeMount)}
  {items : String → List KeyToPath} {indexed : List (String × VolumeMount)}
  {rendered : List (Container × List Volume)} {launched helpers : List Container}

variable (run : Run lib plan options pod planned payloads items indexed rendered launched helpers)
include run

theorem Run.rendered_forall₂ : List.Forall₂ (fun planned rendered =>
      renderContainer lib planned (mountsByContainer indexed planned.id)
        options.enableContainerStopSignals = .ok rendered) plan.containers rendered := by
  have h := run.rendered_eq
  unfold renderContainers at h
  exact renderContainersFrom_forall₂ (bind_eq_ok.mp h).2

theorem Run.applications : ∃ targets, List.Forall₂ (fun planned container =>
      ∃ lifecycle, Launched lib { plan, options, targets, items } indexed planned lifecycle
        container) plan.containers pod.containers := by
  have hlaunched := run.launched_eq
  unfold renderApplicationLifecycle at hlaunched
  obtain ⟨-, hlaunched⟩ := bind_eq_ok.mp hlaunched
  obtain ⟨targets, -, hlaunched⟩ := bind_eq_ok_iff.mp hlaunched
  refine ⟨targets, ?_⟩
  have hrendered := forall₂_map_right_iff (f := fst)
    (R := fun (planned : ContainerPlan) (container : Container) =>
      container.name = applicationContainerName lib planned.id ∧
        container.volumeMounts = mountsByContainer indexed planned.id ++
          (renderedDevices lib planned).map snd) |>.mpr
    (run.rendered_forall₂.imp fun _ _ h =>
      ⟨(renderContainer_eq_ok h).1, (renderContainer_eq_ok h).2.1⟩)
  have hzip := forall₂_of_zip hrendered (mapM_eq_ok_iff.mp hlaunched)
  refine (forall₂_trans hzip (isolateContainers_forall₂ run.containers_eq)).imp ?_
  rintro planned container ⟨launched, ⟨plain, ⟨hname, hmounts⟩, hlifecycle⟩, hisolated, hperm,
    hfresh⟩
  obtain ⟨lifecycle, heq, hname', hperm', hfresh'⟩ := applyLifecycle_eq_ok hlifecycle
  rw [hmounts] at hperm' hfresh'
  refine ⟨lifecycle, ?_, heq, hperm.trans (hperm'.append_right _), hfresh', ?_, hfresh.2⟩
  · rw [hisolated, hname', hname]
  · intro mount hmount existing hexisting
    exact hfresh.1 mount hmount existing (hperm'.mem_iff.mpr hexisting)

theorem Run.device_mem {container : ContainerPlan} (hcontainer : container ∈ plan.containers)
    {entry : Volume × VolumeMount} (hentry : entry ∈ renderedDevices lib container) :
    entry.1 ∈ rendered.flatMap snd := by
  obtain ⟨out, hout, hrendered⟩ := exists_left_of_forall₂ run.rendered_forall₂.flip hcontainer
  rw [mem_flatMap]
  refine ⟨out, hout, ?_⟩
  rw [(renderContainer_eq_ok hrendered).2.2]
  exact mem_map_of_mem hentry

theorem Run.rendered_pairwise :
    (planned ++ fixedVolumes lib plan options (payloads.map fst) items ++
      rendered.flatMap snd).Pairwise fun u v => u.name ≠ v.name := by
  have h := run.unique
  unfold validateUniqueVolumeNames at h
  have hapart : ∀ (before : List Volume) (volume : Volume),
      (rejectIf (∃ earlier ∈ before, earlier.name = volume.name) (RenderError.text
        ("rendered volume name " ++ quoted volume.name ++ " is duplicated")) = .ok () ↔
        True ∧ ∀ earlier ∈ before, earlier.name ≠ volume.name) := by
    simp
  exact ((checkEach_eq_ok hapart).mp h).2

theorem Run.ungated :
    ∀ volume ∈ planned ++ fixedVolumes lib plan options (payloads.map fst) items ++
      rendered.flatMap snd, Ungated volume.name := by
  intro volume hvolume
  rcases mem_append.mp hvolume with hvolume | hdevice
  · rcases mem_append.mp hvolume with hplanned | hfixed
    · obtain ⟨id, hname⟩ := exists_name_of_mem_renderVolumesFrom run.planned_eq hplanned
      rw [hname]
      exact ungated_dnsName "volume" id (by decide)
    · refine ungated_fixedVolumes ?_ volume hfixed
      intro payload hpayload
      obtain ⟨entry, hentry, rfl⟩ := mem_map.mp hpayload
      obtain ⟨source, -, hname, -⟩ := renderPayloadSources_eq_ok run.payloads_eq entry hentry
      rw [hname]
      exact ungated_dnsName "payload" source.id (by decide)
  · obtain ⟨out, hout, hvolume⟩ := mem_flatMap.mp hdevice
    obtain ⟨container, -, hrendered⟩ := exists_left_of_forall₂ run.rendered_forall₂ hout
    rw [(renderContainer_eq_ok hrendered).2.2] at hvolume
    obtain ⟨entry, hentry, rfl⟩ := mem_map.mp hvolume
    obtain ⟨index, hindex, rfl⟩ := mem_mapIdx.mp hentry
    exact ungated_dnsName "device" _ (by decide)

theorem Run.volumes_pairwise : pod.volumes.Pairwise fun u v => u.name ≠ v.name := by
  rw [run.volumes_eq, pairwise_append]
  refine ⟨run.rendered_pairwise, ?_, ?_⟩
  · split <;> simp
  · intro volume hvolume gate hgate
    obtain ⟨-, rfl⟩ := mem_ite_singleton.mp hgate
    exact run.ungated volume hvolume

end

end Clabernetes.DirectPod
