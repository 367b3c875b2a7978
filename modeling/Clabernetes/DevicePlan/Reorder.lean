import Clabernetes.DevicePlan.Accepted
import Clabernetes.DevicePlan.Normalize

/-!
# Inputs and plans in another order

Two inputs, or two plans, that differ in the order of the lists that normalisation sorts, at every
level. Validation accepts both or none, and the normal form is one of them.
-/

namespace Clabernetes.DevicePlan

open Base Std

inductive ImageInput.Reorders (a : ImageInput) : ImageInput → Prop where
  | mk (osFeatures declaredDirs : List String) (environment labels : List KeyValue)
      (ports : List Port) (hosFeatures : a.platform.osFeatures.Perm osFeatures)
      (henvironment : a.config.environment.Perm environment)
      (hlabels : a.config.labels.Perm labels) (hports : a.config.ports.Perm ports)
      (hdeclaredDirs : a.config.declaredDirs.Perm declaredDirs) :
      Reorders a { a with
        platform := { a.platform with osFeatures }
        config := { a.config with environment, labels, ports, declaredDirs } }

inductive ManagementInput.Reorders (a : ManagementInput) : ManagementInput → Prop where
  | mk (inboundPorts : List Port) (hports : a.inboundPorts.Perm inboundPorts) :
      Reorders a { a with inboundPorts }

inductive Input.Reorders (a : Input) : Input → Prop where
  | mk (nodes : List NodeInput) (images : List ImageInput) (payloads : List PayloadInput)
      (certificates : List CertificateInput) (management : List ManagementInput)
      (interfaces : List InterfaceInput) (hnodes : a.nodes.Perm nodes)
      (himages : Reordered ImageInput.Reorders a.images images)
      (hpayloads : a.payloads.Perm payloads) (hcertificates : a.certificates.Perm certificates)
      (hmanagement : Reordered ManagementInput.Reorders a.management management)
      (hinterfaces : a.interfaces.Perm interfaces) :
      Reorders a { a with nodes, images, payloads, certificates, management, interfaces }

inductive NodePlan.Reorders (a : NodePlan) : NodePlan → Prop where
  | mk (readinessContainerIDs aliases : List String)
      (hreadiness : a.readinessContainerIDs.Perm readinessContainerIDs)
      (haliases : a.aliases.Perm aliases) : Reorders a { a with readinessContainerIDs, aliases }

inductive ContainerPlan.Reorders (a : ContainerPlan) : ContainerPlan → Prop where
  | mk (mountIDs capabilitiesAdd capabilitiesDrop : List String) (devices : List Device)
      (sysctls environment labels : List KeyValue) (ports : List Port)
      (hmountIDs : a.mountIDs.Perm mountIDs)
      (hadd : a.security.capabilitiesAdd.Perm capabilitiesAdd)
      (hdrop : a.security.capabilitiesDrop.Perm capabilitiesDrop)
      (hdevices : a.security.devices.Perm devices) (hsysctls : a.security.sysctls.Perm sysctls)
      (henvironment : a.environment.Perm environment) (hlabels : a.labels.Perm labels)
      (hports : a.ports.Perm ports) :
      Reorders a { a with
        mountIDs, environment, labels, ports
        security := { a.security with capabilitiesAdd, capabilitiesDrop, devices, sysctls } }

inductive FilePlan.Reorders (a : FilePlan) : FilePlan → Prop where
  | mk (fileVariables : List KeyValue) (extendedAttributes : List ExtendedAttribute)
      (hvariables : a.fileVariables.Perm fileVariables)
      (hextended : a.extendedAttributes.Perm extendedAttributes) :
      Reorders a { a with fileVariables, extendedAttributes }

inductive ManagementInterposition.Reorders (a : ManagementInterposition) :
    ManagementInterposition → Prop where
  | mk (transportCIDRs : List String) (inboundPorts : List ManagementPortMap)
      (hcidrs : a.transportCIDRs.Perm transportCIDRs)
      (hports : a.inboundPorts.Perm inboundPorts) :
      Reorders a { a with transportCIDRs, inboundPorts }

inductive ManagementPlan.Reorders (a : ManagementPlan) : ManagementPlan → Prop where
  | mk (routes : List Route) (interposition : Option ManagementInterposition)
      (hroutes : a.routes.Perm routes)
      (hinterposition : Option.Rel ManagementInterposition.Reorders a.interposition interposition) :
      Reorders a { a with routes, interposition }

inductive Plan.Reorders (a : Plan) : Plan → Prop where
  | mk (nodes : List NodePlan) (containers : List ContainerPlan) (files : List FilePlan)
      (volumes : List VolumePlan) (mounts : List MountPlan) (actions : List Action)
      (management : List ManagementPlan) (interfaces : List InterfacePlan)
      (hnodes : Reordered NodePlan.Reorders a.nodes nodes)
      (hcontainers : Reordered ContainerPlan.Reorders a.containers containers)
      (hfiles : Reordered FilePlan.Reorders a.files files) (hvolumes : a.volumes.Perm volumes)
      (hmounts : a.mounts.Perm mounts) (hactions : a.actions.Perm actions)
      (hmanagement : Reordered ManagementPlan.Reorders a.management management)
      (hinterfaces : a.interfaces.Perm interfaces) :
      Reorders a { a with
        nodes, containers, files, volumes, mounts, actions, management, interfaces }

variable {lib : TextLibrary} {refs : References} {known : String → Bool} {a b : ContainerPlan}

theorem UniqueNames.perm {l l' : List KeyValue} (h : UniqueNames l) (hperm : l.Perm l') :
    UniqueNames l' :=
  ⟨fun value hvalue => h.1 value (hperm.mem_iff.mpr hvalue), hperm.pairwise h.2 Ne.symm⟩

theorem ImageInput.Reorders.validate {a b : ImageInput} (h : a.Reorders b)
    (ha : validateImageInput known [] a = .ok ()) : validateImageInput known [] b = .ok () := by
  cases h with
  | mk osFeatures declaredDirs environment labels ports _ henvironment hlabels =>
    simp only [validateImageInput, bind_eq_ok, rejectIf_eq_ok,
      validateUniqueKeyValues_eq_ok] at ha ⊢
    obtain ⟨hnode, hkey, hcomplete, henv, hlab⟩ := ha
    exact ⟨hnode, by simp, hcomplete, henv.perm henvironment, hlab.perm hlabels⟩

theorem ImageInput.Reorders.key_eq {a b : ImageInput} (h : a.Reorders b) : a.key = b.key := by
  cases h
  rfl

theorem ManagementInput.Reorders.validate {a b : ManagementInput} (h : a.Reorders b)
    (ha : validateManagementInput lib known [] a = .ok ()) :
    validateManagementInput lib known [] b = .ok () := by
  cases h with
  | mk inboundPorts hports =>
    simp only [validateManagementInput, bind_eq_ok, rejectIf_eq_ok,
      checkEach_validateInboundPort] at ha ⊢
    obtain ⟨hnode, hintent, -, hvalid, hmesh⟩ := ha
    refine ⟨hnode, hintent, by simp, fun port hport => ?_, hmesh⟩
    exact hvalid port (hports.mem_iff.mpr hport)

theorem ManagementInput.Reorders.nodeID_eq {a b : ManagementInput} (h : a.Reorders b) :
    a.nodeID = b.nodeID := by
  cases h
  rfl

theorem Input.Reorders.knows_eq {a b : Input} (h : a.Reorders b) : b.knows = a.knows := by
  cases h with
  | mk nodes _ _ _ _ _ hnodes =>
    ext id
    refine ((Reordered.of_perm hnodes).any_eq ?_).symm
    rintro node _ rfl
    rfl

theorem Input.Reorders.validate {a b : Input} (h : a.Reorders b)
    (ha : validateInput lib a = .ok ()) : validateInput lib b = .ok () := by
  have hknows := h.knows_eq
  rw [validateInput_eq_ok] at ha ⊢
  rw [hknows]
  obtain ⟨hheader, hne, hnodes, howners, himages, hpayloads, hcertificates, hmanagement,
    hinterfaces⟩ := ha
  cases h with
  | mk _ _ _ _ _ _ rnodes rimages rpayloads rcertificates rmanagement rinterfaces =>
    refine ⟨hheader, ?_, ?_, ?_, ?_, ?_, ?_, ?_, ?_⟩
    · exact fun hnil => hne ((Reordered.of_perm rnodes).eq_nil_iff.mpr hnil)
    · exact validateNodeInput_apart.of_perm (fun _ _ hab => ⟨hab.1.symm, hab.2.symm⟩) rnodes hnodes
    · exact validateGroupOwner_apart.of_perm (fun _ _ => id) rnodes howners
    · apply validateImageInput_apart.of_reordered (fun _ _ => Ne.symm) rimages _ _ himages
      · exact fun _ _ hab => hab.validate
      · intro a b x y hax hby
        rw [hax.key_eq, hby.key_eq]
        exact id
    · exact validatePayloadInput_apart.of_perm (fun _ _ => Ne.symm) rpayloads hpayloads
    · exact validateCertificateInput_apart.of_perm (fun _ _ => Ne.symm) rcertificates hcertificates
    · apply validateManagementInput_apart.of_reordered (fun _ _ => Ne.symm) rmanagement _ _
        hmanagement
      · exact fun _ _ hab => hab.validate
      · intro a b x y hax hby
        rw [hax.nodeID_eq, hby.nodeID_eq]
        exact id
    · exact validateInterfaceInput_apart.of_perm (fun _ _ => Ne.symm) rinterfaces hinterfaces

theorem NodePlan.Reorders.id_eq {a b : NodePlan} (h : a.Reorders b) : a.id = b.id := by
  cases h
  rfl

theorem NodePlan.Reorders.validate {a b : NodePlan} (h : a.Reorders b)
    (ha : validateNodePlan [] a = .ok ()) : validateNodePlan [] b = .ok () := by
  cases h with
  | mk readinessContainerIDs aliases hreadiness =>
    simp only [validateNodePlan, bind_eq_ok, rejectIf_eq_ok, not_or, Bool.not_eq_true,
      hasDuplicates_eq_false] at ha ⊢
    obtain ⟨⟨hid, hname, hkind, hcontainers, hready⟩, -, hdup, hempty, hnodup⟩ := ha
    refine ⟨⟨hid, hname, hkind, hcontainers, ?_⟩, by simp, hdup, ?_, hreadiness.nodup hnodup⟩
    · exact fun hnil => hready (List.perm_nil.mp (hnil ▸ hreadiness))
    · exact fun hmem => hempty (hreadiness.mem_iff.mpr hmem)

theorem NodePlan.Reorders.validateContainers {a b : NodePlan} (h : a.Reorders b)
    (ha : validateNodeContainers refs [] a = .ok ()) :
    validateNodeContainers refs [] b = .ok () := by
  cases h with
  | mk readinessContainerIDs aliases hreadiness =>
    simp only [validateNodeContainers, bind_eq_ok, checkEach_rejectIf, List.mem_append] at ha ⊢
    constructor
    · intro id hid
      exact ha.1 id (hid.imp_right hreadiness.mem_iff.mpr)
    · intro id hid
      exact ha.2 id (hreadiness.mem_iff.mpr hid)

theorem ContainerPlan.Reorders.ids_eq (h : a.Reorders b) :
    a.id = b.id ∧ a.runtimeID = b.runtimeID ∧ a.nodeID = b.nodeID := by
  cases h
  exact ⟨rfl, rfl, rfl⟩

theorem ContainerPlan.Reorders.validate (h : a.Reorders b)
    (ha : validateContainerPlan refs [] a = .ok ()) : validateContainerPlan refs [] b = .ok () := by
  cases h with
  | mk _ _ _ _ _ _ _ _ _ _ _ _ hsysctls henvironment hlabels hports =>
    simp only [validateContainerPlan, bind_eq_ok, rejectIf_eq_ok, validateUniqueKeyValues_eq_ok,
      checkEach_validateContainerPort] at ha ⊢
    obtain ⟨hids, hdigest, hnode, -, -, henv, hlab, hsys, hvalid, hapart⟩ := ha
    refine ⟨hids, hdigest, hnode, by simp, by simp, henv.perm henvironment, hlab.perm hlabels,
      hsys.perm hsysctls, fun port hport => ?_, hports.pairwise hapart Ne.symm⟩
    exact hvalid port (hports.mem_iff.mpr hport)

theorem ContainerPlan.Reorders.validateOwner (h : a.Reorders b)
    (ha : validateNamespaceOwner refs [] a = .ok ()) :
    validateNamespaceOwner refs [] b = .ok () := by
  cases h
  exact ha

theorem ContainerPlan.Reorders.validateMounts (h : a.Reorders b)
    (ha : validateContainerMounts refs [] a = .ok ()) :
    validateContainerMounts refs [] b = .ok () := by
  cases h with
  | mk mountIDs _ _ _ _ _ _ _ hmountIDs =>
    simp only [validateContainerMounts, checkEach_rejectIf] at ha ⊢
    intro id hid
    exact ha id (hmountIDs.mem_iff.mpr hid)

theorem FilePlan.Reorders.ids_eq {a b : FilePlan} (h : a.Reorders b) :
    a.id = b.id ∧ a.artifactKind = b.artifactKind := by
  cases h
  exact ⟨rfl, rfl⟩

theorem FilePlan.Reorders.validate {a b : FilePlan} (h : a.Reorders b)
    (ha : validateFilePlan lib refs [] a = .ok ()) : validateFilePlan lib refs [] b = .ok () := by
  cases h with
  | mk fileVariables extendedAttributes hvariables hextended =>
    simp only [validateFilePlan, bind_eq_ok, rejectIf_eq_ok, validateArtifact_eq_ok,
      checkEach_validateExtendedAttribute, validateUniqueKeyValues_eq_ok] at ha ⊢
    obtain ⟨hcomplete, hartifact, hcount, ⟨hvalid, hapart⟩, hpayload, hdigest, hsource, hvars,
      hnode, -⟩ := ha
    rw [hextended.length_eq] at hcount
    refine ⟨hcomplete, hartifact, ?_, ⟨fun value hvalue => ?_, hextended.pairwise hapart Ne.symm⟩,
      hpayload, hdigest, hsource, hvars.perm hvariables, hnode, by simp⟩
    · rintro (hmany | ⟨hne, hprepared⟩)
      · exact hcount (.inl hmany)
      · refine hcount (.inr ⟨fun hnil => hne ?_, hprepared⟩)
        exact List.nil_perm.mp (hnil ▸ hextended)
    · exact hvalid value (hextended.mem_iff.mpr hvalue)

theorem ManagementPlan.Reorders.ids_eq {a b : ManagementPlan} (h : a.Reorders b) :
    a.id = b.id ∧ a.nodeID = b.nodeID := by
  cases h
  exact ⟨rfl, rfl⟩

theorem ManagementPlan.Reorders.interposition {a b : ManagementPlan} (h : a.Reorders b)
    (ha : InterpositionComplete lib a) : InterpositionComplete lib b := by
  cases h with
  | mk routes interposition hroutes hinterposition =>
    unfold InterpositionComplete at ha ⊢
    split at ha
    · next hselector =>
      rw [if_pos hselector]
      obtain ⟨contract, hcontract, hname, hlength, hipv4, hgateway, hmac, hcidrs, hports, hmesh⟩ :=
        ha
      rw [hcontract] at hinterposition
      cases hinterposition with
      | some hreorders =>
        cases hreorders with
        | mk transportCIDRs inboundPorts rcidrs rports =>
          refine ⟨_, rfl, hname, hlength, hipv4, hgateway, hmac, fun cidr hcidr => ?_,
            fun port hport => ?_, hmesh⟩
          · exact hcidrs cidr (rcidrs.mem_iff.mpr hcidr)
          · exact hports port (rports.mem_iff.mpr hport)
    · next hselector =>
      rw [if_neg hselector]
      rw [ha] at hinterposition
      cases hinterposition
      rfl

theorem ManagementPlan.Reorders.validate {a b : ManagementPlan} (h : a.Reorders b)
    (ha : validateManagementPlan lib refs [] a = .ok ()) :
    validateManagementPlan lib refs [] b = .ok () := by
  have hcomplete : InterpositionComplete lib a → InterpositionComplete lib b := h.interposition
  simp only [validateManagementPlan, bind_eq_ok, rejectIf_eq_ok,
    validateManagementInterposition_eq_ok] at ha ⊢
  have hinterposition := hcomplete ha.2.1
  cases h
  exact ⟨ha.1, hinterposition, ha.2.2⟩

theorem Plan.Reorders.references_eq {a b : Plan} (h : a.Reorders b)
    (hcontainers : a.containers.Pairwise fun x y => x.id ≠ y.id)
    (hfiles : a.files.Pairwise fun x y => x.id ≠ y.id)
    (hvolumes : a.volumes.Pairwise fun x y => x.id ≠ y.id)
    (hmounts : a.mounts.Pairwise fun x y => x.id ≠ y.id) : b.references = a.references := by
  cases h with
  | mk _ _ _ _ _ _ _ _ rnodes rcontainers rfiles rvolumes rmounts _ rmanagement rinterfaces =>
    unfold Plan.references
    congr 1
    · ext id
      exact (rnodes.any_eq fun x y hxy => by rw [hxy.id_eq]).symm
    · ext1 id
      exact (rcontainers.find?_map_eq hcontainers _
        (fun x y hxy => ⟨hxy.ids_eq.1, hxy.ids_eq.2.2⟩) id).symm
    · ext1 id
      exact (rfiles.find?_map_eq hfiles _ (fun x y hxy => hxy.ids_eq) id).symm
    · ext1 id
      have hfind := (Reordered.of_perm rvolumes).find?_map_eq hvolumes (fun volume => volume)
        (by rintro x _ rfl; exact ⟨rfl, rfl⟩) id
      simpa using hfind.symm
    · ext1 id
      have hfind := (Reordered.of_perm rmounts).find?_map_eq hmounts (fun mount => mount)
        (by rintro x _ rfl; exact ⟨rfl, rfl⟩) id
      simpa using hfind.symm
    · ext id
      exact (rmanagement.any_eq fun x y hxy => by rw [hxy.ids_eq.1]).symm
    · ext id
      refine ((Reordered.of_perm rinterfaces).any_eq ?_).symm
      rintro x _ rfl
      rfl

theorem Plan.Reorders.validate {a b : Plan} (h : a.Reorders b)
    (ha : validatePlan lib a = .ok ()) : validatePlan lib b = .ok () := by
  rw [validatePlan_eq_ok] at ha ⊢
  obtain ⟨hheader, hne, hnodes, hcontainers, howners, hinventory, hfiles, hvolumes, hmounts,
    hcontainerMounts, hmanagement, hinterfaces, hactions⟩ := ha
  have hrefs := h.references_eq
    ((validateContainerPlan_apart.checkEach_eq_ok.mp hcontainers).2.imp fun hxy => hxy.1)
    (validateFilePlan_apart.checkEach_eq_ok.mp hfiles).2
    (validateVolumePlan_apart.checkEach_eq_ok.mp hvolumes).2
    (validateMountPlan_apart.checkEach_eq_ok.mp hmounts).2
  rw [hrefs]
  have htrue : ∀ x y : ContainerPlan, True → True := fun _ _ => id
  cases h with
  | mk _ _ _ _ _ _ _ _ rnodes rcontainers rfiles rvolumes rmounts ractions rmanagement
      rinterfaces =>
    refine ⟨hheader, ?_, ?_, ?_, ?_, ?_, ?_, ?_, ?_, ?_, ?_, ?_, ?_⟩
    · exact ⟨fun hnil => hne.1 (rnodes.eq_nil_iff.mpr hnil),
        fun hnil => hne.2 (rcontainers.eq_nil_iff.mpr hnil)⟩
    · apply validateNodePlan_apart.of_reordered (fun _ _ => Ne.symm) rnodes _ _ hnodes
      · exact fun _ _ hxy => hxy.validate
      · intro x y x' y' hx hy
        rw [hx.id_eq, hy.id_eq]
        exact id
    · apply validateContainerPlan_apart.of_reordered _ rcontainers _ _ hcontainers
      · exact fun _ _ hxy => ⟨hxy.1.symm, hxy.2.symm⟩
      · exact fun _ _ hxy => hxy.validate
      · intro x y x' y' hx hy
        rw [hx.ids_eq.1, hx.ids_eq.2.1, hy.ids_eq.1, hy.ids_eq.2.1]
        exact id
    · exact validateNamespaceOwner_apart.of_reordered htrue rcontainers
        (fun _ _ hxy => hxy.validateOwner) (fun _ _ _ _ _ _ => id) howners
    · exact validateNodeContainers_apart.of_reordered (fun _ _ => id) rnodes
        (fun _ _ hxy => hxy.validateContainers) (fun _ _ _ _ _ _ => id) hinventory
    · apply validateFilePlan_apart.of_reordered (fun _ _ => Ne.symm) rfiles _ _ hfiles
      · exact fun _ _ hxy => hxy.validate
      · intro x y x' y' hx hy
        rw [hx.ids_eq.1, hy.ids_eq.1]
        exact id
    · exact validateVolumePlan_apart.of_perm (fun _ _ => Ne.symm) rvolumes hvolumes
    · exact validateMountPlan_apart.of_perm (fun _ _ => Ne.symm) rmounts hmounts
    · exact validateContainerMounts_apart.of_reordered htrue rcontainers
        (fun _ _ hxy => hxy.validateMounts) (fun _ _ _ _ _ _ => id) hcontainerMounts
    · apply validateManagementPlan_apart.of_reordered _ rmanagement _ _ hmanagement
      · exact fun _ _ hxy => ⟨hxy.1.symm, hxy.2.symm⟩
      · exact fun _ _ hxy => hxy.validate
      · intro x y x' y' hx hy
        rw [hx.ids_eq.1, hx.ids_eq.2, hy.ids_eq.1, hy.ids_eq.2]
        exact id
    · exact validateInterfacePlan_apart.of_perm (fun _ _ => Ne.symm) rinterfaces hinterfaces
    · exact validateAction_apart.of_perm (fun _ _ => Ne.symm) ractions hactions

end Clabernetes.DevicePlan
