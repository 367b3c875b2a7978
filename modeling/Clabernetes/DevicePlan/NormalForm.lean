import Clabernetes.Base.Interrupted
import Clabernetes.DevicePlan.Reorder

/-!
# Canonical JSON is a normal form

The normal form of an accepted input or plan is accepted and is its own normal form, and it and its
canonical JSON determine each other.
-/

namespace Clabernetes.DevicePlan

open Base Std List Option

theorem eq_of_compareOn {α κ : Type} [Ord κ] [TransOrd κ] [LawfulEqOrd κ] {key : α → κ} {a b : α}
    (h : compareOn key a b = .eq) : key a = key b := by
  simpa [compareOn] using h

theorem id_eq_of_compareAction {a b : Action} (h : compareAction a b = .eq) : a.id = b.id := by
  have hfields : actionPhaseRank a.phase = actionPhaseRank b.phase ∧ a.order = b.order ∧
      a.id = b.id := by
    simpa [compareAction, compareLex_eq_eq, compareOn] using h
  exact hfields.2.2

variable (lib : Library)

variable {lib} in
theorem sort_texts_eq {l l' : List String} (h : l.Perm l') :
    lib.sorting.sort compare l = lib.sorting.sort compare l' :=
  lib.sorting.sort_eq_of_perm h fun _ _ _ _ hab => LawfulEqCmp.eq_of_compare hab

theorem orderImage_reorders (image : ImageInput) : image.Reorders (orderImage lib image) :=
  .mk _ _ _ _ _ (lib.sorting.perm_sort compare _).symm
    (lib.sorting.perm_sort compareKeyValue _).symm (lib.sorting.perm_sort compareKeyValue _).symm
    (lib.sorting.perm_sort comparePort _).symm (lib.sorting.perm_sort compare _).symm

theorem orderManagementInput_reorders (management : ManagementInput) :
    management.Reorders (orderManagementInput lib management) :=
  .mk _ (lib.sorting.perm_sort compareInboundPort _).symm

theorem orderInput_reorders (input : Input) : input.Reorders (orderInput lib input) :=
  .mk _ _ _ _ _ _ (lib.sorting.perm_sort _ _).symm
    (.of_map _ (orderImage_reorders lib) (lib.sorting.perm_sort compareImageInput _))
    (lib.sorting.perm_sort _ _).symm
    (lib.sorting.perm_sort compareCertificate _).symm
    (.of_map _ (orderManagementInput_reorders lib)
      (lib.sorting.perm_sort _ _))
    (lib.sorting.perm_sort _ _).symm

@[simp] theorem orderImage_idem (image : ImageInput) :
    orderImage lib (orderImage lib image) = orderImage lib image := by
  simp [orderImage, normalizeImageConfig]

@[simp] theorem orderManagementInput_idem (management : ManagementInput) :
    orderManagementInput lib (orderManagementInput lib management) =
      orderManagementInput lib management := by
  simp [orderManagementInput]

theorem orderInput_idem (input : Input) :
    orderInput lib (orderInput lib input) = orderInput lib input := by
  have himages := lib.sorting.map_sort_idem (orderImage lib) (orderImage_idem lib)
    (fun a b => show compareImageInput _ _ = compareImageInput a b from rfl) input.images
  have hmanagement := lib.sorting.map_sort_idem (orderManagementInput lib)
    (orderManagementInput_idem lib)
    (fun a b => show compareOn ManagementInput.nodeID _ _ = compareOn ManagementInput.nodeID a b
      from rfl) input.management
  unfold orderInput
  simp only [SortFunc.sort_sort, himages, hmanagement]

variable {input normalized : Input} {texts : TextLibrary} {plan : Plan}

theorem plain_eq_self_iff :
    input.plain texts = some input ↔ ∀ node ∈ input.nodes, node.plain texts = some node := by
  have hsame : (∀ node ∈ input.nodes, node.plain texts = some node) ↔
      input.nodes.mapM (NodeInput.plain texts) = some input.nodes := by
    rw [mapM_eq_some_iff, forall₂_same]
  rw [hsame, Input.plain, map_eq_some_iff]
  constructor
  · rintro ⟨nodes, hnodes, heq⟩
    rw [hnodes, ← heq]
  · intro hnodes
    exact ⟨input.nodes, hnodes, rfl⟩

theorem orderInput_plain (h : input.plain lib.toTextLibrary = some input) :
    (orderInput lib input).plain lib.toTextLibrary = some (orderInput lib input) := by
  rw [plain_eq_self_iff] at h ⊢
  intro node hnode
  exact h node ((lib.sorting.perm_sort (compareOn NodeInput.id) _).mem_iff.mp hnode)

theorem settleInput_eq_ok : settleInput lib input = .ok normalized ↔
      validateInput lib.toTextLibrary input = .ok () ∧ orderInput lib input = normalized := by
  unfold settleInput
  cases h : validateInput lib.toTextLibrary input <;> simp

theorem settleInput_settled (h : settleInput lib input = .ok normalized) :
    settleInput lib normalized = .ok normalized := by
  rw [settleInput_eq_ok] at h ⊢
  obtain ⟨hvalid, rfl⟩ := h
  exact ⟨(orderInput_reorders lib input).validate hvalid, orderInput_idem lib input⟩

theorem orderNode_reorders (node : NodePlan) : node.Reorders (orderNode lib node) :=
  .mk _ _ (lib.sorting.perm_sort compare _).symm (lib.sorting.perm_sort compare _).symm

theorem orderContainer_reorders (container : ContainerPlan) :
    container.Reorders (orderContainer lib container) :=
  .mk _ _ _ _ _ _ _ _ (lib.sorting.perm_sort compare _).symm
    (lib.sorting.perm_sort compare _).symm (lib.sorting.perm_sort compare _).symm
    (lib.sorting.perm_sort compareDevice _).symm (lib.sorting.perm_sort compareKeyValue _).symm
    (lib.sorting.perm_sort compareKeyValue _).symm (lib.sorting.perm_sort compareKeyValue _).symm
    (lib.sorting.perm_sort comparePort _).symm

theorem orderFile_reorders (file : FilePlan) : file.Reorders (orderFile lib file) :=
  .mk _ _ (lib.sorting.perm_sort compareKeyValue _).symm
    (lib.sorting.perm_sort _ _).symm

theorem orderContract_reorders (contract : ManagementInterposition) :
    contract.Reorders (orderContract lib contract) :=
  .mk _ _ (lib.sorting.perm_sort compare _).symm (lib.sorting.perm_sort comparePortMap _).symm

theorem orderManagementPlan_reorders (item : ManagementPlan) :
    item.Reorders (orderManagementPlan lib item) := by
  refine .mk _ _ (lib.sorting.perm_sort compareRoute _).symm ?_
  cases item.interposition with
  | none => exact .none
  | some contract => exact .some (orderContract_reorders lib contract)

theorem orderPlan_reorders (plan : Plan) : plan.Reorders (orderPlan lib plan) :=
  .mk _ _ _ _ _ _ _ _
    (.of_map _ (orderNode_reorders lib) (lib.sorting.perm_sort _ _))
    (.of_map _ (orderContainer_reorders lib) (lib.sorting.perm_sort _ _))
    (.of_map _ (orderFile_reorders lib) (lib.sorting.perm_sort _ _))
    (lib.sorting.perm_sort _ _).symm
    (lib.sorting.perm_sort _ _).symm
    (lib.sorting.perm_sort compareAction _).symm
    (.of_map _ (orderManagementPlan_reorders lib) (lib.sorting.perm_sort _ _))
    (lib.sorting.perm_sort _ _).symm

@[simp] theorem orderNode_idem (node : NodePlan) :
    orderNode lib (orderNode lib node) = orderNode lib node := by
  simp [orderNode]

@[simp] theorem orderContainer_idem (container : ContainerPlan) :
    orderContainer lib (orderContainer lib container) = orderContainer lib container := by
  simp [orderContainer]

@[simp] theorem orderFile_idem (file : FilePlan) :
    orderFile lib (orderFile lib file) = orderFile lib file := by
  simp [orderFile]

@[simp] theorem orderManagementPlan_idem (item : ManagementPlan) :
    orderManagementPlan lib (orderManagementPlan lib item) = orderManagementPlan lib item := by
  cases h : item.interposition <;> simp [orderManagementPlan, orderContract, h]

theorem orderPlan_idem (plan : Plan) : orderPlan lib (orderPlan lib plan) = orderPlan lib plan := by
  have hnodes := lib.sorting.map_sort_idem (orderNode lib) (orderNode_idem lib)
    (fun a b => show compareOn NodePlan.id _ _ = compareOn NodePlan.id a b from rfl) plan.nodes
  have hcontainers := lib.sorting.map_sort_idem (orderContainer lib) (orderContainer_idem lib)
    (fun a b => show compareOn ContainerPlan.id _ _ = compareOn ContainerPlan.id a b from rfl)
    plan.containers
  have hfiles := lib.sorting.map_sort_idem (orderFile lib) (orderFile_idem lib)
    (fun a b => show compareOn FilePlan.id _ _ = compareOn FilePlan.id a b from rfl) plan.files
  have hmanagement := lib.sorting.map_sort_idem (orderManagementPlan lib)
    (orderManagementPlan_idem lib)
    (fun a b => show compareOn ManagementPlan.id _ _ = compareOn ManagementPlan.id a b from rfl)
    plan.management
  unfold orderPlan
  simp only [SortFunc.sort_sort, hnodes, hcontainers, hfiles, hmanagement]

@[simp] theorem ArtifactKind.orRegular_orRegular (kind : ArtifactKind) :
    kind.orRegular.orRegular = kind.orRegular := by
  unfold ArtifactKind.orRegular
  split <;> simp_all

theorem withDefaults_orderPlan (plan : Plan) :
    (orderPlan lib plan.withDefaults).withDefaults = orderPlan lib plan.withDefaults := by
  have hcontainer : ∀ container ∈ plan.withDefaults.containers,
      (orderContainer lib container).withRuntimeID = orderContainer lib container := by
    intro container hmem
    obtain ⟨source, -, rfl⟩ := List.mem_map.mp hmem
    simp only [ContainerPlan.withRuntimeID, orderContainer]
    split <;> simp_all
  have hfile : ∀ file ∈ plan.withDefaults.files,
      (orderFile lib file).withArtifactKind = orderFile lib file := by
    intro file hmem
    obtain ⟨source, -, rfl⟩ := List.mem_map.mp hmem
    simp [FilePlan.withArtifactKind, orderFile]
  have hcontainers : ((lib.sorting.sort (compareOn (·.id)) plan.withDefaults.containers).map
      (orderContainer lib)).map ContainerPlan.withRuntimeID =
        (lib.sorting.sort (compareOn (·.id)) plan.withDefaults.containers).map
          (orderContainer lib) := by
    rw [List.map_map]
    apply map_congr_left
    intro container hmem
    exact hcontainer container ((lib.sorting.perm_sort _ _).mem_iff.mp hmem)
  have hfiles : ((lib.sorting.sort (compareOn (·.id)) plan.withDefaults.files).map
      (orderFile lib)).map FilePlan.withArtifactKind =
        (lib.sorting.sort (compareOn (·.id)) plan.withDefaults.files).map (orderFile lib) := by
    rw [List.map_map]
    apply map_congr_left
    intro file hmem
    exact hfile file ((lib.sorting.perm_sort _ _).mem_iff.mp hmem)
  have hunfold : ∀ p : Plan, p.withDefaults = { p with
      containers := p.containers.map ContainerPlan.withRuntimeID
      files := p.files.map FilePlan.withArtifactKind } := fun _ => rfl
  rw [hunfold (orderPlan lib plan.withDefaults)]
  unfold orderPlan
  simp only [hcontainers, hfiles]

theorem settlePlan_eq_ok {normalized : Plan} : settlePlan lib plan = .ok normalized ↔
      validatePlan lib.toTextLibrary plan.withDefaults = .ok () ∧
        orderPlan lib plan.withDefaults = normalized := by
  unfold settlePlan
  cases h : validatePlan lib.toTextLibrary plan.withDefaults <;> simp

theorem settlePlan_settled {normalized : Plan} (h : settlePlan lib plan = .ok normalized) :
    settlePlan lib normalized = .ok normalized := by
  rw [settlePlan_eq_ok] at h ⊢
  obtain ⟨hvalid, rfl⟩ := h
  rw [withDefaults_orderPlan]
  exact ⟨(orderPlan_reorders lib plan.withDefaults).validate hvalid, orderPlan_idem lib _⟩

theorem input_normal_form (h : normalizeInput lib input = .ok normalized) :
    normalizeInput lib normalized = .ok normalized ∧
      ∃ text, input.canonicalJSON lib = .ok text ∧ decodeInput lib text = .ok normalized ∧
        normalized.canonicalJSON lib = .ok text := by
  apply lib.inputCodec.normal_form _ _ h
  · intro x n hx hn
    rw [lib.plain_input] at hx ⊢
    rw [settleInput_eq_ok] at hn
    rw [← hn.2]
    exact orderInput_plain lib hx
  · intro x n hn
    exact settleInput_settled lib hn

theorem plan_normal_form {normalized : Plan} (h : normalizePlan lib plan = .ok normalized) :
    normalizePlan lib normalized = .ok normalized ∧
      ∃ text, plan.canonicalJSON lib = .ok text ∧ decodePlan lib text = .ok normalized ∧
        normalized.canonicalJSON lib = .ok text := by
  apply lib.planCodec.normal_form _ _ h
  · intro x n _ _
    rw [lib.plain_plan]
  · intro x n hn
    exact settlePlan_settled lib hn

theorem normalizeInput_eq_ok : normalizeInput lib input = .ok normalized ↔
      ∃ plain, input.plain lib.toTextLibrary = some plain ∧
        validateInput lib.toTextLibrary plain = .ok () ∧ orderInput lib plain = normalized := by
  rw [normalizeInput, Codec.normalize_eq_ok, lib.plain_input]
  simp only [settleInput_eq_ok]

theorem normalizePlan_eq_ok {normalized : Plan} : normalizePlan lib plan = .ok normalized ↔
      validatePlan lib.toTextLibrary plan.withDefaults = .ok () ∧
        orderPlan lib plan.withDefaults = normalized := by
  rw [normalizePlan, Codec.normalize_eq_ok, lib.plain_plan]
  simp [settlePlan_eq_ok]

theorem normal_input (h : normalizeInput lib input = .ok input) :
    input.plain lib.toTextLibrary = some input ∧
      validateInput lib.toTextLibrary input = .ok () ∧ orderInput lib input = input := by
  obtain ⟨plain, hplain, hvalid, horder⟩ := (normalizeInput_eq_ok lib).mp h
  rw [← lib.plain_input] at hplain
  have hself := lib.inputCodec.plain_plain input plain hplain
  rw [lib.plain_input] at hself
  rw [← horder]
  exact ⟨orderInput_plain lib hself, (orderInput_reorders lib plain).validate hvalid,
    orderInput_idem lib plain⟩

theorem normal_plan (h : normalizePlan lib plan = .ok plan) :
    plan.withDefaults = plan ∧ validatePlan lib.toTextLibrary plan = .ok () ∧
      orderPlan lib plan = plan := by
  obtain ⟨hvalid, horder⟩ := (normalizePlan_eq_ok lib).mp h
  rw [← horder]
  exact ⟨withDefaults_orderPlan lib plan, (orderPlan_reorders lib _).validate hvalid,
    orderPlan_idem lib _⟩

theorem normalizeInput_replace (h : normalizeInput lib input = .ok input)
    {interfaces : List InterfaceInput} :
    normalizeInput lib { input with interfaces } = .ok normalized ↔
      validateInput lib.toTextLibrary { input with interfaces } = .ok () ∧
        { input with interfaces := lib.sorting.sort (compareOn (·.id)) interfaces } =
          normalized := by
  obtain ⟨hplain, -, horder⟩ := normal_input lib h
  have hplain' : Input.plain lib.toTextLibrary { input with interfaces } =
      some { input with interfaces } := by
    rw [plain_eq_self_iff] at hplain ⊢
    exact hplain
  have horder' : orderInput lib { input with interfaces } =
      { input with interfaces := lib.sorting.sort (compareOn (·.id)) interfaces } := by
    conv_rhs => rw [← horder]
    rfl
  rw [normalizeInput_eq_ok]
  simp [hplain', horder']

theorem normalizePlan_replace {normalized : Plan} (h : normalizePlan lib plan = .ok plan)
    {inputDigest : String} {interfaces : List InterfacePlan} {actions : List Action} :
    normalizePlan lib { plan with inputDigest, interfaces, actions } = .ok normalized ↔
      validatePlan lib.toTextLibrary { plan with inputDigest, interfaces, actions } = .ok () ∧
        { plan with
          inputDigest
          interfaces := lib.sorting.sort (compareOn (·.id)) interfaces
          actions := lib.sorting.sort compareAction actions } = normalized := by
  obtain ⟨hdefaults, -, horder⟩ := normal_plan lib h
  have hdefaults' : Plan.withDefaults { plan with inputDigest, interfaces, actions } =
      { plan with inputDigest, interfaces, actions } := by
    conv_rhs => rw [← hdefaults]
    rfl
  have horder' : orderPlan lib { plan with inputDigest, interfaces, actions } =
      { plan with
        inputDigest
        interfaces := lib.sorting.sort (compareOn (·.id)) interfaces
        actions := lib.sorting.sort compareAction actions } := by
    conv_rhs => rw [← horder]
    rfl
  rw [normalizePlan_eq_ok, hdefaults', horder']

/-- The normal form of an accepted input or plan is its own normal form and that of its canonical
JSON. -/
theorem canonical_json_normal_form (lib : Library) :
    (∀ input normalized, normalizeInput lib input = .ok normalized →
      normalizeInput lib normalized = .ok normalized ∧
      ∃ text, input.canonicalJSON lib = .ok text ∧ decodeInput lib text = .ok normalized ∧
        normalized.canonicalJSON lib = .ok text) ∧
    ∀ plan normalized, normalizePlan lib plan = .ok normalized →
      normalizePlan lib normalized = .ok normalized ∧
      ∃ text, plan.canonicalJSON lib = .ok text ∧ decodePlan lib text = .ok normalized ∧
        normalized.canonicalJSON lib = .ok text := by
  constructor
  · intro input normalized h
    exact input_normal_form lib h
  · intro plan normalized h
    exact plan_normal_form lib h

theorem NodeInput.plain_plain (hnull : texts.compact "null" = some "null") {node plain : NodeInput}
    (h : node.plain texts = some plain) : plain.plain texts = some plain := by
  unfold NodeInput.plain at h
  cases hdefinition : node.definition with
  | none =>
    simp only [hdefinition, some.injEq] at h
    subst h
    simp [NodeInput.plain, hnull]
  | some raw =>
    simp only [hdefinition, map_eq_some_iff] at h
    obtain ⟨text, htext, rfl⟩ := h
    simp [NodeInput.plain, texts.compact_compact raw text htext]

theorem Input.plain_plain (hnull : texts.compact "null" = some "null") {plain : Input}
    (h : input.plain texts = some plain) : plain.plain texts = some plain := by
  rw [Input.plain, map_eq_some_iff] at h
  obtain ⟨nodes, hnodes, rfl⟩ := h
  rw [plain_eq_self_iff]
  intro node hnode
  obtain ⟨source, -, hsource⟩ := exists_left_of_forall₂ (mapM_eq_some_iff.mp hnodes) hnode
  exact NodeInput.plain_plain hnull hsource

def Library.ofTexts (texts : TextLibrary) (hnull : texts.compact "null" = some "null")
    (sum : Input ⊕ Plan → String) : Library where
  toTextLibrary := texts
  compact_null := hnull
  sorting := insertionSortFunc
  Text := Input ⊕ Plan
  inputCodec :=
    { plain := Input.plain texts
      marshal := fun input => (input.plain texts).map .inl
      unmarshal := Sum.getLeft?
      decodeStrict := Sum.getLeft?
      plain_plain := fun _ _ => Input.plain_plain hnull
      isSome_marshal := fun _ => isSome_map
      unmarshal_marshal := by
        intro input text h
        obtain ⟨plain, hplain, rfl⟩ := map_eq_some_iff.mp h
        exact hplain.symm
      decodeStrict_marshal := by
        intro input text h
        obtain ⟨plain, hplain, rfl⟩ := map_eq_some_iff.mp h
        exact hplain.symm }
  planCodec :=
    { plain := some
      marshal := fun plan => some (.inr plan)
      unmarshal := Sum.getRight?
      decodeStrict := Sum.getRight?
      plain_plain := fun _ _ _ => rfl
      isSome_marshal := fun _ => rfl
      unmarshal_marshal := by
        rintro plan _ ⟨⟩
        rfl
      decodeStrict_marshal := by
        rintro plan _ ⟨⟩
        rfl }
  plain_input := rfl
  plain_plan := rfl
  sha256 := sum

def plainTexts : TextLibrary where
  compact raw := if raw = "" then none else some raw
  compact_compact raw text h := by
    split at h
    · cases h
    · next hraw =>
      cases h
      exact if_neg hraw
  toLower := String.toLower
  equalFold a b := a.toLower == b.toLower
  cleanPath := id
  parsesMAC _ := true
  parsesPrefix _ := true

theorem compact_plainTexts : plainTexts.compact "null" = some "null" := rfl

/-- Values are their own texts, and all have one digest. -/
def valueLibrary : Library :=
  .ofTexts plainTexts compact_plainTexts
    fun _ => "0000000000000000000000000000000000000000000000000000000000000000"

def sampleDigest : String :=
  "sha256:0000000000000000000000000000000000000000000000000000000000000000"

def sampleCompatibility : Compatibility where
  containerlabModule := "m"
  containerlabVersion := "v"
  registryDigest := sampleDigest
  planSchemaVersion := schemaVersion

def sampleInput : Input where
  schemaVersion := schemaVersion
  topologyName := "t"
  compatibility := sampleCompatibility
  nodes := [{ id := "b", name := "y", kind := "k", definition := none },
    { id := "a", name := "x", kind := "k", groupOwner := "b", definition := some "1" }]

def samplePlan : Plan where
  schemaVersion := schemaVersion
  compatibility := sampleCompatibility
  inputDigest := sampleDigest
  planner := { name := "p", revision := "r" }
  nodes := [{ id := "n", name := "n", kind := "k", containerIDs := ["c"]
              readinessContainerIDs := ["c"] }]
  containers := [{ id := "c", nodeID := "n", namespaceOwnerID := "c", image := "i" }]

theorem sample_normal_forms :
    (∃ input text, normalizeInput valueLibrary sampleInput = .ok input ∧
      input.nodes.map (·.id) = ["a", "b"] ∧ sampleInput.canonicalJSON valueLibrary = .ok text ∧
      decodeInput valueLibrary text = .ok input ∧
      input.canonicalJSON valueLibrary = .ok text) ∧
    ∃ plan text, normalizePlan valueLibrary samplePlan = .ok plan ∧
      plan.containers.map (·.runtimeID) = ["c"] ∧
      samplePlan.canonicalJSON valueLibrary = .ok text ∧
      decodePlan valueLibrary text = .ok plan ∧ plan.canonicalJSON valueLibrary = .ok text := by
  obtain ⟨input, hinput, hids⟩ : ∃ input, normalizeInput valueLibrary sampleInput = .ok input ∧
      input.nodes.map (·.id) = ["a", "b"] := by
    decide +kernel
  obtain ⟨plan, hplan, hruntime⟩ : ∃ plan, normalizePlan valueLibrary samplePlan = .ok plan ∧
      plan.containers.map (·.runtimeID) = ["c"] := by
    decide +kernel
  obtain ⟨-, text, hinputText⟩ :=
    (canonical_json_normal_form valueLibrary).1 sampleInput input hinput
  obtain ⟨-, text', hplanText⟩ :=
    (canonical_json_normal_form valueLibrary).2 samplePlan plan hplan
  exact ⟨⟨input, text, hinput, hids, hinputText⟩, plan, text', hplan, hruntime, hplanText⟩

end Clabernetes.DevicePlan
