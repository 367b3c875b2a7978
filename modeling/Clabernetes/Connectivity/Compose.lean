import Mathlib.Data.List.Chain
import Mathlib.Data.List.Dedup
import Clabernetes.Connectivity.Projection

/-!
# Composition of transitions

An accepted pair is seen as a family of entries, one for each interface identity: the input, the
plan and the wait. A transition is a grouped change of two such families, the groups being the
Links.
-/

namespace Clabernetes.Connectivity

open Base DevicePlan Links Std List Except

structure Entry where
  input : InterfaceInput
  plan : InterfacePlan
  wait : Option Action
  deriving DecidableEq

def Entry.link (entry : Entry) : String := entry.plan.linkID

def Entry.rank (entry : Entry) : ℕ := linkApplyModeRank entry.plan.linkApplyMode

def view (pair : Pair) (id : String) : Option Entry :=
  match interfaceInputsByID pair.input.interfaces id,
    interfacePlansByID pair.plan.interfaces id with
  | some input, some plan => some ⟨input, plan, interfaceWaitActionsByID pair.plan.actions id⟩
  | _, _ => none

variable {lib : Library} {a b c : Pair} {cold : Pair} {planned : InterfacePlan} {id : String}
  {bound : ℕ}

theorem Accepted.isSome_eq (h : Accepted lib a) (id : String) :
    (interfaceInputsByID a.input.interfaces id).isSome =
      (interfacePlansByID a.plan.interfaces id).isSome := by
  obtain ⟨-, hplanned, hsupplied⟩ := h.identity_spec
  rw [Bool.eq_iff_iff, interfacePlansByID, isSome_indexBy]
  constructor
  · intro hsome
    obtain ⟨intf, hintf, rfl⟩ := isSome_indexBy.mp hsome
    exact hsupplied intf hintf
  · rintro ⟨planned, hmem, rfl⟩
    obtain ⟨intf, hintf, -⟩ := hplanned planned hmem
    rw [hintf, Option.isSome_some]

theorem Accepted.view_of_plan (h : Accepted lib a) (hplanned : planned ∈ a.plan.interfaces) :
    ∃ entry, view a planned.id = some entry ∧ entry.plan = planned := by
  obtain ⟨intf, hintf, -⟩ := h.identity_spec.2.1 planned hplanned
  have hplan : interfacePlansByID a.plan.interfaces planned.id = some planned :=
    (indexBy_eq_some h.interfacePlans_apart).mpr ⟨hplanned, rfl⟩
  refine ⟨⟨intf, planned, interfaceWaitActionsByID a.plan.actions planned.id⟩, ?_, rfl⟩
  simp only [view, hintf, hplan]

theorem Accepted.view_of_input (h : Accepted lib a) {supplied : InterfaceInput}
    (hsupplied : supplied ∈ a.input.interfaces) :
    ∃ entry, view a supplied.id = some entry ∧ entry.link = supplied.linkID := by
  obtain ⟨-, hplans, hinputs⟩ := h.identity_spec
  obtain ⟨planned, hplanned, hid⟩ := hinputs supplied hsupplied
  obtain ⟨intf, hintf, hrepeats⟩ := hplans planned hplanned
  have hsame : interfaceInputsByID a.input.interfaces planned.id = some supplied :=
    (indexBy_eq_some h.interfaceInputs_apart).mpr ⟨hsupplied, hid.symm⟩
  obtain rfl : intf = supplied := Option.some.inj (hintf.symm.trans hsame)
  obtain ⟨entry, hentry, hplan⟩ := h.view_of_plan hplanned
  exact ⟨entry, hid ▸ hentry, by rw [Entry.link, hplan, hrepeats.2.1]⟩

theorem plan_of_view {entry : Entry} (h : view a id = some entry) :
    entry.plan ∈ a.plan.interfaces ∧ entry.plan.id = id := by
  unfold view at h
  cases hinput : interfaceInputsByID a.input.interfaces id with
  | none => simp [hinput] at h
  | some input =>
    cases hplan : interfacePlansByID a.plan.interfaces id with
    | none => simp [hinput, hplan] at h
    | some plan =>
      simp only [hinput, hplan, Option.some.injEq] at h
      rw [← h]
      exact mem_of_indexBy hplan

theorem changed_iff (ha : Accepted lib a) (hb : Accepted lib b) (id : String) :
    changedConnectivityInterfaces a b id = true ↔ view a id ≠ view b id := by
  have hsome := ha.isSome_eq id
  have hsome' := hb.isSome_eq id
  unfold changedConnectivityInterfaces view
  -- accepted pairs have the input of an identity exactly when they have its plan
  cases hinput : interfaceInputsByID a.input.interfaces id <;>
    cases hplan : interfacePlansByID a.plan.interfaces id <;>
    cases hinput' : interfaceInputsByID b.input.interfaces id <;>
    cases hplan' : interfacePlansByID b.plan.interfaces id <;>
    simp_all [imp_iff_not_or]

theorem mem_affectedLinks (ha : Accepted lib a) (hb : Accepted lib b) (link : String) :
    link ∈ affectedLinks a b ↔ Affected Entry.link (view a) (view b) link := by
  simp only [affectedLinks, mem_append, mem_map, mem_filter, changed_iff ha hb]
  constructor
  · rintro (((⟨intf, ⟨hmem, hne⟩, rfl⟩ | ⟨intf, ⟨hmem, hne⟩, rfl⟩) | ⟨intf, ⟨hmem, hne⟩, rfl⟩) |
      ⟨intf, ⟨hmem, hne⟩, rfl⟩)
    · obtain ⟨entry, hentry, rfl⟩ := ha.view_of_plan hmem
      exact ⟨_, entry, hne, .inl hentry, rfl⟩
    · obtain ⟨entry, hentry, rfl⟩ := hb.view_of_plan hmem
      exact ⟨_, entry, hne, .inr hentry, rfl⟩
    · obtain ⟨entry, hentry, hlink⟩ := ha.view_of_input hmem
      exact ⟨_, entry, hne, .inl hentry, hlink⟩
    · obtain ⟨entry, hentry, hlink⟩ := hb.view_of_input hmem
      exact ⟨_, entry, hne, .inr hentry, hlink⟩
  · rintro ⟨id, entry, hne, hentry | hentry, rfl⟩
    · obtain ⟨hmem, rfl⟩ := plan_of_view hentry
      exact .inl (.inl (.inl ⟨entry.plan, ⟨hmem, hne⟩, rfl⟩))
    · obtain ⟨hmem, rfl⟩ := plan_of_view hentry
      exact .inl (.inl (.inr ⟨entry.plan, ⟨hmem, hne⟩, rfl⟩))

theorem mem_affectedInterfaces (ha : Accepted lib a) (hb : Accepted lib b) (intf : InterfacePlan) :
    intf ∈ affectedInterfaces a b ↔
      ∃ entry, Counts Entry.link (view a) (view b) entry ∧ entry.plan = intf := by
  simp only [affectedInterfaces, mem_filter, mem_append, decide_eq_true_eq, mem_affectedLinks ha hb]
  constructor
  · rintro ⟨hmem | hmem, haffected⟩
    · obtain ⟨entry, hentry, rfl⟩ := ha.view_of_plan hmem
      exact ⟨entry, ⟨⟨_, .inl hentry⟩, haffected⟩, rfl⟩
    · obtain ⟨entry, hentry, rfl⟩ := hb.view_of_plan hmem
      exact ⟨entry, ⟨⟨_, .inr hentry⟩, haffected⟩, rfl⟩
  · rintro ⟨entry, ⟨⟨id, hentry | hentry⟩, haffected⟩, rfl⟩
    · exact ⟨.inl (plan_of_view hentry).1, haffected⟩
    · exact ⟨.inr (plan_of_view hentry).1, haffected⟩

theorem rank_foldl_raiseMode (interfaces : List InterfacePlan) (mode : LinkApplyMode) :
    linkApplyModeRank (interfaces.foldl raiseMode mode) ≤ bound ↔
      linkApplyModeRank mode ≤ bound ∧
        ∀ intf ∈ interfaces, linkApplyModeRank intf.linkApplyMode ≤ bound := by
  induction interfaces generalizing mode with
  | nil => simp
  | cons intf rest ih =>
    have hraise : linkApplyModeRank (raiseMode mode intf) ≤ bound ↔
        linkApplyModeRank mode ≤ bound ∧ linkApplyModeRank intf.linkApplyMode ≤ bound := by
      unfold raiseMode
      split <;> omega
    rw [foldl_cons, ih, hraise, forall_mem_cons, and_assoc]

theorem rank_requiredMode_le (ha : Accepted lib a) (hb : Accepted lib b) :
    linkApplyModeRank (evaluateNormalizedConnectivityTransition lib a b).requiredMode ≤ bound ↔
      Within Entry.link Entry.rank bound (view a) (view b) := by
  have hmode : (evaluateNormalizedConnectivityTransition lib a b).requiredMode =
      (affectedInterfaces a b).foldl raiseMode .linkApplyLive := by
    unfold evaluateNormalizedConnectivityTransition
    by_cases h : affectedLinks a b = [] <;> simp [h, affectedInterfaces]
  rw [hmode, rank_foldl_raiseMode]
  simp only [mem_affectedInterfaces ha hb, linkApplyModeRank, Nat.zero_le, true_and]
  constructor
  · intro h entry hentry
    exact h _ ⟨entry, hentry, rfl⟩
  · rintro h _ ⟨entry, hentry, rfl⟩
    exact h entry hentry

section Accepted

variable (h : Accepted lib a)
include h

theorem Accepted.wait_known {action : Action} (haction : action ∈ a.plan.actions)
    (hwait : isConnectivityWaitAction action = true) :
    ∃ planned ∈ a.plan.interfaces, planned.id = waitedInterface action := by
  obtain ⟨-, hvalid, -⟩ := normal_plan lib h.plan_normal
  obtain ⟨-, -, -, -, -, -, -, -, -, -, -, -, hactions⟩ := validatePlan_eq_ok.mp hvalid
  have hpayload := (validateAction_apart.checkEach_eq_ok.mp hactions).1 action haction
  simp only [validateAction, bind_eq_ok, validateActionPayload_eq_ok] at hpayload
  obtain ⟨-, -, -, -, -, -, hpayload⟩ := hpayload
  have hkind : action.kind = .actionWaitInterface := by
    simp only [isConnectivityWaitAction, Bool.and_eq_true, decide_eq_true_eq] at hwait
    exact hwait.1.2
  simp only [validPayload, hkind, Plan.references, Bool.and_eq_true, any_eq_true,
    decide_eq_true_eq] at hpayload
  exact hpayload.1

theorem Accepted.wait_eq_none (hid : view a id = none) :
    interfaceWaitActionsByID a.plan.actions id = none := by
  rw [interfaceWaitActionsByID, indexBy_eq_none]
  rintro action haction rfl
  rw [connectivityWaitActions, mem_filter] at haction
  obtain ⟨planned, hplanned, hid'⟩ := h.wait_known haction.1 haction.2
  obtain ⟨entry, hentry, -⟩ := h.view_of_plan hplanned
  rw [hid', hid] at hentry
  cases hentry

theorem Accepted.maps_eq (id : String) :
    interfaceInputsByID a.input.interfaces id = (view a id).map (·.input) ∧
      interfacePlansByID a.plan.interfaces id = (view a id).map (·.plan) ∧
      interfaceWaitActionsByID a.plan.actions id = (view a id).bind (·.wait) := by
  have hsome := h.isSome_eq id
  have hnone : view a id = none → interfaceWaitActionsByID a.plan.actions id = none :=
    h.wait_eq_none
  revert hsome hnone
  unfold view
  cases interfaceInputsByID a.input.interfaces id <;>
    cases interfacePlansByID a.plan.interfaces id <;> simp_all

end Accepted

structure SameConnectivity (a b : Pair) : Prop where
  inputs : a.input.interfaces = b.input.interfaces
  plans : a.plan.interfaces = b.plan.interfaces
  waits : interfaceWaitActionsByID a.plan.actions = interfaceWaitActionsByID b.plan.actions

theorem view_eq_iff (ha : Accepted lib a) (hb : Accepted lib b) :
    view a = view b ↔ SameConnectivity a b := by
  constructor
  · intro h
    have hmaps := fun id => ha.maps_eq id
    simp only [h, ← (hb.maps_eq _).1, ← (hb.maps_eq _).2.1, ← (hb.maps_eq _).2.2] at hmaps
    refine ⟨?_, ?_, funext fun id => (hmaps id).2.2⟩
    · exact eq_of_indexBy_eq ha.interfaceInputs_apart hb.interfaceInputs_apart
        (eq_of_cmp_eq ha.interfaceInputs_apart fun _ _ => eq_of_compareOn)
        ha.interfaceInputs_inOrder hb.interfaceInputs_inOrder (funext fun id => (hmaps id).1)
    · exact eq_of_indexBy_eq ha.interfacePlans_apart hb.interfacePlans_apart
        (eq_of_cmp_eq ha.interfacePlans_apart fun _ _ => eq_of_compareOn)
        ha.interfacePlans_inOrder hb.interfacePlans_inOrder (funext fun id => (hmaps id).2.1)
  · intro h
    ext1 id
    simp only [view, h.inputs, h.plans, h.waits]

theorem affectedLinks_eq_nil_iff (ha : Accepted lib a) (hb : Accepted lib b) :
    affectedLinks a b = [] ↔ SameConnectivity a b := by
  rw [← view_eq_iff ha hb, eq_nil_iff_forall_not_mem]
  simp only [mem_affectedLinks ha hb]
  constructor
  · exact eq_of_not_affected
  · intro h link
    rw [h]
    exact not_affected_self

theorem waits_eq_of_apart (ha : Accepted lib a) (hb : Accepted lib b)
    (hapart : (connectivityWaitActions a.plan.actions).Pairwise
      fun x y => waitedInterface x ≠ waitedInterface y)
    (hapart' : (connectivityWaitActions b.plan.actions).Pairwise
      fun x y => waitedInterface x ≠ waitedInterface y)
    (h : interfaceWaitActionsByID a.plan.actions = interfaceWaitActionsByID b.plan.actions) :
    connectivityWaitActions a.plan.actions = connectivityWaitActions b.plan.actions := by
  have hids : (connectivityWaitActions a.plan.actions).Pairwise fun x y => x.id ≠ y.id :=
    ha.actions_apart.filter _
  exact eq_of_indexBy_eq hapart hapart' (eq_of_cmp_eq hids fun _ _ => id_eq_of_compareAction)
    (ha.actions_inOrder.filter _) (hb.actions_inOrder.filter _) h

theorem eq_of_linkApplyModeRank_eq {x y : LinkApplyMode}
    (h : linkApplyModeRank x = linkApplyModeRank y) (hx : linkApplyModeRank x ≤ 2) : x = y := by
  cases x <;> cases y <;> simp_all [linkApplyModeRank]

theorem Accepted.rank_le_two (h : Accepted lib a) (hplanned : planned ∈ a.plan.interfaces) :
    linkApplyModeRank planned.linkApplyMode ≤ 2 := by
  obtain ⟨-, hvalid, -⟩ := normal_plan lib h.plan_normal
  obtain ⟨-, -, -, -, -, -, -, -, -, -, -, hinterfaces, -⟩ := validatePlan_eq_ok.mp hvalid
  have hplan := (validateInterfacePlan_apart.checkEach_eq_ok.mp hinterfaces).1 planned hplanned
  simp only [validateInterfacePlan, bind_eq_ok, rejectIf_eq_ok, not_or] at hplan
  have hmode : validLinkApplyMode planned.linkApplyMode = true := by
    simpa using hplan.1.2.2.2.2.2.2.2
  cases hcase : planned.linkApplyMode with
  | other text unknown => simp [validLinkApplyMode, hcase] at hmode
  | _ => simp [linkApplyModeRank]

theorem within_two (ha : Accepted lib a) (hb : Accepted lib b) :
    Within Entry.link Entry.rank 2 (view a) (view b) := by
  rintro entry ⟨⟨id, hentry | hentry⟩, -⟩
  · exact ha.rank_le_two (plan_of_view hentry).1
  · exact hb.rank_le_two (plan_of_view hentry).1

theorem requiredMode_symm (ha : Accepted lib a) (hb : Accepted lib b) :
    (evaluateNormalizedConnectivityTransition lib a b).requiredMode =
      (evaluateNormalizedConnectivityTransition lib b a).requiredMode := by
  apply eq_of_linkApplyModeRank_eq
  · apply Nat.le_antisymm
    · rw [rank_requiredMode_le ha hb]
      exact ((rank_requiredMode_le hb ha).mp le_rfl).symm
    · rw [rank_requiredMode_le hb ha]
      exact ((rank_requiredMode_le ha hb).mp le_rfl).symm
  · exact (rank_requiredMode_le ha hb).mpr (within_two ha hb)

theorem evaluateNormalized_symm (ha : Accepted lib a) (hb : Accepted lib b) :
    evaluateNormalizedConnectivityTransition lib a b =
      evaluateNormalizedConnectivityTransition lib b a := by
  have hmode := requiredMode_symm ha hb
  have hnil : affectedLinks a b = [] ↔ affectedLinks b a = [] := by
    rw [affectedLinks_eq_nil_iff ha hb, affectedLinks_eq_nil_iff hb ha]
    exact ⟨fun h => ⟨h.inputs.symm, h.plans.symm, h.waits.symm⟩,
      fun h => ⟨h.inputs.symm, h.plans.symm, h.waits.symm⟩⟩
  have hmem : ∀ intf, intf ∈ affectedInterfaces a b ↔ intf ∈ affectedInterfaces b a := by
    intro intf
    rw [mem_affectedInterfaces ha hb, mem_affectedInterfaces hb ha]
    exact exists_congr fun entry => and_congr_left' ⟨Counts.symm, Counts.symm⟩
  have hnodes : lib.sorting.sort compare ((affectedInterfaces a b).map (·.nodeID)).dedup =
      lib.sorting.sort compare ((affectedInterfaces b a).map (·.nodeID)).dedup := by
    apply sort_texts_eq
    rw [perm_ext_iff_of_nodup (nodup_dedup _) (nodup_dedup _)]
    simp [hmem]
  unfold evaluateNormalizedConnectivityTransition at hmode ⊢
  by_cases h : affectedLinks a b = []
  · rw [if_pos h, if_pos (hnil.mp h)]
  · rw [if_neg h, if_neg (fun h' => h (hnil.mpr h'))] at hmode ⊢
    simp only at hmode
    rw [hmode, hnodes]

theorem evaluateNormalized_congr (hinputs : b.input.interfaces = c.input.interfaces)
    (hplans : b.plan.interfaces = c.plan.interfaces)
    (hwaits : connectivityWaitActions b.plan.actions = connectivityWaitActions c.plan.actions) :
    evaluateNormalizedConnectivityTransition lib a b =
      evaluateNormalizedConnectivityTransition lib a c := by
  have hchanged : changedConnectivityInterfaces a b = changedConnectivityInterfaces a c := by
    have hmap : interfaceWaitActionsByID b.plan.actions =
        interfaceWaitActionsByID c.plan.actions := by
      rw [interfaceWaitActionsByID, hwaits, interfaceWaitActionsByID]
    ext1 id
    rw [changedConnectivityInterfaces, hinputs, hplans, hmap, changedConnectivityInterfaces]
  have hlinks : affectedLinks a b = affectedLinks a c := by
    simp only [affectedLinks, hchanged, hinputs, hplans]
  have hinterfaces : affectedInterfaces a b = affectedInterfaces a c := by
    simp only [affectedInterfaces, hlinks, hplans]
  rw [evaluateNormalizedConnectivityTransition, evaluateNormalizedConnectivityTransition, hlinks,
    hinterfaces]

theorem evaluate_spec {transition : ConnectivityTransition}
    (h : evaluateConnectivityTransition lib a b = .ok transition) :
    ∃ base desired, acceptPair lib a = .ok base ∧ acceptPair lib b = .ok desired ∧
      transition = evaluateNormalizedConnectivityTransition lib base desired := by
  simp only [evaluateConnectivityTransition, bind_eq_ok_iff] at h
  obtain ⟨base, hbase, desired, hdesired, ⟨⟩, -, effective, heffective, hpure⟩ := h
  cases hpure
  have haccepted := accepted_of_acceptPair hdesired
  have hprojected := projected_of_project (accepted_of_acceptPair hbase)
    (fun action haction => (mem_filter.mp haction).2) heffective
  refine ⟨base, desired, hbase, hdesired, evaluateNormalized_congr ?_ ?_ ?_⟩
  · rw [hprojected.input]
    exact lib.sorting.sort_of_inOrder _ _ haccepted.interfaceInputs_inOrder
  · rw [hprojected.plans]
    exact lib.sorting.sort_of_inOrder _ _ haccepted.interfacePlans_inOrder
  · rw [hprojected.waits]
    exact lib.sorting.sort_of_inOrder _ _ (haccepted.actions_inOrder.filter _)

theorem Effective.sameIdentity (ha : Effective lib cold a) (hb : Effective lib cold b) :
    requireSameIdentity a b = .ok () := by
  have hcold := ha.plan_cold.trans hb.plan_cold.symm
  have hschema := congrArg Plan.schemaVersion hcold
  have hcompatibility := congrArg Plan.compatibility hcold
  have hplanner := congrArg Plan.planner hcold
  simp only [requireSameIdentity, bind_eq_ok, rejectIf_eq_ok, not_or, not_not]
  exact ⟨ha.input_cold.trans hb.input_cold.symm, hschema, hcompatibility, hplanner⟩

theorem Effective.evaluate_eq (ha : Effective lib cold a) (hb : Effective lib cold b) :
    evaluateConnectivityTransition lib a b =
      .ok (evaluateNormalizedConnectivityTransition lib a b) := by
  simp only [evaluateConnectivityTransition, bind_eq_ok_iff]
  exact ⟨a, ha.acceptPair_eq, b, hb.acceptPair_eq, (), ha.sameIdentity hb, b,
    ha.project_eq hb .rfl, rfl⟩

theorem changed_eq_false_iff (ha : Accepted lib a) (hb : Accepted lib b) :
    (evaluateNormalizedConnectivityTransition lib a b).changed = false ↔ SameConnectivity a b := by
  rw [← affectedLinks_eq_nil_iff ha hb]
  unfold evaluateNormalizedConnectivityTransition
  by_cases h : affectedLinks a b = [] <;> simp [h]

theorem requiredMode_le_max (ha : Accepted lib a) (hb : Accepted lib b) (hc : Accepted lib c) :
    linkApplyModeRank (evaluateNormalizedConnectivityTransition lib a c).requiredMode ≤
      max (linkApplyModeRank (evaluateNormalizedConnectivityTransition lib a b).requiredMode)
        (linkApplyModeRank (evaluateNormalizedConnectivityTransition lib b c).requiredMode) := by
  rw [rank_requiredMode_le ha hc]
  exact ((rank_requiredMode_le ha hb).mp le_rfl).trans ((rank_requiredMode_le hb hc).mp le_rfl)

def AppliesLive (lib : Library) (a b : Pair) : Prop :=
  ∃ transition, evaluateConnectivityTransition lib a b = .ok transition ∧
    transition.requiredMode = .linkApplyLive

theorem Effective.appliesLive_iff (ha : Effective lib cold a) (hb : Effective lib cold b) :
    AppliesLive lib a b ↔
      linkApplyModeRank (evaluateNormalizedConnectivityTransition lib a b).requiredMode = 0 := by
  simp only [AppliesLive, ha.evaluate_eq hb, ok.injEq, exists_eq_left']
  constructor
  · intro h
    rw [h, linkApplyModeRank]
  · intro h
    exact eq_of_linkApplyModeRank_eq h (by omega)

theorem Effective.appliesLive_trans (ha : Effective lib cold a) (hb : Effective lib cold b)
    (hc : Effective lib cold c) (hab : AppliesLive lib a b) (hbc : AppliesLive lib b c) :
    AppliesLive lib a c := by
  rw [ha.appliesLive_iff hb] at hab
  rw [hb.appliesLive_iff hc] at hbc
  rw [ha.appliesLive_iff hc]
  have hmax := requiredMode_le_max ha.toAccepted hb.toAccepted hc.toAccepted
  omega

theorem pairwise_appliesLive (chain : List Pair)
    (heffective : ∀ pair ∈ chain, Effective lib cold pair)
    (hchain : chain.IsChain (AppliesLive lib)) : chain.Pairwise (AppliesLive lib) := by
  induction chain with
  | nil => exact .nil
  | cons a rest ih =>
    have hrest := ih (fun pair hpair => heffective pair (mem_cons_of_mem _ hpair)) hchain.tail
    refine pairwise_cons.mpr ⟨?_, hrest⟩
    cases rest with
    | nil => simp
    | cons b rest =>
      have hab : AppliesLive lib a b := (isChain_cons_cons.mp hchain).1
      rw [forall_mem_cons]
      refine ⟨hab, fun c hc => ?_⟩
      exact (heffective a (by simp)).appliesLive_trans (heffective b (by simp))
        (heffective c (by simp [hc])) hab (rel_of_pairwise_cons hrest hc)

def WaitsApart (pair : Pair) : Prop :=
  (connectivityWaitActions pair.plan.actions).Pairwise
    fun x y => waitedInterface x ≠ waitedInterface y

/-- Transitions between effective pairs of one workload are symmetric, report no change exactly when
the live parts agree, and compose to at most the more disruptive mode; a chain of live ones is live.
-/
theorem transitions_compose (lib : Library) :
    (∀ cold a b, Effective lib cold a → Effective lib cold b →
      ∃ transition, evaluateConnectivityTransition lib a b = .ok transition ∧
        (transition.changed = false ↔ SameConnectivity a b) ∧
        (WaitsApart a → WaitsApart b →
          (transition.changed = false ↔ a.input.interfaces = b.input.interfaces ∧
            a.plan.interfaces = b.plan.interfaces ∧
            connectivityWaitActions a.plan.actions = connectivityWaitActions b.plan.actions))) ∧
    (∀ a b transition back, evaluateConnectivityTransition lib a b = .ok transition →
      evaluateConnectivityTransition lib b a = .ok back → transition = back) ∧
    (∀ a b c first second direct, evaluateConnectivityTransition lib a b = .ok first →
      evaluateConnectivityTransition lib b c = .ok second →
      evaluateConnectivityTransition lib a c = .ok direct →
      linkApplyModeRank direct.requiredMode ≤
        max (linkApplyModeRank first.requiredMode) (linkApplyModeRank second.requiredMode)) ∧
    ∀ (cold : Pair) (chain : List Pair), (∀ pair ∈ chain, Effective lib cold pair) →
      chain.IsChain (AppliesLive lib) → chain.Pairwise (AppliesLive lib) := by
  refine ⟨?_, ?_, ?_, ?_⟩
  · intro cold a b ha hb
    have hchanged := changed_eq_false_iff ha.toAccepted hb.toAccepted
    refine ⟨_, ha.evaluate_eq hb, hchanged, fun hapart hapart' => ?_⟩
    rw [hchanged]
    constructor
    · intro h
      exact ⟨h.inputs, h.plans,
        waits_eq_of_apart ha.toAccepted hb.toAccepted hapart hapart' h.waits⟩
    · rintro ⟨hinputs, hplans, hwaits⟩
      exact ⟨hinputs, hplans, by rw [interfaceWaitActionsByID, hwaits, interfaceWaitActionsByID]⟩
  · intro a b transition back h hback
    obtain ⟨base, desired, hbase, hdesired, rfl⟩ := evaluate_spec h
    obtain ⟨base', desired', hbase', hdesired', rfl⟩ := evaluate_spec hback
    obtain rfl : base' = desired := ok.inj (hbase'.symm.trans hdesired)
    obtain rfl : desired' = base := ok.inj (hdesired'.symm.trans hbase)
    exact evaluateNormalized_symm (accepted_of_acceptPair hbase)
      (accepted_of_acceptPair hdesired)
  · intro a b c first second direct hfirst hsecond hdirect
    obtain ⟨a', b', ha, hb, rfl⟩ := evaluate_spec hfirst
    obtain ⟨b'', c', hb', hc, rfl⟩ := evaluate_spec hsecond
    obtain ⟨a'', c'', ha', hc', rfl⟩ := evaluate_spec hdirect
    obtain rfl : b'' = b' := ok.inj (hb'.symm.trans hb)
    obtain rfl : a'' = a' := ok.inj (ha'.symm.trans ha)
    obtain rfl : c'' = c' := ok.inj (hc'.symm.trans hc)
    exact requiredMode_le_max (accepted_of_acceptPair ha) (accepted_of_acceptPair hb)
      (accepted_of_acceptPair hc)
  · intro cold chain heffective hchain
    exact pairwise_appliesLive chain heffective hchain

theorem effective_of_evaluation (hsum : ∀ text, DevicePlan.digest lib text = sampleDigest)
    {cold pair : Pair} (hinput_cold : sameNonConnectivityInput pair.input cold.input)
    (h : normalizeInput lib pair.input = .ok pair.input ∧
      normalizePlan lib pair.plan = .ok pair.plan ∧
      compareIdentity pair.input pair.plan sampleDigest = .ok () ∧
      coldSections pair.plan = coldSections cold.plan) : Effective lib cold pair := by
  obtain ⟨hinput, hplan, hcompare, hplan_cold⟩ := h
  obtain ⟨-, text, htext, -⟩ := input_normal_form lib hinput
  refine ⟨⟨hinput, hplan, (validateIdentity_eq_ok hinput hplan).mpr
    ⟨sampleDigest, ?_, hcompare⟩⟩, hinput_cold, hplan_cold⟩
  rw [Input.digest, htext, ← hsum text]
  rfl

def wiredInput (interfaces : List InterfaceInput) : Input where
  schemaVersion := schemaVersion
  topologyName := "t"
  compatibility := sampleCompatibility
  nodes := [{ id := "n", name := "n", kind := "k", definition := some "1" }]
  interfaces := interfaces

def wiredPlan (interfaces : List InterfacePlan) (actions : List Action) : Plan :=
  { samplePlan with
    containers := [{ id := "c", nodeID := "n", runtimeID := "c", namespaceOwnerID := "c"
                     image := "i" }]
    interfaces, actions }

def sampleInterface (id : String) (mtu : Int) : InterfaceInput :=
  { id, nodeID := "n", name := id, linkID := "l", connectivity := "vxlan", mtu }

def samplePlanned (id : String) (mtu : Int) (linkApplyMode : LinkApplyMode) : InterfacePlan :=
  { id, nodeID := "n", namespaceOwnerID := "c", name := id, linkID := "l"
    connectivity := "vxlan", mtu, linkApplyMode }

def sampleWait (id interfaceID : String) : Action :=
  { id, phase := .phasePreStart, order := 0, target := { nodeID := "n" }
    kind := .actionWaitInterface
    waitInterface := some { interfaceID, timeoutSeconds := 1 } }

def waitedPair (mtu : Int) (waits : List Action) : Pair where
  input := wiredInput [sampleInterface "i" mtu]
  plan := wiredPlan [samplePlanned "i" mtu .linkApplyLive] waits

def restartPair : Pair where
  input := wiredInput [sampleInterface "i" 9, sampleInterface "j" 9]
  plan := wiredPlan [samplePlanned "i" 9 .linkApplyLive, samplePlanned "j" 9 .linkApplyRestart]
    [sampleWait "w" "i", sampleWait "x" "j"]

def doublePair : Pair := waitedPair 0 [sampleWait "v" "i", sampleWait "w" "i"]

def singlePair : Pair := waitedPair 0 [sampleWait "w" "i"]

theorem doublePair_effective : Effective valueLibrary doublePair doublePair :=
  effective_of_evaluation (fun _ => rfl) rfl (by decide +kernel)

theorem singlePair_effective : Effective valueLibrary doublePair singlePair :=
  effective_of_evaluation (fun _ => rfl) rfl (by decide +kernel)

/-- Of two waits for one interface only the last is compared: without the first one no change is
reported. -/
theorem dropped_wait_unreported :
    Effective valueLibrary doublePair doublePair ∧
      Effective valueLibrary doublePair singlePair ∧
      evaluateConnectivityTransition valueLibrary doublePair singlePair =
        .ok { changed := false, requiredMode := .linkApplyLive, affectedNodeIDs := [] } ∧
      connectivityWaitActions doublePair.plan.actions ≠
        connectivityWaitActions singlePair.plan.actions := by
  refine ⟨doublePair_effective, singlePair_effective, ?_, by decide +kernel⟩
  rw [doublePair_effective.evaluate_eq singlePair_effective]
  decide +kernel

/-- Live changes, and one that needs a restart either way. -/
theorem sample_transitions_compose :
    (∃ transition, evaluateConnectivityTransition valueLibrary singlePair
        (waitedPair 9 [sampleWait "w" "i"]) = .ok transition ∧ transition.changed = true) ∧
    AppliesLive valueLibrary doublePair (waitedPair 9 [sampleWait "w" "i"]) ∧
    ∃ transition, evaluateConnectivityTransition valueLibrary singlePair restartPair =
        .ok transition ∧
      evaluateConnectivityTransition valueLibrary restartPair singlePair = .ok transition ∧
      transition.requiredMode = .linkApplyRestart ∧ transition.affectedNodeIDs = ["n"] := by
  have hdouble := doublePair_effective
  have hsingle := singlePair_effective
  have hmtu : Effective valueLibrary doublePair (waitedPair 9 [sampleWait "w" "i"]) :=
    effective_of_evaluation (fun _ => rfl) rfl (by decide +kernel)
  have hrestart : Effective valueLibrary doublePair restartPair :=
    effective_of_evaluation (fun _ => rfl) rfl (by decide +kernel)
  obtain ⟨hevaluate, hsymm, -, hchain⟩ := transitions_compose valueLibrary
  refine ⟨?_, ?_, ?_⟩
  · obtain ⟨transition, htransition, hchanged, -⟩ := hevaluate _ _ _ hsingle hmtu
    refine ⟨transition, htransition, ?_⟩
    rw [← Bool.not_eq_false, hchanged]
    intro hsame
    have hplans := hsame.plans
    revert hplans
    decide +kernel
  · have hlive := hchain doublePair [doublePair, singlePair, waitedPair 9 [sampleWait "w" "i"]]
      (by simp [hdouble, hsingle, hmtu])
      (by
        rw [isChain_cons_cons, isChain_cons_cons, hdouble.appliesLive_iff hsingle,
          hsingle.appliesLive_iff hmtu]
        exact ⟨by decide +kernel, by decide +kernel, .singleton _⟩)
    exact rel_of_pairwise_cons hlive (by simp)
  · obtain ⟨transition, htransition, -⟩ := hevaluate _ _ _ hsingle hrestart
    obtain ⟨back, hback, -⟩ := hevaluate _ _ _ hrestart hsingle
    obtain rfl := hsymm _ _ _ _ htransition hback
    refine ⟨transition, htransition, hback, ?_⟩
    rw [hsingle.evaluate_eq hrestart] at htransition
    obtain rfl := ok.inj htransition
    decide +kernel

end Clabernetes.Connectivity
