import Clabernetes.Connectivity.Transition

/-!
# Projection of live connectivity

The projection replaces the live part of a pair and keeps the rest. The effective pairs of a
workload are those that agree with its cold pair on the rest, and projecting one of them over
another gives the first back.
-/

namespace Clabernetes.Connectivity

open Base DevicePlan Links Std List

def coldSections (plan : Plan) : Plan :=
  { plan with inputDigest := "", interfaces := [], actions := otherActions plan.actions }

variable {lib : Library} {cold a b base result : Pair} {inputs : List InterfaceInput}
  {plans : List InterfacePlan} {waits : List Action} {actions : List Action}

theorem otherActions_append (actions : List Action)
    (hwaits : ∀ action ∈ waits, isConnectivityWaitAction action = true) :
    otherActions (otherActions actions ++ waits) = otherActions actions ∧
      connectivityWaitActions (otherActions actions ++ waits) = waits := by
  have hnone : waits.filter (!isConnectivityWaitAction ·) = [] := by
    rw [filter_eq_nil_iff]
    intro action haction
    simp [hwaits action haction]
  have hall : waits.filter isConnectivityWaitAction = waits := filter_eq_self.mpr hwaits
  constructor
  · simp [otherActions, filter_append, hnone, filter_filter]
  · simp [otherActions, connectivityWaitActions, filter_append, hall, filter_filter]

theorem actions_perm (actions : List Action) :
    (otherActions actions ++ connectivityWaitActions actions).Perm actions := by
  have hsplit := filter_append_perm isConnectivityWaitAction actions
  exact perm_append_comm.trans hsplit

theorem otherActions_sort (hids : actions.Pairwise fun x y => x.id ≠ y.id) :
    otherActions (lib.sorting.sort compareAction actions) =
        lib.sorting.sort compareAction (otherActions actions) ∧
      connectivityWaitActions (lib.sorting.sort compareAction actions) =
        lib.sorting.sort compareAction (connectivityWaitActions actions) :=
  ⟨lib.sorting.filter_sort hids (fun _ _ => id_eq_of_compareAction) _,
    lib.sorting.filter_sort hids (fun _ _ => id_eq_of_compareAction) _⟩

structure Projected (lib : Library) (base result : Pair) (inputs : List InterfaceInput)
    (plans : List InterfacePlan) (waits : List Action) : Prop where
  input_normal : normalizeInput lib result.input = .ok result.input
  plan_normal : normalizePlan lib result.plan = .ok result.plan
  digest : result.input.digest lib = .ok result.plan.inputDigest
  input : result.input =
    { base.input with interfaces := lib.sorting.sort (compareOn (·.id)) inputs }
  plans : result.plan.interfaces = lib.sorting.sort (compareOn (·.id)) plans
  waits : connectivityWaitActions result.plan.actions = lib.sorting.sort compareAction waits
  cold : coldSections result.plan = coldSections base.plan

theorem projected_of_project (hbase : Accepted lib base)
    (hwaits : ∀ action ∈ waits, isConnectivityWaitAction action = true)
    (h : projectLiveConnectivity lib base inputs plans waits = .ok result) :
    Projected lib base result inputs plans waits := by
  simp only [projectLiveConnectivity, bind_eq_ok_iff, fromPlanning_eq_ok] at h
  obtain ⟨input, hinput, digest, hdigest, plan, hplan, hresult⟩ := h
  cases hresult
  have hinput' := (normalizeInput_replace lib hbase.input_normal).mp hinput
  have hplan' := (normalizePlan_replace lib hbase.plan_normal).mp hplan
  obtain ⟨hothers, hwaits'⟩ := otherActions_append base.plan.actions hwaits
  have hids : (otherActions base.plan.actions ++ waits).Pairwise fun x y => x.id ≠ y.id := by
    obtain ⟨-, -, -, -, -, -, -, -, -, -, -, -, hactions⟩ := validatePlan_eq_ok.mp hplan'.1
    exact (validateAction_apart.checkEach_eq_ok.mp hactions).2
  have hordered : lib.sorting.sort compareAction (otherActions base.plan.actions) =
      otherActions base.plan.actions :=
    lib.sorting.sort_of_inOrder _ _ (hbase.actions_inOrder.filter _)
  refine ⟨(input_normal_form lib hinput).1, (plan_normal_form lib hplan).1, ?_, hinput'.2.symm,
    ?_, ?_, ?_⟩
  · rw [hdigest, ← hplan'.2]
  · rw [← hplan'.2]
  · rw [← hplan'.2, (otherActions_sort hids).2, hwaits']
  · rw [← hplan'.2]
    simp only [coldSections]
    rw [(otherActions_sort hids).1, hothers, hordered]

/-- An accepted pair that agrees with a cold pair outside the live part. -/
structure Effective (lib : Library) (cold pair : Pair) : Prop extends Accepted lib pair where
  input_cold : sameNonConnectivityInput pair.input cold.input
  plan_cold : coldSections pair.plan = coldSections cold.plan

theorem validatePlan_of_perm {plan : Plan} (hperm : plan.actions.Perm actions)
    (h : validatePlan lib.toTextLibrary plan = .ok ()) :
    validatePlan lib.toTextLibrary { plan with actions } = .ok () := by
  rw [validatePlan_eq_ok] at h ⊢
  obtain ⟨hheader, hnonempty, hnodes, hcontainers, howners, hnodeContainers, hfiles, hvolumes,
    hmounts, hcontainerMounts, hmanagement, hinterfaces, hactions⟩ := h
  exact ⟨hheader, hnonempty, hnodes, hcontainers, howners, hnodeContainers, hfiles, hvolumes,
    hmounts, hcontainerMounts, hmanagement, hinterfaces,
    validateAction_apart.of_perm (fun _ _ => Ne.symm) hperm hactions⟩

theorem Accepted.normalizePlan_of_perm (h : Accepted lib a) (hperm : a.plan.actions.Perm actions) :
    normalizePlan lib { a.plan with actions } = .ok a.plan := by
  have hvalid := (normal_plan lib h.plan_normal).2.1
  have hactions : lib.sorting.sort compareAction actions = a.plan.actions := by
    rw [← lib.sorting.sort_eq_of_keys h.actions_apart (fun _ _ => id_eq_of_compareAction) hperm]
    exact lib.sorting.sort_of_inOrder _ _ h.actions_inOrder
  have hinterfaces : lib.sorting.sort (compareOn (·.id)) a.plan.interfaces = a.plan.interfaces :=
    lib.sorting.sort_of_inOrder _ _ h.interfacePlans_inOrder
  apply (normalizePlan_replace lib h.plan_normal).mpr
  refine ⟨validatePlan_of_perm hperm hvalid, ?_⟩
  rw [hactions, hinterfaces]

/-- Projecting one effective pair of a workload over another gives it back, in whatever order its
waits come. -/
theorem Effective.project_eq (ha : Effective lib cold a) (hb : Effective lib cold b)
    (hwaits : (connectivityWaitActions b.plan.actions).Perm waits) :
    projectLiveConnectivity lib a b.input.interfaces b.plan.interfaces waits = .ok b := by
  have hinput : { a.input with interfaces := b.input.interfaces } = b.input :=
    congrArg (fun input : Input => { input with interfaces := b.input.interfaces })
      (ha.input_cold.trans hb.input_cold.symm)
  have hcold := ha.plan_cold.trans hb.plan_cold.symm
  have hothers : otherActions a.plan.actions = otherActions b.plan.actions :=
    congrArg Plan.actions hcold
  have hplan : { a.plan with
        inputDigest := b.plan.inputDigest
        interfaces := b.plan.interfaces
        actions := otherActions b.plan.actions ++ waits } =
      { b.plan with actions := otherActions b.plan.actions ++ waits } :=
    congrArg (fun plan : Plan => { plan with
      inputDigest := b.plan.inputDigest
      interfaces := b.plan.interfaces
      actions := otherActions b.plan.actions ++ waits }) hcold
  simp only [projectLiveConnectivity, bind_eq_ok_iff, fromPlanning_eq_ok, hinput, hothers]
  refine ⟨b.input, hb.input_normal, b.plan.inputDigest, hb.identity_spec.1, b.plan, ?_, rfl⟩
  rw [hplan]
  exact hb.normalizePlan_of_perm
    ((actions_perm b.plan.actions).symm.trans (hwaits.append_left _))

end Clabernetes.Connectivity
