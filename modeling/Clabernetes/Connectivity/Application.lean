import Clabernetes.Connectivity.Revision

/-!
# What an applied revision is

A revision that was built, written and read again applies to its cold pair and reproduces the live
part that it was built from. An application keeps everything else, and no revision applies to a cold
plan with another digest.
-/

namespace Clabernetes.Connectivity

open Base DevicePlan Links Std Except

variable {lib : RevisionLibrary} {cold desired pair : Pair}
  {revision normalized decoded : ConnectivityRevision} {mode : LinkApplyMode}

@[simp] theorem orLive_orLive (mode : LinkApplyMode) : orLive (orLive mode) = orLive mode := by
  unfold orLive
  by_cases h : mode = .other "" (by decide) <;> simp [h]

theorem orderRevision_idem (revision : ConnectivityRevision) :
    orderRevision lib (orderRevision lib revision) = orderRevision lib revision := by
  simp only [orderRevision, orLive_orLive, SortFunc.sort_sort]

theorem settleRevision_eq_ok : settleRevision lib revision = .ok normalized ↔
      validateRevisionHeader revision = .ok () ∧
        validateOrderedRevision (orderRevision lib revision) = .ok () ∧
        orderRevision lib revision = normalized := by
  simp only [settleRevision, bind_eq_ok, pure, Except.pure, Except.ok.injEq]

theorem settleRevision_settled (h : settleRevision lib revision = .ok normalized) :
    settleRevision lib normalized = .ok normalized := by
  rw [settleRevision_eq_ok] at h ⊢
  obtain ⟨hheader, hordered, rfl⟩ := h
  rw [orderRevision_idem]
  exact ⟨hheader, hordered, rfl⟩

theorem normalizeConnectivityRevision_eq_ok :
    normalizeConnectivityRevision lib revision = .ok normalized ↔
      settleRevision lib revision = .ok normalized := by
  rw [normalizeConnectivityRevision, Codec.normalize_eq_ok, lib.plain_revision]
  simp

section

variable (h : normalizeConnectivityRevision lib revision = .ok normalized)

include h

theorem revision_normal_form : normalizeConnectivityRevision lib normalized = .ok normalized ∧
      ∃ raw, lib.revisionCodec.marshal normalized = some raw ∧
        lib.revisionCodec.decodeStrict raw = some normalized := by
  rw [normalizeConnectivityRevision_eq_ok] at h ⊢
  have hsome : (lib.revisionCodec.marshal normalized).isSome = true := by
    rw [lib.revisionCodec.isSome_marshal, lib.plain_revision, Option.isSome_some]
  obtain ⟨raw, hraw⟩ := Option.isSome_iff_exists.mp hsome
  refine ⟨settleRevision_settled h, raw, hraw, ?_⟩
  rw [lib.revisionCodec.decodeStrict_marshal normalized raw hraw, lib.plain_revision]

theorem canonicalJSON_spec : revision.canonicalJSON lib = .error sizeRefusal ∨
      ∃ raw, revision.canonicalJSON lib = .ok raw ∧
        decodeConnectivityRevision lib raw = .ok normalized := by
  obtain ⟨hnormal, raw, hraw, hstrict⟩ := revision_normal_form h
  have hcanonical : lib.revisionCodec.canonical cloneRevisionRefusal
      (.revision "serializing revision") (settleRevision lib) revision = .ok raw := by
    unfold normalizeConnectivityRevision at h
    simp only [Codec.canonical, h, hraw]
  by_cases hsize : maximumConnectivityRevisionJSONSize < lib.size raw
  · left
    simp [ConnectivityRevision.canonicalJSON, hcanonical, rejectIf, hsize, bind, Except.bind]
  · right
    refine ⟨raw, ?_, ?_⟩
    · simp [ConnectivityRevision.canonicalJSON, hcanonical, rejectIf, hsize, bind, Except.bind,
        pure, Except.pure]
    · rw [lib.decodeStrict_eq, Option.filter_eq_some_iff] at hstrict
      have hpositive := lib.size_marshal normalized raw hraw
      simp only [decodeConnectivityRevision, bind_eq_ok, rejectIf_eq_ok, hstrict.1, not_or]
      exact ⟨⟨by omega, hsize⟩, by simp [hstrict.2], hnormal⟩

theorem normalized_eq : orderRevision lib revision = normalized :=
  (settleRevision_eq_ok.mp (normalizeConnectivityRevision_eq_ok.mp h)).2.2

theorem actions_are_waits :
    ∀ action ∈ normalized.actions, isConnectivityWaitAction action = true := by
  obtain ⟨-, hordered, rfl⟩ := settleRevision_eq_ok.mp (normalizeConnectivityRevision_eq_ok.mp h)
  simp only [validateOrderedRevision, bind_eq_ok] at hordered
  obtain ⟨-, -, -, -, hwaits, -⟩ := hordered
  have hcheck : ∀ before action,
      validateWait (orderRevision lib revision).interfaces before action = .ok () ↔
        (isConnectivityWaitAction action = true ∧
          ∃ intf ∈ (orderRevision lib revision).interfaces, intf.id = waitedInterface action) ∧
        ∀ earlier ∈ before, waitedInterface earlier ≠ waitedInterface action := by
    intro before action
    simp only [validateWait, rejectIf_eq_ok]
    grind
  intro action haction
  exact ((checkEach_eq_ok hcheck).mp hwaits).1 action haction |>.1

end

theorem apply_congr {cold' : Pair} {revision' : ConnectivityRevision}
    (hcold : acceptPair lib.toLibrary cold = acceptPair lib.toLibrary cold')
    (hrevision : normalizeConnectivityRevision lib revision =
      normalizeConnectivityRevision lib revision') : applyConnectivityRevision lib cold revision =
      applyConnectivityRevision lib cold' revision' := by
  rw [applyConnectivityRevision, hcold, hrevision, applyConnectivityRevision]

theorem apply_spec (h : applyConnectivityRevision lib cold revision = .ok pair) :
    ∃ normalized base, normalizeConnectivityRevision lib revision = .ok normalized ∧
      acceptPair lib.toLibrary cold = .ok base ∧
      base.plan.digest lib.toLibrary = .ok revision.basePlanDigest ∧
      Projected lib.toLibrary base pair normalized.inputInterfaces normalized.interfaces
        normalized.actions ∧
      pair.plan.digest lib.toLibrary = .ok revision.desiredPlanDigest ∧
      validateIdentity lib.toLibrary pair = .ok () := by
  simp only [applyConnectivityRevision, bind_eq_ok_iff, fromPlanning_eq_ok] at h
  obtain ⟨normalized, hnormalized, base, hbase, digest, hdigest, ⟨⟩, hbaseDigest, effective,
    heffective, desiredDigest, hdesired, ⟨⟩, hdesiredDigest, ⟨⟩, hidentity, ⟨⟩, -, hpure⟩ := h
  cases hpure
  rw [rejectIf_eq_ok, not_not] at hbaseDigest hdesiredDigest
  have hprojected := projected_of_project (accepted_of_acceptPair hbase)
    (actions_are_waits hnormalized) heffective
  have hordered := normalized_eq hnormalized
  refine ⟨normalized, base, hnormalized, hbase, ?_, hprojected, ?_, hidentity⟩
  · rw [hdigest, hbaseDigest, ← hordered]
    rfl
  · rw [hdesired, hdesiredDigest, ← hordered]
    rfl

theorem new_spec (h : newConnectivityRevisionForMode lib cold desired mode = .ok revision) :
    ∃ base wanted pair, acceptPair lib.toLibrary cold = .ok base ∧
      acceptPair lib.toLibrary desired = .ok wanted ∧
      base.plan.digest lib.toLibrary = .ok revision.basePlanDigest ∧
      revision.inputInterfaces = wanted.input.interfaces ∧
      revision.interfaces = wanted.plan.interfaces ∧
      revision.actions = connectivityWaitActions wanted.plan.actions ∧
      applyConnectivityRevision lib base revision = .ok pair := by
  simp only [newConnectivityRevisionForMode, bind_eq_ok_iff, fromPlanning_eq_ok] at h
  obtain ⟨⟨⟩, -, base, hbase, wanted, hwanted, ⟨⟩, -, digest, hdigest, effective, -, ⟨⟩, -,
    desiredDigest, -, pair, hpair, hpure⟩ := h
  cases hpure
  exact ⟨base, wanted, pair, hbase, hwanted, hdigest, rfl, rfl, rfl, hpair⟩

theorem live_part_eq {base wanted : Pair} (hwanted : Accepted lib.toLibrary wanted)
    (hnormalized : normalizeConnectivityRevision lib revision = .ok normalized)
    (hinputs : revision.inputInterfaces = wanted.input.interfaces)
    (hplans : revision.interfaces = wanted.plan.interfaces)
    (hactions : revision.actions = connectivityWaitActions wanted.plan.actions)
    (hprojected : Projected lib.toLibrary base pair normalized.inputInterfaces
      normalized.interfaces normalized.actions) : pair.input.interfaces = wanted.input.interfaces ∧
      pair.plan.interfaces = wanted.plan.interfaces ∧
      connectivityWaitActions pair.plan.actions = connectivityWaitActions wanted.plan.actions := by
  have hordered := normalized_eq hnormalized
  refine ⟨?_, ?_, ?_⟩
  · rw [hprojected.input, ← hordered]
    simp only [orderRevision, SortFunc.sort_sort, hinputs]
    exact lib.sorting.sort_of_inOrder _ _ hwanted.interfaceInputs_inOrder
  · rw [hprojected.plans, ← hordered]
    simp only [orderRevision, SortFunc.sort_sort, hplans]
    exact lib.sorting.sort_of_inOrder _ _ hwanted.interfacePlans_inOrder
  · rw [hprojected.waits, ← hordered]
    simp only [orderRevision, hactions]
    have hids : (connectivityWaitActions wanted.plan.actions).Pairwise fun x y => x.id ≠ y.id :=
      hwanted.actions_apart.filter _
    -- the revision orders its waits by identity, the plan by phase, order and identity
    rw [← lib.sorting.sort_eq_of_keys hids (fun _ _ => id_eq_of_compareAction)
      (lib.sorting.perm_sort (compareOn Action.id) _).symm]
    exact lib.sorting.sort_of_inOrder _ _ (hwanted.actions_inOrder.filter _)

section Built

variable {base : Pair} {baseDigest desiredDigest : String}
  (hbase : Effective lib.toLibrary base base) (hdesired : Effective lib.toLibrary base desired)
  (hbaseDigest : base.plan.digest lib.toLibrary = .ok baseDigest)
  (hdesiredDigest : desired.plan.digest lib.toLibrary = .ok desiredDigest)
  (hnormalized : normalizeConnectivityRevision lib (builtRevision desired baseDigest desiredDigest
    (evaluateNormalizedConnectivityTransition lib.toLibrary base desired).requiredMode) =
      .ok normalized)
include hbase hdesired hbaseDigest hdesiredDigest hnormalized

theorem apply_builtRevision :
    applyConnectivityRevision lib base (builtRevision desired baseDigest desiredDigest
      (evaluateNormalizedConnectivityTransition lib.toLibrary base desired).requiredMode) =
        .ok desired := by
  have hmode : orLive (evaluateNormalizedConnectivityTransition lib.toLibrary base
      desired).requiredMode =
        (evaluateNormalizedConnectivityTransition lib.toLibrary base desired).requiredMode := by
    have hrank := (rank_requiredMode_le hbase.toAccepted hdesired.toAccepted).mpr
      (within_two hbase.toAccepted hdesired.toAccepted)
    rw [orLive, if_neg]
    intro hother
    simp [hother, linkApplyModeRank] at hrank
  have hordered := normalized_eq hnormalized
  have hinputs : normalized.inputInterfaces = desired.input.interfaces := by
    rw [← hordered]
    exact lib.sorting.sort_of_inOrder _ _ hdesired.interfaceInputs_inOrder
  have hplans : normalized.interfaces = desired.plan.interfaces := by
    rw [← hordered]
    exact lib.sorting.sort_of_inOrder _ _ hdesired.interfacePlans_inOrder
  have hwaits : (connectivityWaitActions desired.plan.actions).Perm normalized.actions := by
    rw [← hordered]
    exact (lib.sorting.perm_sort (compareOn Action.id) _).symm
  have hproject : projectLiveConnectivity lib.toLibrary base normalized.inputInterfaces
      normalized.interfaces normalized.actions = .ok desired := by
    rw [hinputs, hplans]
    exact hbase.project_eq hdesired hwaits
  have hmodes : (evaluateNormalizedConnectivityTransition lib.toLibrary base
      desired).requiredMode = normalized.maximumMode := by
    rw [← hordered]
    exact hmode.symm
  have hdigests : baseDigest = normalized.basePlanDigest ∧
      desiredDigest = normalized.desiredPlanDigest := by
    rw [← hordered]
    exact ⟨rfl, rfl⟩
  simp only [applyConnectivityRevision, bind_eq_ok_iff, fromPlanning_eq_ok]
  exact ⟨normalized, hnormalized, base, hbase.acceptPair_eq, baseDigest, hbaseDigest, (),
    rejectIf_eq_ok.mpr (not_not.mpr hdigests.1), desired, hproject, desiredDigest, hdesiredDigest,
    (), rejectIf_eq_ok.mpr (not_not.mpr hdigests.2), (), hdesired.identity, (),
    rejectIf_eq_ok.mpr (not_not.mpr hmodes), rfl⟩

theorem new_eq_ok (hmode : mode = .linkApplyLive ∨ mode = .linkApplyRestart)
    (hrank : linkApplyModeRank
      (evaluateNormalizedConnectivityTransition lib.toLibrary base desired).requiredMode ≤
        linkApplyModeRank mode) : newConnectivityRevisionForMode lib base desired mode =
      .ok (builtRevision desired baseDigest desiredDigest
        (evaluateNormalizedConnectivityTransition lib.toLibrary base desired).requiredMode) := by
  have hallowed : ¬(mode ≠ .linkApplyLive ∧ mode ≠ .linkApplyRestart) := by
    rintro ⟨hlive, hrestart⟩
    exact hmode.elim hlive hrestart
  simp only [newConnectivityRevisionForMode, bind_eq_ok_iff, fromPlanning_eq_ok]
  exact ⟨(), rejectIf_eq_ok.mpr hallowed, base, hbase.acceptPair_eq, desired,
    hdesired.acceptPair_eq, (), hbase.sameIdentity hdesired, baseDigest, hbaseDigest, desired,
    hbase.project_eq hdesired .rfl, (), rejectIf_eq_ok.mpr (Nat.not_lt.mpr hrank), desiredDigest,
    hdesiredDigest, desired,
    apply_builtRevision hbase hdesired hbaseDigest hdesiredDigest hnormalized, rfl⟩

end Built

theorem eq_or_collision {a b : Plan} {sum : String}
    (ha : normalizePlan lib.toLibrary a = .ok a) (hb : normalizePlan lib.toLibrary b = .ok b)
    (hdigest : a.digest lib.toLibrary = .ok sum) (hdigest' : b.digest lib.toLibrary = .ok sum) :
    a = b ∨ ∃ text text', text ≠ text' ∧
      DevicePlan.digest lib.toLibrary text = DevicePlan.digest lib.toLibrary text' := by
  obtain ⟨-, text, htext, hdecode, -⟩ := plan_normal_form lib.toLibrary ha
  obtain ⟨-, text', htext', hdecode', -⟩ := plan_normal_form lib.toLibrary hb
  rw [Plan.digest, htext] at hdigest
  rw [Plan.digest, htext'] at hdigest'
  have hsame := ok.inj (hdigest.trans hdigest'.symm)
  by_cases heq : text = text'
  · subst heq
    exact .inl (ok.inj (hdecode.symm.trans hdecode'))
  · exact .inr ⟨text, text', heq, hsame⟩

/-- A revision that was built can be read again, applies to its cold plan only and reproduces the
live part that it was built from; no application changes more than the live part. -/
theorem revisions_reproduce (lib : RevisionLibrary) :
    (∀ cold desired mode revision,
      newConnectivityRevisionForMode lib cold desired mode = .ok revision →
      revision.canonicalJSON lib = .error sizeRefusal ∨
      ∃ raw decoded wanted pair, revision.canonicalJSON lib = .ok raw ∧
        decodeConnectivityRevision lib raw = .ok decoded ∧
        acceptPair lib.toLibrary desired = .ok wanted ∧
        applyConnectivityRevision lib cold decoded = .ok pair ∧
        pair.input.interfaces = wanted.input.interfaces ∧
        pair.plan.interfaces = wanted.plan.interfaces ∧
        connectivityWaitActions pair.plan.actions = connectivityWaitActions wanted.plan.actions ∧
        pair.plan.digest lib.toLibrary = .ok revision.desiredPlanDigest) ∧
    (∀ cold revision pair, applyConnectivityRevision lib cold revision = .ok pair →
      ∃ base, acceptPair lib.toLibrary cold = .ok base ∧
        sameNonConnectivityInput pair.input base.input ∧
        coldSections pair.plan = coldSections base.plan) ∧
    (∀ cold revision base sum, acceptPair lib.toLibrary cold = .ok base →
      base.plan.digest lib.toLibrary = .ok sum → sum ≠ revision.basePlanDigest →
      ∀ pair, applyConnectivityRevision lib cold revision ≠ .ok pair) ∧
    ∀ cold desired mode revision other pair,
      newConnectivityRevisionForMode lib cold desired mode = .ok revision →
      applyConnectivityRevision lib other revision = .ok pair →
      normalizePlan lib.toLibrary other.plan = normalizePlan lib.toLibrary cold.plan ∨
        ∃ text text', text ≠ text' ∧
          DevicePlan.digest lib.toLibrary text = DevicePlan.digest lib.toLibrary text' := by
  refine ⟨?_, ?_, ?_, ?_⟩
  · intro cold desired mode revision h
    obtain ⟨base, wanted, pair, hbase, hwanted, -, hinputs, hplans, hactions, hpair⟩ := new_spec h
    obtain ⟨normalized, base', hnormalized, -, -, hprojected, hdigest, -⟩ := apply_spec hpair
    rcases canonicalJSON_spec hnormalized with hsize | ⟨raw, hraw, hdecode⟩
    · exact .inl hsize
    · have happly : applyConnectivityRevision lib cold normalized = .ok pair := by
        rw [← hpair]
        apply apply_congr
        · rw [hbase, (accepted_of_acceptPair hbase).acceptPair_eq]
        · rw [hnormalized, (revision_normal_form hnormalized).1]
      obtain ⟨hinputs', hplans', hwaits'⟩ := live_part_eq (accepted_of_acceptPair hwanted)
        hnormalized hinputs hplans hactions hprojected
      exact .inr ⟨raw, normalized, wanted, pair, hraw, hdecode, hwanted, happly, hinputs', hplans',
        hwaits', hdigest⟩
  · intro cold revision pair h
    obtain ⟨normalized, base, -, hbase, -, hprojected, -⟩ := apply_spec h
    refine ⟨base, hbase, ?_, hprojected.cold⟩
    rw [sameNonConnectivityInput, hprojected.input]
  · intro cold revision base sum hbase hsum hne pair h
    obtain ⟨-, base', -, hbase', hdigest, -⟩ := apply_spec h
    obtain rfl : base' = base := ok.inj (hbase'.symm.trans hbase)
    exact hne (ok.inj (hsum.symm.trans hdigest))
  · intro cold desired mode revision other pair hnew h
    obtain ⟨base, -, -, hbase, -, hdigest, -⟩ := new_spec hnew
    obtain ⟨-, base', -, hbase', hdigest', -⟩ := apply_spec h
    have hnormal := (accepted_of_acceptPair hbase).plan_normal
    have hnormal' := (accepted_of_acceptPair hbase').plan_normal
    rw [(acceptPair_eq_ok.mp hbase).2.1, (acceptPair_eq_ok.mp hbase').2.1, ok.injEq]
    exact eq_or_collision hnormal' hnormal hdigest' hdigest

def revisionLibrary : RevisionLibrary where
  toTextLibrary := plainTexts
  compact_null := compact_plainTexts
  sorting := insertionSortFunc
  Text := (Input ⊕ Plan) ⊕ ConnectivityRevision
  inputCodec := valueLibrary.inputCodec.left
  planCodec := valueLibrary.planCodec.left
  plain_input := rfl
  plain_plan := rfl
  sha256 _ := "0000000000000000000000000000000000000000000000000000000000000000"
  revisionCodec := .right
  plain_revision := rfl
  size _ := 2
  size_marshal _ _ _ := Nat.zero_lt_two
  decodeFirst := Sum.getRight?
  atEnd _ := true
  decodeStrict_eq text := by cases text <;> rfl

def resizedPair : Pair := waitedPair 9 [sampleWait "w" "i"]

theorem sampleDigest_plan {plan : Plan}
    (h : normalizePlan revisionLibrary.toLibrary plan = .ok plan) :
    plan.digest revisionLibrary.toLibrary = .ok sampleDigest := by
  obtain ⟨-, text, htext, -⟩ := plan_normal_form revisionLibrary.toLibrary h
  rw [Plan.digest, htext]
  rfl

theorem sample_revision_reproduces :
    ∃ revision raw decoded pair,
      newConnectivityRevisionForMode revisionLibrary singlePair resizedPair .linkApplyLive =
        .ok revision ∧
      revision.canonicalJSON revisionLibrary = .ok raw ∧
      decodeConnectivityRevision revisionLibrary raw = .ok decoded ∧
      applyConnectivityRevision revisionLibrary singlePair decoded = .ok pair ∧
      pair.plan.interfaces.map (·.mtu) = [9] ∧
      coldSections pair.plan = coldSections singlePair.plan ∧
      ∀ pair, applyConnectivityRevision revisionLibrary singlePair
        { revision with basePlanDigest := "" } ≠ .ok pair := by
  have hcold : Effective revisionLibrary.toLibrary singlePair singlePair :=
    effective_of_evaluation (fun _ => rfl) rfl (by decide +kernel)
  have hresized : Effective revisionLibrary.toLibrary singlePair resizedPair :=
    effective_of_evaluation (fun _ => rfl) rfl (by decide +kernel)
  have hdigest := sampleDigest_plan hcold.plan_normal
  obtain ⟨normalized, hnormalized⟩ : ∃ normalized, normalizeConnectivityRevision revisionLibrary
      (builtRevision resizedPair sampleDigest sampleDigest
        (evaluateNormalizedConnectivityTransition revisionLibrary.toLibrary singlePair
          resizedPair).requiredMode) = .ok normalized := by
    decide +kernel
  have hnew := new_eq_ok hcold hresized hdigest (sampleDigest_plan hresized.plan_normal)
    hnormalized (.inl rfl) (by decide +kernel)
  obtain ⟨hreproduce, hkeep, hother, -⟩ := revisions_reproduce revisionLibrary
  rcases hreproduce _ _ _ _ hnew with hsize | ⟨raw, decoded, wanted, pair, hraw, hdecode, hwanted,
    hpair, -, hplans, -⟩
  · -- every text of this library is short
    unfold normalizeConnectivityRevision at hnormalized
    simp only [ConnectivityRevision.canonicalJSON, Codec.canonical, hnormalized] at hsize
    cases hsize
  · obtain rfl : wanted = resizedPair :=
      ok.inj (hwanted.symm.trans hresized.acceptPair_eq)
    obtain ⟨base, hbase, -, hsections⟩ := hkeep _ _ _ hpair
    obtain rfl : base = singlePair := ok.inj (hbase.symm.trans hcold.acceptPair_eq)
    refine ⟨_, raw, decoded, pair, hnew, hraw, hdecode, hpair, ?_, hsections, ?_⟩
    · rw [hplans]
      rfl
    · exact hother _ _ _ _ hbase hdigest (by decide +kernel)

end Clabernetes.Connectivity
