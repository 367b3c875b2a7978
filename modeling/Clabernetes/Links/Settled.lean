import Clabernetes.Base.Interrupted
import Clabernetes.Links.Allocation

/-!
# The settled namespace

A pass over the Links that a completed pass left behind finds every status as it wants it. The
verdicts do not depend on statuses, a binding resolves to itself, a condition that is set stays set,
and the ids are no longer contested.
-/

namespace Clabernetes.Links

open Base List

def Link.bare (link : Link) : Link := link.withStatus {}

@[simp] theorem bare_withStatus (link : Link) (status : LinkStatus) :
    (link.withStatus status).bare = link.bare := rfl

variable {links : List Link}

theorem nameSorted_linksWithResolvedEndpoints (h : NameSorted links) (nodes : Nodes)
    : NameSorted (linksWithResolvedEndpoints links nodes) :=
  h.sublist filter_sublist

theorem endpointConflicts_bare (h : NameSorted links) :
    endpointConflicts links = ((links.map Link.bare).foldl Claims.consider {}).conflicts := by
  rw [endpointConflicts, sortLinks_eq_self h, foldl_map]
  rfl

def survives (visits : List (Link × LinkAction)) (name : String) : Bool :=
  visits.all fun visit => visit.1.name != name || (visit.2.stored visit.1).isSome

variable {visit : Link × LinkAction} {r r' : WireReservations} {action : LinkAction} {link : Link}
  {visits : List (Link × LinkAction)}

theorem eq_visitedLink_of_stored (h : visit.2.stored visit.1 = some link) :
    link = visitedLink visit := by
  obtain ⟨before, action⟩ := visit
  cases action with
  | leave => exact (Option.some.inj h).symm
  | delete => cases h
  | update => exact (Option.some.inj h).symm

theorem mem_persisted (h : link ∈ persisted visits) :
    ∃ visit ∈ visits, (visit.2.stored visit.1).isSome = true ∧ link = visitedLink visit := by
  obtain ⟨visit, hmem, hstored⟩ := mem_filterMap.mp h
  exact ⟨visit, hmem, by rw [hstored]; rfl, eq_visitedLink_of_stored hstored⟩

theorem map_bare_persisted (visits : List (Link × LinkAction)) : (persisted visits).map Link.bare =
      (visits.filter fun visit => (visit.2.stored visit.1).isSome).map
        fun visit => visit.1.bare := by
  induction visits with
  | nil => rfl
  | cons visit rest ih =>
    obtain ⟨link, action⟩ := visit
    cases action <;> simpa [persisted, LinkAction.stored] using ih

namespace CompletedPass

variable {ctx : PassContext} {links : List Link} {visits : List (Link × LinkAction)}

/-- No surviving Link was found in conflict with a Link that the pass deleted. -/
def DeletedUnnamed (ctx : PassContext) (links : List Link) (visits : List (Link × LinkAction)) :
    Prop :=
  ∀ visit ∈ visits, ∀ other ∈ visits, (visit.2.stored visit.1).isSome = true →
    other.2.stored other.1 = none → conflictOf ctx links visit.1 ≠ other.1.name

variable (h : CompletedPass ctx links visits)

include h

theorem survives_iff (hmem : visit ∈ visits) :
    survives visits visit.1.name = (visit.2.stored visit.1).isSome := by
  rw [Bool.eq_iff_iff, survives, all_eq_true]
  constructor
  · intro hall
    simpa using hall visit hmem
  · intro hstored other hother
    by_cases hname : other.1.name = visit.1.name
    · have hsame : other = visit :=
        inj_on_of_nodup_map (f := fun v : Link × LinkAction => v.1.name)
          (by simpa [Function.comp_def] using nodup_of_nameSorted h.sorted) hother hmem hname
      simp [hsame, hstored]
    · simp [hname]

theorem nameSorted_persisted : NameSorted (persisted visits) := by
  refine pairwise_filterMap.mpr ((pairwise_map.mp h.sorted).imp ?_)
  intro visit other hlt link hlink link' hlink'
  rw [eq_visitedLink_of_stored hlink, eq_visitedLink_of_stored hlink', visitedLink, visitedLink,
    name_after, name_after]
  exact hlt

theorem map_bare_persisted_eq : (persisted visits).map Link.bare =
      ((sortLinks links).filter fun link => survives visits link.name).map Link.bare := by
  rw [map_bare_persisted, ← h.visitsAll, filter_map, map_map]
  congr 1
  exact filter_congr fun visit hmem => (h.survives_iff hmem).symm

theorem conflictOf_persisted (hdeleted : DeletedUnnamed ctx links visits) (hmem : visit ∈ visits)
    (hstored : (visit.2.stored visit.1).isSome = true) :
    (ctx.conflicts (persisted visits))[visit.1.name]?.getD "" = conflictOf ctx links visit.1 := by
  have hsorted : NameSorted (linksWithResolvedEndpoints (sortLinks links) ctx.nodes) :=
    nameSorted_linksWithResolvedEndpoints (h.visitsAll ▸ h.sorted) ctx.nodes
  have hbare : (linksWithResolvedEndpoints (persisted visits) ctx.nodes).map Link.bare =
      ((linksWithResolvedEndpoints (sortLinks links) ctx.nodes).filter
        fun link => survives visits link.name).map Link.bare := by
    have hcomm : ∀ l : List Link, (linksWithResolvedEndpoints l ctx.nodes).map Link.bare =
        linksWithResolvedEndpoints (l.map Link.bare) ctx.nodes := by
      intro l
      rw [linksWithResolvedEndpoints, linksWithResolvedEndpoints, filter_map]
      rfl
    rw [hcomm, h.map_bare_persisted_eq, ← hcomm, linksWithResolvedEndpoints,
      linksWithResolvedEndpoints, filter_filter, filter_filter]
    simp only [Bool.and_comm]
  have hfilter : ctx.conflicts (persisted visits) = endpointConflicts
      ((linksWithResolvedEndpoints (sortLinks links) ctx.nodes).filter
        fun link => survives visits link.name) := by
    rw [PassContext.conflicts,
      endpointConflicts_bare (nameSorted_linksWithResolvedEndpoints h.nameSorted_persisted _),
      hbare, ← endpointConflicts_bare (hsorted.sublist filter_sublist)]
  rw [hfilter, endpointConflicts_filter hsorted ?_ ((h.survives_iff hmem).trans hstored)]
  · rfl
  · intro link hlink hkeep owner howner
    have hlink' : link ∈ sortLinks links := mem_of_mem_filter hlink
    rw [← h.visitsAll] at hlink'
    obtain ⟨kept, hkept, rfl⟩ := mem_map.mp hlink'
    rw [h.survives_iff hkept] at hkeep
    rw [survives, all_eq_true]
    intro other hother
    by_cases hname : other.1.name = owner
    · have hne := hdeleted kept hkept other hother hkeep
      have hconflict : conflictOf ctx links kept.1 = owner := by
        rw [conflictOf, PassContext.conflicts, howner]
        rfl
      rw [hconflict, hname] at hne
      cases hstored' : other.2.stored other.1 with
      | none => exact absurd rfl (hne hstored')
      | some => simp
    · simp [hname]

end CompletedPass

def PassContext.later (ctx : PassContext) (now : Int) : PassContext := { ctx with now }

theorem desiredLinkStatus_again (conditions : StatusConditions) (now now' : Int) (link : Link)
    (wireID : Int) (resolved : Option LinkResolvedEndpointsStatus) (status : ConditionStatus)
    (reason message : String) : desiredLinkStatus conditions now'
        (link.withStatus
          (desiredLinkStatus conditions now link wireID resolved status reason message))
        wireID resolved status reason message =
      desiredLinkStatus conditions now link wireID resolved status reason message := by
  simp only [desiredLinkStatus, status_withStatus]
  congr 1
  exact conditions.set_set _ _ _ _

theorem updateLinkStatus_self {status : LinkStatus} (h : status = link.status) :
    updateLinkStatus link status = .leave := if_pos h.symm

variable {ctx : PassContext} {conflictingLink : String}

theorem processed_again (now : Int) (hprocessed : ctx.processed link = true) (status : LinkStatus)
    (hbound : status.resolvedEndpoints = (resolveLinkEndpoints link ctx.nodes).1) :
    (ctx.later now).processed (link.withStatus status) = true ∧
      resolveLinkEndpoints (link.withStatus status) ctx.nodes =
        resolveLinkEndpoints link ctx.nodes := by
  obtain ⟨hskipped, hreason⟩ := (ctx.processed_iff link).mp hprocessed
  have hresolve : resolveLinkEndpoints (link.withStatus status) ctx.nodes =
      resolveLinkEndpoints link ctx.nodes := resolveLinkEndpoints_bound hreason rfl hbound
  refine ⟨((ctx.later now).processed_iff _).mpr ⟨hskipped, ?_⟩, hresolve⟩
  rw [← hreason, ← hresolve]
  rfl

theorem leave_rejected (now : Int) (hprocessed : ctx.processed link = true)
    (why : String × String) : updateLinkStatus (link.withStatus (ctx.rejectedStatus link why))
      ((ctx.later now).rejectedStatus (link.withStatus (ctx.rejectedStatus link why)) why) =
      .leave := by
  apply updateLinkStatus_self
  have hresolve := (processed_again now hprocessed (ctx.rejectedStatus link why) rfl).2
  rw [PassContext.rejectedStatus]
  exact hresolve ▸ desiredLinkStatus_again ctx.conditions ctx.now now link 0 _ _ _ _

theorem leave_accepted (now : Int) (hprocessed : ctx.processed link = true) (id : Int) :
    updateLinkStatus (link.withStatus (ctx.acceptedStatus link id))
      ((ctx.later now).acceptedStatus (link.withStatus (ctx.acceptedStatus link id)) id) =
      .leave := by
  apply updateLinkStatus_self
  have hresolve := (processed_again now hprocessed (ctx.acceptedStatus link id) rfl).2
  rw [PassContext.acceptedStatus]
  exact hresolve ▸ desiredLinkStatus_again ctx.conditions ctx.now now link id _ _ _ _

theorem revisit_leaves (hvisit : ctx.Visit conflictingLink r link action r')
    (hstored : (action.stored link).isSome = true) (now : Int) (table : WireReservations)
    (hkeeps : ctx.acceptsCrossPod conflictingLink link = true →
      table.desired ctx.ns ctx.nodes (action.after link) =
        .ok ((action.after link).status.wireID, table)) :
    (ctx.later now).reconcileLink conflictingLink table (action.after link) =
      .ok (.leave, table) := by
  rw [PassContext.reconcileLink_eq_ok_iff]
  cases hvisit with
  | skipped hskipped => exact .skipped hskipped
  | deleted => cases hstored
  | rejected hprocessed why hwhy =>
    rw [after_updateLinkStatus]
    have hagain := (processed_again now hprocessed (ctx.rejectedStatus link why) rfl).1
    exact leave_rejected now hprocessed why ▸ .rejected hagain why hwhy
  | accepted hprocessed hnone id _ hdesired =>
    rw [after_updateLinkStatus] at hkeeps ⊢
    have hagain := (processed_again now hprocessed (ctx.acceptedStatus link id) rfl).1
    refine leave_accepted now hprocessed id ▸ .accepted hagain hnone id table ?_
    cases hlocal : isLocalLink ctx.nodes link with
    | true =>
      rw [r.desired_of_isLocalLink ctx.ns hlocal] at hdesired
      cases hdesired
      exact table.desired_of_isLocalLink ctx.ns hlocal
    | false => exact hkeeps (by simp [PassContext.acceptsCrossPod, hprocessed, hnone, hlocal])

theorem reconcileLinks_leaves {conflicts : GoMap String String} {rest : List Link}
    (h : ∀ link ∈ rest, ctx.reconcileLink (conflicts[link.name]?.getD "") r link =
      .ok (.leave, r)) :
    ctx.reconcileLinks conflicts r rest = .ok (rest.map fun link => (link, .leave)) := by
  induction rest with
  | nil => rfl
  | cons link rest ih =>
    have hrecord : r.record ctx.ns (LinkAction.leave.after link) link.status.wireID = r :=
      if_pos rfl
    rw [PassContext.reconcileLinks, h link mem_cons_self]
    dsimp only
    rw [hrecord, ih fun other hmem => h other (mem_cons_of_mem _ hmem)]
    rfl

theorem CompletedPass.reconcile_persisted (h : CompletedPass ctx links visits)
    (hdeleted : CompletedPass.DeletedUnnamed ctx links visits) (now : Int) :
    (ctx.later now).reconcile (persisted visits) =
      .ok ((persisted visits).map fun link => (link, .leave)) := by
  have hsorted := h.nameSorted_persisted
  have htracks := tracks_ofLinks ctx.ns _ (nodup_of_nameSorted hsorted)
  have hloop : (ctx.later now).reconcileLinks ((ctx.later now).conflicts (persisted visits))
      (.ofLinks ctx.ns (persisted visits)) (persisted visits) =
        .ok ((persisted visits).map fun link => (link, .leave)) := by
    apply reconcileLinks_leaves
    intro link hlink
    obtain ⟨visit, hvisit, hstored, rfl⟩ := mem_persisted hlink
    obtain ⟨r, r', hcases⟩ := h.decisions.visited visit hvisit
    have hname : (visitedLink visit).name = visit.1.name := name_after _ _
    have hconflict : ((ctx.later now).conflicts (persisted visits))[(visitedLink visit).name]?.getD
        "" = conflictOf ctx links visit.1 := by
      rw [hname]
      exact h.conflictOf_persisted hdeleted hvisit hstored
    rw [hconflict]
    refine revisit_leaves hcases hstored now _ fun haccepts => ?_
    refine WireReservations.desired_of_uncontested htracks ?_ (h.wireID_range hvisit haccepts) ?_
    · obtain ⟨status, hafter⟩ := exists_after_eq visit.2 visit.1
      simp only [PassContext.acceptsCrossPod, Bool.and_eq_true, Bool.not_eq_true'] at haccepts
      rw [hafter]
      exact haccepts.2
    · intro other hother hlt
      obtain ⟨visit', hvisit', -, rfl⟩ := mem_persisted hother
      rw [visitedLink, name_after, name_after] at hlt
      exact h.wireID_ne_of_lt hvisit hvisit' hlt haccepts
  rw [PassContext.reconcile]
  split
  · next hnil => rw [hnil]; rfl
  · rw [sortLinks_eq_self hsorted]
    exact hloop

theorem PassContext.Visit.stored_of_processed (h : ctx.Visit conflictingLink r link action r')
    (hprocessed : ctx.processed link = true) : action.stored link = some (action.after link) := by
  obtain ⟨hskipped, hreason⟩ := (ctx.processed_iff link).mp hprocessed
  cases h with
  | skipped => rfl
  | deleted _ hreason' => exact absurd hreason hreason'
  | rejected => simp
  | accepted => simp

theorem PassContext.Visit.skipped_of_stored (h : ctx.Visit conflictingLink r link action r')
    (hstored : (action.stored link).isSome = true) (hprocessed : ctx.processed link = false) :
    Links.skipped link = true := by
  cases h with
  | skipped hskipped => exact hskipped
  | deleted => cases hstored
  | rejected h | accepted h => rw [hprocessed] at h; cases h

theorem CompletedPass.clash (h : CompletedPass ctx links visits) {other : Link × LinkAction}
    (hvisit : visit ∈ visits)
    (hother : other ∈ visits) {stored : Link}
    (haccepts : ctx.acceptsCrossPod (conflictOf ctx links visit.1) visit.1 = true)
    (hstored : other.2.stored other.1 = some stored) (hne : other.1.name ≠ visit.1.name)
    (hid : stored.status.wireID = (visitedLink visit).status.wireID) :
    skipped other.1 = true ∧ visit.1.name < other.1.name ∧
      (visitedLink visit).status.wireID = visit.1.status.wireID := by
  have heq := eq_visitedLink_of_stored hstored
  subst heq
  have hlt : visit.1.name < other.1.name := by
    by_cases hsmaller : other.1.name < visit.1.name
    · exact absurd hid (h.wireID_ne_of_lt hvisit hother hsmaller haccepts)
    · exact Std.lt_of_le_of_ne (String.not_lt.mp hsmaller) hne.symm
  have hpos := (h.wireID_range hvisit haccepts).1
  obtain ⟨hunprocessed, hsame⟩ | hzero | haccepts' := h.wireID_cases hother
  · obtain ⟨r, r', hcases⟩ := h.decisions.visited other hother
    rw [hsame] at hid
    exact ⟨hcases.skipped_of_stored (by rw [hstored]; rfl) hunprocessed, hlt,
      h.kept_of_larger hvisit hother hlt haccepts hid⟩
  · omega
  · exact absurd hid.symm (h.wireID_ne_of_lt hother hvisit hlt haccepts')

open CompletedPass in
/-- A completed pass gives every accepted cross-Pod Link a valid id and every other processed Link
none, keeps the ids that no smaller Link came with, and leaves a second pass nothing to ask for
unless it deleted the owner of an endpoint. -/
theorem pass_settles (ctx : PassContext) (links : List Link) (visits : List (Link × LinkAction))
    (hnames : (links.map Link.name).Nodup) (h : ctx.reconcile links = .ok visits) :
    visits.map Prod.fst = sortLinks links ∧
    (∀ visit ∈ visits, ctx.processed visit.1 = true →
      visit.2.stored visit.1 = some (visitedLink visit)) ∧
    (∀ visit ∈ visits, ctx.acceptsCrossPod (conflictOf ctx links visit.1) visit.1 = true →
      (1 ≤ (visitedLink visit).status.wireID ∧ (visitedLink visit).status.wireID ≤ maxWireID) ∧
      (∀ other ∈ visits, ∀ stored, other.2.stored other.1 = some stored →
        other.1.name ≠ visit.1.name →
        stored.status.wireID = (visitedLink visit).status.wireID →
        skipped other.1 = true ∧ visit.1.name < other.1.name ∧
          (visitedLink visit).status.wireID = visit.1.status.wireID) ∧
      (1 ≤ visit.1.status.wireID → visit.1.status.wireID ≤ maxWireID →
        (∀ other ∈ links, other.name < visit.1.name → other.status.wireID ≠ visit.1.status.wireID) →
        (visitedLink visit).status.wireID = visit.1.status.wireID)) ∧
    (∀ visit ∈ visits, ctx.processed visit.1 = true →
      ctx.acceptsCrossPod (conflictOf ctx links visit.1) visit.1 = false →
      (visitedLink visit).status.wireID = 0) ∧
    (DeletedUnnamed ctx links visits → ∀ now,
      (ctx.later now).reconcile (persisted visits) =
        .ok ((persisted visits).map fun link => (link, .leave))) := by
  have hpass := completedPass hnames h
  refine ⟨hpass.visitsAll, ?_, ?_, ?_, hpass.reconcile_persisted⟩
  · intro visit hvisit hprocessed
    obtain ⟨r, r', hcases⟩ := hpass.decisions.visited visit hvisit
    exact hcases.stored_of_processed hprocessed
  · intro visit hvisit haccepts
    exact ⟨hpass.wireID_range hvisit haccepts,
      fun other hother stored hstored hne hid => hpass.clash hvisit hother haccepts hstored hne hid,
      hpass.wireID_kept hvisit haccepts⟩
  · intro visit hvisit hprocessed hnot
    exact hpass.wireID_eq_zero hvisit hprocessed hnot

def threeNodes : PassContext where
  conditions := documentedConditions
  now := 5
  ns := "lab"
  nodes := (((∅ : Nodes).insert "n1" { uid := "u1" }).insert "n2" { uid := "u2" }).insert "n3"
    { uid := "u3" }

def wire (name a b : String) (wireID : Int) : Link where
  name := name
  spec := ⟨⟨a, "eth1"⟩, ⟨b, "eth1"⟩⟩
  status := { wireID }

def unsettledLinks : List Link :=
  [wire "d" "n1" "n2" 7, { wire "c" "n2" "n3" (-4) with spec := ⟨⟨"n2", "eth2"⟩, ⟨"n3", "eth2"⟩⟩ },
    { wire "b" "n1" "n3" 9 with spec := ⟨⟨"n1", "eth2"⟩, ⟨"n3", "eth1"⟩⟩ }, wire "a" "n1" "n2" 9]

theorem pass_settles_unsettledLinks : ∃ visits, threeNodes.reconcile unsettledLinks = .ok visits ∧
    (visits.map fun visit => (visitedLink visit).status.wireID) = [9, 1, 2, 0] ∧
    ∀ now, (threeNodes.later now).reconcile (persisted visits) =
      .ok ((persisted visits).map fun link => (link, .leave)) := by
  obtain ⟨visits, hok, hids, hstored⟩ : ∃ visits, threeNodes.reconcile unsettledLinks = .ok visits ∧
      (visits.map fun visit => (visitedLink visit).status.wireID) = [9, 1, 2, 0] ∧
      ∀ visit ∈ visits, visit.2.stored visit.1 ≠ none := by
    decide +kernel
  refine ⟨visits, hok, hids, ?_⟩
  refine (pass_settles threeNodes unsettledLinks visits (by decide) hok).2.2.2.2 ?_
  exact fun _ _ other hother _ hnone => absurd hnone (hstored other hother)

def ignoredDuplicate : List Link :=
  [wire "a" "n1" "n2" 5, { wire "b" "n1" "n3" 5 with ignored := true }]

def replacedNode : List Link :=
  [{ wire "a" "n1" "n2" 1 with
      status := { wireID := 1, resolvedEndpoints := some ⟨⟨"n1", "u0"⟩, ⟨"n2", "u2"⟩⟩ } },
    wire "b" "n1" "n3" 0]

/-- A kept id may be that of a larger ignored Link, and a second pass writes when the first one
deleted the owner of an endpoint. -/
theorem pass_leaves_clash_and_write :
    (∃ visits, threeNodes.reconcile ignoredDuplicate = .ok visits ∧
      ∃ visit ∈ visits, ∃ other ∈ visits,
        threeNodes.acceptsCrossPod
          (CompletedPass.conflictOf threeNodes ignoredDuplicate visit.1) visit.1 = true ∧
        skipped other.1 = true ∧ other.2.stored other.1 = some (visitedLink other) ∧
        (visitedLink other).status.wireID = (visitedLink visit).status.wireID) ∧
    (∃ visits, threeNodes.reconcile replacedNode = .ok visits ∧
      ∃ again, threeNodes.reconcile (persisted visits) = .ok again ∧
        ∃ visit ∈ again, visit.2 ≠ .leave) := by
  constructor <;> decide +kernel

end Clabernetes.Links
