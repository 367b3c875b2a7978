import Clabernetes.Links.Conflicts
import Clabernetes.Links.Reservations

/-!
# The Link reconcile pass

`controllers/link/reconcile.go:20-287`: one pass reads the Links and Nodes of a namespace once,
visits the Links in name order, and asks the API server for at most one write per Link.
`reconcileLink` is the decision for one Link; the loop carries the reservation table from Link to
Link.
-/

namespace Clabernetes.Links

open Base

inductive LinkAction where
  | leave
  | delete (reason : String)
  | update (status : LinkStatus)
  deriving DecidableEq

variable (action : LinkAction)

def LinkAction.after (link : Link) : Link :=
  match action with
  | .leave => link
  | .delete _ => link
  | .update status => link.withStatus status

def LinkAction.stored (link : Link) : Option Link :=
  match action with
  | .leave => some link
  | .delete _ => none
  | .update status => some (link.withStatus status)

def desiredLinkStatus (conditions : StatusConditions) (now : Int) (link : Link) (wireID : Int)
    (resolvedEndpoints : Option LinkResolvedEndpointsStatus) (conditionStatus : ConditionStatus)
    (reason message : String) : LinkStatus where
  wireID := wireID
  resolvedEndpoints := resolvedEndpoints
  conditions := conditions.set now link.status.conditions
    { type := linkConditionAccepted, status := conditionStatus,
      observedGeneration := link.generation, reason, message }

variable (link : Link)

def updateLinkStatus (desiredStatus : LinkStatus) : LinkAction :=
  if link.status = desiredStatus then .leave else .update desiredStatus

def skipped : Bool := link.terminating || link.ignored

def rejection (nodes : Nodes) (conflictingLink : String) (link : Link) : Option (String × String) :=
  match validateLink link with
  | .error err => some ("InvalidSpec", err)
  | .ok () =>
    match validateLinkEndpoints nodes link with
    | .error err => some ("EndpointsUnresolved", err)
    | .ok () =>
      if conflictingLink ≠ "" then
        some ("EndpointConflict", "endpoint already claimed by link " ++ quoted conflictingLink)
      else none

def acceptedMessage (wireID : Int) : String :=
  if wireID ≠ 0 then
    "Link endpoints are resolved and direct wire ID " ++ toString wireID ++ " is allocated"
  else "Link endpoints and direct connectivity policy are accepted"

structure PassContext where
  /-- `meta.SetStatusCondition`. -/
  conditions : StatusConditions
  /-- The clock. -/
  now : Int
  /-- The namespace. -/
  ns : String
  /-- The Nodes, read after the Links. -/
  nodes : Nodes

namespace PassContext

variable (ctx : PassContext)

def acceptedStatus (wireID : Int) : LinkStatus :=
  desiredLinkStatus ctx.conditions ctx.now link wireID (resolveLinkEndpoints link ctx.nodes).1
    .conditionTrue "Accepted" (acceptedMessage wireID)

def rejectedStatus (why : String × String) : LinkStatus :=
  desiredLinkStatus ctx.conditions ctx.now link 0 (resolveLinkEndpoints link ctx.nodes).1
    .conditionFalse why.1 why.2

variable (conflictingLink : String)

def reconcileLink (r : WireReservations) (link : Link) :
    Except String (LinkAction × WireReservations) :=
  if skipped link then .ok (.leave, r)
  else
    let lifecycleReason := (resolveLinkEndpoints link ctx.nodes).2
    if lifecycleReason ≠ "" then .ok (.delete lifecycleReason, r)
    else match rejection ctx.nodes conflictingLink link with
    | some why => .ok (updateLinkStatus link (ctx.rejectedStatus link why), r)
    | none =>
      match r.desired ctx.ns ctx.nodes link with
      | .error err => .error err
      | .ok (desiredWireID, r) =>
        .ok (updateLinkStatus link (ctx.acceptedStatus link desiredWireID), r)

/-- The loop of `:47-54`, with every request successful: the visited Links and what
was asked for each. -/
def reconcileLinks (conflicts : GoMap String String) :
    WireReservations → List Link → Except String (List (Link × LinkAction))
  | _, [] => .ok []
  | r, link :: rest =>
    match ctx.reconcileLink (conflicts[link.name]?.getD "") r link with
    | .error err => .error err
    | .ok (action, r) =>
      match reconcileLinks conflicts (r.record ctx.ns (action.after link) link.status.wireID)
        rest with
      | .error err => .error err
      | .ok visits => .ok ((link, action) :: visits)

def conflicts (links : List Link) : GoMap String String :=
  endpointConflicts (linksWithResolvedEndpoints links ctx.nodes)

def reconcile (links : List Link) : Except String (List (Link × LinkAction)) :=
  if links = [] then .ok []
  else
    let links := sortLinks links
    ctx.reconcileLinks (ctx.conflicts links) (.ofLinks ctx.ns links) links

def processed : Bool :=
  !skipped link && (resolveLinkEndpoints link ctx.nodes).2 == ""

def acceptsCrossPod (link : Link) : Bool :=
  ctx.processed link && (rejection ctx.nodes conflictingLink link).isNone &&
    !isLocalLink ctx.nodes link

inductive Visit (conflictingLink : String) (r : WireReservations) (link : Link) :
    LinkAction → WireReservations → Prop where
  | skipped (hskipped : skipped link = true) : Visit conflictingLink r link .leave r
  | deleted (hskipped : Links.skipped link = false)
      (hreason : (resolveLinkEndpoints link ctx.nodes).2 ≠ "") :
      Visit conflictingLink r link (.delete (resolveLinkEndpoints link ctx.nodes).2) r
  | rejected (hprocessed : ctx.processed link = true) (why : String × String)
      (hwhy : rejection ctx.nodes conflictingLink link = some why) :
      Visit conflictingLink r link (updateLinkStatus link (ctx.rejectedStatus link why)) r
  | accepted (hprocessed : ctx.processed link = true)
      (hnone : rejection ctx.nodes conflictingLink link = none) (id : Int) (r' : WireReservations)
      (hdesired : r.desired ctx.ns ctx.nodes link = .ok (id, r')) :
      Visit conflictingLink r link (updateLinkStatus link (ctx.acceptedStatus link id)) r'

theorem processed_iff : ctx.processed link = true ↔
    skipped link = false ∧ (resolveLinkEndpoints link ctx.nodes).2 = "" := by
  simp [processed]

theorem reconcileLink_eq_ok_iff (r r' : WireReservations) (link : Link)
    (action : LinkAction) : ctx.reconcileLink conflictingLink r link = .ok (action, r') ↔
      ctx.Visit conflictingLink r link action r' := by
  constructor
  · intro h
    unfold reconcileLink at h
    split at h
    · next hskipped =>
      cases h
      exact .skipped hskipped
    · next hskipped =>
      rw [Bool.not_eq_true] at hskipped
      dsimp only at h
      split at h
      · next hreason =>
        cases h
        exact .deleted hskipped hreason
      · next hreason =>
        have hprocessed := (ctx.processed_iff link).mpr ⟨hskipped, not_not.mp hreason⟩
        split at h
        · next why hwhy =>
          cases h
          exact .rejected hprocessed why hwhy
        · next hnone =>
          split at h
          · cases h
          · next id _ hdesired =>
            cases h
            exact .accepted hprocessed hnone id r' hdesired
  · rintro (hskipped | ⟨hskipped, hreason⟩ | ⟨hprocessed, why, hwhy⟩ |
      ⟨hprocessed, hnone, id, _, hdesired⟩)
    · rw [reconcileLink, if_pos hskipped]
    · simp [reconcileLink, hskipped, hreason]
    · obtain ⟨hskipped, hreason⟩ := (ctx.processed_iff link).mp hprocessed
      simp [reconcileLink, hskipped, hreason, hwhy]
    · obtain ⟨hskipped, hreason⟩ := (ctx.processed_iff link).mp hprocessed
      simp [reconcileLink, hskipped, hreason, hnone, hdesired]

end PassContext

@[simp] theorem after_updateLinkStatus (status : LinkStatus) :
    (updateLinkStatus link status).after link = link.withStatus status := by
  unfold updateLinkStatus
  split
  · next h => rw [← h]; rfl
  · rfl

@[simp] theorem stored_updateLinkStatus (status : LinkStatus) :
    (updateLinkStatus link status).stored link = some (link.withStatus status) := by
  unfold updateLinkStatus
  split
  · next h => rw [← h]; rfl
  · rfl

theorem exists_after_eq (link : Link) : ∃ status, action.after link = link.withStatus status := by
  cases action with
  | leave | delete => exact ⟨link.status, rfl⟩
  | update status => exact ⟨status, rfl⟩

@[simp] theorem name_after (link : Link) : (action.after link).name = link.name := by
  obtain ⟨status, h⟩ := exists_after_eq action link
  rw [h, name_withStatus]

structure Decided (ctx : PassContext) (conflictingLink : String) (links : List Link) (link : Link)
    (action : LinkAction) : Prop where
  unprocessed : ctx.processed link = false → action.after link = link
  zero : ctx.processed link = true → ctx.acceptsCrossPod conflictingLink link = false →
    (action.after link).status.wireID = 0
  granted : ctx.acceptsCrossPod conflictingLink link = true →
    Granted links link (action.after link).status.wireID

theorem visit_step {ctx : PassContext} {conflictingLink : String} {r r' : WireReservations}
    {done rest : List Link} {link : Link} {action : LinkAction}
    (hnames : ((done ++ link :: rest).map Link.name).Nodup)
    (htracks : Tracks ctx.ns r (done ++ link :: rest))
    (h : ctx.Visit conflictingLink r link action r') :
    Decided ctx conflictingLink (done ++ link :: rest) link action ∧
      Tracks ctx.ns (r'.record ctx.ns (action.after link) link.status.wireID)
        (done ++ action.after link :: rest) := by
  obtain ⟨status, hafter⟩ := exists_after_eq action link
  have hrecord : Tracks ctx.ns r' (done ++ link :: rest) →
      Tracks ctx.ns (r'.record ctx.ns (action.after link) link.status.wireID)
        (done ++ action.after link :: rest) := by
    rw [hafter]
    exact fun h => tracks_record hnames h status
  cases h with
  | skipped hskipped =>
    have hnot : ctx.processed link = false := by simp [PassContext.processed, hskipped]
    exact ⟨⟨fun _ => rfl, by simp [hnot], by simp [PassContext.acceptsCrossPod, hnot]⟩,
      hrecord htracks⟩
  | deleted hskipped hreason =>
    have hnot : ctx.processed link = false := by simp [PassContext.processed, hreason]
    exact ⟨⟨fun _ => rfl, by simp [hnot], by simp [PassContext.acceptsCrossPod, hnot]⟩,
      hrecord htracks⟩
  | rejected hprocessed why hwhy =>
    refine ⟨⟨by simp [hprocessed], fun _ _ => ?_, by simp [PassContext.acceptsCrossPod, hwhy]⟩,
      hrecord htracks⟩
    rw [after_updateLinkStatus]
    rfl
  | accepted hprocessed hnone id _ hdesired =>
    have hid :
        ((updateLinkStatus link (ctx.acceptedStatus link id)).after link).status.wireID = id := by
      rw [after_updateLinkStatus]
      rfl
    cases hlocal : isLocalLink ctx.nodes link with
    | true =>
      rw [WireReservations.desired_of_isLocalLink ctx.ns r hlocal] at hdesired
      cases hdesired
      exact ⟨⟨by simp [hprocessed], fun _ _ => hid, by simp [PassContext.acceptsCrossPod, hlocal]⟩,
        hrecord htracks⟩
    | false =>
      obtain ⟨hgranted, htracks'⟩ := WireReservations.desired_granted htracks hlocal hdesired
      have haccepts : ctx.acceptsCrossPod conflictingLink link = true := by
        simp [PassContext.acceptsCrossPod, hprocessed, hnone, hlocal]
      exact ⟨⟨by simp [hprocessed], by simp [haccepts], fun _ => hid.symm ▸ hgranted⟩,
        hrecord htracks'⟩

end Clabernetes.Links
