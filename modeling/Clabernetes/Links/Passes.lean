import Clabernetes.Base.Runs
import Clabernetes.Links.Settled

/-!
# Passes that may fail

The namespace in the API server and the controller that works on it, one visit at a time. Every
request may succeed, fail, or take effect although its response is lost; the last two abort the
pass, whose memory is then gone. Links are created, changed and deleted by others at any time: a
request that rests on an older version of a Link is refused by the API server.
-/

namespace Clabernetes.Links

open Base List

/-- The part of `Reconcile`'s state that lives across its loop; `visited` and `rest` make up
`links.Items`, `snapshot` is what was read. -/
structure ActivePass where
  ctx : PassContext
  snapshot : List Link
  visited : List Link := []
  rest : List Link
  reservations : WireReservations

structure Namespace where
  links : List Link
  pass : Option ActivePass := none

inductive Reply where
  | succeeded
  | failed
  /-- It takes effect, and the controller sees an error. -/
  | lost
  /-- The object is not there any more. -/
  | notFound
  deriving DecidableEq

inductive Happening where
  /-- Others create, delete or change Links; only the controller writes a status. -/
  | edit (links : List Link)
  /-- A pass begins: it lists the Links, then the Nodes. -/
  | start (ctx : PassContext)
  /-- The pass visits its next Link. -/
  | visit (reply : Reply)
  /-- The controller stops in the middle of a pass. -/
  | stop

/-- An edit: the names stay unique, and every Link has the status of its predecessor or none. -/
def Edits (links links' : List Link) : Prop :=
  (links'.map Link.name).Nodup ∧
    ∀ link ∈ links', link.status = {} ∨
      ∃ before ∈ links, before.name = link.name ∧ before.status = link.status

instance (links links' : List Link) : Decidable (Edits links links') :=
  inferInstanceAs (Decidable (_ ∧ _))

def LinkAction.perform (action : LinkAction) (link : Link) (links : List Link) : List Link :=
  match action with
  | .leave => links
  | .delete _ => links.filter fun other => other.name != link.name
  | .update status =>
    links.map fun other => if other.name = link.name then link.withStatus status else other

namespace ActivePass

def start (ctx : PassContext) (links : List Link) : ActivePass where
  ctx := ctx
  snapshot := sortLinks links
  rest := sortLinks links
  reservations := .ofLinks ctx.ns (sortLinks links)

def conflictOf (pass : ActivePass) (link : Link) : String :=
  (pass.ctx.conflicts pass.snapshot)[link.name]?.getD ""

def decision (pass : ActivePass) (link : Link) : Except String (LinkAction × WireReservations) :=
  pass.ctx.reconcileLink (pass.conflictOf link) pass.reservations link

def advance (pass : ActivePass) (link : Link) (rest : List Link) (action : LinkAction)
    (r : WireReservations) : ActivePass :=
  { pass with
    visited := pass.visited ++ [action.after link]
    rest := rest
    reservations := r.record pass.ctx.ns (action.after link) link.status.wireID }

end ActivePass

namespace Namespace

/-- What becomes of the namespace with the reply to a visit's request. A request takes effect
only on the version of the Link it was made for. -/
def receive (w : Namespace) (link : Link) (action : LinkAction) (next : ActivePass) :
    Reply → Option Namespace
  | .succeeded =>
    if link ∈ w.links then some { links := action.perform link w.links, pass := next } else none
  | .lost => if link ∈ w.links then some { links := action.perform link w.links } else none
  | .failed => some { w with pass := none }
  | .notFound =>
    -- only a deletion that finds nothing to delete counts as done
    match action with
    | .delete _ => some { w with pass := next }
    | _ => some { w with pass := none }

def step (w : Namespace) : Happening → Option Namespace
  | .edit links => if Edits w.links links then some { w with links } else none
  | .stop => some { w with pass := none }
  | .start ctx =>
    if w.pass.isSome then none
    else if w.links = [] then some w
    else some { w with pass := some (.start ctx w.links) }
  | .visit reply =>
    match w.pass with
    | none => none
    | some pass =>
      match pass.rest with
      | [] => some { w with pass := none }
      | link :: rest =>
        match pass.decision link with
        | .error _ => some { w with pass := none }
        | .ok (action, r) =>
          match action with
          | .leave => some { w with pass := some (pass.advance link rest .leave r) }
          | action => w.receive link action (pass.advance link rest action r) reply

end Namespace

variable {links rest : List Link} {action : LinkAction} {r : WireReservations} {link : Link}
  {ctx : PassContext}

theorem perform_append {kept : List Link} (action : LinkAction)
    (h : NameSorted (kept ++ link :: rest)) :
    action.perform link (kept ++ link :: rest) = kept ++ (action.stored link).toList ++ rest := by
  have hother : ∀ other, other ∈ kept ∨ other ∈ rest → other.name ≠ link.name := by
    rw [NameSorted, pairwise_append, pairwise_cons] at h
    rintro other (hmem | hmem)
    · exact Std.ne_of_lt (h.2.2 other hmem link mem_cons_self)
    · exact (Std.ne_of_lt (h.2.1.1 other hmem)).symm
  cases action with
  | leave => simp [LinkAction.perform, LinkAction.stored]
  | delete =>
    have hfilter : ∀ l : List Link, (∀ other ∈ l, other.name ≠ link.name) →
        l.filter (fun other => other.name != link.name) = l :=
      fun l hl => filter_eq_self.mpr fun other hmem => by simpa using hl other hmem
    rw [LinkAction.perform, filter_append, filter_cons_of_neg (by simp),
      hfilter kept fun other hmem => hother other (.inl hmem),
      hfilter rest fun other hmem => hother other (.inr hmem)]
    simp [LinkAction.stored]
  | update status =>
    have hmap : ∀ l : List Link, (∀ other ∈ l, other.name ≠ link.name) →
        l.map (fun other => if other.name = link.name then link.withStatus status else other) = l :=
      fun l hl => (map_congr_left fun other hmem => if_neg (hl other hmem)).trans l.map_id'
    rw [LinkAction.perform, map_append, map_cons, if_pos rfl,
      hmap kept fun other hmem => hother other (.inl hmem),
      hmap rest fun other hmem => hother other (.inr hmem)]
    simp [LinkAction.stored]

variable {pass : ActivePass}

theorem step_visit_succeeded {kept : List Link} (hrest : pass.rest = link :: rest)
    (hdecision : pass.decision link = .ok (action, r)) (h : NameSorted (kept ++ link :: rest)) :
    Namespace.step { links := kept ++ link :: rest, pass := some pass } (.visit .succeeded) =
      some { links := kept ++ (action.stored link).toList ++ rest,
             pass := some (pass.advance link rest action r) } := by
  have hmem : link ∈ kept ++ link :: rest := by simp
  rw [Namespace.step]
  simp only [hrest, hdecision]
  cases action with
  | leave => simp [LinkAction.stored]
  | delete reason =>
    rw [← perform_append (.delete reason) h]
    exact if_pos hmem
  | update status =>
    rw [← perform_append (.update status) h]
    exact if_pos hmem

theorem run_visits {kept : List Link} {visits : List (Link × LinkAction)} (hrest : pass.rest = rest)
    (hsorted : NameSorted (kept ++ rest))
    (h : pass.ctx.reconcileLinks (pass.ctx.conflicts pass.snapshot) pass.reservations rest =
      .ok visits) : ∃ last : ActivePass, last.rest = [] ∧
      run Namespace.step { links := kept ++ rest, pass := some pass }
        (visits.map fun _ => .visit .succeeded) =
        some { links := kept ++ persisted visits, pass := some last } := by
  induction rest generalizing kept pass visits with
  | nil =>
    cases h
    exact ⟨pass, hrest, rfl⟩
  | cons link rest ih =>
    rw [PassContext.reconcileLinks] at h
    split at h
    · cases h
    · next action r hdecision =>
      split at h
      · cases h
      · next tail htail =>
        cases h
        have hsorted' : NameSorted (kept ++ (action.stored link).toList ++ rest) := by
          have hnames : List.Sublist ((kept ++ (action.stored link).toList ++ rest).map Link.name)
              ((kept ++ link :: rest).map Link.name) := by
            cases action <;> simp [LinkAction.stored]
          rw [nameSorted_iff_map] at hsorted ⊢
          exact hsorted.sublist hnames
        obtain ⟨last, hlast, hrun⟩ :=
          @ih (pass.advance link rest action r) _ tail rfl hsorted' htail
        refine ⟨last, hlast, ?_⟩
        have hpersisted : kept ++ (action.stored link).toList ++ persisted tail =
            kept ++ persisted ((link, action) :: tail) := by
          cases action <;> simp [persisted, LinkAction.stored]
        rw [map_cons, run_cons, step_visit_succeeded hrest hdecision hsorted, ← hpersisted]
        exact hrun

/-- The passes of this system are those of the loop: when every request succeeds, a pass over
Links in name order ends with what the loop persists. -/
theorem run_reconcile {visits : List (Link × LinkAction)} (hsorted : NameSorted links)
    (hne : links ≠ []) (h : ctx.reconcile links = .ok visits) : run Namespace.step { links }
      (.start ctx :: (visits.map fun _ => .visit .succeeded) ++ [.visit .succeeded]) =
      some { links := persisted visits } := by
  rw [PassContext.reconcile, if_neg hne] at h
  have hloop : ctx.reconcileLinks (ctx.conflicts (sortLinks links))
      (.ofLinks ctx.ns (sortLinks links)) links = .ok visits := by
    rwa [sortLinks_eq_self hsorted] at h ⊢
  have hrest : (ActivePass.start ctx links).rest = links := sortLinks_eq_self hsorted
  have hsorted' : NameSorted ([] ++ links) := hsorted
  obtain ⟨last, hlast, hrun⟩ := run_visits hrest hsorted' hloop
  have hstart : Namespace.step { links } (.start ctx) =
      some { links, pass := some (.start ctx links) } := by
    simp [Namespace.step, hne]
  have hrun' : run Namespace.step { links }
      (.start ctx :: visits.map fun _ => .visit .succeeded) =
      some { links := persisted visits, pass := some last } := by
    rw [run_cons, hstart]
    exact hrun
  rw [run_append_singleton, hrun']
  simp [Namespace.step, hlast]

/-- What a pass in memory knows of the Links in the API server. -/
structure ActivePass.Sound (pass : ActivePass) (links : List Link) : Prop where
  sorted : NameSorted (pass.visited ++ pass.rest)
  tracks : Tracks pass.ctx.ns pass.reservations (pass.visited ++ pass.rest)
  /-- Every id held in the API server is held in memory, by the Link of the same name. -/
  covers : ∀ link ∈ links, 0 < link.status.wireID → ∃ held ∈ pass.visited ++ pass.rest,
    held.name = link.name ∧ held.status.wireID = link.status.wireID
  unvisited : ∀ link ∈ pass.rest, link ∈ pass.snapshot
  /-- A visited Link holds an id that it came with, or one that no Link to come holds. -/
  origin : ∀ held ∈ pass.visited, 0 < held.status.wireID →
    (∃ before ∈ pass.snapshot,
      before.name = held.name ∧ before.status.wireID = held.status.wireID) ∨
    ∀ link ∈ pass.rest, link.status.wireID ≠ held.status.wireID

/-- The invariant of the system. -/
structure Namespace.Sound (w : Namespace) : Prop where
  names : (w.links.map Link.name).Nodup
  pass : ∀ pass, w.pass = some pass → pass.Sound w.links

theorem ActivePass.sound_start (ctx : PassContext) (h : (links.map Link.name).Nodup) :
    (ActivePass.start ctx links).Sound links := by
  have hsorted := nameSorted_sortLinks h
  refine ⟨hsorted, tracks_ofLinks ctx.ns _ (nodup_of_nameSorted hsorted), ?_, fun _ h => h, ?_⟩
  · intro link hmem _
    exact ⟨link, (mem_insertionSort _).mpr hmem, rfl, rfl⟩
  · intro held hmem
    cases hmem

theorem ActivePass.Sound.edit {links' : List Link} (h : pass.Sound links)
    (hedits : Edits links links') : pass.Sound links' := by
  refine ⟨h.sorted, h.tracks, ?_, h.unvisited, h.origin⟩
  intro link hmem hpos
  obtain hnone | ⟨before, hbefore, hname, hstatus⟩ := hedits.2 link hmem
  · rw [hnone] at hpos
    cases hpos
  · obtain ⟨held, hheld, hsame, hid⟩ := h.covers before hbefore (by rwa [hstatus])
    exact ⟨held, hheld, hsame.trans hname, by rw [hid, hstatus]⟩

/-- The Links in the API server after a visit that the pass counts as done. -/
def Follows (link : Link) (action : LinkAction) (links links' : List Link) : Prop :=
  ∀ other ∈ links', other = action.after link ∨
    (other ∈ links ∧ (other.name ≠ link.name ∨ action.after link = link))

theorem follows_self (h : action.after link = link) : Follows link action links links :=
  fun _ hmem => .inr ⟨hmem, .inr h⟩

theorem follows_perform : Follows link action links (action.perform link links) := by
  intro other hmem
  cases action with
  | leave => exact .inr ⟨hmem, .inr rfl⟩
  | delete =>
    obtain ⟨hmem, hname⟩ := mem_filter.mp hmem
    exact .inr ⟨hmem, .inr rfl⟩
  | update status =>
    obtain ⟨before, hbefore, rfl⟩ := mem_map.mp hmem
    split
    · exact .inl rfl
    · next hname => exact .inr ⟨hbefore, .inl hname⟩

theorem ActivePass.Sound.decided (h : pass.Sound links) (hrest : pass.rest = link :: rest)
    (hdecision : pass.decision link = .ok (action, r)) :
    Decided pass.ctx (pass.conflictOf link) (pass.visited ++ link :: rest) link action ∧
      Tracks pass.ctx.ns (r.record pass.ctx.ns (action.after link) link.status.wireID)
        (pass.visited ++ action.after link :: rest) := by
  have hsorted := h.sorted
  have htracks := h.tracks
  rw [hrest] at hsorted htracks
  exact visit_step (nodup_of_nameSorted hsorted) htracks
    ((pass.ctx.reconcileLink_eq_ok_iff _ _ _ _ _).mp hdecision)

theorem Decided.origin {conflictingLink : String} {visited : List Link}
    (h : Decided ctx conflictingLink (visited ++ link :: rest) link action)
    (hsorted : NameSorted (visited ++ link :: rest)) (hpos : 0 < (action.after link).status.wireID)
    : (action.after link).status.wireID = link.status.wireID ∨
      ∀ other ∈ rest, other.status.wireID ≠ (action.after link).status.wireID := by
  cases hprocessed : ctx.processed link with
  | false => exact .inl (by rw [h.unprocessed hprocessed])
  | true =>
    by_cases haccepts : ctx.acceptsCrossPod conflictingLink link = true
    · by_cases hkept : (action.after link).status.wireID = link.status.wireID
      · exact .inl hkept
      · refine .inr fun other hmem hid => hkept ?_
        have hlt : link.name < other.name :=
          (pairwise_cons.mp (pairwise_append.mp hsorted).2.1).1 other hmem
        exact ((h.granted haccepts).clash other
          (mem_append_right _ (mem_cons_of_mem _ hmem)) (Std.ne_of_lt hlt).symm hid).1
    · have hzero := h.zero hprocessed (eq_false_of_ne_true haccepts)
      omega

theorem ActivePass.Sound.advance {links' : List Link} (h : pass.Sound links)
    (hrest : pass.rest = link :: rest) (hdecision : pass.decision link = .ok (action, r))
    (hfollows : Follows link action links links') :
    (pass.advance link rest action r).Sound links' := by
  obtain ⟨hdecided, htracks⟩ := h.decided hrest hdecision
  have hsorted := h.sorted
  have hcovers := h.covers
  have hunvisited := h.unvisited
  have horigin := h.origin
  rw [hrest] at hsorted hcovers hunvisited horigin
  have hsplit : (pass.advance link rest action r).visited ++ rest =
      pass.visited ++ action.after link :: rest := by
    simp [ActivePass.advance]
  constructor
  · change NameSorted ((pass.advance link rest action r).visited ++ rest)
    rw [hsplit]
    rw [nameSorted_iff_map] at hsorted ⊢
    simpa using hsorted
  · change Tracks _ _ ((pass.advance link rest action r).visited ++ rest)
    rw [hsplit]
    exact htracks
  · intro other hmem hpos
    change ∃ held ∈ (pass.advance link rest action r).visited ++ rest, _
    rw [hsplit]
    obtain rfl | ⟨hbefore, hkeeps⟩ := hfollows other hmem
    · exact ⟨action.after link, by simp, rfl, rfl⟩
    · obtain ⟨held, hheld, hname, hid⟩ := hcovers other hbefore hpos
      -- memory changes at the visited Link only, and that Link is not this one or is unchanged
      by_cases hself : held = link
      · subst hself
        refine ⟨action.after held, by simp, by rw [name_after, hname], ?_⟩
        obtain hne | hsame := hkeeps
        · exact absurd hname.symm hne
        · rw [hsame, hid]
      · refine ⟨held, ?_, hname, hid⟩
        simp only [mem_append, mem_cons] at hheld ⊢
        tauto
  · exact fun other hmem => hunvisited other (mem_cons_of_mem _ hmem)
  · intro held hmem hpos
    obtain hmem | hmem := mem_append.mp hmem
    · refine (horigin held hmem hpos).imp_right fun hnone other hother => ?_
      exact hnone other (mem_cons_of_mem _ hother)
    · rw [mem_singleton] at hmem
      subst hmem
      refine (hdecided.origin hsorted hpos).imp_left fun hkept => ?_
      exact ⟨link, hunvisited link mem_cons_self, (name_after _ _).symm, hkept.symm⟩

variable {e : Happening} {w w' : Namespace}

namespace Namespace

inductive Transition (w : Namespace) : Namespace → Prop where
  | edited (links : List Link) (hedits : Edits w.links links) : Transition w { w with links }
  | idle : Transition w w
  | dropped : Transition w { w with pass := none }
  | started (ctx : PassContext) : Transition w { w with pass := some (.start ctx w.links) }
  | left {pass : ActivePass} {link : Link} {rest : List Link} {action : LinkAction}
      {r : WireReservations} (hpass : w.pass = some pass) (hrest : pass.rest = link :: rest)
      (hdecision : pass.decision link = .ok (action, r)) (hsame : action.after link = link) :
      Transition w { w with pass := some (pass.advance link rest action r) }
  | performed {pass : ActivePass} {link : Link} {rest : List Link} {action : LinkAction}
      {r : WireReservations} (hpass : w.pass = some pass) (hrest : pass.rest = link :: rest)
      (hdecision : pass.decision link = .ok (action, r)) (hmem : link ∈ w.links)
      (next : Option ActivePass)
      (hnext : next = none ∨ next = some (pass.advance link rest action r)) :
      Transition w { links := action.perform link w.links, pass := next }

theorem transition_of_receive {reply : Reply} (hpass : w.pass = some pass)
    (hrest : pass.rest = link :: rest) (hdecision : pass.decision link = .ok (action, r))
    (h : w.receive link action (pass.advance link rest action r) reply = some w') :
    w.Transition w' := by
  cases reply with
  | succeeded =>
    rw [receive] at h
    split at h
    · next hmem =>
      cases h
      exact .performed hpass hrest hdecision hmem _ (.inr rfl)
    · cases h
  | lost =>
    rw [receive] at h
    split at h
    · next hmem =>
      cases h
      exact .performed hpass hrest hdecision hmem _ (.inl rfl)
    · cases h
  | failed =>
    cases h
    exact .dropped
  | notFound =>
    cases action with
    | leave | update => cases h; exact .dropped
    | delete => cases h; exact .left hpass hrest hdecision rfl

theorem transition_of_step (h : w.step e = some w') : w.Transition w' := by
  cases e with
  | edit links =>
    rw [step] at h
    split at h
    · next hedits => cases h; exact .edited links hedits
    · cases h
  | stop => cases h; exact .dropped
  | start ctx =>
    rw [step] at h
    split at h
    · cases h
    · split at h
      · cases h; exact .idle
      · cases h; exact .started ctx
  | visit reply =>
    rw [step] at h
    split at h
    · cases h
    · next pass hpass =>
      split at h
      · cases h; exact .dropped
      · next link rest hrest =>
        split at h
        · cases h; exact .dropped
        · next action r hdecision =>
          cases action with
          | leave => cases h; exact .left hpass hrest hdecision rfl
          | delete reason | update status => exact transition_of_receive hpass hrest hdecision h

theorem nodup_names_perform (h : (links.map Link.name).Nodup) (action : LinkAction) (link : Link) :
    ((action.perform link links).map Link.name).Nodup := by
  cases action with
  | leave => exact h
  | delete => exact h.sublist (filter_sublist.map _)
  | update status =>
    have hnames : ((LinkAction.update status).perform link links).map Link.name =
        links.map Link.name := by
      rw [LinkAction.perform, map_map]
      refine map_congr_left fun other _ => ?_
      rw [Function.comp_apply]
      split
      · next hname => exact hname.symm
      · rfl
    rwa [hnames]

theorem Sound.step (h : w.Sound) (hstep : w.step e = some w') : w'.Sound := by
  cases transition_of_step hstep with
  | edited links hedits => exact ⟨hedits.1, fun pass hpass => (h.pass pass hpass).edit hedits⟩
  | idle => exact h
  | dropped => exact ⟨h.names, nofun⟩
  | started ctx =>
    refine ⟨h.names, fun pass hpass => ?_⟩
    cases hpass
    exact ActivePass.sound_start ctx h.names
  | left hpass hrest hdecision hsame =>
    refine ⟨h.names, fun pass hpass' => ?_⟩
    cases hpass'
    exact (h.pass _ hpass).advance hrest hdecision (follows_self hsame)
  | performed hpass hrest hdecision hmem next hnext =>
    refine ⟨nodup_names_perform h.names _ _, fun pass hpass' => ?_⟩
    obtain rfl | rfl := hnext
    · cases hpass'
    · cases hpass'
      exact (h.pass _ hpass).advance hrest hdecision follows_perform

theorem sound_run (hnames : (links.map Link.name).Nodup) {events : List Happening}
    (h : run step { links } events = some w) : w.Sound :=
  run_invariant_of_step (P := Sound) ⟨hnames, fun _ hpass => by cases hpass⟩
    (fun _ _ _ hsound hstep => hsound.step hstep) events w h

end Namespace

theorem ActivePass.Sound.clash (h : pass.Sound links) (hrest : pass.rest = link :: rest)
    (hdecision : pass.decision link = .ok (action, r)) (hprocessed : pass.ctx.processed link = true)
    {other : Link} (hmem : other ∈ links) (hne : other.name ≠ link.name)
    (hpos : 0 < (action.after link).status.wireID)
    (hid : other.status.wireID = (action.after link).status.wireID) :
    (action.after link).status.wireID = link.status.wireID ∧ link.name < other.name := by
  obtain ⟨hdecided, -⟩ := h.decided hrest hdecision
  by_cases haccepts : pass.ctx.acceptsCrossPod (pass.conflictOf link) link = true
  · obtain ⟨held, hheld, hname, hsame⟩ := h.covers other hmem (by omega)
    rw [hrest] at hheld
    have hclash := (hdecided.granted haccepts).clash held hheld (hname ▸ hne) (hsame.trans hid)
    exact hname ▸ hclash
  · have hzero := hdecided.zero hprocessed (eq_false_of_ne_true haccepts)
    omega

theorem ActivePass.Sound.kept (h : pass.Sound links) (hrest : pass.rest = link :: rest)
    (hdecision : pass.decision link = .ok (action, r))
    (haccepts : pass.ctx.acceptsCrossPod (pass.conflictOf link) link = true)
    (hlow : 1 ≤ link.status.wireID) (hhigh : link.status.wireID ≤ maxWireID)
    (hfirst : ∀ other ∈ pass.snapshot, other.name < link.name →
      other.status.wireID ≠ link.status.wireID) :
    (action.after link).status.wireID = link.status.wireID := by
  obtain ⟨hdecided, -⟩ := h.decided hrest hdecision
  refine (hdecided.granted haccepts).kept hlow hhigh fun other hmem hlt hid => ?_
  obtain hvisited | hrest' := mem_append.mp hmem
  · obtain ⟨before, hbefore, hname, hsame⟩ | hnone := h.origin other hvisited (by omega)
    · exact hfirst before hbefore (hname ▸ hlt) (hsame.trans hid)
    · exact hnone link (hrest ▸ mem_cons_self) hid.symm
  · rw [← hrest] at hrest'
    exact hfirst other (h.unvisited other hrest') hlt hid

def UniqueIDs (links : List Link) : Prop :=
  ∀ a ∈ links, ∀ b ∈ links, a.name ≠ b.name → 0 < a.status.wireID →
    a.status.wireID ≠ b.status.wireID

theorem PassContext.Visit.processed_of_update {conflictingLink : String} {r' : WireReservations}
    {status : LinkStatus} (h : ctx.Visit conflictingLink r link action r')
    (hupdate : action = .update status) : ctx.processed link = true := by
  cases h with
  | skipped => cases hupdate
  | deleted => cases hupdate
  | rejected hprocessed => exact hprocessed
  | accepted hprocessed => exact hprocessed

theorem ActivePass.Sound.wireID_ne (h : pass.Sound links) (hrest : pass.rest = link :: rest)
    {status : LinkStatus} (hdecision : pass.decision link = .ok (.update status, r))
    (hlink : link ∈ links) (hunique : UniqueIDs links) {other : Link} (hmem : other ∈ links)
    (hne : other.name ≠ link.name) (hpos : 0 < status.wireID) :
    other.status.wireID ≠ status.wireID := by
  intro hid
  have hprocessed :=
    ((pass.ctx.reconcileLink_eq_ok_iff _ _ _ _ _).mp hdecision).processed_of_update rfl
  obtain ⟨hkept, -⟩ := h.clash hrest hdecision hprocessed hmem hne hpos hid
  change status.wireID = link.status.wireID at hkept
  exact hunique link hlink other hmem hne.symm (by omega) (by omega)

namespace Namespace

theorem uniqueIDs_step (h : w.Sound) (hunique : UniqueIDs w.links) (hstep : w.step e = some w') :
    UniqueIDs w'.links := by
  cases transition_of_step hstep with
  | edited links hedits =>
    intro a ha b hb hne hpos hid
    obtain hnone | ⟨a', ha', hname, hstatus⟩ := hedits.2 a ha
    · rw [hnone] at hpos
      cases hpos
    obtain hnone | ⟨b', hb', hname', hstatus'⟩ := hedits.2 b hb
    · rw [hid, hnone] at hpos
      cases hpos
    rw [← hstatus] at hpos hid
    rw [← hstatus'] at hid
    exact hunique a' ha' b' hb' (by rwa [hname, hname']) hpos hid
  | idle => exact hunique
  | dropped => exact hunique
  | started => exact hunique
  | left => exact hunique
  | @performed pass link rest action r hpass hrest hdecision hmem =>
    have hsound := h.pass pass hpass
    cases action with
    | leave => exact hunique
    | delete =>
      intro a ha b hb
      exact hunique a (mem_of_mem_filter ha) b (mem_of_mem_filter hb)
    | update status =>
      intro a ha b hb hne hpos hid
      obtain ⟨a, hmemA, rfl⟩ := mem_map.mp ha
      obtain ⟨b, hmemB, rfl⟩ := mem_map.mp hb
      have hother : ∀ {other : Link}, other ∈ w.links → other.name ≠ link.name →
          0 < status.wireID → other.status.wireID ≠ status.wireID :=
        hsound.wireID_ne hrest hdecision hmem hunique
      -- at most one of the two is the Link that was written
      by_cases hlinkA : a.name = link.name <;> by_cases hlinkB : b.name = link.name <;>
        simp only [hlinkA, hlinkB, if_true, if_false] at hne hpos hid
      · exact hne rfl
      · exact hother hmemB hlinkB hpos hid.symm
      · rw [hid] at hpos
        exact hother hmemA hlinkA hpos hid
      · exact hunique a hmemA b hmemB hne hpos hid

end Namespace

namespace Namespace

def next (w : Namespace) : Option (ActivePass × Link × LinkAction) :=
  match w.pass with
  | none => none
  | some pass =>
    match pass.rest with
    | [] => none
    | link :: _ =>
      match pass.decision link with
      | .error _ => none
      | .ok (action, _) => some (pass, link, action)

theorem next_eq_some (h : w.next = some (pass, link, action)) :
    ∃ rest r, w.pass = some pass ∧ pass.rest = link :: rest ∧
      pass.decision link = .ok (action, r) := by
  rw [next] at h
  split at h
  · cases h
  · next pass' hpass =>
    split at h
    · cases h
    · next link' rest hrest =>
      split at h
      · cases h
      · next action' r hdecision =>
        cases h
        exact ⟨rest, r, hpass, hrest, hdecision⟩

end Namespace

/-- In every reachable state the id that a pass is about to leave a Link with is held by no other
Link, or by larger ones that shared it; a valid id that no smaller Link came with is kept, and
distinct ids stay distinct. -/
theorem wireIDs_across_passes (links : List Link) (hnames : (links.map Link.name).Nodup)
    (events : List Happening) (w : Namespace)
    (h : run Namespace.step { links } events = some w) :
    (∀ pass link action, w.next = some (pass, link, action) → pass.ctx.processed link = true →
      (∀ other ∈ w.links, other.name ≠ link.name → 0 < (action.after link).status.wireID →
        other.status.wireID = (action.after link).status.wireID →
        (action.after link).status.wireID = link.status.wireID ∧ link.name < other.name) ∧
      (pass.ctx.acceptsCrossPod (pass.conflictOf link) link = true →
        1 ≤ link.status.wireID → link.status.wireID ≤ maxWireID →
        (∀ other ∈ pass.snapshot, other.name < link.name →
          other.status.wireID ≠ link.status.wireID) →
        (action.after link).status.wireID = link.status.wireID)) ∧
    (UniqueIDs links → UniqueIDs w.links) := by
  have hsound := Namespace.sound_run hnames h
  constructor
  · intro pass link action hnext hprocessed
    obtain ⟨rest, r, hpass, hrest, hdecision⟩ := Namespace.next_eq_some hnext
    have hpassSound := hsound.pass pass hpass
    exact ⟨fun other hmem hne hpos hid =>
      hpassSound.clash hrest hdecision hprocessed hmem hne hpos hid,
      hpassSound.kept hrest hdecision⟩
  · intro hunique
    have hstart : ({ links } : Namespace).Sound := ⟨hnames, nofun⟩
    refine (run_invariant_of_step (P := fun w => w.Sound ∧ UniqueIDs w.links) ⟨hstart, hunique⟩
      (fun s e s' hs hstep => ?_) events w h).2
    exact ⟨hs.1.step hstep, Namespace.uniqueIDs_step hs.1 hs.2 hstep⟩

def distinctLinks : List Link :=
  [wire "a" "n1" "n2" 0, { wire "b" "n1" "n3" 0 with spec := ⟨⟨"n1", "eth2"⟩, ⟨"n3", "eth1"⟩⟩ },
    { wire "c" "n2" "n3" 1 with spec := ⟨⟨"n2", "eth2"⟩, ⟨"n3", "eth2"⟩⟩ }]

theorem run_reconcile_distinct : ∃ visits, threeNodes.reconcile distinctLinks = .ok visits ∧
    run Namespace.step { links := distinctLinks } (.start threeNodes ::
      (visits.map fun _ => .visit .succeeded) ++ [.visit .succeeded]) =
      some { links := persisted visits } := by
  obtain ⟨visits, hvisits⟩ : ∃ visits, threeNodes.reconcile distinctLinks = .ok visits := by
    decide +kernel
  exact ⟨visits, hvisits, run_reconcile (by decide) (by decide) hvisits⟩

/-- A pass whose second write is lost, one whose third write fails, and a complete one. -/
def abortedPasses : List Happening :=
  [.start threeNodes, .visit .succeeded, .visit .lost,
    .start threeNodes, .visit .succeeded, .visit .succeeded, .visit .failed,
    .start threeNodes, .visit .succeeded, .visit .succeeded, .visit .succeeded, .visit .succeeded]

theorem wireIDs_across_abortedPasses : ∃ w,
    run Namespace.step { links := distinctLinks } abortedPasses = some w ∧
      (w.links.map fun link => link.status.wireID) = [2, 3, 1] ∧ UniqueIDs w.links := by
  obtain ⟨w, hrun, hids⟩ : ∃ w,
      run Namespace.step { links := distinctLinks } abortedPasses = some w ∧
        (w.links.map fun link => link.status.wireID) = [2, 3, 1] := by
    decide +kernel
  have hunique := (wireIDs_across_passes distinctLinks (by decide) abortedPasses w hrun).2
  exact ⟨w, hrun, hids, hunique (by unfold UniqueIDs; decide)⟩

def sharedPod : PassContext :=
  { threeNodes with
    nodes := threeNodes.nodes.insert "n2" { uid := "u2", networkMode := "container:n1" } }

def acceptedTwice : List Link :=
  [wire "a" "n1" "n2" 5,
    { wire "b" "n1" "n3" 5 with
      ignored := true
      status :=
        { wireID := 5, conditions := [⟨"Accepted", .conditionTrue, 1, "Accepted", "", 0⟩] } }]

def acceptedStatus (status : LinkStatus) : Bool :=
  status.conditions.any fun c => c.type == linkConditionAccepted && c.status == .conditionTrue

/-- A write may leave a Link an id that a larger ignored Link holds, and it changes the valid id of
a Link whose ends come to share a Pod. -/
theorem wireID_shared_and_cleared :
    (∃ w, run Namespace.step { links := acceptedTwice } [.start threeNodes] = some w ∧
      ∃ pass link action, w.next = some (pass, link, action) ∧
        action = .update (action.after link).status ∧
        ∃ other ∈ w.links, other.name ≠ link.name ∧ skipped other = true ∧
          acceptedStatus other.status = true ∧
          other.status.wireID = (action.after link).status.wireID) ∧
    (∃ w, run Namespace.step { links := [wire "a" "n1" "n2" 5] } [.start sharedPod] = some w ∧
      ∃ pass link action, w.next = some (pass, link, action) ∧
        action = .update (action.after link).status ∧
        1 ≤ link.status.wireID ∧ link.status.wireID ≤ maxWireID ∧ w.links = [link] ∧
        (action.after link).status.wireID ≠ link.status.wireID) := by
  constructor <;> decide +kernel

end Clabernetes.Links
