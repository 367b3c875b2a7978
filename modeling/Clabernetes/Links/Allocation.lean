import Clabernetes.Links.Reconcile

/-!
# One allocation pass

What a completed pass leaves in the namespace: which Links hold an id, how far the ids are distinct,
which are kept, and that a second pass has nothing left to write. The loop invariant is that the
reservation table tracks the visited Links with their new ids and the others with their old ones.
-/

namespace Clabernetes.Links

open Base List Prod

def visitedLink (visit : Link × LinkAction) : Link := visit.2.after visit.1

def persisted (visits : List (Link × LinkAction)) : List Link :=
  visits.filterMap fun visit => visit.2.stored visit.1

structure Decisions (ctx : PassContext) (conflicts : GoMap String String) (done : List Link)
    (visits : List (Link × LinkAction)) : Prop where
  decided : ∀ before visit after, visits = before ++ visit :: after →
    Decided ctx (conflicts[visit.1.name]?.getD "")
      (done ++ before.map visitedLink ++ visit.1 :: after.map fst) visit.1 visit.2
  visited : ∀ visit ∈ visits, ∃ r r',
    ctx.Visit (conflicts[visit.1.name]?.getD "") r visit.1 visit.2 r'

variable {visits : List (Link × LinkAction)}

theorem Decisions.cons {ctx : PassContext} {conflicts : GoMap String String} {done : List Link}
    {link : Link} {action : LinkAction}
    {r r' : WireReservations} (hvisit : ctx.Visit (conflicts[link.name]?.getD "") r link action r')
    (hdecided : Decided ctx (conflicts[link.name]?.getD "")
      (done ++ link :: visits.map fst) link action)
    (h : Decisions ctx conflicts (done ++ [action.after link]) visits) :
    Decisions ctx conflicts done ((link, action) :: visits) := by
  constructor
  · intro before visit after heq
    cases before with
    | nil =>
      obtain ⟨rfl, rfl⟩ := cons_eq_cons.mp heq
      simpa using hdecided
    | cons first before =>
      obtain ⟨rfl, rfl⟩ := cons_eq_cons.mp heq
      simpa [visitedLink] using h.decided before visit after rfl
  · intro visit hmem
    obtain rfl | hmem := mem_cons.mp hmem
    · exact ⟨r, r', hvisit⟩
    · exact h.visited visit hmem

theorem reconcileLinks_decisions {ctx : PassContext} {conflicts : GoMap String String}
    {r : WireReservations} {done rest : List Link}
    (hnames : ((done ++ rest).map Link.name).Nodup) (htracks : Tracks ctx.ns r (done ++ rest))
    (h : ctx.reconcileLinks conflicts r rest = .ok visits) :
    visits.map fst = rest ∧ Decisions ctx conflicts done visits := by
  induction rest generalizing r done visits with
  | nil =>
    cases h
    exact ⟨rfl, by simp, by simp⟩
  | cons link rest ih =>
    rw [PassContext.reconcileLinks] at h
    split at h
    · cases h
    · next action r' hlink =>
      split at h
      · cases h
      · next tail hrest =>
        cases h
        have hvisit := (ctx.reconcileLink_eq_ok_iff _ _ _ _ _).mp hlink
        obtain ⟨hdecided, htracks'⟩ := visit_step hnames htracks hvisit
        rw [append_cons] at htracks'
        obtain ⟨hfst, htail⟩ := ih (by simpa using hnames) htracks' hrest
        rw [← hfst] at hdecided
        exact ⟨by rw [map_cons, hfst], .cons hvisit hdecided htail⟩

structure CompletedPass (ctx : PassContext) (links : List Link)
    (visits : List (Link × LinkAction)) : Prop where
  visitsAll : visits.map fst = sortLinks links
  sorted : NameSorted (visits.map fst)
  decisions : Decisions ctx (ctx.conflicts (sortLinks links)) [] visits

theorem completedPass {ctx : PassContext} {links : List Link} (hnames : (links.map Link.name).Nodup)
    (h : ctx.reconcile links = .ok visits) :
    CompletedPass ctx links visits := by
  have hsorted := nameSorted_sortLinks hnames
  have hloop : ctx.reconcileLinks (ctx.conflicts (sortLinks links))
      (.ofLinks ctx.ns (sortLinks links)) (sortLinks links) = .ok visits := by
    rw [PassContext.reconcile] at h
    split at h
    · next hnil =>
      subst hnil
      exact h
    · exact h
  have hnodup := nodup_of_nameSorted hsorted
  have htracks : Tracks ctx.ns (.ofLinks ctx.ns (sortLinks links)) ([] ++ sortLinks links) :=
    tracks_ofLinks ctx.ns _ hnodup
  obtain ⟨hfst, hdecisions⟩ := reconcileLinks_decisions hnodup htracks hloop
  exact ⟨hfst, hfst ▸ hsorted, hdecisions⟩

namespace CompletedPass

variable {ctx : PassContext} {links : List Link} {visits : List (Link × LinkAction)}
  {visit other : Link × LinkAction} {before after : List (Link × LinkAction)}

def conflictOf (ctx : PassContext) (links : List Link) (link : Link) : String :=
  (ctx.conflicts (sortLinks links))[link.name]?.getD ""

variable (h : CompletedPass ctx links visits)

include h

section

variable (heq : visits = before ++ visit :: after)

include heq

theorem name_lt_of_mem_before (hmem : other ∈ before) : other.1.name < visit.1.name := by
  have hsorted := h.sorted
  rw [heq, map_append, map_cons, NameSorted, pairwise_append] at hsorted
  exact hsorted.2.2 other.1 (mem_map_of_mem hmem) visit.1 mem_cons_self

theorem name_lt_of_mem_after (hmem : other ∈ after) : visit.1.name < other.1.name := by
  obtain ⟨middle, rest, rfl⟩ := append_of_mem hmem
  have hsplit : visits = (before ++ visit :: middle) ++ other :: rest := by simp [heq]
  exact h.name_lt_of_mem_before hsplit (mem_append_right _ mem_cons_self)

theorem mem_before
    (hmem : other ∈ visits) (hlt : other.1.name < visit.1.name) : other ∈ before := by
  rw [heq, mem_append, mem_cons] at hmem
  obtain hbefore | rfl | hafter := hmem
  · exact hbefore
  · exact absurd hlt Std.lt_irrefl
  · exact absurd (h.name_lt_of_mem_after heq hafter) (String.lt_asymm hlt)

theorem mem_after (hmem : other ∈ visits) (hlt : visit.1.name < other.1.name) : other ∈ after := by
  rw [heq, mem_append, mem_cons] at hmem
  obtain hbefore | rfl | hafter := hmem
  · exact absurd (h.name_lt_of_mem_before heq hbefore) (String.lt_asymm hlt)
  · exact absurd hlt Std.lt_irrefl
  · exact hafter

end

variable (hvisit : visit ∈ visits)

include hvisit

theorem wireID_range
    (haccepts : ctx.acceptsCrossPod (conflictOf ctx links visit.1) visit.1 = true) :
    1 ≤ (visitedLink visit).status.wireID ∧ (visitedLink visit).status.wireID ≤ maxWireID := by
  obtain ⟨before, after, heq⟩ := append_of_mem hvisit
  exact ((h.decisions.decided before visit after heq).granted haccepts).range

theorem wireID_eq_zero (hprocessed : ctx.processed visit.1 = true)
    (hnot : ctx.acceptsCrossPod (conflictOf ctx links visit.1) visit.1 = false) :
    (visitedLink visit).status.wireID = 0 := by
  obtain ⟨before, after, heq⟩ := append_of_mem hvisit
  exact (h.decisions.decided before visit after heq).zero hprocessed hnot

theorem wireID_ne_of_lt (hother : other ∈ visits) (hlt : other.1.name < visit.1.name)
    (haccepts : ctx.acceptsCrossPod (conflictOf ctx links visit.1) visit.1 = true) :
    (visitedLink other).status.wireID ≠ (visitedLink visit).status.wireID := by
  obtain ⟨before, after, heq⟩ := append_of_mem hvisit
  have hbefore := h.mem_before heq hother hlt
  have hgranted := (h.decisions.decided before visit after heq).granted haccepts
  intro hid
  have hclash := hgranted.clash (visitedLink other)
    (by simp only [nil_append, mem_append]; exact .inl (mem_map_of_mem hbefore))
    (by rw [visitedLink, name_after]; exact Std.ne_of_lt hlt) hid
  rw [visitedLink, name_after] at hclash
  exact String.lt_asymm hlt hclash.2

theorem kept_of_larger (hother : other ∈ visits) (hlt : visit.1.name < other.1.name)
    (haccepts : ctx.acceptsCrossPod (conflictOf ctx links visit.1) visit.1 = true)
    (hid : other.1.status.wireID = (visitedLink visit).status.wireID) :
    (visitedLink visit).status.wireID = visit.1.status.wireID := by
  obtain ⟨before, after, heq⟩ := append_of_mem hvisit
  have hafter := h.mem_after heq hother hlt
  have hgranted := (h.decisions.decided before visit after heq).granted haccepts
  exact (hgranted.clash other.1
    (mem_append_right _ (mem_cons_of_mem _ (mem_map_of_mem hafter)))
    (Std.ne_of_lt hlt).symm hid).1

theorem wireID_cases : (ctx.processed visit.1 = false ∧ visitedLink visit = visit.1) ∨
      (visitedLink visit).status.wireID = 0 ∨
      ctx.acceptsCrossPod (conflictOf ctx links visit.1) visit.1 = true := by
  cases hprocessed : ctx.processed visit.1 with
  | false =>
    obtain ⟨before, after, heq⟩ := append_of_mem hvisit
    exact .inl ⟨rfl, (h.decisions.decided before visit after heq).unprocessed hprocessed⟩
  | true =>
    by_cases haccepts : ctx.acceptsCrossPod (conflictOf ctx links visit.1) visit.1 = true
    · exact .inr (.inr haccepts)
    · exact .inr (.inl (h.wireID_eq_zero hvisit hprocessed (eq_false_of_ne_true haccepts)))

theorem wireID_kept (haccepts : ctx.acceptsCrossPod (conflictOf ctx links visit.1) visit.1 = true)
    (hlow : 1 ≤ visit.1.status.wireID) (hhigh : visit.1.status.wireID ≤ maxWireID)
    (hfirst : ∀ other ∈ links, other.name < visit.1.name →
      other.status.wireID ≠ visit.1.status.wireID) :
    (visitedLink visit).status.wireID = visit.1.status.wireID := by
  obtain ⟨before, after, heq⟩ := append_of_mem hvisit
  refine ((h.decisions.decided before visit after heq).granted haccepts).kept hlow hhigh ?_
  intro other hmem hlt hid
  simp only [nil_append, mem_append, mem_map, mem_cons] at hmem
  obtain ⟨earlier, hearlier, rfl⟩ | rfl | ⟨later, hlater, rfl⟩ := hmem
  · have hmem : earlier ∈ visits := by rw [heq]; exact mem_append_left _ hearlier
    have hlt := h.name_lt_of_mem_before heq hearlier
    have hlink : earlier.1 ∈ links := by
      have := mem_map_of_mem (f := fst) hmem
      rwa [h.visitsAll, sortLinks, mem_insertionSort] at this
    obtain ⟨-, hsame⟩ | hzero | hgranted := h.wireID_cases hmem
    · rw [hsame] at hid
      exact hfirst earlier.1 hlink hlt hid
    · omega
    · refine hfirst earlier.1 hlink hlt ?_
      rw [← hid, h.kept_of_larger hmem hvisit hlt hgranted hid.symm]
  · exact Std.lt_irrefl hlt
  · exact String.lt_asymm hlt (h.name_lt_of_mem_after heq hlater)

end CompletedPass

end Clabernetes.Links
