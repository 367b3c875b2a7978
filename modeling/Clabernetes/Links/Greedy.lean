import Clabernetes.Base.Greedy
import Clabernetes.Links.Conflicts
import Mathlib.Data.List.Induction
import Mathlib.Data.List.Pairwise

/-!
# Conflicts are resolved greedily

The pass of `util/containerlab/links.go:65-93` accepts the valid Links that the greedy selection in
name order takes, where two Links clash if they share an endpoint on a Node. The query for one Link
(`links.go:37-63`) is the pass over the whole namespace.
-/

namespace Clabernetes.Links

open Base List

def replaceNamed (link : Link) : List Link → List Link
  | [] => []
  | first :: rest =>
    if first.name = link.name then link :: rest else first :: replaceNamed link rest

def findEndpointConflict (link : Link) (namespaceLinks : List Link) : String :=
  let candidates :=
    if namespaceLinks.any (·.name = link.name) then replaceNamed link namespaceLinks
    else namespaceLinks ++ [link]
  (endpointConflicts candidates)[link.name]?.getD ""

def SharesEndpoint (a b : Link) : Prop :=
  ∃ endpoint ∈ a.spec.endpoints, endpoint ∈ b.spec.endpoints ∧ endpoint.nodeName ≠ linkHostNodeName

instance : DecidableRel SharesEndpoint := fun a b =>
  inferInstanceAs (Decidable (∃ endpoint ∈ a.spec.endpoints, endpoint ∈ b.spec.endpoints ∧ _))

def Valid (link : Link) : Prop := (validateLink link).isOk = true

instance : DecidablePred Valid := fun _ => inferInstanceAs (Decidable (_ = _))

def Accepted (links : List Link) (link : Link) : Prop :=
  Valid link ∧ (endpointConflicts links)[link.name]? = none

instance (links : List Link) : DecidablePred (Accepted links) := fun _ =>
  inferInstanceAs (Decidable (_ ∧ _))

/-- Links as they are told apart: by name, and their endpoints by keys that can be split. -/
structure Wellnamed (links : List Link) : Prop where
  nodup : (links.map Link.name).Nodup
  nonempty : ∀ link ∈ links, link.name ≠ ""
  separated : ∀ link ∈ links, ∀ endpoint ∈ link.spec.endpoints, ':' ∉ endpoint.nodeName.toList

variable {link : Link} {claimed : GoMap String String} {links' before taken after : List Link}
  {state : Claims} {links : List Link}

theorem Wellnamed.perm (h : Wellnamed links) (hperm : links.Perm links') :
    Wellnamed links' where
  nodup := (hperm.map _).nodup_iff.mp h.nodup
  nonempty link hlink := h.nonempty link (hperm.mem_iff.mpr hlink)
  separated link hlink := h.separated link (hperm.mem_iff.mpr hlink)

theorem Wellnamed.sublist (h : Wellnamed links) (hsublist : links'.Sublist links)
    : Wellnamed links' where
  nodup := (hsublist.map _).nodup h.nodup
  nonempty link hlink := h.nonempty link (hsublist.subset hlink)
  separated link hlink := h.separated link (hsublist.subset hlink)

theorem endpointKey_inj {a b : LinkEndpointSpec} (ha : ':' ∉ a.nodeName.toList)
    (hb : ':' ∉ b.nodeName.toList) (h : endpointKey a = endpointKey b) : a = b := by
  have hkey : a.nodeName.toList ++ ':' :: a.interfaceName.toList =
      b.nodeName.toList ++ ':' :: b.interfaceName.toList := by
    have hlist := congrArg String.toList h
    simpa [endpointKey] using hlist
  have hparts : a.nodeName.toList = b.nodeName.toList ∧
      a.interfaceName.toList = b.interfaceName.toList := by
    rw [append_eq_append_iff] at hkey
    rcases hkey with ⟨middle, hnode, hrest⟩ | ⟨middle, hnode, hrest⟩
    · cases middle with
      | nil => simp_all
      | cons c middle =>
        simp only [cons_append, List.cons.injEq] at hrest
        rw [hnode, ← hrest.1] at hb
        simp at hb
    · cases middle with
      | nil => simp_all
      | cons c middle =>
        simp only [cons_append, List.cons.injEq] at hrest
        rw [hnode, ← hrest.1] at ha
        simp at ha
  cases a
  cases b
  simp only [LinkEndpointSpec.mk.injEq]
  exact ⟨String.toList_injective hparts.1, String.toList_injective hparts.2⟩

theorem mem_claimable {key : String} : key ∈ claimable link ↔ ∃ endpoint ∈ link.spec.endpoints,
      endpoint.nodeName ≠ linkHostNodeName ∧ endpointKey endpoint = key := by
  simp [claimable, and_assoc]

theorem sharesEndpoint_iff {a b : Link}
    (ha : ∀ endpoint ∈ a.spec.endpoints, ':' ∉ endpoint.nodeName.toList)
    (hb : ∀ endpoint ∈ b.spec.endpoints, ':' ∉ endpoint.nodeName.toList) :
    SharesEndpoint a b ↔ ∃ key ∈ claimable a, key ∈ claimable b := by
  constructor
  · rintro ⟨endpoint, hmem, hmem', hhost⟩
    exact ⟨endpointKey endpoint, mem_claimable.mpr ⟨endpoint, hmem, hhost, rfl⟩,
      mem_claimable.mpr ⟨endpoint, hmem', hhost, rfl⟩⟩
  · rintro ⟨key, hkey, hkey'⟩
    obtain ⟨endpoint, hmem, hhost, rfl⟩ := mem_claimable.mp hkey
    obtain ⟨endpoint', hmem', -, heq⟩ := mem_claimable.mp hkey'
    obtain rfl := endpointKey_inj (hb endpoint' hmem') (ha endpoint hmem) heq
    exact ⟨endpoint', hmem, hmem', hhost⟩

/-- The claims of the loop are those of the Links that were taken. -/
structure ClaimedBy (claimed : GoMap String String) (taken : List Link) : Prop where
  claims : ∀ link ∈ taken, ∀ key ∈ claimable link, ownerOf claimed key = link.name
  owners : ∀ key, ownerOf claimed key ≠ "" →
    ∃ link ∈ taken, key ∈ claimable link ∧ link.name = ownerOf claimed key

theorem exists_ownerOf_eq_firstOwner {keys : List String} (h : firstOwner claimed keys ≠ "") :
    ∃ key ∈ keys, ownerOf claimed key = firstOwner claimed keys := by
  induction keys with
  | nil => exact absurd rfl h
  | cons key rest ih =>
    rw [firstOwner] at h ⊢
    split
    · exact ⟨key, mem_cons_self, rfl⟩
    · next hown =>
      rw [if_neg hown] at h
      obtain ⟨other, hother, heq⟩ := ih h
      exact ⟨other, mem_cons_of_mem _ hother, heq⟩

section

variable (h : ClaimedBy claimed taken)

include h

theorem ClaimedBy.exists_of_conflict (htaken : ∀ other ∈ taken, SharesEndpoint other link ↔
      ∃ key ∈ claimable other, key ∈ claimable link)
    (hconflict : conflictForClaimedEndpoints link claimed ≠ "") :
    ∃ other ∈ taken, other.name = conflictForClaimedEndpoints link claimed ∧
      SharesEndpoint other link := by
  obtain ⟨key, hkey, hown⟩ := exists_ownerOf_eq_firstOwner hconflict
  obtain ⟨other, hother, hclaim, hname⟩ := h.owners key (hown ▸ hconflict)
  exact ⟨other, hother, hname.trans hown, (htaken other hother).mpr ⟨key, hclaim, hkey⟩⟩

theorem ClaimedBy.conflict_ne_iff (hnames : ∀ other ∈ taken, other.name ≠ "")
    (htaken : ∀ other ∈ taken, SharesEndpoint other link ↔
      ∃ key ∈ claimable other, key ∈ claimable link) :
    conflictForClaimedEndpoints link claimed ≠ "" ↔ ∃ other ∈ taken, SharesEndpoint other link := by
  constructor
  · intro hconflict
    obtain ⟨other, hother, -, hshares⟩ := h.exists_of_conflict htaken hconflict
    exact ⟨other, hother, hshares⟩
  · rintro ⟨other, hother, hshares⟩ hfree
    obtain ⟨key, hclaim, hkey⟩ := (htaken other hother).mp hshares
    apply hnames other hother
    rw [← h.claims other hother key hclaim]
    exact ownerOf_eq_empty hfree key hkey

theorem ClaimedBy.claim (hfree : conflictForClaimedEndpoints link claimed = "")
    (hnames : ∀ other ∈ taken, other.name ≠ "") :
    ClaimedBy (claimLinkEndpoints link claimed) (taken ++ [link]) := by
  constructor
  · intro other hother key hkey
    rw [ownerOf_claimLinkEndpoints]
    rcases mem_append.mp hother with hother | hother
    · have hclaim := h.claims other hother key hkey
      split
      · next hmem =>
        rw [ownerOf_eq_empty hfree key hmem] at hclaim
        exact absurd hclaim.symm (hnames other hother)
      · exact hclaim
    · rw [mem_singleton] at hother
      subst hother
      rw [if_pos hkey]
  · intro key hkey
    rw [ownerOf_claimLinkEndpoints] at hkey ⊢
    split at hkey
    · next hmem =>
      rw [if_pos hmem]
      exact ⟨link, by simp, hmem, rfl⟩
    · next hmem =>
      rw [if_neg hmem]
      obtain ⟨other, hother, hclaim, hname⟩ := h.owners key hkey
      exact ⟨other, mem_append_left _ hother, hclaim, hname⟩

end

theorem consider_of_not_valid (h : ¬Valid link) : state.consider link = state := if_neg h

theorem consider_of_conflict (h : Valid link)
    (hconflict : conflictForClaimedEndpoints link state.claimed ≠ "") :
    state.consider link = { state with
      conflicts := state.conflicts.insert link.name
        (conflictForClaimedEndpoints link state.claimed) } :=
  (if_pos h).trans (if_pos hconflict)

theorem consider_of_free (h : Valid link)
    (hfree : conflictForClaimedEndpoints link state.claimed = "") :
    state.consider link = { state with claimed := claimLinkEndpoints link state.claimed } :=
  (if_pos h).trans (if_neg (not_not_intro hfree))

abbrev validLinks (links : List Link) : List Link := links.filter fun link => Valid link

theorem claimedBy_foldl (hnames : ∀ link ∈ links, link.name ≠ "")
    (hseparated : ∀ link ∈ links, ∀ endpoint ∈ link.spec.endpoints,
      ':' ∉ endpoint.nodeName.toList) : ClaimedBy (links.foldl Claims.consider {}).claimed
      (greedy SharesEndpoint (validLinks links)) := by
  induction links using List.reverseRecOn with
  | nil => exact ⟨by simp [greedy, greedyFrom], by simp [ownerOf]⟩
  | append_singleton links link ih =>
    simp only [mem_append, or_imp, forall_and, mem_singleton, forall_eq]
      at hnames hseparated
    specialize ih hnames.1 hseparated.1
    have htaken : ∀ other ∈ greedy SharesEndpoint (validLinks links), other ∈ links := by
      intro other hother
      exact (mem_filter.mp (mem_of_mem_greedy hother)).1
    have hshares : ∀ other ∈ greedy SharesEndpoint (validLinks links), SharesEndpoint other link ↔
        ∃ key ∈ claimable other, key ∈ claimable link := by
      intro other hother
      exact sharesEndpoint_iff (hseparated.1 other (htaken other hother)) hseparated.2
    have hne : ∀ other ∈ greedy SharesEndpoint (validLinks links), other.name ≠ "" :=
      fun other hother => hnames.1 other (htaken other hother)
    rw [foldl_append, foldl_cons, foldl_nil, validLinks, filter_append]
    by_cases hvalid : Valid link
    · rw [filter_cons_of_pos (by simpa using hvalid), filter_nil, greedy_append_singleton]
      by_cases hclash : ∃ other ∈ greedy SharesEndpoint (validLinks links),
          SharesEndpoint other link
      · rw [if_pos hclash,
          consider_of_conflict hvalid ((ih.conflict_ne_iff hne hshares).mpr hclash)]
        exact ih
      · have hfree : conflictForClaimedEndpoints link
            (links.foldl Claims.consider {}).claimed = "" :=
          not_not.mp (mt (ih.conflict_ne_iff hne hshares).mp hclash)
        rw [if_neg hclash, consider_of_free hvalid hfree]
        exact ih.claim hfree hne
    · rw [filter_cons_of_neg (by simpa using hvalid), filter_nil, append_nil,
        consider_of_not_valid hvalid]
      exact ih

theorem conflicts_split (hnames : ((before ++ link :: after).map Link.name).Nodup) :
    ((before ++ link :: after).foldl Claims.consider {}).conflicts[link.name]? =
      if Valid link ∧
          conflictForClaimedEndpoints link (before.foldl Claims.consider {}).claimed ≠ "" then
        some (conflictForClaimedEndpoints link (before.foldl Claims.consider {}).claimed)
      else none := by
  rw [map_append, map_cons, nodup_append, nodup_cons] at hnames
  obtain ⟨-, ⟨hafter, -⟩, hapart⟩ := hnames
  have hbefore : link.name ∉ before.map Link.name := by
    intro hmem
    exact hapart _ hmem _ mem_cons_self rfl
  have hstart : (before.foldl Claims.consider {}).conflicts[link.name]? = none := by
    rw [conflicts_foldl_of_notMem hbefore]
    rfl
  rw [foldl_append, foldl_cons, conflicts_foldl_of_notMem hafter]
  by_cases hvalid : Valid link
  · by_cases hconflict :
        conflictForClaimedEndpoints link (before.foldl Claims.consider {}).claimed ≠ ""
    · rw [consider_of_conflict hvalid hconflict, if_pos ⟨hvalid, hconflict⟩]
      simp
    · rw [consider_of_free hvalid (not_not.mp hconflict), if_neg (fun h => hconflict h.2)]
      exact hstart
  · rw [consider_of_not_valid hvalid, if_neg (fun h => hvalid h.1)]
    exact hstart

section

variable {links : List Link}

theorem perm_sortLinks (links : List Link) : (sortLinks links).Perm links :=
  perm_insertionSort _ _

section

variable (h : Wellnamed links)

include h

theorem Wellnamed.sorted : Wellnamed (sortLinks links) :=
  h.perm (perm_sortLinks links).symm

theorem sortLinks_eq_of_perm (hperm : links.Perm links') : sortLinks links' = sortLinks links := by
  have hsorted := nameSorted_sortLinks h.nodup
  have hsorted' := nameSorted_sortLinks (h.perm hperm).nodup
  refine List.Perm.eq_of_pairwise ?_ hsorted' hsorted ?_
  · intro a b _ _ hab hba
    exact absurd (Std.lt_trans hab hba) (Std.lt_irrefl)
  · exact ((perm_sortLinks links').trans hperm.symm).trans (perm_sortLinks links).symm

theorem Wellnamed.exists_split (hlink : link ∈ links) :
    ∃ before after, sortLinks links = before ++ link :: after ∧
      (∀ other ∈ before, other.name < link.name) := by
  obtain ⟨before, after, hsplit⟩ := append_of_mem ((perm_sortLinks links).mem_iff.mpr hlink)
  have hsorted := nameSorted_sortLinks h.nodup
  rw [hsplit, NameSorted, pairwise_append] at hsorted
  exact ⟨before, after, hsplit,
    fun other hother => hsorted.2.2 other hother link mem_cons_self⟩

theorem Wellnamed.claimedBy_before (hsplit : sortLinks links = before ++ link :: after) :
    ClaimedBy (before.foldl Claims.consider {}).claimed
      (greedy SharesEndpoint (validLinks before)) ∧
      (∀ other ∈ greedy SharesEndpoint (validLinks before), other.name ≠ "") ∧
      ∀ other ∈ greedy SharesEndpoint (validLinks before), SharesEndpoint other link ↔
        ∃ key ∈ claimable other, key ∈ claimable link := by
  have hsorted := h.sorted
  rw [hsplit] at hsorted
  have hmem : ∀ other ∈ greedy SharesEndpoint (validLinks before), other ∈ before :=
    fun other hother => (mem_filter.mp (mem_of_mem_greedy hother)).1
  refine ⟨claimedBy_foldl ?_ ?_, ?_, ?_⟩
  · exact fun other hother => hsorted.nonempty other (mem_append_left _ hother)
  · exact fun other hother => hsorted.separated other (mem_append_left _ hother)
  · exact fun other hother => hsorted.nonempty other (mem_append_left _ (hmem other hother))
  · intro other hother
    exact sharesEndpoint_iff (hsorted.separated other (mem_append_left _ (hmem other hother)))
      (hsorted.separated link (mem_append_right _ mem_cons_self))

theorem Wellnamed.conflicts_eq (hsplit : sortLinks links = before ++ link :: after) :
    (endpointConflicts links)[link.name]? =
      if Valid link ∧
          conflictForClaimedEndpoints link (before.foldl Claims.consider {}).claimed ≠ "" then
        some (conflictForClaimedEndpoints link (before.foldl Claims.consider {}).claimed)
      else none := by
  rw [endpointConflicts, hsplit]
  exact conflicts_split (hsplit ▸ h.sorted.nodup)

theorem Wellnamed.nodup_valid : (validLinks (sortLinks links)).Nodup :=
  (List.Nodup.of_map _ h.sorted.nodup).filter _

theorem Wellnamed.accepted_iff (hlink : link ∈ links) :
    Accepted links link ↔ link ∈ greedy SharesEndpoint (validLinks (sortLinks links)) := by
  obtain ⟨before, after, hsplit, -⟩ := h.exists_split hlink
  obtain ⟨hclaimed, hnames, hshares⟩ := h.claimedBy_before hsplit
  rw [Accepted, h.conflicts_eq hsplit]
  by_cases hvalid : Valid link
  · have hfilter : validLinks (sortLinks links) =
        validLinks before ++ link :: validLinks after := by
      rw [hsplit, validLinks, filter_append, filter_cons_of_pos (by simpa using hvalid)]
    have hnodup := h.nodup_valid
    rw [hfilter] at hnodup ⊢
    rw [mem_greedy_iff hnodup, ← hclaimed.conflict_ne_iff hnames hshares]
    simp [hvalid]
  · refine iff_of_false (fun haccepted => hvalid haccepted.1) ?_
    intro hmem
    have hvalid' := (mem_filter.mp (mem_of_mem_greedy hmem)).2
    exact hvalid (by simpa using hvalid')

theorem Wellnamed.exists_owner (hlink : link ∈ links) {owner : String}
    (howner : (endpointConflicts links)[link.name]? = some owner) :
    ∃ other ∈ links, other.name = owner ∧ Accepted links other ∧ other.name < link.name ∧
      SharesEndpoint other link := by
  obtain ⟨before, after, hsplit, hless⟩ := h.exists_split hlink
  obtain ⟨hclaimed, -, hshares⟩ := h.claimedBy_before hsplit
  rw [h.conflicts_eq hsplit] at howner
  split at howner
  · next hconflict =>
    obtain ⟨other, hother, hname, hshared⟩ := hclaimed.exists_of_conflict hshares hconflict.2
    have hbefore : other ∈ before := (mem_filter.mp (mem_of_mem_greedy hother)).1
    have hmem : other ∈ links := by
      rw [← (perm_sortLinks links).mem_iff, hsplit]
      exact mem_append_left _ hbefore
    refine ⟨other, hmem, hname.trans (Option.some.inj howner), ?_, hless other hbefore, hshared⟩
    rw [h.accepted_iff hmem, hsplit, validLinks, filter_append, greedy, greedyFrom_append]
    exact mem_greedyFrom_of_mem hother
  · cases howner

theorem Wellnamed.not_sharesEndpoint {a b : Link} (ha : a ∈ links)
    (hb : b ∈ links) (haccepted : Accepted links a) (hbaccepted : Accepted links b) (hne : a ≠ b) :
    ¬SharesEndpoint a b := by
  have hpairwise : (greedy SharesEndpoint (validLinks (sortLinks links))).Pairwise
      fun a b => ¬SharesEndpoint a b := greedy_pairwise
  have hsymm : Std.Symm fun a b : Link => ¬SharesEndpoint a b := by
    constructor
    rintro a b hab ⟨endpoint, hmem, hmem', hhost⟩
    exact hab ⟨endpoint, hmem', hmem, hhost⟩
  exact hpairwise.forall ((h.accepted_iff ha).mp haccepted) ((h.accepted_iff hb).mp hbaccepted) hne

theorem Wellnamed.endpointConflicts_perm (hperm : links.Perm links') :
    endpointConflicts links' = endpointConflicts links := by
  rw [endpointConflicts, endpointConflicts, sortLinks_eq_of_perm h hperm]

theorem Wellnamed.endpointConflicts_erase (hlink : link ∈ links)
    (hrejected : ¬Accepted links link) {name : String} (hname : name ≠ link.name) :
    (endpointConflicts (links.erase link))[name]? = (endpointConflicts links)[name]? := by
  have hsorted := nameSorted_sortLinks h.nodup
  have hnodup : links.Nodup := List.Nodup.of_map _ h.nodup
  have hkept : (links.erase link).Perm
      ((sortLinks links).filter fun other => other.name ≠ link.name) := by
    have hfilter : links.erase link = links.filter fun other => other.name ≠ link.name := by
      rw [hnodup.erase_eq_filter]
      apply filter_congr
      intro other hother
      have hiff : other ≠ link ↔ other.name ≠ link.name :=
        ⟨mt fun heq => inj_on_of_nodup_map h.nodup hother hlink heq, mt fun heq => heq ▸ rfl⟩
      rw [Bool.eq_iff_iff]
      simpa using hiff
    rw [hfilter]
    exact (perm_sortLinks links).symm.filter _
  have hwell : Wellnamed (links.erase link) := h.sublist erase_sublist
  have hwhole : endpointConflicts (sortLinks links) = endpointConflicts links :=
    h.endpointConflicts_perm (perm_sortLinks links).symm
  rw [← hwell.endpointConflicts_perm hkept, ← hwhole]
  refine @endpointConflicts_filter (fun name => name ≠ link.name) _ name hsorted ?_
    (by simpa using hname)
  -- a Link that is not accepted owns nothing
  intro other hother _ owner howner
  rw [hwhole] at howner
  obtain ⟨accepted, hmem, rfl, haccepted, -⟩ :=
    h.exists_owner ((perm_sortLinks links).mem_iff.mp hother) howner
  simp only [ne_eq, decide_eq_true_eq]
  intro hsame
  rw [inj_on_of_nodup_map h.nodup hmem hlink hsame] at haccepted
  exact hrejected haccepted

end

theorem replaceNamed_eq_self (hnodup : (links.map Link.name).Nodup) (hlink : link ∈ links) :
    replaceNamed link links = links := by
  induction links with
  | nil => rfl
  | cons first rest ih =>
    rw [map_cons, nodup_cons] at hnodup
    rw [replaceNamed]
    split
    · next hname =>
      rcases mem_cons.mp hlink with rfl | hrest
      · rfl
      · exact absurd (hname ▸ mem_map_of_mem hrest) hnodup.1
    · next hname =>
      rcases mem_cons.mp hlink with rfl | hrest
      · exact absurd rfl hname
      · rw [ih hnodup.2 hrest]

theorem findEndpointConflict_eq (hnodup : (links.map Link.name).Nodup) (hlink : link ∈ links) :
    findEndpointConflict link links = (endpointConflicts links)[link.name]?.getD "" := by
  have hany : links.any (·.name = link.name) = true := any_eq_true.mpr ⟨link, hlink, by simp⟩
  rw [findEndpointConflict, if_pos hany, replaceNamed_eq_self hnodup hlink]

end

/-- Endpoint conflicts are resolved greedily in name order, and neither the order of the list nor a
Link that is not accepted matters to the others. -/
theorem endpoint_conflicts_greedy (h : Wellnamed links) :
    (∀ link ∈ links, Accepted links link ↔
      link ∈ greedy SharesEndpoint (validLinks (sortLinks links))) ∧
    (∀ a ∈ links, ∀ b ∈ links, Accepted links a → Accepted links b → a ≠ b → ¬SharesEndpoint a b) ∧
    (∀ link ∈ links, Valid link → ¬Accepted links link → ∃ other ∈ links,
      (endpointConflicts links)[link.name]? = some other.name ∧ Accepted links other ∧
        other.name < link.name ∧ SharesEndpoint other link) ∧
    (∀ links', links.Perm links' → endpointConflicts links' = endpointConflicts links) ∧
    (∀ link ∈ links, ¬Accepted links link → ∀ name, name ≠ link.name →
      (endpointConflicts (links.erase link))[name]? = (endpointConflicts links)[name]?) ∧
    ∀ link ∈ links,
      findEndpointConflict link links = (endpointConflicts links)[link.name]?.getD "" := by
  refine ⟨fun link hlink => h.accepted_iff hlink, fun a ha b hb => h.not_sharesEndpoint ha hb,
    ?_, fun links' => h.endpointConflicts_perm, fun link hlink hrejected name =>
      h.endpointConflicts_erase hlink hrejected, fun link => findEndpointConflict_eq h.nodup⟩
  intro link hlink hvalid hrejected
  cases hconflict : (endpointConflicts links)[link.name]? with
  | none => exact absurd ⟨hvalid, hconflict⟩ hrejected
  | some owner =>
    obtain ⟨other, hother, rfl, hrest⟩ := h.exists_owner hlink hconflict
    exact ⟨other, hother, rfl, hrest⟩

/-- A chain: the second Link loses to the first one and so does not stop the third. -/
def chainLinks : List Link :=
  [{ name := "c", spec := ⟨⟨"n2", "e2"⟩, ⟨"n3", "e1"⟩⟩ },
    { name := "b", spec := ⟨⟨"n1", "e1"⟩, ⟨"n2", "e2"⟩⟩ },
    { name := "a", spec := ⟨⟨"n1", "e1"⟩, ⟨"n2", "e1"⟩⟩ },
    { name := "d", spec := ⟨⟨"n4", "e1"⟩, ⟨"n4", "e1"⟩⟩ }]

theorem chainLinks_greedy :
    Wellnamed chainLinks ∧ chainLinks.filter (Accepted chainLinks) =
      [{ name := "c", spec := ⟨⟨"n2", "e2"⟩, ⟨"n3", "e1"⟩⟩ },
        { name := "a", spec := ⟨⟨"n1", "e1"⟩, ⟨"n2", "e1"⟩⟩ }] ∧
      ∀ links', chainLinks.Perm links' →
        endpointConflicts links' = endpointConflicts chainLinks := by
  have hwell : Wellnamed chainLinks := ⟨by decide, by decide, by decide⟩
  exact ⟨hwell, by decide +kernel, (endpoint_conflicts_greedy hwell).2.2.2.1⟩

end Clabernetes.Links
