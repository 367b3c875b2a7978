import Clabernetes.Links.Endpoints

/-!
# Endpoint conflicts

`util/containerlab/links.go:65-133`: Links claim their endpoints in name order and a Link that finds
an endpoint claimed is in conflict with its owner. The verdicts depend on the names and specs of the
Links only, and dropping Links that no other Link is in conflict with leaves the other verdicts as
they were.
-/

namespace Clabernetes.Links

open Base List GoMap

def endpointKey (endpoint : LinkEndpointSpec) : String :=
  endpoint.nodeName ++ ":" ++ endpoint.interfaceName

variable (link : Link)

def claimable : List String :=
  (link.spec.endpoints.filter fun endpoint => endpoint.nodeName != linkHostNodeName).map endpointKey

def ownerOf (claimed : GoMap String String) (key : String) : String := claimed[key]?.getD ""

def firstOwner (claimed : GoMap String String) : List String → String
  | [] => ""
  | key :: rest => if ownerOf claimed key ≠ "" then ownerOf claimed key else firstOwner claimed rest

def conflictForClaimedEndpoints (claimed : GoMap String String) : String :=
  firstOwner claimed (claimable link)

def claimLinkEndpoints (claimed : GoMap String String) : GoMap String String :=
  (claimable link).foldl (fun claimed key => claimed.insert key link.name) claimed

structure Claims where
  claimed : GoMap String String := ∅
  conflicts : GoMap String String := ∅

def Claims.consider (state : Claims) (candidate : Link) : Claims :=
  if (validateLink candidate).isOk then
    let conflict := conflictForClaimedEndpoints candidate state.claimed
    if conflict ≠ "" then
      { state with conflicts := state.conflicts.insert candidate.name conflict }
    else { state with claimed := claimLinkEndpoints candidate state.claimed }
  else state

def sortLinks (links : List Link) : List Link := links.insertionSort fun a b => a.name ≤ b.name

def endpointConflicts (links : List Link) : GoMap String String :=
  ((sortLinks links).foldl Claims.consider {}).conflicts

abbrev NameSorted (links : List Link) : Prop := links.Pairwise fun a b => a.name < b.name

variable {keep : String → Bool} {links : List Link} {keys : List String} {name : String}
  {link : Link}

theorem nameSorted_sortLinks (h : (links.map Link.name).Nodup) : NameSorted (sortLinks links) := by
  have : Std.Total fun a b : Link => a.name ≤ b.name := ⟨fun _ _ => Std.le_total⟩
  have : IsTrans Link fun a b => a.name ≤ b.name := ⟨fun _ _ _ => Std.le_trans⟩
  have hperm := perm_insertionSort (fun a b : Link => a.name ≤ b.name) links
  have hnodup : (sortLinks links).Pairwise fun a b => a.name ≠ b.name :=
    pairwise_map.mp ((hperm.map Link.name).nodup_iff.mpr h)
  exact ((pairwise_insertionSort (fun a b : Link => a.name ≤ b.name) links).and hnodup).imp
    fun h => Std.lt_of_le_of_ne h.1 h.2

theorem sortLinks_eq_self (h : NameSorted links) : sortLinks links = links :=
  List.Pairwise.insertionSort_eq (h.imp Std.le_of_lt)

theorem nameSorted_iff_map (links : List Link) :
    NameSorted links ↔ (links.map Link.name).Pairwise (· < ·) := pairwise_map.symm

theorem nodup_of_nameSorted (h : NameSorted links) : (links.map Link.name).Nodup :=
  pairwise_map.mpr (h.imp Std.ne_of_lt)

theorem ownerOf_claimLinkEndpoints (claimed : GoMap String String) (key : String) :
    ownerOf (claimLinkEndpoints link claimed) key =
      if key ∈ claimable link then link.name else ownerOf claimed key := by
  unfold claimLinkEndpoints
  induction claimable link generalizing claimed with
  | nil => simp
  | cons first rest ih =>
    rw [foldl_cons, ih]
    by_cases hrest : key ∈ rest
    · simp [hrest]
    · by_cases hfirst : first = key
      · subst hfirst
        simp [ownerOf, hrest]
      · simp [ownerOf, hrest, Ne.symm hfirst, lookup_insert, hfirst]

theorem ownerOf_eq_empty {claimed : GoMap String String} (h : firstOwner claimed keys = "") :
    ∀ key ∈ keys, ownerOf claimed key = "" := by
  induction keys with
  | nil => simp
  | cons first rest ih =>
    rw [firstOwner] at h
    split at h
    · next hne => exact absurd h hne
    · next heq =>
      rw [not_not] at heq
      simpa [heq] using ih h

/-- The loop over the kept Links, next to the loop over all of them: claims of dropped Links
are missing, the conflicts of kept Links agree. -/
structure Restricted (keep : String → Bool) (all kept : Claims) : Prop where
  owner : ∀ key, ownerOf kept.claimed key =
    if keep (ownerOf all.claimed key) then ownerOf all.claimed key else ""
  conflict : ∀ name, keep name = true → kept.conflicts[name]? = all.conflicts[name]?

variable {all kept : Claims}

section

variable (h : Restricted keep all kept)

include h

theorem Restricted.firstOwner_eq
    (hkeep : firstOwner all.claimed keys ≠ "" → keep (firstOwner all.claimed keys) = true) :
    firstOwner kept.claimed keys = firstOwner all.claimed keys := by
  induction keys with
  | nil => rfl
  | cons key rest ih =>
    by_cases hown : ownerOf all.claimed key = ""
    · have hown' : ownerOf kept.claimed key = "" := by rw [h.owner, hown, ite_self]
      simp only [firstOwner, hown, hown', ne_eq, not_true_eq_false, if_false] at hkeep ⊢
      exact ih hkeep
    · simp only [firstOwner, ne_eq, hown, not_false_eq_true, if_true] at hkeep ⊢
      have hkept := hkeep trivial
      rw [h.owner, if_pos hkept, if_pos hown]

theorem Restricted.drop (hdrop : keep link.name = false) :
    Restricted keep (all.consider link) kept := by
  unfold Claims.consider
  split
  · dsimp only
    split
    · refine ⟨h.owner, fun name hname => ?_⟩
      rw [h.conflict name hname, lookup_insert, if_neg]
      rintro rfl
      rw [hdrop] at hname
      cases hname
    · next hfree =>
      rw [not_not] at hfree
      refine ⟨fun key => ?_, h.conflict⟩
      rw [ownerOf_claimLinkEndpoints]
      split
      · next hmem => rw [h.owner, ownerOf_eq_empty hfree key hmem, hdrop, ite_self]; rfl
      · exact h.owner key
  · exact h

theorem Restricted.consider (hkeep : keep link.name = true)
    (hconflict : ∀ owner, (all.consider link).conflicts[link.name]? = some owner →
      keep owner = true) : Restricted keep (all.consider link) (kept.consider link) := by
  unfold Claims.consider at hconflict ⊢
  split
  · next hvalid =>
    rw [if_pos hvalid] at hconflict
    dsimp only at hconflict ⊢
    have hsame : conflictForClaimedEndpoints link kept.claimed =
        conflictForClaimedEndpoints link all.claimed := by
      refine h.firstOwner_eq fun hne => hconflict _ ?_
      rw [← conflictForClaimedEndpoints] at hne ⊢
      rw [if_pos hne]
      simp
    rw [hsame]
    split
    · refine ⟨h.owner, fun name hname => ?_⟩
      simp only [lookup_insert, h.conflict name hname]
    · refine ⟨fun key => ?_, h.conflict⟩
      simp only [ownerOf_claimLinkEndpoints]
      split
      · rfl
      · exact h.owner key
  · exact h

end

theorem conflicts_foldl_of_notMem (h : name ∉ links.map Link.name) (state : Claims) :
    (links.foldl Claims.consider state).conflicts[name]? = state.conflicts[name]? := by
  induction links generalizing state with
  | nil => rfl
  | cons link rest ih =>
    simp only [map_cons, mem_cons, not_or] at h
    rw [foldl_cons, ih h.2]
    unfold Claims.consider
    split
    · dsimp only
      split
      · rw [lookup_insert, if_neg (Ne.symm h.1)]
      · rfl
    · rfl

theorem Restricted.foldl (hnames : (links.map Link.name).Nodup) (h : Restricted keep all kept)
    (hkeep : ∀ link ∈ links, keep link.name = true → ∀ owner,
      (links.foldl Claims.consider all).conflicts[link.name]? = some owner → keep owner = true) :
    Restricted keep (links.foldl Claims.consider all)
      ((links.filter fun link => keep link.name).foldl Claims.consider kept) := by
  induction links generalizing all kept with
  | nil => exact h
  | cons link rest ih =>
    rw [map_cons, nodup_cons] at hnames
    rw [foldl_cons] at hkeep ⊢
    have hrest := fun other hmem => hkeep other (mem_cons_of_mem _ hmem)
    by_cases hlink : keep link.name = true
    · rw [filter_cons, if_pos hlink, foldl_cons]
      refine ih hnames.2 (h.consider hlink fun owner howner => ?_) hrest
      refine hkeep link mem_cons_self hlink owner ?_
      rwa [conflicts_foldl_of_notMem hnames.1]
    · rw [filter_cons, if_neg hlink]
      exact ih hnames.2 (h.drop (by simpa using hlink)) hrest

theorem endpointConflicts_filter (hsorted : NameSorted links)
    (hkeep : ∀ link ∈ links, keep link.name = true → ∀ owner,
      (endpointConflicts links)[link.name]? = some owner → keep owner = true)
    (hname : keep name = true) :
    (endpointConflicts (links.filter fun link => keep link.name))[name]? =
      (endpointConflicts links)[name]? := by
  have hstart : Restricted keep {} {} := ⟨fun key => by simp [ownerOf], fun _ _ => rfl⟩
  unfold endpointConflicts at hkeep ⊢
  rw [sortLinks_eq_self hsorted] at hkeep ⊢
  rw [sortLinks_eq_self (hsorted.sublist filter_sublist)]
  exact (hstart.foldl (nodup_of_nameSorted hsorted) hkeep).conflict name hname

end Clabernetes.Links
