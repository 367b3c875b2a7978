import Mathlib.Order.Bounds.Basic
import Clabernetes.Links.Reservations

/-!
# The cursor of the wire ids

`controllers/link/allocate.go:113-177`. The search for an id starts at a cursor that requests move
forward and releases move back. It finds what a scan of all ids would find.
-/

namespace Clabernetes.Links

open Base Std List OwnerTable

namespace WireReservations

/-- What recording the ids of a namespace's Links, writing new ones and requesting ids leads to. A
request that finds none leaves the cursor behind the last id. -/
inductive Reached (ns : String) : WireReservations → List Link → Prop
  | start {links : List Link} (hnames : (links.map Link.name).Nodup) :
    Reached ns (.ofLinks ns links) links
  | record {r : WireReservations} {done rest : List Link} {link : Link} (status : LinkStatus)
    (h : Reached ns r (done ++ link :: rest)) :
    Reached ns (r.record ns (link.withStatus status) link.status.wireID)
      (done ++ link.withStatus status :: rest)
  | request {r r' : WireReservations} {links : List Link} {nodes : Nodes} {link : Link} {id : Int}
    (h : Reached ns r links) (hdesired : r.desired ns nodes link = .ok (id, r')) :
    Reached ns r' links
  | exhausted {r : WireReservations} {links : List Link} {nodes : Nodes} {link : Link}
    {err : String} (h : Reached ns r links) (hdesired : r.desired ns nodes link = .error err) :
    Reached ns { r with next := maxWireID + 1 } links

/-- No id below the cursor is free. -/
structure Covered (r : WireReservations) : Prop where
  below : ∀ id, 1 ≤ id → id < r.next → ∃ key, r.owners.Owns id key
  next_le : r.next ≤ maxWireID + 1

variable {ns : String} {r : WireReservations} {links : List Link}

theorem Covered.release (h : r.Covered) (k : String) (previous : Int) :
    (r.release k previous).Covered := by
  have hle : (r.release k previous).next ≤ r.next := by
    rw [WireReservations.release]
    dsimp only
    split <;> omega
  refine ⟨fun id hlow hlt => ?_, hle.trans h.next_le⟩
  obtain ⟨key, hkey⟩ := h.below id hlow (hlt.trans_le hle)
  by_cases hgone : id = previous ∧ key = k
  · -- the id lost this owner, and had another one unless the cursor moved back to it
    obtain ⟨rfl, rfl⟩ := hgone
    have hsize : ((r.owners.owners id).erase key).size ≠ 0 := by
      intro hzero
      simp only [WireReservations.release, hzero, if_true] at hlt
      omega
    rw [← ExtTreeMap.length_keys] at hsize
    obtain ⟨other, hmem⟩ := exists_mem_of_length_pos (Nat.pos_of_ne_zero hsize)
    refine ⟨other, ?_⟩
    rw [OwnerTable.Owns, WireReservations.release, owners_remove, if_pos rfl]
    exact ExtTreeMap.mem_keys.mp hmem
  · exact ⟨key, (owns_release r k key previous id).mpr ⟨hkey, hgone⟩⟩

theorem Covered.record (h : r.Covered) (link : Link) (previous : Int) :
    (r.record ns link previous).Covered := by
  have hreleased := h.release (link.key ns) previous
  have hadd : ∀ {r : WireReservations} id key, r.Covered →
      Covered { r with owners := r.owners.add id key } := fun id key h =>
    ⟨fun i hlow hlt => (h.below i hlow hlt).imp fun _ hkey =>
      (owns_add ..).mpr (.inl hkey), h.next_le⟩
  unfold WireReservations.record
  split_ifs
  · exact h
  · exact hadd _ _ hreleased
  · exact hreleased
  · exact hadd _ _ h
  · exact h

theorem covered_ofLinks (ns : String) (links : List Link) : (ofLinks ns links).Covered := by
  induction links using List.reverseRecOn with
  | nil =>
    exact ⟨fun id hlow hlt => absurd hlt hlow.not_gt, show (1 : Int) ≤ maxWireID + 1 by decide⟩
  | append_singleton links link ih =>
    rw [ofLinks, foldl_append]
    exact ih.record link 0

/-- What a search from the cursor on leaves out is owned. -/
theorem Covered.owned (h : r.Covered) {key : String} {bound : Int}
    (hsearch : ∀ i, r.next ≤ i → i < bound → r.owners.freeFor i key = false) (id : Int)
    (hlow : 1 ≤ id) (hlt : id < bound) : ∃ key, r.owners.Owns id key := by
  rcases lt_or_ge id r.next with hbelow | hfrom
  · exact h.below id hlow hbelow
  · by_contra hnone
    have hfree := hsearch id hfrom hlt
    rw [freeFor_iff.mpr fun b howns => absurd ⟨b, howns⟩ hnone] at hfree
    cases hfree

variable {nodes : Nodes} {link : Link}

theorem Covered.desired (h : r.Covered) {id : Int} {r' : WireReservations}
    (hdesired : r.desired ns nodes link = .ok (id, r')) : r'.Covered := by
  unfold WireReservations.desired at hdesired
  split_ifs at hdesired
  · cases hdesired
    exact h
  · cases hdesired
    exact h
  · have hspec := @search_spec r.owners (link.key ns) (maxWireID + 1 - r.next).toNat r.next
    have hle := h.next_le
    split at hdesired
    · next id' hsearch =>
      cases hdesired
      rw [hsearch] at hspec
      obtain ⟨-, hhigh, -, hbefore⟩ := hspec
      exact ⟨h.owned hbefore, show id ≤ maxWireID + 1 by omega⟩
    · cases hdesired

theorem Covered.exhausted (h : r.Covered) {err : String}
    (hdesired : r.desired ns nodes link = .error err) (id : Int) (hlow : 1 ≤ id)
    (hlt : id < maxWireID + 1) : ∃ key, r.owners.Owns id key := by
  unfold WireReservations.desired at hdesired
  split_ifs at hdesired
  have hspec := @search_spec r.owners (link.key ns) (maxWireID + 1 - r.next).toNat r.next
  split at hdesired
  · cases hdesired
  · next hsearch =>
    rw [hsearch] at hspec
    exact h.owned (fun i hfrom hlt => hspec i hfrom (by omega)) id hlow hlt

theorem Reached.invariant (h : Reached ns r links) :
    (links.map Link.name).Nodup ∧ Tracks ns r links ∧ r.Covered := by
  induction h with
  | start hnames => exact ⟨hnames, tracks_ofLinks ns _ hnames, covered_ofLinks ns _⟩
  | record status _ ih =>
    obtain ⟨hnames, htracks, hcovered⟩ := ih
    exact ⟨by simpa using hnames, tracks_record hnames htracks status, hcovered.record _ _⟩
  | @request r r' _ nodes link _ _ hdesired ih =>
    obtain ⟨hnames, htracks, hcovered⟩ := ih
    refine ⟨hnames, ?_, hcovered.desired hdesired⟩
    cases hlocal : isLocalLink nodes link with
    | true =>
      rw [desired_of_isLocalLink _ _ hlocal] at hdesired
      cases hdesired
      exact htracks
    | false => exact (desired_granted htracks hlocal hdesired).2
  | exhausted _ hdesired ih =>
    obtain ⟨hnames, htracks, hcovered⟩ := ih
    exact ⟨hnames, ⟨htracks.owns, show 1 ≤ maxWireID + 1 by decide⟩,
      hcovered.exhausted hdesired, le_rfl⟩

/-- What is below the cursor belongs to another Link than one that gives up its id. -/
theorem Reached.not_freeFor (h : Reached ns r links) (hlink : link ∈ links)
    (hlose : ¬(1 ≤ link.status.wireID ∧ link.status.wireID ≤ maxWireID ∧
      r.contested ns link = false)) (id : Int) (hlow : 1 ≤ id) (hlt : id < r.next) :
    r.owners.freeFor id (link.key ns) = false := by
  obtain ⟨hnames, htracks, hcovered⟩ := h.invariant
  rw [Bool.eq_false_iff]
  intro hfree
  have honly : ∀ key, r.owners.Owns id key → key = link.key ns :=
    freeFor_iff.mp hfree
  obtain ⟨key, hkey⟩ := hcovered.below id hlow hlt
  obtain ⟨-, other, hmem, hother, rfl⟩ := (htracks.owns id key).mp hkey
  have hname := (key_eq_key_iff ns other link).mp (hother.trans (honly key hkey))
  obtain rfl : other = link := inj_on_of_nodup_map hnames hmem hlink hname
  have hnext := hcovered.next_le
  refine hlose ⟨hlow, by omega, ?_⟩
  rw [← Bool.not_eq_true, contested_iff htracks]
  rintro ⟨-, first, hfirst, hless, hsame⟩
  have howns := (htracks.owns _ (first.key ns)).mpr ⟨hlow, first, hfirst, rfl, hsame⟩
  exact hless.ne ((key_eq_key_iff ns first other).mp (honly _ howns))

/-- The cursor is behind ids that are owned, so that a request that gives up its own id gets the
least id that no other Link owns, and fails only if every id is owned. -/
theorem lowest_free_wire_id (ns : String) (r : WireReservations) (links : List Link)
    (h : Reached ns r links) :
    (∀ id, 1 ≤ id → id < r.next → ∃ key, r.owners.Owns id key) ∧
      ∀ (nodes : Nodes) (link : Link), link ∈ links → isLocalLink nodes link = false →
        (∀ id r', r.desired ns nodes link = .ok (id, r') →
          (1 ≤ link.status.wireID ∧ link.status.wireID ≤ maxWireID ∧
            r.contested ns link = false) ∧ id = link.status.wireID ∨
          IsLeast {i | 1 ≤ i ∧ i ≤ maxWireID ∧ ∀ key, r.owners.Owns i key → key = link.key ns}
            id) ∧
        ∀ err, r.desired ns nodes link = .error err →
          ∀ id, 1 ≤ id → id ≤ maxWireID → ∃ key, r.owners.Owns id key := by
  obtain ⟨-, htracks, hcovered⟩ := h.invariant
  refine ⟨hcovered.below, fun nodes link hlink hcross => ⟨fun id r' hdesired => ?_,
    fun err hdesired id hlow hle => hcovered.exhausted hdesired id hlow (by omega)⟩⟩
  rw [WireReservations.desired, if_neg (by rw [hcross]; decide)] at hdesired
  split at hdesired
  · next hkeep =>
    cases hdesired
    exact .inl ⟨hkeep, rfl⟩
  · next hlose =>
    have hspec := @search_spec r.owners (link.key ns) (maxWireID + 1 - r.next).toNat r.next
    have hnext := htracks.next
    split at hdesired
    · next id' hsearch =>
      cases hdesired
      rw [hsearch] at hspec
      obtain ⟨hlow, hhigh, hfree, hbefore⟩ := hspec
      refine .inr ⟨⟨hnext.trans hlow, by omega, freeFor_iff.mp hfree⟩, ?_⟩
      rintro i ⟨hi, -, honly⟩
      by_contra hlt
      refine Bool.eq_false_iff.mp ?_ (freeFor_iff.mpr honly)
      rcases lt_or_ge i r.next with hbelow | hfrom
      · exact h.not_freeFor hlink hlose i hi hbelow
      · exact hbefore i hfrom (lt_of_not_ge hlt)
    · cases hdesired

/-- The first Link holds the first id. -/
def twoLinks : List Link :=
  [{ name := "a", spec := ⟨⟨"n1", "e1"⟩, ⟨"n2", "e1"⟩⟩, status := { wireID := 1 } },
    { name := "b", spec := ⟨⟨"n1", "e2"⟩, ⟨"n2", "e2"⟩⟩ }]

theorem lowest_free_wire_id_two :
    ∃ key, ({ ofLinks "lab" twoLinks with next := 2 } : WireReservations).owners.Owns 1 key := by
  have hdesired : (ofLinks "lab" twoLinks).desired "lab" ∅ twoLinks[1] =
      .ok (2, { ofLinks "lab" twoLinks with next := 2 }) := rfl
  exact (lowest_free_wire_id "lab" _ twoLinks (.request (.start (by decide)) hdesired)).1 1
    (by decide) (by decide)

end WireReservations

end Clabernetes.Links
