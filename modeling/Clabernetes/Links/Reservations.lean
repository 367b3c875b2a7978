import Mathlib.Data.List.Induction
import Clabernetes.Base.OwnerTable
import Clabernetes.Links.Endpoints

/-!
# Wire id reservations

`controllers/link/allocate.go:110-177`: the table of the wire ids held in a namespace during one
pass. Its meaning is the list of Links in memory: it owns exactly the positive ids of that list
(`Tracks`), and every operation keeps it so.
-/

namespace Clabernetes.Links

open Base Std List OwnerTable

def maxWireID : Int := 16000000

def Link.key (ns : String) (link : Link) : String := ns ++ "/" ++ link.name

structure WireReservations where
  owners : OwnerTable Int String := ∅
  next : Int := 1

namespace WireReservations

def release (r : WireReservations) (key : String) (previous : Int) : WireReservations where
  owners := r.owners.remove previous key
  next := if ((r.owners.owners previous).erase key).size = 0 then min r.next previous else r.next

def record (ns : String) (r : WireReservations) (link : Link) (previous : Int) : WireReservations :=
  if previous = link.status.wireID then r
  else
    let released := if 0 < previous then r.release (link.key ns) previous else r
    if 0 < link.status.wireID then
      { released with owners := released.owners.add link.status.wireID (link.key ns) }
    else released

def ofLinks (ns : String) (links : List Link) : WireReservations :=
  links.foldl (fun r link => r.record ns link 0) {}

/-- The loop of `:167-173`: the first id from `id` on that is free for the key. -/
def search (owners : OwnerTable Int String) (key : String) : Nat → Int → Option Int
  | 0, _ => none
  | count + 1, id => if owners.freeFor id key then some id else search owners key count (id + 1)

def contested (ns : String) (r : WireReservations) (link : Link) : Bool :=
  (r.owners.owners link.status.wireID).anyEntry fun owner _ => decide (owner < link.key ns)

def desired (ns : String) (r : WireReservations) (nodes : Nodes) (link : Link) :
    Except String (Int × WireReservations) :=
  if isLocalLink nodes link then .ok (0, r)
  else if 1 ≤ link.status.wireID ∧ link.status.wireID ≤ maxWireID ∧ r.contested ns link = false then
    .ok (link.status.wireID, r)
  else match search r.owners (link.key ns) (maxWireID + 1 - r.next).toNat r.next with
    | some id => .ok (id, { r with next := id })
    | none => .error (errInvalidData ++ ": no wire ids remain in range 1-" ++ toString maxWireID)

end WireReservations

theorem append_lt_append_iff (s t u : String) : s ++ t < s ++ u ↔ t < u := by
  rw [String.lt_iff, String.lt_iff, String.toList_append, String.toList_append]
  induction s.toList with
  | nil => rfl
  | cons c cs ih => simpa using ih

theorem key_lt_key_iff (ns : String) (a b : Link) : a.key ns < b.key ns ↔ a.name < b.name :=
  append_lt_append_iff _ _ _

theorem key_eq_key_iff (ns : String) (a b : Link) : a.key ns = b.key ns ↔ a.name = b.name := by
  simp [Link.key]

/-- The table owns exactly the positive ids of the Links, and the search starts at a positive
id. -/
structure Tracks (ns : String) (r : WireReservations) (links : List Link) : Prop where
  owns : ∀ id key, r.owners.Owns id key ↔
    0 < id ∧ ∃ link ∈ links, link.key ns = key ∧ link.status.wireID = id
  next : 1 ≤ r.next

def Link.withStatus (link : Link) (status : LinkStatus) : Link := { link with status }

@[simp] theorem key_withStatus (ns : String) (link : Link) (status : LinkStatus) :
    (link.withStatus status).key ns = link.key ns := rfl

@[simp] theorem status_withStatus (link : Link) (status : LinkStatus) :
    (link.withStatus status).status = status := rfl

@[simp] theorem name_withStatus (link : Link) (status : LinkStatus) :
    (link.withStatus status).name = link.name := rfl

namespace WireReservations

theorem owns_release (r : WireReservations) (k key : String) (previous id : Int) :
    (r.release k previous).owners.Owns id key ↔
      r.owners.Owns id key ∧ ¬ (id = previous ∧ key = k) :=
  owns_remove r.owners previous id k key

theorem owns_record (ns : String) (r : WireReservations) (link : Link) (previous id : Int)
    (key : String) (h : previous ≠ link.status.wireID) :
    (r.record ns link previous).owners.Owns id key ↔
      (r.owners.Owns id key ∧ ¬ (0 < previous ∧ id = previous ∧ key = link.key ns)) ∨
        (0 < link.status.wireID ∧ id = link.status.wireID ∧ key = link.key ns) := by
  rw [record, if_neg h]
  by_cases hprevious : 0 < previous <;> by_cases hid : 0 < link.status.wireID <;>
    simp [hprevious, hid, owns_add, owns_release]

theorem next_record (ns : String) (r : WireReservations) (link : Link) (previous : Int)
    (h : 1 ≤ r.next) : 1 ≤ (r.record ns link previous).next := by
  have hreleased : 1 ≤ (if 0 < previous then r.release (link.key ns) previous else r).next := by
    split
    · rw [release]
      split <;> simp only <;> omega
    · exact h
  unfold record
  split
  · exact h
  · dsimp only
    by_cases hid : 0 < link.status.wireID
    · rwa [if_pos hid]
    · rwa [if_neg hid]

end WireReservations

variable {r : WireReservations}

variable {ns : String} {link : Link}

/-- Recording a Link's new id in the table is writing its new status in memory. -/
theorem tracks_record {done rest : List Link}
    (hnames : ((done ++ link :: rest).map Link.name).Nodup) (h : Tracks ns r (done ++ link :: rest))
    (status : LinkStatus) : Tracks ns (r.record ns (link.withStatus status) link.status.wireID)
      (done ++ link.withStatus status :: rest) := by
  refine ⟨fun id key => ?_, r.next_record ns _ _ h.next⟩
  have howns := h.owns id key
  -- the other Links have other keys, so the table's entry at this key is this Link's own
  have hother : ∀ other ∈ done ++ rest, other.key ns ≠ link.key ns := by
    intro other hmem
    rw [Ne, key_eq_key_iff]
    exact key_ne_of_nodup_middle hnames hmem
  by_cases hsame : link.status.wireID = status.wireID
  · have hrecord : r.record ns (link.withStatus status) link.status.wireID = r := if_pos hsame
    rw [hrecord, howns]
    simp only [mem_append, mem_cons, or_and_right, exists_or, exists_eq_left,
      key_withStatus, status_withStatus, hsame]
  · rw [WireReservations.owns_record ns r (link.withStatus status) link.status.wireID id key hsame,
      howns]
    simp only [mem_append, mem_cons, or_and_right, exists_or, exists_eq_left,
      key_withStatus, status_withStatus] at hother ⊢
    grind

theorem tracks_ofLinks (ns : String) (links : List Link) (hnames : (links.map Link.name).Nodup) :
    Tracks ns (.ofLinks ns links) links := by
  induction links using List.reverseRecOn with
  | nil =>
    exact ⟨fun id key => by simp [WireReservations.ofLinks, not_owns_empty], le_rfl⟩
  | append_singleton links link ih =>
    have hbefore := ih (by rw [map_append] at hnames; exact hnames.of_append_left)
    -- a Link that holds no id yet does not show in the table
    have hunseen : Tracks ns (.ofLinks ns links) (links ++ [link.withStatus {}]) := by
      refine ⟨fun id key => ?_, hbefore.next⟩
      rw [hbefore.owns]
      simp only [mem_append, mem_singleton, or_and_right, exists_or, exists_eq_left,
        status_withStatus]
      grind
    have hstep := tracks_record (by simpa using hnames) hunseen link.status
    simpa [WireReservations.ofLinks, foldl_append, Link.withStatus] using hstep

/-- What is known of the id that a cross-Pod Link is given among the Links in memory. -/
structure Granted (links : List Link) (link : Link) (id : Int) : Prop where
  range : 1 ≤ id ∧ id ≤ maxWireID
  clash : ∀ other ∈ links, other.name ≠ link.name → other.status.wireID = id →
    id = link.status.wireID ∧ link.name < other.name
  kept : 1 ≤ link.status.wireID → link.status.wireID ≤ maxWireID →
    (∀ other ∈ links, other.name < link.name → other.status.wireID ≠ link.status.wireID) →
    id = link.status.wireID

namespace WireReservations

theorem search_spec {owners : OwnerTable Int String} {key : String} {count : Nat} {start : Int} :
    match search owners key count start with
    | some id => start ≤ id ∧ id < start + count ∧ owners.freeFor id key = true ∧
        ∀ i, start ≤ i → i < id → owners.freeFor i key = false
    | none => ∀ i, start ≤ i → i < start + count → owners.freeFor i key = false := by
  induction count generalizing start with
  | zero => exact fun i hlow hhigh => by omega
  | succ count ih =>
    rw [search]
    split_ifs with hfree
    · exact ⟨le_rfl, by omega, hfree, fun i hlow hhigh => by omega⟩
    · have hstart : ∀ i, start ≤ i → ¬start + 1 ≤ i → owners.freeFor i key = false := by
        intro i hlow hnot
        rw [show i = start by omega, Bool.eq_false_iff]
        exact hfree
      have hrest := @ih (start + 1)
      split at hrest
      · obtain ⟨hlow, hhigh, hid, hbefore⟩ := hrest
        exact ⟨by omega, by push_cast; omega, hid, fun i hi hlt =>
          (em (start + 1 ≤ i)).elim (hbefore i · hlt) (hstart i hi)⟩
      · exact fun i hi hlt =>
          (em (start + 1 ≤ i)).elim (hrest i · (by push_cast at hlt; omega)) (hstart i hi)

variable {links : List Link} {nodes : Nodes}

theorem contested_iff (h : Tracks ns r links) (link : Link) :
    r.contested ns link = true ↔ 0 < link.status.wireID ∧
      ∃ other ∈ links, other.name < link.name ∧ other.status.wireID = link.status.wireID := by
  have howns : ∀ key, (r.owners.owners link.status.wireID)[key]? = some () ↔
      r.owners.Owns link.status.wireID key := by
    intro key
    rw [OwnerTable.Owns, ExtTreeMap.mem_iff_isSome_getElem?, Option.isSome_iff_exists]
    exact ⟨fun h => ⟨(), h⟩, fun h => h.choose_spec⟩
  simp only [contested, GoMap.anyEntry_iff, decide_eq_true_eq, howns, h.owns]
  constructor
  · rintro ⟨key, -, ⟨hpos, other, hmem, rfl, hid⟩, hlt⟩
    exact ⟨hpos, other, hmem, (key_lt_key_iff ns other link).mp hlt, hid⟩
  · rintro ⟨hpos, other, hmem, hlt, hid⟩
    exact ⟨other.key ns, (), ⟨hpos, other, hmem, rfl, hid⟩, (key_lt_key_iff ns other link).mpr hlt⟩

theorem desired_of_isLocalLink (ns : String) (r : WireReservations)
    (h : isLocalLink nodes link = true) : r.desired ns nodes link = .ok (0, r) := by
  rw [desired, if_pos h]

theorem desired_of_uncontested (htracks : Tracks ns r links)
    (hcross : isLocalLink nodes link = false)
    (hrange : 1 ≤ link.status.wireID ∧ link.status.wireID ≤ maxWireID)
    (h : ∀ other ∈ links, other.name < link.name → other.status.wireID ≠ link.status.wireID) :
    r.desired ns nodes link = .ok (link.status.wireID, r) := by
  have hcontested : r.contested ns link = false := by
    rw [← Bool.not_eq_true, contested_iff htracks]
    rintro ⟨-, other, hmem, hlt, hid⟩
    exact h other hmem hlt hid
  rw [desired, if_neg (by rw [hcross]; decide), if_pos ⟨hrange.1, hrange.2, hcontested⟩]

/-- What the table grants a cross-Pod Link; the table goes on tracking the same Links. -/
theorem desired_granted {r' : WireReservations} (htracks : Tracks ns r links) {id : Int}
    (hcross : isLocalLink nodes link = false) (h : r.desired ns nodes link = .ok (id, r')) :
    Granted links link id ∧ Tracks ns r' links := by
  rw [desired, if_neg (by rw [hcross]; decide)] at h
  split at h
  · next hkeep =>
    obtain ⟨hlow, hhigh, hcontested⟩ := hkeep
    cases h
    refine ⟨⟨⟨hlow, hhigh⟩, fun other hmem hne hid => ⟨rfl, ?_⟩, fun _ _ _ => rfl⟩, htracks⟩
    rw [← Bool.not_eq_true, contested_iff htracks] at hcontested
    exact hne.symm.lt_of_le
      (le_of_not_gt fun hlt => hcontested ⟨by omega, other, hmem, hlt, hid⟩)
  · next hlose =>
    split at h
    · next id' hsearch =>
      cases h
      have hspec := @search_spec r.owners (link.key ns) (maxWireID + 1 - r.next).toNat r.next
      rw [hsearch] at hspec
      obtain ⟨hlow, hhigh, hfree, -⟩ := hspec
      have hnext := htracks.next
      have hrange : 1 ≤ id ∧ id ≤ maxWireID := by omega
      refine ⟨⟨hrange, fun other hmem hne hid => ?_, fun hlow' hhigh' hfirst => ?_⟩,
        htracks.owns, hrange.1⟩
      · have howns := (htracks.owns id (other.key ns)).mpr ⟨by omega, other, hmem, rfl, hid⟩
        have hkey := freeFor_iff.mp hfree _ howns
        exact absurd ((key_eq_key_iff ns other link).mp hkey) hne
      · refine absurd ⟨hlow', hhigh', ?_⟩ hlose
        rw [← Bool.not_eq_true, contested_iff htracks]
        rintro ⟨-, other, hmem, hlt, hid⟩
        exact hfirst other hmem hlt hid
    · cases h

end WireReservations

end Clabernetes.Links
