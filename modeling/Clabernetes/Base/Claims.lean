import Mathlib.Data.List.Induction
import Clabernetes.Base.GoMap
import Clabernetes.Base.Interrupted

/-!
# Claims on keys

A loop lets each entry claim at most one key in a table of owner names and fails when somebody else
has claimed it before. It succeeds exactly when no two entries claim the same key, and then the
table says who claims what: neither depends on the order of the entries.
-/

namespace Clabernetes.Base

open Std List Option

variable {ε κ φ : Type} [Ord κ] [TransOrd κ] {entries : List ε}

def claimant (table : GoMap κ String) (key : κ) : String := table[key]?.getD ""

structure Claiming (name : ε → String) (key : ε → Option κ)
    (step : GoMap κ String → ε → Except φ (GoMap κ String)) : Prop where
  skip : ∀ table e, key e = none → step table e = .ok table
  free : ∀ table e k, key e = some k → claimant table k = "" →
    step table e = .ok (table.insert k (name e))
  taken : ∀ table e k, key e = some k → claimant table k ≠ "" → claimant table k ≠ name e →
    ∃ err, step table e = .error err

def DisjointClaims (key : ε → Option κ) (entries : List ε) : Prop :=
  entries.Pairwise fun a b => ∀ k, key a = some k → key b ≠ some k

def HoldsClaims (name : ε → String) (key : ε → Option κ) (table : GoMap κ String)
    (entries : List ε) : Prop :=
  ∀ (k : κ) (owner : String), table[k]? = some owner ↔
    ∃ e ∈ entries, key e = some k ∧ name e = owner

omit [Ord κ] [TransOrd κ] in
theorem disjointClaims_perm {key : ε → Option κ} {entries' : List ε} (hperm : entries.Perm entries')
    : DisjointClaims key entries ↔ DisjointClaims key entries' :=
  hperm.pairwise_iff fun h k hb ha => h k ha hb

section

variable {name : ε → String} {key : ε → Option κ}
  {step : GoMap κ String → ε → Except φ (GoMap κ String)} {table : GoMap κ String} {e : ε} {k : κ}

section

variable (h : HoldsClaims name key table entries)

include h

theorem claimant_eq_of_holds (hmem : e ∈ entries)
    (hkey : key e = some k) : claimant table k = name e := by
  rw [claimant, (h k (name e)).mpr ⟨e, hmem, hkey, rfl⟩, getD_some]

theorem claimant_eq_empty_of_holds (hfree : ∀ e ∈ entries, key e ≠ some k) :
    claimant table k = "" := by
  rw [claimant]
  cases howner : table[k]? with
  | none => rfl
  | some owner =>
    obtain ⟨e, hmem, hkey, -⟩ := (h k owner).mp howner
    exact absurd hkey (hfree e hmem)

theorem holds_skip (hkey : key e = none) : HoldsClaims name key table (entries ++ [e]) := by
  intro k owner
  rw [h k owner]
  simp [or_and_right, exists_or, hkey]

end

variable [LawfulEqOrd κ]

theorem holds_insert [DecidableEq κ] (h : HoldsClaims name key table entries)
    (hkey : key e = some k) (hfree : ∀ d ∈ entries, key d ≠ some k) :
    HoldsClaims name key (table.insert k (name e)) (entries ++ [e]) := by
  intro k' owner
  rw [GoMap.lookup_insert]
  simp only [mem_append, mem_singleton, or_and_right, exists_or, exists_eq_left, hkey, some.injEq]
  split
  · next heq =>
    subst heq
    constructor
    · intro howner
      exact .inr ⟨rfl, some.inj howner⟩
    · rintro (⟨d, hmem, hd, -⟩ | ⟨-, howner⟩)
      · exact absurd hd (hfree d hmem)
      · rw [howner]
  · next hne => rw [h k' owner, or_iff_left fun hk => hne hk.1]

theorem Claiming.one [DecidableEq κ] (hstep : Claiming name key step)
    (h : HoldsClaims name key table entries) (hnames : ∀ d ∈ entries, name d ≠ name e)
    (hempty : ∀ d ∈ entries, name d ≠ "") : (∀ table', step table e = .ok table' →
      (∀ d ∈ entries, ∀ k, key d = some k → key e ≠ some k) ∧
        HoldsClaims name key table' (entries ++ [e])) ∧
      ((∀ d ∈ entries, ∀ k, key d = some k → key e ≠ some k) →
        ∃ table', step table e = .ok table') := by
  cases hkey : key e with
  | none =>
    have hskip := hstep.skip table e hkey
    refine ⟨fun table' hok => ⟨by simp, ?_⟩, fun _ => ⟨table, hskip⟩⟩
    rw [hskip, Except.ok.injEq] at hok
    subst hok
    exact holds_skip h hkey
  | some k =>
    by_cases hfree : ∀ d ∈ entries, key d ≠ some k
    · have hok := hstep.free table e k hkey (claimant_eq_empty_of_holds h hfree)
      refine ⟨fun table' hok' => ⟨?_, ?_⟩, fun _ => ⟨_, hok⟩⟩
      · intro d hmem k' hd heq
        rw [some.injEq] at heq
        exact hfree d hmem (heq ▸ hd)
      · rw [hok, Except.ok.injEq] at hok'
        subst hok'
        exact holds_insert h hkey hfree
    · -- the key has an owner, who is somebody else
      push Not at hfree
      obtain ⟨d, hmem, hd⟩ := hfree
      have howner := claimant_eq_of_holds h hmem hd
      obtain ⟨err, herr⟩ := hstep.taken table e k hkey (by rw [howner]; exact hempty d hmem)
        (by rw [howner]; exact hnames d hmem)
      refine ⟨fun table' hok => ?_, fun hdisjoint => absurd rfl (hdisjoint d hmem k hd)⟩
      rw [herr] at hok
      cases hok

theorem Claiming.whole [DecidableEq κ] (hstep : Claiming name key step)
    (hnames : (entries.map name).Nodup) (hempty : ∀ e ∈ entries, name e ≠ "") :
    (∀ table, performAll step ∅ entries = .ok table →
      DisjointClaims key entries ∧ HoldsClaims name key table entries) ∧
      (DisjointClaims key entries → ∃ table, performAll step ∅ entries = .ok table) := by
  induction entries using List.reverseRecOn with
  | nil =>
    refine ⟨fun table h => ⟨List.Pairwise.nil, ?_⟩, fun _ => ⟨∅, rfl⟩⟩
    cases h
    intro k owner
    simp
  | append_singleton entries e ih =>
    rw [map_append, nodup_append] at hnames
    obtain ⟨hnodup, -, hne⟩ := hnames
    have hentries : ∀ d ∈ entries, name d ≠ "" := fun d hd =>
      hempty d (mem_append_left _ hd)
    have hothers : ∀ d ∈ entries, name d ≠ name e := fun d hd =>
      hne (name d) (List.mem_map_of_mem hd) (name e) (by simp)
    obtain ⟨hsound, hcomplete⟩ := ih hnodup hentries
    have hdisjoint : DisjointClaims key (entries ++ [e]) ↔ DisjointClaims key entries ∧
        ∀ d ∈ entries, ∀ k, key d = some k → key e ≠ some k := by
      simp [DisjointClaims, pairwise_append]
    constructor
    · intro table h
      obtain ⟨middle, hmiddle, hlast⟩ := performAll_append_eq_ok.mp h
      obtain ⟨table', hlast, hdone⟩ := performAll_cons_eq_ok.mp hlast
      cases hdone
      obtain ⟨hdis, hholds⟩ := hsound middle hmiddle
      obtain ⟨hfree, hholds'⟩ := (hstep.one hholds hothers hentries).1 table hlast
      exact ⟨hdisjoint.mpr ⟨hdis, hfree⟩, hholds'⟩
    · intro hdis
      obtain ⟨hdis, hfree⟩ := hdisjoint.mp hdis
      obtain ⟨middle, hmiddle⟩ := hcomplete hdis
      obtain ⟨table', hlast⟩ := (hstep.one (hsound middle hmiddle).2 hothers hentries).2 hfree
      exact ⟨table', performAll_append_eq_ok.mpr
        ⟨middle, hmiddle, performAll_cons_eq_ok.mpr ⟨table', hlast, rfl⟩⟩⟩

theorem table_ext_of_holds {table' : GoMap κ String} {entries' : List ε}
    (h : HoldsClaims name key table entries) (h' : HoldsClaims name key table' entries')
    (hperm : entries.Perm entries') : table = table' := by
  apply ExtTreeMap.ext_getElem?
  intro k
  apply Option.ext
  intro owner
  rw [h k owner, h' k owner]
  simp only [hperm.mem_iff]

end

end Clabernetes.Base
