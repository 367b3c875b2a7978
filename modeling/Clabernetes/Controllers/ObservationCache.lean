import Mathlib.Algebra.Group.Nat.Defs
import Clabernetes.Base.GoMap
import Clabernetes.Base.Runs

/-!
# The observation cache

`controllers/observationcache.go:19-72`. A reconcile that finds no valid entry fetches, which takes
time, and stores what it found with the token it was given. The mutex makes each call atomic, so
callers are interleaved call by call; each keeps its token and may store with it at any time, under
any key.
-/

namespace Clabernetes.Controllers

open Base Std List Option GoMap

section Histories

inductive Call (κ T : Type) where
  | load (key : κ)
  /-- A Store with the token of the Load that many Loads after the first. -/
  | store (key : κ) (fetch : ℕ) (value : T)
  | invalidate (key : κ)

variable {κ T : Type} (calls : List (Call κ T))

def loads : ℕ :=
  calls.countP fun call => match call with
    | .load _ => true
    | _ => false

def Undisturbed (key : κ) (calls : List (Call κ T)) : Prop := ∀ call ∈ calls, call ≠ .invalidate key

/-- That Load was of the key, and the key was not invalidated since. -/
def Begun (key : κ) (fetch : ℕ) : Prop :=
  ∃ before after, calls = before ++ .load key :: after ∧ loads before = fetch ∧
    Undisturbed key after

/-- The value was stored with the token of a Load of the key, and the key was not invalidated since
that Load. -/
def Fresh (key : κ) (value : T) : Prop :=
  ∃ before between after,
    calls = before ++ .load key :: between ++ .store key (loads before) value :: after ∧
      Undisturbed key (between ++ after)

variable {calls : List (Call κ T)} {call : Call κ T} {key : κ} {value : T} {fetch : ℕ}

theorem loads_append {after : List (Call κ T)} :
    loads (calls ++ after) = loads calls + loads after := countP_append

theorem undisturbed_append {after : List (Call κ T)} :
    Undisturbed key (calls ++ after) ↔ Undisturbed key calls ∧ Undisturbed key after :=
  forall_mem_append

theorem undisturbed_singleton : Undisturbed key [call] ↔ call ≠ .invalidate key := by
  simp [Undisturbed]

theorem Begun.append (h : Begun calls key fetch) (hcall : call ≠ .invalidate key) :
    Begun (calls ++ [call]) key fetch := by
  obtain ⟨before, after, rfl, hfetch, hafter⟩ := h
  exact ⟨before, after ++ [call], by simp, hfetch,
    undisturbed_append.mpr ⟨hafter, undisturbed_singleton.mpr hcall⟩⟩

theorem Fresh.append (h : Fresh calls key value) (hcall : call ≠ .invalidate key) :
    Fresh (calls ++ [call]) key value := by
  obtain ⟨before, between, after, rfl, hkept⟩ := h
  refine ⟨before, between, after ++ [call], by simp, ?_⟩
  rw [← append_assoc]
  exact undisturbed_append.mpr ⟨hkept, undisturbed_singleton.mpr hcall⟩

theorem Begun.store (h : Begun calls key fetch) :
    Fresh (calls ++ [.store key fetch value]) key value := by
  obtain ⟨before, after, rfl, rfl, hafter⟩ := h
  exact ⟨before, after, [], by simp, by rwa [append_nil]⟩

end Histories

structure ObservationEntry (T : Type) where
  token : UInt64
  value : T
  valid : Bool

structure ObservationCache (κ T : Type) [Ord κ] where
  next : UInt64 := 0
  entries : GoMap κ (ObservationEntry T) := ∅

variable {κ T : Type} [Ord κ] [TransOrd κ]

variable {entry : ObservationEntry T} {key : κ}

namespace ObservationCache

def load [Inhabited T] (c : ObservationCache κ T) (key : κ) :
    ObservationCache κ T × T × UInt64 × Bool :=
  match c.entries[key]? with
  | some entry => (c, entry.value, entry.token, entry.valid)
  | none =>
    let entry : ObservationEntry T := { token := c.next + 1, value := default, valid := false }
    ({ next := c.next + 1, entries := c.entries.insert key entry },
      entry.value, entry.token, entry.valid)

def store (c : ObservationCache κ T) (key : κ) (token : UInt64) (value : T) :
    ObservationCache κ T :=
  match c.entries[key]? with
  | some entry =>
    if entry.token = token then
      { c with entries := c.entries.insert key { token, value, valid := true } }
    else c
  | none => c

def invalidate (c : ObservationCache κ T) (key : κ) : ObservationCache κ T :=
  { c with entries := c.entries.erase key }

variable {c : ObservationCache κ T}

theorem load_of_some [Inhabited T] (h : c.entries[key]? = some entry) :
    c.load key = (c, entry.value, entry.token, entry.valid) := by
  rw [load, h]

theorem load_of_none [Inhabited T] (h : c.entries[key]? = none) : c.load key =
      ({ next := c.next + 1, entries := c.entries.insert key ⟨c.next + 1, default, false⟩ },
        default, c.next + 1, false) := by
  rw [load, h]

theorem load_store [LawfulEqOrd κ] [DecidableEq κ] [Inhabited T] {value : T}
    (h : c.entries[key]? = some entry) :
    ((c.store key entry.token value).load key).2 = (value, entry.token, true) := by
  have hstore : c.store key entry.token value =
      { c with entries := c.entries.insert key ⟨entry.token, value, true⟩ } := by
    simp only [store, h, if_true]
  rw [hstore, load_of_some (by rw [lookup_insert, if_pos rfl])]

theorem load_valid [Inhabited T] {value : T} {token : UInt64}
    (h : (c.load key).2 = (value, token, true)) : c.entries[key]? = some ⟨token, value, true⟩ := by
  cases hentry : c.entries[key]? with
  | none =>
    rw [load_of_none hentry] at h
    simp at h
  | some entry =>
    rw [load_of_some hentry] at h
    simp only [Prod.mk.injEq] at h
    obtain ⟨rfl, rfl, hvalid⟩ := h
    rw [← hvalid]

end ObservationCache

/-- The cache and the tokens that its callers were given, in the order of their Loads. -/
structure Callers (κ T : Type) [Ord κ] where
  cache : ObservationCache κ T := {}
  tokens : List UInt64 := []

def step [Inhabited T] (s : Callers κ T) : Call κ T → Option (Callers κ T)
  | .load key =>
    let answer := s.cache.load key
    some { cache := answer.1, tokens := s.tokens ++ [answer.2.2.1] }
  | .store key fetch value =>
    (s.tokens[fetch]?).map fun token => { s with cache := s.cache.store key token value }
  | .invalidate key => some { s with cache := s.cache.invalidate key }

def Counts (s : Callers κ T) : Call κ T → Prop
  | .load key => s.cache.entries[key]? = none → s.cache.next.toNat + 1 < 2 ^ 64
  | _ => True

structure Tracks (calls : List (Call κ T)) (s : Callers κ T) : Prop where
  length : s.tokens.length = loads calls
  issued : ∀ token ∈ s.tokens, token.toNat ≤ s.cache.next.toNat
  bounded : ∀ (key : κ) (entry : ObservationEntry T), s.cache.entries[key]? = some entry →
    entry.token.toNat ≤ s.cache.next.toNat
  distinct : ∀ (key key' : κ) (entry entry' : ObservationEntry T),
    s.cache.entries[key]? = some entry → s.cache.entries[key']? = some entry' →
    entry.token = entry'.token → key = key'
  /-- Who holds the token of an entry was given it since the last invalidation. -/
  begun : ∀ (fetch : ℕ) (key : κ) (entry : ObservationEntry T),
    s.cache.entries[key]? = some entry → s.tokens[fetch]? = some entry.token →
    Begun calls key fetch
  fresh : ∀ (key : κ) (entry : ObservationEntry T), s.cache.entries[key]? = some entry →
    entry.valid = true → Fresh calls key entry.value

theorem tracks_nil : Tracks ([] : List (Call κ T)) {} := by constructor <;> simp [loads]

section Steps

variable {calls : List (Call κ T)} {s s' : Callers κ T}

theorem tracks_hit (h : Tracks calls s) (hentry : s.cache.entries[key]? = some entry) :
    Tracks (calls ++ [.load key]) { s with tokens := s.tokens ++ [entry.token] } := by
  refine ⟨?_, ?_, h.bounded, h.distinct, ?_, ?_⟩
  · rw [length_append, loads_append, h.length]
    rfl
  · intro token htoken
    rw [mem_append, mem_singleton] at htoken
    rcases htoken with htoken | rfl
    · exact h.issued token htoken
    · exact h.bounded key entry hentry
  · intro fetch other found hfound hfetch
    rw [getElem?_append] at hfetch
    split_ifs at hfetch with hlt
    · exact (h.begun fetch other found hfound hfetch).append nofun
    · -- the caller joins the epoch of the entry
      obtain ⟨hindex, htoken⟩ : fetch - s.tokens.length = 0 ∧ entry.token = found.token := by
        simpa [getElem?_singleton] using hfetch
      obtain rfl := h.distinct key other entry found hentry hfound htoken
      exact ⟨calls, [], rfl, by rw [← h.length]; omega, by simp [Undisturbed]⟩
  · intro other found hfound hvalid
    exact (h.fresh other found hfound hvalid).append nofun

variable [LawfulEqOrd κ] [DecidableEq κ]

variable (h : Tracks calls s)

include h

theorem tracks_miss [Inhabited T] (hcounts : s.cache.next.toNat + 1 < 2 ^ 64) :
    Tracks (calls ++ [.load key])
      { cache :=
          { next := s.cache.next + 1,
            entries := s.cache.entries.insert key ⟨s.cache.next + 1, default, false⟩ },
        tokens := s.tokens ++ [s.cache.next + 1] } := by
  have hnext : (s.cache.next + 1).toNat = s.cache.next.toNat + 1 := by
    rw [UInt64.toNat_add]
    exact Nat.mod_eq_of_lt hcounts
  -- no token in use is the next one
  have hnew : ∀ token : UInt64, token.toNat ≤ s.cache.next.toNat → token ≠ s.cache.next + 1 := by
    rintro token hle rfl
    omega
  refine ⟨?_, ?_, ?_, ?_, ?_, ?_⟩
  · rw [length_append, loads_append, h.length]
    rfl
  · intro token htoken
    rw [mem_append, mem_singleton] at htoken
    rcases htoken with htoken | rfl
    · have := h.issued token htoken
      rw [hnext]
      omega
    · exact Nat.le_refl _
  · intro other found hfound
    rw [lookup_insert] at hfound
    split_ifs at hfound
    · cases hfound
      exact Nat.le_refl _
    · have := h.bounded other found hfound
      rw [hnext]
      omega
  · intro a b x y hx hy htoken
    rw [lookup_insert] at hx hy
    split_ifs at hx hy with ha hb
    · exact ha.symm.trans hb
    · cases hx
      exact absurd htoken.symm (hnew _ (h.bounded b y hy))
    · cases hy
      exact absurd htoken (hnew _ (h.bounded a x hx))
    · exact h.distinct a b x y hx hy htoken
  · intro fetch other found hfound hfetch
    rw [lookup_insert] at hfound
    rw [getElem?_append] at hfetch
    split_ifs at hfetch with hlt
    · split_ifs at hfound
      · cases hfound
        exact absurd rfl (hnew _ (h.issued _ (mem_of_getElem? hfetch)))
      · exact (h.begun fetch other found hfound hfetch).append nofun
    · obtain ⟨hindex, htoken⟩ : fetch - s.tokens.length = 0 ∧ s.cache.next + 1 = found.token := by
        simpa [getElem?_singleton] using hfetch
      split_ifs at hfound with heq
      · subst heq
        exact ⟨calls, [], rfl, by rw [← h.length]; omega, by simp [Undisturbed]⟩
      · exact absurd htoken.symm (hnew _ (h.bounded other found hfound))
  · intro other found hfound hvalid
    rw [lookup_insert] at hfound
    split_ifs at hfound
    · cases hfound
      cases hvalid
    · exact (h.fresh other found hfound hvalid).append nofun

theorem tracks_store {fetch : ℕ} {value : T} {token : UInt64}
    (htoken : s.tokens[fetch]? = some token) : Tracks (calls ++ [.store key fetch value])
      { s with cache := s.cache.store key token value } := by
  have hlength : s.tokens.length = loads (calls ++ [.store key fetch value]) := by
    rw [loads_append, h.length]
    rfl
  have hrefused : Tracks (calls ++ [.store key fetch value]) s :=
    ⟨hlength, h.issued, h.bounded, h.distinct,
      fun fetch other entry hentry hfetch =>
        (h.begun fetch other entry hentry hfetch).append nofun,
      fun other entry hentry hvalid => (h.fresh other entry hentry hvalid).append nofun⟩
  unfold ObservationCache.store
  split
  · next entry hentry =>
    split_ifs with hsame
    · subst hsame
      -- every key has the token that it had
      have hbefore : ∀ (other : κ) (found : ObservationEntry T),
          (s.cache.entries.insert key ⟨entry.token, value, true⟩)[other]? = some found →
          ∃ old, s.cache.entries[other]? = some old ∧ old.token = found.token := by
        intro other found hfound
        rw [lookup_insert] at hfound
        split_ifs at hfound with heq
        · cases hfound
          exact ⟨entry, heq ▸ hentry, rfl⟩
        · exact ⟨found, hfound, rfl⟩
      refine ⟨hlength, h.issued, ?_, ?_, ?_, ?_⟩
      · intro other found hfound
        obtain ⟨old, hold, hsame⟩ := hbefore other found hfound
        rw [← hsame]
        exact h.bounded other old hold
      · intro a b x y hx hy heq
        obtain ⟨x', hx', hxx⟩ := hbefore a x hx
        obtain ⟨y', hy', hyy⟩ := hbefore b y hy
        exact h.distinct a b x' y' hx' hy' (by rw [hxx, hyy, heq])
      · intro fetch other found hfound hfetch
        obtain ⟨old, hold, hsame⟩ := hbefore other found hfound
        rw [← hsame] at hfetch
        exact hrefused.begun fetch other old hold hfetch
      · intro other found hfound hvalid
        rw [lookup_insert] at hfound
        split_ifs at hfound with heq
        · cases hfound
          subst heq
          exact (h.begun fetch key entry hentry htoken).store
        · exact hrefused.fresh other found hfound hvalid
    · exact hrefused
  · exact hrefused

theorem tracks_invalidate :
    Tracks (calls ++ [.invalidate key]) { s with cache := s.cache.invalidate key } := by
  have hbefore : ∀ (other : κ) (entry : ObservationEntry T),
      (s.cache.entries.erase key)[other]? = some entry →
      s.cache.entries[other]? = some entry ∧ (.invalidate key : Call κ T) ≠ .invalidate other := by
    intro other entry hentry
    rw [lookup_erase] at hentry
    split_ifs at hentry with hne
    exact ⟨hentry, fun h => hne (Call.invalidate.inj h)⟩
  refine ⟨?_, h.issued, ?_, ?_, ?_, ?_⟩
  · rw [loads_append, h.length]
    rfl
  · exact fun other entry hentry => h.bounded other entry (hbefore other entry hentry).1
  · exact fun a b x y hx hy => h.distinct a b x y (hbefore a x hx).1 (hbefore b y hy).1
  · intro fetch other entry hentry hfetch
    obtain ⟨hentry, hne⟩ := hbefore other entry hentry
    exact (h.begun fetch other entry hentry hfetch).append hne
  · intro other entry hentry hvalid
    obtain ⟨hentry, hne⟩ := hbefore other entry hentry
    exact (h.fresh other entry hentry hvalid).append hne

theorem tracks_step [Inhabited T] {call : Call κ T} (hcounts : Counts s call)
    (he : step s call = some s') : Tracks (calls ++ [call]) s' := by
  cases call with
  | load key =>
    cases he
    cases hentry : s.cache.entries[key]? with
    | some entry =>
      rw [ObservationCache.load_of_some hentry]
      exact tracks_hit h hentry
    | none =>
      rw [ObservationCache.load_of_none hentry]
      exact tracks_miss h (hcounts hentry)
  | store key fetch value =>
    obtain ⟨token, htoken, rfl⟩ := map_eq_some_iff.mp he
    exact tracks_store h htoken
  | invalidate key =>
    cases he
    exact tracks_invalidate h

end Steps

/-- As long as the counter of tokens does not wrap, a valid answer was stored with the token of a
Load of that key since its last invalidation. -/
theorem load_fresh [LawfulEqOrd κ] [DecidableEq κ] [Inhabited T] {calls : List (Call κ T)}
    {s : Callers κ T}
    (hcounts : RunMeets step ({} : Callers κ T) Counts calls) (hrun : run step {} calls = some s)
    {value : T} {token : UInt64} (h : (s.cache.load key).2 = (value, token, true)) :
    Fresh calls key value := by
  have htracks := run_invariant tracks_nil
    (fun _ _ _ _ _ h hcounts he => tracks_step h hcounts he) calls s hcounts hrun
  exact htracks.fresh key _ (ObservationCache.load_valid h) rfl

instance (s : Callers κ T) (call : Call κ T) : Decidable (Counts s call) :=
  match call with
  | .load key => decidable_of_iff (s.cache.entries[key]?.isNone = true → _)
      (by rw [Counts, isNone_iff_eq_none])
  | .store .. | .invalidate _ => isTrue trivial

def twoFetches : List (Call String String) :=
  [.load "leaf", .invalidate "leaf", .load "leaf", .store "leaf" 0 "old", .store "leaf" 1 "new"]

theorem twoFetches_fresh : ∃ s, run step {} twoFetches = some s ∧
    (s.cache.load "leaf").2 = ("new", 2, true) ∧ Fresh twoFetches "leaf" "new" := by
  obtain ⟨s, hrun, h⟩ : ∃ s, run step {} twoFetches = some s ∧
      (s.cache.load "leaf").2 = ("new", 2, true) := by
    decide +kernel
  exact ⟨s, hrun, h, load_fresh (runMeets_of_meets (by decide +kernel)) hrun h⟩

def epochs : ℕ → List (Call String String)
  | 0 => []
  | n + 1 => epochs n ++ [.load "leaf", .invalidate "leaf"]

theorem run_epochs (n : ℕ) : run step {} (epochs n) = some
    { cache := { next := UInt64.ofNat n },
      tokens := (List.range n).map fun i => UInt64.ofNat (i + 1) } := by
  induction n with
  | zero => rfl
  | succ n ih =>
    have hsplit : epochs (n + 1) = (epochs n ++ [.load "leaf"]) ++ [.invalidate "leaf"] := by
      simp [epochs]
    rw [hsplit, run_append_singleton_eq_some]
    refine ⟨_, run_append_singleton_eq_some.mpr ⟨_, ih, rfl⟩, ?_⟩
    rw [ObservationCache.load_of_none (by simp)]
    simp only [step, ObservationCache.invalidate, some.injEq, Callers.mk.injEq,
      ObservationCache.mk.injEq, range_succ, map_append, map_singleton]
    refine ⟨⟨by simp, ?_⟩, by simp⟩
    apply ExtTreeMap.ext_getElem?
    intro key
    rw [lookup_erase, lookup_insert]
    split_ifs <;> simp

theorem epochs_succ (n : ℕ) :
    ∃ rest, epochs (n + 1) = .load "leaf" :: .invalidate "leaf" :: rest := by
  induction n with
  | zero => exact ⟨[], rfl⟩
  | succ n ih =>
    obtain ⟨rest, hrest⟩ := ih
    exact ⟨rest ++ [.load "leaf", .invalidate "leaf"], by rw [epochs, hrest]; rfl⟩

def slowFetch (n : ℕ) : List (Call String String) :=
  epochs n ++ [.load "leaf"] ++ [.store "leaf" 0 "old"]

theorem store_mem_epochs {n fetch : ℕ} {value : String} : .store "leaf" fetch value ∉ epochs n := by
  induction n with
  | zero => simp [epochs]
  | succ n ih => simp [epochs, ih]

theorem not_fresh_slowFetch (n : ℕ) : ¬Fresh (slowFetch (n + 1)) "leaf" "old" := by
  rintro ⟨before, between, after, heq, hkept⟩
  obtain ⟨rest, hrest⟩ := epochs_succ n
  -- the only Store is that of the first fetch
  have hstore : .store "leaf" (loads before) "old" ∈ slowFetch (n + 1) := by
    rw [heq]
    simp
  have hfirst : loads before = 0 := by simpa [slowFetch, store_mem_epochs] using hstore
  cases before with
  | cons call before =>
    obtain ⟨rfl, -⟩ : Call.load "leaf" = call ∧ _ := by simpa [slowFetch, hrest] using heq
    rw [loads, countP_cons_of_pos rfl] at hfirst
    omega
  | nil =>
    rw [slowFetch, hrest] at heq
    cases between with
    | nil => simp at heq
    | cons call between =>
      obtain ⟨rfl, -⟩ : Call.invalidate "leaf" = call ∧ _ := by simpa using heq
      exact hkept _ (by simp) rfl

theorem run_slowFetch {n : ℕ} (hpositive : 0 < n) (hwrapped : UInt64.ofNat n = 0) :
    ∃ s, run step {} (slowFetch n) = some s ∧ (s.cache.load "leaf").2 = ("old", 1, true) := by
  have hfirst : (((List.range n).map fun i => UInt64.ofNat (i + 1)) ++ [1])[0]? = some 1 := by
    rw [getElem?_append_left (by simpa using hpositive), getElem?_map, getElem?_range hpositive]
    rfl
  have hload : run step {} (epochs n ++ [.load "leaf"]) = some
      { cache := { next := 1, entries := (∅ : GoMap String _).insert "leaf" ⟨1, default, false⟩ },
        tokens := ((List.range n).map fun i => UInt64.ofNat (i + 1)) ++ [1] } := by
    rw [run_append_singleton, run_epochs, hwrapped, bind_some, step,
      ObservationCache.load_of_none (by simp)]
    rfl
  rw [slowFetch, run_append_singleton, hload, bind_some, step, hfirst, map_some]
  refine ⟨_, rfl, ?_⟩
  have hentry : ((∅ : GoMap String (ObservationEntry String)).insert "leaf"
      ⟨1, default, false⟩)["leaf"]? = some ⟨1, default, false⟩ := by
    rw [lookup_insert, if_pos rfl]
  exact ObservationCache.load_store (c := { next := 1, entries := _ }) hentry

/-- After all the tokens there are, the first one is given out again, and what the first fetch found
is stored. -/
theorem slowFetch_stale : ∃ s, run step {} (slowFetch (2 ^ 64)) = some s ∧
    (s.cache.load "leaf").2 = ("old", 1, true) ∧ ¬Fresh (slowFetch (2 ^ 64)) "leaf" "old" := by
  obtain ⟨s, hrun, hload⟩ := run_slowFetch (show 0 < 2 ^ 64 by decide) (by decide)
  refine ⟨s, hrun, hload, ?_⟩
  obtain ⟨n, hn⟩ : ∃ n, 2 ^ 64 = n + 1 := ⟨2 ^ 64 - 1, by decide⟩
  rw [hn]
  exact not_fresh_slowFetch n

end Clabernetes.Controllers
