import Clabernetes.Base.Runs

/-!
# Coalesced image resolution

`internal/ocimetadata/cache.go:91-146`. The calls for one key share a flight, which runs under the
context of the call that started it. The outcome of a flight is that of its function, with the
validation and encoding of what the resolver returns; expiry, eviction and the digest check are an
entry that goes at any time.
-/

namespace Clabernetes.Images

open Base Option

variable {M : Type}

inductive Call (M : Type) where
  | idle
  | missed
  | waiting
  | returned (result : Except String M)

structure Cache (M : Type) where
  entry : Option M := none
  /-- The calls whose context is cancelled. -/
  cancelled : List ℕ := []
  /-- The call whose function the flight runs. -/
  flight : Option ℕ := none
  calls : ℕ → Call M := fun _ => .idle

inductive Event (M : Type) where
  | load (call : ℕ)
  | join (call : ℕ)
  | finish (outcome : Except String M)
  | cancel (call : ℕ)
  | drop

variable (s : Cache M)

def Cache.set (call : ℕ) (state : Call M) : Cache M :=
  { s with calls := Function.update s.calls call state }

/-- `singleflight.Group.Do`: a call waits for the flight that runs, or starts one. -/
def Cache.groupDo (call : ℕ) : Cache M :=
  { s.set call .waiting with flight := s.flight <|> some call }

/-- What the function of a flight returns, every call that waits returns. -/
def Cache.groupDone (outcome : Except String M) : Cache M :=
  { s with
    flight := none
    calls := fun call => match s.calls call with
      | .waiting => .returned outcome
      | state => state }

def Cache.step : Event M → Option (Cache M)
  | .load call =>
    match s.calls call, s.entry with
    | .idle, some metadata => some (s.set call (.returned (.ok metadata)))
    | .idle, none => some (s.set call .missed)
    | _, _ => none
  | .join call =>
    match s.calls call, s.flight, s.entry with
    -- a flight that finds an entry ends at once
    | .missed, none, some metadata => some (s.set call (.returned (.ok metadata)))
    | .missed, _, _ => some (s.groupDo call)
    | _, _, _ => none
  | .finish outcome => s.flight.map fun _ =>
    { s.groupDone outcome with entry := outcome.toOption <|> s.entry }
  | .cancel call => some { s with cancelled := call :: s.cancelled }
  | .drop => some { s with entry := none }

/-- The registry answers a flight whose context is live. -/
def Answers : Event M → Prop
  | .finish outcome => (∀ leader ∈ s.flight, leader ∉ s.cancelled) → outcome.isOk = true
  | _ => True

/-- A flight whose context is cancelled carries no call with a live one. -/
def LeaderLive : Event M → Prop
  | .finish _ => ∀ leader ∈ s.flight, leader ∈ s.cancelled →
      ∀ call, s.calls call = .waiting → call ∈ s.cancelled
  | _ => True

/-- No call with a live context has failed. -/
def Isolated : Prop :=
  ∀ call, call ∉ s.cancelled → ∀ err, s.calls call ≠ .returned (.error err)

variable {s s' : Cache M} {e : Event M}

theorem Isolated.set (h : Isolated s) (call : ℕ) {state : Call M}
    (hstate : ∀ err, state ≠ .returned (.error err)) : Isolated (s.set call state) := by
  intro other hlive err
  simp only [Cache.set, Function.update_apply]
  split_ifs
  · exact hstate err
  · exact h other hlive err

theorem isolated_step (h : Isolated s) (hanswers : Answers s e) (hlive : LeaderLive s e)
    (hstep : s.step e = some s') : Isolated s' := by
  cases e with
  | load call | join call =>
    simp only [Cache.step] at hstep
    split at hstep <;> cases hstep <;> exact h.set call nofun
  | finish outcome =>
    obtain ⟨leader, hleader, rfl⟩ := map_eq_some_iff.mp hstep
    intro call hcall err
    dsimp only [Cache.groupDone]
    split
    · next hwaiting =>
      -- a live call waits, so the leader is live and the registry answers
      have hok := hanswers fun other hother hcancelled =>
        hcall (hlive other hother hcancelled call hwaiting)
      rintro ⟨⟩
      cases hok
    · exact h call hcall err
  | cancel call =>
    cases hstep
    exact fun other hother => h other fun hmem => hother (List.mem_cons_of_mem call hmem)
  | drop =>
    cases hstep
    exact h

/-- As long as the call that leads a flight lives, no call fails by another's cancellation. -/
theorem calls_isolated (events : List (Event M)) (s : Cache M)
    (hrun : run Cache.step {} events = some s) (hanswers : RunMeets Cache.step {} Answers events)
    (hlive : RunMeets Cache.step {} LeaderLive events) : Isolated s := by
  refine run_invariant (P := fun _ s => Isolated s) (fun _ _ _ h => by cases h) ?_ events s
    (hanswers.and hlive) hrun
  intro _ s e s' _ hs hallowed hstep
  exact isolated_step hs hallowed.1 hallowed.2 hstep

/-- The second call joins the flight of the first; one of them is cancelled. -/
def joined (cancelled : ℕ) : List (Event ℕ) :=
  [.load 0, .load 1, .join 0, .join 1, .cancel cancelled]

theorem joined_meets (cancelled : ℕ) {allowed : Cache ℕ → Event ℕ → Prop} {e : Event ℕ}
    (hquiet : ∀ s, ∀ e ∈ joined cancelled, allowed s e)
    (h : ∀ s, run Cache.step {} (joined cancelled) = some s → allowed s e) :
    RunMeets Cache.step {} allowed (joined cancelled ++ [e]) :=
  RunMeets.append_singleton (fun _ e _ he s _ => hquiet s e (he ▸ by simp)) h

theorem calls_isolated_waiter : ∃ s,
    run Cache.step {} (joined 1 ++ [.finish (.ok 7)]) = some s ∧ Isolated s := by
  refine ⟨_, rfl, calls_isolated (joined 1 ++ [.finish (.ok 7)]) _ rfl ?_ ?_⟩
  · exact joined_meets 1 (by simp [joined, Answers]) fun _ _ _ => rfl
  · refine joined_meets 1 (by simp [joined, LeaderLive]) fun s hs leader hleader => ?_
    cases hs
    cases hleader
    exact fun hmem => absurd hmem (by decide)

/-- The call that started the flight is cancelled, and the other one fails with it. -/
theorem leader_cancelled : ∃ s,
    run Cache.step {} (joined 0 ++ [.finish (.error "context canceled")]) = some s ∧
    RunMeets Cache.step {} Answers (joined 0 ++ [.finish (.error "context canceled")]) ∧
    1 ∉ s.cancelled ∧ s.calls 1 = .returned (.error "context canceled") := by
  refine ⟨_, rfl, joined_meets 0 (by simp [joined, Answers]) fun s hs hlive => ?_, ?_, rfl⟩
  · cases hs
    exact absurd List.mem_cons_self (hlive 0 rfl)
  · decide

end Clabernetes.Images
