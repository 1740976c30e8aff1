import FaucetStream.Pipeline.Engine

namespace FaucetStream
namespace Resilience

open Pipeline

/-!
# The retry runner

`run_with_policy` repeats an operation until it succeeds, fails for good, or
the run is cancelled while it waits.  A failed attempt counts against the
policy.  A caller may give rate limits a budget of their own: then they count
against that budget instead, which is whole again after any other outcome.

The operation is the stream of its outcomes.  Metrics and log lines are left
out.
-/

/-- What the runner meets: the outcome of each invocation, what jitter makes of
the delay after it, and whether the wait after it runs out before the token
fires. -/
structure Script (Result : Type) where
  outcomes : Nat -> Except FaucetError Result
  jitter : Nat -> Nat -> Nat
  elapses : Nat -> Bool

/-- What the runner returns, with the number of invocations it took. -/
structure Returned (Result : Type) where
  outcome : Except FaucetError Result
  invocations : Nat

variable {Result : Type}

/-- `cancellable_sleep`: `false` when the token fires first. -/
def cancellableSleep (cancel elapses : Bool) : Bool := !cancel || elapses

/-- The wait after a failed attempt; a stated one wins. -/
def waitAfter (policy : RetryPolicy) (script : Script Result) (call attempt : Nat) : FaucetError -> Nat
  | .rateLimited stated => stated
  | _ => script.jitter call (policy.backoff.delay policy.base policy.cap attempt)

/-- No attempts at all means one. -/
def maxAttempts (policy : RetryPolicy) : Nat := max policy.maxAttempts 1

/-- The loop, from a number of attempts used, of rate limits in a row, and of
invocations made. -/
def runFrom (policy : RetryPolicy) (cancel : Bool) (rateLimitRetries : Option Nat) (script : Script Result)
    (attempt rateLimited call : Nat) : Returned Result :=
  match rateLimitRetries, script.outcomes call with
  | some budget, .error (.rateLimited stated) =>
      if budget ≤ rateLimited then ⟨.error (.rateLimited stated), call + 1⟩
      else if cancellableSleep cancel (script.elapses call) then
        runFrom policy cancel rateLimitRetries script attempt (rateLimited + 1) (call + 1)
      else ⟨.error (.rateLimited stated), call + 1⟩
  | _, .ok value => ⟨.ok value, call + 1⟩
  | _, .error error =>
      if policy.isRetriable error ∧ attempt + 1 < maxAttempts policy then
        if waitAfter policy script call attempt error ≠ 0 ∧
            cancellableSleep cancel (script.elapses call) = false then ⟨.error error, call + 1⟩
        else runFrom policy cancel rateLimitRetries script (attempt + 1) 0 (call + 1)
      else ⟨.error error, call + 1⟩
termination_by (maxAttempts policy - attempt, rateLimitRetries.getD 0 - rateLimited)
decreasing_by
  · apply Prod.Lex.right
    rename_i within _
    have within : rateLimited < budget := Nat.not_le.mp within
    rw [Option.getD_some]
    omega
  · apply Prod.Lex.left
    omega

def runWithPolicy (policy : RetryPolicy) (cancel : Bool) (rateLimitRetries : Option Nat)
    (script : Script Result) : Returned Result :=
  runFrom policy cancel rateLimitRetries script 0 0 0

/-! ## How often the operation is invoked -/

/-- The runner went on from a point, returned the outcome of its last
invocation, and stayed within a number of invocations. -/
structure Returned.Within (script : Script Result) (call bound : Nat) (returned : Returned Result) : Prop where
  invoked : call < returned.invocations
  last : returned.outcome = script.outcomes (returned.invocations - 1)
  bounded : returned.invocations ≤ bound

theorem within_of_stop {script : Script Result} {call bound : Nat} {outcome : Except FaucetError Result}
    (met : script.outcomes call = outcome) (room : call + 1 ≤ bound) :
    Returned.Within script call bound ⟨outcome, call + 1⟩ :=
  ⟨Nat.lt_succ_self call, met.symm, room⟩

theorem Returned.Within.earlier {script : Script Result} {call bound wider : Nat} {returned : Returned Result}
    (later : returned.Within script (call + 1) bound) (room : bound ≤ wider) :
    returned.Within script call wider :=
  ⟨Nat.lt_of_succ_lt later.invoked, later.last, Nat.le_trans later.bounded room⟩

/-- The invocations a point of the loop may still make: whole rounds of rate
limits for the attempts left, less the rate limits of this round. -/
def room (policy : RetryPolicy) (rateLimitRetries : Option Nat) (attempt rateLimited : Nat) : Nat :=
  (maxAttempts policy - attempt) * (rateLimitRetries.getD 0 + 1) - rateLimited

theorem room_pos {policy : RetryPolicy} {rateLimitRetries : Option Nat} {attempt rateLimited : Nat}
    (left : attempt < maxAttempts policy) (within : rateLimited ≤ rateLimitRetries.getD 0) :
    0 < room policy rateLimitRetries attempt rateLimited := by
  have round : rateLimitRetries.getD 0 + 1 ≤
      (maxAttempts policy - attempt) * (rateLimitRetries.getD 0 + 1) :=
    Nat.le_mul_of_pos_left _ (Nat.sub_pos_of_lt left)
  unfold room
  omega

/-- A rate limit uses one invocation of its round. -/
theorem room_limited {policy : RetryPolicy} {rateLimitRetries : Option Nat} {attempt rateLimited : Nat}
    (left : attempt < maxAttempts policy) (within : rateLimited < rateLimitRetries.getD 0) :
    room policy rateLimitRetries attempt (rateLimited + 1) + 1 = room policy rateLimitRetries attempt rateLimited := by
  have present := room_pos left (Nat.le_of_lt within)
  unfold room at *
  omega

/-- Another failure uses an attempt, and the next round is whole. -/
theorem room_failed {policy : RetryPolicy} {rateLimitRetries : Option Nat} {attempt rateLimited : Nat}
    (left : attempt + 1 < maxAttempts policy) (within : rateLimited ≤ rateLimitRetries.getD 0) :
    room policy rateLimitRetries (attempt + 1) 0 + 1 ≤ room policy rateLimitRetries attempt rateLimited := by
  have split : maxAttempts policy - attempt = (maxAttempts policy - (attempt + 1)) + 1 := by omega
  unfold room
  rw [split, Nat.succ_mul]
  omega

/-- What holds from any point of the loop. -/
theorem runFrom_within (policy : RetryPolicy) (cancel : Bool) (rateLimitRetries : Option Nat)
    (script : Script Result) (attempt rateLimited call : Nat) (left : attempt < maxAttempts policy)
    (within : rateLimited ≤ rateLimitRetries.getD 0) :
    (runFrom policy cancel rateLimitRetries script attempt rateLimited call).Within script call
      (call + room policy rateLimitRetries attempt rateLimited) := by
  fun_induction runFrom policy cancel rateLimitRetries script attempt rateLimited call with
  | case1 attempt rateLimited call budget stated met =>
      exact within_of_stop met (Nat.add_le_add_left (room_pos left within) call)
  | case2 attempt rateLimited call budget stated met budgeted spent waited ih =>
      have further : rateLimited < rateLimitRetries.getD 0 := by
        rw [budgeted]
        exact Nat.not_le.mp spent
      refine (ih left further).earlier ?_
      rw [← room_limited left further]
      omega
  | case3 attempt rateLimited call budget stated met =>
      exact within_of_stop met (Nat.add_le_add_left (room_pos left within) call)
  | case4 attempt rateLimited call value met =>
      exact within_of_stop met (Nat.add_le_add_left (room_pos left within) call)
  | case5 attempt rateLimited call error met =>
      exact within_of_stop met (Nat.add_le_add_left (room_pos left within) call)
  | case6 attempt rateLimited call error met retried waited _ ih =>
      refine (ih retried.2 (Nat.zero_le _)).earlier ?_
      have next := room_failed retried.2 within
      omega
  | case7 attempt rateLimited call error met =>
      exact within_of_stop met (Nat.add_le_add_left (room_pos left within) call)

/-- How often a policy lets the operation be invoked. -/
def allowance (policy : RetryPolicy) : Option Nat -> Nat
  | none => max 1 policy.maxAttempts
  | some budget => max 1 policy.maxAttempts * (budget + 1)

theorem room_start (policy : RetryPolicy) (rateLimitRetries : Option Nat) :
    room policy rateLimitRetries 0 0 = allowance policy rateLimitRetries := by
  unfold room allowance maxAttempts
  rw [Nat.max_comm]
  cases rateLimitRetries with
  | none => simp only [Nat.sub_zero, Option.getD_none, Nat.zero_add, Nat.mul_one]
  | some budget => rfl

/-- The runner invokes the operation at least once, no more often than the
policy allows times the rate limits each attempt may meet, and returns the
outcome of the last invocation. -/
theorem runWithPolicy_bounded (policy : RetryPolicy) (cancel : Bool) (rateLimitRetries : Option Nat)
    (script : Script Result) :
    0 < (runWithPolicy policy cancel rateLimitRetries script).invocations ∧
      (runWithPolicy policy cancel rateLimitRetries script).invocations ≤ allowance policy rateLimitRetries ∧
      (runWithPolicy policy cancel rateLimitRetries script).outcome =
        script.outcomes ((runWithPolicy policy cancel rateLimitRetries script).invocations - 1) := by
  have spec := runFrom_within policy cancel rateLimitRetries script 0 0 0
    (Nat.lt_of_lt_of_le Nat.zero_lt_one (Nat.le_max_right _ _)) (Nat.zero_le _)
  have bounded := spec.bounded
  rw [Nat.zero_add, room_start] at bounded
  exact ⟨spec.invoked, bounded, spec.last⟩

/-- Without a token and without a budget for rate limits, an error that may be
retried is returned only once every attempt of the policy was made. -/
theorem runFrom_retries {policy : RetryPolicy} {script : Script Result} {attempt rateLimited call : Nat}
    {error : FaucetError} (left : attempt < maxAttempts policy)
    (failed : (runFrom policy false none script attempt rateLimited call).outcome = .error error)
    (retriable : policy.isRetriable error = true) :
    (runFrom policy false none script attempt rateLimited call).invocations + attempt = call + maxAttempts policy := by
  induction rounds : maxAttempts policy - attempt generalizing attempt rateLimited call with
  | zero => omega
  | succ rounds ih =>
      unfold runFrom at failed ⊢
      cases met : script.outcomes call with
      | ok value =>
          simp only [met] at failed
          cases failed
      | error other =>
          simp only [met, cancellableSleep, Bool.not_false, Bool.true_or, Bool.true_eq_false, and_false,
            if_false] at failed ⊢
          split at failed
          · next retried =>
            rw [if_pos retried]
            have later := ih retried.2 failed (by omega)
            omega
          · next given =>
            cases failed
            rw [if_neg given]
            rw [not_and, not_lt] at given
            have spent := given retriable
            dsimp only
            omega

theorem runWithPolicy_retries {policy : RetryPolicy} {script : Script Result} {error : FaucetError}
    (failed : (runWithPolicy policy false none script).outcome = .error error)
    (retriable : policy.isRetriable error = true) :
    (runWithPolicy policy false none script).invocations = maxAttempts policy := by
  have made := runFrom_retries (Nat.lt_of_lt_of_le Nat.zero_lt_one (Nat.le_max_right _ _)) failed retriable
  rwa [Nat.add_zero, Nat.zero_add] at made

end Resilience
end FaucetStream
