import FaucetStream.Delivery.State
import FaucetStream.Delivery.Token
import FaucetStream.Governance.Apply
import FaucetStream.Library.Interaction

namespace FaucetStream
namespace Pipeline

open Json
open Library
open Governance
open Delivery

/-!
# What the write loops are built from

The loops of the engine talk to a source, a sink, a dead-letter sink and a
state store.  Each such call is a question here, and its answer is up to the
surroundings; everything the loops decide by themselves is code.  Two things
travel beside what the source has and are never read by the loops: the number
of the page a question is about, and the place of a record in its governed
page.

Metrics, spans and log lines are left out.
-/

/-! ## Pages and rows -/

structure StreamPage where
  records : List Value
  bookmark : Option Value
  deriving DecidableEq

/-- A batch of bytes: its row count, when the source knows it, and bookmark. -/
structure NativeBatch where
  records : Option Nat
  bookmark : Option Value
  deriving DecidableEq

/-- A governed record and its place in the governed page. -/
structure GovernedRow where
  record : Value
  place : Nat
  deriving DecidableEq

/-- The rows of a governed page. -/
def governedRows (records : List Value) : List GovernedRow :=
  records.zipIdx.map (fun entry => ⟨entry.1, entry.2⟩)

/-- What a sink says about one row. -/
abbrev RowOutcome : Type := Except FaucetError Unit

/-! ## Row accounting -/

/-- What a sink did with a page it was offered. -/
structure WriteReport where
  accepted : Nat
  coalesced : Nat
  skipped : Nat
  deriving DecidableEq

def WriteReport.ofAccepted (accepted : Nat) : WriteReport := ⟨accepted, 0, 0⟩

structure PageAccount where
  offered : Nat
  accepted : Nat
  coalesced : Nat
  skipped : Nat
  failed : Nat
  quarantined : Nat
  dropped : Nat
  deriving DecidableEq

namespace PageAccount

def new (offered : Nat) : PageAccount := ⟨offered, 0, 0, 0, 0, 0, 0⟩

def addReport (account : PageAccount) (report : WriteReport) : PageAccount :=
  { account with
    accepted := account.accepted + report.accepted
    coalesced := account.coalesced + report.coalesced
    skipped := account.skipped + report.skipped }

def accounted (account : PageAccount) : Nat :=
  account.accepted + account.coalesced + account.skipped + account.failed + account.quarantined +
    account.dropped

/-- The rows nobody accounts for. -/
def missing (account : PageAccount) : Nat := account.offered - account.accounted

end PageAccount

/-! ## Resilience -/

inductive BackoffKind where
  | immediate
  | fixed
  | exponential
  deriving DecidableEq

/-- The delay before a retry, in milliseconds and before jitter. -/
def BackoffKind.delay (kind : BackoffKind) (base cap attempt : Nat) : Nat :=
  match kind with
  | .immediate => 0
  | .fixed => min base cap
  | .exponential => min (base * 2 ^ attempt) cap

structure RetryPolicy where
  maxAttempts : Nat
  backoff : BackoffKind
  base : Nat
  cap : Nat
  retryOn : RetryClass -> Bool

/-- Whether an error belongs to a class the policy retries. -/
def RetryPolicy.isRetriable (policy : RetryPolicy) (error : FaucetError) : Bool :=
  error.classify.any policy.retryOn

/-- How long to wait after a failed attempt; a stated wait wins. -/
def RetryPolicy.wait (policy : RetryPolicy) (attempt : Nat) : FaucetError -> Nat
  | .rateLimited stated => stated
  | _ => policy.backoff.delay policy.base policy.cap attempt

inductive PoisonAction where
  | dlq
  | drop
  | fail
  deriving DecidableEq

structure PoisonPolicy where
  maxRowAttempts : Nat
  action : PoisonAction

structure CircuitBreakerConfig where
  consecutiveFailures : Nat
  cooldown : Nat

structure ResiliencePolicy where
  retry : RetryPolicy
  circuitBreaker : Option CircuitBreakerConfig
  poison : Option PoisonPolicy

structure CircuitBreaker where
  threshold : Nat
  consecutive : Nat
  deriving DecidableEq

namespace CircuitBreaker

def new (threshold : Nat) : CircuitBreaker := ⟨max threshold 1, 0⟩

def recordSuccess (breaker : CircuitBreaker) : CircuitBreaker := { breaker with consecutive := 0 }

/-- Count a failure; the circuit is open once the threshold is reached. -/
def recordFailure (breaker : CircuitBreaker) : CircuitBreaker × Bool :=
  let consecutive := breaker.consecutive + 1
  ({ breaker with consecutive := consecutive }, decide (breaker.threshold ≤ consecutive))

end CircuitBreaker

/-! ## Configuration -/

inductive OnBatchError where
  | propagate
  | dlqAll
  deriving DecidableEq

/-- The dead-letter sink's name and whether repeating its write is safe, with
the policy for it. -/
structure DlqConfig where
  connectorName : String
  writeBatchIsReplaySafe : Bool
  onBatchError : OnBatchError
  maxFailuresPerPage : Option Nat
  maxFailuresTotal : Option Nat

structure DlqStats where
  recordsDlq : Nat
  pagesWithFailures : Nat
  deriving DecidableEq

def DlqStats.count (stats : DlqStats) (failures : Nat) : DlqStats :=
  ⟨stats.recordsDlq + failures, stats.pagesWithFailures + 1⟩

/-- What a sink says about itself. -/
structure SinkTraits where
  connectorName : String
  supportsIdempotentWrites : Bool
  dedupsByKey : Bool
  isOverwrite : Bool
  writeBatchIsReplaySafe : Bool

/-- The options of a streaming run. -/
structure RunStreamOptions where
  pipelineName : Option String
  row : Option String
  stateStore : Bool
  stateKey : Option String
  specs : GovernanceSpecs
  dlq : Option DlqConfig
  delivery : DeliveryMode
  replay : Option ReplayGuarantee
  startSeq : Nat
  /-- Adaptive batch sizing, when enabled, with the verdict of its own
  validation. -/
  adaptive : Option (Except FaucetError Unit)
  resilience : Option ResiliencePolicy
  /-- Whether a cancellation token is attached. -/
  cancel : Bool
  sourceDrainsOnCancel : Bool

/-- What a run returns. -/
structure PipelineResult where
  recordsWritten : Nat
  bookmark : Option Value
  dlq : Option DlqStats
  deriving DecidableEq

/-! ## Questions -/

inductive Op where
  /-- Has the cancellation token fired? -/
  | isCancelled
  /-- Wait before a retry; `false` when cancelled meanwhile. -/
  | sleep (milliseconds : Nat)
  /-- `apply_governance` on the records of a page. -/
  | applyGovernance (page : Nat) (records : List Value)
  | admitPage (page : Nat) (rows : List GovernedRow)
  /-- The adaptive controller's current batch size. -/
  | batchSize
  | writeGoverned (page : Nat) (rows : List GovernedRow)
  | writeBatchPartial (page : Nat) (rows : List GovernedRow)
  | writeBatchIdempotent (page : Nat) (rows : List GovernedRow) (scope token : String)
  | lastCommittedToken (scope : String)
  /-- Encode a governed page as a columnar batch. -/
  | encodeBatch (page : Nat) (records : List Value)
  | writeBatchColumnar (page : Nat) (records : List Value)
  | loadNative (page : Nat) (firstBatch : Bool)
  | flush
  /-- An envelope is built for a failed row. -/
  | pushFailure (page : Nat) (envelope : Envelope)
  | writeDlq (page : Nat) (envelopes : List Envelope)
  | flushDlq
  /-- Fold a page's account into the run's counters. -/
  | foldAccount (account : PageAccount)
  | putState (page : Nat) (key : String) (value : Value)
  | getState (key : String)
  | applyStartBookmark (bookmark : Value)
  /-- The pages the source yields from where it stands. -/
  | streamPages
  | streamNative
  /-- The staging of an overwriting sink: opened, put in place, discarded. -/
  | beginOverwrite
  | commitOverwrite
  | abortOverwrite

/-- The answer each question gets. -/
def Op.Answer : Op -> Type
  | .isCancelled => Bool
  | .sleep _ => Bool
  | .applyGovernance _ _ => Except FaucetError GovernanceOutcome
  | .admitPage _ _ => Except FaucetError Unit
  | .batchSize => Nat
  | .writeGoverned _ _ => Except FaucetError WriteReport
  | .writeBatchPartial _ _ => Except FaucetError (List RowOutcome)
  | .writeBatchIdempotent _ _ _ _ => Except FaucetError WriteReport
  | .lastCommittedToken _ => Except FaucetError (Option String)
  | .encodeBatch _ _ => Except FaucetError Unit
  | .writeBatchColumnar _ _ => Except FaucetError Nat
  | .loadNative _ _ => Except FaucetError Nat
  | .flush => Except FaucetError Unit
  | .pushFailure _ _ => Unit
  | .writeDlq _ _ => Except FaucetError WriteReport
  | .flushDlq => Except FaucetError Unit
  | .foldAccount _ => Unit
  | .putState _ _ _ => Except FaucetError Unit
  | .getState _ => Except FaucetError (Option Value)
  | .applyStartBookmark _ => Except FaucetError Unit
  | .streamPages => List (Except FaucetError StreamPage)
  | .streamNative => List (Except FaucetError NativeBatch)
  | .beginOverwrite => Except FaucetError Unit
  | .commitOverwrite => Except FaucetError Unit
  | .abortOverwrite => Except FaucetError Unit

/-- A piece of the engine. -/
abbrev Engine (Result : Type) : Type := Program Op.Answer FaucetError Result

/-- Ask, and let a failed answer end the program: the source's `?`. -/
def call {Result : Type} (op : Op) (read : op.Answer -> Except FaucetError Result) : Engine Result :=
  .ask op (fun answer => .done (read answer))

namespace Engine

def flush : Engine Unit := call .flush id

/-- `PageAccount::settle`: fold the account into the run's counters and fail
the page when rows are missing. -/
def settle (account : PageAccount) : Engine Unit :=
  .ask (.foldAccount account) (fun _ =>
    if account.missing = 0 then pure ()
    else Program.raise (.rowsUnaccounted account.offered account.accepted))

/-- `dlq_write_error`: a refusal keeps its type. -/
def dlqWriteError (context : String) (error : FaucetError) : FaucetError :=
  match error with
  | .policyViolation _ _ _ | .budgetExceeded _ _ _ | .rowsUnaccounted _ _ => error
  | other => .sink (context ++ ": " ++ other.text)

/-- `gate::dlq`: every envelope must land. -/
def gateDlq (page : Nat) (envelopes : List Envelope) : Engine Nat := do
  let report <- call (.writeDlq page envelopes) id
  if report.accepted + report.coalesced < envelopes.length then
    Program.raise (.rowsUnaccounted envelopes.length report.accepted)
  else pure report.accepted

/-! ## Retries -/

/-- Wait out the backoff of an attempt: `false` when cancelled meanwhile. -/
def backoffWait (cancel : Bool) (wait : Nat) : Engine Bool :=
  if wait = 0 ∨ cancel = false then pure true
  else .ask (.sleep wait) (fun resumed => pure resumed)

/-- The retry loop from one attempt on, with a number of retries left. -/
def retryFrom {Result : Type} (policy : RetryPolicy) (cancel : Bool) (body : Nat -> Engine Result) :
    (left attempt : Nat) -> Engine Result
  | 0, attempt => body attempt
  | left + 1, attempt => do
      match (<- (body attempt).attempt) with
      | .ok value => pure value
      | .error error =>
          if policy.isRetriable error then
            if (<- backoffWait cancel (policy.wait attempt error)) then
              retryFrom policy cancel body left (attempt + 1)
            else Program.raise error
          else Program.raise error

/-- `with_retry!`: under the policy when there is one.  The body is told which
attempt it is. -/
def withRetry {Result : Type} (policy : Option RetryPolicy) (cancel : Bool) (body : Nat -> Engine Result) :
    Engine Result :=
  match policy with
  | some policy => retryFrom policy cancel body (max policy.maxAttempts 1 - 1) 0
  | none => body 0

/-- Flush the dead-letter sink. -/
def flushDlq (policy : Option RetryPolicy) (cancel : Bool) : Engine Unit :=
  (withRetry policy cancel (fun _ => call .flushDlq id)).mapFailure
    (fun error => .sink ("DLQ sink flush failed: " ++ error.text))

/-- `abort_with_envelopes`: make a page's quarantine envelopes durable. -/
def abortWithEnvelopes (page : Nat) (envelopes : List Envelope) : Engine Unit := do
  if envelopes.isEmpty then pure ()
  else
    let _ <- (gateDlq page envelopes).mapFailure (dlqWriteError "DLQ sink write failed")
    flushDlq none false

/-! ## Rules -/

section Rules

variable {World Result : Type} {env : Environment Op.Answer World} {invariant : World -> Prop}
  {pre escape : World -> Prop} {post : Result -> World -> Prop}

/-- Waiting changes nothing. -/
def Sleeps (env : Environment Op.Answer World) : Prop :=
  forall {milliseconds before answer after}, env (.sleep milliseconds) before answer after -> after = before

/-- Waiting, and asking how large a batch should be or whether the run is
cancelled, changes nothing. -/
structure Idle (env : Environment Op.Answer World) : Prop where
  sleep : forall {milliseconds before answer after}, env (.sleep milliseconds) before answer after ->
    after = before
  isCancelled : forall {before answer after}, env .isCancelled before answer after -> after = before
  batchSize : forall {before answer after}, env .batchSize before answer after -> after = before

theorem triple_call {op : Op} {read : op.Answer -> Except FaucetError Result}
    (answers : forall world answer after, invariant world -> pre world -> env op world answer after ->
      invariant after ∧ Ends post escape (read answer) after) :
    Triple env invariant pre (call op read) post escape :=
  Triple.ask (fun world answer after kept holds answered =>
    have step := answers world answer after kept holds answered
    ⟨step.1, fun still => ⟨still, step.2⟩⟩)

theorem triple_backoffWait (sleeps : Sleeps env) (cancel : Bool) (wait : Nat) :
    Triple env invariant pre (backoffWait cancel wait) (fun _ => pre) escape := by
  unfold backoffWait
  split
  · exact Triple.skip
  · refine Triple.ask (fun world answer after kept holds answered => ?_)
    rw [sleeps answered]
    exact ⟨kept, fun _ => ⟨kept, holds⟩⟩

/-- A body may be repeated when a failed attempt leaves what the next one
starts from. -/
theorem triple_retryFrom (sleeps : Sleeps env) (policy : RetryPolicy) (cancel : Bool) {pre : Nat -> World -> Prop}
    {body : Nat -> Engine Result}
    (once : forall attempt, Triple env invariant (pre attempt) (body attempt) post escape)
    (again : forall attempt world, escape world -> pre (attempt + 1) world) (left attempt : Nat) :
    Triple env invariant (pre attempt) (retryFrom policy cancel body left attempt) post escape := by
  induction left generalizing attempt with
  | zero => exact once attempt
  | succ left ih =>
      refine Triple.bind (Ends post escape) ((once attempt).attempt (fun _ _ ended => ended)) ?_
      intro result
      cases result with
      | ok value => exact Triple.pure (fun _ ends => ends)
      | error error =>
          by_cases retriable : policy.isRetriable error = true
          · simp only [retriable, if_true]
            refine Triple.bind (fun _ => escape) (triple_backoffWait sleeps cancel _) ?_
            intro resumed
            cases resumed with
            | true =>
                exact (ih (attempt + 1)).given (again attempt)
            | false => exact Triple.raise (fun _ ends => ends)
          · simp only [retriable]
            exact Triple.raise (fun _ ends => ends)

theorem triple_withRetry_from (sleeps : Sleeps env) (policy : Option RetryPolicy) (cancel : Bool)
    {pre : Nat -> World -> Prop} {body : Nat -> Engine Result}
    (once : forall attempt, Triple env invariant (pre attempt) (body attempt) post escape)
    (again : forall attempt world, escape world -> pre (attempt + 1) world) :
    Triple env invariant (pre 0) (withRetry policy cancel body) post escape := by
  cases policy with
  | none => exact once 0
  | some policy => exact triple_retryFrom sleeps policy cancel once again _ 0

/-- A body that leaves its precondition when it fails. -/
theorem triple_withRetry (sleeps : Sleeps env) (policy : Option RetryPolicy) (cancel : Bool)
    {body : Nat -> Engine Result}
    (once : forall attempt, Triple env invariant pre (body attempt) post escape)
    (again : forall world, escape world -> pre world) :
    Triple env invariant pre (withRetry policy cancel body) post escape :=
  triple_withRetry_from sleeps policy cancel once (fun _ => again)

variable {allowed : Op -> Prop} {returns : Result -> Prop}

theorem only_call {op : Op} {read : op.Answer -> Except FaucetError Result} (asked : allowed op) :
    Only allowed (fun _ => True) (call op read) :=
  ⟨asked, fun answer => Only.done (read answer)⟩

theorem only_retryFrom (waits : forall milliseconds, allowed (.sleep milliseconds)) (policy : RetryPolicy)
    (cancel : Bool) {body : Nat -> Engine Result} (once : forall attempt, Only allowed (fun _ => True) (body attempt))
    (left attempt : Nat) : Only allowed (fun _ => True) (retryFrom policy cancel body left attempt) := by
  induction left generalizing attempt with
  | zero => exact once attempt
  | succ left ih =>
      refine Only.bind _ (once attempt).attempt ?_
      intro result _
      cases result with
      | ok value => trivial
      | error error =>
          dsimp only
          split
          · refine Only.andThen ?_ ?_
            · unfold backoffWait
              split
              · trivial
              · exact ⟨waits _, fun _ => trivial⟩
            · intro resumed
              split
              · exact ih (attempt + 1)
              · trivial
          · trivial

theorem only_withRetry (waits : forall milliseconds, allowed (.sleep milliseconds))
    (policy : Option RetryPolicy) (cancel : Bool) {body : Nat -> Engine Result}
    (once : forall attempt, Only allowed (fun _ => True) (body attempt)) :
    Only allowed (fun _ => True) (withRetry policy cancel body) := by
  cases policy with
  | none => exact once 0
  | some policy => exact only_retryFrom waits policy cancel once _ _

theorem only_settle (folds : forall account, allowed (.foldAccount account)) (account : PageAccount) :
    Only allowed (fun _ => True) (settle account) := by
  refine ⟨folds account, fun _ => ?_⟩
  split
  · trivial
  · trivial

theorem only_gateDlq {page : Nat} (writes : forall envelopes, allowed (.writeDlq page envelopes))
    (envelopes : List Envelope) : Only allowed (fun _ => True) (gateDlq page envelopes) := by
  refine Only.andThen (only_call (writes envelopes)) ?_
  intro report
  split
  · trivial
  · trivial

end Rules

end Engine
end Pipeline
end FaucetStream
