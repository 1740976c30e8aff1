import FaucetStream.History.Journal
import FaucetStream.Library.EventRun

namespace FaucetStream
namespace History

open Json
open Library

/-!
# Claiming and reclaiming a run

The servers of a cluster share the table of runs.  A server that wants to
change a run reads its body, changes it, and writes it back by an `UPDATE`
whose condition is on the status, the owner and the lease only.  Each statement
is atomic, but any number of other statements may come between the read and the
write.  A run whose owner no longer renews its lease is put back for another
server, with one more attempt on it, until the attempts are used up.
-/

/-! ## The row of a run -/

/-- What a row's body holds: a run record with the fields the writes change. -/
structure RunBody extends RunRecord where
  attempt : Nat
  startedAt : Option Nat
  elapsed : Option Nat
  /-- The records written and the invocations. -/
  results : Value
  error : Option String
  deriving DecidableEq

structure ClusterRow where
  status : RunStatus
  owner : Option String
  leaseExpiresAt : Option Nat
  finishedAt : Option Nat
  cancelRequested : Option Nat
  body : RunBody
  deriving DecidableEq

structure ClusterSettings where
  leaseTtl : String -> Nat
  maxAttempts : Nat

/-- How an execution ended, as `Terminal::into_parts` gives it. -/
structure RunOutcome where
  status : RunStatus
  ended : status.isTerminal = true
  started : Nat
  finished : Nat
  results : Value
  error : Option String
  deriving DecidableEq

/-- What a server is doing to the run, with what it knew before it read the
row. -/
inductive RunOperation where
  | claimPending (now : Nat)
  | reclaimOrphans (now : Nat)
  | finalizeOwned (outcome : RunOutcome)
  | releaseOwned
  | cancelPending
  | failPending (error : String)
  deriving DecidableEq

def leaseExpired (now : Nat) (lease : Option Nat) : Bool :=
  match lease with
  | none => true
  | some expires => decide (expires < now)

namespace RunOperation

/-- The condition of the `SELECT`, with the checks made on what it read. -/
def reads (row : ClusterRow) : RunOperation -> Bool
  | .claimPending _ => decide (row.status = .pending)
  | .reclaimOrphans now => decide (row.status = .running) && leaseExpired now row.leaseExpiresAt
  | .finalizeOwned _ => true
  | .releaseOwned => true
  | .cancelPending => decide (row.body.status = .pending)
  | .failPending _ => decide (row.status = .pending)

/-- The condition of the `UPDATE`. -/
def finds (server : String) (row : ClusterRow) : RunOperation -> Bool
  | .claimPending _ => decide (row.status = .pending)
  | .reclaimOrphans now => decide (row.status = .running) && leaseExpired now row.leaseExpiresAt
  | .finalizeOwned _ => decide (row.owner = some server) && !row.status.isTerminal
  | .releaseOwned => decide (row.owner = some server) && decide (row.status = .running)
  | .cancelPending => decide (row.status = .pending)
  | .failPending _ => decide (row.status = .pending)

end RunOperation

/-! ## The bodies that are written -/

/-- `rec.attempt + 1`, an addition of 32 bits. -/
def nextAttempt (body : RunBody) : Nat := (body.attempt + 1) % 2 ^ 32

def poisonError (attempt : Nat) : String :=
  "run reclaimed " ++ toString attempt ++
    " times after its owning instance's lease expired; giving up (poison run)"

def poisoned (now : Nat) (body : RunBody) : RunBody :=
  { body with
    attempt := nextAttempt body
    status := .failed
    finishedAt := some now
    error := some (poisonError (nextAttempt body))
    elapsed := match body.elapsed, body.startedAt with
      | none, some started => if started ≤ now then some (now - started) else none
      | elapsed, _ => elapsed }

def RunOutcome.finish (outcome : RunOutcome) (body : RunBody) : RunBody :=
  { body with
    status := outcome.status
    startedAt := some (body.startedAt.getD outcome.started)
    finishedAt := some outcome.finished
    elapsed := if outcome.started ≤ outcome.finished then some (outcome.finished - outcome.started) else none
    results := outcome.results
    error := outcome.error }

/-- `RunRecord::queued`, which stands in for a record that could not be read. -/
def queuedBody (runId : String) : RunBody where
  runId := runId
  status := .queued
  finishedAt := none
  submittedBy := none
  labels := []
  fields := .null
  attempt := 0
  startedAt := none
  elapsed := none
  results := .null
  error := none

/-- The `SET` part of an `UPDATE`, from the body that was read.  The time is
the one the statement's server has read last. -/
def RunOperation.sets (settings : ClusterSettings) (server : String) (now : Nat) (body : RunBody) (row : ClusterRow) :
    RunOperation -> ClusterRow
  | .claimPending claimed =>
      { row with
        status := .running
        owner := some server
        leaseExpiresAt := some (claimed + settings.leaseTtl server)
        body := { body with status := .running } }
  | .reclaimOrphans reclaimed =>
      if body.attempt < settings.maxAttempts then
        { row with
          status := .pending
          owner := none
          leaseExpiresAt := none
          body := { body with attempt := nextAttempt body, status := .pending } }
      else
        { row with
          status := .failed
          owner := none
          finishedAt := some reclaimed
          body := poisoned reclaimed body }
  | .finalizeOwned outcome =>
      { row with
        status := outcome.status
        finishedAt := some outcome.finished
        leaseExpiresAt := some (now + settings.leaseTtl server)
        body := outcome.finish body }
  | .releaseOwned =>
      { row with
        status := .pending
        owner := none
        leaseExpiresAt := none
        body := { body with status := .pending, startedAt := none } }
  | .cancelPending =>
      { row with
        status := .cancelled
        finishedAt := some now
        body := { body with status := .cancelled, finishedAt := some now } }
  | .failPending error =>
      { row with
        status := .failed
        finishedAt := some now
        body := { body with status := .failed, finishedAt := some now, error := some error } }

/-! ## The cluster -/

/-- An operation between its `SELECT` and its `UPDATE`. -/
structure HeldRead where
  server : String
  operation : RunOperation
  body : RunBody
  /-- How often the run had been requeued when the body was read, if it was
  read.  No statement looks at this. -/
  readAt : Option Nat
  deriving DecidableEq

/-- One run and the operations under way on it.  The reclaims are counted
beside it; no statement looks at the counts. -/
structure Cluster (Task : Type) where
  row : ClusterRow
  clock : Nat := 0
  held : Task -> Option HeldRead := fun _ => none
  requeues : Nat := 0
  poisonings : Nat := 0

inductive ClusterEvent (Task : Type) where
  | tick (now : Nat)
  | select (task : Task) (server : String) (operation : RunOperation)
  /-- The read before `finalize_owned` failed, and a fresh record stands in. -/
  | readFailed (task : Task) (server : String) (outcome : RunOutcome)
  | update (task : Task) (now : Nat)
  /-- The server stops, or leaves this run out. -/
  | abandon (task : Task)
  | renewLeases (server : String) (now : Nat)
  | requestCancel (now : Nat)
  deriving DecidableEq

variable {Task : Type} [DecidableEq Task]

namespace RunOperation

/-- The time an operation read before its `SELECT`. -/
def began (clock : Nat) : RunOperation -> Bool
  | .claimPending now => decide (now ≤ clock)
  | .reclaimOrphans now => decide (now ≤ clock)
  | _ => true

/-- Whether this operation puts the run back for another attempt. -/
def requeues (settings : ClusterSettings) (body : RunBody) : RunOperation -> Bool
  | .reclaimOrphans _ => decide (body.attempt < settings.maxAttempts)
  | _ => false

/-- Whether this operation gives the run up. -/
def poisons (settings : ClusterSettings) (body : RunBody) : RunOperation -> Bool
  | .reclaimOrphans _ => !decide (body.attempt < settings.maxAttempts)
  | _ => false

end RunOperation

namespace Cluster

def hold (cluster : Cluster Task) (task : Task) (held : Option HeldRead) : Cluster Task :=
  { cluster with held := Function.update cluster.held task held }

/-- An `UPDATE` changes the row it finds, and none otherwise. -/
def write (settings : ClusterSettings) (now : Nat) (held : HeldRead) (cluster : Cluster Task) : Cluster Task :=
  if held.operation.finds held.server cluster.row then
    { cluster with
      row := held.operation.sets settings held.server now held.body cluster.row
      requeues := cluster.requeues + (held.operation.requeues settings held.body).toNat
      poisonings := cluster.poisonings + (held.operation.poisons settings held.body).toNat }
  else cluster

def renew (settings : ClusterSettings) (server : String) (now : Nat) (row : ClusterRow) : ClusterRow :=
  if row.owner = some server ∧ (row.status = .queued ∨ row.status = .running) then
    { row with leaseExpiresAt := some (now + settings.leaseTtl server) }
  else row

def flagCancelled (now : Nat) (row : ClusterRow) : ClusterRow :=
  if row.status = .running ∨ row.status = .sharded then { row with cancelRequested := some now } else row

def step (settings : ClusterSettings) (cluster : Cluster Task) : ClusterEvent Task -> Option (Cluster Task)
  | .tick now => if cluster.clock ≤ now then some { cluster with clock := now } else none
  | .select task server operation =>
      if cluster.held task = none ∧ operation.began cluster.clock ∧ operation.reads cluster.row then
        some (cluster.hold task (some ⟨server, operation, cluster.row.body, some cluster.requeues⟩))
      else none
  | .readFailed task server outcome =>
      if cluster.held task = none then
        some (cluster.hold task (some ⟨server, .finalizeOwned outcome, queuedBody cluster.row.body.runId, none⟩))
      else none
  | .update task now =>
      match cluster.held task with
      | some held =>
          if now ≤ cluster.clock then some ((cluster.write settings now held).hold task none) else none
      | none => none
  | .abandon task => some (cluster.hold task none)
  | .renewLeases server now =>
      if now ≤ cluster.clock then some { cluster with row := renew settings server now cluster.row } else none
  | .requestCancel now =>
      if now ≤ cluster.clock then some { cluster with row := flagCancelled now cluster.row } else none

/-- The body that this event writes, if it writes one, was read since the run
was last requeued. -/
def ReadsSince (cluster : Cluster Task) : ClusterEvent Task -> Prop
  | .update task _ =>
      forall held, cluster.held task = some held -> held.operation.finds held.server cluster.row = true ->
        held.readAt = some cluster.requeues
  | _ => True

/-- This event is a `reclaim_requeue` that changes the row. -/
def Requeues (settings : ClusterSettings) (cluster : Cluster Task) : ClusterEvent Task -> Prop
  | .update task _ =>
      exists held, cluster.held task = some held ∧ held.operation.finds held.server cluster.row = true ∧
        held.operation.requeues settings held.body = true
  | _ => False

end Cluster

/-! ## What a write does -/

namespace RunOperation

/-- No `UPDATE` finds a row that is over. -/
theorem finds_alive {server : String} {row : ClusterRow} {operation : RunOperation}
    (found : operation.finds server row = true) : row.status.isTerminal = false := by
  cases operation with
  | claimPending now | cancelPending | failPending error =>
      rw [of_decide_eq_true found]
      rfl
  | reclaimOrphans now =>
      rw [of_decide_eq_true (Bool.and_eq_true_iff.mp found).1]
      rfl
  | finalizeOwned outcome =>
      exact (Bool.not_eq_true' _).mp (Bool.and_eq_true_iff.mp found).2
  | releaseOwned =>
      rw [of_decide_eq_true (Bool.and_eq_true_iff.mp found).2]
      rfl

variable (settings : ClusterSettings) (server : String) (now : Nat) {body : RunBody} (row : ClusterRow)

theorem sets_of_requeues {operation : RunOperation} (requeued : operation.requeues settings body = true) :
    (operation.sets settings server now body row).body.attempt = nextAttempt body ∧
      (operation.sets settings server now body row).status = .pending ∧
        operation.poisons settings body = false ∧ body.attempt < settings.maxAttempts := by
  cases operation with
  | reclaimOrphans reclaimed =>
      have below : body.attempt < settings.maxAttempts := of_decide_eq_true requeued
      unfold sets poisons
      dsimp only
      rw [if_pos below, decide_eq_true below]
      exact ⟨rfl, rfl, rfl, below⟩
  | _ => cases requeued

theorem sets_of_poisons {operation : RunOperation} (given : operation.poisons settings body = true) :
    (operation.sets settings server now body row).body.attempt = nextAttempt body ∧
      (operation.sets settings server now body row).status = .failed ∧
        operation.requeues settings body = false := by
  cases operation with
  | reclaimOrphans reclaimed =>
      have reached : ¬body.attempt < settings.maxAttempts :=
        of_decide_eq_false ((Bool.not_eq_true' _).mp given)
      unfold sets requeues
      dsimp only
      rw [if_neg reached, decide_eq_false reached]
      exact ⟨rfl, rfl, rfl⟩
  | _ => cases given

/-- Every other write keeps the attempt of the body that was read. -/
theorem sets_attempt {operation : RunOperation} (requeued : operation.requeues settings body = false)
    (given : operation.poisons settings body = false) :
    (operation.sets settings server now body row).body.attempt = body.attempt := by
  cases operation with
  | reclaimOrphans reclaimed =>
      change decide (body.attempt < settings.maxAttempts) = false at requeued
      change (!decide (body.attempt < settings.maxAttempts)) = false at given
      rw [requeued] at given
      cases given
  | _ => rfl

end RunOperation

/-! ## One step -/

namespace Cluster

variable {settings : ClusterSettings} {cluster next : Cluster Task}

theorem renew_keeps (server : String) (now : Nat) (row : ClusterRow) :
    (renew settings server now row).status = row.status ∧ (renew settings server now row).body = row.body ∧
      (row.status.isTerminal = true -> renew settings server now row = row) := by
  unfold renew
  split
  case isTrue found =>
    refine ⟨rfl, rfl, ?_⟩
    intro ended
    rcases found.2 with queued | running
    · rw [queued] at ended
      cases ended
    · rw [running] at ended
      cases ended
  case isFalse => exact ⟨rfl, rfl, fun _ => rfl⟩

theorem flagCancelled_keeps (now : Nat) (row : ClusterRow) :
    (flagCancelled now row).status = row.status ∧ (flagCancelled now row).body = row.body ∧
      (row.status.isTerminal = true -> flagCancelled now row = row) := by
  unfold flagCancelled
  split
  case isTrue found =>
    refine ⟨rfl, rfl, ?_⟩
    intro ended
    rcases found with running | sharded
    · rw [running] at ended
      cases ended
    · rw [sharded] at ended
      cases ended
  case isFalse => exact ⟨rfl, rfl, fun _ => rfl⟩

/-- A step that writes no body.  What is held after it was held before, or
stands in for a body that could not be read, or was just read. -/
structure Quiet (cluster next : Cluster Task) : Prop where
  status : next.row.status = cluster.row.status
  body : next.row.body = cluster.row.body
  requeues : next.requeues = cluster.requeues
  poisonings : next.poisonings = cluster.poisonings
  frozen : cluster.row.status.isTerminal = true -> next.row = cluster.row
  held : forall task held, next.held task = some held -> cluster.held task = some held ∨ held.readAt = none ∨
    (held.readAt = some cluster.requeues ∧ held.body = cluster.row.body)

omit [DecidableEq Task] in
theorem quiet_of_row (row : ClusterRow) {clock : Nat}
    (kept : row.status = cluster.row.status ∧ row.body = cluster.row.body ∧
      (cluster.row.status.isTerminal = true -> row = cluster.row)) :
    Quiet cluster { cluster with row := row, clock := clock } :=
  ⟨kept.1, kept.2.1, rfl, rfl, kept.2.2, fun _ _ held => Or.inl held⟩

theorem quiet_hold (task : Task) {held : Option HeldRead}
    (fits : forall new, held = some new -> new.readAt = none ∨
      (new.readAt = some cluster.requeues ∧ new.body = cluster.row.body)) :
    Quiet cluster (cluster.hold task held) := by
  refine ⟨rfl, rfl, rfl, rfl, fun _ => rfl, ?_⟩
  intro other old isHeld
  change Function.update cluster.held task held other = some old at isHeld
  by_cases same : other = task
  · rw [same, Function.update_self] at isHeld
    exact Or.inr (fits old isHeld)
  · rw [Function.update_of_ne same] at isHeld
    exact Or.inl isHeld

/-- A step leaves the body and the counts alone, or is an `UPDATE` that finds
the row. -/
theorem step_cases {event : ClusterEvent Task} (stepped : cluster.step settings event = some next) :
    (Quiet cluster next ∧ ¬cluster.Requeues settings event) ∨
      exists task now held, event = .update task now ∧ cluster.held task = some held ∧
        held.operation.finds held.server cluster.row = true ∧
          next = (cluster.write settings now held).hold task none := by
  cases event with
  | tick now =>
      refine Or.inl ⟨?_, id⟩
      unfold step at stepped
      dsimp only at stepped
      split at stepped
      case isTrue =>
        cases stepped
        exact quiet_of_row cluster.row ⟨rfl, rfl, fun _ => rfl⟩
      case isFalse => cases stepped
  | select task server operation =>
      refine Or.inl ⟨?_, id⟩
      unfold step at stepped
      dsimp only at stepped
      split at stepped
      case isTrue =>
        cases stepped
        apply quiet_hold
        intro new isNew
        cases isNew
        exact Or.inr ⟨rfl, rfl⟩
      case isFalse => cases stepped
  | readFailed task server outcome =>
      refine Or.inl ⟨?_, id⟩
      unfold step at stepped
      dsimp only at stepped
      split at stepped
      case isTrue =>
        cases stepped
        apply quiet_hold
        intro new isNew
        cases isNew
        exact Or.inl rfl
      case isFalse => cases stepped
  | update task now =>
      unfold step at stepped
      dsimp only at stepped
      cases isHeld : cluster.held task with
      | none =>
          rw [isHeld] at stepped
          cases stepped
      | some held =>
          rw [isHeld] at stepped
          dsimp only at stepped
          split at stepped
          case isTrue =>
            cases stepped
            cases found : held.operation.finds held.server cluster.row with
            | true => exact Or.inr ⟨task, now, held, rfl, isHeld, found, rfl⟩
            | false =>
                left
                unfold write
                rw [found, if_neg Bool.false_ne_true]
                refine ⟨quiet_hold task (fun _ impossible => nomatch impossible), ?_⟩
                rintro ⟨other, also, foundOther, _⟩
                rw [isHeld] at also
                cases also
                rw [found] at foundOther
                cases foundOther
          case isFalse => cases stepped
  | abandon task =>
      refine Or.inl ⟨?_, id⟩
      cases stepped
      exact quiet_hold task (fun _ impossible => nomatch impossible)
  | renewLeases server now =>
      refine Or.inl ⟨?_, id⟩
      unfold step at stepped
      dsimp only at stepped
      split at stepped
      case isTrue =>
        cases stepped
        exact quiet_of_row _ (renew_keeps server now cluster.row)
      case isFalse => cases stepped
  | requestCancel now =>
      refine Or.inl ⟨?_, id⟩
      unfold step at stepped
      dsimp only at stepped
      split at stepped
      case isTrue =>
        cases stepped
        exact quiet_of_row _ (flagCancelled_keeps now cluster.row)
      case isFalse => cases stepped

/-! ## Every run -/

/-- While the run is not over, its attempt counts the requeues from the attempt
it began with, and so does what was read since the last of them. -/
structure Counted (settings : ClusterSettings) (base : Nat) (cluster : Cluster Task) : Prop where
  alive : cluster.row.status.isTerminal = false ->
    cluster.row.body.attempt = base + cluster.requeues ∧ cluster.poisonings = 0
  single : cluster.poisonings ≤ 1
  failed : cluster.poisonings ≠ 0 -> cluster.row.status = .failed
  bounded : cluster.requeues = 0 ∨ base + cluster.requeues ≤ settings.maxAttempts
  earlier : forall task held count, cluster.held task = some held -> held.readAt = some count ->
    count ≤ cluster.requeues
  read : forall task held, cluster.held task = some held -> held.readAt = some cluster.requeues ->
    cluster.row.status.isTerminal = false -> held.body.attempt = base + cluster.requeues

omit [DecidableEq Task] in
theorem counted_initially (settings : ClusterSettings) (row : ClusterRow) (clock : Nat) :
    Counted settings row.body.attempt ({ row := row, clock := clock } : Cluster Task) where
  alive := fun _ => ⟨rfl, rfl⟩
  single := Nat.zero_le 1
  failed := fun some => absurd rfl some
  bounded := Or.inl rfl
  earlier := fun _ _ _ impossible => nomatch impossible
  read := fun _ _ impossible => nomatch impossible

omit [DecidableEq Task] in
theorem Counted.quiet {base : Nat} (counted : Counted settings base cluster) (quiet : Quiet cluster next) :
    Counted settings base next where
  alive := by
    rw [quiet.status, quiet.body, quiet.requeues, quiet.poisonings]
    exact counted.alive
  single := by
    rw [quiet.poisonings]
    exact counted.single
  failed := by
    rw [quiet.poisonings, quiet.status]
    exact counted.failed
  bounded := by
    rw [quiet.requeues]
    exact counted.bounded
  earlier := by
    intro task held count isHeld readAt
    rw [quiet.requeues]
    rcases quiet.held task held isHeld with old | unread | ⟨now, _⟩
    · exact counted.earlier task held count old readAt
    · rw [unread] at readAt
      cases readAt
    · rw [now] at readAt
      cases readAt
      exact Nat.le_refl _
  read := by
    intro task held isHeld readAt alive
    rw [quiet.requeues] at readAt ⊢
    rw [quiet.status] at alive
    rcases quiet.held task held isHeld with old | unread | ⟨_, same⟩
    · exact counted.read task held old readAt alive
    · rw [unread] at readAt
      cases readAt
    · rw [same]
      exact (counted.alive alive).1

omit [DecidableEq Task] in
/-- No attempt comes to the last number of 32 bits. -/
theorem Counted.below {base : Nat} (counted : Counted settings base cluster) (small : base + 1 < 2 ^ 32)
    (capped : settings.maxAttempts + 1 < 2 ^ 32) : base + cluster.requeues + 1 < 2 ^ 32 := by
  rcases counted.bounded with none | most
  · rw [none]
    exact small
  · omega

/-- What an `UPDATE` that finds the row leaves. -/
structure Written (settings : ClusterSettings) (held : HeldRead) (cluster next : Cluster Task) : Prop where
  row : exists now, next.row = held.operation.sets settings held.server now held.body cluster.row
  requeues : next.requeues = cluster.requeues + (held.operation.requeues settings held.body).toNat
  poisonings : next.poisonings = cluster.poisonings + (held.operation.poisons settings held.body).toNat
  held : forall task other, next.held task = some other -> cluster.held task = some other

theorem written_of_found {task : Task} {held : HeldRead} {now : Nat}
    (found : held.operation.finds held.server cluster.row = true)
    (isNext : next = (cluster.write settings now held).hold task none) : Written settings held cluster next := by
  unfold write at isNext
  rw [if_pos found] at isNext
  cases isNext
  refine ⟨⟨now, rfl⟩, rfl, rfl, ?_⟩
  intro other read isHeld
  change Function.update cluster.held task none other = some read at isHeld
  by_cases same : other = task
  · rw [same, Function.update_self] at isHeld
    cases isHeld
  · rw [Function.update_of_ne same] at isHeld
    exact isHeld

omit [DecidableEq Task] in
/-- A requeue counts, and what was read before it no longer does. -/
theorem Counted.requeue {base : Nat} {held : HeldRead} (counted : Counted settings base cluster)
    (alive : cluster.row.status.isTerminal = false) (below : base + cluster.requeues + 1 < 2 ^ 32)
    (same : held.body.attempt = base + cluster.requeues) (written : Written settings held cluster next)
    (requeued : held.operation.requeues settings held.body = true) :
    Counted settings base next ∧ next.row.body.attempt = cluster.row.body.attempt + 1 := by
  rcases written.row with ⟨now, row⟩
  rcases RunOperation.sets_of_requeues settings held.server now cluster.row requeued with
    ⟨attempt, pending, unpoisoned, under⟩
  have count : next.requeues = cluster.requeues + 1 := by
    rw [written.requeues, requeued]
    rfl
  have poisonings : next.poisonings = 0 := by
    rw [written.poisonings, unpoisoned, (counted.alive alive).2]
    rfl
  have raised : next.row.body.attempt = base + cluster.requeues + 1 := by
    rw [row, attempt]
    unfold nextAttempt
    rw [same, Nat.mod_eq_of_lt below]
  refine ⟨?_, by rw [raised, (counted.alive alive).1]⟩
  exact {
    alive := fun _ => ⟨by rw [raised, count, Nat.add_assoc], poisonings⟩
    single := by
      rw [poisonings]
      exact Nat.zero_le 1
    failed := fun some => absurd poisonings some
    bounded := by
      rw [same] at under
      rw [count]
      exact Or.inr under
    earlier := by
      intro task other number isHeld readAt
      have before := counted.earlier task other number (written.held task other isHeld) readAt
      rw [count]
      exact Nat.le_succ_of_le before
    read := by
      intro task other isHeld readAt _
      have before := counted.earlier task other next.requeues (written.held task other isHeld) readAt
      rw [count] at before
      exact absurd before (Nat.not_succ_le_self cluster.requeues) }

omit [DecidableEq Task] in
/-- A run that is given up is over. -/
theorem Counted.poison {base : Nat} {held : HeldRead} (counted : Counted settings base cluster)
    (alive : cluster.row.status.isTerminal = false) (below : base + cluster.requeues + 1 < 2 ^ 32)
    (same : held.body.attempt = base + cluster.requeues) (written : Written settings held cluster next)
    (given : held.operation.poisons settings held.body = true) :
    Counted settings base next ∧ next.row.body.attempt = cluster.row.body.attempt + 1 := by
  rcases written.row with ⟨now, row⟩
  rcases RunOperation.sets_of_poisons settings held.server now cluster.row given with ⟨attempt, failed, unrequeued⟩
  have count : next.requeues = cluster.requeues := by
    rw [written.requeues, unrequeued]
    rfl
  have poisonings : next.poisonings = 1 := by
    rw [written.poisonings, given, (counted.alive alive).2]
    rfl
  have ended : next.row.status = .failed := by rw [row, failed]
  have raised : next.row.body.attempt = cluster.row.body.attempt + 1 := by
    rw [row, attempt, (counted.alive alive).1]
    unfold nextAttempt
    rw [same, Nat.mod_eq_of_lt below]
  refine ⟨?_, raised⟩
  exact {
    alive := by
      intro stillAlive
      rw [ended] at stillAlive
      cases stillAlive
    single := Nat.le_of_eq poisonings
    failed := fun _ => ended
    bounded := by
      rw [count]
      exact counted.bounded
    earlier := by
      intro task other number isHeld readAt
      rw [count]
      exact counted.earlier task other number (written.held task other isHeld) readAt
    read := by
      intro task other isHeld readAt stillAlive
      rw [ended] at stillAlive
      cases stillAlive }

omit [DecidableEq Task] in
/-- Every other write puts the same attempt back. -/
theorem Counted.putBack {base : Nat} {held : HeldRead} (counted : Counted settings base cluster)
    (alive : cluster.row.status.isTerminal = false)
    (same : held.body.attempt = base + cluster.requeues) (written : Written settings held cluster next)
    (unrequeued : held.operation.requeues settings held.body = false)
    (ungiven : held.operation.poisons settings held.body = false) :
    Counted settings base next ∧ next.row.body.attempt = cluster.row.body.attempt := by
  rcases written.row with ⟨now, row⟩
  have attempt : next.row.body.attempt = base + cluster.requeues := by
    rw [row, RunOperation.sets_attempt settings held.server now cluster.row unrequeued ungiven, same]
  have count : next.requeues = cluster.requeues := by
    rw [written.requeues, unrequeued]
    rfl
  have poisonings : next.poisonings = 0 := by
    rw [written.poisonings, ungiven, (counted.alive alive).2]
    rfl
  refine ⟨?_, by rw [attempt, (counted.alive alive).1]⟩
  exact {
    alive := fun _ => ⟨by rw [attempt, count], poisonings⟩
    single := by
      rw [poisonings]
      exact Nat.zero_le 1
    failed := fun some => absurd poisonings some
    bounded := by
      rw [count]
      exact counted.bounded
    earlier := by
      intro task other number isHeld readAt
      rw [count]
      exact counted.earlier task other number (written.held task other isHeld) readAt
    read := by
      intro task other isHeld readAt _
      rw [count] at readAt ⊢
      exact counted.read task other (written.held task other isHeld) readAt alive }

/-- One step that meets the condition. -/
theorem Counted.step {base : Nat} (counted : Counted settings base cluster) (small : base + 1 < 2 ^ 32)
    (capped : settings.maxAttempts + 1 < 2 ^ 32) {event : ClusterEvent Task} (since : cluster.ReadsSince event)
    (stepped : cluster.step settings event = some next) :
    Counted settings base next ∧ cluster.row.body.attempt ≤ next.row.body.attempt ∧
      (cluster.Requeues settings event -> next.row.body.attempt = cluster.row.body.attempt + 1) ∧
        (cluster.row.status.isTerminal = true -> next.row = cluster.row) := by
  rcases step_cases stepped with ⟨quiet, unrequeued⟩ | ⟨task, now, held, isUpdate, isHeld, found, isNext⟩
  · refine ⟨counted.quiet quiet, ?_, fun requeued => absurd requeued unrequeued, quiet.frozen⟩
    rw [quiet.body]
  · cases isUpdate
    have alive : cluster.row.status.isTerminal = false := RunOperation.finds_alive found
    have below := counted.below small capped
    have same : held.body.attempt = base + cluster.requeues :=
      counted.read task held isHeld (since held isHeld found) alive
    have written := written_of_found found isNext
    have frozen : cluster.row.status.isTerminal = true -> next.row = cluster.row := by
      rw [alive]
      exact fun impossible => nomatch impossible
    cases requeued : held.operation.requeues settings held.body with
    | true =>
        rcases counted.requeue alive below same written requeued with ⟨kept, raised⟩
        exact ⟨kept, by rw [raised]; exact Nat.le_succ _, fun _ => raised, frozen⟩
    | false =>
        have unrequeued : ¬cluster.Requeues settings (.update task now) := by
          rintro ⟨other, also, _, requeuedOther⟩
          rw [isHeld] at also
          cases also
          rw [requeued] at requeuedOther
          cases requeuedOther
        cases given : held.operation.poisons settings held.body with
        | true =>
            rcases counted.poison alive below same written given with ⟨kept, raised⟩
            exact ⟨kept, by rw [raised]; exact Nat.le_succ _, fun requeues => absurd requeues unrequeued, frozen⟩
        | false =>
            rcases counted.putBack alive same written requeued given with ⟨kept, equal⟩
            exact ⟨kept, Nat.le_of_eq equal.symm, fun requeues => absurd requeues unrequeued, frozen⟩

omit [DecidableEq Task] in
theorem Counted.reclaims {base : Nat} (counted : Counted settings base cluster) :
    cluster.requeues ≤ settings.maxAttempts ∧
      cluster.requeues + cluster.poisonings ≤ settings.maxAttempts + 1 := by
  have single := counted.single
  rcases counted.bounded with none | most
  · omega
  · omega

/-- What holds from a state of a run on. -/
structure Later (settings : ClusterSettings) (base : Nat) (middle cluster : Cluster Task) : Prop where
  counted : Counted settings base cluster
  grown : middle.row.body.attempt ≤ cluster.row.body.attempt
  frozen : middle.row.status.isTerminal = true -> cluster.row = middle.row

/-- In every run in which each `UPDATE` that changes the row writes a body that
was read since the run was last requeued: the stored attempt never decreases, a
requeue adds one to it, a run that is over stays as it is, and the run is
reclaimed at most once more than it may be attempted again, the last time to
fail. -/
theorem reclaims_remembered {row : ClusterRow} {clock : Nat} {front rest : List (ClusterEvent Task)}
    {middle last : Cluster Task}
    (small : row.body.attempt + 1 < 2 ^ 32) (capped : settings.maxAttempts + 1 < 2 ^ 32)
    (reached : runEvents (Cluster.step settings) { row := row, clock := clock } front = some middle)
    (onward : runEvents (Cluster.step settings) middle rest = some last)
    (before : EachStep (Cluster.step settings) ReadsSince { row := row, clock := clock } front)
    (after : EachStep (Cluster.step settings) ReadsSince middle rest) :
    middle.row.body.attempt ≤ last.row.body.attempt ∧
      (forall event next, last.ReadsSince event -> last.step settings event = some next ->
        last.Requeues settings event -> next.row.body.attempt = last.row.body.attempt + 1) ∧
      (middle.row.status.isTerminal = true -> last.row = middle.row) ∧
      last.requeues ≤ settings.maxAttempts ∧ last.requeues + last.poisonings ≤ settings.maxAttempts + 1 ∧
      (last.poisonings ≠ 0 -> last.row.status = .failed) := by
  have counted : Counted settings row.body.attempt middle := by
    refine before.keeps ?_ reached (counted_initially settings row clock)
    intro state event next since stepped holds
    exact (holds.step small capped since stepped).1
  have later : Later settings row.body.attempt middle last := by
    refine after.keeps ?_ onward ⟨counted, Nat.le_refl _, fun _ => rfl⟩
    intro state event next since stepped holds
    rcases holds.counted.step small capped since stepped with ⟨kept, grown, _, still⟩
    refine ⟨kept, Nat.le_trans holds.grown grown, ?_⟩
    intro ended
    have same := holds.frozen ended
    rw [← same] at ended
    rw [still ended, same]
  refine ⟨later.grown, ?_, later.frozen, later.counted.reclaims.1, later.counted.reclaims.2, later.counted.failed⟩
  intro event next since stepped requeued
  exact (later.counted.step small capped since stepped).2.2.1 requeued

/-- A run as it is submitted. -/
def submitted : ClusterRow where
  status := .pending
  owner := none
  leaseExpiresAt := none
  finishedAt := none
  cancelRequested := none
  body := { queuedBody "r1" with status := .pending }

def oneRetry : ClusterSettings where
  leaseTtl := fun _ => 10
  maxAttempts := 1

/-- One server claims the run and dies, and another puts it back. -/
def diedOnce : List (ClusterEvent Nat) :=
  [.select 0 "a" (.claimPending 0), .update 0 0, .tick 20, .select 1 "b" (.reclaimOrphans 20), .update 1 20]

def claimedAgain : List (ClusterEvent Nat) := [.select 0 "c" (.claimPending 20), .update 0 20]

theorem reclaims_remembered_once :
    exists middle last : Cluster Nat,
      runEvents (Cluster.step oneRetry) { row := submitted } diedOnce = some middle ∧
        runEvents (Cluster.step oneRetry) middle claimedAgain = some last ∧
        middle.row.body.attempt = 1 ∧ middle.row.body.attempt ≤ last.row.body.attempt ∧
        last.row.status = .running ∧ last.requeues + last.poisonings ≤ 2 := by
  have known : forall {read held : HeldRead}, some read = some held -> held.readAt = read.readAt :=
    fun same => congrArg HeldRead.readAt (Option.some.inj same).symm
  have before : EachStep (Cluster.step oneRetry) ReadsSince ({ row := submitted } : Cluster Nat) diedOnce := by
    refine .cons ?_ rfl (.cons ?_ rfl (.cons ?_ rfl (.cons ?_ rfl (.cons ?_ rfl ?_))))
    · trivial
    · exact fun _ same _ => known same
    · trivial
    · trivial
    · exact fun _ same _ => known same
    · trivial
  have remembered : forall middle last : Cluster Nat,
      runEvents (Cluster.step oneRetry) { row := submitted } diedOnce = some middle ->
      runEvents (Cluster.step oneRetry) middle claimedAgain = some last ->
      middle.row.body.attempt ≤ last.row.body.attempt ∧ last.requeues + last.poisonings ≤ 2 := by
    intro middle last reached onward
    have after : EachStep (Cluster.step oneRetry) ReadsSince middle claimedAgain := by
      cases reached
      refine .cons ?_ rfl (.cons ?_ rfl ?_)
      · trivial
      · exact fun _ same _ => known same
      · trivial
    rcases reclaims_remembered (by decide) (by decide) reached onward before after with
      ⟨grown, _, _, _, reclaims, _⟩
    exact ⟨grown, reclaims⟩
  exact ⟨_, _, rfl, rfl, rfl, (remembered _ _ rfl rfl).1, rfl, (remembered _ _ rfl rfl).2⟩

/-- Three servers read the run while it is pending.  Each claims it when it has
been put back after the one before, and writes the attempt away. -/
def staleClaims : List (ClusterEvent Nat) :=
  [.select 4 "d" (.reclaimOrphans 20), .update 4 20, .update 2 20, .select 5 "d" (.reclaimOrphans 20), .update 5 20]

/-- The attempt goes from one back to none, and the run is reclaimed three times
although it may be attempted again only once. -/
theorem stale_claim_forgets :
    exists middle stale last : Cluster Nat,
      runEvents (Cluster.step oneRetry) { row := submitted }
        [.select 0 "a" (.claimPending 0), .select 1 "b" (.claimPending 0), .select 2 "c" (.claimPending 0),
          .update 0 0, .tick 20, .select 3 "d" (.reclaimOrphans 20), .update 3 20] = some middle ∧
        middle.step oneRetry (.update 1 20) = some stale ∧
        runEvents (Cluster.step oneRetry) stale staleClaims = some last ∧
        middle.row.body.attempt = 1 ∧ stale.row.body.attempt = 0 ∧
        last.requeues = 3 ∧ oneRetry.maxAttempts + 1 < last.requeues := by
  refine ⟨_, _, _, rfl, rfl, rfl, rfl, rfl, rfl, ?_⟩
  decide

end Cluster

end History
end FaucetStream
