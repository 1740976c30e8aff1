import FaucetStream.PostgresCdc.Changes

namespace FaucetStream
namespace PostgresCdc

open Json

/-!
# The replication loop

One turn of the loop takes in an event, a keepalive or a timeout, puts a
committed transaction into the batch, and sends the batch as a page when it is
due.  How much time has passed and when the cycle is told to stop are free.

Beside the loop stands the feed: what the server has sent so far.  Its
transactions arrive whole and in order, and a keepalive at some LSN promises
that no later transaction commits below it.
-/

/-- Committed transactions collected into the next page. -/
structure CommitBatch where
  records : List Value := []
  lsn : Option Nat := none

namespace CommitBatch

def push (batch : CommitBatch) (lsn : Nat) (records : List Value) : CommitBatch :=
  ⟨batch.records ++ records, some (batch.lsn.elim lsn (max · lsn))⟩

/-- `aged` says that the batch has waited for the flush interval. -/
def isDue (batch : CommitBatch) (batchSize : Nat) (aged : Bool) : Bool :=
  batch.lsn.isSome && (batchSize == 0 || decide (batchSize ≤ batch.records.length) || aged)

end CommitBatch

/-- The position a keepalive lets a bookmark claim. -/
def quietPosition (walEnd : Nat) (inTxn : Bool) (claimed : Nat) : Option Nat :=
  if !inTxn && decide (claimed < walEnd) then some walEnd else none

structure StreamPage where
  records : List Value
  bookmark : Value

structure Settings where
  batchSize : Nat
  maxMessages : Option Nat

def Settings.perTransaction (settings : Settings) : Bool := settings.batchSize != 0

inductive Arrival where
  | keepAlive (walEnd : Nat)
  | event (event : ReplicationEvent)
  | timeout

/-- The variables of the loop, and the pages sent so far. -/
structure Cycle where
  registry : RelationRegistry
  state : TxnState
  aggRecords : List Value
  totalRecords : Nat
  batch : CommitBatch
  claimed : Nat
  idleLsn : Option Nat
  pages : List StreamPage
  ended : Bool

namespace Cycle

def start (startLsn maxStagedRecords : Option Nat) (moneyFractionDigits : Nat) : Cycle where
  registry := .new
  state := { maxStagedRecords := maxStagedRecords, moneyFractionDigits := some moneyFractionDigits }
  aggRecords := []
  totalRecords := 0
  batch := {}
  claimed := startLsn.getD 0
  idleLsn := none
  pages := []
  ended := false

/-- What one branch of the `select!` takes in, with a transaction that was just
committed. -/
def receive (textToJson : Nat -> String -> Option Nat -> Except FaucetError Value) (settings : Settings)
    (cycle : Cycle) :
    Arrival -> Except FaucetError (Cycle × Option (Nat × List Value))
  | .keepAlive walEnd =>
      match quietPosition walEnd cycle.state.inTxn (max cycle.claimed (cycle.batch.lsn.getD 0)) with
      | some lsn =>
          .ok ({ cycle with
            idleLsn := some lsn
            batch := if settings.perTransaction then cycle.batch.push lsn [] else cycle.batch }, none)
      | none => .ok (cycle, none)
  | .event event => do
      let (registry, state, committed) <- handleEvent textToJson cycle.registry cycle.state event
      let next := { cycle with registry := registry, state := state }
      if cycle.state.inTxn && !state.inTxn && decide (state.lastCommitted ≠ cycle.state.lastCommitted) then
        .ok ({ next with totalRecords := next.totalRecords + committed.length },
          state.lastCommitted.map (fun lsn => (lsn, committed)))
      else .ok (next, none)
  | .timeout => .ok (cycle, none)

def collect (settings : Settings) (cycle : Cycle) (justCommitted : Option (Nat × List Value)) : Cycle × Bool :=
  match justCommitted with
  | some (lsn, drained) =>
      (if settings.perTransaction then { cycle with batch := cycle.batch.push lsn drained }
        else { cycle with aggRecords := cycle.aggRecords ++ drained },
        settings.maxMessages.any (fun max => decide (max ≤ cycle.totalRecords)))
  | none => (cycle, false)

/-- Send the batch. -/
def flush (cycle : Cycle) : Cycle :=
  match cycle.batch.lsn with
  | some lsn =>
      { cycle with
        batch := {}
        claimed := max cycle.claimed lsn
        pages := cycle.pages ++ [⟨cycle.batch.records, (Bookmark.fromU64 lsn).toValue⟩] }
  | none => cycle

/-- The larger of two positions; none is below every position. -/
def furthest : Option Nat -> Option Nat -> Option Nat
  | some left, some right => some (max left right)
  | some left, none => some left
  | none, right => right

/-- After the loop: in aggregated mode the one page. -/
def finish (settings : Settings) (cycle : Cycle) : Cycle :=
  let cycle := { cycle with ended := true }
  if settings.perTransaction then cycle
  else
    match furthest cycle.state.lastCommitted cycle.idleLsn with
    | some lsn => { cycle with pages := cycle.pages ++ [⟨cycle.aggRecords, (Bookmark.fromU64 lsn).toValue⟩] }
    | none => cycle

/-- One turn.  `roots` answers the query for partition roots, `stopped` says
that the cycle was told to stop. -/
def turn (textToJson : Nat -> String -> Option Nat -> Except FaucetError Value) (settings : Settings) (cycle : Cycle)
    (arrival : Arrival) (roots : List (Nat × String)) (aged stopped : Bool) : Except FaucetError Cycle := do
  let (cycle, justCommitted) <- cycle.receive textToJson settings arrival
  let (cycle, full) := collect settings { cycle with registry := cycle.registry.resolve roots } justCommitted
  let stop := stopped || full
  let cycle := if settings.perTransaction && (stop || cycle.batch.isDue settings.batchSize aged) then cycle.flush
    else cycle
  .ok (if stop then cycle.finish settings else cycle)

end Cycle

/-! ## The feed -/

/-- A transaction with the records of its changes. -/
structure Transaction where
  commitLsn : Nat
  endLsn : Nat
  records : List Value

/-- What the server has sent: whole transactions, the part of one in progress,
and the highest LSN a keepalive has promised. -/
structure Feed where
  sent : List Transaction
  opened : Option (Nat × List Value)
  promised : Nat

/-- One turn of the loop on what the server sends next. -/
inductive Step (textToJson : Nat -> String -> Option Nat -> Except FaucetError Value) (settings : Settings) :
    Feed × Cycle -> Feed × Cycle -> Prop where
  | keepAlive {feed : Feed} {cycle next : Cycle} {walEnd : Nat} {roots : List (Nat × String)} {aged stopped : Bool}
      (running : cycle.ended = false) (small : walEnd < 2 ^ 64)
      (kept : forall lsn records, feed.opened = some (lsn, records) -> walEnd ≤ lsn)
      (done : cycle.turn textToJson settings (.keepAlive walEnd) roots aged stopped = .ok next) :
      Step textToJson settings (feed, cycle) ({ feed with promised := max feed.promised walEnd }, next)
  | begin {feed : Feed} {cycle next : Cycle} {commitLsn : Nat} {ts : Int} {roots : List (Nat × String)}
      {aged stopped : Bool} (running : cycle.ended = false) (closed : feed.opened = none) (small : commitLsn < 2 ^ 64)
      (increasing : forall txn, txn ∈ feed.sent -> txn.commitLsn < commitLsn) (kept : feed.promised ≤ commitLsn)
      (done : cycle.turn textToJson settings (.event (.begin commitLsn ts)) roots aged stopped = .ok next) :
      Step textToJson settings (feed, cycle) ({ feed with opened := some (commitLsn, []) }, next)
  | change {feed : Feed} {cycle next : Cycle} {commitLsn : Nat} {records added : List Value} {message : Message}
      {roots : List (Nat × String)} {aged stopped : Bool} (running : cycle.ended = false)
      (progress : feed.opened = some (commitLsn, records))
      (decoded : changeRecords textToJson cycle.registry cycle.state message = .ok added)
      (done : cycle.turn textToJson settings (.event (.xLogData (.ok message))) roots aged stopped = .ok next) :
      Step textToJson settings (feed, cycle) ({ feed with opened := some (commitLsn, records ++ added) }, next)
  | commit {feed : Feed} {cycle next : Cycle} {commitLsn endLsn : Nat} {records : List Value}
      {roots : List (Nat × String)} {aged stopped : Bool} (running : cycle.ended = false)
      (progress : feed.opened = some (commitLsn, records)) (small : endLsn < 2 ^ 64) (after : commitLsn < endLsn)
      (increasing : forall txn, txn ∈ feed.sent -> txn.endLsn < endLsn)
      (done : cycle.turn textToJson settings (.event (.commit endLsn)) roots aged stopped = .ok next) :
      Step textToJson settings (feed, cycle)
        ({ feed with sent := feed.sent ++ [⟨commitLsn, endLsn, records⟩], opened := none }, next)
  | logicalMessage {feed : Feed} {cycle next : Cycle} {roots : List (Nat × String)} {aged stopped : Bool}
      (running : cycle.ended = false)
      (done : cycle.turn textToJson settings (.event .message) roots aged stopped = .ok next) :
      Step textToJson settings (feed, cycle) (feed, next)
  | timeout {feed : Feed} {cycle next : Cycle} {roots : List (Nat × String)} {aged stopped : Bool}
      (running : cycle.ended = false)
      (done : cycle.turn textToJson settings .timeout roots aged stopped = .ok next) :
      Step textToJson settings (feed, cycle) (feed, next)

inductive Reaches (textToJson : Nat -> String -> Option Nat -> Except FaucetError Value) (settings : Settings)
    (startLsn maxStagedRecords : Option Nat) (moneyFractionDigits : Nat) : Feed × Cycle -> Prop where
  | start : Reaches textToJson settings startLsn maxStagedRecords moneyFractionDigits
      (⟨[], none, 0⟩, .start startLsn maxStagedRecords moneyFractionDigits)
  | step {now next : Feed × Cycle}
      (reached : Reaches textToJson settings startLsn maxStagedRecords moneyFractionDigits now)
      (moves : Step textToJson settings now next) :
      Reaches textToJson settings startLsn maxStagedRecords moneyFractionDigits next

/-- The records of some pages. -/
def carried (pages : List StreamPage) : List Value := pages.flatMap StreamPage.records

/-- The records of some transactions. -/
def recordsOf (transactions : List Transaction) : List Value := transactions.flatMap Transaction.records

namespace Feed

/-- Every commit record lies at or past the end of the one before it. -/
def Spaced (feed : Feed) : Prop :=
  feed.sent.Pairwise (fun first second => first.endLsn ≤ second.commitLsn) ∧
    forall lsn records, feed.opened = some (lsn, records) -> forall txn, txn ∈ feed.sent -> txn.endLsn ≤ lsn

/-- The records staged so far, of whole transactions and of the one in
progress. -/
def Staged (feed : Feed) (record : Value) : Prop :=
  record ∈ recordsOf feed.sent ∨ exists lsn records, feed.opened = some (lsn, records) ∧ record ∈ records

end Feed

end PostgresCdc
end FaucetStream
