import Mathlib.Algebra.Ring.Int.Defs
import Mathlib.Algebra.Ring.Nat
import FaucetStream.Budget.Merge
import FaucetStream.Pipeline.Engine

namespace FaucetStream
namespace Budget

open Json
open Library
open Governance
open Pipeline

/-!
# The sink that enforces a budget

A budget stands between the engine and a sink.  A page the engine is about to
slice is checked as a whole and its rows are prepaid; the writes that follow
use them up.  A write that is not prepaid is checked by itself.  The main sink
and the dead-letter sink of a run count on one state.

The timer of the duration ceiling is no part of the sink and is left out.
-/

/-! ## Size estimates -/

def digits (magnitude : Nat) : Nat := (Nat.toDigits 10 magnitude).length

/-- A number that is no integer of 64 bits is taken for a float. -/
def estimateNumberBytes : Number -> Nat
  | .int value =>
      if value < -(2 ^ 63) ∨ 2 ^ 64 ≤ value then 17
      else if value < 0 then 1 + digits value.natAbs
      else digits value.natAbs
  | .float _ => 17

mutual

def estimateJsonBytes : Value -> Nat
  | .null => 4
  | .bool true => 4
  | .bool false => 5
  | .number value => estimateNumberBytes value
  | .string text => text.utf8ByteSize + 2
  | .array items => estimateItemBytes items + 2 + (items.length - 1)
  | .object entries => estimateEntryBytes entries + 2 + (entries.length - 1)

def estimateItemBytes : List Value -> Nat
  | [] => 0
  | item :: rest => estimateJsonBytes item + estimateItemBytes rest

def estimateEntryBytes : List (String × Value) -> Nat
  | [] => 0
  | (key, value) :: rest => key.utf8ByteSize + 3 + estimateJsonBytes value + estimateEntryBytes rest

end

def estimatePageBytes (records : List Value) : Nat := (records.map estimateJsonBytes).sum

/-! ## The shared state -/

inductive BudgetKind where
  | records
  | bytes
  deriving DecidableEq

def BudgetKind.asStr : BudgetKind -> String
  | .records => "max_records"
  | .bytes => "max_bytes"

structure BudgetVerdict where
  kind : BudgetKind
  limit : Nat
  actual : Nat
  deriving DecidableEq

def BudgetVerdict.error (verdict : BudgetVerdict) : FaucetError :=
  .budgetExceeded verdict.kind.asStr verdict.limit verdict.actual

/-- The counters, the first verdict, and the run's token, which a refusal
cancels. -/
structure BudgetState where
  records : Nat
  bytes : Nat
  verdict : Option BudgetVerdict
  cancelled : Bool
  deriving DecidableEq

namespace BudgetState

def setVerdict (state : BudgetState) (verdict : BudgetVerdict) : BudgetState :=
  if state.verdict.isNone then { state with verdict := some verdict } else state

def refuse (state : BudgetState) (verdict : BudgetVerdict) : BudgetState :=
  { state.setVerdict verdict with cancelled := true }

def account (state : BudgetState) (accepted bytes : Nat) : BudgetState :=
  { state with records := state.records + accepted, bytes := state.bytes + bytes }

end BudgetState

/-! ## Admission -/

/-- What one budgeted sink decides by: the shared state, and how many rows of
an admitted page are not yet written. -/
structure Gate where
  state : BudgetState
  prepaid : Nat
  deriving DecidableEq

namespace BudgetSpec

/-- Bytes are only estimated under a ceiling for them. -/
def pageBytes (spec : BudgetSpec) (records : List Value) : Nat :=
  if spec.maxBytes.isSome then estimatePageBytes records else 0

/-- The ceiling that would be crossed. -/
def checkCeilings (spec : BudgetSpec) (state : BudgetState) (count bytes : Nat) : Option BudgetVerdict :=
  match spec.maxRecords.filter (fun limit => limit < state.records + count) with
  | some limit => some ⟨.records, limit, state.records + count⟩
  | none =>
      match spec.maxBytes.filter (fun limit => limit < state.bytes + bytes) with
      | some limit => some ⟨.bytes, limit, state.bytes + bytes⟩
      | none => none

/-- `BudgetSink::admit`, with the verdict a write is refused for.  After a
verdict everything is refused. -/
def admitWrite (spec : BudgetSpec) (gate : Gate) (count bytes : Nat) : Gate × Option BudgetVerdict :=
  match gate.state.verdict with
  | some verdict => (gate, some verdict)
  | none =>
      if count ≤ gate.prepaid ∧ 0 < count then ({ gate with prepaid := gate.prepaid - count }, none)
      else
        match spec.checkCeilings gate.state count bytes with
        | some verdict => (⟨gate.state.refuse verdict, 0⟩, some verdict)
        | none => ({ gate with prepaid := 0 }, none)

/-- The check of a whole page in `admit_page`. -/
def admitPage (spec : BudgetSpec) (state : BudgetState) (count bytes : Nat) : BudgetState × Option BudgetVerdict :=
  match state.verdict with
  | some verdict => (state, some verdict)
  | none =>
      match spec.checkCeilings state count bytes with
      | some verdict => (state.refuse verdict, some verdict)
      | none => (state, none)

end BudgetSpec

/-! ## A run with budgeted sinks -/

/-- What happened at the budget, for the record: a page admitted whole or
refused by the main sink's budget, and the rows the sinks inside accepted of a
write that reached them. -/
inductive Event where
  | admitted (page : Nat)
  | refused (page : Nat)
  | offered (page accepted : Nat)
  | deadLettered (accepted : Nat)
  deriving DecidableEq

def Event.accepted : Event -> Nat
  | .offered _ accepted => accepted
  | .deadLettered accepted => accepted
  | _ => 0

/-- The rows all sinks accepted. -/
def acceptedTotal (ledger : List Event) : Nat := (ledger.map Event.accepted).sum

/-- What a run's budget keeps: the shared state, the rows prepaid at either
sink, and the record. -/
structure Books where
  state : BudgetState
  prepaid : Nat
  dlqPrepaid : Nat
  ledger : List Event
  deriving DecidableEq

/-- The books, and the surroundings inside the budget. -/
structure BudgetWorld (Inner : Type) where
  books : Books
  inner : Inner

def Books.new : Books := ⟨⟨0, 0, none, false⟩, 0, 0, []⟩

namespace Books

/-- The main sink's budget refuses a write of a page. -/
def refuse (books : Books) (page : Nat) (gate : Gate) : Books :=
  { books with state := gate.state, prepaid := gate.prepaid, ledger := books.ledger ++ [.refused page] }

/-- A write of the main sink reaches the sink inside. -/
def offer (books : Books) (page : Nat) (gate : Gate) (count : Nat × Nat) : Books :=
  { books with
    state := gate.state.account count.1 count.2
    prepaid := gate.prepaid
    ledger := books.ledger ++ [.offered page count.1] }

/-- A page is admitted whole. -/
def admitted (books : Books) (page rows : Nat) : Books :=
  { books with prepaid := rows, ledger := books.ledger ++ [.admitted page] }

def refuseDeadLetters (books : Books) (gate : Gate) : Books :=
  { books with state := gate.state, dlqPrepaid := gate.prepaid }

def deadLetter (books : Books) (gate : Gate) (count : Nat × Nat) : Books :=
  { books with
    state := gate.state.account count.1 count.2
    dlqPrepaid := gate.prepaid
    ledger := books.ledger ++ [.deadLettered count.1] }

end Books

section Surroundings

variable {Inner : Type} (spec : BudgetSpec) (inner : Environment Op.Answer Inner)

/-- A write of the main sink: refused, or answered inside.  `count` reads off
the answer how many rows, and bytes, count as accepted. -/
def writeThrough (op : Op) (page rows bytes : Nat) (refusal : FaucetError -> op.Answer)
    (count : op.Answer -> Nat × Nat) (before : BudgetWorld Inner) (answer : op.Answer) (after : BudgetWorld Inner) :
    Prop :=
  match spec.admitWrite ⟨before.books.state, before.books.prepaid⟩ rows bytes with
  | (gate, some verdict) => answer = refusal verdict.error ∧ after = ⟨before.books.refuse page gate, before.inner⟩
  | (gate, none) =>
      exists next, inner op before.inner answer next ∧ after = ⟨before.books.offer page gate (count answer), next⟩

/-- A write of the dead-letter sink. -/
def deadLetterThrough (op : Op) (rows bytes : Nat) (refusal : FaucetError -> op.Answer)
    (count : op.Answer -> Nat × Nat) (before : BudgetWorld Inner) (answer : op.Answer) (after : BudgetWorld Inner) :
    Prop :=
  match spec.admitWrite ⟨before.books.state, before.books.dlqPrepaid⟩ rows bytes with
  | (gate, some verdict) =>
      answer = refusal verdict.error ∧ after = ⟨before.books.refuseDeadLetters gate, before.inner⟩
  | (gate, none) =>
      exists next, inner op before.inner answer next ∧ after = ⟨before.books.deadLetter gate (count answer), next⟩

/-- A page is offered whole: refused, or asked of the sink inside, and prepaid
when that admits it too. -/
def admitThrough (page : Nat) (rows : List GovernedRow) (bytes : Nat) (before : BudgetWorld Inner)
    (answer : Except FaucetError Unit) (after : BudgetWorld Inner) : Prop :=
  match spec.admitPage before.books.state rows.length bytes with
  | (state, some verdict) =>
      answer = .error verdict.error ∧
        after = ⟨before.books.refuse page ⟨state, before.books.prepaid⟩, before.inner⟩
  | (_, none) =>
      exists next, inner (.admitPage page rows) before.inner answer next ∧
        match answer with
        | .ok () => after = ⟨before.books.admitted page rows.length, next⟩
        | .error _ => after = ⟨before.books, next⟩

/-- A columnar batch is checked by itself and uses nothing up. -/
def columnarThrough (page : Nat) (records : List Value) (bytes : Nat) (before : BudgetWorld Inner)
    (answer : Except FaucetError Nat) (after : BudgetWorld Inner) : Prop :=
  match spec.admitPage before.books.state records.length bytes with
  | (state, some verdict) =>
      answer = .error verdict.error ∧
        after = ⟨before.books.refuse page ⟨state, before.books.prepaid⟩, before.inner⟩
  | (state, none) =>
      exists next, inner (.writeBatchColumnar page records) before.inner answer next ∧
        after = ⟨before.books.offer page ⟨state, before.books.prepaid⟩ (match answer with
          | .ok written => (written, bytes)
          | .error _ => (0, 0)), next⟩

/-- A report's rows count with the bytes of the whole write. -/
def countReport (bytes : Nat) : Except FaucetError WriteReport -> Nat × Nat
  | .ok report => (report.accepted, bytes)
  | .error _ => (0, 0)

def okOutcome : RowOutcome -> Bool
  | .ok _ => true
  | .error _ => false

/-- Of rows with outcomes of their own, those that succeeded count. -/
def countOutcomes (rows : List GovernedRow) : Except FaucetError (List RowOutcome) -> Nat × Nat
  | .ok outcomes =>
      (outcomes.countP okOutcome,
        if spec.maxBytes.isSome then
          (((rows.zip outcomes).filter (fun entry => okOutcome entry.2)).map
            (fun entry => estimateJsonBytes entry.1.record)).sum
        else 0)
  | .error _ => (0, 0)

/-- The bytes of governed rows. -/
def rowsBytes (rows : List GovernedRow) : Nat := spec.pageBytes (rows.map GovernedRow.record)

/-- The surroundings with both sinks under one budget, where `envelopeBytes` is
the estimated size of an envelope and `batchBytes` that of a columnar batch.
Native loads are off under a budget. -/
def budgeted (envelopeBytes : Envelope -> Nat) (batchBytes : List Value -> Nat) :
    Environment Op.Answer (BudgetWorld Inner) := fun op before answer after =>
  match op with
  | .admitPage page rows => admitThrough spec inner page rows (rowsBytes spec rows) before answer after
  | .writeGoverned page rows =>
      writeThrough spec inner (.writeGoverned page rows) page rows.length (rowsBytes spec rows) .error
        (countReport (rowsBytes spec rows)) before answer after
  | .writeBatchPartial page rows =>
      writeThrough spec inner (.writeBatchPartial page rows) page rows.length (rowsBytes spec rows) .error
        (countOutcomes spec rows) before answer after
  | .writeBatchIdempotent page rows scope token =>
      writeThrough spec inner (.writeBatchIdempotent page rows scope token) page rows.length (rowsBytes spec rows)
        .error (countReport (rowsBytes spec rows)) before answer after
  | .writeBatchColumnar page records =>
      columnarThrough spec inner page records (batchBytes records) before answer after
  | .loadNative _ _ => (exists error, answer = .error error) ∧ after = before
  | .writeDlq page envelopes =>
      let bytes := if spec.maxBytes.isSome then (envelopes.map envelopeBytes).sum else 0
      deadLetterThrough spec inner (.writeDlq page envelopes) envelopes.length bytes .error (countReport bytes) before
        answer after
  | .isCancelled =>
      exists next, inner .isCancelled before.inner answer next ∧
        (before.books.state.cancelled = true -> answer = true) ∧ after = ⟨before.books, next⟩
  | op => exists next, inner op before.inner answer next ∧ after = ⟨before.books, next⟩

end Surroundings

/-- Sinks that report no more accepted rows than they were offered. -/
structure Honest {Inner : Type} (inner : Environment Op.Answer Inner) : Prop where
  writeGoverned : forall {page rows before report after},
    inner (.writeGoverned page rows) before (.ok report) after -> report.accepted ≤ rows.length
  writeBatchPartial : forall {page rows before outcomes after},
    inner (.writeBatchPartial page rows) before (.ok outcomes) after -> outcomes.countP okOutcome ≤ rows.length
  writeBatchIdempotent : forall {page rows scope token before report after},
    inner (.writeBatchIdempotent page rows scope token) before (.ok report) after -> report.accepted ≤ rows.length
  writeDlq : forall {page envelopes before report after},
    inner (.writeDlq page envelopes) before (.ok report) after -> report.accepted ≤ envelopes.length

end Budget
end FaucetStream
