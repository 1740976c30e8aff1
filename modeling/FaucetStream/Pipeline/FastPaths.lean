import FaucetStream.Pipeline.Stream

namespace FaucetStream
namespace Pipeline

open Json
open Library
open Governance
open Engine

/-!
# The columnar and the native run

`run_stream_columnar` and `run_stream_native`.  Both repeat the order of the
streaming run by hand: write, flush, store the position.  The columnar loop
governs a batch when a pass is configured and routes the envelopes itself; the
native loop hands bytes through and, under overwrite, holds the position back
until the load is final.
-/

/-- The options of a columnar run. -/
structure ColumnarRun where
  specs : GovernanceSpecs
  dlq : Option DlqConfig
  /-- The state key, when the run has a store. -/
  state : Option String
  cancel : Bool

/-- A run stops at a page boundary when its token has fired. -/
def cancelledAtBoundary (cancel : Bool) : Engine Bool :=
  if cancel then .ask .isCancelled (fun fired => pure fired) else pure false

/-- Store a position when the run has a store. -/
def putPosition (state : Option String) (page : Nat) (bookmark : Value) : Engine Unit :=
  match state with
  | some key => call (.putState page key bookmark) id
  | none => pure ()

/-- Flush the sink, then store the position. -/
def flushAndPut (state : Option String) (page : Nat) (bookmark : Value) : Engine Unit := do
  flush
  putPosition state page bookmark

/-- `clearance`: no pass is configured. -/
def cleared (specs : GovernanceSpecs) : Bool :=
  specs.masking.isNone && specs.quality.isNone && specs.contract.isNone && specs.schemaDrift.isNone

namespace ColumnarRun

structure LoopState where
  recordsWritten : Nat
  lastBookmark : Option Value
  dlqStats : DlqStats
  deriving DecidableEq

/-- What governance leaves of a batch: the records to write, how many were set
aside, the counters, and an abort to raise once the page is durable. -/
structure GovernedBatch where
  records : List Value
  quarantined : Nat
  dlqStats : DlqStats
  deferred : Option FaucetError

/-- Write a page's quarantine envelopes. -/
def routeEnvelopes (run : ColumnarRun) (page : Nat) (envelopes : List Envelope) (stats : DlqStats) :
    Engine (DlqStats × Option FaucetError) :=
  if envelopes.isEmpty then pure (stats, none)
  else
    match run.dlq with
    | none => Program.raise (.config "governance quarantined records but no DLQ sink is configured")
    | some dlq => do
        let _ <- (gateDlq page envelopes).mapFailure (dlqWriteError "DLQ write failed")
        pure (stats.count envelopes.length,
          Run.budgetError dlq envelopes.length (stats.recordsDlq + envelopes.length))

/-- A batch through governance.  Without a pass it goes to the sink as it is. -/
def governBatch (run : ColumnarRun) (page : Nat) (content : StreamPage) (stats : DlqStats) :
    Engine GovernedBatch :=
  if cleared run.specs || content.records.isEmpty then pure ⟨content.records, 0, stats, none⟩
  else do
    let outcome <- call (.applyGovernance page content.records) id
    match outcome.deferredAbort with
    | some error =>
        match run.dlq with
        | some _ => do
            abortWithEnvelopes page outcome.envelopes
            Program.raise error
        | none => Program.raise error
    | none => do
        let routed <- run.routeEnvelopes page outcome.envelopes stats
        call (.encodeBatch page outcome.records) id
        pure ⟨outcome.records, outcome.envelopes.length, routed.1, routed.2⟩

/-- Hand a batch to the sink; an empty one is not written. -/
def writeBatch (page : Nat) (records : List Value) : Engine Nat :=
  if records.isEmpty then pure 0 else call (.writeBatchColumnar page records) id

/-- Flush the sink, then store the position.  The dead-letter sink is not
flushed here. -/
def checkpoint (run : ColumnarRun) (page : Nat) : Option Value -> Engine Unit
  | none => pure ()
  | some bookmark => flushAndPut run.state page bookmark

def stepPage (run : ColumnarRun) (page : Nat) (content : StreamPage) (state : LoopState) :
    Engine LoopState := do
  let batch <- run.governBatch page content state.dlqStats
  let written <- writeBatch page batch.records
  settle { PageAccount.new content.records.length with accepted := written, quarantined := batch.quarantined }
  run.checkpoint page content.bookmark
  match batch.deferred with
  | some error => Program.raise error
  | none =>
      pure ⟨state.recordsWritten + written, content.bookmark.orElse (fun _ => state.lastBookmark),
        batch.dlqStats⟩

def pageLoop (run : ColumnarRun) :
    List (Except FaucetError StreamPage) -> (page : Nat) -> LoopState -> Engine LoopState
  | items, page, state => do
      if (<- cancelledAtBoundary run.cancel) then pure state
      else
        match items with
        | [] => pure state
        | .error error :: _ => Program.raise error
        | .ok content :: rest => do
            let state <- run.stepPage page content state
            pageLoop run rest (page + 1) state

/-- The run over the batches of the source, counted from 1. -/
def runStream (run : ColumnarRun) (items : List (Except FaucetError StreamPage)) : Engine PipelineResult := do
  let state <- run.pageLoop items 1 ⟨0, none, ⟨0, 0⟩⟩
  flush
  pure ⟨state.recordsWritten, state.lastBookmark, run.dlq.map (fun _ => state.dlqStats)⟩

end ColumnarRun

/-! ## The native run -/

structure NativeRun where
  overwrite : Bool
  state : Option String
  cancel : Bool

namespace NativeRun

/-- The loop's counters, the position held back under overwrite with its page,
and whether the next batch is the first. -/
structure LoopState where
  recordsWritten : Nat
  lastBookmark : Option Value
  pendingBookmark : Option (Nat × Value)
  firstBatch : Bool
  deriving DecidableEq

/-- Flush and store the position of a batch, or hold it back. -/
def checkpoint (run : NativeRun) (page : Nat) (bookmark : Option Value) (state : LoopState) :
    Engine LoopState :=
  match bookmark with
  | none => pure state
  | some bookmark =>
      if run.overwrite then pure { state with pendingBookmark := some (page, bookmark) }
      else do
        flushAndPut run.state page bookmark
        pure { state with lastBookmark := some bookmark }

def stepPage (run : NativeRun) (page : Nat) (batch : NativeBatch) (state : LoopState) : Engine LoopState := do
  let loaded <- call (.loadNative page state.firstBatch) id
  settle { PageAccount.new (batch.records.getD loaded) with accepted := loaded }
  run.checkpoint page batch.bookmark
    { state with recordsWritten := state.recordsWritten + loaded, firstBatch := false }

/-- The loop, with whether it ended on a cancellation. -/
def pageLoop (run : NativeRun) :
    List (Except FaucetError NativeBatch) -> (page : Nat) -> LoopState -> Engine (LoopState × Bool)
  | items, page, state => do
      if (<- cancelledAtBoundary run.cancel) then pure (state, true)
      else
        match items with
        | [] => pure (state, false)
        | .error error :: _ => Program.raise error
        | .ok batch :: rest => do
            let state <- run.stepPage page batch state
            pageLoop run rest (page + 1) state

/-- The terminal flush, and the position held back until it. -/
def finish (run : NativeRun) (state : LoopState) : Engine PipelineResult := do
  flush
  match state.pendingBookmark with
  | some (page, bookmark) => do
      putPosition run.state page bookmark
      pure ⟨state.recordsWritten, some bookmark, none⟩
  | none => pure ⟨state.recordsWritten, state.lastBookmark, none⟩

def runStream (run : NativeRun) (items : List (Except FaucetError NativeBatch)) : Engine PipelineResult := do
  let (state, cancelled) <- run.pageLoop items 1 ⟨0, none, none, true⟩
  if cancelled && run.overwrite then pure ⟨state.recordsWritten, none, none⟩ else run.finish state

end NativeRun
end Pipeline
end FaucetStream
