import FaucetStream.Pipeline.Engine

namespace FaucetStream
namespace Pipeline

open Json
open Library
open Governance
open Delivery
open Engine

/-!
# The streaming run

`run_stream_with`: the start-up checks, the page loop with its three branches
(with a dead-letter queue, exactly-once, and neither), and the flushes at the
end of the run or on its way out.
-/

/-- A run's options with the sink it writes to. -/
structure Run where
  options : RunStreamOptions
  sink : SinkTraits

/-- What the loop carries from page to page. -/
structure LoopState where
  recordsWritten : Nat
  lastBookmark : Option Value
  dlqStats : DlqStats
  nextSeq : Nat
  /-- The circuit breaker and its cooldown. -/
  breaker : Option (CircuitBreaker × Nat)
  deriving DecidableEq

namespace Run

variable (run : Run)

def labels : Labels :=
  ⟨run.sink.connectorName, run.options.pipelineName.getD "unnamed", run.options.row.getD ""⟩

def retryPolicy : Option RetryPolicy := run.options.resilience.map ResiliencePolicy.retry

def poison (run : Run) : Option PoisonPolicy := run.options.resilience.bind ResiliencePolicy.poison

def retrying {Result : Type} (body : Nat -> Engine Result) : Engine Result :=
  withRetry run.retryPolicy run.options.cancel body

/-- `with_retry_write!`: a plain write is only repeated when that is safe. -/
def retryingWrite {Result : Type} (body : Engine Result) : Engine Result :=
  if run.retryPolicy.isSome && run.sink.writeBatchIsReplaySafe then run.retrying (fun _ => body) else body

/-- Store a value as the position after a page, when the run has a store. -/
def persist (page : Nat) (value : Value) : Engine Unit :=
  match run.options.stateStore, run.options.stateKey with
  | true, some key => run.retrying (fun _ => call (.putState page key value) id)
  | _, _ => pure ()

/-- Flush the sink, then store the position. -/
def flushAndPersist (page : Nat) (value : Value) : Engine Unit := do
  run.retrying (fun _ => flush)
  run.persist page value

/-! ## Rows that fail one by one -/

/-- What the slices of one page add up to. -/
structure SliceState where
  envelopes : List Envelope
  pageSuccess : Nat
  failed : Nat
  dropped : Nat

def outcomeCountMismatch (connector : String) (got want : Nat) : FaucetError :=
  .sink ("sink `" ++ connector ++ "` returned " ++ toString got ++ " per-row outcomes for " ++ toString want ++
    " rows; `write_batch_partial` must return exactly one outcome per input row")

/-- Write one slice and get an outcome for each of its rows, with whether they
were made up from one failure of the whole write. -/
def writeChunk (dlq : DlqConfig) (page : Nat) (chunk : List GovernedRow) :
    Engine (List RowOutcome × Bool) := do
  match (<- (run.retryingWrite (call (.writeBatchPartial page chunk) id)).attempt) with
  | .ok outcomes =>
      if outcomes.length ≠ chunk.length then
        Program.raise (outcomeCountMismatch run.sink.connectorName outcomes.length chunk.length)
      else pure (outcomes, false)
  | .error (.budgetExceeded budget limit actual) => Program.raise (.budgetExceeded budget limit actual)
  | .error (.policyViolation rule column message) => Program.raise (.policyViolation rule column message)
  | .error (.rowsUnaccounted offered accepted) => Program.raise (.rowsUnaccounted offered accepted)
  | .error error =>
      match dlq.onBatchError with
      | .propagate => Program.raise error
      | .dlqAll => pure (List.replicate chunk.length (.error (.sink error.text)), true)

/-- The positions of a slice that failed with an error the policy retries. -/
def failingRows (policy : Option RetryPolicy) (outcomes : List RowOutcome) : List Nat :=
  outcomes.zipIdx.filterMap (fun entry => match entry.1 with
    | .error error => if policy.any (fun policy => policy.isRetriable error) then some entry.2 else none
    | .ok _ => none)

/-- `GovernedPage::select`. -/
def selectRows (chunk : List GovernedRow) (indices : List Nat) : List GovernedRow :=
  indices.filterMap (fun index => chunk[index]?)

/-- Put the outcomes of a repeated subset back where its rows stand. -/
def writeBack (outcomes : List RowOutcome) (failing : List Nat) (retried : List RowOutcome) :
    List RowOutcome :=
  (failing.zip retried).foldl (fun outcomes entry => outcomes.set entry.1 entry.2) outcomes

/-- Resubmit the rows that keep failing, a number of times at most. -/
def poisonRetries (run : Run) (page : Nat) (chunk : List GovernedRow) :
    (left : Nat) -> List RowOutcome -> Engine (List RowOutcome)
  | 0, outcomes => pure outcomes
  | left + 1, outcomes =>
      let failing := failingRows run.retryPolicy outcomes
      if failing.isEmpty then pure outcomes
      else do
        let subset := selectRows chunk failing
        let retried <- call (.writeBatchPartial page subset) id
        if retried.length ≠ subset.length then
          Program.raise (outcomeCountMismatch run.sink.connectorName retried.length subset.length)
        else poisonRetries run page chunk left (writeBack outcomes failing retried)

/-- Count each row of a slice, from position `j` on: a success, or what the
poison action makes of a failure. -/
def settleRows (run : Run) (page : Nat) (synthesized : Bool) (offset : Nat) :
    List (GovernedRow × RowOutcome) -> (j : Nat) -> SliceState -> Engine SliceState
  | [], _, state => pure state
  | (_, .ok _) :: rest, j, state =>
      settleRows run page synthesized offset rest (j + 1) { state with pageSuccess := state.pageSuccess + 1 }
  | (row, .error error) :: rest, j, state =>
      match (run.poison.map PoisonPolicy.action).getD .dlq with
      | .fail => Program.raise (.sink ("poison-pill row failed permanently: " ++ error.text))
      | .drop =>
          settleRows run page synthesized offset rest (j + 1) { state with dropped := state.dropped + 1 }
      | .dlq =>
          let reason : DlqReason := if synthesized then .dlqAll else .partialWrite
          let envelope := buildEnvelope row.record error reason run.labels (offset + j)
          .ask (.pushFailure page envelope) (fun _ =>
            settleRows run page synthesized offset rest (j + 1)
              { state with envelopes := state.envelopes ++ [envelope], failed := state.failed + 1 })

/-- The size of the next slice: the whole rest without adaptive sizing. -/
def sliceSize (remaining : Nat) : Engine Nat :=
  if run.options.adaptive.isSome then
    .ask .batchSize (fun (current : Nat) => pure (min (max current 1) remaining))
  else pure remaining

/-- Resubmission under the poison policy.  Outcomes made up from one failure of
the whole write are left alone. -/
def resubmit (page : Nat) (chunk : List GovernedRow) (written : List RowOutcome × Bool) :
    Engine (List RowOutcome) :=
  match run.poison, written.2 with
  | some poison, false => run.poisonRetries page chunk (poison.maxRowAttempts - 1) written.1
  | _, _ => pure written.1

/-- Write one slice of a page: the write, the resubmissions, and the count. -/
def writeSlice (dlq : DlqConfig) (page : Nat) (chunk : List GovernedRow) (offset : Nat)
    (state : SliceState) : Engine SliceState := do
  let written <- run.writeChunk dlq page chunk
  let outcomes <- run.resubmit page chunk written
  run.settleRows page written.2 offset (chunk.zip outcomes) 0 state

/-- The slices of a page.  Each takes at least one row, so as many rounds as
there are rows are enough. -/
def slices (run : Run) (dlq : DlqConfig) (page : Nat) :
    (rounds : Nat) -> (remaining : List GovernedRow) -> (offset : Nat) -> SliceState -> Engine SliceState
  | 0, _, _, state => pure state
  | rounds + 1, remaining, offset, state =>
      if remaining.isEmpty then pure state
      else do
        let size <- run.sliceSize remaining.length
        let state <- run.writeSlice dlq page (remaining.take size) offset state
        slices run dlq page rounds (remaining.drop size) (offset + size) state

/-! ## A page with a dead-letter queue -/

/-- A page on which nothing succeeded counts against the breaker. -/
def noteBreaker (breaker : Option (CircuitBreaker × Nat)) (rows success : Nat) :
    Option (CircuitBreaker × Nat) × Option FaucetError :=
  match breaker with
  | none => (none, none)
  | some (breaker, cooldown) =>
      if 0 < rows ∧ success = 0 then
        let (next, opened) := breaker.recordFailure
        (some (next, cooldown), if opened then some (.circuitOpen next.consecutive cooldown) else none)
      else if 0 < success then (some (breaker.recordSuccess, cooldown), none)
      else (some (breaker, cooldown), none)

/-- The first dead-letter budget a page breaks. -/
def budgetError (dlq : DlqConfig) (pageFailures total : Nat) : Option FaucetError :=
  match dlq.maxFailuresPerPage.filter (fun limit => limit < pageFailures) with
  | some limit =>
      some (.sink ("DLQ per-page budget exceeded: " ++ toString pageFailures ++ " > " ++ toString limit))
  | none =>
      match dlq.maxFailuresTotal.filter (fun limit => limit < total) with
      | some limit =>
          some (.sink ("DLQ total budget exceeded: " ++ toString total ++ " > " ++ toString limit))
      | none => none

/-- Write a page's envelopes, retried only when repeating the write is safe. -/
def writeEnvelopes (dlq : DlqConfig) (page : Nat) (envelopes : List Envelope) : Engine Nat :=
  (if run.retryPolicy.isSome && dlq.writeBatchIsReplaySafe then run.retrying (fun _ => gateDlq page envelopes)
    else gateDlq page envelopes).mapFailure (dlqWriteError "DLQ sink write failed")

/-- Route a page's envelopes, if it has any, and count them. -/
def routeEnvelopes (dlq : DlqConfig) (page : Nat) (envelopes : List Envelope) (stats : DlqStats) :
    Engine DlqStats :=
  if envelopes.isEmpty then pure stats
  else do
    let _ <- run.writeEnvelopes dlq page envelopes
    pure (stats.count envelopes.length)

/-- Flush both sinks, then store the position, for a page that carries a
bookmark.  Under overwrite the main sink is not flushed and nothing is
stored. -/
def checkpointWithDlq (page : Nat) : Option Value -> Engine Unit
  | none => pure ()
  | some bookmark =>
      if run.sink.isOverwrite then flushDlq run.retryPolicy run.options.cancel
      else do
        run.retrying (fun _ => flush)
        flushDlq run.retryPolicy run.options.cancel
        run.persist page bookmark

/-- Offer a whole page before it is sliced. -/
def admitRows (page : Nat) (rows : List GovernedRow) : Engine Unit :=
  if run.options.adaptive.isSome && !rows.isEmpty then call (.admitPage page rows) id else pure ()

def dlqPage (dlq : DlqConfig) (page : Nat) (records : List Value) (quarantined : List Envelope)
    (bookmark : Option Value) (account : PageAccount) (state : LoopState) : Engine LoopState := do
  let rows := governedRows records
  run.admitRows page rows
  let written <- run.slices dlq page rows.length rows 0 ⟨[], 0, 0, 0⟩
  let envelopes := quarantined ++ written.envelopes
  let stats <- run.routeEnvelopes dlq page envelopes state.dlqStats
  settle { account with
    accepted := account.accepted + written.pageSuccess
    failed := account.failed + written.failed
    dropped := account.dropped + written.dropped }
  run.checkpointWithDlq page bookmark
  -- A budget or the breaker stops the run only now that the page is durable.
  let (breaker, circuitError) := noteBreaker state.breaker rows.length written.pageSuccess
  let budgetError := budgetError dlq envelopes.length (state.dlqStats.recordsDlq + envelopes.length)
  match budgetError, circuitError with
  | some error, _ => Program.raise error
  | none, some error => Program.raise error
  | none, none =>
      pure { state with
        recordsWritten := state.recordsWritten + written.pageSuccess
        lastBookmark := bookmark.orElse (fun _ => state.lastBookmark)
        dlqStats := stats
        breaker := breaker }

/-! ## An exactly-once page -/

/-- Every attempt but the first asks the sink what it has committed. -/
def committedToken (scope : String) (attempt : Nat) : Engine (Option String) :=
  if 0 < attempt then call (.lastCommittedToken scope) id else pure none

/-- One attempt at an exactly-once write, unless the page is already
committed. -/
def eoWriteOnce (page : Nat) (rows : List GovernedRow) (scope token : String) (seq attempt : Nat) :
    Engine WriteReport := do
  let committed <- committedToken scope attempt
  if (committed.bind parseToken).any (fun committed => decide (seq ≤ committed)) then
    pure (WriteReport.ofAccepted rows.length)
  else call (.writeBatchIdempotent page rows scope token) id

def scope : String := run.options.stateKey.getD ""

/-- Write a page with its token, unless the sink already has it. -/
def writeOrSkip (committedSeq page : Nat) (rows : List GovernedRow) (seq : Nat) (token : String)
    (account : PageAccount) : Engine (PageAccount × Nat) :=
  if seq ≤ committedSeq then pure ({ account with accepted := account.accepted + rows.length }, 0)
  else do
    let report <- run.retrying (eoWriteOnce page rows run.scope token seq)
    pure (account.addReport report, report.accepted)

/-- A page that carries a bookmark: skipped when the sink has it, otherwise
written with its token; then flushed and stored. -/
def exactlyOncePage (committedSeq page : Nat) (records : List Value) (bookmark : Value)
    (account : PageAccount) (state : LoopState) : Engine LoopState := do
  let seq := state.nextSeq + 1
  let token := formatTokenWithBookmark seq (some bookmark)
  let (account, written) <- run.writeOrSkip committedSeq page (governedRows records) seq token account
  settle account
  run.flushAndPersist page (wrapState (some bookmark) seq)
  pure { state with
    recordsWritten := state.recordsWritten + written, lastBookmark := some bookmark, nextSeq := seq }

/-! ## A plain page -/

/-- Write rows and count what the sink reports. -/
def writeReported (page : Nat) (rows : List GovernedRow) (account : PageAccount) :
    Engine (PageAccount × Nat) := do
  let report <- run.retryingWrite (call (.writeGoverned page rows) id)
  pure (account.addReport report, report.accepted)

/-- The slices of a plain page under adaptive sizing. -/
def plainSlices (run : Run) (page : Nat) :
    (rounds : Nat) -> (remaining : List GovernedRow) -> PageAccount -> Nat -> Engine (PageAccount × Nat)
  | 0, _, account, written => pure (account, written)
  | rounds + 1, remaining, account, written =>
      if remaining.isEmpty then pure (account, written)
      else do
        let size <- run.sliceSize remaining.length
        let (account, accepted) <- run.writeReported page (remaining.take size) account
        plainSlices run page rounds (remaining.drop size) account (written + accepted)

def writePlain (page : Nat) (rows : List GovernedRow) (account : PageAccount) :
    Engine (PageAccount × Nat) :=
  if rows.isEmpty then pure (account, 0)
  else if run.options.adaptive.isSome then do
    run.admitRows page rows
    run.plainSlices page rows.length rows account 0
  else run.writeReported page rows account

/-- Flush the sink, then store the position, for a page that carries a
bookmark; neither under overwrite. -/
def checkpoint (page : Nat) : Option Value -> Engine Unit
  | none => pure ()
  | some bookmark =>
      if run.sink.isOverwrite then pure () else run.flushAndPersist page bookmark

def plainPage (page : Nat) (records : List Value) (bookmark : Option Value)
    (account : PageAccount) (state : LoopState) : Engine LoopState := do
  let (account, written) <- run.writePlain page (governedRows records) account
  settle account
  run.checkpoint page bookmark
  pure { state with
    recordsWritten := state.recordsWritten + written
    lastBookmark := bookmark.orElse (fun _ => state.lastBookmark) }

/-- An exactly-once run writes a page without a bookmark as it is. -/
def unmarkedPage (page : Nat) (records : List Value) (account : PageAccount) (state : LoopState) : Engine LoopState :=
  if records.isEmpty then pure state
  else do
    let (account, written) <- run.writeReported page (governedRows records) account
    settle account
    pure { state with recordsWritten := state.recordsWritten + written }

/-! ## The loop -/

/-- The branches of the loop, chosen at the start of the run. -/
inductive Branch where
  | deadLetter (dlq : DlqConfig)
  | exactlyOnce (committedSeq : Nat)
  | plain

def writePage (branch : Branch) (page : Nat) (outcome : GovernanceOutcome)
    (bookmark : Option Value) (account : PageAccount) (state : LoopState) : Engine LoopState :=
  match branch, bookmark with
  | .deadLetter dlq, _ => run.dlqPage dlq page outcome.records outcome.envelopes bookmark account state
  | .exactlyOnce committedSeq, some bookmark =>
      run.exactlyOncePage committedSeq page outcome.records bookmark account state
  | .exactlyOnce _, none => run.unmarkedPage page outcome.records account state
  | .plain, _ => run.plainPage page outcome.records bookmark account state

/-- The way out of a page that a drift policy aborts: its envelopes are made
durable, nothing of it is written. -/
def abortPage (page : Nat) (envelopes : List Envelope) (error : FaucetError) :
    Engine LoopState :=
  match run.options.dlq with
  | some _ => do
      abortWithEnvelopes page envelopes
      Program.raise error
  | none => Program.raise error

def stepPage (branch : Branch) (page : Nat) (content : StreamPage) (state : LoopState) :
    Engine LoopState := do
  let outcome <- call (.applyGovernance page content.records) id
  let account := { PageAccount.new content.records.length with quarantined := outcome.envelopes.length }
  match outcome.deferredAbort with
  | some error => run.abortPage page outcome.envelopes error
  | none => run.writePage branch page outcome content.bookmark account state

/-- Whether the loop stops here because the run was cancelled. -/
def stopsHere : Engine Bool :=
  if run.options.cancel && !run.options.sourceDrainsOnCancel then .ask .isCancelled (fun fired => pure fired)
  else pure false

/-- Whether a stream that ended did so because its source drained on cancel. -/
def drainedOnCancel : Engine Bool :=
  if run.options.sourceDrainsOnCancel && run.options.cancel then .ask .isCancelled (fun fired => pure fired)
  else pure false

/-- The page loop, with what the source still yields and the number of the
next page.  It ends with whether the run was cancelled. -/
def pageLoop (run : Run) (branch : Branch) :
    List (Except FaucetError StreamPage) -> (page : Nat) -> LoopState -> Engine (LoopState × Bool)
  | items, page, state => do
      if (<- run.stopsHere) then pure (state, true)
      else
        match items with
        | [] => do
            let drained <- run.drainedOnCancel
            pure (state, drained)
        | .error error :: _ => Program.raise error
        | .ok content :: rest =>
            if content.records.isEmpty && content.bookmark.isNone then pageLoop run branch rest (page + 1) state
            else do
              let state <- run.stepPage branch page content state
              pageLoop run branch rest (page + 1) state

/-! ## The run -/

/-- `validate_state_key`. -/
def validateStateKey (key : String) : Except FaucetError Unit :=
  let allowed := fun character : Char =>
    (character.isAlphanum && character.toNat < 128) || character == '_' || character == '-' ||
      character == ':' || character == '.' || character == '/'
  let dotted := fun segment : List Char => segment.isEmpty || segment.head? == some '.'
  if key.isEmpty then .error (.state "state key must not be empty")
  else if 256 < key.utf8ByteSize then .error (.state ("state key '" ++ key ++ "' exceeds 256 characters"))
  else
    match key.toList.findIdx? (fun character => !allowed character) with
    | some index =>
        let character := key.toList.getD index ' '
        .error (.state ("state key '" ++ key ++ "' contains illegal character '" ++
          String.ofList [character] ++ "' at byte " ++
          toString ((key.toList.take index).map Char.utf8Size).sum))
    | none =>
        if key.toList.head? = some '.' then
          .error (.state ("state key '" ++ key ++ "' must not begin with a dot"))
        else if key.toList.contains '/' && (key.toList.splitOn '/').any dotted then
          .error (.state ("state key '" ++ key ++ "' has a path-like segment — `/` may only separate " ++
            "non-empty, non-dot segments"))
        else .ok ()

/-- Quarantine needs a dead-letter sink. -/
def checkGovernance : Except FaucetError Unit :=
  let refused := fun required : Bool => required && run.options.dlq.isNone
  if refused (run.options.specs.quality.any CompiledQuality.requiresDlq) then
    .error (.config "quality: on_failure 'quarantine'/'quarantine_batch' requires a DLQ sink")
  else if refused (run.options.specs.contract.any CompiledContract.requiresDlq) then
    .error (.config "contract: on_breach 'quarantine' requires a DLQ sink")
  else if refused (run.options.specs.schemaDrift.any SchemaDriftPolicy.requiresDlq) then
    .error (.config
      "schema: on_drift 'quarantine' (or on_incompatible 'quarantine') requires a DLQ sink")
  else .ok ()

/-- Whether the run uses the sink's atomic watermark: the mechanism derived
for the delivery mode, or why there is none. -/
def usesWatermark : Except FaucetError Bool :=
  match run.options.delivery with
  | .atLeastOnce => .ok false
  | .exactlyOnce =>
      let replays := run.options.replay.all (fun replay => replay == .deterministic)
      if run.sink.supportsIdempotentWrites && replays then
        if !run.options.stateStore || run.options.stateKey.isNone then
          .error (.config "delivery: exactly_once (atomic watermark) requires a state store")
        else if run.options.dlq.isSome then
          .error (.config ("delivery: exactly_once (atomic watermark) is not compatible with a DLQ in this " ++
            "version"))
        else if run.sink.isOverwrite then
          .error (.config ("delivery: exactly_once (atomic watermark) is not compatible with write_mode: " ++
            "overwrite"))
        else .ok true
      else if run.sink.dedupsByKey then .ok false
      else if run.sink.supportsIdempotentWrites then
        .error (.config ("delivery: exactly_once — the source does not replay deterministically from a " ++
          "bookmark, so the atomic-watermark mechanism cannot be used; configure `write_mode: upsert` with a " ++
          "`key` on sink '" ++ run.sink.connectorName ++ "' for keyed-upsert effectively-once instead"))
      else
        .error (.config ("delivery: exactly_once requires an idempotent (atomic-watermark) sink or a sink " ++
          "configured to dedup by key (`write_mode: upsert` + `key`), but '" ++ run.sink.connectorName ++
          "' provides neither"))

/-- The checks before anything is read: governance, then the state key. -/
def checkOptions : Except FaucetError Unit :=
  match run.checkGovernance, run.options.stateKey with
  | .error error, _ => .error error
  | .ok (), some key => validateStateKey key
  | .ok (), none => .ok ()

/-- The sequence number the sink has committed. -/
def committedSeq : Engine Nat := do
  let token <- call (.lastCommittedToken run.scope) id
  pure ((token.bind parseToken).getD 0)

/-- The start of a run: its checks, and the branch its pages take. -/
def start : Engine Branch := do
  Program.ofExcept run.checkOptions
  let watermark <- Program.ofExcept run.usesWatermark
  let committed <- (if watermark then run.committedSeq else pure 0)
  Program.ofExcept (run.options.adaptive.getD (.ok ()))
  match run.options.dlq with
  | some dlq => pure (.deadLetter dlq)
  | none => pure (if watermark then .exactlyOnce committed else .plain)

/-- Flush what was written on the way out of a failed run; a failure to flush
is not reported. -/
def unwind : Engine Unit := do
  let _ <- (if run.options.dlq.isSome then call .flushDlq id else pure () : Engine Unit).attempt
  let _ <- (if run.sink.isOverwrite then pure () else flush).attempt
  pure ()

/-- The flushes at the end of the stream. -/
def finish (cancelled : Bool) : Engine Unit := do
  (if run.options.dlq.isSome then flushDlq none false else pure ())
  (if cancelled && run.sink.isOverwrite then pure () else flush)

def initialState : LoopState where
  recordsWritten := 0
  lastBookmark := none
  dlqStats := ⟨0, 0⟩
  nextSeq := run.options.startSeq
  breaker := (run.options.resilience.bind ResiliencePolicy.circuitBreaker).map
    (fun config => (CircuitBreaker.new config.consecutiveFailures, config.cooldown))

/-- The run over what the source yields.  Pages are counted from 1. -/
def runStream (items : List (Except FaucetError StreamPage)) : Engine PipelineResult := do
  let branch <- run.start
  match (<- (run.pageLoop branch items 1 run.initialState).attempt) with
  | .error error =>
      run.unwind
      Program.raise error
  | .ok (state, cancelled) =>
      run.finish cancelled
      pure ⟨state.recordsWritten, state.lastBookmark, run.options.dlq.map (fun _ => state.dlqStats)⟩

end Run

/-! ### A run with a dead-letter queue and a state key -/

def sampleDlq : DlqConfig := ⟨"dlq", true, .propagate, none, none⟩

def sampleRun : Run where
  options :=
    { pipelineName := none
      row := none
      stateStore := true
      stateKey := some "orders"
      specs := sampleSpecs
      dlq := some sampleDlq
      delivery := .atLeastOnce
      replay := none
      startSeq := 0
      adaptive := none
      resilience := none
      cancel := false
      sourceDrainsOnCancel := false }
  sink := ⟨"sink", false, false, false, false⟩

end Pipeline
end FaucetStream
