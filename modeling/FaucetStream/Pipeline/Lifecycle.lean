import FaucetStream.Pipeline.Cleanup
import FaucetStream.Pipeline.Compat
import FaucetStream.Pipeline.Resume

namespace FaucetStream
namespace Pipeline

open Json
open Library
open Governance
open Delivery
open Engine

/-!
# A whole run

`Pipeline::run` around the write loops: the checks before anything is touched,
the move of a position stored under an older key, the resume, the choice of
the write path, the staging of an overwriting sink, scoped cleanup, and the
sink's own end of a run.

The loops see their sink and their state store through two wrappers, the
tracker of scoped cleanup and the store that holds positions back during a
complete read.  Both are decorators here: they answer the questions of the
loops with questions of their own and keep a state in between.
-/

/-! ## Questions -/

/-- How a scoped cleanup went, as it is counted. -/
inductive CleanupOutcome where
  | skippedCancelled
  | skippedIncomplete
  | applied
  | refusedOverflow
  | failed
  deriving DecidableEq

inductive LifecycleOp where
  /-- A question of the loops, asked of the wrapped sink, source or store. -/
  | engine (op : Op)
  | compareAndPut (key : String) (expected : Option Value) (value : Value)
  | deleteState (key : String)
  /-- The state of the source's signal, with the page under way, if any. -/
  | readState (page : Option Nat)
  | cleanupScope (scope : List (String × Value)) (seen : SeenKeys)
  /-- `cleanup_run`, with the keys kept so far. -/
  | cleanupRun (outcome : CleanupOutcome) (seen : SeenKeys)
  | completeRun

def LifecycleOp.Answer : LifecycleOp -> Type
  | .engine op => op.Answer
  | .compareAndPut _ _ _ => Except FaucetError Bool
  | .deleteState _ => Except FaucetError Unit
  | .readState _ => ReadState
  | .cleanupScope _ _ => Except FaucetError Nat
  | .cleanupRun _ _ => Unit
  | .completeRun => Except FaucetError Unit

abbrev Lifecycle (Result : Type) : Type := Program LifecycleOp.Answer FaucetError Result

/-- Ask, and let a failed answer end the run. -/
def invoke {Result : Type} (op : LifecycleOp) (read : op.Answer -> Except FaucetError Result) :
    Lifecycle Result :=
  .ask op (fun answer => .done (read answer))

theorem triple_invoke {World Result : Type} {env : Environment LifecycleOp.Answer World}
    {invariant pre escape : World -> Prop} {post : Result -> World -> Prop} {op : LifecycleOp}
    {read : op.Answer -> Except FaucetError Result}
    (answers : forall world answer after, invariant world -> pre world -> env op world answer after ->
      invariant after ∧ Ends post escape (read answer) after) :
    Triple env invariant pre (invoke op read) post escape :=
  Triple.ask (fun world answer after kept holds answered =>
    have step := answers world answer after kept holds answered
    ⟨step.1, fun still => ⟨still, step.2⟩⟩)

/-! ## The wrappers -/

/-- What the wrappers keep: the keys of the rows written, and the positions
held back, each with its page. -/
structure Wrappers where
  seen : SeenKeys
  held : List (String × Nat × Value)

namespace Wrappers

def new : Wrappers := ⟨SeenKeys.new, []⟩

/-- The position held back under a key. -/
def heldAt (wrappers : Wrappers) (key : String) : Option Value :=
  (wrappers.held.lookup key).map Prod.snd

def hold (wrappers : Wrappers) (page : Nat) (key : String) (value : Value) : Wrappers :=
  { wrappers with held := (key, page, value) :: wrappers.held.filter (fun entry => entry.1 != key) }

end Wrappers

/-- Which wrappers a run has. -/
structure Wrapping where
  /-- The key columns and the ceiling of a tracker. -/
  tracker : Option (List String × Nat)
  /-- The tracker waits for a complete read. -/
  gated : Bool
  /-- Positions are held back during a complete read. -/
  holding : Bool

namespace Wrapping

/-- `CleanupTracker::record`. -/
def record (wrapping : Wrapping) (page : Nat) (records : List Value) (wrappers : Wrappers) :
    Lifecycle Wrappers :=
  match wrapping.tracker with
  | none => pure wrappers
  | some (key, maxKeys) =>
      let recorded := { wrappers with seen := wrappers.seen.recordPage key maxKeys records }
      if wrapping.gated then
        .ask (.readState (some page)) (fun (state : ReadState) =>
          pure (if state = .partialRead then wrappers else recorded))
      else pure recorded

/-- Ask on, and record the rows of a write that succeeded. -/
def writing {Report : Type} (wrapping : Wrapping) (page : Nat) (rows : List GovernedRow) (wrappers : Wrappers)
    (answer : Except FaucetError Report) : Lifecycle (Except FaucetError Report × Wrappers) :=
  match answer with
  | .ok report => do
      let wrappers <- wrapping.record page (rows.map GovernedRow.record) wrappers
      pure (.ok report, wrappers)
  | .error error => pure (.error error, wrappers)

/-- `HoldingStateStore::put`. -/
def put (page : Nat) (key : String) (value : Value) (wrappers : Wrappers) :
    Lifecycle (Except FaucetError Unit × Wrappers) :=
  .ask (.readState (some page)) (fun (state : ReadState) =>
    if state = .partialRead then
      .ask (.engine (.putState page key value)) (fun (answer : Except FaucetError Unit) => pure (answer, wrappers))
    else pure (.ok (), wrappers.hold page key value))

/-- One question of the loops through the wrappers. -/
def perform (wrapping : Wrapping) : (op : Op) -> Wrappers -> Lifecycle (op.Answer × Wrappers)
  | .writeGoverned page rows, wrappers =>
      .ask (.engine (.writeGoverned page rows)) (fun answer => wrapping.writing page rows wrappers answer)
  | .writeBatchIdempotent page rows scope token, wrappers =>
      .ask (.engine (.writeBatchIdempotent page rows scope token))
        (fun answer => wrapping.writing page rows wrappers answer)
  | .writeBatchPartial page rows, wrappers =>
      -- Rows that fail count too: they stay claimed by the source.
      .ask (.engine (.writeBatchPartial page rows)) (fun answer => do
        let wrappers <- wrapping.record page (rows.map GovernedRow.record) wrappers
        pure (answer, wrappers))
  | .putState page key value, wrappers =>
      if wrapping.holding then put page key value wrappers
      else
        .ask (.engine (.putState page key value)) (fun (answer : Except FaucetError Unit) =>
          pure (answer, wrappers))
  | .getState key, wrappers =>
      match wrappers.heldAt key with
      | some value => pure (.ok (some value), wrappers)
      | none =>
          .ask (.engine (.getState key)) (fun (answer : Except FaucetError (Option Value)) =>
            pure (answer, wrappers))
  | op, wrappers => .ask (.engine op) (fun answer => pure (answer, wrappers))

theorem perform_putState (wrapping : Wrapping) (page : Nat) (key : String) (value : Value)
    (wrappers : Wrappers) :
    wrapping.perform (.putState page key value) wrappers =
      if wrapping.holding then put page key value wrappers
      else .ask (.engine (.putState page key value)) (fun answer => pure (answer, wrappers)) := rfl

/-- A position that is not held back is read from the store. -/
theorem perform_getState (wrapping : Wrapping) {key : String} {wrappers : Wrappers}
    (absent : wrappers.heldAt key = none) :
    wrapping.perform (.getState key) wrappers =
      .ask (.engine (.getState key)) (fun answer => pure (answer, wrappers)) := by
  simp only [perform, absent]
  rfl

end Wrapping

/-! ## The pipeline -/

/-- A pipeline with everything its run consults. -/
structure WholeRun where
  run : Run
  suppressOverwriteLifecycle : Bool
  codec : StateCodec
  migrateState : Nat -> Value -> Except FaucetError Value
  fromStr : String -> Option Value
  sourceName : String
  consumesDestructively : Bool
  /-- The verdict on how governance and the dead-letter policy are set up. -/
  preflight : Except FaucetError Unit
  legacyStateKeys : List String
  /-- Source and sink share a native format, for the sink's write mode. -/
  nativeFormat : Bool
  /-- Source and sink both speak Arrow. -/
  supportsColumnar : Bool
  /-- The sink reports an outcome for each row. -/
  perRowSink : Bool
  maskingRetypesByValue : Bool
  /-- The features of governance that was built around the sink. -/
  governanceFeatures : List Feature
  cleanup : Option CleanupPolicy
  /-- The source's signal, if it has one, with the ceiling it carries. -/
  readCompleteness : Option (Option Nat)
  supportsCleanup : Bool

namespace WholeRun

variable (whole : WholeRun)

/-- `compat_features`. -/
def compatFeatures : List Feature :=
  let options := whole.run.options
  let onBatchError := options.dlq.map DlqConfig.onBatchError
  let overwrite := whole.run.sink.isOverwrite
  let on : List (Bool × Feature) :=
    [ (options.specs.schemaDrift.isSome, .schemaDrift),
      (options.adaptive.isSome, .adaptive),
      (options.resilience.isSome, .resilience),
      (whole.cleanup.isSome, .cleanup),
      (whole.run.sink.dedupsByKey, .keyedWrites),
      (overwrite, .overwrite),
      (overwrite && whole.suppressOverwriteLifecycle, .groupedOverwrite),
      (options.delivery == .exactlyOnce, .exactlyOnce),
      (onBatchError == some .propagate, .dlqPropagate),
      (onBatchError == some .dlqAll, .dlqAll),
      (options.dlq.isSome && whole.perRowSink, .dlqPerRowSink),
      (options.specs.quality.isSome, .quality),
      (options.specs.contract.isSome, .contract),
      (options.specs.masking.isSome, .masking),
      (whole.maskingRetypesByValue, .maskingRetypesByValue) ]
  (on.filter Prod.fst).map Prod.snd ++ whole.governanceFeatures

/-- The native path is tried first, then the columnar one. -/
def takesNative : Bool :=
  whole.nativeFormat && Compat.pathAllowed .native whole.compatFeatures && cleared whole.run.options.specs &&
    whole.run.options.dlq.isNone && whole.run.options.delivery == .atLeastOnce

def takesColumnar : Bool :=
  whole.supportsColumnar && Compat.pathAllowed .columnar whole.compatFeatures

def path : WritePath :=
  if whole.takesNative then .native else if whole.takesColumnar then .columnar else .stream

theorem mem_compatFeatures_of_exactlyOnce
    (mode : whole.run.options.delivery = .exactlyOnce) : Feature.exactlyOnce ∈ whole.compatFeatures := by
  simp only [compatFeatures, mode, List.mem_append, List.mem_map, List.mem_filter, List.mem_cons]
  exact Or.inl ⟨(true, .exactlyOnce), by simp, rfl⟩

theorem mem_compatFeatures_of_overwrite
    (overwrite : whole.run.sink.isOverwrite = true) : Feature.overwrite ∈ whole.compatFeatures := by
  simp only [compatFeatures, overwrite, List.mem_append, List.mem_map, List.mem_filter, List.mem_cons]
  exact Or.inl ⟨(true, .overwrite), by simp, rfl⟩

theorem mem_compatFeatures_of_cleanup (cleans : whole.cleanup.isSome = true) :
    Feature.cleanup ∈ whole.compatFeatures := by
  simp only [compatFeatures, cleans, List.mem_append, List.mem_map, List.mem_filter, List.mem_cons]
  exact Or.inl ⟨(true, .cleanup), by simp, rfl⟩

theorem takesColumnar_eq_false {feature : Feature}
    (member : feature ∈ whole.compatFeatures) (against : Compat.verdict feature .columnar ≠ .supported) :
    whole.takesColumnar = false := by
  rw [takesColumnar, Compat.pathAllowed_eq_false member against, Bool.and_false]

theorem takesNative_eq_false {feature : Feature}
    (member : feature ∈ whole.compatFeatures) (against : Compat.verdict feature .native ≠ .supported) :
    whole.takesNative = false := by
  simp only [takesNative, Compat.pathAllowed_eq_false member against, Bool.and_false, Bool.false_and]

/-- A feature against both fast paths keeps a run on the value path. -/
theorem path_eq_stream {feature : Feature} (member : feature ∈ whole.compatFeatures)
    (native : Compat.verdict feature .native ≠ .supported)
    (columnar : Compat.verdict feature .columnar ≠ .supported) : whole.path = .stream := by
  rw [path, whole.takesNative_eq_false member native, whole.takesColumnar_eq_false member columnar]
  rfl

theorem path_eq_stream_of_cleanup (cleans : whole.cleanup.isSome = true) :
    whole.path = .stream :=
  whole.path_eq_stream (whole.mem_compatFeatures_of_cleanup cleans) (by decide) (by decide)

/-- The part of the run that resumes and stages, on the path of the run. -/
def config : PipelineConfig where
  run := whole.run
  path := whole.path
  suppressOverwriteLifecycle := whole.suppressOverwriteLifecycle
  exactlyOnce_streams := fun mode =>
    whole.path_eq_stream (whole.mem_compatFeatures_of_exactlyOnce mode) (by decide) (by decide)
  codec := whole.codec
  migrateState := whole.migrateState
  fromStr := whole.fromStr

/-! ## Before anything is read -/

/-- A source that gives its records away cannot be staged. -/
def checkSource : Except FaucetError Unit :=
  if whole.run.sink.isOverwrite && whole.consumesDestructively then
    .error (.config ("write_mode: overwrite cannot read from source '" ++ whole.sourceName ++
      "': it removes each page from its backend once the page is written into the staging copy, and a " ++
      "failed or cancelled run discards staging, losing those records for good"))
  else .ok ()

/-- Move the value of the first older key that has one. -/
def migrateFrom (key : String) : List String -> Lifecycle Unit
  | [] => pure ()
  | old :: rest =>
      if old = key then migrateFrom key rest
      else do
        let value <- invoke (.engine (.getState old)) id
        match value with
        | none => migrateFrom key rest
        | some value => do
            let moved <- invoke (.compareAndPut key none value) id
            if moved then do
              let _ <- (invoke (.deleteState old) id).attempt
              pure ()
            else pure ()

/-- `migrate_state_key`: nothing is moved to a key that holds a value. -/
def migrateStateKey (key : String) (candidates : List String) : Lifecycle Unit := do
  let current <- invoke (.engine (.getState key)) id
  match current with
  | some _ => pure ()
  | none => migrateFrom key candidates

def migrate : Lifecycle Unit :=
  match whole.config.storeKey with
  | some key =>
      if whole.legacyStateKeys.isEmpty then pure () else migrateStateKey key whole.legacyStateKeys
  | none => pure ()

/-! ## Cleanup -/

/-- The signal a complete-read policy waits for. -/
def completeRead : Option (Option Nat) :=
  match whole.cleanup with
  | some policy => if policy.trigger = .completeRead then whole.readCompleteness else none
  | none => none

/-- The policy of this run.  A complete-read policy needs the signal, and the
signal's ceiling replaces its own. -/
def policy (whole : WholeRun) : Option CleanupPolicy :=
  match whole.cleanup with
  | none => none
  | some policy =>
      match policy.trigger, whole.completeRead with
      | .always, _ => some policy
      | .completeRead, none => none
      | .completeRead, some ceiling => some { policy with maxKeys := ceiling.getD policy.maxKeys }

def holding : Bool := whole.completeRead.isSome && whole.run.options.stateStore

def wrapping : Wrapping where
  tracker := whole.policy.map (fun policy => (policy.key, policy.maxKeys))
  gated := whole.completeRead.isSome
  holding := whole.holding

/-- A piece of the loops behind the wrappers of the run. -/
def within {Result : Type} (program : Engine Result) (wrappers : Wrappers) :
    Lifecycle (Result × Wrappers) :=
  program.through whole.wrapping.perform wrappers

def checkCleanup : Except FaucetError Unit :=
  if whole.policy.isSome && !whole.supportsCleanup then
    .error (.config ("cleanup is configured but sink '" ++ whole.run.sink.connectorName ++
      "' does not support scoped cleanup"))
  else .ok ()

def completeReadOverflowError (maxKeys : Nat) : FaucetError :=
  .sink ("cleanup: the complete read wrote more than " ++ toString maxKeys ++ " distinct keys, so it could " ++
    "not tell which destination rows are absent from the source. Nothing was deleted, and the run's " ++
    "position was saved so the next run resumes instead of reading the whole dataset again; destination " ++
    "rows of items deleted at the source are kept. Raise the source's complete-read key ceiling (DynamoDB: " ++
    "`resnapshot_max_keys`) or rebuild the destination with an overwrite snapshot to remove them")

/-- `HoldingStateStore::release`. -/
def release : List (String × Nat × Value) -> Lifecycle Unit
  | [] => pure ()
  | (key, page, value) :: rest => do
      invoke (.engine (.putState page key value)) id
      release rest

def releaseHeld (wrappers : Wrappers) : Lifecycle Unit :=
  if whole.holding then release (wrappers.held.insertionSort (fun left right => left.1 ≤ right.1)) else pure ()

def count (outcome : CleanupOutcome) (seen : SeenKeys) : Lifecycle Unit :=
  .ask (.cleanupRun outcome seen) (fun _ => pure ())

/-- The delete, unless keys were dropped.  The positions held back are written
after it; past the ceiling they are written without it, and the run fails. -/
def finishCleanup (policy : CleanupPolicy) (wrappers : Wrappers) : Lifecycle Wrappers :=
  if wrappers.seen.overflowed then do
    count .refusedOverflow wrappers.seen
    if whole.holding then do
      whole.releaseHeld wrappers
      Program.raise (completeReadOverflowError policy.maxKeys)
    else Program.raise (SeenKeys.overflowError policy.maxKeys)
  else do
    let deleted <- (invoke (.cleanupScope policy.scope wrappers.seen) id).attempt
    match deleted with
    | .ok _ => do
        count .applied wrappers.seen
        whole.releaseHeld wrappers
        pure Wrappers.new
    | .error error => do
        count .failed wrappers.seen
        Program.raise error

def currentReadState : Lifecycle (Option ReadState) :=
  if whole.completeRead.isSome then .ask (.readState none) (fun (state : ReadState) => pure (some state))
  else pure none

/-- Cleanup after a loop that succeeded: not in a cancelled run, and for a
complete read only once it is complete. -/
def settleCleanup (readState : Option ReadState) (wrappers : Wrappers) :
    Lifecycle Wrappers :=
  match whole.policy with
  | none => pure wrappers
  | some policy => do
      let (cancelled, wrappers) <- whole.within (cancelledAtBoundary whole.run.options.cancel) wrappers
      if cancelled then do
        count .skippedCancelled wrappers.seen
        pure wrappers
      else
        match readState with
        | some .reading => do
            count .skippedIncomplete wrappers.seen
            pure wrappers
        | some .partialRead => pure wrappers
        | some .complete | none => whole.finishCleanup policy wrappers

/-! ## The run -/

/-- Commit or discard the staging of an overwriting sink. -/
def finishStaging (items : List (Except FaucetError StreamPage))
    (result : Except FaucetError PipelineResult) (wrappers : Wrappers) : Lifecycle PipelineResult :=
  if whole.config.overwriting then do
    let (result, _) <- whole.within (whole.config.finishOverwrite (items.map itemMark) result) wrappers
    pure result
  else Program.ofExcept result

/-- The value path over what the source yields.  A failed cleanup leaves the
run here, before the staging is looked at. -/
def transferStream (startSeq : Nat) (wrappers : Wrappers)
    (items : List (Except FaucetError StreamPage)) : Lifecycle PipelineResult := do
  Program.ofExcept whole.checkCleanup
  (if whole.config.overwriting then invoke (.engine .beginOverwrite) id else pure ())
  let looped <- (whole.within ((whole.config.startingAt startSeq).runStream items) wrappers).attempt
  let readState <- whole.currentReadState
  match looped with
  | .error error => whole.finishStaging items (.error error) wrappers
  | .ok (result, wrappers) => do
      let wrappers <- whole.settleCleanup readState wrappers
      whole.finishStaging items (.ok result) wrappers

def transfer (startSeq : Nat) (wrappers : Wrappers) : Lifecycle PipelineResult :=
  match whole.path with
  | .stream => .ask (.engine .streamPages) (fun items => whole.transferStream startSeq wrappers items)
  | .columnar => .ask (.engine .streamPages) (fun items => do
      let (result, _) <- whole.within (whole.config.columnarRun.runStream items) wrappers
      pure result)
  | .native => .ask (.engine .streamNative) (fun items => do
      let (result, _) <- whole.within (whole.config.nativeRun.runStream items) wrappers
      pure result)

def body : Lifecycle PipelineResult := do
  Program.ofExcept whole.checkSource
  Program.ofExcept whole.preflight
  whole.migrate
  let (startSeq, wrappers) <- whole.within whole.config.resume Wrappers.new
  whole.transfer startSeq wrappers

/-- The sink finalises a run that succeeded and was not cancelled. -/
def complete (result : PipelineResult) : Lifecycle PipelineResult := do
  let (cancelled, _) <- whole.within (cancelledAtBoundary whole.run.options.cancel) Wrappers.new
  if cancelled then pure result
  else do
    invoke .completeRun id
    pure result

def program : Lifecycle PipelineResult := do
  let result <- whole.body
  whole.complete result

end WholeRun

/-! ## What a run meets and leaves -/

/-- A call of `cleanup_scope`, with what held when it was made and the
destination before and after. -/
structure CleanupCall where
  seen : SeenKeys
  succeeded : Bool
  signal : ReadState
  cancelled : Bool
  before : List Value
  after : List Value

/-- The state store, the sink and the source, with what is known of the run
under way. -/
structure Site where
  /-- The stored values, as they are written. -/
  store : String -> Option Value
  /-- The token the sink has committed, by scope. -/
  tokens : String -> Option String
  /-- The last exactly-once write failed and was committed all the same. -/
  lost : Bool
  /-- The rows of the destination. -/
  rows : List Value
  /-- The bookmark last handed to the source in this run. -/
  handed : Option Value
  /-- The position the source was first read from in this run. -/
  startedFrom : Option (Option Value)
  /-- What the source yields in this run. -/
  items : List (Except FaucetError StreamPage)
  /-- The bookmarks of it. -/
  marks : List (Option Value)
  /-- The run found its token fired. -/
  cancelled : Bool
  /-- The staging was put in place before that. -/
  committed : Bool
  /-- The sink was flushed after the last load before that. -/
  finalised : Bool
  signal : ReadState
  cleanups : List CleanupCall
  /-- The keys of the cleanups refused for their number. -/
  overflows : List SeenKeys

namespace Site

/-- Nothing is stored or written yet. -/
def blank : Site where
  store := fun _ => none
  tokens := fun _ => none
  lost := false
  rows := []
  handed := none
  startedFrom := none
  items := []
  marks := []
  cancelled := false
  committed := false
  finalised := false
  signal := .partialRead
  cleanups := []
  overflows := []

def put (site : Site) (key : String) (value : Value) : Site :=
  { site with store := fun other => if other = key then some value else site.store other }

def drop (site : Site) (key : String) : Site :=
  { site with store := fun other => if other = key then none else site.store other }

def commit (site : Site) (scope token : String) (rows : List Value) : Site :=
  { site with
    tokens := fun other => if other = scope then some token else site.tokens other
    rows := rows }

/-- A new process over the same store, sink and source. -/
def restart (site : Site) : Site :=
  { site with
    lost := false, handed := none, startedFrom := none, items := [], marks := [], cancelled := false,
    committed := false, finalised := false, signal := .partialRead, cleanups := [], overflows := [] }

end Site

/-- What the surroundings of a whole run may do. -/
structure Around where
  /-- What governance makes of records. -/
  governs : List Value -> GovernanceOutcome -> Prop
  /-- Which pages a source yields after a bookmark was handed to it. -/
  opens : Option Value -> List (Except FaucetError StreamPage) -> Prop
  /-- The page a complete read begins with. -/
  begins : Nat

namespace WholeRun

variable (whole : WholeRun) (around : Around)

/-- The key columns of the cleanup policy. -/
def cleanupKey : List String := (whole.policy.map CleanupPolicy.key).getD []

/-- What a question of the loops does.  A failed store or commit may have been
done all the same, and a write leaves any rows. -/
def engine : (op : Op) -> Site -> op.Answer -> Site -> Prop
  | .isCancelled, before, (answer : Bool), after =>
      -- A token that fired stays fired, and only one that is attached fires.
      (before.cancelled = true -> answer = true) ∧
        (answer = true -> before.cancelled = true ∨ whole.run.options.cancel = true) ∧
        after = { before with cancelled := answer }
  | .applyGovernance _ records, before, answer, after =>
      (forall outcome, answer = .ok outcome -> around.governs records outcome) ∧ after = before
  | .writeGoverned _ _, before, _, after => exists rows, after = { before with rows := rows }
  | .writeBatchPartial _ _, before, _, after => exists rows, after = { before with rows := rows }
  | .writeBatchColumnar _ _, before, _, after => exists rows, after = { before with rows := rows }
  | .loadNative _ _, before, _, after => exists rows, after = { before with rows := rows, finalised := false }
  | .writeBatchIdempotent _ _ scope token, before, answer, after =>
      match answer with
      | .ok _ => exists rows, after = { before.commit scope token rows with lost := false }
      | .error _ => after = { before with lost := false } ∨
          exists rows, after = { before.commit scope token rows with lost := true }
  | .lastCommittedToken scope, before, answer, after =>
      (forall token, answer = .ok token -> token = before.tokens scope) ∧ after = before
  | .putState _ key value, before, answer, after =>
      match answer with
      | .ok _ => after = before.put key (whole.codec.encode value)
      | .error _ => after = before ∨ after = before.put key (whole.codec.encode value)
  | .getState key, before, answer, after =>
      (forall stored, answer = .ok stored -> stored = before.store key) ∧ after = before
  | .applyStartBookmark bookmark, before, answer, after =>
      match answer with
      | .ok _ => after = { before with handed := some bookmark }
      | .error _ => after = before ∨ after = { before with handed := some bookmark }
  | .streamPages, before, (answer : List (Except FaucetError StreamPage)), after =>
      around.opens before.handed answer ∧
        after = { before with
          items := answer
          marks := answer.map itemMark
          startedFrom := before.startedFrom.or (some before.handed) }
  | .streamNative, before, (answer : List (Except FaucetError NativeBatch)), after =>
      after = { before with
        marks := answer.map batchMark
        startedFrom := before.startedFrom.or (some before.handed) }
  | .flush, before, answer, after =>
      match answer with
      | .ok _ => after = { before with finalised := !before.cancelled }
      | .error _ => after = before
  | .commitOverwrite, before, answer, after =>
      match answer with
      | .ok _ => exists rows, after = { before with rows := rows, committed := !before.cancelled }
      | .error _ => exists rows, after = { before with rows := rows }
  | _, before, _, after => after = before

def environment : Environment LifecycleOp.Answer Site
  | .engine op, before, answer, after => whole.engine around op before answer after
  | .compareAndPut key expected value, before, answer, after =>
      match answer with
      | .ok true => before.store key = expected ∧ after = before.put key value
      | .ok false => before.store key ≠ expected ∧ after = before
      | .error _ => after = before ∨ (before.store key = expected ∧ after = before.put key value)
  | .deleteState key, before, answer, after =>
      match answer with
      | .ok _ => after = before.drop key
      | .error _ => after = before ∨ after = before.drop key
  | .readState page, before, (answer : ReadState), after =>
      before.signal.rank ≤ answer.rank ∧
        (forall number, page = some number ->
          (answer = .partialRead <-> number < around.begins ∧ before.signal = .partialRead)) ∧
        after = { before with signal := answer }
  | .cleanupScope _ seen, before, answer, after =>
      -- A row goes only when its key is not among those seen.
      (forall row, row ∈ before.rows -> forall tuple, KeyedWrites.recordKey row whole.cleanupKey = some tuple ->
        seen.Has tuple -> row ∈ after.rows) ∧
      exists rows, after = { before with
        rows := rows
        cleanups := ⟨seen, answer.toOption.isSome, before.signal, before.cancelled, before.rows, rows⟩ ::
          before.cleanups }
  | .cleanupRun outcome seen, before, _, after =>
      after = { before with
        overflows := if outcome = .refusedOverflow then seen :: before.overflows else before.overflows }
  | .completeRun, before, _, after => after = before

/-! ### Surroundings in which nothing fails -/

/-- The source yields these pages, and governance passes every record on. -/
def calmAround (items : List (Except FaucetError StreamPage)) (begins : Nat) : Around where
  governs := fun records outcome => outcome = ⟨records, [], none⟩
  opens := fun _ pages => pages = items
  begins := begins

/-- Each row is accepted, nothing is cancelled, and plain writes leave the
destination as it is. -/
def calmEngine (items : List (Except FaucetError StreamPage)) : (op : Op) -> Site -> op.Answer × Site
  | .isCancelled, site => (site.cancelled, site)
  | .sleep _, site => (true, site)
  | .applyGovernance _ records, site => (.ok ⟨records, [], none⟩, site)
  | .admitPage _ _, site => (.ok (), site)
  | .batchSize, site => ((1 : Nat), site)
  | .writeGoverned _ rows, site => (.ok (.ofAccepted rows.length), site)
  | .writeBatchPartial _ rows, site => (.ok (rows.map (fun _ => .ok ())), site)
  | .writeBatchIdempotent _ rows scope token, site =>
      (.ok (.ofAccepted rows.length), { site.commit scope token site.rows with lost := false })
  | .lastCommittedToken scope, site => (.ok (site.tokens scope), site)
  | .encodeBatch _ _, site => (.ok (), site)
  | .writeBatchColumnar _ records, site => (.ok records.length, site)
  | .loadNative _ _, site => (.ok 0, { site with finalised := false })
  | .flush, site => (.ok (), { site with finalised := !site.cancelled })
  | .pushFailure _ _, site => ((), site)
  | .writeDlq _ envelopes, site => (.ok (.ofAccepted envelopes.length), site)
  | .flushDlq, site => (.ok (), site)
  | .foldAccount _, site => ((), site)
  | .putState _ key value, site => (.ok (), site.put key (whole.codec.encode value))
  | .getState key, site => (.ok (site.store key), site)
  | .applyStartBookmark bookmark, site => (.ok (), { site with handed := some bookmark })
  | .streamPages, site => (items, { site with
      items := items, marks := items.map itemMark, startedFrom := site.startedFrom.or (some site.handed) })
  | .streamNative, site => (([] : List (Except FaucetError NativeBatch)), { site with
      marks := [], startedFrom := site.startedFrom.or (some site.handed) })
  | .beginOverwrite, site => (.ok (), site)
  | .commitOverwrite, site => (.ok (), { site with committed := !site.cancelled })
  | .abortOverwrite, site => (.ok (), site)

/-- The signal of a source whose complete read begins with a page and is
complete once the pages are read. -/
def calmSignal (begins : Nat) (site : Site) : Option Nat -> ReadState
  | some number =>
      if number < begins ∧ site.signal = .partialRead then .partialRead
      else if site.signal = .complete then .complete else .reading
  | none => if site.signal = .partialRead then .partialRead else .complete

def calm (items : List (Except FaucetError StreamPage)) (begins : Nat) :
    (op : LifecycleOp) -> Site -> op.Answer × Site
  | .engine op, site => whole.calmEngine items op site
  | .compareAndPut key expected value, site =>
      if site.store key = expected then (.ok true, site.put key value) else (.ok false, site)
  | .deleteState key, site => (.ok (), site.drop key)
  | .readState page, site => (calmSignal begins site page, { site with signal := calmSignal begins site page })
  | .cleanupScope _ seen, site => (.ok 0, { site with
      cleanups := ⟨seen, true, site.signal, site.cancelled, site.rows, site.rows⟩ :: site.cleanups })
  | .cleanupRun outcome seen, site => ((), { site with
      overflows := if outcome = .refusedOverflow then seen :: site.overflows else site.overflows })
  | .completeRun, site => (.ok (), site)

variable {whole} {items : List (Except FaucetError StreamPage)} {begins : Nat}

theorem calmEngine_possible (op : Op) (site : Site) :
    whole.engine (calmAround items begins) op site (whole.calmEngine items op site).1
      (whole.calmEngine items op site).2 := by
  cases op with
  | isCancelled => exact ⟨id, Or.inl, rfl⟩
  | applyGovernance page records => exact ⟨fun outcome answered => (Except.ok.inj answered).symm, rfl⟩
  | writeGoverned page rows => exact ⟨site.rows, rfl⟩
  | writeBatchPartial page rows => exact ⟨site.rows, rfl⟩
  | writeBatchColumnar page records => exact ⟨site.rows, rfl⟩
  | writeBatchIdempotent page rows scope token => exact ⟨site.rows, rfl⟩
  | loadNative page first => exact ⟨site.rows, rfl⟩
  | lastCommittedToken scope => exact ⟨fun _ answered => (Except.ok.inj answered).symm, rfl⟩
  | getState key => exact ⟨fun _ answered => (Except.ok.inj answered).symm, rfl⟩
  | streamPages => exact ⟨rfl, rfl⟩
  | commitOverwrite => exact ⟨site.rows, rfl⟩
  | _ => rfl

theorem rank_le_calmSignal (begins : Nat) (site : Site) (page : Option Nat) :
    site.signal.rank ≤ (calmSignal begins site page).rank := by
  unfold calmSignal
  cases page with
  | none => cases site.signal <;> simp [ReadState.rank]
  | some number =>
      by_cases early : number < begins
      · cases site.signal <;> simp [early, ReadState.rank]
      · cases site.signal <;> simp [early, ReadState.rank]

theorem calmSignal_partialRead (begins : Nat) (site : Site) (number : Nat) :
    calmSignal begins site (some number) = .partialRead <->
      number < begins ∧ site.signal = .partialRead := by
  unfold calmSignal
  by_cases early : number < begins
  · cases site.signal <;> simp [early]
  · cases site.signal <;> simp [early]

theorem calm_possible (op : LifecycleOp) (site : Site) :
    whole.environment (calmAround items begins) op site (whole.calm items begins op site).1
      (whole.calm items begins op site).2 := by
  cases op with
  | engine op => exact calmEngine_possible op site
  | compareAndPut key expected value =>
      unfold calm
      dsimp only
      split
      · rename_i same
        exact ⟨same, rfl⟩
      · rename_i different
        exact ⟨different, rfl⟩
  | deleteState key => rfl
  | readState page =>
      refine ⟨rank_le_calmSignal begins site page, ?_, rfl⟩
      rintro number rfl
      exact calmSignal_partialRead begins site number
  | cleanupScope scope seen => exact ⟨fun row present _ _ _ => present, site.rows, rfl⟩
  | cleanupRun outcome seen => rfl
  | completeRun => rfl

end WholeRun

end Pipeline
end FaucetStream
