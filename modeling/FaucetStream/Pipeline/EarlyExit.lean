import FaucetStream.Pipeline.Checkpoint

namespace FaucetStream
namespace Pipeline

open Json
open Library
open Governance
open Delivery
open Engine

/-!
# Flushes on the way out

A sink that buffers loses what it was given when a run ends without flushing
it.  The streaming run collects every failure of its loop and flushes both
sinks before it returns.  The columnar and the native run leave at the first
failure, and so does the streaming run when its dead-letter sink fails to
flush at the end of the stream.
-/

/-- Which sinks hold rows that were written since they were last flushed. -/
structure Unflushed where
  main : Bool
  dlq : Bool
  deriving DecidableEq

namespace Unflushed

def nothing : Unflushed := ⟨false, false⟩

/-- What an answered question leaves unflushed.  A flush counts whether it
succeeds or not. -/
def after (before : Unflushed) : (op : Op) -> op.Answer -> Unflushed
  | .writeGoverned _ _, .ok _ => { before with main := true }
  | .writeBatchPartial _ _, .ok _ => { before with main := true }
  | .writeBatchIdempotent _ _ _ _, .ok _ => { before with main := true }
  | .writeBatchColumnar _ _, .ok _ => { before with main := true }
  | .loadNative _ _, .ok _ => { before with main := true }
  | .writeDlq _ _, .ok _ => { before with dlq := true }
  | .flush, _ => { before with main := false }
  | .flushDlq, _ => { before with dlq := false }
  | _, _ => before

end Unflushed

namespace Job

/-- Whether the sink of a job replaces its destination. -/
def overwrites : Job -> Bool
  | .stream run _ => run.sink.isOverwrite
  | .columnar _ _ => false
  | .native run _ => run.overwrite

/-- Every batch that a fast run writes carries a bookmark. -/
def Marked : Job -> Prop
  | .stream _ _ => True
  | .columnar _ items => forall content, .ok content ∈ items -> content.records ≠ [] -> content.bookmark.isSome = true
  | .native _ items => forall batch, .ok batch ∈ items -> batch.bookmark.isSome = true

/-- The answers a job gets.  The dead-letter sink of a streaming run does not
fail to flush while the main sink is unflushed; a fast run has every row
accounted for, and nothing set aside. -/
def Orderly : Job -> Unflushed -> (op : Op) -> op.Answer -> Prop
  | .stream _ _, before, .flushDlq, .error _ => before.main = false
  | .columnar _ _, _, .applyGovernance _ _, .ok outcome => outcome.envelopes = []
  | .columnar _ _, _, .foldAccount account, _ => account.missing = 0
  | .native _ _, _, .foldAccount account, _ => account.missing = 0
  | _, _, _, _ => True

/-- Surroundings that answer anything that is orderly. -/
def watched (job : Job) : Environment Op.Answer Unflushed :=
  fun op before answer after => job.Orderly before op answer ∧ after = before.after op answer

end Job

/-! ## Rules -/

/-- A piece of a job whose failures leave nothing unflushed. -/
abbrev Exits {Result : Type} (job : Job) (pre : Unflushed -> Prop) (program : Engine Result)
    (post : Result -> Unflushed -> Prop) : Prop :=
  Triple job.watched (fun _ => True) pre program post (fun unflushed => unflushed = .nothing)

section Rules

variable {job : Job} {Result : Type}

/-- A question that writes and flushes nothing. -/
theorem exits_call_same {op : Op} {read : op.Answer -> Except FaucetError Result}
    (same : forall before answer, Unflushed.after before op answer = before) :
    Exits job (fun unflushed => unflushed = .nothing) (call op read) (fun _ unflushed => unflushed = .nothing) := by
  apply triple_call
  intro world answer after _ holds answered
  have unchanged : after = .nothing := by rw [answered.2, same, holds]
  refine ⟨trivial, ?_⟩
  cases read answer with
  | ok value => exact unchanged
  | error error => exact unchanged

/-- A flush empties the main sink, whether it fails or not. -/
theorem exits_flush :
    Exits job (fun unflushed => unflushed.dlq = false) flush (fun _ unflushed => unflushed = .nothing) := by
  apply triple_call
  intro world answer after _ holds answered
  have flushed : after = .nothing := by
    rw [answered.2]
    change Unflushed.mk false world.dlq = _
    rw [holds]
    rfl
  refine ⟨trivial, ?_⟩
  cases answer with
  | ok value => exact flushed
  | error error => exact flushed

theorem exits_putPosition (state : Option String) (page : Nat) (bookmark : Value) :
    Exits job (fun unflushed => unflushed = .nothing) (putPosition state page bookmark)
      (fun _ unflushed => unflushed = .nothing) := by
  cases state with
  | none => exact Triple.skip
  | some key => exact exits_call_same (fun _ _ => rfl)

theorem exits_flushAndPut (state : Option String) (page : Nat) (bookmark : Value) :
    Exits job (fun unflushed => unflushed.dlq = false) (flushAndPut state page bookmark)
      (fun _ unflushed => unflushed = .nothing) := by
  refine Triple.bind _ exits_flush ?_
  intro _
  exact exits_putPosition state page bookmark

theorem exits_cancelledAtBoundary (cancel : Bool) :
    Exits job (fun unflushed => unflushed = .nothing) (cancelledAtBoundary cancel)
      (fun _ unflushed => unflushed = .nothing) := by
  unfold cancelledAtBoundary
  split
  · apply Triple.ask
    intro world answer after _ holds answered
    have unchanged : after = .nothing := answered.2.trans holds
    exact ⟨trivial, fun _ => ⟨trivial, unchanged⟩⟩
  · exact Triple.skip

/-- Rows that are all accounted for do not stop a page. -/
theorem exits_settle {account : PageAccount} {pre : Unflushed -> Prop}
    (settles : forall before answer, job.Orderly before (.foldAccount account) answer -> account.missing = 0) :
    Exits job pre (settle account) (fun _ => pre) := by
  apply Triple.ask
  intro world answer after _ holds answered
  have unchanged : after = world := answered.2
  refine ⟨trivial, fun _ => ?_⟩
  rw [if_pos (settles world answer answered.1), unchanged]
  exact ⟨trivial, holds⟩

end Rules

/-! ## The columnar run -/

namespace ColumnarRun

variable (run : ColumnarRun) (items : List (Except FaucetError StreamPage))

/-- What a batch is once nothing of it was set aside. -/
structure Kept (content : StreamPage) (batch : GovernedBatch) : Prop where
  rows : batch.records ≠ [] -> content.records ≠ []
  deferred : batch.deferred = none

theorem exits_governBatch (page : Nat) (content : StreamPage) (stats : DlqStats) :
    Exits (.columnar run items) (fun unflushed => unflushed = .nothing) (run.governBatch page content stats)
      (fun batch unflushed => Kept content batch ∧ unflushed = .nothing) := by
  unfold governBatch
  split
  · exact Triple.pure (fun _ holds => ⟨⟨fun some => some, rfl⟩, holds⟩)
  · next governs =>
      have rows : content.records ≠ [] := by
        intro empty
        rw [empty, List.isEmpty_nil, Bool.or_true] at governs
        exact governs rfl
      have passes : Exits (.columnar run items) (fun unflushed => unflushed = .nothing)
          (call (.applyGovernance page content.records) id)
          (fun (outcome : GovernanceOutcome) unflushed => outcome.envelopes = [] ∧ unflushed = .nothing) := by
        apply triple_call
        intro world answer after _ holds answered
        have unchanged : after = .nothing := answered.2.trans holds
        cases answer with
        | ok outcome => exact ⟨trivial, answered.1, unchanged⟩
        | error error => exact ⟨trivial, unchanged⟩
      refine Triple.bind _ passes ?_
      intro outcome world kept holds
      rcases holds with ⟨empty, holds⟩
      have nothing : forall (post : GovernedBatch -> Unflushed -> Prop) (error : FaucetError),
          Exits (.columnar run items) (fun unflushed => unflushed = .nothing)
            (abortWithEnvelopes page outcome.envelopes >>= fun _ => Program.raise error) post := by
        intro post error
        refine Triple.bind (fun _ unflushed => unflushed = .nothing) ?_ (fun _ => Triple.raise (fun _ holds => holds))
        unfold abortWithEnvelopes
        rw [empty]
        exact Triple.skip
      cases outcome.deferredAbort with
      | some error =>
          cases run.dlq with
          | some dlq => exact nothing _ error world kept holds
          | none => exact Triple.raise (fun _ holds => holds) world kept holds
      | none =>
          have routes : Exits (.columnar run items) (fun unflushed => unflushed = .nothing)
              (run.routeEnvelopes page outcome.envelopes stats)
              (fun routed unflushed => routed.2 = none ∧ unflushed = .nothing) := by
            unfold routeEnvelopes
            rw [empty]
            exact Triple.pure (fun _ holds => ⟨rfl, holds⟩)
          refine Triple.bind _ routes ?_ world kept holds
          intro routed world kept holds
          refine Triple.bind _ (exits_call_same (fun _ _ => rfl)) ?_ world kept holds.2
          intro _
          exact Triple.pure (fun _ closed => ⟨⟨fun _ => rows, holds.1⟩, closed⟩)

/-- A batch is written to a sink that holds nothing else. -/
theorem exits_writeBatch (page : Nat) (records : List Value) :
    Exits (.columnar run items) (fun unflushed => unflushed = .nothing) (writeBatch page records)
      (fun _ unflushed => unflushed.dlq = false ∧ (records = [] -> unflushed = .nothing)) := by
  unfold writeBatch
  split
  · next empty => exact Triple.pure (fun _ holds => ⟨by rw [holds]; rfl, fun _ => holds⟩)
  · next some =>
      have rows : records ≠ [] := by
        intro empty
        rw [empty] at some
        exact some rfl
      apply triple_call
      intro world answer after _ holds answered
      cases answer with
      | ok count =>
          have wrote : after.dlq = world.dlq := by rw [answered.2]; rfl
          refine ⟨trivial, ?_, fun empty => absurd empty rows⟩
          rw [wrote, holds]
          rfl
      | error error => exact ⟨trivial, answered.2.trans holds⟩

theorem exits_stepPage (marked : (Job.columnar run items).Marked) {content : StreamPage}
    (listed : .ok content ∈ items) (page : Nat) (state : LoopState) :
    Exits (.columnar run items) (fun unflushed => unflushed = .nothing) (run.stepPage page content state)
      (fun _ unflushed => unflushed = .nothing) := by
  refine Triple.bind _ (run.exits_governBatch items page content state.dlqStats) ?_
  intro batch world kept holds
  rcases holds with ⟨whole, holds⟩
  refine Triple.bind _ (exits_writeBatch run items page batch.records) ?_ world kept holds
  intro written
  refine Triple.bind _ (exits_settle (fun _ _ orderly => orderly)) ?_
  intro _
  refine Triple.bind (fun _ unflushed => unflushed = .nothing) ?_ ?_
  · cases carried : content.bookmark with
    | none =>
        refine Triple.pure (fun _ holds => holds.2 ?_)
        by_contra some
        have carries := marked content listed (whole.rows some)
        rw [carried] at carries
        cases carries
    | some bookmark =>
        exact (exits_flushAndPut run.state page bookmark).given (fun _ holds => holds.1)
  · intro _
    rw [whole.deferred]
    exact Triple.skip

theorem exits_pageLoop (marked : (Job.columnar run items).Marked) (remaining : List (Except FaucetError StreamPage))
    (listed : forall item, item ∈ remaining -> item ∈ items) (page : Nat) (state : LoopState) :
    Exits (.columnar run items) (fun unflushed => unflushed = .nothing) (run.pageLoop remaining page state)
      (fun _ unflushed => unflushed = .nothing) := by
  induction remaining generalizing page state with
  | nil =>
      unfold pageLoop
      refine Triple.bind _ (exits_cancelledAtBoundary run.cancel) ?_
      intro stops
      split
      · exact Triple.skip
      · exact Triple.skip
  | cons item rest ih =>
      unfold pageLoop
      refine Triple.bind _ (exits_cancelledAtBoundary run.cancel) ?_
      intro stops
      split
      · exact Triple.skip
      · cases item with
        | error error => exact Triple.raise (fun _ holds => holds)
        | ok content =>
            refine Triple.bind _ (run.exits_stepPage items marked (listed _ List.mem_cons_self) page state) ?_
            intro next
            exact ih (fun other member => listed other (List.mem_cons_of_mem _ member)) (page + 1) next

theorem exits_runStream (marked : (Job.columnar run items).Marked) :
    Exits (.columnar run items) (fun unflushed => unflushed = .nothing) (run.runStream items)
      (fun _ unflushed => unflushed = .nothing) := by
  refine Triple.bind _ (run.exits_pageLoop items marked items (fun _ member => member) 1 _) ?_
  intro state
  refine Triple.bind _ (exits_flush.given (fun _ holds => by rw [holds]; rfl)) ?_
  intro _
  exact Triple.skip

end ColumnarRun

/-! ## The native run -/

namespace NativeRun

variable (run : NativeRun) (items : List (Except FaucetError NativeBatch))

theorem exits_checkpoint (appends : run.overwrite = false) (page : Nat) (bookmark : Value) (state : LoopState) :
    Exits (.native run items) (fun unflushed => unflushed.dlq = false) (run.checkpoint page (some bookmark) state)
      (fun _ unflushed => unflushed = .nothing) := by
  simp only [checkpoint, appends, Bool.false_eq_true, if_false]
  refine Triple.bind _ (exits_flushAndPut run.state page bookmark) ?_
  intro _
  exact Triple.skip

theorem exits_stepPage (appends : run.overwrite = false) (marked : (Job.native run items).Marked)
    {batch : NativeBatch} (listed : .ok batch ∈ items) (page : Nat) (state : LoopState) :
    Exits (.native run items) (fun unflushed => unflushed = .nothing) (run.stepPage page batch state)
      (fun _ unflushed => unflushed = .nothing) := by
  have loads : Exits (.native run items) (fun unflushed => unflushed = .nothing)
      (call (.loadNative page state.firstBatch) id) (fun (_ : Nat) unflushed => unflushed.dlq = false) := by
    apply triple_call
    intro world answer after _ holds answered
    cases answer with
    | ok count =>
        have loaded : after.dlq = world.dlq := by rw [answered.2]; rfl
        refine ⟨trivial, ?_⟩
        change after.dlq = false
        rw [loaded, holds]
        rfl
    | error error => exact ⟨trivial, answered.2.trans holds⟩
  refine Triple.bind _ loads ?_
  intro loaded
  refine Triple.bind _ (exits_settle (fun _ _ orderly => orderly)) ?_
  intro _
  cases carried : batch.bookmark with
  | none =>
      have carries := marked batch listed
      rw [carried] at carries
      cases carries
  | some bookmark => exact run.exits_checkpoint items appends page bookmark _

theorem exits_pageLoop (appends : run.overwrite = false) (marked : (Job.native run items).Marked)
    (remaining : List (Except FaucetError NativeBatch)) (listed : forall item, item ∈ remaining -> item ∈ items)
    (page : Nat) (state : LoopState) :
    Exits (.native run items) (fun unflushed => unflushed = .nothing) (run.pageLoop remaining page state)
      (fun _ unflushed => unflushed = .nothing) := by
  induction remaining generalizing page state with
  | nil =>
      unfold pageLoop
      refine Triple.bind _ (exits_cancelledAtBoundary run.cancel) ?_
      intro stops
      split
      · exact Triple.skip
      · exact Triple.skip
  | cons item rest ih =>
      unfold pageLoop
      refine Triple.bind _ (exits_cancelledAtBoundary run.cancel) ?_
      intro stops
      split
      · exact Triple.skip
      · cases item with
        | error error => exact Triple.raise (fun _ holds => holds)
        | ok batch =>
            refine Triple.bind _ (run.exits_stepPage items appends marked (listed _ List.mem_cons_self) page state) ?_
            intro next
            exact ih (fun other member => listed other (List.mem_cons_of_mem _ member)) (page + 1) next

theorem exits_finish (state : LoopState) :
    Exits (.native run items) (fun unflushed => unflushed = .nothing) (run.finish state)
      (fun _ unflushed => unflushed = .nothing) := by
  refine Triple.bind _ (exits_flush.given (fun _ holds => by rw [holds]; rfl)) ?_
  intro _
  cases state.pendingBookmark with
  | none => exact Triple.skip
  | some pending =>
      refine Triple.bind _ (exits_putPosition run.state pending.1 pending.2) ?_
      intro _
      exact Triple.skip

theorem exits_runStream (appends : run.overwrite = false) (marked : (Job.native run items).Marked) :
    Exits (.native run items) (fun unflushed => unflushed = .nothing) (run.runStream items)
      (fun _ unflushed => unflushed = .nothing) := by
  refine Triple.bind _ (run.exits_pageLoop items appends marked items (fun _ member => member) 1 _) ?_
  intro final
  dsimp only
  split
  · exact Triple.skip
  · exact run.exits_finish items final.1

end NativeRun

/-! ## The streaming run -/

namespace Run

variable (run : Run) (items : List (Except FaucetError StreamPage))

theorem exits_start :
    Exits (.stream run items) (fun unflushed => unflushed = .nothing) run.start
      (fun _ unflushed => unflushed = .nothing) := by
  have given : forall {Result : Type} (result : Except FaucetError Result),
      Exits (.stream run items) (fun unflushed => unflushed = .nothing) (Program.ofExcept result)
        (fun _ unflushed => unflushed = .nothing) := by
    intro Result result
    apply Triple.ofExcept
    intro world holds
    cases result with
    | ok value => exact holds
    | error error => exact holds
  refine Triple.bind _ (given _) ?_
  intro _
  refine Triple.bind _ (given _) ?_
  intro watermark
  refine Triple.bind (fun _ unflushed => unflushed = .nothing) ?_ ?_
  · split
    · refine Triple.bind _ (exits_call_same (fun _ _ => rfl)) ?_
      intro token
      exact Triple.skip
    · exact Triple.skip
  · intro committed
    refine Triple.bind _ (given _) ?_
    intro _
    cases run.options.dlq with
    | some dlq => exact Triple.skip
    | none => exact Triple.skip

/-- The sinks of the run have nothing unflushed. -/
def Flushed (unflushed : Unflushed) : Prop :=
  unflushed.main = false ∧ (run.options.dlq.isSome = true -> unflushed.dlq = false)

/-- Anything may be unflushed in a loop: both sinks are flushed on the way
out. -/
theorem exits_unwind (appends : run.sink.isOverwrite = false) (error : FaucetError) :
    Triple (Job.stream run items).watched (fun _ => True) (fun _ => True)
      (do run.unwind; (Program.raise error : Engine PipelineResult)) (fun _ _ => True) run.Flushed := by
  have dlqFlushed : Triple (Job.stream run items).watched (fun _ => True) (fun _ => True)
      (if run.options.dlq.isSome then call .flushDlq id else pure () : Engine Unit).attempt
      (fun _ unflushed => run.options.dlq.isSome = true -> unflushed.dlq = false) run.Flushed := by
    split
    · apply Triple.attempt
      · apply triple_call
        intro world answer after _ _ answered
        have flushed : after.dlq = false := by
          rw [answered.2]
          rfl
        refine ⟨trivial, ?_⟩
        cases answer with
        | ok value => exact flushed
        | error error => exact flushed
      · intro result world ended _
        cases result with
        | ok value => exact ended
        | error error => exact ended
    · next absent => exact Triple.pure (fun _ _ some => absurd some absent)
  have mainFlushed : Triple (Job.stream run items).watched (fun _ => True)
      (fun unflushed => run.options.dlq.isSome = true -> unflushed.dlq = false)
      (if run.sink.isOverwrite then pure () else flush).attempt (fun _ => run.Flushed) run.Flushed := by
    rw [appends]
    apply Triple.attempt
    · apply triple_call
      intro world answer after _ holds answered
      have flushed : run.Flushed after := by
        rw [answered.2]
        exact ⟨rfl, holds⟩
      refine ⟨trivial, ?_⟩
      cases answer with
      | ok value => exact flushed
      | error error => exact flushed
    · intro result world ended
      cases result with
      | ok value => exact ended
      | error error => exact ended
  unfold unwind
  refine Triple.bind (fun _ => run.Flushed) ?_ (fun _ => Triple.raise (fun _ holds => holds))
  refine Triple.bind _ dlqFlushed ?_
  intro _
  refine Triple.bind _ mainFlushed ?_
  intro _
  exact Triple.skip

theorem exits_finish (appends : run.sink.isOverwrite = false) (cancelled : Bool) :
    Triple (Job.stream run items).watched (fun _ => True) (fun _ => True) (run.finish cancelled)
      (fun _ => run.Flushed) run.Flushed := by
  have dlqFlushed : Triple (Job.stream run items).watched (fun _ => True) (fun _ => True)
      (if run.options.dlq.isSome then flushDlq none false else pure ())
      (fun _ unflushed => run.options.dlq.isSome = true -> unflushed.dlq = false) run.Flushed := by
    split
    · apply Triple.mapFailure
      apply triple_call
      intro world answer after _ _ answered
      refine ⟨trivial, ?_⟩
      cases answer with
      | ok value =>
          intro _
          rw [answered.2]
          rfl
      | error error =>
          have main : world.main = false := answered.1
          rw [answered.2]
          exact ⟨main, fun _ => rfl⟩
    · next absent => exact Triple.pure (fun _ _ some => absurd some absent)
  refine Triple.bind _ dlqFlushed ?_
  intro _
  rw [appends, Bool.and_false]
  apply triple_call
  intro world answer after _ holds answered
  have flushed : run.Flushed after := by
    rw [answered.2]
    exact ⟨rfl, holds⟩
  refine ⟨trivial, ?_⟩
  cases answer with
  | ok value => exact flushed
  | error error => exact flushed

theorem exits_runStream (appends : run.sink.isOverwrite = false) :
    Triple (Job.stream run items).watched (fun _ => True) (fun unflushed => unflushed = .nothing)
      (run.runStream items) (fun _ _ => True) run.Flushed := by
  refine Triple.bind (fun _ _ => True) ((run.exits_start items).consequence (fun _ holds => holds)
    (fun _ _ _ => trivial) (fun _ holds => by rw [holds]; exact ⟨rfl, fun _ => rfl⟩)) ?_
  intro branch
  refine Triple.bind (fun _ _ => True) ((Triple.anyhow _).attempt (fun _ _ _ => trivial)) ?_
  intro result
  cases result with
  | error error => exact run.exits_unwind items appends error
  | ok final =>
      refine Triple.bind _ (run.exits_finish items appends final.2) ?_
      intro _
      exact Triple.pure (fun _ _ => trivial)

end Run

/-! ## Every write path -/

namespace Job

def hasDlq : Job -> Bool
  | .stream run _ => run.options.dlq.isSome
  | .columnar run _ => run.dlq.isSome
  | .native _ _ => false

/-- A run that ends with an error has flushed every sink since it was last
written. -/
theorem flushed_on_error (job : Job) (appends : job.overwrites = false) (marked : job.Marked)
    (error : FaucetError) (last : Unflushed)
    (reached : Reaches job.watched job.program .nothing (.done (.error error)) last) :
    last.main = false ∧ (job.hasDlq = true -> last.dlq = false) := by
  cases job with
  | stream run items => exact (run.exits_runStream items appends).escapes trivial rfl reached
  | columnar run items =>
      rw [(run.exits_runStream items marked).escapes trivial rfl reached]
      exact ⟨rfl, fun _ => rfl⟩
  | native run items =>
      rw [(run.exits_runStream items appends marked).escapes trivial rfl reached]
      exact ⟨rfl, fun _ => rfl⟩

/-! ### A source that fails after its first batch -/

def plainColumnar : ColumnarRun where
  specs := { sampleSpecs with masking := none, quality := none, contract := none, schemaDrift := none }
  dlq := none
  state := none
  cancel := false

/-- One batch, with or without a bookmark, and then a failure of the source. -/
def failingItems (bookmark : Option Value) : List (Except FaucetError StreamPage) :=
  [.ok ⟨[.number (.int 1)], bookmark⟩, .error (.source "connection reset")]

theorem flushed_on_error_marked :
    exists last, Reaches (Job.columnar plainColumnar (failingItems (some (.string "5")))).watched
        (Job.columnar plainColumnar (failingItems (some (.string "5")))).program .nothing
        (.done (.error (.source "connection reset"))) last ∧ last.main = false := by
  have marked : (Job.columnar plainColumnar (failingItems (some (.string "5")))).Marked := by
    intro content listed _
    rcases List.mem_cons.mp listed with first | second
    · cases first
      rfl
    · cases List.mem_singleton.mp second
  have written : Reaches (Job.columnar plainColumnar (failingItems (some (.string "5")))).watched
      (Job.columnar plainColumnar (failingItems (some (.string "5")))).program .nothing
      (.done (.error (.source "connection reset"))) .nothing := by
    have written : (Job.columnar plainColumnar (failingItems (some (.string "5")))).watched
        (.writeBatchColumnar 1 [.number (.int 1)]) .nothing (.ok 1) ⟨true, false⟩ := ⟨trivial, rfl⟩
    have settled : (Job.columnar plainColumnar (failingItems (some (.string "5")))).watched
        (.foldAccount { PageAccount.new 1 with accepted := 1, quarantined := 0 }) ⟨true, false⟩ () ⟨true, false⟩ :=
      ⟨rfl, rfl⟩
    have flushed : (Job.columnar plainColumnar (failingItems (some (.string "5")))).watched
        .flush ⟨true, false⟩ (.ok ()) .nothing := ⟨trivial, rfl⟩
    exact Reaches.step written (Reaches.step settled (Reaches.step flushed (Reaches.here _ _)))
  exact ⟨_, written, (flushed_on_error _ rfl marked _ _ written).1⟩

/-- Surroundings that answer anything. -/
def unrestricted : Environment Op.Answer Unflushed := fun op before answer after => after = before.after op answer

/-- Without a bookmark the batch is never flushed. -/
theorem columnar_leaves_unflushed :
    exists last, Reaches unrestricted (Job.columnar plainColumnar (failingItems none)).program .nothing
      (.done (.error (.source "connection reset"))) last ∧ last.main = true := by
  have written : Reaches unrestricted (Job.columnar plainColumnar (failingItems none)).program .nothing
      (.done (.error (.source "connection reset"))) ⟨true, false⟩ := by
    have written : unrestricted (.writeBatchColumnar 1 [.number (.int 1)]) .nothing (.ok 1) ⟨true, false⟩ := rfl
    have settled : unrestricted (.foldAccount { PageAccount.new 1 with accepted := 1, quarantined := 0 })
        ⟨true, false⟩ () ⟨true, false⟩ := rfl
    exact Reaches.step written (Reaches.step settled (Reaches.here _ _))
  exact ⟨_, written, rfl⟩

end Job

end Pipeline
end FaucetStream
