import FaucetStream.Pipeline.Resume

namespace FaucetStream
namespace Pipeline

open Json
open Library
open Governance
open Delivery
open Engine

/-!
# Runs that store plain positions

What a run without tokens may ask, on whichever path: it never commits a page
with a token, and it only ever stores the bookmark of the page it is at.  A
run over an overwriting sink stores nothing while it reads.
-/

/-- The bookmark of a page, counted from 1. -/
def markAt (marks : List (Option Value)) (page : Nat) : Option Value := (marks[page - 1]?).join

/-- What a run that stores plain positions may ask, over pages with the given
bookmarks. -/
def Plainly (marks : List (Option Value)) : Op -> Prop
  | .putState page _ value => markAt marks page = some value
  | .writeBatchIdempotent _ _ _ _ => False
  | .getState _ => False
  | .applyStartBookmark _ => False
  | .streamPages => False
  | .streamNative => False
  | _ => True

section Plain

variable {marks : List (Option Value)} {page : Nat} {Result : Type} {returns : Result -> Prop}

/-- A program that asks plainly, whatever it returns. -/
abbrev Plain (marks : List (Option Value)) (program : Engine Result) : Prop :=
  Only (Plainly marks) (fun _ => True) program

theorem plain_attempt {program : Engine Result} (plain : Plain marks program) : Plain marks program.attempt :=
  plain.attempt.weaken (fun _ _ => trivial)

theorem plain_waits (milliseconds : Nat) : Plainly marks (.sleep milliseconds) := trivial

theorem plain_flushDlq (policy : Option RetryPolicy) (cancel : Bool) :
    Plain marks (flushDlq policy cancel) := by
  have once : Plain marks (call .flushDlq id) := only_call trivial
  exact (only_withRetry plain_waits policy cancel (fun _ => once)).mapFailure

theorem plain_abortWithEnvelopes (envelopes : List Envelope) :
    Plain marks (abortWithEnvelopes page envelopes) := by
  unfold abortWithEnvelopes
  split
  · trivial
  · exact Only.andThen (only_gateDlq (fun _ => trivial) envelopes).mapFailure
      (fun _ => plain_flushDlq none false)

theorem plain_isCancelled {wired : Bool} :
    Plain marks (if wired then .ask .isCancelled (fun fired => pure fired) else pure false : Engine Bool) := by
  split
  · exact ⟨trivial, fun _ => trivial⟩
  · trivial

namespace Run

variable (run : Run)

theorem plain_retrying {body : Nat -> Engine Result} (once : forall attempt, Plain marks (body attempt)) :
    Plain marks (run.retrying body) :=
  only_withRetry plain_waits _ _ once

theorem plain_retryingWrite {body : Engine Result} (once : Plain marks body) :
    Plain marks (run.retryingWrite body) := by
  unfold retryingWrite
  split
  · exact run.plain_retrying (fun _ => once)
  · exact once

theorem plain_persist (value : Value) (marked : markAt marks page = some value) :
    Plain marks (run.persist page value) := by
  unfold persist
  split
  · exact run.plain_retrying (fun _ => only_call marked)
  · trivial

theorem plain_admitRows (rows : List GovernedRow) : Plain marks (run.admitRows page rows) := by
  unfold admitRows
  split
  · exact only_call trivial
  · trivial

theorem plain_sliceSize (remaining : Nat) : Plain marks (run.sliceSize remaining) := by
  unfold sliceSize
  split
  · exact ⟨trivial, fun _ => trivial⟩
  · trivial

theorem plain_writeChunk (dlq : DlqConfig) (chunk : List GovernedRow) :
    Plain marks (run.writeChunk dlq page chunk) := by
  have once : Plain marks (call (.writeBatchPartial page chunk) id) := only_call trivial
  refine Only.andThen (plain_attempt (run.plain_retryingWrite once)) ?_
  intro answer
  split
  · split
    · trivial
    · trivial
  · trivial
  · trivial
  · trivial
  · split
    · trivial
    · trivial

theorem plain_poisonRetries (chunk : List GovernedRow) (left : Nat) (outcomes : List RowOutcome) :
    Plain marks (run.poisonRetries page chunk left outcomes) := by
  induction left generalizing outcomes with
  | zero => trivial
  | succ left ih =>
      unfold poisonRetries
      dsimp only
      split
      · trivial
      · refine Only.andThen (only_call trivial) ?_
        intro retried
        split
        · trivial
        · exact ih _

theorem plain_settleRows (synthesized : Bool) (offset : Nat) (entries : List (GovernedRow × RowOutcome))
    (j : Nat) (state : SliceState) : Plain marks (run.settleRows page synthesized offset entries j state) := by
  induction entries generalizing j state with
  | nil => trivial
  | cons entry rest ih =>
      rcases entry with ⟨row, outcome⟩
      cases outcome with
      | ok value => exact ih (j + 1) _
      | error error =>
          unfold settleRows
          cases (run.poison.map PoisonPolicy.action).getD .dlq with
          | fail => trivial
          | drop => exact ih (j + 1) _
          | dlq => exact ⟨trivial, fun _ => ih (j + 1) _⟩

theorem plain_writeSlice (dlq : DlqConfig) (chunk : List GovernedRow) (offset : Nat) (state : SliceState) :
    Plain marks (run.writeSlice dlq page chunk offset state) := by
  refine Only.andThen (run.plain_writeChunk dlq chunk) ?_
  intro written
  refine Only.andThen ?_ (fun outcomes => run.plain_settleRows _ _ _ _ _)
  unfold resubmit
  split
  · exact run.plain_poisonRetries chunk _ _
  · trivial

theorem plain_slices (dlq : DlqConfig) (rounds : Nat) (remaining : List GovernedRow) (offset : Nat)
    (state : SliceState) : Plain marks (run.slices dlq page rounds remaining offset state) := by
  induction rounds generalizing remaining offset state with
  | zero => trivial
  | succ rounds ih =>
      unfold slices
      split
      · trivial
      · refine Only.andThen (run.plain_sliceSize _) ?_
        intro size
        exact Only.andThen (run.plain_writeSlice dlq _ offset state) (fun counted => ih _ _ counted)

theorem plain_routeEnvelopes (dlq : DlqConfig) (envelopes : List Envelope) (stats : DlqStats) :
    Plain marks (run.routeEnvelopes dlq page envelopes stats) := by
  unfold routeEnvelopes
  split
  · trivial
  · refine Only.andThen ?_ (fun _ => trivial)
    unfold writeEnvelopes
    apply Only.mapFailure
    split
    · exact run.plain_retrying (fun _ => only_gateDlq (fun _ => trivial) envelopes)
    · exact only_gateDlq (fun _ => trivial) envelopes

/-- What is stored after a page is its bookmark; under overwrite nothing is. -/
def Stores (run : Run) (marks : List (Option Value)) (page : Nat) (bookmark : Option Value) : Prop :=
  run.sink.isOverwrite = false -> markAt marks page = bookmark

theorem plain_checkpointWithDlq (bookmark : Option Value) (stores : run.Stores marks page bookmark) :
    Plain marks (run.checkpointWithDlq page bookmark) := by
  cases bookmark with
  | none => trivial
  | some bookmark =>
      by_cases overwrite : run.sink.isOverwrite = true
      · simp only [checkpointWithDlq, overwrite, if_true]
        exact plain_flushDlq _ _
      · simp only [checkpointWithDlq, overwrite]
        refine Only.andThen (run.plain_retrying (fun _ => only_call trivial)) ?_
        intro _
        exact Only.andThen (plain_flushDlq _ _)
          (fun _ => run.plain_persist bookmark (stores (Bool.eq_false_iff.mpr overwrite)))

theorem plain_dlqPage (dlq : DlqConfig) (records : List Value) (quarantined : List Envelope)
    (bookmark : Option Value) (stores : run.Stores marks page bookmark) (account : PageAccount)
    (state : LoopState) :
    Only (Plainly marks) (fun next => next.lastBookmark = bookmark.orElse (fun _ => state.lastBookmark))
      (run.dlqPage dlq page records quarantined bookmark account state) := by
  refine Only.andThen (run.plain_admitRows _) ?_
  intro _
  refine Only.andThen (run.plain_slices dlq _ _ _ _) ?_
  intro written
  refine Only.andThen (run.plain_routeEnvelopes dlq _ _) ?_
  intro stats
  refine Only.andThen (only_settle (fun _ => trivial) _) ?_
  intro _
  refine Only.andThen (run.plain_checkpointWithDlq bookmark stores) ?_
  intro _
  dsimp only
  split
  · trivial
  · trivial
  · rfl

theorem plain_writeReported (rows : List GovernedRow) (account : PageAccount) :
    Plain marks (run.writeReported page rows account) :=
  Only.andThen (run.plain_retryingWrite (only_call trivial)) (fun _ => trivial)

theorem plain_plainSlices (rounds : Nat) (remaining : List GovernedRow) (account : PageAccount)
    (written : Nat) : Plain marks (run.plainSlices page rounds remaining account written) := by
  induction rounds generalizing remaining account written with
  | zero => trivial
  | succ rounds ih =>
      unfold plainSlices
      split
      · trivial
      · refine Only.andThen (run.plain_sliceSize _) ?_
        intro size
        exact Only.andThen (run.plain_writeReported _ account) (fun reported => ih _ _ _)

theorem plain_writePlain (rows : List GovernedRow) (account : PageAccount) :
    Plain marks (run.writePlain page rows account) := by
  unfold writePlain
  split
  · trivial
  · split
    · exact Only.andThen (run.plain_admitRows rows) (fun _ => run.plain_plainSlices _ _ _ _)
    · exact run.plain_writeReported rows account

theorem plain_plainPage (records : List Value) (bookmark : Option Value)
    (stores : run.Stores marks page bookmark) (account : PageAccount) (state : LoopState) :
    Only (Plainly marks) (fun next => next.lastBookmark = bookmark.orElse (fun _ => state.lastBookmark))
      (run.plainPage page records bookmark account state) := by
  refine Only.andThen (run.plain_writePlain _ account) ?_
  intro written
  refine Only.andThen (only_settle (fun _ => trivial) _) ?_
  intro _
  refine Only.andThen ?_ (fun _ => rfl)
  cases bookmark with
  | none => trivial
  | some bookmark =>
      by_cases overwrite : run.sink.isOverwrite = true
      · simp only [checkpoint, overwrite, if_true]
        trivial
      · simp only [checkpoint, overwrite]
        exact Only.andThen (run.plain_retrying (fun _ => only_call trivial))
          (fun _ => run.plain_persist bookmark (stores (Bool.eq_false_iff.mpr overwrite)))

theorem plain_unmarkedPage (records : List Value) (account : PageAccount) (state : LoopState) :
    Only (Plainly marks) (fun next => next.nextSeq = state.nextSeq)
      (run.unmarkedPage page records account state) := by
  unfold unmarkedPage
  split
  · rfl
  · refine Only.andThen (run.plain_writeReported _ account) ?_
    intro written
    refine Only.andThen (only_settle (fun _ => trivial) _) ?_
    intro _
    rfl

/-- A page that is aborted returns nothing. -/
theorem plain_abortPage (envelopes : List Envelope) (error : FaucetError) :
    Only (Plainly marks) (fun _ => False) (run.abortPage page envelopes error) := by
  unfold abortPage
  split
  · exact Only.andThen (plain_abortWithEnvelopes envelopes) (fun _ => trivial)
  · trivial

/-- A branch without tokens. -/
def Branch.Untokened : Branch -> Prop
  | .deadLetter _ => True
  | .exactlyOnce _ => False
  | .plain => True

theorem plain_stepPage (branch : Branch) (untokened : branch.Untokened) (content : StreamPage)
    (stores : run.Stores marks page content.bookmark) (state : LoopState) :
    Only (Plainly marks) (fun next => next.lastBookmark = content.bookmark.orElse (fun _ => state.lastBookmark))
      (run.stepPage branch page content state) := by
  refine Only.andThen (only_call trivial) ?_
  intro outcome
  dsimp only
  split
  · exact (run.plain_abortPage _ _).weaken (fun _ impossible => impossible.elim)
  · cases branch with
    | deadLetter dlq => exact run.plain_dlqPage dlq _ _ _ stores _ state
    | exactlyOnce committed => exact untokened.elim
    | plain => exact run.plain_plainPage _ _ stores _ state

theorem markAt_of_drop {items : List (Except FaucetError StreamPage)} {content : StreamPage}
    {rest : List (Except FaucetError StreamPage)} {page : Nat} (listed : .ok content :: rest = items.drop page) :
    markAt (items.map itemMark) (page + 1) = content.bookmark := by
  have found : items[page]? = some (.ok content) := by
    rw [← List.head?_drop, ← listed]
    rfl
  rw [markAt, Nat.add_sub_cancel, List.getElem?_map, found]
  rfl

/-- A bookmark kept is that of some page. -/
def MarkKept (marks : List (Option Value)) (bookmark : Option Value) : Prop :=
  forall value, bookmark = some value -> some value ∈ marks

theorem mem_of_markAt {value : Value} (marked : markAt marks page = some value) : some value ∈ marks := by
  exact List.mem_of_getElem? (Option.join_eq_some_iff.mp marked)

theorem MarkKept.orElse {bookmark last : Option Value} (marked : markAt marks page = bookmark)
    (kept : MarkKept marks last) : MarkKept marks (bookmark.orElse (fun _ => last)) := by
  rintro value chosen
  cases bookmark with
  | none => exact kept value chosen
  | some bookmark =>
      cases chosen
      exact mem_of_markAt marked

theorem plain_pageLoop (items : List (Except FaucetError StreamPage)) (branch : Branch)
    (untokened : branch.Untokened) (remaining : List (Except FaucetError StreamPage)) (page : Nat)
    (listed : remaining = items.drop page) (state : LoopState)
    (stored : run.sink.isOverwrite = false -> marks = items.map itemMark)
    (kept : MarkKept (items.map itemMark) state.lastBookmark) :
    Only (Plainly marks) (fun final => MarkKept (items.map itemMark) final.1.lastBookmark)
      (run.pageLoop branch remaining (page + 1) state) := by
  induction remaining generalizing page state with
  | nil =>
      unfold pageLoop
      refine Only.andThen plain_isCancelled ?_
      intro stops
      split
      · exact kept
      · exact Only.andThen plain_isCancelled (fun _ => kept)
  | cons item rest ih =>
      unfold pageLoop
      refine Only.andThen plain_isCancelled ?_
      intro stops
      have next : rest = items.drop (page + 1) := by
        rw [← List.tail_drop, ← listed]
        rfl
      split
      · exact kept
      · cases item with
        | error error => trivial
        | ok content =>
            dsimp only
            have marked := markAt_of_drop listed
            split
            · exact ih (page + 1) next state kept
            · have stores : run.Stores marks (page + 1) content.bookmark := by
                intro writes
                rw [stored writes]
                exact marked
              refine Only.bind _ (run.plain_stepPage branch untokened content stores state) ?_
              intro after same
              refine ih (page + 1) next after ?_
              rw [same]
              exact kept.orElse marked

theorem usesWatermark_of_atLeastOnce (mode : run.options.delivery = .atLeastOnce) :
    run.usesWatermark ≠ .ok true := by
  unfold usesWatermark
  rw [mode]
  exact nofun

/-- A run that does not use the watermark takes a branch without tokens. -/
theorem plain_start (unused : run.usesWatermark ≠ .ok true) :
    Only (Plainly marks) Branch.Untokened run.start := by
  refine Only.andThen (Only.done _) ?_
  intro _
  refine Only.bind (fun watermark => watermark = false) ?_ ?_
  · cases uses : run.usesWatermark with
    | error error => trivial
    | ok watermark =>
        cases watermark with
        | true => exact absurd uses unused
        | false => rfl
  rintro watermark rfl
  refine Only.andThen trivial ?_
  intro committed
  refine Only.andThen (Only.done _) ?_
  intro _
  cases run.options.dlq with
  | some dlq => trivial
  | none => trivial

theorem plain_unwind : Plain marks run.unwind := by
  refine Only.andThen (plain_attempt ?_) ?_
  · split
    · exact only_call trivial
    · trivial
  · intro _
    refine Only.andThen (plain_attempt ?_) (fun _ => trivial)
    split
    · trivial
    · exact only_call trivial

theorem plain_finish (cancelled : Bool) : Plain marks (run.finish cancelled) := by
  refine Only.andThen ?_ ?_
  · split
    · exact plain_flushDlq none false
    · trivial
  · intro _
    split
    · trivial
    · exact only_call trivial

theorem plain_runStream (unused : run.usesWatermark ≠ .ok true)
    (items : List (Except FaucetError StreamPage))
    (stored : run.sink.isOverwrite = false -> marks = items.map itemMark) :
    Only (Plainly marks) (fun result => MarkKept (items.map itemMark) result.bookmark)
      (run.runStream items) := by
  refine Only.bind Branch.Untokened (run.plain_start unused) ?_
  intro branch untokened
  refine Only.bind _ (run.plain_pageLoop items branch untokened items 0 rfl run.initialState stored
    nofun).attempt ?_
  intro result kept
  cases result with
  | error error => exact Only.andThen run.plain_unwind (fun _ => trivial)
  | ok final => exact Only.andThen (run.plain_finish final.2) (fun _ => kept final rfl)

end Run

/-! ### Staging -/

theorem plain_putPosition (state : Option String) (bookmark : Value) (marked : markAt marks page = some bookmark) :
    Plain marks (putPosition state page bookmark) := by
  unfold putPosition
  split
  · exact only_call marked
  · trivial

theorem markAt_idxOf {value : Value} (member : some value ∈ marks) :
    markAt marks (marks.idxOf (some value) + 1) = some value := by
  rw [markAt, Nat.add_sub_cancel, List.getElem?_idxOf member]
  rfl

/-- The position held back is that of a page of the run. -/
theorem PipelineConfig.plain_staged (pipeline : PipelineConfig) {body : Engine PipelineResult}
    (plain : Only (Plainly marks) (fun result => Run.MarkKept marks result.bookmark) body) :
    Plain marks (pipeline.staged marks body) := by
  unfold staged
  split
  · refine Only.andThen (only_call trivial) ?_
    intro _
    refine Only.bind _ plain.attempt ?_
    intro result kept
    cases result with
    | error error => exact Only.andThen (plain_attempt (only_call trivial)) (fun _ => trivial)
    | ok result =>
        refine Only.andThen plain_isCancelled ?_
        intro cancelled
        split
        · exact Only.andThen (plain_attempt (only_call trivial)) (fun _ => trivial)
        · refine Only.andThen (only_call trivial) ?_
          intro _
          refine Only.andThen ?_ (fun _ => trivial)
          cases held : result.bookmark with
          | none => trivial
          | some bookmark => exact plain_putPosition _ bookmark (markAt_idxOf (kept result rfl bookmark held))
  · exact plain.weaken (fun _ _ => trivial)

/-! ### The fast paths -/

theorem plain_flushAndPut (state : Option String) (bookmark : Value) (marked : markAt marks page = some bookmark) :
    Plain marks (flushAndPut state page bookmark) := by
  refine Only.andThen (only_call trivial) ?_
  intro _
  exact plain_putPosition state bookmark marked

theorem ColumnarRun.plain_governBatch (run : ColumnarRun) (content : StreamPage) (stats : DlqStats) :
    Plain marks (run.governBatch page content stats) := by
  unfold governBatch
  split
  · trivial
  · refine Only.andThen (only_call trivial) ?_
    intro outcome
    split
    · split
      · exact Only.andThen (plain_abortWithEnvelopes _) (fun _ => trivial)
      · trivial
    · refine Only.andThen ?_ ?_
      · unfold routeEnvelopes
        split
        · trivial
        · split
          · trivial
          · exact Only.andThen (only_gateDlq (fun _ => trivial) _).mapFailure (fun _ => trivial)
      · intro routed
        exact Only.andThen (only_call trivial) (fun _ => trivial)

theorem ColumnarRun.plain_stepPage (run : ColumnarRun) (content : StreamPage)
    (marked : markAt marks page = content.bookmark) (state : ColumnarRun.LoopState) :
    Plain marks (run.stepPage page content state) := by
  refine Only.andThen (run.plain_governBatch content _) ?_
  intro batch
  refine Only.andThen ?_ ?_
  · unfold writeBatch
    split
    · trivial
    · exact only_call trivial
  · intro written
    refine Only.andThen (only_settle (fun _ => trivial) _) ?_
    intro _
    refine Only.andThen ?_ ?_
    · cases carried : content.bookmark with
      | none => trivial
      | some bookmark =>
          rw [carried] at marked
          exact plain_flushAndPut run.state bookmark marked
    · intro _
      split
      · trivial
      · trivial

theorem ColumnarRun.plain_pageLoop (run : ColumnarRun) (items remaining : List (Except FaucetError StreamPage))
    (page : Nat) (listed : remaining = items.drop page) (state : ColumnarRun.LoopState) :
    Plain (items.map itemMark) (run.pageLoop remaining (page + 1) state) := by
  induction remaining generalizing page state with
  | nil =>
      unfold pageLoop
      refine Only.andThen plain_isCancelled ?_
      intro stops
      split
      · trivial
      · trivial
  | cons item rest ih =>
      unfold pageLoop
      refine Only.andThen plain_isCancelled ?_
      intro stops
      split
      · trivial
      · cases item with
        | error error => trivial
        | ok content =>
            have next : rest = items.drop (page + 1) := by
              rw [← List.tail_drop, ← listed]
              rfl
            exact Only.andThen (run.plain_stepPage content (Run.markAt_of_drop listed) state)
              (fun state => ih (page + 1) next state)

theorem ColumnarRun.plain_runStream (run : ColumnarRun) (items : List (Except FaucetError StreamPage)) :
    Plain (items.map itemMark) (run.runStream items) := by
  refine Only.andThen (run.plain_pageLoop items items 0 rfl _) ?_
  intro state
  exact Only.andThen (only_call trivial) (fun _ => trivial)

/-- A position held back is that of its page. -/
def NativeRun.LoopState.Honest (marks : List (Option Value)) (state : NativeRun.LoopState) : Prop :=
  forall held, state.pendingBookmark = some held -> markAt marks held.1 = some held.2

theorem NativeRun.plain_stepPage (run : NativeRun) (batch : NativeBatch)
    (marked : markAt marks page = batch.bookmark) (state : NativeRun.LoopState) (honest : state.Honest marks) :
    Only (Plainly marks) (LoopState.Honest marks) (run.stepPage page batch state) := by
  refine Only.andThen (only_call trivial) ?_
  intro loaded
  refine Only.andThen (only_settle (fun _ => trivial) _) ?_
  intro _
  unfold checkpoint
  cases carried : batch.bookmark with
  | none => exact honest
  | some bookmark =>
      rw [carried] at marked
      dsimp only
      split
      · rintro held same
        cases same
        exact marked
      · exact Only.andThen (plain_flushAndPut run.state bookmark marked) (fun _ => honest)

theorem NativeRun.plain_pageLoop (run : NativeRun) (items remaining : List (Except FaucetError NativeBatch))
    (page : Nat) (listed : remaining = items.drop page) (state : NativeRun.LoopState)
    (honest : state.Honest (items.map batchMark)) :
    Only (Plainly (items.map batchMark)) (fun final => final.1.Honest (items.map batchMark))
      (run.pageLoop remaining (page + 1) state) := by
  induction remaining generalizing page state with
  | nil =>
      unfold pageLoop
      refine Only.andThen plain_isCancelled ?_
      intro stops
      split
      · exact honest
      · exact honest
  | cons item rest ih =>
      unfold pageLoop
      refine Only.andThen plain_isCancelled ?_
      intro stops
      split
      · exact honest
      · cases item with
        | error error => trivial
        | ok batch =>
            have next : rest = items.drop (page + 1) := by
              rw [← List.tail_drop, ← listed]
              rfl
            have marked : markAt (items.map batchMark) (page + 1) = batch.bookmark := by
              have found : items[page]? = some (.ok batch) := by
                rw [← List.head?_drop, ← listed]
                rfl
              rw [markAt, Nat.add_sub_cancel, List.getElem?_map, found]
              rfl
            exact Only.bind _ (run.plain_stepPage batch marked state honest)
              (fun state honest => ih (page + 1) next state honest)

theorem NativeRun.plain_runStream (run : NativeRun) (items : List (Except FaucetError NativeBatch)) :
    Plain (items.map batchMark) (run.runStream items) := by
  refine Only.bind _ (run.plain_pageLoop items items 0 rfl _ nofun) ?_
  intro final honest
  dsimp only
  split
  · trivial
  · refine Only.andThen (only_call trivial) ?_
    intro _
    cases pending : final.1.pendingBookmark with
    | none => trivial
    | some held =>
        exact Only.andThen (plain_putPosition run.state held.2 (honest held pending)) (fun _ => trivial)

end Plain

end Pipeline
end FaucetStream
