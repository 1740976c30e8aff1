import FaucetStream.Budget.HardCeiling

namespace FaucetStream
namespace Budget

open Json
open Library
open Governance
open Delivery
open Pipeline
open Engine

/-!
# The ceiling holds over a run

The write loops of the engine are followed question by question.
-/

variable {Inner : Type} {spec : BudgetSpec} {inner : Environment Op.Answer Inner} {page : Nat}
  {envelopeBytes : Envelope -> Nat} {batchBytes : List Value -> Nat}

/-! ## Questions that no budget has a say in -/

/-- A slice takes a row when there is one, and all of them without adaptive
sizing. -/
theorem spares_sliceSize (run : Run) (remaining : Nat) :
    Only Spares (fun size => (0 < remaining -> 0 < size) ∧ (run.options.adaptive = none -> size = remaining))
      (run.sliceSize remaining) := by
  unfold Run.sliceSize
  split
  · rename_i adaptive
    refine ⟨trivial, fun current => ⟨fun rows => ?_, fun absent => ?_⟩⟩
    · exact Nat.lt_min.mpr ⟨Nat.lt_of_lt_of_le Nat.zero_lt_one (Nat.le_max_right _ 1), rows⟩
    · rw [absent] at adaptive
      cases adaptive
  · exact ⟨id, fun _ => rfl⟩

theorem spares_settleRows (run : Run) (synthesized : Bool) (offset : Nat) (entries : List (GovernedRow × RowOutcome))
    (j : Nat) (state : Run.SliceState) :
    Only Spares (fun _ => True) (run.settleRows page synthesized offset entries j state) := by
  induction entries generalizing j state with
  | nil => trivial
  | cons entry rest ih =>
      rcases entry with ⟨row, outcome⟩
      cases outcome with
      | ok value => exact ih (j + 1) _
      | error error =>
          unfold Run.settleRows
          cases (run.poison.map PoisonPolicy.action).getD .dlq with
          | fail => trivial
          | drop => exact ih (j + 1) _
          | dlq => exact ⟨trivial, fun _ => ih (j + 1) _⟩

theorem spares_waits (milliseconds : Nat) : Spares (.sleep milliseconds) := trivial

theorem spares_flushDlq (policy : Option RetryPolicy) (cancel : Bool) :
    Only Spares (fun _ => True) (flushDlq policy cancel) := by
  have once : Only Spares (fun _ => True) (call .flushDlq id) := only_call trivial
  exact (only_withRetry spares_waits policy cancel (fun _ => once)).mapFailure

theorem spares_persist (run : Run) (value : Value) : Only Spares (fun _ => True) (run.persist page value) := by
  unfold Run.persist
  split
  · exact only_withRetry spares_waits _ _ (fun _ => only_call trivial)
  · trivial

theorem spares_flushAndPersist (run : Run) (value : Value) :
    Only Spares (fun _ => True) (run.flushAndPersist page value) :=
  Only.andThen (only_withRetry spares_waits _ _ (fun _ => only_call trivial)) (fun _ => spares_persist run value)

theorem spares_settle (account : PageAccount) : Only Spares (fun _ => True) (settle account) :=
  only_settle (fun _ => trivial) account

theorem spares_checkpoint (run : Run) (bookmark : Option Value) :
    Only Spares (fun _ => True) (run.checkpoint page bookmark) := by
  cases bookmark with
  | none => trivial
  | some bookmark =>
      unfold Run.checkpoint
      dsimp only
      split
      · trivial
      · exact spares_flushAndPersist run bookmark

theorem spares_checkpointWithDlq (run : Run) (bookmark : Option Value) :
    Only Spares (fun _ => True) (run.checkpointWithDlq page bookmark) := by
  cases bookmark with
  | none => trivial
  | some bookmark =>
      unfold Run.checkpointWithDlq
      dsimp only
      split
      · exact spares_flushDlq _ _
      · refine Only.andThen (only_withRetry spares_waits _ _ (fun _ => only_call trivial)) ?_
        intro _
        exact Only.andThen (spares_flushDlq _ _) (fun _ => spares_persist run bookmark)

theorem spares_start (run : Run) : Only Spares (fun _ => True) run.start := by
  refine Only.andThen (Only.done _) ?_
  intro _
  refine Only.andThen (Only.done _) ?_
  intro watermark
  refine Only.andThen ?_ ?_
  · split
    · exact Only.andThen (only_call trivial) (fun _ => trivial)
    · trivial
  · intro committed
    refine Only.andThen (Only.done _) ?_
    intro _
    split
    · trivial
    · trivial

theorem spares_attempt {Result : Type} {program : Engine Result} (only : Only Spares (fun _ => True) program) :
    Only Spares (fun _ => True) program.attempt := only.attempt.weaken (fun _ _ => trivial)

theorem spares_unwind (run : Run) : Only Spares (fun _ => True) run.unwind := by
  refine Only.andThen (spares_attempt ?_) ?_
  · split
    · exact only_call trivial
    · trivial
  · intro _
    refine Only.andThen (spares_attempt ?_) (fun _ => trivial)
    split
    · trivial
    · exact only_call trivial

theorem spares_finish (run : Run) (cancelled : Bool) : Only Spares (fun _ => True) (run.finish cancelled) := by
  refine Only.andThen ?_ ?_
  · split
    · exact spares_flushDlq none false
    · trivial
  · intro _
    split
    · trivial
    · exact only_call trivial

/-! ## Writes of a slice -/

/-- Room for the rows of a slice that failed, and for the rows after it. -/
def Remaining (spec : BudgetSpec) (page : Nat) (chunk rest : List GovernedRow) (outcomes : List RowOutcome)
    (books : Books) : Prop :=
  Opened spec page (weighWhere (fun _ => 1) false chunk outcomes + rest.length)
    (weighWhere (rowBytes spec) false chunk outcomes + rowsBytes spec rest) rest.length books

theorem counts_rowwise (honest : Honest inner) (rows : List GovernedRow) :
    Counts inner (.writeBatchPartial page rows) rows.length (rowsBytes spec rows) (countOutcomes spec rows) := by
  intro before answer after answered
  cases answer with
  | error error => exact ⟨Nat.zero_le _, Nat.zero_le _⟩
  | ok outcomes =>
      rw [countOutcomes_ok, rowsBytes_eq]
      exact ⟨honest.writeBatchPartial answered, weighWhere_le _ true rows outcomes⟩

theorem countReport_le {rows : Nat} (bytes : Nat) {answer : Except FaucetError WriteReport}
    (honest : forall report, answer = .ok report -> report.accepted ≤ rows) :
    (countReport bytes answer).1 ≤ rows ∧ (countReport bytes answer).2 ≤ bytes := by
  cases answer with
  | error error => exact ⟨Nat.zero_le _, Nat.zero_le _⟩
  | ok report => exact ⟨honest report rfl, Nat.le_refl _⟩

theorem counts_governed (honest : Honest inner) (rows : List GovernedRow) :
    Counts inner (.writeGoverned page rows) rows.length (rowsBytes spec rows) (countReport (rowsBytes spec rows)) := by
  intro before answer after answered
  apply countReport_le
  rintro report rfl
  exact honest.writeGoverned answered

theorem counts_idempotent (honest : Honest inner) (rows : List GovernedRow) (scope token : String) :
    Counts inner (.writeBatchIdempotent page rows scope token) rows.length (rowsBytes spec rows)
      (countReport (rowsBytes spec rows)) := by
  intro before answer after answered
  apply countReport_le
  rintro report rfl
  exact honest.writeBatchIdempotent answered

/-- What a slice's outcomes leave of the room. -/
theorem remaining_of_counted {chunk rest : List GovernedRow} {outcomes : List RowOutcome} {books : Books}
    (aligned : outcomes.length = chunk.length)
    (opened : Opened spec page (chunk.length - (countOutcomes spec chunk (.ok outcomes)).1 + rest.length)
      (rowsBytes spec chunk - (countOutcomes spec chunk (.ok outcomes)).2 + rowsBytes spec rest) rest.length books) :
    Remaining spec page chunk rest outcomes books := by
  rw [countOutcomes_ok, rowsBytes_eq spec chunk] at opened
  have rows := weighWhere_add (fun _ => 1) aligned
  have bytes := weighWhere_add (rowBytes spec) aligned
  rw [weigh_one, weighWhere_one aligned] at rows
  refine opened.less ?_ ?_ (Nat.le_refl _)
  · dsimp only
    omega
  · dsimp only
    omega

theorem remaining_done {chunk rest : List GovernedRow} {outcomes : List RowOutcome} {books : Books}
    (remaining : Remaining spec page chunk rest outcomes books) : Stage spec page rest rest.length (rest = []) books :=
  Or.inl (remaining.less (Nat.le_add_left _ _) (Nat.le_add_left _ _) (Nat.le_refl _))

/-- A slice is written, with an outcome for each of its rows. -/
theorem keeps_writeBatchPartial (honest : Honest inner) (chunk rest : List GovernedRow) :
    Keeps spec inner envelopeBytes batchBytes
      (Stage spec page (chunk ++ rest) (chunk ++ rest).length (rest = [])) (call (.writeBatchPartial page chunk) id)
      (fun outcomes books => outcomes.length = chunk.length -> Remaining spec page chunk rest outcomes books)
      (Stage spec page (chunk ++ rest) rest.length (rest = [])) := by
  apply keeps_call
  intro before answer after sound stage answered
  rcases stage.write (counts_rowwise honest chunk) sound answered with ⟨still, ⟨⟨error, refused⟩, last, again⟩ | opened⟩
  · rw [refused]
    exact ⟨still, Or.inr ⟨last, again⟩⟩
  · refine ⟨still, ?_⟩
    cases answer with
    | ok outcomes => exact fun aligned => remaining_of_counted aligned opened
    | error error =>
        left
        rw [List.length_append, rowsBytes_append]
        exact opened

/-- After a report the slice is done with; after a failure it may be written
again. -/
theorem ends_of_reported {chunk rest : List GovernedRow} {answer : Except FaucetError WriteReport} {books : Books}
    (written : (exists error, answer = .error error) ∧ rest = [] ∧ Unoffered page books ∨
      Opened spec page (chunk.length - (countReport (rowsBytes spec chunk) answer).1 + rest.length)
        (rowsBytes spec chunk - (countReport (rowsBytes spec chunk) answer).2 + rowsBytes spec rest) rest.length
          books) :
    Ends (fun _ => Stage spec page rest rest.length (rest = []))
      (Stage spec page (chunk ++ rest) rest.length (rest = [])) answer books := by
  cases answer with
  | ok report =>
      rcases written with ⟨⟨error, impossible⟩, _⟩ | opened
      · cases impossible
      · exact Or.inl (opened.less (Nat.le_add_left _ _) (Nat.le_add_left _ _) (Nat.le_refl _))
  | error error =>
      rcases written with ⟨_, last, again⟩ | opened
      · exact Or.inr ⟨last, again⟩
      · left
        rw [List.length_append, rowsBytes_append]
        exact opened

theorem keeps_writeGoverned (honest : Honest inner) (chunk rest : List GovernedRow) :
    Keeps spec inner envelopeBytes batchBytes
      (Stage spec page (chunk ++ rest) (chunk ++ rest).length (rest = [])) (call (.writeGoverned page chunk) id)
      (fun _ => Stage spec page rest rest.length (rest = []))
      (Stage spec page (chunk ++ rest) rest.length (rest = [])) := by
  apply keeps_call
  intro before answer after sound stage answered
  rcases stage.write (counts_governed honest chunk) sound answered with ⟨still, written⟩
  exact ⟨still, ends_of_reported written⟩

theorem keeps_writeBatchIdempotent (honest : Honest inner) (chunk rest : List GovernedRow) (scope token : String) :
    Keeps spec inner envelopeBytes batchBytes
      (Stage spec page (chunk ++ rest) (chunk ++ rest).length (rest = []))
      (call (.writeBatchIdempotent page chunk scope token) id) (fun _ => Stage spec page rest rest.length (rest = []))
      (Stage spec page (chunk ++ rest) rest.length (rest = [])) := by
  apply keeps_call
  intro before answer after sound stage answered
  rcases stage.write (counts_idempotent honest chunk scope token) sound answered with ⟨still, written⟩
  exact ⟨still, ends_of_reported written⟩

/-- An attempt that failed leaves what the next one starts from. -/
theorem Stage.again {chunk rest : List GovernedRow} {books : Books}
    (stage : Stage spec page (chunk ++ rest) rest.length (rest = []) books) :
    Stage spec page (chunk ++ rest) (chunk ++ rest).length (rest = []) books := by
  apply stage.less
  rw [List.length_append]
  exact Nat.le_add_left _ _

/-! ## Rows that fail one by one -/

/-- Outcomes that are made up come of a failure of the whole write. -/
theorem keeps_writeChunk (honest : Honest inner) (run : Run) (dlq : DlqConfig) (chunk rest : List GovernedRow) :
    Keeps spec inner envelopeBytes batchBytes
      (Stage spec page (chunk ++ rest) (chunk ++ rest).length (rest = [])) (run.writeChunk dlq page chunk)
      (fun written books =>
        (written.2 = false -> written.1.length = chunk.length ∧ Remaining spec page chunk rest written.1 books) ∧
          (written.2 = true -> Stage spec page (chunk ++ rest) rest.length (rest = []) books))
      (fun _ => True) := by
  refine Triple.bind (fun result world => Ends
    (fun outcomes books => outcomes.length = chunk.length -> Remaining spec page chunk rest outcomes books)
    (Stage spec page (chunk ++ rest) rest.length (rest = [])) result world.books)
    ((keeps_retryingWrite run (keeps_writeBatchPartial honest chunk rest) (fun _ => Stage.again)).attempt
      (fun result world ended => by cases result <;> exact ended)) ?_
  intro result
  cases result with
  | ok outcomes =>
      dsimp only
      split
      · exact Triple.fails
      · rename_i aligned
        have same := Decidable.not_not.mp aligned
        exact Triple.pure (fun _ ends => ⟨fun _ => ⟨same, ends same⟩, fun impossible => nomatch impossible⟩)
  | error error =>
      cases error with
      | budgetExceeded budget limit actual => exact Triple.fails
      | policyViolation rule column message => exact Triple.fails
      | rowsUnaccounted offered accepted => exact Triple.fails
      | _ =>
          dsimp only
          split
          · exact Triple.fails
          · exact Triple.pure (fun _ ends => ⟨fun impossible => (Bool.false_ne_true impossible.symm).elim, fun _ =>
              ends⟩)

/-- Failed rows are resubmitted within the room they left. -/
theorem keeps_resubmission (honest : Honest inner) (chunk rest : List GovernedRow) {outcomes : List RowOutcome}
    (aligned : outcomes.length = chunk.length) {indices : List Nat} (failing : Failing outcomes indices) :
    Keeps spec inner envelopeBytes batchBytes (Remaining spec page chunk rest outcomes)
      (call (.writeBatchPartial page (Run.selectRows chunk indices)) id)
      (fun retried books => retried.length = (Run.selectRows chunk indices).length ->
        Remaining spec page chunk rest (Run.writeBack outcomes indices retried) books)
      (fun _ => True) := by
  apply keeps_call
  intro before answer after sound remaining answered
  have rows := weigh_selectRows_le (fun _ => 1) aligned failing
  have bytes := weigh_selectRows_le (rowBytes spec) aligned failing
  rw [weigh_one] at rows
  rw [← rowsBytes_eq] at bytes
  rcases writeThrough_opened (counts_rowwise honest (Run.selectRows chunk indices)) remaining sound
    (Nat.le_trans rows (Nat.le_add_right _ _)) (Nat.le_trans bytes (Nat.le_add_right _ _)) answered with
    ⟨still, _, _, opened⟩
  refine ⟨still, ?_⟩
  cases answer with
  | error error => trivial
  | ok retried =>
      intro paired
      rw [countOutcomes_ok] at opened
      have rowsAfter := weighWhere_writeBack (fun _ => 1) aligned failing paired
      have bytesAfter := weighWhere_writeBack (rowBytes spec) aligned failing paired
      rw [weighWhere_one paired] at rowsAfter
      refine opened.less ?_ ?_ (Nat.sub_le _ _)
      · dsimp only
        omega
      · dsimp only
        omega

theorem keeps_poisonRetries (honest : Honest inner) (run : Run) (chunk rest : List GovernedRow) (left : Nat)
    (outcomes : List RowOutcome) (aligned : outcomes.length = chunk.length) :
    Keeps spec inner envelopeBytes batchBytes (Remaining spec page chunk rest outcomes)
      (run.poisonRetries page chunk left outcomes) (fun _ => Stage spec page rest rest.length (rest = []))
      (fun _ => True) := by
  induction left generalizing outcomes with
  | zero => exact Triple.pure (fun _ holds => remaining_done holds)
  | succ left ih =>
      unfold Run.poisonRetries
      dsimp only
      split
      · exact Triple.pure (fun _ holds => remaining_done holds)
      · have failing := failing_failingRows run.retryPolicy outcomes
        generalize Run.failingRows run.retryPolicy outcomes = indices at failing
        refine Triple.bind (fun retried world => retried.length = (Run.selectRows chunk indices).length ->
          Remaining spec page chunk rest (Run.writeBack outcomes indices retried) world.books) ?_ ?_
        · exact keeps_resubmission honest chunk rest aligned failing
        · intro retried
          split
          · exact Triple.fails
          · rename_i answered
            have same := Decidable.not_not.mp answered
            exact (ih _ ((length_writeBack outcomes indices retried).trans aligned)).given (fun _ holds => holds same)

theorem keeps_resubmit (honest : Honest inner) (run : Run) (chunk rest : List GovernedRow)
    (written : List RowOutcome × Bool) :
    Keeps spec inner envelopeBytes batchBytes
      (fun books =>
        (written.2 = false -> written.1.length = chunk.length ∧ Remaining spec page chunk rest written.1 books) ∧
          (written.2 = true -> Stage spec page (chunk ++ rest) rest.length (rest = []) books))
      (run.resubmit page chunk written) (fun _ => Stage spec page rest rest.length (rest = [])) (fun _ => True) := by
  have kept : forall world : BudgetWorld Inner,
      ((written.2 = false -> written.1.length = chunk.length ∧ Remaining spec page chunk rest written.1 world.books) ∧
        (written.2 = true -> Stage spec page (chunk ++ rest) rest.length (rest = []) world.books)) ->
      Stage spec page rest rest.length (rest = []) world.books := by
    rintro world ⟨genuine, synthesized⟩
    cases made : written.2 with
    | false => exact remaining_done (genuine made).2
    | true => exact (synthesized made).done
  unfold Run.resubmit
  split
  · rename_i genuine
    by_cases aligned : written.1.length = chunk.length
    · exact (keeps_poisonRetries honest run chunk rest _ written.1 aligned).given (fun _ holds => (holds.1 genuine).2)
    · exact fun world _ holds => absurd (holds.1 genuine).1 aligned
  · exact Triple.pure kept

theorem keeps_writeSlice (honest : Honest inner) (run : Run) (dlq : DlqConfig) (chunk rest : List GovernedRow)
    (offset : Nat) (state : Run.SliceState) :
    Keeps spec inner envelopeBytes batchBytes
      (Stage spec page (chunk ++ rest) (chunk ++ rest).length (rest = []))
      (run.writeSlice dlq page chunk offset state) (fun _ => Stage spec page rest rest.length (rest = []))
      (fun _ => True) := by
  refine Triple.bind _ (keeps_writeChunk honest run dlq chunk rest) ?_
  intro written
  refine Triple.bind _ (keeps_resubmit honest run chunk rest written) ?_
  intro outcomes
  exact (keeps_spares (spares_settleRows run _ _ _ _ _)).consequence (fun _ holds => holds)
    (fun _ _ ends => ends.2) (fun _ _ => trivial)

/-- Between two slices, an unwritten page has no rows left or is written in one
slice. -/
def Whole (run : Run) (remaining : List GovernedRow) : Prop := run.options.adaptive = none ∨ remaining = []

/-- The next slice of a page, and what is left after it. -/
theorem Stage.take {run : Run} {remaining : List GovernedRow} {size : Nat} {books : Books}
    (stage : Stage spec page remaining remaining.length (Whole run remaining) books)
    (sized : run.options.adaptive = none -> size = remaining.length) :
    Stage spec page (remaining.take size ++ remaining.drop size) (remaining.take size ++ remaining.drop size).length
      (remaining.drop size = []) books := by
  rw [List.take_append_drop]
  refine stage.imp id (And.imp_left ?_)
  rintro (unsliced | empty)
  · rw [sized unsliced]
    exact List.drop_length
  · rw [empty]
    exact List.drop_nil

theorem Stage.rest {run : Run} {rest : List GovernedRow} {books : Books}
    (stage : Stage spec page rest rest.length (rest = []) books) :
    Stage spec page rest rest.length (Whole run rest) books :=
  stage.imp id (And.imp_left Or.inr)

/-- The next slice of a page is chosen. -/
theorem keeps_slicing {Result : Type} {post : Result -> Books -> Prop} (run : Run) {remaining : List GovernedRow}
    (present : ¬remaining.isEmpty = true) {rest : Nat -> Engine Result}
    (each : forall size, (remaining.drop size).length < remaining.length ->
      Keeps spec inner envelopeBytes batchBytes
        (Stage spec page (remaining.take size ++ remaining.drop size)
          (remaining.take size ++ remaining.drop size).length (remaining.drop size = []))
        (rest size) post (fun _ => True)) :
    Keeps spec inner envelopeBytes batchBytes (Stage spec page remaining remaining.length (Whole run remaining))
      (run.sliceSize remaining.length >>= rest) post (fun _ => True) := by
  have positive : 0 < remaining.length := by
    rw [List.length_pos_iff]
    exact fun empty => present (List.isEmpty_iff.mpr empty)
  refine Triple.bind _ ((keeps_spares (spares_sliceSize run remaining.length)).mayFail) ?_
  intro size world sound sized
  have taken := sized.1.1 positive
  have fewer : (remaining.drop size).length < remaining.length := by
    rw [List.length_drop]
    omega
  exact each size fewer world sound (sized.2.take sized.1.2)

theorem keeps_slices (honest : Honest inner) (run : Run) (dlq : DlqConfig) (rounds : Nat)
    (remaining : List GovernedRow) (enough : remaining.length ≤ rounds) (offset : Nat) (state : Run.SliceState) :
    Keeps spec inner envelopeBytes batchBytes (Stage spec page remaining remaining.length (Whole run remaining))
      (run.slices dlq page rounds remaining offset state) (fun _ => Between (page + 1)) (fun _ => True) := by
  induction rounds generalizing remaining offset state with
  | zero =>
      rw [List.eq_nil_of_length_eq_zero (Nat.le_zero.mp enough)]
      exact Triple.pure (fun _ stage => stage.between rfl)
  | succ rounds ih =>
      unfold Run.slices
      split
      · rename_i empty
        rw [List.isEmpty_iff.mp empty]
        exact Triple.pure (fun _ stage => stage.between rfl)
      · rename_i present
        apply keeps_slicing run present
        intro size fewer
        have left := Nat.le_of_lt_succ (Nat.lt_of_lt_of_le fewer enough)
        refine Triple.bind _
          (keeps_writeSlice honest run dlq (remaining.take size) (remaining.drop size) offset state) ?_
        intro counted
        exact (ih (remaining.drop size) left (offset + size) counted).given (fun _ stage => stage.rest)

/-! ## A page -/

/-- A page is offered whole before it is sliced. -/
theorem keeps_admitRows (run : Run) (rows : List GovernedRow) :
    Keeps spec inner envelopeBytes batchBytes (Between page) (run.admitRows page rows)
      (fun _ => Stage spec page rows rows.length (Whole run rows)) (fun _ => True) := by
  unfold Run.admitRows
  split
  · apply keeps_call
    intro before answer after sound between answered
    have answered' : admitThrough spec inner page rows (rowsBytes spec rows) before answer after := answered
    unfold admitThrough at answered'
    rcases admitPage_cases spec before.books.state rows.length (rowsBytes spec rows) with
      ⟨undecided, room, admitted⟩ | ⟨state, verdict, refused, decided, records⟩
    · rw [admitted] at answered'
      rcases answered' with ⟨next, _, after⟩
      cases answer with
      | ok value =>
          rw [after]
          rcases between.admitted sound undecided room with ⟨still, opened⟩
          exact ⟨still, Or.inl opened⟩
      | error error =>
          rw [after]
          exact ⟨sound, trivial⟩
    · rw [refused, between.unpaid] at answered'
      rcases answered' with ⟨isRefusal, rfl⟩
      rw [isRefusal]
      exact ⟨(between.unoffered.refuse sound decided records).1, trivial⟩
  · rename_i unsliced
    refine Triple.pure ?_
    intro world between
    refine Or.inr ⟨?_, between.unoffered⟩
    unfold Whole
    cases adaptive : run.options.adaptive with
    | none => exact Or.inl rfl
    | some verdict =>
        right
        rw [adaptive] at unsliced
        cases rows with
        | nil => rfl
        | cons row rest => exact absurd rfl unsliced

/-- Dead letters are written between two pages. -/
theorem keeps_gateDlq (honest : Honest inner) (envelopes : List Envelope) {next : Nat} :
    Keeps spec inner envelopeBytes batchBytes (Between next) (gateDlq page envelopes) (fun _ => Between next)
      (Between next) := by
  unfold gateDlq
  refine Triple.bind (fun _ world => Between next world.books) ?_ ?_
  · apply keeps_call
    intro before answer after sound between answered
    have answered' : deadLetterThrough spec inner (.writeDlq page envelopes) envelopes.length
      (if spec.maxBytes.isSome then (envelopes.map envelopeBytes).sum else 0) .error
      (countReport (if spec.maxBytes.isSome then (envelopes.map envelopeBytes).sum else 0)) before answer after :=
      answered
    generalize (if spec.maxBytes.isSome then (envelopes.map envelopeBytes).sum else 0) = bytes at answered'
    unfold deadLetterThrough at answered'
    rw [between.dlqUnpaid, admit_unpaid] at answered'
    rcases admitPage_cases spec before.books.state envelopes.length bytes with
      ⟨_, room, admitted⟩ | ⟨state, verdict, refused, _, records⟩
    · rw [admitted] at answered'
      rcases answered' with ⟨inside, written, rfl⟩
      have accepted : (countReport bytes answer).1 ≤ envelopes.length :=
        (countReport_le bytes (fun report same => honest.writeDlq (same ▸ written))).1
      rcases between.deadLetter sound room accepted (countReport bytes answer).2 with ⟨still, again⟩
      refine ⟨still, ?_⟩
      cases answer with
      | ok report => exact again
      | error error => exact again
    · rw [refused] at answered'
      rcases answered' with ⟨rfl, rfl⟩
      exact between.refuseDeadLetters sound records
  · intro report
    split
    · exact Triple.raise (fun _ holds => holds)
    · exact Triple.skip

/-- The rest of a page asks nothing of the budgeted sinks. -/
theorem keeps_rest {Result : Type} {fact : Books -> Prop} {program : Engine Result}
    (only : Only Spares (fun _ => True) program) :
    Keeps spec inner envelopeBytes batchBytes fact program (fun _ => fact) (fun _ => True) :=
  (keeps_spares only).consequence (fun _ holds => holds) (fun _ _ ends => ends.2) (fun _ _ => trivial)

theorem keeps_ending {Result : Type} {program : Engine Result} (only : Only Spares (fun _ => True) program) :
    Keeps spec inner envelopeBytes batchBytes (fun _ => True) program (fun _ _ => True) (fun _ => True) := by
  have kept : Keeps spec inner envelopeBytes batchBytes (fun _ => True) program (fun _ _ => True ∧ True)
      (fun _ => True) := keeps_spares only
  exact kept.gives (fun _ _ _ => trivial)

theorem keeps_routeEnvelopes (honest : Honest inner) (run : Run) (dlq : DlqConfig) (envelopes : List Envelope)
    (stats : DlqStats) {next : Nat} :
    Keeps spec inner envelopeBytes batchBytes (Between next) (run.routeEnvelopes dlq page envelopes stats)
      (fun _ => Between next) (fun _ => True) := by
  unfold Run.routeEnvelopes
  split
  · exact Triple.skip
  · refine Triple.bind (fun _ world => Between next world.books) ?_ (fun _ => Triple.skip)
    unfold Run.writeEnvelopes
    have once : Keeps spec inner envelopeBytes batchBytes (Between next) (gateDlq page envelopes)
        (fun _ => Between next) (Between next) := keeps_gateDlq honest envelopes
    refine Triple.mapFailure ?_
    split
    · exact (keeps_withRetry _ _ (fun _ => once) (fun _ holds => holds)).mayFail
    · exact once.mayFail

theorem keeps_dlqPage (honest : Honest inner) (run : Run) (dlq : DlqConfig) (records : List Value)
    (quarantined : List Envelope) (bookmark : Option Value) (account : PageAccount) (state : LoopState) :
    Keeps spec inner envelopeBytes batchBytes (Between page)
      (run.dlqPage dlq page records quarantined bookmark account state) (fun _ => Between (page + 1))
      (fun _ => True) := by
  refine Triple.bind _ (keeps_admitRows run (governedRows records)) ?_
  intro _
  refine Triple.bind _ (keeps_slices honest run dlq _ (governedRows records) (Nat.le_refl _) 0 ⟨[], 0, 0, 0⟩) ?_
  intro written
  refine Triple.bind _ (keeps_routeEnvelopes honest run dlq (quarantined ++ written.envelopes) state.dlqStats) ?_
  intro stats
  refine Triple.bind _ (keeps_rest (spares_settle _)) ?_
  intro _
  refine Triple.bind _ (keeps_rest (spares_checkpointWithDlq run bookmark)) ?_
  intro _
  dsimp only
  split
  · exact Triple.fails
  · exact Triple.fails
  · exact Triple.skip

theorem keeps_writeReported (honest : Honest inner) (run : Run) (chunk rest : List GovernedRow)
    (account : PageAccount) :
    Keeps spec inner envelopeBytes batchBytes
      (Stage spec page (chunk ++ rest) (chunk ++ rest).length (rest = [])) (run.writeReported page chunk account)
      (fun _ => Stage spec page rest rest.length (rest = [])) (fun _ => True) := by
  refine Triple.bind _ ((keeps_retryingWrite run (keeps_writeGoverned honest chunk rest)
    (fun _ => Stage.again)).mayFail) ?_
  intro report
  exact Triple.skip

theorem keeps_plainSlices (honest : Honest inner) (run : Run) (rounds : Nat) (remaining : List GovernedRow)
    (enough : remaining.length ≤ rounds) (account : PageAccount) (written : Nat) :
    Keeps spec inner envelopeBytes batchBytes (Stage spec page remaining remaining.length (Whole run remaining))
      (run.plainSlices page rounds remaining account written) (fun _ => Between (page + 1)) (fun _ => True) := by
  induction rounds generalizing remaining account written with
  | zero =>
      rw [List.eq_nil_of_length_eq_zero (Nat.le_zero.mp enough)]
      exact Triple.pure (fun _ stage => stage.between rfl)
  | succ rounds ih =>
      unfold Run.plainSlices
      split
      · rename_i empty
        rw [List.isEmpty_iff.mp empty]
        exact Triple.pure (fun _ stage => stage.between rfl)
      · rename_i present
        apply keeps_slicing run present
        intro size fewer
        have left := Nat.le_of_lt_succ (Nat.lt_of_lt_of_le fewer enough)
        refine Triple.bind _ (keeps_writeReported honest run (remaining.take size) (remaining.drop size) account) ?_
        intro reported
        exact (ih (remaining.drop size) left reported.1 (written + reported.2)).given (fun _ stage => stage.rest)

/-- A page that is written as a whole. -/
theorem keeps_writeWhole (honest : Honest inner) (run : Run) (rows : List GovernedRow) (account : PageAccount) :
    Keeps spec inner envelopeBytes batchBytes (Between page) (run.writeReported page rows account)
      (fun _ => Between (page + 1)) (fun _ => True) := by
  refine (keeps_writeReported honest run rows [] account).consequence ?_ ?_ (fun _ ends => ends)
  · exact fun _ between => Or.inr ⟨rfl, between.unoffered⟩
  · exact fun _ _ stage => stage.between rfl

theorem keeps_writePlain (honest : Honest inner) (run : Run) (rows : List GovernedRow) (account : PageAccount) :
    Keeps spec inner envelopeBytes batchBytes (Between page) (run.writePlain page rows account)
      (fun _ => Between (page + 1)) (fun _ => True) := by
  unfold Run.writePlain
  split
  · exact Triple.pure (fun _ between => between.later (Nat.le_succ page))
  · split
    · refine Triple.bind _ (keeps_admitRows run rows) ?_
      intro _
      exact keeps_plainSlices honest run rows.length rows (Nat.le_refl _) account 0
    · exact keeps_writeWhole honest run rows account

theorem keeps_plainPage (honest : Honest inner) (run : Run) (records : List Value) (bookmark : Option Value)
    (account : PageAccount) (state : LoopState) :
    Keeps spec inner envelopeBytes batchBytes (Between page) (run.plainPage page records bookmark account state)
      (fun _ => Between (page + 1)) (fun _ => True) := by
  refine Triple.bind _ (keeps_writePlain honest run (governedRows records) account) ?_
  intro written
  refine Triple.bind _ (keeps_rest (spares_settle _)) ?_
  intro _
  refine Triple.bind _ (keeps_rest (spares_checkpoint run bookmark)) ?_
  intro _
  exact Triple.skip

theorem keeps_unmarkedPage (honest : Honest inner) (run : Run) (records : List Value) (account : PageAccount)
    (state : LoopState) :
    Keeps spec inner envelopeBytes batchBytes (Between page) (run.unmarkedPage page records account state)
      (fun _ => Between (page + 1)) (fun _ => True) := by
  unfold Run.unmarkedPage
  split
  · exact Triple.pure (fun _ between => between.later (Nat.le_succ page))
  · refine Triple.bind _ (keeps_writeWhole honest run (governedRows records) account) ?_
    intro written
    refine Triple.bind _ (keeps_rest (spares_settle _)) ?_
    intro _
    exact Triple.skip

/-- An attempt asks first what is committed, and then writes the whole page. -/
theorem keeps_eoWriteOnce (honest : Honest inner) (rows : List GovernedRow) (scope token : String)
    (seq attempt : Nat) :
    Keeps spec inner envelopeBytes batchBytes (Stage spec page rows 0 True)
      (Run.eoWriteOnce page rows scope token seq attempt) (fun _ => Between (page + 1))
      (Stage spec page rows 0 True) := by
  have asks : Only Spares (fun _ => True) (Run.committedToken scope attempt) := by
    unfold Run.committedToken
    split
    · exact only_call trivial
    · trivial
  have writes : Keeps spec inner envelopeBytes batchBytes
      (Stage spec page (rows ++ []) (rows ++ []).length (([] : List GovernedRow) = []))
      (call (.writeBatchIdempotent page rows scope token) id)
      (fun _ => Stage spec page [] 0 (([] : List GovernedRow) = []))
      (Stage spec page (rows ++ []) 0 (([] : List GovernedRow) = [])) :=
    keeps_writeBatchIdempotent honest rows [] scope token
  rw [List.append_nil] at writes
  refine Triple.bind _ ((keeps_spares asks).gives (fun _ _ ends => ends.2)) ?_
  intro committed
  split
  · exact Triple.pure (fun _ stage => stage.between rfl)
  · refine writes.consequence ?_ ?_ ?_
    · exact fun _ stage => (stage.less (Nat.zero_le _)).imp id (And.imp_left (fun _ => rfl))
    · exact fun _ _ stage => stage.between rfl
    · exact fun _ stage => stage.imp id (And.imp_left (fun _ => trivial))

theorem keeps_exactlyOncePage (honest : Honest inner) (run : Run) (committedSeq : Nat) (records : List Value)
    (bookmark : Value) (account : PageAccount) (state : LoopState) :
    Keeps spec inner envelopeBytes batchBytes (Between page)
      (run.exactlyOncePage committedSeq page records bookmark account state) (fun _ => Between (page + 1))
      (fun _ => True) := by
  unfold Run.exactlyOncePage
  dsimp only
  refine Triple.bind (fun _ world => Between (page + 1) world.books) ?_ ?_
  · unfold Run.writeOrSkip
    split
    · exact Triple.pure (fun _ between => between.later (Nat.le_succ page))
    · refine Triple.bind (fun _ world => Between (page + 1) world.books) ?_
        (fun _ => Triple.skip)
      exact (keeps_withRetry _ _ (fun attempt => keeps_eoWriteOnce honest (governedRows records) run.scope
        (formatTokenWithBookmark (state.nextSeq + 1) (some bookmark)) (state.nextSeq + 1) attempt)
        (fun _ holds => holds)).consequence (fun _ between => Or.inr ⟨trivial, between.unoffered⟩)
        (fun _ _ ends => ends) (fun _ _ => trivial)
  · intro written
    refine Triple.bind _ (keeps_rest (spares_settle _)) ?_
    intro _
    refine Triple.bind _ (keeps_rest (spares_flushAndPersist run _)) ?_
    intro _
    exact Triple.skip

theorem keeps_abortPage (honest : Honest inner) (run : Run) (envelopes : List Envelope) (error : FaucetError) :
    Keeps spec inner envelopeBytes batchBytes (Between page) (run.abortPage page envelopes error)
      (fun _ => Between (page + 1)) (fun _ => True) := by
  unfold Run.abortPage
  split
  · refine Triple.bind (fun _ _ => True) ?_ (fun _ => Triple.fails)
    unfold abortWithEnvelopes
    split
    · exact Triple.pure (fun _ _ => trivial)
    · refine Triple.bind (fun _ _ => True) ?_ (fun _ => keeps_ending (spares_flushDlq none false))
      refine Triple.mapFailure ?_
      exact (keeps_gateDlq honest envelopes).consequence (fun _ holds => holds) (fun _ _ _ => trivial)
        (fun _ _ => trivial)
  · exact Triple.fails

theorem keeps_stepPage (honest : Honest inner) (run : Run) (branch : Run.Branch) (content : StreamPage)
    (state : LoopState) :
    Keeps spec inner envelopeBytes batchBytes (Between page) (run.stepPage branch page content state)
      (fun _ => Between (page + 1)) (fun _ => True) := by
  refine Triple.bind _ (keeps_rest (only_call trivial)) ?_
  intro outcome
  dsimp only
  split
  · exact keeps_abortPage honest run _ _
  · unfold Run.writePage
    split
    · exact keeps_dlqPage honest run _ _ _ _ _ state
    · exact keeps_exactlyOncePage honest run _ _ _ _ state
    · exact keeps_unmarkedPage honest run _ _ state
    · exact keeps_plainPage honest run _ _ _ state

/-! ## The run -/

theorem spares_stopsHere (run : Run) : Only Spares (fun _ => True) run.stopsHere := by
  unfold Run.stopsHere
  split
  · exact ⟨trivial, fun _ => trivial⟩
  · trivial

theorem spares_drainedOnCancel (run : Run) : Only Spares (fun _ => True) run.drainedOnCancel := by
  unfold Run.drainedOnCancel
  split
  · exact ⟨trivial, fun _ => trivial⟩
  · trivial

/-- The loop stops here, or goes on from the page it is at. -/
theorem keeps_pageLoop (honest : Honest inner) (run : Run) (branch : Run.Branch)
    (items : List (Except FaucetError StreamPage)) (page : Nat) (state : LoopState) :
    Keeps spec inner envelopeBytes batchBytes (Between page) (run.pageLoop branch items page state)
      (fun _ _ => True) (fun _ => True) := by
  induction items generalizing page state with
  | nil =>
      unfold Run.pageLoop
      refine Triple.bind _ (keeps_rest (spares_stopsHere run)) ?_
      intro stops
      split
      · exact Triple.pure (fun _ _ => trivial)
      · exact Triple.bind _ (keeps_rest (spares_drainedOnCancel run)) (fun _ => Triple.pure (fun _ _ => trivial))
  | cons item rest ih =>
      unfold Run.pageLoop
      refine Triple.bind _ (keeps_rest (spares_stopsHere run)) ?_
      intro stops
      split
      · exact Triple.pure (fun _ _ => trivial)
      · cases item with
        | error error => exact Triple.fails
        | ok content =>
            dsimp only
            split
            · exact (ih (page + 1) state).given (fun _ between => between.later (Nat.le_succ page))
            · refine Triple.bind _ (keeps_stepPage honest run branch content state) ?_
              intro next
              exact ih (page + 1) next

theorem keeps_runStream (honest : Honest inner) (run : Run) (items : List (Except FaucetError StreamPage)) :
    Keeps spec inner envelopeBytes batchBytes (Between 1) (run.runStream items) (fun _ _ => True)
      (fun _ => True) := by
  refine Triple.bind _ (keeps_rest (spares_start run)) ?_
  intro branch
  refine Triple.bind (fun _ _ => True) ((keeps_pageLoop honest run branch items 1 run.initialState).attempt
    (fun _ _ _ => trivial)) ?_
  intro result
  cases result with
  | error error =>
      exact Triple.bind (fun _ _ => True) (keeps_ending (spares_unwind run)) (fun _ => Triple.fails)
  | ok ended =>
      exact Triple.bind (fun _ _ => True) (keeps_ending (spares_finish run ended.2))
        (fun _ => Triple.pure (fun _ _ => trivial))

/-- A run's record budget is a hard ceiling: the sinks together never accept
more rows than it allows; a page that the budget refuses has none of its rows
offered to the sink inside; and a page that was admitted whole is never
refused.  The timer of `maxDurationSecs` is not modelled: the runs are those
in which it does not fire. -/
theorem budget_ceiling {spec : BudgetSpec} {limit : Nat} (isLimit : spec.maxRecords = some limit)
    {inner : Environment Op.Answer Inner} (honest : Honest inner) (envelopeBytes : Envelope -> Nat)
    (batchBytes : List Value -> Nat) (run : Run) (items : List (Except FaucetError StreamPage)) (start : Inner)
    {final : Engine PipelineResult} {last : BudgetWorld Inner}
    (reached : Reaches (budgeted spec inner envelopeBytes batchBytes) (run.runStream items) ⟨Books.new, start⟩ final
      last) :
    acceptedTotal last.books.ledger ≤ limit ∧
      (forall page, .refused page ∈ last.books.ledger -> forall accepted, .offered page accepted ∉ last.books.ledger) ∧
      (forall page, .admitted page ∈ last.books.ledger -> .refused page ∉ last.books.ledger) := by
  have new : Sound spec Books.new :=
    ⟨rfl, fun _ _ => Nat.zero_le _, nofun,
      nofun⟩
  have first : Between 1 Books.new := ⟨rfl, rfl, nofun⟩
  have sound := (keeps_runStream honest run items).reaches new first reached
  refine ⟨?_, fun page refused accepted => sound.refusedWhole page accepted refused, sound.admittedWhole⟩
  rw [← sound.counted]
  exact sound.within limit isLimit

/-! ### A page that fits, and one that does not -/

/-- Sinks that accept no more than they are offered, and may fail. -/
def modest : Environment Op.Answer Unit := fun op _ answer _ =>
  match op with
  | .writeGoverned _ rows => forall report, answer = .ok report -> report.accepted ≤ rows.length
  | .writeBatchPartial _ rows => forall outcomes, answer = .ok outcomes -> outcomes.countP okOutcome ≤ rows.length
  | .writeBatchIdempotent _ rows _ _ => forall report, answer = .ok report -> report.accepted ≤ rows.length
  | .writeDlq _ envelopes => forall report, answer = .ok report -> report.accepted ≤ envelopes.length
  | _ => True

theorem honest_modest : Honest modest where
  writeGoverned := fun answered => answered _ rfl
  writeBatchPartial := fun answered => answered _ rfl
  writeBatchIdempotent := fun answered => answered _ rfl
  writeDlq := fun answered => answered _ rfl

def threeRecords : BudgetSpec := ⟨some 3, none, none, []⟩

def unstoredRun : Run :=
  { sampleRun with options := { sampleRun.options with stateStore := false, stateKey := none } }

def nullPage : StreamPage := ⟨[.null, .null], none⟩

def afterFirst : BudgetWorld Unit := ⟨⟨⟨2, 0, none, false⟩, 0, 0, [.offered 1 2]⟩, ()⟩

def afterSecond : BudgetWorld Unit := ⟨⟨⟨2, 0, some ⟨.records, 3, 4⟩, true⟩, 0, 0, [.offered 1 2, .refused 2]⟩, ()⟩

theorem budget_ceiling_refused : acceptedTotal afterSecond.books.ledger ≤ 3 := by
  have reached : exists final, Reaches (budgeted threeRecords modest (fun _ => 0) (fun _ => 0))
      (unstoredRun.runStream [.ok nullPage, .ok nullPage]) ⟨Books.new, ()⟩ final afterSecond := by
    have governed (page : Nat) (world : BudgetWorld Unit) :
        budgeted threeRecords modest (fun _ => 0) (fun _ => 0) (.applyGovernance page nullPage.records) world
          (.ok ⟨nullPage.records, [], none⟩) world := ⟨(), trivial, rfl⟩
    have written : budgeted threeRecords modest (fun _ => 0) (fun _ => 0)
        (.writeBatchPartial 1 (governedRows nullPage.records)) ⟨Books.new, ()⟩ (.ok [.ok (), .ok ()]) afterFirst := by
      refine ⟨(), ?_, rfl⟩
      rintro outcomes same
      cases same
      exact Nat.le_refl _
    have settled : budgeted threeRecords modest (fun _ => 0) (fun _ => 0)
        (.foldAccount { PageAccount.new 2 with accepted := 2 }) afterFirst () afterFirst := ⟨(), trivial, rfl⟩
    have refused : budgeted threeRecords modest (fun _ => 0) (fun _ => 0)
        (.writeBatchPartial 2 (governedRows nullPage.records)) afterFirst (.error (.budgetExceeded "max_records" 3 4))
        afterSecond := ⟨rfl, rfl⟩
    exact ⟨_, Reaches.step (governed 1 _) (Reaches.step written (Reaches.step settled
      (Reaches.step (governed 2 _) (Reaches.step refused (Reaches.here _ _)))))⟩
  rcases reached with ⟨final, reached⟩
  exact (budget_ceiling rfl honest_modest _ _ unstoredRun _ () reached).1

end Budget
end FaucetStream
