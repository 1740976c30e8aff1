import FaucetStream.Budget.Ceiling
import FaucetStream.Budget.Weights
import FaucetStream.Pipeline.Stream

namespace FaucetStream
namespace Budget

open Json
open Library
open Governance
open Pipeline
open Engine

/-!
# A run under a budget

Every question of the engine to a budgeted sink keeps the books.  A slice is
followed with the rows that are still to be written after it: what fails of
the slice may be resubmitted, and what an attempt that fails as a whole used up
is missing from what is prepaid, but never from the room.
-/

/-! ## Weights of rows -/

/-- What a row counts for under the ceiling of bytes. -/
def rowBytes (spec : BudgetSpec) (row : GovernedRow) : Nat :=
  if spec.maxBytes.isSome then estimateJsonBytes row.record else 0

theorem rowsBytes_eq (spec : BudgetSpec) (rows : List GovernedRow) :
    rowsBytes spec rows = weigh (rowBytes spec) rows := by
  unfold rowsBytes BudgetSpec.pageBytes estimatePageBytes weigh rowBytes
  cases spec.maxBytes.isSome with
  | true =>
      rw [List.map_map]
      rfl
  | false =>
      simp only [Bool.false_eq_true, if_false]
      exact (List.sum_eq_zero (fun _ among => (List.mem_map.mp among).elim (fun _ both => both.2.symm))).symm

theorem countOutcomes_ok (spec : BudgetSpec) (rows : List GovernedRow) (outcomes : List RowOutcome) :
    countOutcomes spec rows (.ok outcomes) =
      (outcomes.countP okOutcome, weighWhere (rowBytes spec) true rows outcomes) := by
  unfold countOutcomes weighWhere rowBytes
  dsimp only
  cases spec.maxBytes.isSome with
  | true => simp only [if_true, beq_true]
  | false =>
      simp only [Bool.false_eq_true, if_false]
      congr 1
      exact (List.sum_eq_zero (fun _ among => (List.mem_map.mp among).elim (fun _ both => both.2.symm))).symm

section Run

variable {Inner : Type} {spec : BudgetSpec} {inner : Environment Op.Answer Inner} {page : Nat}

/-! ## One write -/

/-- What an answer counts for does not exceed what was written. -/
def Counts (inner : Environment Op.Answer Inner) (op : Op) (rows bytes : Nat) (count : op.Answer -> Nat × Nat) : Prop :=
  forall before answer after, inner op before answer after -> (count answer).1 ≤ rows ∧ (count answer).2 ≤ bytes

/-- A write of an open page reaches the sink inside. -/
theorem writeThrough_opened {op : Op} {rows bytes total totalBytes paid : Nat} {refusal : FaucetError -> op.Answer}
    {count : op.Answer -> Nat × Nat} (counts : Counts inner op rows bytes count) {before after : BudgetWorld Inner}
    {answer : op.Answer} (opened : Opened spec page total totalBytes paid before.books)
    (sound : Sound spec before.books) (fits : rows ≤ total) (bytesFit : bytes ≤ totalBytes)
    (written : writeThrough spec inner op page rows bytes refusal count before answer after) :
    Sound spec after.books ∧ (count answer).1 ≤ rows ∧ (count answer).2 ≤ bytes ∧
      Opened spec page (total - (count answer).1) (totalBytes - (count answer).2) (paid - rows) after.books := by
  rcases admit_of_room ⟨before.books.state, before.books.prepaid⟩ opened.undecided
    (opened.room.less fits bytesFit) with ⟨left, admitted, used⟩
  unfold writeThrough at written
  rw [admitted] at written
  rcases written with ⟨next, answered, rfl⟩
  rcases counts _ _ _ answered with ⟨honest, bytesHonest⟩
  rcases opened.offer sound fits bytesFit used honest bytesHonest with ⟨stillSound, stillOpen⟩
  exact ⟨stillSound, honest, bytesHonest, stillOpen⟩

/-- The first write of a page is refused, or opens the page. -/
theorem writeThrough_unoffered {op : Op} {rows bytes : Nat} {refusal : FaucetError -> op.Answer}
    {count : op.Answer -> Nat × Nat} (counts : Counts inner op rows bytes count) {before after : BudgetWorld Inner}
    {answer : op.Answer} (unoffered : Unoffered page before.books) (sound : Sound spec before.books)
    (written : writeThrough spec inner op page rows bytes refusal count before answer after) :
    Sound spec after.books ∧
      ((exists error, answer = refusal error) ∧ Unoffered page after.books ∨
        Opened spec page (rows - (count answer).1) (bytes - (count answer).2) 0 after.books) := by
  have written' := written
  unfold writeThrough at written
  rw [unoffered.unpaid, admit_unpaid] at written
  rcases admitPage_cases spec before.books.state rows bytes with
    ⟨undecided, room, admitted⟩ | ⟨state, verdict, refused, decided, records⟩
  · have opened := unoffered.opened undecided room
    rcases writeThrough_opened counts opened sound (Nat.le_refl _) (Nat.le_refl _) written' with ⟨still, _, _, after⟩
    rw [Nat.zero_sub] at after
    exact ⟨still, Or.inr after⟩
  · rw [refused] at written
    rcases written with ⟨isRefusal, rfl⟩
    rcases unoffered.refuse sound decided records with ⟨still, again⟩
    exact ⟨still, Or.inl ⟨⟨verdict.error, isRefusal⟩, again⟩⟩

/-! ## Rules -/

variable {envelopeBytes : Envelope -> Nat} {batchBytes : List Value -> Nat}

/-- A question that no budget has a say in. -/
def Spares : Op -> Prop
  | .admitPage _ _ => False
  | .writeGoverned _ _ => False
  | .writeBatchPartial _ _ => False
  | .writeBatchIdempotent _ _ _ _ => False
  | .writeBatchColumnar _ _ => False
  | .loadNative _ _ => False
  | .writeDlq _ _ => False
  | _ => True

theorem budgeted_spares {op : Op} (spares : Spares op) {before after : BudgetWorld Inner} {answer : op.Answer}
    (answered : budgeted spec inner envelopeBytes batchBytes op before answer after) : after.books = before.books := by
  cases op with
  | admitPage page rows => exact spares.elim
  | writeGoverned page rows => exact spares.elim
  | writeBatchPartial page rows => exact spares.elim
  | writeBatchIdempotent page rows scope token => exact spares.elim
  | writeBatchColumnar page records => exact spares.elim
  | loadNative page firstBatch => exact spares.elim
  | writeDlq page envelopes => exact spares.elim
  | isCancelled =>
      rcases answered with ⟨next, _, _, rfl⟩
      rfl
  | _ =>
      rcases answered with ⟨next, _, rfl⟩
      rfl

/-- A piece of the engine under the budget, told by the books. -/
abbrev Keeps (spec : BudgetSpec) (inner : Environment Op.Answer Inner) (envelopeBytes : Envelope -> Nat)
    (batchBytes : List Value -> Nat) {Result : Type} (pre : Books -> Prop) (program : Engine Result)
    (post : Result -> Books -> Prop) (escape : Books -> Prop) : Prop :=
  Triple (budgeted spec inner envelopeBytes batchBytes) (fun world => Sound spec world.books)
    (fun world => pre world.books) program (fun value world => post value world.books)
    (fun world => escape world.books)

variable {Result : Type} {pre escape : Books -> Prop} {post : Result -> Books -> Prop}

/-- A piece that asks nothing of the budgeted sinks leaves the books alone. -/
theorem keeps_spares {returns : Result -> Prop} {program : Engine Result} (only : Only Spares returns program) :
    Keeps spec inner envelopeBytes batchBytes pre program (fun value books => returns value ∧ pre books) pre := by
  have both : Triple (budgeted spec inner envelopeBytes batchBytes) (fun world => Sound spec world.books)
      (fun world => Sound spec world.books ∧ pre world.books) program
      (fun value world => returns value ∧ Sound spec world.books ∧ pre world.books)
      (fun world => Sound spec world.books ∧ pre world.books) := by
    refine only.triple ?_ (fun _ holds => holds.1)
    intro op before answer after spares holds answered
    rw [budgeted_spares spares answered]
    exact holds
  intro world sound holds
  refine (both world sound ⟨sound, holds⟩).weaken ?_
  intro result after _ ends
  cases result with
  | ok value => exact ⟨ends.1, ends.2.2⟩
  | error error => exact ends.2

theorem keeps_call {op : Op} {read : op.Answer -> Except FaucetError Result}
    (answers : forall before answer after, Sound spec before.books -> pre before.books ->
      budgeted spec inner envelopeBytes batchBytes op before answer after ->
      Sound spec after.books ∧ Ends post escape (read answer) after.books) :
    Keeps spec inner envelopeBytes batchBytes pre (call op read) post escape := by
  apply triple_call
  intro before answer after sound holds answered
  rcases answers before answer after sound holds answered with ⟨still, ends⟩
  refine ⟨still, ?_⟩
  cases outcome : read answer with
  | ok value =>
      rw [outcome] at ends
      exact ends
  | error error =>
      rw [outcome] at ends
      exact ends

/-- A body may be repeated when a failed attempt leaves what the next one
starts from. -/
theorem keeps_withRetry (policy : Option RetryPolicy) (cancel : Bool) {body : Nat -> Engine Result}
    (once : forall attempt, Keeps spec inner envelopeBytes batchBytes pre (body attempt) post escape)
    (again : forall books, escape books -> pre books) :
    Keeps spec inner envelopeBytes batchBytes pre (withRetry policy cancel body) post escape := by
  cases policy with
  | none => exact once 0
  | some policy =>
      unfold withRetry
      dsimp only
      generalize max policy.maxAttempts 1 - 1 = left
      generalize (0 : Nat) = attempt
      induction left generalizing attempt with
      | zero => exact once attempt
      | succ left ih =>
          refine Triple.bind (fun result world => Ends post escape result world.books)
            ((once attempt).attempt (fun result world ended => by cases result <;> exact ended)) ?_
          intro result
          cases result with
          | ok value => exact Triple.pure (fun _ ends => ends)
          | error error =>
              by_cases retriable : policy.isRetriable error = true
              · simp only [retriable, if_true]
                have waits : Only Spares (fun _ => True) (backoffWait cancel (policy.wait attempt error)) := by
                  unfold backoffWait
                  split
                  · trivial
                  · exact ⟨trivial, fun _ => trivial⟩
                refine Triple.bind (fun _ world => escape world.books)
                  ((keeps_spares waits).gives (fun _ _ ends => ends.2)) ?_
                intro resumed
                cases resumed with
                | true =>
                    exact (ih (attempt + 1)).given (fun world => again world.books)
                | false => exact Triple.raise (fun _ ends => ends)
              · simp only [retriable]
                exact Triple.raise (fun _ ends => ends)

theorem keeps_retryingWrite (run : Run) {body : Engine Result}
    (once : Keeps spec inner envelopeBytes batchBytes pre body post escape)
    (again : forall books, escape books -> pre books) :
    Keeps spec inner envelopeBytes batchBytes pre (run.retryingWrite body) post escape := by
  unfold Run.retryingWrite
  split
  · exact keeps_withRetry _ _ (fun _ => once) again
  · exact once

/-! ## The rows that are still to be written -/

/-- There is room for these rows of the page; or, in the case of `whole`, none
of the page was written. -/
def Stage (spec : BudgetSpec) (page : Nat) (rows : List GovernedRow) (paid : Nat) (whole : Prop) (books : Books) :
    Prop :=
  Opened spec page rows.length (rowsBytes spec rows) paid books ∨ (whole ∧ Unoffered page books)

theorem rowsBytes_append (spec : BudgetSpec) (front back : List GovernedRow) :
    rowsBytes spec (front ++ back) = rowsBytes spec front + rowsBytes spec back := by
  rw [rowsBytes_eq, rowsBytes_eq, rowsBytes_eq, weigh_append]

theorem rowsBytes_nil (spec : BudgetSpec) : rowsBytes spec [] = 0 := by
  rw [rowsBytes_eq]
  rfl

theorem Stage.less {rows : List GovernedRow} {paid more : Nat} {whole : Prop} {books : Books}
    (stage : Stage spec page rows paid whole books) (prepaid : paid ≤ more) : Stage spec page rows more whole books :=
  stage.imp (fun opened => opened.less (Nat.le_refl _) (Nat.le_refl _) prepaid) id

/-- The rows of a slice are done with. -/
theorem Stage.done {chunk rest : List GovernedRow} {books : Books}
    (stage : Stage spec page (chunk ++ rest) rest.length (rest = []) books) :
    Stage spec page rest rest.length (rest = []) books := by
  refine stage.imp (fun opened => opened.less ?_ ?_ (Nat.le_refl _)) id
  · rw [List.length_append]
    exact Nat.le_add_left _ _
  · rw [rowsBytes_append]
    exact Nat.le_add_left _ _

theorem Stage.between {rows : List GovernedRow} {paid : Nat} {whole : Prop} {books : Books}
    (stage : Stage spec page rows paid whole books) (spent : paid = 0) : Between (page + 1) books := by
  rcases stage with opened | ⟨_, unoffered⟩
  · rw [spent] at opened
    exact opened.between
  · exact unoffered.between

/-- A write of a slice, refused only if it is all of an unwritten page. -/
theorem Stage.write {chunk rest : List GovernedRow} {op : Op} {refusal : FaucetError -> op.Answer}
    {count : op.Answer -> Nat × Nat} (counts : Counts inner op chunk.length (rowsBytes spec chunk) count)
    {before after : BudgetWorld Inner} {answer : op.Answer}
    (stage : Stage spec page (chunk ++ rest) (chunk ++ rest).length (rest = []) before.books)
    (sound : Sound spec before.books)
    (written : writeThrough spec inner op page chunk.length (rowsBytes spec chunk) refusal count before answer after) :
    Sound spec after.books ∧
      ((exists error, answer = refusal error) ∧ rest = [] ∧ Unoffered page after.books ∨
        Opened spec page (chunk.length - (count answer).1 + rest.length)
          (rowsBytes spec chunk - (count answer).2 + rowsBytes spec rest) rest.length after.books) := by
  rcases stage with opened | ⟨last, unoffered⟩
  · have fits : chunk.length ≤ (chunk ++ rest).length := by
      rw [List.length_append]
      exact Nat.le_add_right _ _
    have bytesFit : rowsBytes spec chunk ≤ rowsBytes spec (chunk ++ rest) := by
      rw [rowsBytes_append]
      exact Nat.le_add_right _ _
    rcases writeThrough_opened counts opened sound fits bytesFit written with ⟨still, honest, bytesHonest, after⟩
    refine ⟨still, Or.inr (after.less ?_ ?_ ?_)⟩
    · rw [List.length_append]
      omega
    · rw [rowsBytes_append]
      omega
    · rw [List.length_append]
      omega
  · rcases writeThrough_unoffered counts unoffered sound written with ⟨still, ⟨refused, again⟩ | opened⟩
    · exact ⟨still, Or.inl ⟨refused, last, again⟩⟩
    · rw [last, rowsBytes_nil]
      exact ⟨still, Or.inr opened⟩

end Run

end Budget
end FaucetStream
