import FaucetStream.Pipeline.Stream

namespace FaucetStream
namespace Pipeline

open Json
open Library
open Governance
open Engine

/-!
# Rows on the dead-letter path

A governed page is written in slices, rows that keep failing are offered again,
and what comes of each row is counted.  The row log follows this from the
outside: what the sink last said about the row at each place of the governed
page, the envelopes made, and the account once it is folded.

The first part shows that the counters and envelopes always agree with the last
answers, under the place of a row in its governed page.  The second part asks
when that place is the row's position in the page the source sent.
-/

/-- What became of the rows of a page so far. -/
structure RowLog where
  /-- Whether the sink last accepted the row at a place. -/
  last : Nat -> Option Bool
  pushed : List Envelope
  account : Option PageAccount

/-- A row with what was said about it. -/
abbrev Verdict : Type := GovernedRow × Bool

def Verdict.place (verdict : Verdict) : Nat := verdict.1.place

namespace RowLog

def empty : RowLog := ⟨fun _ => none, [], none⟩

def tell (log : RowLog) (verdicts : List Verdict) : RowLog :=
  { log with
    last := verdicts.foldl (fun last verdict => Function.update last verdict.place (some verdict.2)) log.last }

/-- The log's last word about these rows. -/
def Told (log : RowLog) (verdicts : List Verdict) : Prop :=
  forall verdict, verdict ∈ verdicts -> log.last verdict.place = some verdict.2

theorem tell_cons (log : RowLog) (verdict : Verdict) (rest : List Verdict) :
    log.tell (verdict :: rest) = (log.tell [verdict]).tell rest := rfl

theorem told_append {log : RowLog} {first second : List Verdict} :
    log.Told (first ++ second) <-> log.Told first ∧ log.Told second := by
  constructor
  · intro told
    exact ⟨fun verdict member => told verdict (List.mem_append_left second member),
      fun verdict member => told verdict (List.mem_append_right first member)⟩
  · rintro ⟨told, toldSecond⟩ verdict member
    rcases List.mem_append.mp member with earlier | later
    · exact told verdict earlier
    · exact toldSecond verdict later

/-- What is said about some rows leaves the others alone. -/
theorem tell_last_of_notMem (log : RowLog) (verdicts : List Verdict) (place : Nat)
    (absent : place ∉ verdicts.map Verdict.place) : (log.tell verdicts).last place = log.last place := by
  induction verdicts generalizing log with
  | nil => rfl
  | cons verdict rest ih =>
      rw [List.map_cons, List.mem_cons, not_or] at absent
      rw [tell_cons, ih (log.tell [verdict]) absent.2]
      exact Function.update_of_ne absent.1 _ _

theorem Told.tell {log : RowLog} {known : List Verdict} (told : log.Told known) (verdicts : List Verdict)
    (apart : forall verdict, verdict ∈ known -> verdict.place ∉ verdicts.map Verdict.place) :
    (log.tell verdicts).Told known := by
  intro verdict member
  rw [log.tell_last_of_notMem verdicts verdict.place (apart verdict member)]
  exact told verdict member

theorem told_tell (log : RowLog) (verdicts : List Verdict) (distinct : (verdicts.map Verdict.place).Nodup) :
    (log.tell verdicts).Told verdicts := by
  induction verdicts generalizing log with
  | nil => exact nofun
  | cons verdict rest ih =>
      rw [List.map_cons, List.nodup_cons] at distinct
      intro other member
      rcases List.mem_cons.mp member with same | later
      · rw [same, tell_cons, tell_last_of_notMem _ _ _ distinct.1]
        exact Function.update_self _ _ _
      · exact ih (log.tell [verdict]) distinct.2 other later

end RowLog

/-! ## Resubmitted rows -/

/-- The rows of a slice with the outcomes found for them. -/
def verdicts (chunk : List GovernedRow) (outcomes : List RowOutcome) : List Verdict :=
  chunk.zip (outcomes.map Except.isOk)

/-- Rows that stand one after the other from an offset on. -/
def Placed (offset : Nat) (rows : List GovernedRow) : Prop :=
  forall index row, rows[index]? = some row -> row.place = offset + index

section Resubmitted

variable {chunk : List GovernedRow} {outcomes : List RowOutcome} {offset : Nat}

theorem mem_verdicts {verdict : Verdict} :
    verdict ∈ verdicts chunk outcomes <-> exists index : Nat, chunk[index]? = some verdict.1 ∧
      (outcomes[index]?).map Except.isOk = some verdict.2 := by
  rw [verdicts, List.mem_iff_getElem?]
  simp only [List.getElem?_zip_eq_some, List.getElem?_map]

theorem Placed.take (placed : Placed offset chunk) (size : Nat) : Placed offset (chunk.take size) := by
  intro index row found
  rw [List.getElem?_take] at found
  split at found
  · exact placed index row found
  · cases found

theorem Placed.drop (placed : Placed offset chunk) (size : Nat) :
    Placed (offset + size) (chunk.drop size) := by
  intro index row found
  rw [List.getElem?_drop] at found
  rw [Nat.add_assoc]
  exact placed (size + index) row found

theorem Placed.nodup (placed : Placed offset chunk) : (chunk.map GovernedRow.place).Nodup := by
  have places : chunk.map GovernedRow.place = List.range' offset chunk.length := by
    apply List.ext_getElem (by rw [List.length_map, List.length_range'])
    intro index bound _
    rw [List.length_map] at bound
    rw [List.getElem_map, List.getElem_range', Nat.one_mul]
    exact placed index _ (List.getElem?_eq_getElem bound)
  rw [places]
  exact List.nodup_range'

theorem verdicts_rows (whole : outcomes.length = chunk.length) : (verdicts chunk outcomes).map Prod.fst = chunk :=
  List.map_fst_zip (by rw [List.length_map, whole])

theorem length_verdicts (whole : outcomes.length = chunk.length) :
    (verdicts chunk outcomes).length = chunk.length := by
  rw [← List.length_map Prod.fst, verdicts_rows whole]

theorem nodup_verdicts (placed : Placed offset chunk) (whole : outcomes.length = chunk.length) :
    ((verdicts chunk outcomes).map Verdict.place).Nodup := by
  have rows : (verdicts chunk outcomes).map Verdict.place =
      ((verdicts chunk outcomes).map Prod.fst).map GovernedRow.place := by
    rw [List.map_map]
    rfl
  rw [rows, verdicts_rows whole]
  exact placed.nodup

theorem placed_governedRows (records : List Value) : Placed 0 (governedRows records) := by
  intro index row found
  rw [governedRows, List.getElem?_map, List.getElem?_zipIdx] at found
  cases record : records[index]? with
  | none =>
      rw [record] at found
      cases found
  | some value =>
      rw [record] at found
      cases found
      rfl

/-- One outcome replaced, in the slice and in the log. -/
theorem told_set (placed : Placed offset chunk) {log : RowLog} {index : Nat} {row : GovernedRow}
    (found : chunk[index]? = some row) (told : log.Told (verdicts chunk outcomes)) (outcome : RowOutcome) :
    (log.tell [(row, outcome.isOk)]).Told (verdicts chunk (outcomes.set index outcome)) := by
  intro verdict member
  rcases mem_verdicts.mp member with ⟨other, foundOther, said⟩
  have here := placed index row found
  have there : verdict.place = offset + other := placed other verdict.1 foundOther
  by_cases same : index = other
  · rw [same] at found said here
    have inside : other < outcomes.length := by
      by_contra outside
      rw [List.getElem?_eq_none (by rw [List.length_set]; omega)] at said
      cases said
    rw [List.getElem?_set_self inside] at said
    have place : verdict.place = row.place := by rw [here, there]
    rw [place, ← said]
    exact Function.update_self _ _ _
  · rw [List.getElem?_set_ne same] at said
    have apart : verdict.place ∉ [(row, outcome.isOk)].map Verdict.place := by
      rw [List.map_singleton, List.mem_singleton]
      intro equal
      have place : verdict.place = row.place := equal
      omega
    rw [log.tell_last_of_notMem _ _ apart]
    exact told verdict (mem_verdicts.mpr ⟨other, foundOther, said⟩)

theorem length_writeBack (outcomes : List RowOutcome) (failing : List Nat) (retried : List RowOutcome) :
    (Run.writeBack outcomes failing retried).length = outcomes.length := by
  unfold Run.writeBack
  induction failing.zip retried generalizing outcomes with
  | nil => rfl
  | cons entry rest ih => rw [List.foldl_cons, ih, List.length_set]

/-- The answers about a resubmitted subset end up where its rows stand. -/
theorem told_writeBack (placed : Placed offset chunk) {log : RowLog} (failing : List Nat)
    (inside : forall index, index ∈ failing -> index < chunk.length)
    (told : log.Told (verdicts chunk outcomes)) (retried : List RowOutcome) :
    (log.tell (verdicts (Run.selectRows chunk failing) retried)).Told
      (verdicts chunk (Run.writeBack outcomes failing retried)) := by
  induction failing generalizing outcomes log retried with
  | nil => exact told
  | cons index rest ih =>
      have bound := inside index List.mem_cons_self
      have found : chunk[index]? = some chunk[index] := List.getElem?_eq_getElem bound
      have selected : Run.selectRows chunk (index :: rest) = chunk[index] :: Run.selectRows chunk rest := by
        rw [Run.selectRows, List.filterMap_cons, found]
        rfl
      cases retried with
      | nil =>
          rw [verdicts, selected]
          exact told
      | cons outcome later =>
          rw [selected]
          exact ih (fun index member => inside index (List.mem_cons_of_mem _ member))
            (told_set placed found told outcome) later

theorem failingRows_lt (policy : Option RetryPolicy) (outcomes : List RowOutcome) (index : Nat)
    (member : index ∈ Run.failingRows policy outcomes) : index < outcomes.length := by
  rcases List.mem_filterMap.mp member with ⟨entry, listed, chosen⟩
  have position := List.mem_zipIdx_iff_getElem?.mp listed
  have same : entry.2 = index := by
    split at chosen
    · split at chosen
      · exact Option.some.inj chosen
      · cases chosen
    · cases chosen
  rw [← same]
  exact (List.getElem?_eq_some_iff.mp position).1

theorem mem_selectRows {row : GovernedRow} {indices : List Nat}
    (member : row ∈ Run.selectRows chunk indices) : row ∈ chunk := by
  rcases List.mem_filterMap.mp member with ⟨index, _, found⟩
  exact List.mem_of_getElem? found

end Resubmitted

/-! ## The counters and the log -/

namespace Run

/-- What happens to a row that keeps failing. -/
def poisonAction (run : Run) : PoisonAction := (run.poison.map PoisonPolicy.action).getD .dlq

end Run

/-- The rows a sink refused, with their places. -/
def refused (verdicts : List Verdict) : List (Value × Nat) :=
  (verdicts.filter (fun verdict => !verdict.2)).map (fun verdict => (verdict.1.record, verdict.place))

/-- Everything counted so far agrees with the verdicts on the rows settled. -/
structure Settled (run : Run) (settled : List Verdict) (state : Run.SliceState) (log : RowLog) : Prop where
  told : log.Told settled
  pushed : log.pushed = state.envelopes
  unfolded : log.account = none
  success : state.pageSuccess = settled.countP Prod.snd
  enveloped : state.envelopes.map Envelope.placed = if run.poisonAction = .dlq then refused settled else []
  failed : state.failed = state.envelopes.length
  dropped : state.dropped = if run.poisonAction = .drop then (refused settled).length else 0
  spared : run.poisonAction = .fail -> refused settled = []

theorem refused_append (first second : List Verdict) :
    refused (first ++ second) = refused first ++ refused second := by
  rw [refused, refused, refused, List.filter_append, List.map_append]

namespace Settled

variable {run : Run} {settled : List Verdict} {state : Run.SliceState} {log : RowLog} {row : GovernedRow}

theorem accept (holds : Settled run settled state log) (told : log.last row.place = some true) :
    Settled run (settled ++ [(row, true)]) { state with pageSuccess := state.pageSuccess + 1 } log := by
  have none : refused (settled ++ [(row, true)]) = refused settled := by
    rw [refused_append]
    exact List.append_nil _
  have one : log.Told [(row, true)] := by
    intro verdict member
    rw [List.mem_singleton.mp member]
    exact told
  refine ⟨RowLog.told_append.mpr ⟨holds.told, one⟩, holds.pushed, holds.unfolded, ?_, ?_, holds.failed, ?_, ?_⟩
  · rw [List.countP_append, ← holds.success]
    rfl
  · rw [none]
    exact holds.enveloped
  · rw [none]
    exact holds.dropped
  · rw [none]
    exact holds.spared

theorem told_refusal (holds : Settled run settled state log) (told : log.last row.place = some false) :
    log.Told (settled ++ [(row, false)]) := by
  refine RowLog.told_append.mpr ⟨holds.told, fun verdict member => ?_⟩
  rw [List.mem_singleton.mp member]
  exact told

theorem refused_refusal (settled : List Verdict) (row : GovernedRow) :
    refused (settled ++ [(row, false)]) = refused settled ++ [(row.record, row.place)] :=
  refused_append _ _

theorem countP_refusal (settled : List Verdict) (row : GovernedRow) :
    (settled ++ [(row, false)]).countP Prod.snd = settled.countP Prod.snd :=
  List.countP_append

theorem drop (holds : Settled run settled state log) (action : run.poisonAction = .drop)
    (told : log.last row.place = some false) :
    Settled run (settled ++ [(row, false)]) { state with dropped := state.dropped + 1 } log := by
  have enveloped := holds.enveloped
  have dropped := holds.dropped
  simp only [action, if_true, reduceCtorEq, if_false] at enveloped dropped
  refine ⟨holds.told_refusal told, holds.pushed, holds.unfolded, ?_, ?_, holds.failed, ?_, ?_⟩
  · rw [countP_refusal]
    exact holds.success
  · simp only [action, reduceCtorEq, if_false]
    exact enveloped
  · simp only [action, if_true, refused_refusal, List.length_append, List.length_singleton]
    rw [dropped]
  · intro impossible
    rw [action] at impossible
    cases impossible

theorem envelop (holds : Settled run settled state log) (action : run.poisonAction = .dlq)
    (told : log.last row.place = some false) (envelope : Envelope)
    (placed : envelope.placed = (row.record, row.place)) :
    Settled run (settled ++ [(row, false)])
      { state with envelopes := state.envelopes ++ [envelope], failed := state.failed + 1 }
      { log with pushed := log.pushed ++ [envelope] } := by
  have enveloped := holds.enveloped
  have dropped := holds.dropped
  simp only [action, if_true, reduceCtorEq, if_false] at enveloped dropped
  refine ⟨holds.told_refusal told, ?_, holds.unfolded, ?_, ?_, ?_, ?_, ?_⟩
  · rw [holds.pushed]
  · rw [countP_refusal]
    exact holds.success
  · simp only [action, if_true, refused_refusal, List.map_append, List.map_singleton, placed]
    rw [enveloped]
  · rw [List.length_append, ← holds.failed, List.length_singleton]
  · simp only [action, reduceCtorEq, if_false]
    exact dropped
  · intro impossible
    rw [action] at impossible
    cases impossible

/-- What the sink says about other rows does not matter. -/
theorem tell (holds : Settled run settled state log) (verdicts : List Verdict)
    (apart : forall verdict, verdict ∈ settled -> verdict.place ∉ verdicts.map Verdict.place) :
    Settled run settled state (log.tell verdicts) :=
  ⟨holds.told.tell verdicts apart, holds.pushed, holds.unfolded, holds.success, holds.enveloped, holds.failed,
    holds.dropped, holds.spared⟩

end Settled

/-- The rows of a slice come after the rows settled before it. -/
theorem apart_of_early {settled : List Verdict} {offset : Nat} {chunk : List GovernedRow}
    (early : forall verdict, verdict ∈ settled -> verdict.place < offset)
    (placed : Placed offset chunk) {told : List Verdict}
    (within : forall verdict, verdict ∈ told -> verdict.1 ∈ chunk) (verdict : Verdict)
    (member : verdict ∈ settled) : verdict.place ∉ told.map Verdict.place := by
  intro listed
  rcases List.mem_map.mp listed with ⟨other, memberOther, same⟩
  rcases List.mem_iff_getElem?.mp (within other memberOther) with ⟨index, found⟩
  have late : other.place = offset + index := placed index other.1 found
  have before := early verdict member
  omega

theorem mem_of_mem_verdicts {chunk : List GovernedRow} {outcomes : List RowOutcome} {verdict : Verdict}
    (member : verdict ∈ verdicts chunk outcomes) : verdict.1 ∈ chunk :=
  (List.of_mem_zip member).1

/-- A failed write refuses every row of the slice. -/
theorem verdicts_replicate (chunk : List GovernedRow) (error : FaucetError) :
    verdicts chunk (List.replicate chunk.length (.error error)) = chunk.map (fun row => (row, false)) := by
  induction chunk with
  | nil => rfl
  | cons row rest ih =>
      rw [List.length_cons, List.replicate_succ, List.map_cons, ← ih]
      rfl

/-! ## Runs of the dead-letter page -/

/-- The log after an answer. -/
def RowLog.after (log : RowLog) : (op : Op) -> op.Answer -> RowLog
  | .writeBatchPartial _ rows, .ok outcomes => log.tell (verdicts rows outcomes)
  | .writeBatchPartial _ rows, .error _ => log.tell (rows.map (fun row => (row, false)))
  | .pushFailure _ envelope, _ => { log with pushed := log.pushed ++ [envelope] }
  | .foldAccount account, _ => { log with account := some account }
  | _, _ => log

/-- Surroundings that give the allowed answers. -/
def rowAnswers (allows : (op : Op) -> op.Answer -> Prop) : Environment Op.Answer RowLog :=
  fun op before answer after => allows op answer ∧ after = before.after op answer

theorem rowAnswers_idle (allows : (op : Op) -> op.Answer -> Prop) : Idle (rowAnswers allows) where
  sleep := fun answered => answered.2
  isCancelled := fun answered => answered.2
  batchSize := fun answered => answered.2

/-- A folded account is as wanted. -/
def Kept (wanted : RowLog -> PageAccount -> Prop) (log : RowLog) : Prop :=
  forall account, log.account = some account -> wanted log account

section Counting

variable {allows : (op : Op) -> op.Answer -> Prop} {wanted : RowLog -> PageAccount -> Prop} {Result : Type}
  {pre escape : RowLog -> Prop} {post : Result -> RowLog -> Prop}

/-- A triple about runs that keep a row log. -/
abbrev Counts (allows : (op : Op) -> op.Answer -> Prop) (wanted : RowLog -> PageAccount -> Prop)
    (pre : RowLog -> Prop) (program : Engine Result) (post : Result -> RowLog -> Prop)
    (escape : RowLog -> Prop) : Prop :=
  Triple (rowAnswers allows) (Kept wanted) pre program post escape

theorem kept_of_unfolded {log : RowLog} (unfolded : log.account = none) : Kept wanted log := by
  intro account folded
  rw [unfolded] at folded
  cases folded

/-- A question about no row. -/
theorem counts_call_same {op : Op} {read : op.Answer -> Except FaucetError Result}
    (same : forall (log : RowLog) answer, log.after op answer = log) :
    Counts allows wanted pre (call op read) (fun _ => pre) pre := by
  apply triple_call
  rintro log answer after kept holds ⟨_, answered⟩
  rw [answered, same log answer]
  refine ⟨kept, ?_⟩
  cases read answer with
  | ok value => exact holds
  | error error => exact holds

namespace Run

variable (run : Run) {settled : List Verdict} {state : SliceState} {page offset : Nat}
  {chunk : List GovernedRow}

theorem counts_writeBatchPartial (early : forall verdict, verdict ∈ settled -> verdict.place < offset)
    (placed : Placed offset chunk) :
    Counts allows wanted (Settled run settled state) (call (.writeBatchPartial page chunk) id)
      (fun outcomes log => Settled run settled state log ∧
        (outcomes.length = chunk.length -> log.Told (verdicts chunk outcomes)))
      (fun log => Settled run settled state log ∧ log.Told (chunk.map (fun row => (row, false)))) := by
  apply triple_call
  rintro log answer after kept holds ⟨_, answered⟩
  cases answer with
  | ok outcomes =>
      have next : after = log.tell (verdicts chunk outcomes) := answered
      rw [next]
      refine ⟨kept_of_unfolded holds.unfolded, ?_, fun whole => ?_⟩
      · exact holds.tell _ (apart_of_early early placed (fun _ member => mem_of_mem_verdicts member))
      · exact log.told_tell _ (nodup_verdicts placed whole)
  | error error =>
      have next : after = log.tell (verdicts chunk (List.replicate chunk.length (.error error))) := by
        rw [verdicts_replicate]
        exact answered
      rw [next, ← verdicts_replicate chunk error]
      refine ⟨kept_of_unfolded holds.unfolded, ?_, ?_⟩
      · exact holds.tell _ (apart_of_early early placed (fun _ member => mem_of_mem_verdicts member))
      · exact log.told_tell _ (nodup_verdicts placed List.length_replicate)

/-- A slice is written: every row of it has an outcome, the sink's last word. -/
def Answered (run : Run) (settled : List Verdict) (state : SliceState) (chunk : List GovernedRow)
    (outcomes : List RowOutcome) (log : RowLog) : Prop :=
  Settled run settled state log ∧ outcomes.length = chunk.length ∧ log.Told (verdicts chunk outcomes)

theorem counts_retryingWrite {body : Engine Result} (once : Counts allows wanted pre body post escape)
    (again : forall log, escape log -> pre log) :
    Counts allows wanted pre (run.retryingWrite body) post escape := by
  unfold retryingWrite
  split
  · exact triple_withRetry (rowAnswers_idle allows).sleep _ _ (fun _ => once) again
  · exact once

theorem counts_writeChunk (dlq : DlqConfig)
    (early : forall verdict, verdict ∈ settled -> verdict.place < offset) (placed : Placed offset chunk) :
    Counts allows wanted (Settled run settled state) (run.writeChunk dlq page chunk)
      (fun written => run.Answered settled state chunk written.1) (fun _ => True) := by
  unfold writeChunk
  refine Triple.bind _ ((run.counts_retryingWrite (run.counts_writeBatchPartial early placed)
    (fun _ escaped => escaped.1)).attempt (fun _ _ ended => ended)) ?_
  intro answer
  split
  · rename_i outcomes
    by_cases whole : outcomes.length = chunk.length
    · simp only [whole, ne_eq, not_true_eq_false, if_false]
      exact Triple.pure (fun _ ends => ⟨ends.1, whole, ends.2 whole⟩)
    · simp only [ne_eq, whole, not_false_eq_true, if_true]
      exact Triple.fails
  · exact Triple.fails
  · exact Triple.fails
  · exact Triple.fails
  · rename_i error _ _ _
    split
    · exact Triple.fails
    · refine Triple.pure (fun _ ends => ⟨ends.1, List.length_replicate, ?_⟩)
      rw [verdicts_replicate]
      exact ends.2

theorem counts_poisonRetries (early : forall verdict, verdict ∈ settled -> verdict.place < offset)
    (placed : Placed offset chunk) (left : Nat) (outcomes : List RowOutcome) :
    Counts allows wanted (run.Answered settled state chunk outcomes) (run.poisonRetries page chunk left outcomes)
      (fun last => run.Answered settled state chunk last) (fun _ => True) := by
  induction left generalizing outcomes with
  | zero => exact Triple.pure (fun _ holds => holds)
  | succ left ih =>
      unfold poisonRetries
      dsimp only
      split
      · exact Triple.pure (fun _ holds => holds)
      · -- The answers go to the log and to the outcomes at the same rows.
        refine Triple.bind (fun retried => run.Answered settled state chunk
          (writeBack outcomes (failingRows run.retryPolicy outcomes) retried)) ?_ ?_
        · apply triple_call
          rintro log answer after kept ⟨holds, whole, told⟩ ⟨_, answered⟩
          cases answer with
          | error error =>
              have next : after = log.tell _ := answered
              rw [next]
              exact ⟨kept_of_unfolded holds.unfolded, trivial⟩
          | ok retried =>
              have next : after = log.tell (verdicts _ retried) := answered
              rw [next]
              refine ⟨kept_of_unfolded holds.unfolded, ?_, ?_, ?_⟩
              · exact holds.tell _ (apart_of_early early placed
                  (fun _ member => mem_selectRows (mem_of_mem_verdicts member)))
              · rw [length_writeBack, whole]
              · refine told_writeBack placed _ (fun index member => ?_) told retried
                rw [← whole]
                exact failingRows_lt run.retryPolicy outcomes index member
        · intro retried
          split
          · exact Triple.fails
          · exact ih _

theorem counts_resubmit (early : forall verdict, verdict ∈ settled -> verdict.place < offset)
    (placed : Placed offset chunk) (written : List RowOutcome × Bool) :
    Counts allows wanted (run.Answered settled state chunk written.1) (run.resubmit page chunk written)
      (fun last => run.Answered settled state chunk last) (fun _ => True) := by
  unfold resubmit
  split
  · exact run.counts_poisonRetries early placed _ _
  · exact Triple.pure (fun _ holds => holds)

/-- The verdicts in a list of rows with their outcomes. -/
def judged (entries : List (GovernedRow × RowOutcome)) : List Verdict :=
  entries.map (fun entry => (entry.1, Except.isOk entry.2))

theorem judged_zip (chunk : List GovernedRow) (outcomes : List RowOutcome) :
    judged (chunk.zip outcomes) = verdicts chunk outcomes := by
  rw [verdicts, List.zip_map_right]
  rfl

theorem append_judged (settled : List Verdict) (row : GovernedRow) (outcome : RowOutcome)
    (rest : List (GovernedRow × RowOutcome)) :
    settled ++ judged ((row, outcome) :: rest) = settled ++ [(row, Except.isOk outcome)] ++ judged rest :=
  (List.append_assoc settled [(row, Except.isOk outcome)] (judged rest)).symm

/-- Counting rows from position `j` of a slice on. -/
theorem counts_settleRows (synthesized : Bool) (entries : List (GovernedRow × RowOutcome)) (j : Nat)
    (settled : List Verdict) (state : SliceState)
    (placed : Placed (offset + j) (entries.map Prod.fst)) :
    Counts allows wanted
      (fun log => Settled run settled state log ∧ log.Told (judged entries))
      (run.settleRows page synthesized offset entries j state)
      (fun counted log => Settled run (settled ++ judged entries) counted log) (fun _ => True) := by
  induction entries generalizing j settled state with
  | nil =>
      refine Triple.pure (fun _ holds => ?_)
      rw [judged, List.map_nil, List.append_nil]
      exact holds.1
  | cons entry rest ih =>
      rcases entry with ⟨row, outcome⟩
      have here : row.place = offset + j := placed 0 row rfl
      have later : Placed (offset + (j + 1)) (rest.map Prod.fst) := placed.drop 1
      cases outcome with
      | ok value =>
          rw [append_judged]
          refine (ih (j + 1) _ _ later).given ?_
          rintro log ⟨holds, told⟩
          exact ⟨holds.accept (told _ List.mem_cons_self),
            fun verdict member => told verdict (List.mem_cons_of_mem _ member)⟩
      | error error =>
          rw [append_judged]
          unfold settleRows
          cases action : (run.poison.map PoisonPolicy.action).getD .dlq with
          | fail => exact Triple.fails
          | drop =>
              refine (ih (j + 1) _ _ later).given ?_
              rintro log ⟨holds, told⟩
              exact ⟨holds.drop action (told _ List.mem_cons_self),
                fun verdict member => told verdict (List.mem_cons_of_mem _ member)⟩
          | dlq =>
              apply Triple.ask
              rintro log answer after kept ⟨holds, told⟩ ⟨_, answered⟩
              have next : after = { log with pushed := log.pushed ++ [_] } := answered
              rw [next]
              refine ⟨kept_of_unfolded holds.unfolded, fun still => ?_⟩
              refine ih (j + 1) _ _ later _ still ⟨?_, ?_⟩
              · apply holds.envelop action (told _ List.mem_cons_self)
                rw [here]
                rfl
              · exact fun verdict member => told verdict (List.mem_cons_of_mem _ member)

theorem counts_writeSlice (dlq : DlqConfig)
    (early : forall verdict, verdict ∈ settled -> verdict.place < offset) (placed : Placed offset chunk) :
    Counts allows wanted (Settled run settled state) (run.writeSlice dlq page chunk offset state)
      (fun counted log => exists outcomes : List RowOutcome, outcomes.length = chunk.length ∧
        Settled run (settled ++ verdicts chunk outcomes) counted log)
      (fun _ => True) := by
  refine Triple.bind _ (run.counts_writeChunk dlq early placed) ?_
  intro written
  refine Triple.bind _ (run.counts_resubmit early placed written) ?_
  rintro outcomes log kept ⟨holds, whole, told⟩
  have rows : (chunk.zip outcomes).map Prod.fst = chunk := List.map_fst_zip (Nat.le_of_eq whole.symm)
  have here : Placed (offset + 0) ((chunk.zip outcomes).map Prod.fst) := by
    rw [rows]
    exact placed
  refine ((run.counts_settleRows written.2 (chunk.zip outcomes) 0 settled state here).gives (fun counted _ ends =>
    ⟨outcomes, whole, ?_⟩)) log kept ⟨holds, ?_⟩
  · rw [judged_zip]
    exact told
  · rw [← judged_zip]
    exact ends

theorem counts_sliceSize (remaining : Nat) (present : 0 < remaining) :
    Counts allows wanted pre (run.sliceSize remaining)
      (fun size log => pre log ∧ 0 < size ∧ size ≤ remaining) (fun _ => True) := by
  unfold sliceSize
  split
  · apply Triple.ask
    rintro log answer after kept holds ⟨_, answered⟩
    have same : after = log := answered
    rw [same]
    refine ⟨kept, fun _ => ⟨kept, holds, ?_, Nat.min_le_right _ _⟩⟩
    exact Nat.lt_min.mpr ⟨Nat.lt_of_lt_of_le Nat.zero_lt_one (Nat.le_max_right _ _), present⟩
  · exact Triple.pure (fun _ holds => ⟨holds, present, Nat.le_refl remaining⟩)

/-- All slices of a page, by induction on the rounds: the rows settled and the
rows remaining are always the whole page. -/
theorem counts_slices (dlq : DlqConfig) {whole : List GovernedRow} (placed : Placed 0 whole) (rounds : Nat)
    (remaining : List GovernedRow) (enough : remaining.length ≤ rounds) (settled : List Verdict)
    (split : settled.map Prod.fst ++ remaining = whole) (state : SliceState) :
    Counts allows wanted (Settled run settled state) (run.slices dlq page rounds remaining settled.length state)
      (fun counted log => exists all : List Verdict, all.map Prod.fst = whole ∧ Settled run all counted log)
      (fun _ => True) := by
  induction rounds generalizing remaining settled state with
  | zero =>
      rw [List.length_eq_zero_iff.mp (Nat.le_zero.mp enough), List.append_nil] at split
      exact Triple.pure (fun _ holds => ⟨settled, split, holds⟩)
  | succ rounds ih =>
      unfold slices
      split
      · rename_i none
        rw [List.isEmpty_iff.mp none, List.append_nil] at split
        exact Triple.pure (fun _ holds => ⟨settled, split, holds⟩)
      · rename_i some
        have present : 0 < remaining.length :=
          List.length_pos_iff.mpr (fun empty => some (List.isEmpty_iff.mpr empty))
        refine Triple.bind _ (run.counts_sliceSize remaining.length present) ?_
        rintro size log kept ⟨holds, positive, within⟩
        have behind : settled.map Prod.fst = whole.take settled.length := by
          rw [← split, List.take_left' (List.length_map _)]
        have ahead : remaining = whole.drop settled.length := by
          rw [← split, List.drop_left' (List.length_map _)]
        have early : forall verdict, verdict ∈ settled -> verdict.place < settled.length := by
          intro verdict member
          rcases List.mem_iff_getElem?.mp member with ⟨index, found⟩
          have row : (settled.map Prod.fst)[index]? = Option.some verdict.1 := by
            rw [List.getElem?_map, found]
            rfl
          rw [behind] at row
          have place : verdict.place = 0 + index := placed.take _ index verdict.1 row
          have bound := (List.getElem?_eq_some_iff.mp found).1
          omega
        have next : Placed settled.length (remaining.take size) := by
          rw [ahead]
          refine Placed.take ?_ size
          have dropped := placed.drop settled.length
          rw [Nat.zero_add] at dropped
          exact dropped
        refine Triple.bind _ (run.counts_writeSlice dlq early next) ?_ log kept holds
        rintro counted after still ⟨outcomes, length, done⟩
        have further : (settled ++ verdicts (remaining.take size) outcomes).map Prod.fst ++
            remaining.drop size = whole := by
          rw [List.map_append, verdicts_rows length, List.append_assoc, List.take_append_drop, split]
        have advanced : settled.length + size =
            (settled ++ verdicts (remaining.take size) outcomes).length := by
          rw [List.length_append, length_verdicts length, List.length_take,
            Nat.min_eq_left within]
        rw [advanced]
        refine ih (remaining.drop size) ?_ _ further counted after still done
        rw [List.length_drop]
        omega

theorem counts_admitRows (rows : List GovernedRow) :
    Counts allows wanted pre (run.admitRows page rows) (fun _ => pre) (fun _ => True) := by
  unfold admitRows
  split
  · exact (counts_call_same (fun _ _ => rfl)).mayFail
  · exact Triple.skip

/-! The rest of a page asks nothing about rows. -/

theorem counts_retrying_same {body : Nat -> Engine Result}
    (once : forall attempt, Counts allows wanted pre (body attempt) (fun _ => pre) pre) :
    Counts allows wanted pre (run.retrying body) (fun _ => pre) pre :=
  triple_withRetry (rowAnswers_idle allows).sleep _ _ once (fun _ holds => holds)

theorem counts_gateDlq (envelopes : List Envelope) :
    Counts allows wanted pre (gateDlq page envelopes) (fun _ => pre) pre := by
  refine Triple.bind _ (counts_call_same (fun _ _ => rfl)) ?_
  intro report
  split
  · exact Triple.raise (fun _ holds => holds)
  · exact Triple.skip

theorem counts_routeEnvelopes (dlq : DlqConfig) (envelopes : List Envelope) (stats : DlqStats) :
    Counts allows wanted pre (run.routeEnvelopes dlq page envelopes stats) (fun _ => pre) pre := by
  unfold routeEnvelopes
  split
  · exact Triple.skip
  · refine Triple.bind (fun _ => pre) ?_ (fun _ => Triple.skip)
    unfold writeEnvelopes
    apply Triple.mapFailure
    split
    · exact run.counts_retrying_same (fun _ => counts_gateDlq envelopes)
    · exact counts_gateDlq envelopes

theorem counts_flushDlq :
    Counts allows wanted pre (flushDlq run.retryPolicy run.options.cancel) (fun _ => pre) pre :=
  (run.counts_retrying_same (fun _ => counts_call_same (fun _ _ => rfl))).mapFailure

theorem counts_persist (value : Value) :
    Counts allows wanted pre (run.persist page value) (fun _ => pre) pre := by
  unfold persist
  split
  · exact run.counts_retrying_same (fun _ => counts_call_same (fun _ _ => rfl))
  · exact Triple.skip

theorem counts_checkpointWithDlq (bookmark : Option Value) :
    Counts allows wanted pre (run.checkpointWithDlq page bookmark) (fun _ => pre) pre := by
  cases bookmark with
  | none => exact Triple.skip
  | some bookmark =>
      have flushes : Counts allows wanted pre flush (fun _ => pre) pre := counts_call_same (fun _ _ => rfl)
      by_cases overwrite : run.sink.isOverwrite = true
      · simp only [checkpointWithDlq, overwrite, if_true]
        exact run.counts_flushDlq
      · simp only [checkpointWithDlq, overwrite]
        refine Triple.bind _ (run.counts_retrying_same (fun _ => flushes)) ?_
        intro _
        refine Triple.bind _ run.counts_flushDlq ?_
        intro _
        exact run.counts_persist bookmark

/-- The account a page ends with. -/
def closedAccount (account : PageAccount) (counted : SliceState) : PageAccount :=
  { account with
    accepted := account.accepted + counted.pageSuccess
    failed := account.failed + counted.failed
    dropped := account.dropped + counted.dropped }

theorem counts_settle (account : PageAccount)
    (closes : forall log, pre log -> wanted { log with account := some account } account) :
    Counts allows wanted pre (settle account) (fun _ log => log.account.isSome = true)
      (fun log => log.account.isSome = true) := by
  apply Triple.ask
  rintro log answer after kept holds ⟨_, answered⟩
  have next : after = { log with account := some account } := answered
  have folded : Kept wanted { log with account := some account } := by
    intro other same
    cases same
    exact closes log holds
  rw [next]
  refine ⟨folded, fun _ => ?_⟩
  split
  · exact ⟨folded, rfl⟩
  · exact ⟨folded, rfl⟩

/-- The whole page, given that the account its rows lead to is as wanted. -/
theorem counts_dlqPage (dlq : DlqConfig) (records : List Value) (quarantined : List Envelope)
    (bookmark : Option Value) (account : PageAccount) (state : LoopState)
    (closes : forall (counted : SliceState) (all : List Verdict) (log : RowLog),
      all.map Prod.fst = governedRows records -> Settled run all counted log ->
        wanted { log with account := some (closedAccount account counted) } (closedAccount account counted)) :
    Counts allows wanted (Settled run [] ⟨[], 0, 0, 0⟩)
      (run.dlqPage dlq page records quarantined bookmark account state)
      (fun _ log => log.account.isSome = true) (fun _ => True) := by
  refine Triple.bind _ (run.counts_admitRows _) ?_
  intro _
  refine Triple.bind _ (run.counts_slices dlq (placed_governedRows records) (governedRows records).length
    (governedRows records)
    (Nat.le_refl _) [] rfl ⟨[], 0, 0, 0⟩) ?_
  intro counted
  refine Triple.bind _ ((run.counts_routeEnvelopes dlq _ _).mayFail) ?_
  intro stats
  refine Triple.bind _ ((counts_settle (closedAccount account counted) ?_).mayFail) ?_
  · rintro log ⟨all, rows, holds⟩
    exact closes counted all log rows holds
  · intro _
    refine Triple.bind _ ((run.counts_checkpointWithDlq bookmark).mayFail) ?_
    intro _
    dsimp only
    split
    · exact Triple.fails
    · exact Triple.fails
    · exact Triple.skip

end Run
end Counting

/-! ## Conservation -/

/-- The rows of a page are conserved: every survivor has a last outcome; the
accepted ones are counted; each refused one has exactly one envelope, with its
record and position, or is counted as dropped; and the account adds up. -/
structure Conserved (run : Run) (survivors : List (Value × Nat)) (log : RowLog) (account : PageAccount)
    (outcomes : List Bool) : Prop where
  last : (List.range survivors.length).map log.last = outcomes.map some
  accepted : account.accepted = outcomes.countP id
  enveloped : log.pushed.map Envelope.placed =
    if run.poisonAction = .dlq then ((survivors.zip outcomes).filter (fun entry => !entry.2)).map Prod.fst
    else []
  failed : account.failed = log.pushed.length
  dropped : account.dropped = if run.poisonAction = .drop then outcomes.countP not else 0
  balanced : account.offered = account.accepted + account.failed + account.quarantined + account.dropped

/-- A page, what governance made of it, and the position in the page of each
survivor. -/
structure GovernedPage where
  page : List Value
  outcome : GovernanceOutcome
  positions : List Nat
  ordered : positions.Pairwise (· < ·)
  whole : (positions ++ outcome.envelopes.map Envelope.recordIndex).Perm (List.range page.length)
  aligned : outcome.records.length = positions.length

namespace GovernedPage

variable (governed : GovernedPage)

/-- The survivors with their positions. -/
def survivors : List (Value × Nat) := governed.outcome.records.zip governed.positions

/-- The account a page starts with. -/
def account : PageAccount :=
  { PageAccount.new governed.page.length with quarantined := governed.outcome.envelopes.length }

/-- No row is quarantined in front of a survivor. -/
def Undisturbed : Prop :=
  forall envelope, envelope ∈ governed.outcome.envelopes ->
    forall position, position ∈ governed.positions -> position < envelope.recordIndex

theorem length_page : governed.page.length = governed.outcome.records.length +
    governed.outcome.envelopes.length := by
  have lengths := governed.whole.length_eq
  rw [List.length_append, List.length_map, List.length_range] at lengths
  rw [governed.aligned, lengths]

theorem length_survivors : governed.survivors.length = governed.outcome.records.length := by
  rw [survivors, List.length_zip, ← governed.aligned, Nat.min_self]

/-- Nothing was quarantined in front of a survivor exactly when the survivors
are the first rows of the page. -/
theorem undisturbed_iff : governed.Undisturbed <->
    governed.positions = List.range governed.positions.length := by
  have distinct := governed.whole.nodup_iff.mpr List.nodup_range
  constructor
  · intro undisturbed
    -- The quarantined positions, sorted, complete the survivors' to the whole range.
    let indices := governed.outcome.envelopes.map Envelope.recordIndex
    have sorted : (indices.mergeSort (· ≤ ·)).Pairwise (· ≤ ·) := List.pairwise_mergeSort' (· ≤ ·) indices
    have reordered := List.mergeSort_perm indices (· ≤ ·)
    have perm := (reordered.append_left governed.positions).trans governed.whole
    have ascending : (governed.positions ++ indices.mergeSort (· ≤ ·)).Pairwise (· ≤ ·) := by
      refine List.pairwise_append.mpr ⟨governed.ordered.imp Nat.le_of_lt, sorted, ?_⟩
      intro position member index listed
      rcases List.mem_map.mp (reordered.mem_iff.mp listed) with ⟨envelope, enveloped, rfl⟩
      exact Nat.le_of_lt (undisturbed envelope enveloped position member)
    have whole : governed.positions ++ indices.mergeSort (· ≤ ·) = List.range governed.page.length :=
      perm.eq_of_pairwise (fun _ _ _ _ => Nat.le_antisymm) ascending (List.pairwise_lt_range.imp Nat.le_of_lt)
    have taken := congrArg (List.take governed.positions.length) whole
    rw [List.take_left, List.take_range] at taken
    have bound := congrArg List.length taken
    rw [List.length_range] at bound
    rw [← bound] at taken
    exact taken
  · intro initial envelope enveloped position member
    have outside : envelope.recordIndex ∉ governed.positions := fun inside =>
      (List.nodup_append.mp distinct).2.2 _ inside _ (List.mem_map_of_mem enveloped) rfl
    rw [initial, List.mem_range] at outside member
    omega

theorem survivors_of_initial (initial : governed.positions = List.range governed.positions.length) :
    governed.survivors = governed.outcome.records.zipIdx := by
  rw [survivors, initial, List.zipIdx_eq_zip_range', ← governed.aligned, List.range_eq_range']

end GovernedPage

/-! ### By place in the governed page -/

theorem governedRows_survivor (records : List Value) :
    (governedRows records).map (fun row => (row.record, row.place)) = records.zipIdx := by
  rw [governedRows, List.map_map]
  exact List.map_id _

/-- The refused rows, read off the records and the outcomes. -/
theorem refused_eq (verdicts : List Verdict) (records : List Value)
    (rows : verdicts.map Prod.fst = governedRows records) :
    refused verdicts =
      ((records.zipIdx.zip (verdicts.map Prod.snd)).filter (fun entry => !entry.2)).map Prod.fst := by
  have pairs : records.zipIdx.zip (verdicts.map Prod.snd) =
      verdicts.map (fun verdict => ((verdict.1.record, verdict.1.place), verdict.2)) := by
    rw [← governedRows_survivor, ← rows, List.map_map, List.zip_map']
    rfl
  rw [pairs, List.filter_map, List.map_map]
  rfl

theorem length_refused (verdicts : List Verdict) :
    (refused verdicts).length = (verdicts.map Prod.snd).countP not := by
  rw [refused, List.length_map, ← List.countP_eq_length_filter, List.countP_map]
  rfl

theorem countP_not (outcomes : List Bool) : outcomes.countP id + outcomes.countP not = outcomes.length := by
  have total := List.length_eq_countP_add_countP (fun outcome : Bool => outcome) (l := outcomes)
  rw [total]
  congr 1
  refine List.countP_congr (fun outcome _ => ?_)
  cases outcome with
  | true => simp
  | false => simp

/-- Whatever the sink answers, the rows of a page are conserved under their
places in the governed page. -/
theorem Settled.conserved {run : Run} {verdicts : List Verdict} {counted : Run.SliceState} {log : RowLog}
    (governed : GovernedPage) (rows : verdicts.map Prod.fst = governedRows governed.outcome.records)
    (holds : Settled run verdicts counted log) :
    Conserved run governed.outcome.records.zipIdx
      { log with account := some (Run.closedAccount governed.account counted) }
      (Run.closedAccount governed.account counted) (verdicts.map Prod.snd) := by
  have count : verdicts.length = governed.outcome.records.length := by
    rw [← List.length_map Prod.fst, rows, governedRows, List.length_map, List.length_zipIdx]
  have success : counted.pageSuccess = (verdicts.map Prod.snd).countP id := by
    rw [holds.success, List.countP_map]
    rfl
  have enveloped := holds.enveloped
  have dropped := holds.dropped
  rw [length_refused] at dropped
  have failed : counted.failed = if run.poisonAction = .dlq then (verdicts.map Prod.snd).countP not else 0 := by
    rw [holds.failed, ← List.length_map Envelope.placed, enveloped]
    split
    · exact length_refused verdicts
    · rfl
  refine ⟨?_, ?_, ?_, ?_, ?_, ?_⟩
  · rw [List.length_zipIdx, List.map_map]
    apply List.ext_getElem
    · rw [List.length_map, List.length_map, List.length_range, count]
    · intro index bound _
      rw [List.length_map, List.length_range, ← count] at bound
      have placed : verdicts[index].place = index := by
        have row : (verdicts.map Prod.fst)[index]? = some verdicts[index].1 := by
          rw [List.getElem?_map, List.getElem?_eq_getElem bound]
          rfl
        rw [rows] at row
        exact (placed_governedRows _ index _ row).trans (Nat.zero_add index)
      have told := holds.told verdicts[index] (List.getElem_mem bound)
      rw [placed] at told
      rw [List.getElem_map, List.getElem_map, List.getElem_range]
      exact told
  · exact (Nat.zero_add _).trans success
  · rw [← refused_eq verdicts _ rows, ← enveloped, ← holds.pushed]
  · exact (Nat.zero_add _).trans (holds.failed.trans (congrArg List.length holds.pushed.symm))
  · exact (Nat.zero_add _).trans dropped
  · have total := countP_not (verdicts.map Prod.snd)
    rw [List.length_map, count] at total
    have size := governed.length_page
    have spared := holds.spared
    simp only [Run.closedAccount, GovernedPage.account, PageAccount.new, success, failed, dropped]
    cases action : run.poisonAction with
    | dlq =>
        simp only [if_true, reduceCtorEq, if_false]
        omega
    | drop =>
        simp only [if_true, reduceCtorEq, if_false]
        omega
    | fail =>
        have none := congrArg List.length (spared action)
        rw [length_refused, List.length_nil] at none
        simp only [reduceCtorEq, if_false]
        omega

/-! ### A sink that refuses every row -/

/-- Every row is refused for good; everything else succeeds. -/
def refusal : (op : Op) -> op.Answer
  | .isCancelled => false
  | .sleep _ => true
  | .applyGovernance _ records => .ok ⟨records, [], none⟩
  | .admitPage _ _ => .ok ()
  | .batchSize => (1 : Nat)
  | .writeGoverned _ rows => .ok (.ofAccepted rows.length)
  | .writeBatchPartial _ rows => .ok (List.replicate rows.length (.error (.config "refused")))
  | .writeBatchIdempotent _ rows _ _ => .ok (.ofAccepted rows.length)
  | .lastCommittedToken _ => .ok none
  | .encodeBatch _ _ => .ok ()
  | .writeBatchColumnar _ records => .ok records.length
  | .loadNative _ _ => .ok 0
  | .flush => .ok ()
  | .pushFailure _ _ => ()
  | .writeDlq _ envelopes => .ok (.ofAccepted envelopes.length)
  | .flushDlq => .ok ()
  | .foldAccount _ => ()
  | .putState _ _ _ => .ok ()
  | .getState _ => .ok none
  | .applyStartBookmark _ => .ok ()
  | .streamPages => []
  | .streamNative => []
  | .beginOverwrite => .ok ()
  | .commitOverwrite => .ok ()
  | .abortOverwrite => .ok ()

/-- No row was ever accepted. -/
def NoneAccepted (log : RowLog) : Prop := forall place, log.last place ≠ some true

theorem NoneAccepted.tell {log : RowLog} (holds : NoneAccepted log) (rows : List GovernedRow) :
    NoneAccepted (log.tell (rows.map (fun row => (row, false)))) := by
  induction rows generalizing log with
  | nil => exact holds
  | cons row rest ih =>
      have still : NoneAccepted (log.tell [(row, false)]) := by
        intro place
        by_cases same : place = row.place
        · rw [same]
          intro accepted
          have refused : (log.tell [(row, false)]).last row.place = some false := Function.update_self _ _ _
          rw [refused] at accepted
          cases accepted
        · rw [log.tell_last_of_notMem _ _ (fun listed => same (List.mem_singleton.mp listed))]
          exact holds place
      exact ih still

section Refusing

variable {Result : Type} {post : Result -> RowLog -> Prop}

/-- A piece that does not fail while every row is refused. -/
abbrev Refuses (pre : RowLog -> Prop) (program : Engine Result) (post : Result -> RowLog -> Prop) : Prop :=
  Counts (fun op answer => answer = refusal op) (fun _ _ => True) pre program post (fun _ => False)

namespace Run

variable (run : Run) {page : Nat}

theorem refuses_writeChunk (dlq : DlqConfig) (chunk : List GovernedRow) :
    Refuses NoneAccepted (run.writeChunk dlq page chunk)
      (fun written log => NoneAccepted log ∧
        written.1 = List.replicate chunk.length (.error (.config "refused"))) := by
  have write : Refuses NoneAccepted (call (.writeBatchPartial page chunk) id)
      (fun outcomes log => NoneAccepted log ∧
        outcomes = List.replicate chunk.length (.error (.config "refused"))) := by
    apply triple_call
    rintro log answer after kept holds ⟨allowed, answered⟩
    rw [allowed] at answered ⊢
    have next : after = log.tell (verdicts chunk (List.replicate chunk.length (.error (.config "refused")))) :=
      answered
    rw [verdicts_replicate] at next
    rw [next]
    exact ⟨fun _ _ => trivial, holds.tell chunk, rfl⟩
  unfold writeChunk
  refine Triple.bind _ ((run.counts_retryingWrite write (fun _ impossible => impossible.elim)).attempt
    (fun _ _ ended => ended)) ?_
  rintro answer log kept ends
  cases answer with
  | error error => exact ends.elim
  | ok outcomes =>
      have whole : outcomes.length = chunk.length := by
        rw [ends.2, List.length_replicate]
      simp only [whole, ne_eq, not_true_eq_false, if_false]
      exact ⟨kept, ends⟩

/-- An error of no class is not retried, so the outcomes stay as they are. -/
theorem failingRows_replicate (policy : Option RetryPolicy) (count : Nat) :
    failingRows policy (List.replicate count (.error (.config "refused"))) = [] := by
  apply List.filterMap_eq_nil_iff.mpr
  intro entry member
  have outcome : entry.1 = .error (.config "refused") :=
    (List.mem_replicate.mp (List.fst_mem_of_mem_zipIdx member)).2
  rw [outcome]
  have never : policy.any (fun policy => policy.isRetriable (.config "refused")) = false := by
    cases policy with
    | none => rfl
    | some policy => rfl
  simp only [never, Bool.false_eq_true, if_false]

theorem poisonRetries_of_none (chunk : List GovernedRow) (left : Nat) (outcomes : List RowOutcome)
    (none : failingRows run.retryPolicy outcomes = []) :
    run.poisonRetries page chunk left outcomes = pure outcomes := by
  cases left with
  | zero => rfl
  | succ left =>
      unfold poisonRetries
      simp only [none, List.isEmpty_nil, if_true]

theorem refuses_resubmit (chunk : List GovernedRow) (written : List RowOutcome × Bool) :
    Refuses (fun log => NoneAccepted log ∧
        written.1 = List.replicate chunk.length (.error (.config "refused")))
      (run.resubmit page chunk written) (fun _ => NoneAccepted) := by
  rintro log kept ⟨holds, refused⟩
  unfold resubmit
  split
  · rw [refused, run.poisonRetries_of_none chunk _ _ (failingRows_replicate _ _)]
    exact ⟨kept, holds⟩
  · exact ⟨kept, holds⟩

theorem refuses_settleRows (action : run.poisonAction = .dlq) (synthesized : Bool) (offset : Nat)
    (entries : List (GovernedRow × RowOutcome)) (j : Nat) (state : SliceState) :
    Refuses NoneAccepted (run.settleRows page synthesized offset entries j state) (fun _ => NoneAccepted) := by
  have enveloped : (run.poison.map PoisonPolicy.action).getD .dlq = .dlq := action
  induction entries generalizing j state with
  | nil => exact Triple.skip
  | cons entry rest ih =>
      rcases entry with ⟨row, outcome⟩
      cases outcome with
      | ok value => exact ih (j + 1) _
      | error error =>
          unfold settleRows
          rw [enveloped]
          apply Triple.ask
          rintro log answer after kept holds ⟨_, answered⟩
          have next : after = { log with pushed := log.pushed ++ [_] } := answered
          rw [next]
          exact ⟨fun _ _ => trivial, fun still => ih (j + 1) _ _ still holds⟩

theorem refuses_slices (action : run.poisonAction = .dlq) (dlq : DlqConfig) (rounds : Nat)
    (remaining : List GovernedRow) (offset : Nat) (state : SliceState) :
    Refuses NoneAccepted (run.slices dlq page rounds remaining offset state) (fun _ => NoneAccepted) := by
  induction rounds generalizing remaining offset state with
  | zero => exact Triple.skip
  | succ rounds ih =>
      unfold slices
      split
      · exact Triple.skip
      · refine Triple.bind (fun _ => NoneAccepted) ?_ (fun size => ?_)
        · unfold sliceSize
          split
          · apply Triple.ask
            rintro log answer after kept holds ⟨_, answered⟩
            have same : after = log := answered
            rw [same]
            exact ⟨kept, fun _ => ⟨kept, holds⟩⟩
          · exact Triple.skip
        · refine Triple.bind (fun _ => NoneAccepted) ?_ (fun counted => ih _ _ counted)
          refine Triple.bind _ (run.refuses_writeChunk dlq _) ?_
          intro written
          refine Triple.bind _ (run.refuses_resubmit _ written) ?_
          intro outcomes
          exact run.refuses_settleRows action written.2 offset _ 0 state

theorem refuses_routeEnvelopes (dlq : DlqConfig) (envelopes : List Envelope) (stats : DlqStats) :
    Refuses NoneAccepted (run.routeEnvelopes dlq page envelopes stats) (fun _ => NoneAccepted) := by
  have gate : Refuses NoneAccepted (gateDlq page envelopes) (fun _ => NoneAccepted) := by
    rintro log kept holds
    refine ⟨kept, ?_⟩
    rintro answer after ⟨allowed, answered⟩
    have same : after = log := answered
    rw [allowed, same]
    have landed : ¬ (envelopes.length + 0 < envelopes.length) := by omega
    change Safe _ _ _ (if envelopes.length + 0 < envelopes.length then _ else _) _
    rw [if_neg landed]
    exact ⟨kept, holds⟩
  unfold routeEnvelopes
  split
  · exact Triple.skip
  · refine Triple.bind (fun _ => NoneAccepted) ?_ (fun _ => Triple.skip)
    unfold writeEnvelopes
    apply Triple.mapFailure
    split
    · exact triple_withRetry (rowAnswers_idle _).sleep _ _ (fun _ => gate) (fun _ impossible => impossible.elim)
    · exact gate

/-- With every row refused the page still gets to its account. -/
theorem refuses_dlqPage (action : run.poisonAction = .dlq) (dlq : DlqConfig) (records : List Value)
    (quarantined : List Envelope) (bookmark : Option Value) (account : PageAccount) (state : LoopState) :
    Counts (fun op answer => answer = refusal op) (fun _ _ => True) NoneAccepted
      (run.dlqPage dlq page records quarantined bookmark account state)
      (fun _ log => NoneAccepted log ∧ log.account.isSome = true)
      (fun log => NoneAccepted log ∧ log.account.isSome = true) := by
  have lift : forall {Result : Type} {program : Engine Result} {post : Result -> RowLog -> Prop},
      Refuses NoneAccepted program post -> Counts _ _ NoneAccepted program post
        (fun log => NoneAccepted log ∧ log.account.isSome = true) :=
    fun refuses => refuses.consequence (fun _ holds => holds) (fun _ _ ends => ends)
      (fun _ impossible => impossible.elim)
  refine Triple.bind (fun _ => NoneAccepted) (lift ?_) ?_
  · unfold admitRows
    split
    · apply triple_call
      rintro log answer after kept holds ⟨allowed, answered⟩
      have same : after = log := answered
      rw [allowed, same]
      exact ⟨kept, holds⟩
    · exact Triple.skip
  · intro _
    refine Triple.bind _ (lift (run.refuses_slices action dlq _ _ 0 _)) ?_
    intro counted
    refine Triple.bind _ (lift (run.refuses_routeEnvelopes dlq _ _)) ?_
    intro stats
    refine Triple.bind (fun _ log => NoneAccepted log ∧ log.account.isSome = true) ?_ ?_
    · apply Triple.ask
      rintro log answer after kept holds ⟨_, answered⟩
      have next : after = { log with account := some _ } := answered
      rw [next]
      refine ⟨fun _ _ => trivial, fun still => ?_⟩
      split
      · exact ⟨still, holds, rfl⟩
      · exact ⟨still, holds, rfl⟩
    · intro _
      refine Triple.bind _ (run.counts_checkpointWithDlq bookmark) ?_
      intro _
      dsimp only
      split
      · exact Triple.raise (fun _ holds => holds)
      · exact Triple.raise (fun _ holds => holds)
      · exact Triple.skip

end Run
end Refusing

/-! ### By position in the page -/

namespace Conserved

variable {run : Run} {log : RowLog} {account : PageAccount} {outcomes : List Bool}
  {survivors : List (Value × Nat)}

theorem length_outcomes (holds : Conserved run survivors log account outcomes) :
    outcomes.length = survivors.length := by
  have lengths := congrArg List.length holds.last
  rw [List.length_map, List.length_map, List.length_range] at lengths
  exact lengths.symm

/-- When no row was accepted, the envelopes are the survivors. -/
theorem enveloped_all (holds : Conserved run survivors log account outcomes) (none : NoneAccepted log)
    (action : run.poisonAction = .dlq) : log.pushed.map Envelope.placed = survivors := by
  have refused : forall outcome, outcome ∈ outcomes -> outcome = false := by
    intro outcome member
    have listed : some outcome ∈ (List.range survivors.length).map log.last := by
      rw [holds.last]
      exact List.mem_map_of_mem member
    rcases List.mem_map.mp listed with ⟨place, _, last⟩
    cases outcome with
    | true => exact absurd last (none place)
    | false => rfl
  have enveloped := holds.enveloped
  rw [if_pos action, List.filter_eq_self.mpr] at enveloped
  · rw [enveloped, List.map_fst_zip (Nat.le_of_eq holds.length_outcomes.symm)]
  · intro entry member
    rw [refused entry.2 (List.of_mem_zip member).2]
    rfl

end Conserved

/-- At every point of every run of a page, an account that was folded conserves
the rows of the page; and a page that ends has folded its account. -/
def Conserves (run : Run) (dlq : DlqConfig) (page : Nat) (governed : GovernedPage) (bookmark : Option Value)
    (state : LoopState) : Prop :=
  forall later log,
    Reaches (rowAnswers (fun _ _ => True))
      (run.dlqPage dlq page governed.outcome.records governed.outcome.envelopes bookmark governed.account state)
      RowLog.empty later log ->
    ((exists final, later = .done (.ok final)) -> log.account.isSome = true) ∧
      forall account, log.account = some account ->
        exists outcomes, Conserved run governed.survivors log account outcomes

theorem settled_empty (run : Run) : Settled run [] ⟨[], 0, 0, 0⟩ RowLog.empty where
  told := nofun
  pushed := rfl
  unfolded := rfl
  success := rfl
  enveloped := by
    split
    · rfl
    · rfl
  failed := rfl
  dropped := by
    split
    · rfl
    · rfl
  spared := fun _ => rfl

/-- Under the survivors' places the rows of a page are always conserved. -/
theorem reaches_conserved (run : Run) (dlq : DlqConfig) (page : Nat) (governed : GovernedPage)
    (bookmark : Option Value) (state : LoopState) (later : Engine LoopState) (log : RowLog)
    (reached : Reaches (rowAnswers (fun _ _ => True))
      (run.dlqPage dlq page governed.outcome.records governed.outcome.envelopes bookmark governed.account state)
      RowLog.empty later log) :
    ((exists final, later = .done (.ok final)) -> log.account.isSome = true) ∧
      forall account, log.account = some account ->
        exists outcomes, Conserved run governed.outcome.records.zipIdx log account outcomes := by
  have counts : Counts (fun _ _ => True)
      (fun log account => exists outcomes, Conserved run governed.outcome.records.zipIdx log account outcomes)
      (Settled run [] ⟨[], 0, 0, 0⟩)
      (run.dlqPage dlq page governed.outcome.records governed.outcome.envelopes bookmark governed.account state)
      (fun _ log => log.account.isSome = true) (fun _ => True) :=
    run.counts_dlqPage dlq _ _ bookmark governed.account state
      (fun _ all _ rows holds => ⟨all.map Prod.snd, holds.conserved governed rows⟩)
  have safe := (counts RowLog.empty (kept_of_unfolded rfl) (settled_empty run)).reaches reached
  refine ⟨?_, safe.holds⟩
  rintro ⟨final, ended⟩
  rw [ended] at safe
  exact safe.2

/-- A run in which the sink refuses every row gets to its account. -/
theorem exists_refused_run (run : Run) (action : run.poisonAction = .dlq) (dlq : DlqConfig) (page : Nat)
    (governed : GovernedPage) (bookmark : Option Value) (state : LoopState) :
    exists later log account,
      Reaches (rowAnswers (fun _ _ => True))
        (run.dlqPage dlq page governed.outcome.records governed.outcome.envelopes bookmark governed.account state)
        RowLog.empty later log ∧ NoneAccepted log ∧ log.account = some account := by
  let program := run.dlqPage dlq page governed.outcome.records governed.outcome.envelopes bookmark
    governed.account state
  let oracle := fun (op : Op) (log : RowLog) => (refusal op, log.after op (refusal op))
  have refuses : Counts _ _ NoneAccepted program _ _ := run.refuses_dlqPage action dlq _ _ bookmark _ state
  have refused := (refuses RowLog.empty (fun _ _ => trivial) (fun _ => nofun)).reaches
    (reaches_execute oracle (fun _ _ => ⟨rfl, rfl⟩) program RowLog.empty)
  have possible : Reaches (rowAnswers (fun _ _ => True)) program RowLog.empty
      (.done (execute oracle program RowLog.empty).1) (execute oracle program RowLog.empty).2 :=
    reaches_execute oracle (fun _ _ => ⟨trivial, rfl⟩) program RowLog.empty
  have ends : NoneAccepted (execute oracle program RowLog.empty).2 ∧
      (execute oracle program RowLog.empty).2.account.isSome = true := by
    have ended := refused.2
    cases result : (execute oracle program RowLog.empty).1 with
    | ok value =>
        rw [result] at ended
        exact ended
    | error error =>
        rw [result] at ended
        exact ended
  rcases Option.isSome_iff_exists.mp ends.2 with ⟨account, folded⟩
  exact ⟨_, _, account, possible, ends.1, folded⟩

/-- A run that refuses every row tells places and positions apart. -/
theorem undisturbed_of_conserves (run : Run) (action : run.poisonAction = .dlq) (dlq : DlqConfig) (page : Nat)
    (governed : GovernedPage) (bookmark : Option Value) (state : LoopState)
    (conserves : Conserves run dlq page governed bookmark state) : governed.Undisturbed := by
  rcases exists_refused_run run action dlq page governed bookmark state with
    ⟨later, log, account, reached, none, folded⟩
  rcases (conserves later log reached).2 account folded with ⟨outcomes, byPosition⟩
  rcases (reaches_conserved run dlq page governed bookmark state later log reached).2 account folded with
    ⟨others, byPlace⟩
  have equal := (byPosition.enveloped_all none action).symm.trans (byPlace.enveloped_all none action)
  have positions := congrArg (List.map Prod.snd) equal
  rw [GovernedPage.survivors, List.map_snd_zip (Nat.le_of_eq governed.aligned.symm), List.zipIdx_map_snd,
    governed.aligned, ← List.range_eq_range'] at positions
  exact governed.undisturbed_iff.mpr positions

def sampleOutcome : GovernanceOutcome :=
  match applyGovernance sampleSpecs sampleState sampleSink samplePage with
  | .ok (outcome, _) => outcome
  | .error _ => ⟨[], [], none⟩

def sampleGoverned : GovernedPage where
  page := samplePage
  outcome := sampleOutcome
  positions := [0, 4]
  ordered := by decide
  whole := by decide +kernel
  aligned := by decide +kernel

end Pipeline
end FaucetStream
