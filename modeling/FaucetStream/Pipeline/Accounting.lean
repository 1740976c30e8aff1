import FaucetStream.Pipeline.Stream

namespace FaucetStream
namespace Pipeline

open Json
open Library
open Governance
open Engine

/-!
# Rows of a plain page

A page without a dead-letter queue is written in slices, and the sink reports on
each.  The page is judged by the sum of the reports: a report about more rows
than its slice has hides that another slice lost some.
-/

namespace WriteReport

/-- The rows the report accounts for. -/
def accounted (report : WriteReport) : Nat := report.accepted + report.coalesced + report.skipped

def check (report : WriteReport) (offered : Nat) : Except FaucetError Unit :=
  if offered ≤ report.accounted then .ok () else .error (.rowsUnaccounted offered report.accepted)

end WriteReport

theorem accounted_addReport (account : PageAccount) (report : WriteReport) :
    (account.addReport report).accounted = account.accounted + report.accounted := by
  unfold PageAccount.addReport PageAccount.accounted WriteReport.accounted
  dsimp only
  omega

/-- The slices written with their reports, and the bookmarks stored. -/
structure WriteLog where
  writes : List (List GovernedRow × WriteReport)
  stored : List Value
  deriving DecidableEq

namespace WriteLog

def empty : WriteLog := ⟨[], []⟩

/-- The log after an answer. -/
def after (log : WriteLog) : (op : Op) -> op.Answer -> WriteLog
  | .writeGoverned _ rows, .ok report => { log with writes := log.writes ++ [(rows, report)] }
  | .putState _ _ value, .ok () => { log with stored := log.stored ++ [value] }
  | _, _ => log

/-- The rows all reports account for. -/
def total (log : WriteLog) : Nat := (log.writes.map (fun write => write.2.accounted)).sum

/-- A report accounts for fewer rows than its slice held. -/
def Short (log : WriteLog) : Prop := exists write, write ∈ log.writes ∧ write.2.check write.1.length ≠ .ok ()

end WriteLog

/-- Not the error of lost rows. -/
def OtherError (error : FaucetError) : Prop := forall offered accepted, error ≠ .rowsUnaccounted offered accepted

/-- A sink that admits the page and answers every write with a report; it may
fail to flush, and the store to store. -/
def Reports : (op : Op) -> op.Answer -> Prop
  | .writeGoverned _ _, answer => exists report, answer = .ok report
  | .admitPage _ _, answer => answer = .ok ()
  | .flush, answer => forall error, answer = .error error -> OtherError error
  | .putState _ _ _, answer => forall error, answer = .error error -> OtherError error
  | _, _ => True

def reportAnswers : Environment Op.Answer WriteLog :=
  fun op before answer after => Reports op answer ∧ after = before.after op answer

theorem reportAnswers_idle : Idle reportAnswers where
  sleep := fun answered => answered.2
  isCancelled := fun answered => answered.2
  batchSize := fun answered => answered.2

namespace Run

variable (run : Run) {page : Nat}

/-- What is known between two slices. -/
structure Counted (offered start : Nat) (account : PageAccount) (log : WriteLog) : Prop where
  offered : account.offered = offered
  counted : account.accounted = start + log.total
  unstored : log.stored = []

variable {offered start : Nat}

theorem counted_writeReported (rows : List GovernedRow) (account : PageAccount) :
    Triple reportAnswers (fun _ => True) (Counted offered start account) (run.writeReported page rows account)
      (fun result => Counted offered start result.1) (fun _ => False) := by
  have once : Triple reportAnswers (fun _ => True) (Counted offered start account)
      (call (.writeGoverned page rows) id)
      (fun report => Counted offered start (account.addReport report)) (fun _ => False) := by
    apply triple_call
    rintro log answer after _ counted ⟨⟨report, rfl⟩, rfl⟩
    refine ⟨trivial, counted.offered, ?_, counted.unstored⟩
    have more : (log.after (.writeGoverned page rows) (.ok report)).total = log.total + report.accounted := by
      unfold WriteLog.total WriteLog.after
      rw [List.map_append, List.sum_append, List.map_singleton, List.sum_singleton]
    rw [accounted_addReport, counted.counted, more, Nat.add_assoc]
  have retried : Triple reportAnswers (fun _ => True) (Counted offered start account)
      (run.retryingWrite (call (.writeGoverned page rows) id))
      (fun report => Counted offered start (account.addReport report)) (fun _ => False) := by
    unfold retryingWrite
    split
    · exact triple_withRetry reportAnswers_idle.sleep _ _ (fun _ => once) (fun _ => False.elim)
    · exact once
  refine Triple.bind _ retried ?_
  exact fun report => Triple.pure (fun _ counted => counted)

theorem counted_plainSlices (rounds : Nat) (remaining : List GovernedRow) (account : PageAccount) (written : Nat) :
    Triple reportAnswers (fun _ => True) (Counted offered start account)
      (run.plainSlices page rounds remaining account written)
      (fun result => Counted offered start result.1) (fun _ => False) := by
  induction rounds generalizing remaining account written with
  | zero => exact Triple.pure (fun _ counted => counted)
  | succ rounds ih =>
      unfold plainSlices
      split
      · exact Triple.pure (fun _ counted => counted)
      · refine Triple.bind (fun _ => Counted offered start account) ?_ ?_
        · unfold sliceSize
          split
          · apply Triple.ask
            rintro log answer after _ counted ⟨_, rfl⟩
            exact ⟨trivial, fun _ => ⟨trivial, counted⟩⟩
          · exact Triple.pure (fun _ counted => counted)
        · intro size
          refine Triple.bind _ (run.counted_writeReported (remaining.take size) account) ?_
          exact fun result => ih (remaining.drop size) result.1 _

theorem counted_writePlain (rows : List GovernedRow) (account : PageAccount) :
    Triple reportAnswers (fun _ => True) (Counted offered start account) (run.writePlain page rows account)
      (fun result => Counted offered start result.1) (fun _ => False) := by
  unfold writePlain
  split
  · exact Triple.pure (fun _ counted => counted)
  · split
    · refine Triple.bind (fun _ => Counted offered start account) ?_ ?_
      · unfold admitRows
        split
        · apply triple_call
          rintro log answer after _ counted ⟨rfl, rfl⟩
          exact ⟨trivial, counted⟩
        · exact Triple.pure (fun _ counted => counted)
      · exact fun _ => run.counted_plainSlices rows.length rows account 0
    · exact run.counted_writeReported rows account

/-! ## After the account is settled -/

theorem yields_retryFrom {Result : Type} (policy : RetryPolicy) (cancel : Bool) {body : Nat -> Engine Result}
    (once : forall attempt, Yields reportAnswers (fun _ => True) OtherError (body attempt)) (left attempt : Nat) :
    Yields reportAnswers (fun _ => True) OtherError (retryFrom policy cancel body left attempt) := by
  induction left generalizing attempt with
  | zero => exact once attempt
  | succ left ih =>
      have tried : Yields reportAnswers (fun result => forall error, result = .error error -> OtherError error)
          OtherError (body attempt).attempt := by
        intro world
        refine ((once attempt).attempt world).weaken (fun result _ _ ends => ?_)
        rcases result with failure | result
        · exact False.elim ends
        · rintro error rfl
          exact ends
      refine Yields.bind _ tried ?_
      intro result expected
      cases result with
      | ok value => exact Yields.pure trivial
      | error error =>
          have other := expected error rfl
          dsimp only
          split
          · refine Yields.bind (fun _ => True) ?_ ?_
            · unfold backoffWait
              split
              · exact Yields.pure trivial
              · exact Yields.ask (fun _ _ _ _ => Yields.pure trivial)
            · intro resumed _
              split
              · exact ih (attempt + 1)
              · exact Yields.raise other
          · exact Yields.raise other

theorem yields_retrying {Result : Type} {body : Nat -> Engine Result}
    (once : forall attempt, Yields reportAnswers (fun _ => True) OtherError (body attempt)) :
    Yields reportAnswers (fun _ => True) OtherError (run.retrying body) := by
  unfold retrying withRetry
  split
  · exact yields_retryFrom _ _ once _ 0
  · exact once 0

/-- An answer whose failures are not about lost rows. -/
theorem yields_call {op : Op} {read : op.Answer -> Except FaucetError Unit}
    (others : forall answer, Reports op answer -> forall error, read answer = .error error -> OtherError error) :
    Yields reportAnswers (fun _ => True) OtherError (call op read) := by
  apply Yields.ask
  rintro log answer after ⟨reported, _⟩
  cases found : read answer with
  | ok value => exact Yields.pure trivial
  | error error => exact Yields.raise (others answer reported error found)

theorem yields_flush : Yields reportAnswers (fun _ => True) OtherError flush :=
  yields_call (fun _ reported => reported)

theorem yields_putState (key : String) (value : Value) :
    Yields reportAnswers (fun _ => True) OtherError (call (.putState page key value) id) :=
  yields_call (fun _ reported => reported)

theorem yields_checkpoint (bookmark : Option Value) :
    Yields reportAnswers (fun _ => True) OtherError (run.checkpoint page bookmark) := by
  unfold checkpoint
  split
  · exact Yields.pure trivial
  · split
    · exact Yields.pure trivial
    · refine Yields.bind (fun _ => True) ?_ ?_
      · exact run.yields_retrying (fun _ => yields_flush)
      · intro _ _
        unfold persist
        split
        · exact run.yields_retrying (fun _ => yields_putState _ _)
        · exact Yields.pure trivial

/-- Nothing more is written. -/
theorem triple_checkpoint (bookmark : Option Value) (writes : List (List GovernedRow × WriteReport)) :
    Triple reportAnswers (fun _ => True) (fun log => log.writes = writes) (run.checkpoint page bookmark)
      (fun _ log => log.writes = writes) (fun log => log.writes = writes) := by
  have flushes : Triple reportAnswers (fun _ => True) (fun log => log.writes = writes) flush
      (fun _ log => log.writes = writes) (fun log => log.writes = writes) := by
    apply triple_call
    rintro log answer after _ same ⟨_, rfl⟩
    refine ⟨trivial, ?_⟩
    cases answer <;> exact same
  have stores : forall key value, Triple reportAnswers (fun _ => True) (fun log => log.writes = writes)
      (call (.putState page key value) id) (fun _ log => log.writes = writes) (fun log => log.writes = writes) := by
    intro key value
    apply triple_call
    rintro log answer after _ same ⟨_, rfl⟩
    refine ⟨trivial, ?_⟩
    cases answer <;> exact same
  unfold checkpoint
  split
  · exact Triple.pure (fun _ same => same)
  · split
    · exact Triple.pure (fun _ same => same)
    · refine Triple.bind (fun _ log => log.writes = writes) ?_ ?_
      · exact triple_withRetry reportAnswers_idle.sleep _ _ (fun _ => flushes) (fun _ same => same)
      · intro _
        unfold persist
        split
        · exact triple_withRetry reportAnswers_idle.sleep _ _ (fun _ => stores _ _) (fun _ same => same)
        · exact Triple.pure (fun _ same => same)

/-! ## The verdict on a page -/

/-- What becomes of a page of so many rows. -/
structure Judged (rows : Nat) (result : Except FaucetError LoopState) (log : WriteLog) : Prop where
  lost : log.total < rows -> (exists offered accepted, result = .error (.rowsUnaccounted offered accepted)) ∧
    log.stored = []
  kept : rows ≤ log.total -> forall offered accepted, result ≠ .error (.rowsUnaccounted offered accepted)

theorem safe_plainPage (records : List Value) (quarantined : Nat) (bookmark : Option Value) (state : LoopState) :
    Safe reportAnswers (fun _ => True) (Judged records.length)
      (run.plainPage page records bookmark
        { PageAccount.new (records.length + quarantined) with quarantined := quarantined } state) WriteLog.empty := by
  have begins : Counted (records.length + quarantined) quarantined
      { PageAccount.new (records.length + quarantined) with quarantined := quarantined } WriteLog.empty := by
    refine ⟨rfl, ?_, rfl⟩
    simp [PageAccount.accounted, PageAccount.new, WriteLog.total, WriteLog.empty]
  unfold plainPage
  refine Safe.bind ((run.counted_writePlain _ _ _ trivial begins).weaken (fun result log _ ends => ?_))
  cases result with
  | error failure => exact False.elim ends
  | ok value =>
      rcases value with ⟨account, written⟩
      have counted : Counted (records.length + quarantined) quarantined account log := ends
      have missing : account.missing = records.length - log.total := by
        unfold PageAccount.missing
        rw [counted.offered, counted.counted]
        omega
      refine Safe.bind ?_
      refine ⟨trivial, ?_⟩
      rintro _ after ⟨_, same⟩
      rw [show after = log from same]
      by_cases whole : account.missing = 0
      · rw [if_pos whole]
        refine ⟨trivial, Safe.bind ?_⟩
        have both := (@yields_checkpoint run page bookmark log).and
          (run.triple_checkpoint bookmark log.writes log trivial rfl)
        refine both.weaken (fun result last _ ends => ?_)
        have enough : records.length ≤ log.total := by
          omega
        cases result with
        | ok value =>
            have same : last.writes = log.writes := ends.2
            refine ⟨trivial, ?_, ?_⟩
            · intro short
              unfold WriteLog.total at short
              rw [same] at short
              exact absurd short (not_lt.mpr enough)
            · exact fun _ _ _ impossible => nomatch impossible
        | error error =>
            have same : last.writes = log.writes := ends.2
            have other : OtherError error := ends.1
            refine ⟨?_, ?_⟩
            · intro short
              unfold WriteLog.total at short
              rw [same] at short
              exact absurd short (not_lt.mpr enough)
            · intro _ offered accepted lost
              exact other offered accepted (Except.error.inj lost)
      · rw [if_neg whole]
        refine ⟨trivial, ?_, ?_⟩
        · exact fun _ => ⟨⟨_, _, rfl⟩, counted.unstored⟩
        · intro enough
          exact absurd (missing.trans (Nat.sub_eq_zero_of_le enough)) whole

end Run

/-! ### Two rows in two slices -/

theorem reaches_answer {Result : Type} {op : Op} {next : op.Answer -> Engine Result} {log last : WriteLog}
    {final : Engine Result} (answer : op.Answer) (reported : Reports op answer)
    (rest : Reaches reportAnswers (next answer) (log.after op answer) final last) :
    Reaches reportAnswers (.ask op next) log final last := .step ⟨reported, rfl⟩ rest

def slicedRun : Run := { sampleRun with options := { sampleRun.options with dlq := none, adaptive := some (.ok ()) } }

def slicedState : LoopState := ⟨0, none, ⟨0, 0⟩, 0, none⟩

def slicedPage : Engine LoopState :=
  slicedRun.plainPage 0 [.null, .null] (some (.bool true)) { PageAccount.new (2 + 0) with quarantined := 0 } slicedState

/-- The log of two slices with so many rows accepted of each. -/
def slicedLog (first second : Nat) (stored : List Value) : WriteLog :=
  ⟨[([⟨.null, 0⟩], .ofAccepted first), ([⟨.null, 1⟩], .ofAccepted second)], stored⟩

theorem reaches_slicedPage_lost :
    Reaches reportAnswers slicedPage WriteLog.empty (.done (.error (.rowsUnaccounted 2 1))) (slicedLog 1 0 []) := by
  refine reaches_answer (.ok ()) rfl ?_
  refine reaches_answer (1 : Nat) trivial ?_
  refine reaches_answer (.ok (.ofAccepted 1)) ⟨_, rfl⟩ ?_
  refine reaches_answer (1 : Nat) trivial ?_
  refine reaches_answer (.ok (.ofAccepted 0)) ⟨_, rfl⟩ ?_
  refine reaches_answer () trivial ?_
  exact .here _ _

end Pipeline
end FaucetStream
