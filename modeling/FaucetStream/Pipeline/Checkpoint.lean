import FaucetStream.Pipeline.FastPaths

namespace FaucetStream
namespace Pipeline

open Json
open Library
open Governance
open Engine

/-!
# The stored position never runs ahead

A row or an envelope is durable once its sink has been flushed after the write.
The ledger follows a run from the outside: the pages of the writes the main
sink has not flushed yet, the envelopes made and not yet accepted by the
dead-letter sink, those accepted and not yet flushed, and the page whose
bookmark the state store holds.  A write that failed may have written
something, and a store that failed may have stored, so both count.

The invariant says that whatever is not durable belongs to a later page than
the stored one.
-/

structure Ledger where
  /-- The pages of the writes the main sink has not flushed. -/
  sinkPending : List Nat
  /-- Envelopes with their pages, made and not accepted. -/
  owed : List (Nat × Envelope)
  /-- Envelopes with their pages, accepted and not flushed. -/
  dlqPending : List (Nat × Envelope)
  /-- The page whose bookmark is stored. -/
  held : Option Nat

namespace Ledger

def empty : Ledger := ⟨[], [], [], none⟩

/-- Envelopes of one page. -/
def tagged (page : Nat) (envelopes : List Envelope) : List (Nat × Envelope) :=
  envelopes.map (fun envelope => (page, envelope))

def wrote (ledger : Ledger) (page : Nat) : Ledger :=
  { ledger with sinkPending := page :: ledger.sinkPending }

def owe (ledger : Ledger) (page : Nat) (envelopes : List Envelope) : Ledger :=
  { ledger with owed := ledger.owed ++ tagged page envelopes }

/-- The dead-letter sink accepts envelopes; when it accepts fewer than it was
offered, all of them stay owed. -/
def deliver (ledger : Ledger) (page : Nat) (envelopes : List Envelope) (report : WriteReport) : Ledger :=
  if report.accepted + report.coalesced < envelopes.length then ledger
  else
    { ledger with
      owed := ledger.owed.diff (tagged page envelopes)
      dlqPending := ledger.dlqPending ++ tagged page envelopes }

def store (ledger : Ledger) (page : Nat) : Ledger := { ledger with held := some page }

/-- Everything of the stored page and the pages before it is durable. -/
structure Durable (ledger : Ledger) : Prop where
  sink : forall stored, ledger.held = some stored -> forall page, page ∈ ledger.sinkPending -> stored < page
  owed : forall stored, ledger.held = some stored -> forall entry, entry ∈ ledger.owed -> stored < entry.1
  dlq : forall stored, ledger.held = some stored -> forall entry, entry ∈ ledger.dlqPending -> stored < entry.1

end Ledger

/-- The surroundings of a run, with what governance may answer for a page.
Everything else is answered freely. -/
def surroundings (governs : Nat -> GovernanceOutcome -> Prop) : Environment Op.Answer Ledger
  | .applyGovernance page _, before, answer, after =>
      match answer with
      | .ok outcome => governs page outcome ∧ after = before.owe page outcome.envelopes
      | .error _ => after = before
  | .writeGoverned page _, before, _, after => after = before.wrote page
  | .writeBatchPartial page _, before, _, after => after = before.wrote page
  | .writeBatchIdempotent page _ _ _, before, _, after => after = before.wrote page
  | .writeBatchColumnar page _, before, _, after => after = before.wrote page
  | .loadNative page _, before, _, after => after = before.wrote page
  | .flush, before, answer, after =>
      match answer with
      | .ok _ => after = { before with sinkPending := [] }
      | .error _ => after = before
  | .pushFailure page envelope, before, _, after => after = before.owe page [envelope]
  | .writeDlq page envelopes, before, answer, after =>
      match answer with
      | .ok report => after = before.deliver page envelopes report
      | .error _ => after = before
  | .flushDlq, before, answer, after =>
      match answer with
      | .ok _ => after = { before with dlqPending := [] }
      | .error _ => after = before
  | .putState page _ _, before, answer, after =>
      match answer with
      | .ok _ => after = before.store page
      | .error _ => after = before ∨ after = before.store page
  | .isCancelled, before, _, after => after = before
  | .sleep _, before, _, after => after = before
  | .admitPage _ _, before, _, after => after = before
  | .batchSize, before, _, after => after = before
  | .lastCommittedToken _, before, _, after => after = before
  | .encodeBatch _ _, before, _, after => after = before
  | .foldAccount _, before, _, after => after = before
  | .getState _, before, _, after => after = before
  | .applyStartBookmark _, before, _, after => after = before
  | .streamPages, before, _, after => after = before
  | .streamNative, before, _, after => after = before
  | .beginOverwrite, before, _, after => after = before
  | .commitOverwrite, before, _, after => after = before
  | .abortOverwrite, before, _, after => after = before

theorem surroundings_idle (governs : Nat -> GovernanceOutcome -> Prop) : Idle (surroundings governs) where
  sleep := fun unchanged => unchanged
  isCancelled := fun unchanged => unchanged
  batchSize := fun unchanged => unchanged

/-! ## What holds while a page is written -/

namespace Ledger

/-- A page is being written: the stored position is of an earlier page, and
the envelopes owed are the given ones of this page.  A quiet run has handed
nothing to a dead-letter sink. -/
structure Writing (quiet : Bool) (page : Nat) (envelopes : List Envelope) (ledger : Ledger) : Prop where
  earlier : forall stored, ledger.held = some stored -> stored < page
  owed : ledger.owed = tagged page envelopes
  dlq : quiet = true -> ledger.dlqPending = []

/-- Nothing is waiting. -/
structure Drained (ledger : Ledger) : Prop where
  sink : ledger.sinkPending = []
  owed : ledger.owed = []
  dlq : ledger.dlqPending = []

/-- Nothing is waiting, and the stored position is at most the page's. -/
structure Flushed (page : Nat) (ledger : Ledger) : Prop where
  upTo : forall stored, ledger.held = some stored -> stored ≤ page
  drained : ledger.Drained

variable {quiet : Bool} {page : Nat} {envelopes : List Envelope} {ledger : Ledger}

theorem durable_empty : empty.Durable where
  sink := nofun
  owed := nofun
  dlq := nofun

theorem writing_empty (quiet : Bool) (page : Nat) : empty.Writing quiet page [] where
  earlier := nofun
  owed := rfl
  dlq := fun _ => rfl

theorem Writing.wrote (durable : ledger.Durable) (writing : ledger.Writing quiet page envelopes) :
    (ledger.wrote page).Durable ∧ (ledger.wrote page).Writing quiet page envelopes := by
  refine ⟨⟨fun stored held entry member => ?_, durable.owed, durable.dlq⟩,
    ⟨writing.earlier, writing.owed, writing.dlq⟩⟩
  rcases List.mem_cons.mp member with same | earlier
  · rw [same]
    exact writing.earlier stored held
  · exact durable.sink stored held entry earlier

theorem Writing.owe (durable : ledger.Durable) (writing : ledger.Writing quiet page envelopes)
    (more : List Envelope) :
    (ledger.owe page more).Durable ∧ (ledger.owe page more).Writing quiet page (envelopes ++ more) := by
  have whole : (ledger.owe page more).owed = tagged page (envelopes ++ more) := by
    change ledger.owed ++ tagged page more = _
    rw [writing.owed, tagged, tagged, tagged, List.map_append]
  refine ⟨⟨durable.sink, fun stored held entry member => ?_, durable.dlq⟩,
    ⟨writing.earlier, whole, writing.dlq⟩⟩
  rw [whole] at member
  rcases List.mem_map.mp member with ⟨envelope, _, rfl⟩
  exact writing.earlier stored held

theorem diff_self (entries : List (Nat × Envelope)) : entries.diff entries = [] := by
  induction entries with
  | nil => rfl
  | cons entry rest ih =>
      rw [List.diff_cons, List.erase_cons_head]
      exact ih

/-- Once every envelope of the page is accepted, none is owed. -/
theorem Writing.deliver {report : WriteReport} (durable : ledger.Durable)
    (writing : ledger.Writing quiet page envelopes) :
    (ledger.deliver page envelopes report).Durable ∧
      (ledger.deliver page envelopes report).Writing false page
        (if report.accepted + report.coalesced < envelopes.length then envelopes else []) := by
  unfold Ledger.deliver
  by_cases short : report.accepted + report.coalesced < envelopes.length
  · rw [if_pos short, if_pos short]
    exact ⟨durable, ⟨writing.earlier, writing.owed, nofun⟩⟩
  · rw [if_neg short, if_neg short]
    have settled : ledger.owed.diff (tagged page envelopes) = [] := by
      rw [writing.owed]
      exact diff_self _
    refine ⟨⟨durable.sink, fun stored held entry member => ?_, fun stored held entry member => ?_⟩,
      ⟨writing.earlier, settled, nofun⟩⟩
    · simp only [settled] at member
      cases member
    · rcases List.mem_append.mp member with earlier | added
      · exact durable.dlq stored held entry earlier
      · rcases List.mem_map.mp added with ⟨envelope, _, rfl⟩
        exact writing.earlier stored held

theorem Writing.later (writing : ledger.Writing quiet page []) : ledger.Writing quiet (page + 1) [] where
  earlier := fun stored held => Nat.lt_succ_of_lt (writing.earlier stored held)
  owed := writing.owed
  dlq := writing.dlq

/-- Storing a position is safe when nothing is waiting. -/
theorem Drained.store (drained : ledger.Drained) (page : Nat) :
    (ledger.store page).Durable ∧ (ledger.store page).Drained := by
  refine ⟨⟨fun _ _ entry member => ?_, fun _ _ entry member => ?_, fun _ _ entry member => ?_⟩,
    ⟨drained.sink, drained.owed, drained.dlq⟩⟩
  · simp only [Ledger.store, drained.sink] at member
    cases member
  · simp only [Ledger.store, drained.owed] at member
    cases member
  · simp only [Ledger.store, drained.dlq] at member
    cases member

theorem Flushed.store (flushed : ledger.Flushed page) : (ledger.store page).Flushed page where
  upTo := fun stored held => by
    cases held
    exact Nat.le_refl page
  drained := (flushed.drained.store page).2

theorem Flushed.later (flushed : ledger.Flushed page) (quiet : Bool) : ledger.Writing quiet (page + 1) [] where
  earlier := fun stored held => Nat.lt_succ_of_le (flushed.upTo stored held)
  owed := flushed.drained.owed
  dlq := fun _ => flushed.drained.dlq

theorem Durable.sinkFlushed (durable : ledger.Durable) : Durable { ledger with sinkPending := [] } where
  sink := nofun
  owed := durable.owed
  dlq := durable.dlq

theorem Durable.dlqFlushed (durable : ledger.Durable) : Durable { ledger with dlqPending := [] } where
  sink := durable.sink
  owed := durable.owed
  dlq := nofun

end Ledger

/-! ## The pieces every path is made of -/

section Pieces

variable {governs : Nat -> GovernanceOutcome -> Prop} {Result : Type}

/-- A triple about a run in the surroundings above, with durability as the
invariant. -/
abbrev Upholds (governs : Nat -> GovernanceOutcome -> Prop) (pre : Ledger -> Prop) (program : Engine Result)
    (post : Result -> Ledger -> Prop) (escape : Ledger -> Prop) : Prop :=
  Triple (surroundings governs) Ledger.Durable pre program post escape

/-- How a piece fails is of no interest once it cannot be repeated. -/
def Anyhow : Ledger -> Prop := fun _ => True

variable {pre escape : Ledger -> Prop} {post : Result -> Ledger -> Prop} {program : Engine Result}
  {quiet : Bool} {page : Nat} {envelopes : List Envelope}

theorem Upholds.anyhow (upholds : Upholds governs pre program post escape) :
    Upholds governs pre program post Anyhow :=
  upholds.mayFail

/-- A question that leaves the ledger as it is. -/
theorem upholds_call_unchanged {op : Op} {read : op.Answer -> Except FaucetError Result}
    (unchanged : forall before answer after, surroundings governs op before answer after -> after = before) :
    Upholds governs pre (call op read) (fun _ => pre) pre := by
  apply triple_call
  intro world answer after kept holds answered
  rw [unchanged world answer after answered]
  refine ⟨kept, ?_⟩
  cases read answer with
  | ok value => exact holds
  | error error => exact holds

/-- A write of a page to the main sink, whatever comes of it. -/
theorem upholds_call_write {op : Op} {read : op.Answer -> Except FaucetError Result}
    (writes : forall before answer after, surroundings governs op before answer after ->
      after = before.wrote page) :
    Upholds governs (Ledger.Writing quiet page envelopes) (call op read)
      (fun _ => Ledger.Writing quiet page envelopes) (Ledger.Writing quiet page envelopes) := by
  apply triple_call
  intro world answer after kept holds answered
  rw [writes world answer after answered]
  have step := holds.wrote kept
  refine ⟨step.1, ?_⟩
  cases read answer with
  | ok value => exact step.2
  | error error => exact step.2

/-- The main sink's flush, with whatever does not depend on what it flushes. -/
theorem upholds_flush (frame : forall ledger, pre ledger -> pre { ledger with sinkPending := [] }) :
    Upholds governs pre flush (fun _ ledger => pre ledger ∧ ledger.sinkPending = []) pre := by
  apply triple_call
  intro world answer after kept holds answered
  cases answer with
  | ok value =>
      have flushed : after = { world with sinkPending := [] } := answered
      rw [flushed]
      exact ⟨kept.sinkFlushed, frame world holds, rfl⟩
  | error error =>
      have same : after = world := answered
      rw [same]
      exact ⟨kept, holds⟩

theorem upholds_flushDlq (frame : forall ledger, pre ledger -> pre { ledger with dlqPending := [] })
    (policy : Option RetryPolicy) (cancel : Bool) :
    Upholds governs pre (flushDlq policy cancel) (fun _ ledger => pre ledger ∧ ledger.dlqPending = []) pre := by
  apply Triple.mapFailure
  refine triple_withRetry (surroundings_idle governs).sleep policy cancel (fun attempt => ?_) (fun _ holds => holds)
  apply triple_call
  intro world answer after kept holds answered
  cases answer with
  | ok value =>
      have flushed : after = { world with dlqPending := [] } := answered
      rw [flushed]
      exact ⟨kept.dlqFlushed, frame world holds, rfl⟩
  | error error =>
      have same : after = world := answered
      rw [same]
      exact ⟨kept, holds⟩

/-- A position is stored when nothing is waiting. -/
theorem upholds_putState (drained : forall ledger, pre ledger -> ledger.Drained)
    (stable : forall ledger, pre ledger -> pre (ledger.store page)) (key : String) (value : Value) :
    Upholds governs pre (call (.putState page key value) id) (fun _ => pre) pre := by
  apply triple_call
  intro world answer after kept holds answered
  have stores := (drained world holds).store page
  cases answer with
  | ok value =>
      have stored : after = world.store page := answered
      rw [stored]
      exact ⟨stores.1, stable world holds⟩
  | error error =>
      rcases (answered : after = world ∨ after = world.store page) with same | stored
      · rw [same]
        exact ⟨kept, holds⟩
      · rw [stored]
        exact ⟨stores.1, stable world holds⟩

theorem upholds_putState_flushed (key : String) (value : Value) :
    Upholds governs (Ledger.Flushed page) (call (.putState page key value) id)
      (fun _ => Ledger.Flushed page) (Ledger.Flushed page) :=
  upholds_putState (fun _ flushed => flushed.drained) (fun _ flushed => flushed.store) key value

theorem upholds_settle (account : PageAccount) :
    Upholds governs pre (settle account) (fun _ => pre) Anyhow := by
  apply Triple.ask
  intro world answer after kept holds answered
  have same : after = world := answered
  rw [same]
  refine ⟨kept, fun _ => ?_⟩
  split
  · exact ⟨kept, holds⟩
  · exact ⟨kept, trivial⟩

/-- An envelope is owed from the moment it is made. -/
theorem upholds_pushFailure (envelope : Envelope) {next : Engine Result}
    (rest : Upholds governs (Ledger.Writing quiet page (envelopes ++ [envelope])) next post Anyhow) :
    Upholds governs (Ledger.Writing quiet page envelopes) (.ask (.pushFailure page envelope) (fun _ => next))
      post Anyhow := by
  apply Triple.ask
  intro world answer after kept holds answered
  have owes : after = world.owe page [envelope] := answered
  have step := holds.owe kept [envelope]
  rw [owes]
  exact ⟨step.1, fun still => rest _ still step.2⟩

/-- The dead-letter write: afterwards the page owes nothing, and a failed or
short write leaves it owing everything. -/
theorem upholds_gateDlq (envelopes : List Envelope) :
    Upholds governs (Ledger.Writing false page envelopes) (gateDlq page envelopes)
      (fun _ => Ledger.Writing false page []) (Ledger.Writing false page envelopes) := by
  intro world kept holds
  refine ⟨kept, fun answer after answered => ?_⟩
  cases answer with
  | error error =>
      have same : after = world := answered
      rw [same]
      exact ⟨kept, holds⟩
  | ok report =>
      have delivered : after = world.deliver page envelopes report := answered
      have step : (world.deliver page envelopes report).Durable ∧ (world.deliver page envelopes report).Writing
          false page (if report.accepted + report.coalesced < envelopes.length then envelopes else []) :=
        holds.deliver kept
      rw [delivered]
      change Safe _ _ _ (if report.accepted + report.coalesced < envelopes.length then _ else _) _
      by_cases short : report.accepted + report.coalesced < envelopes.length
      · rw [if_pos short] at step ⊢
        exact step
      · rw [if_neg short] at step ⊢
        exact step

theorem upholds_abortWithEnvelopes (envelopes : List Envelope) :
    Upholds governs (Ledger.Writing false page envelopes) (abortWithEnvelopes page envelopes)
      (fun _ => Anyhow) Anyhow := by
  unfold abortWithEnvelopes
  split
  · exact Triple.pure (fun _ _ => trivial)
  · refine Triple.bind (fun _ => Anyhow)
      ((upholds_gateDlq envelopes).mapFailure.consequence (fun _ holds => holds) (fun _ _ _ => trivial)
        (fun _ _ => trivial)) ?_
    intro _
    exact (upholds_flushDlq (fun _ holds => holds) none false).gives (fun _ _ _ => trivial)

end Pieces

/-! ## The streaming run -/

namespace Run

variable {governs : Nat -> GovernanceOutcome -> Prop} {Result : Type} {pre : Ledger -> Prop}
  {post : Result -> Ledger -> Prop} {quiet : Bool} {page : Nat} {envelopes : List Envelope} (run : Run)

theorem upholds_retrying {body : Nat -> Engine Result}
    (once : forall attempt, Upholds governs pre (body attempt) post pre) :
    Upholds governs pre (run.retrying body) post pre :=
  triple_withRetry (surroundings_idle governs).sleep _ _ once (fun _ holds => holds)

theorem upholds_retryingWrite {body : Engine Result} (once : Upholds governs pre body post pre) :
    Upholds governs pre (run.retryingWrite body) post pre := by
  unfold retryingWrite
  split
  · exact run.upholds_retrying (fun _ => once)
  · exact once

theorem upholds_persist (value : Value) :
    Upholds governs (Ledger.Flushed page) (run.persist page value) (fun _ => Ledger.Flushed page)
      (Ledger.Flushed page) := by
  unfold persist
  split
  · exact run.upholds_retrying (fun _ => upholds_putState_flushed _ value)
  · exact Triple.skip

theorem upholds_admitRows (rows : List GovernedRow) :
    Upholds governs pre (run.admitRows page rows) (fun _ => pre) pre := by
  unfold admitRows
  split
  · exact upholds_call_unchanged (fun _ _ _ unchanged => unchanged)
  · exact Triple.skip

theorem upholds_sliceSize (remaining : Nat) :
    Upholds governs pre (run.sliceSize remaining) (fun _ => pre) Anyhow := by
  unfold sliceSize
  split
  · apply Triple.ask
    intro world answer after kept holds answered
    have same : after = world := answered
    rw [same]
    exact ⟨kept, fun _ => ⟨kept, holds⟩⟩
  · exact Triple.skip

/-- A partial write of rows of the page. -/
theorem upholds_writeBatchPartial (rows : List GovernedRow) :
    Upholds governs (Ledger.Writing quiet page envelopes) (call (.writeBatchPartial page rows) id)
      (fun _ => Ledger.Writing quiet page envelopes) (Ledger.Writing quiet page envelopes) :=
  upholds_call_write (fun _ _ _ wrote => wrote)

theorem upholds_writeChunk (dlq : DlqConfig) (chunk : List GovernedRow) :
    Upholds governs (Ledger.Writing quiet page envelopes) (run.writeChunk dlq page chunk)
      (fun _ => Ledger.Writing quiet page envelopes) Anyhow := by
  unfold writeChunk
  refine Triple.bind (fun _ => Ledger.Writing quiet page envelopes)
    ((run.upholds_retryingWrite (upholds_writeBatchPartial chunk)).attempt ?_) ?_
  · intro result world ended
    cases result with
    | ok value => exact ended
    | error error => exact ended
  · intro answer
    split
    · split
      · exact Triple.fails
      · exact Triple.skip
    · exact Triple.fails
    · exact Triple.fails
    · exact Triple.fails
    · split
      · exact Triple.fails
      · exact Triple.skip

theorem upholds_poisonRetries (chunk : List GovernedRow) (left : Nat) (outcomes : List RowOutcome) :
    Upholds governs (Ledger.Writing quiet page envelopes) (run.poisonRetries page chunk left outcomes)
      (fun _ => Ledger.Writing quiet page envelopes) Anyhow := by
  induction left generalizing outcomes with
  | zero => exact Triple.skip
  | succ left ih =>
      unfold poisonRetries
      dsimp only
      split
      · exact Triple.skip
      · refine Triple.bind (fun _ => Ledger.Writing quiet page envelopes)
          (upholds_writeBatchPartial _).anyhow ?_
        intro retried
        split
        · exact Triple.fails
        · exact ih _

theorem upholds_resubmit (chunk : List GovernedRow) (written : List RowOutcome × Bool) :
    Upholds governs (Ledger.Writing quiet page envelopes) (run.resubmit page chunk written)
      (fun _ => Ledger.Writing quiet page envelopes) Anyhow := by
  unfold resubmit
  split
  · exact run.upholds_poisonRetries chunk _ _
  · exact Triple.skip

/-- Every envelope made for a failed row is owed from then on. -/
theorem upholds_settleRows (synthesized : Bool) (offset : Nat) (rows : List (GovernedRow × RowOutcome))
    (j : Nat) (state : SliceState) :
    Upholds governs (Ledger.Writing quiet page (envelopes ++ state.envelopes))
      (run.settleRows page synthesized offset rows j state)
      (fun written => Ledger.Writing quiet page (envelopes ++ written.envelopes)) Anyhow := by
  induction rows generalizing j state with
  | nil => exact Triple.pure (fun _ holds => holds)
  | cons entry rest ih =>
      rcases entry with ⟨row, outcome⟩
      cases outcome with
      | ok value =>
          exact ih (j + 1) { state with pageSuccess := state.pageSuccess + 1 }
      | error error =>
          unfold settleRows
          cases (run.poison.map PoisonPolicy.action).getD .dlq with
          | fail => exact Triple.fails
          | drop => exact ih (j + 1) { state with dropped := state.dropped + 1 }
          | dlq =>
              apply upholds_pushFailure
              rw [List.append_assoc]
              exact ih (j + 1)
                { state with envelopes := state.envelopes ++ [_], failed := state.failed + 1 }

theorem upholds_writeSlice (dlq : DlqConfig) (chunk : List GovernedRow) (offset : Nat) (state : SliceState) :
    Upholds governs (Ledger.Writing quiet page (envelopes ++ state.envelopes))
      (run.writeSlice dlq page chunk offset state)
      (fun written => Ledger.Writing quiet page (envelopes ++ written.envelopes)) Anyhow := by
  refine Triple.bind _ (run.upholds_writeChunk dlq chunk) ?_
  intro written
  refine Triple.bind _ (run.upholds_resubmit chunk written) ?_
  intro outcomes
  exact run.upholds_settleRows written.2 offset (chunk.zip outcomes) 0 state

theorem upholds_slices (dlq : DlqConfig) (rounds : Nat) (remaining : List GovernedRow) (offset : Nat)
    (state : SliceState) :
    Upholds governs (Ledger.Writing quiet page (envelopes ++ state.envelopes))
      (run.slices dlq page rounds remaining offset state)
      (fun written => Ledger.Writing quiet page (envelopes ++ written.envelopes)) Anyhow := by
  induction rounds generalizing remaining offset state with
  | zero => exact Triple.pure (fun _ holds => holds)
  | succ rounds ih =>
      unfold slices
      split
      · exact Triple.pure (fun _ holds => holds)
      · refine Triple.bind _ (run.upholds_sliceSize remaining.length) ?_
        intro size
        refine Triple.bind _ (run.upholds_writeSlice dlq _ offset state) ?_
        intro written
        exact ih _ _ written

theorem upholds_writeEnvelopes (dlq : DlqConfig) (envelopes : List Envelope) :
    Upholds governs (Ledger.Writing false page envelopes) (run.writeEnvelopes dlq page envelopes)
      (fun _ => Ledger.Writing false page []) Anyhow := by
  unfold writeEnvelopes
  apply Triple.mapFailure
  split
  · exact (run.upholds_retrying (fun _ => upholds_gateDlq envelopes)).anyhow
  · exact (upholds_gateDlq envelopes).anyhow

theorem upholds_routeEnvelopes (dlq : DlqConfig) (envelopes : List Envelope) (stats : DlqStats) :
    Upholds governs (Ledger.Writing false page envelopes) (run.routeEnvelopes dlq page envelopes stats)
      (fun _ => Ledger.Writing false page []) Anyhow := by
  unfold routeEnvelopes
  split
  · rename_i none
    rw [List.isEmpty_iff.mp none]
    exact Triple.skip
  · refine Triple.bind _ (run.upholds_writeEnvelopes dlq envelopes) ?_
    intro _
    exact Triple.skip

/-- With a dead-letter queue both sinks are flushed before the position is
stored. -/
theorem upholds_checkpointWithDlq (bookmark : Option Value) :
    Upholds governs (Ledger.Writing false page []) (run.checkpointWithDlq page bookmark)
      (fun _ => Ledger.Writing false (page + 1) []) Anyhow := by
  cases bookmark with
  | none => exact Triple.pure (fun _ holds => holds.later)
  | some bookmark =>
      have dlqFrame : forall ledger : Ledger, ledger.Writing false page [] ->
          Ledger.Writing false page [] { ledger with dlqPending := [] } :=
        fun _ holds => ⟨holds.earlier, holds.owed, fun _ => rfl⟩
      have sinkFrame : forall ledger : Ledger, ledger.Writing false page [] ->
          Ledger.Writing false page [] { ledger with sinkPending := [] } :=
        fun _ holds => ⟨holds.earlier, holds.owed, holds.dlq⟩
      by_cases overwrite : run.sink.isOverwrite = true
      · simp only [checkpointWithDlq, overwrite, if_true]
        exact (upholds_flushDlq dlqFrame _ _).consequence (fun _ holds => holds)
          (fun _ _ ends => ends.1.later) (fun _ _ => trivial)
      · simp only [checkpointWithDlq, overwrite]
        refine Triple.bind _ (run.upholds_retrying (fun _ => upholds_flush sinkFrame)).anyhow ?_
        intro _
        refine Triple.bind _ (upholds_flushDlq (fun _ holds => ⟨dlqFrame _ holds.1, holds.2⟩) _ _).anyhow ?_
        intro _
        exact (run.upholds_persist bookmark).consequence
          (fun _ ends => ⟨fun stored held => Nat.le_of_lt (ends.1.1.earlier stored held),
            ⟨ends.1.2, ends.1.1.owed, ends.2⟩⟩)
          (fun _ _ flushed => flushed.later false) (fun _ _ => trivial)

theorem upholds_dlqPage (dlq : DlqConfig) (records : List Value) (quarantined : List Envelope)
    (bookmark : Option Value) (account : PageAccount) (state : LoopState) :
    Upholds governs (Ledger.Writing false page quarantined)
      (run.dlqPage dlq page records quarantined bookmark account state)
      (fun _ => Ledger.Writing false (page + 1) []) Anyhow := by
  refine Triple.bind _ (run.upholds_admitRows _).anyhow ?_
  intro _
  refine Triple.bind (fun written => Ledger.Writing false page (quarantined ++ written.envelopes))
    ((run.upholds_slices dlq _ _ 0 ⟨[], 0, 0, 0⟩).given (fun _ holds => by rw [List.append_nil]; exact holds)) ?_
  intro written
  refine Triple.bind _ (run.upholds_routeEnvelopes dlq _ _) ?_
  intro stats
  refine Triple.bind _ (upholds_settle _) ?_
  intro _
  refine Triple.bind _ (run.upholds_checkpointWithDlq bookmark) ?_
  intro _
  dsimp only
  split
  · exact Triple.fails
  · exact Triple.fails
  · exact Triple.skip

/-- Without a dead-letter queue: flush, then store. -/
theorem upholds_flushAndPersist (value : Value) :
    Upholds governs (Ledger.Writing true page []) (run.flushAndPersist page value)
      (fun _ => Ledger.Writing true (page + 1) []) Anyhow := by
  have sinkFrame : forall ledger : Ledger, ledger.Writing true page [] ->
      Ledger.Writing true page [] { ledger with sinkPending := [] } :=
    fun _ holds => ⟨holds.earlier, holds.owed, holds.dlq⟩
  refine Triple.bind _ (run.upholds_retrying (fun _ => upholds_flush sinkFrame)).anyhow ?_
  intro _
  exact (run.upholds_persist value).consequence
    (fun _ ends => ⟨fun stored held => Nat.le_of_lt (ends.1.earlier stored held),
      ⟨ends.2, ends.1.owed, ends.1.dlq rfl⟩⟩)
    (fun _ _ flushed => flushed.later true) (fun _ _ => trivial)

theorem upholds_eoWriteOnce (rows : List GovernedRow) (scope token : String) (seq attempt : Nat) :
    Upholds governs (Ledger.Writing quiet page envelopes) (eoWriteOnce page rows scope token seq attempt)
      (fun _ => Ledger.Writing quiet page envelopes) (Ledger.Writing quiet page envelopes) := by
  refine Triple.bind (fun _ => Ledger.Writing quiet page envelopes) ?_ ?_
  · unfold committedToken
    split
    · exact upholds_call_unchanged (fun _ _ _ unchanged => unchanged)
    · exact Triple.skip
  · intro committed
    split
    · exact Triple.skip
    · exact upholds_call_write (fun _ _ _ wrote => wrote)

theorem upholds_writeOrSkip (committedSeq : Nat) (rows : List GovernedRow) (seq : Nat) (token : String)
    (account : PageAccount) :
    Upholds governs (Ledger.Writing quiet page envelopes)
      (run.writeOrSkip committedSeq page rows seq token account)
      (fun _ => Ledger.Writing quiet page envelopes) Anyhow := by
  unfold writeOrSkip
  split
  · exact Triple.skip
  · refine Triple.bind _ (run.upholds_retrying (upholds_eoWriteOnce rows run.scope token seq)).anyhow ?_
    intro report
    exact Triple.skip

theorem upholds_exactlyOncePage (committedSeq : Nat) (records : List Value) (bookmark : Value)
    (account : PageAccount) (state : LoopState) :
    Upholds governs (Ledger.Writing true page [])
      (run.exactlyOncePage committedSeq page records bookmark account state)
      (fun _ => Ledger.Writing true (page + 1) []) Anyhow := by
  unfold exactlyOncePage
  refine Triple.bind _ (run.upholds_writeOrSkip committedSeq _ _ _ account) ?_
  intro written
  refine Triple.bind _ (upholds_settle _) ?_
  intro _
  refine Triple.bind _ (run.upholds_flushAndPersist _) ?_
  intro _
  exact Triple.skip

theorem upholds_writeReported (rows : List GovernedRow) (account : PageAccount) :
    Upholds governs (Ledger.Writing quiet page envelopes) (run.writeReported page rows account)
      (fun _ => Ledger.Writing quiet page envelopes) Anyhow := by
  have once : Upholds governs (Ledger.Writing quiet page envelopes) (call (.writeGoverned page rows) id)
      (fun _ => Ledger.Writing quiet page envelopes) (Ledger.Writing quiet page envelopes) :=
    upholds_call_write (fun _ _ _ wrote => wrote)
  refine Triple.bind _ (run.upholds_retryingWrite once).anyhow ?_
  intro report
  exact Triple.skip

theorem upholds_plainSlices (rounds : Nat) (remaining : List GovernedRow) (account : PageAccount)
    (written : Nat) :
    Upholds governs (Ledger.Writing quiet page envelopes)
      (run.plainSlices page rounds remaining account written)
      (fun _ => Ledger.Writing quiet page envelopes) Anyhow := by
  induction rounds generalizing remaining account written with
  | zero => exact Triple.skip
  | succ rounds ih =>
      unfold plainSlices
      split
      · exact Triple.skip
      · refine Triple.bind _ (run.upholds_sliceSize remaining.length) ?_
        intro size
        refine Triple.bind _ (run.upholds_writeReported _ account) ?_
        intro reported
        exact ih _ _ _

theorem upholds_writePlain (rows : List GovernedRow) (account : PageAccount) :
    Upholds governs (Ledger.Writing quiet page envelopes) (run.writePlain page rows account)
      (fun _ => Ledger.Writing quiet page envelopes) Anyhow := by
  unfold writePlain
  split
  · exact Triple.skip
  · split
    · refine Triple.bind _ (run.upholds_admitRows rows).anyhow ?_
      intro _
      exact run.upholds_plainSlices _ _ _ _
    · exact run.upholds_writeReported rows account

theorem upholds_checkpoint (bookmark : Option Value) :
    Upholds governs (Ledger.Writing true page []) (run.checkpoint page bookmark)
      (fun _ => Ledger.Writing true (page + 1) []) Anyhow := by
  cases bookmark with
  | none => exact Triple.pure (fun _ holds => holds.later)
  | some bookmark =>
      by_cases overwrite : run.sink.isOverwrite = true
      · simp only [checkpoint, overwrite, if_true]
        exact Triple.pure (fun _ holds => holds.later)
      · simp only [checkpoint, overwrite]
        exact run.upholds_flushAndPersist bookmark

theorem upholds_plainPage (records : List Value) (bookmark : Option Value) (account : PageAccount)
    (state : LoopState) :
    Upholds governs (Ledger.Writing true page []) (run.plainPage page records bookmark account state)
      (fun _ => Ledger.Writing true (page + 1) []) Anyhow := by
  refine Triple.bind _ (run.upholds_writePlain _ account) ?_
  intro written
  refine Triple.bind _ (upholds_settle _) ?_
  intro _
  refine Triple.bind _ (run.upholds_checkpoint bookmark) ?_
  intro _
  exact Triple.skip

theorem upholds_unmarkedPage (records : List Value) (account : PageAccount) (state : LoopState) :
    Upholds governs (Ledger.Writing true page []) (run.unmarkedPage page records account state)
      (fun _ => Ledger.Writing true (page + 1) []) Anyhow := by
  unfold unmarkedPage
  split
  · exact Triple.pure (fun _ holds => holds.later)
  · refine Triple.bind _ (run.upholds_writeReported _ account) ?_
    intro written
    refine Triple.bind _ (upholds_settle _) ?_
    intro _
    exact Triple.pure (fun _ holds => holds.later)

/-- The branch a run takes says whether it has a dead-letter queue. -/
def Takes (run : Run) : Branch -> Prop
  | .deadLetter dlq => run.options.dlq = some dlq
  | .exactlyOnce _ | .plain => run.options.dlq = none

/-- A run without a dead-letter queue hands nothing to one. -/
abbrev quietly (run : Run) : Bool := run.options.dlq.isNone

theorem upholds_writePage (branch : Branch) (takes : run.Takes branch) (outcome : GovernanceOutcome)
    (clean : run.options.dlq = none -> outcome.envelopes = []) (bookmark : Option Value)
    (account : PageAccount) (state : LoopState) :
    Upholds governs (Ledger.Writing run.quietly page outcome.envelopes)
      (run.writePage branch page outcome bookmark account state)
      (fun _ => Ledger.Writing run.quietly (page + 1) []) Anyhow := by
  cases branch with
  | deadLetter dlq =>
      have loud : run.quietly = false := by rw [quietly, takes]; rfl
      rw [loud]
      exact run.upholds_dlqPage dlq outcome.records outcome.envelopes bookmark account state
  | exactlyOnce committedSeq =>
      have quiet : run.quietly = true := by rw [quietly, takes]; rfl
      rw [quiet, clean takes]
      cases bookmark with
      | none => exact run.upholds_unmarkedPage outcome.records account state
      | some bookmark => exact run.upholds_exactlyOncePage committedSeq outcome.records bookmark account state
  | plain =>
      have quiet : run.quietly = true := by rw [quietly, takes]; rfl
      rw [quiet, clean takes]
      exact run.upholds_plainPage outcome.records bookmark account state

theorem upholds_abortPage (envelopes : List Envelope) (error : FaucetError) :
    Upholds governs (Ledger.Writing run.quietly page envelopes) (run.abortPage page envelopes error)
      (fun _ => Ledger.Writing run.quietly (page + 1) []) Anyhow := by
  unfold abortPage
  cases configured : run.options.dlq with
  | none => exact Triple.fails
  | some dlq =>
      have loud : run.quietly = false := by rw [quietly, configured]; rfl
      rw [loud]
      refine Triple.bind _ (upholds_abortWithEnvelopes envelopes) ?_
      intro _
      exact Triple.fails

/-- One page of the loop. -/
theorem upholds_stepPage (branch : Branch) (takes : run.Takes branch)
    (clean : run.options.dlq = none -> forall page outcome, governs page outcome -> outcome.envelopes = [])
    (content : StreamPage) (state : LoopState) :
    Upholds governs (Ledger.Writing run.quietly page []) (run.stepPage branch page content state)
      (fun _ => Ledger.Writing run.quietly (page + 1) []) Anyhow := by
  have governed : Upholds governs (Ledger.Writing run.quietly page [])
      (call (.applyGovernance page content.records) id)
      (fun outcome ledger => governs page outcome ∧ Ledger.Writing run.quietly page outcome.envelopes ledger)
      Anyhow := by
    apply triple_call
    intro world answer after kept holds answered
    cases answer with
    | error error =>
        have same : after = world := answered
        rw [same]
        exact ⟨kept, trivial⟩
    | ok outcome =>
        have owes : governs page outcome ∧ after = world.owe page outcome.envelopes := answered
        have step := holds.owe kept outcome.envelopes
        rw [List.nil_append] at step
        rw [owes.2]
        exact ⟨step.1, owes.1, step.2⟩
  refine Triple.bind _ governed ?_
  rintro outcome ledger kept ⟨allowed, writing⟩
  dsimp only
  split
  · exact run.upholds_abortPage outcome.envelopes _ ledger kept writing
  · exact run.upholds_writePage branch takes outcome (fun absent => clean absent page outcome allowed)
      content.bookmark _ state ledger kept writing

theorem upholds_isCancelled {wired : Bool} :
    Upholds governs pre (if wired then .ask .isCancelled (fun fired => pure fired) else pure false : Engine Bool)
      (fun _ => pre) Anyhow := by
  split
  · apply Triple.ask
    intro world answer after kept holds answered
    have same : after = world := answered
    rw [same]
    exact ⟨kept, fun _ => ⟨kept, holds⟩⟩
  · exact Triple.skip

/-- The whole loop, by induction on what the source still yields. -/
theorem upholds_pageLoop (branch : Branch) (takes : run.Takes branch)
    (clean : run.options.dlq = none -> forall page outcome, governs page outcome -> outcome.envelopes = [])
    (items : List (Except FaucetError StreamPage)) (page : Nat) (state : LoopState) :
    Upholds governs (Ledger.Writing run.quietly page []) (run.pageLoop branch items page state)
      (fun _ => Anyhow) Anyhow := by
  induction items generalizing page state with
  | nil =>
      unfold pageLoop
      refine Triple.bind _ upholds_isCancelled ?_
      intro stops
      split
      · exact Triple.pure (fun _ _ => trivial)
      · refine Triple.bind _ upholds_isCancelled ?_
        intro drained
        exact Triple.pure (fun _ _ => trivial)
  | cons item rest ih =>
      unfold pageLoop
      refine Triple.bind _ upholds_isCancelled ?_
      intro stops
      split
      · exact Triple.pure (fun _ _ => trivial)
      · cases item with
        | error error => exact Triple.fails
        | ok content =>
            dsimp only
            split
            · exact (ih (page + 1) state).given (fun _ holds => holds.later)
            · refine Triple.bind _ (run.upholds_stepPage branch takes clean content state) ?_
              intro next
              exact ih (page + 1) next

theorem upholds_committedSeq : Upholds governs pre run.committedSeq (fun _ => pre) Anyhow := by
  have asked : Upholds governs pre (call (.lastCommittedToken run.scope) id) (fun _ => pre) pre :=
    upholds_call_unchanged (fun _ _ _ unchanged => unchanged)
  refine Triple.bind _ asked.anyhow ?_
  intro token
  exact Triple.skip

/-- A run that starts has passed its checks. -/
theorem upholds_start :
    Upholds governs pre run.start
      (fun branch ledger => run.checkGovernance = .ok () ∧ run.Takes branch ∧ pre ledger) Anyhow := by
  have checked {Checked : Type} (verdict : Except FaucetError Checked) :
      Upholds governs pre (Program.ofExcept verdict) (fun _ ledger => pre ledger ∧ verdict.isOk = true) Anyhow := by
    apply Triple.ofExcept
    intro world holds
    cases verdict with
    | ok value => exact ⟨holds, rfl⟩
    | error error => trivial
  refine Triple.bind _ (checked run.checkOptions) ?_
  rintro _ world kept ⟨holds, options⟩
  have passed : run.checkGovernance = .ok () := by
    unfold checkOptions at options
    cases governance : run.checkGovernance with
    | ok passed => rfl
    | error error => rw [governance] at options; cases options
  refine Triple.bind _ (checked run.usesWatermark) ?_ world kept holds
  rintro watermark world kept ⟨holds, _⟩
  refine Triple.bind (fun _ => pre) ?_ ?_ world kept holds
  · split
    · exact run.upholds_committedSeq
    · exact Triple.skip
  · intro committed
    refine Triple.bind _ (checked _) ?_
    intro _
    cases configured : run.options.dlq with
    | some dlq => exact Triple.pure (fun _ holds => ⟨passed, configured, holds.1⟩)
    | none =>
        refine Triple.pure (fun _ holds => ⟨passed, ?_, holds.1⟩)
        cases watermark with
        | true => exact configured
        | false => exact configured

theorem upholds_flush_anyhow : Upholds governs Anyhow flush (fun _ => Anyhow) Anyhow :=
  (upholds_flush (fun _ holds => holds)).gives (fun _ _ ends => ends.1)

theorem upholds_flushDlq_anyhow (policy : Option RetryPolicy) (cancel : Bool) :
    Upholds governs Anyhow (flushDlq policy cancel) (fun _ => Anyhow) Anyhow :=
  (upholds_flushDlq (fun _ holds => holds) policy cancel).gives (fun _ _ ends => ends.1)

theorem upholds_unwind : Upholds governs Anyhow run.unwind (fun _ => Anyhow) Anyhow := by
  have ignored : forall program : Engine Unit, Upholds governs Anyhow program (fun _ => Anyhow) Anyhow ->
      Upholds governs Anyhow program.attempt (fun _ => Anyhow) Anyhow :=
    fun program upholds => upholds.attempt (fun _ _ _ => trivial)
  have flushesDlq : Upholds governs Anyhow (call .flushDlq id : Engine Unit) (fun _ => Anyhow) Anyhow := by
    apply triple_call
    intro world answer after kept holds answered
    cases answer with
    | ok value =>
        have flushed : after = { world with dlqPending := [] } := answered
        rw [flushed]
        exact ⟨kept.dlqFlushed, trivial⟩
    | error error =>
        have same : after = world := answered
        rw [same]
        exact ⟨kept, trivial⟩
  refine Triple.bind (fun _ => Anyhow) (ignored _ ?_) ?_
  · split
    · exact flushesDlq
    · exact Triple.skip
  · intro _
    refine Triple.bind (fun _ => Anyhow) (ignored _ ?_) ?_
    · split
      · exact Triple.skip
      · exact upholds_flush_anyhow
    · intro _
      exact Triple.skip

theorem upholds_finish (cancelled : Bool) :
    Upholds governs Anyhow (run.finish cancelled) (fun _ => Anyhow) Anyhow := by
  refine Triple.bind (fun _ => Anyhow) ?_ ?_
  · split
    · exact upholds_flushDlq_anyhow none false
    · exact Triple.skip
  · intro _
    split
    · exact Triple.skip
    · exact upholds_flush_anyhow

/-- Envelopes come out of the run's own passes. -/
def Governs (outcome : GovernanceOutcome) : Prop :=
  outcome.envelopes ≠ [] -> exists state sink page next,
    applyGovernance run.options.specs state sink page = .ok (outcome, next)

/-- A run without a dead-letter queue has passes that set nothing aside, or it
does not start. -/
theorem governs_applyGovernance {run : Run} {outcome : GovernanceOutcome} (passed : run.checkGovernance = .ok ())
    (absent : run.options.dlq = none) (governed : run.Governs outcome) : outcome.envelopes = [] := by
  by_contra some
  rcases governed some with ⟨state, sink, page, next, answered⟩
  simp only [checkGovernance, absent, Option.isNone_none, Bool.and_true] at passed
  split at passed
  · cases passed
  · next quality =>
    split at passed
    · cases passed
    · next contract =>
      split at passed
      · cases passed
      · next drift =>
        exact some (applyGovernance_clean (Bool.eq_false_of_not_eq_true quality)
          (Bool.eq_false_of_not_eq_true contract) (Bool.eq_false_of_not_eq_true drift) answered)

/-- A streaming run keeps its ledger durable throughout. -/
theorem upholds_runStream
    (own : run.options.dlq = none -> forall page outcome, governs page outcome -> run.Governs outcome)
    (items : List (Except FaucetError StreamPage)) :
    Upholds governs (Ledger.Writing run.quietly 1 []) (run.runStream items) (fun _ => Anyhow) Anyhow := by
  refine Triple.bind _ run.upholds_start ?_
  rintro branch world kept ⟨passed, takes, writing⟩
  have clean : run.options.dlq = none -> forall page outcome, governs page outcome -> outcome.envelopes = [] :=
    fun absent page outcome governed => governs_applyGovernance passed absent (own absent page outcome governed)
  refine Triple.bind (fun _ => Anyhow) ((run.upholds_pageLoop branch takes clean items 1 _).attempt
    (fun _ _ _ => trivial)) ?_ world kept writing
  intro result
  cases result with
  | error error =>
      refine Triple.bind _ run.upholds_unwind ?_
      intro _
      exact Triple.raise (fun _ holds => holds)
  | ok final =>
      refine Triple.bind _ (run.upholds_finish final.2) ?_
      intro _
      exact Triple.skip

end Run

theorem Ledger.Writing.loud {quiet : Bool} {page : Nat} {envelopes : List Envelope} {ledger : Ledger}
    (writing : ledger.Writing quiet page envelopes) : ledger.Writing false page envelopes :=
  ⟨writing.earlier, writing.owed, nofun⟩

section FastPieces

variable {governs : Nat -> GovernanceOutcome -> Prop} {pre : Ledger -> Prop} {page : Nat}

theorem upholds_cancelledAtBoundary (cancel : Bool) :
    Upholds governs pre (cancelledAtBoundary cancel) (fun _ => pre) Anyhow :=
  Run.upholds_isCancelled

theorem upholds_putPosition (state : Option String) (bookmark : Value) :
    Upholds governs (Ledger.Flushed page) (putPosition state page bookmark) (fun _ => Ledger.Flushed page)
      Anyhow := by
  cases state with
  | none => exact Triple.skip
  | some key => exact (upholds_putState_flushed key bookmark).anyhow

/-- Flush and store, with nothing handed to a dead-letter sink before. -/
theorem upholds_flushAndPut (state : Option String) (bookmark : Value) :
    Upholds governs (Ledger.Writing true page []) (flushAndPut state page bookmark)
      (fun _ => Ledger.Writing true (page + 1) []) Anyhow := by
  have sinkFrame : forall ledger : Ledger, ledger.Writing true page [] ->
      Ledger.Writing true page [] { ledger with sinkPending := [] } :=
    fun _ holds => ⟨holds.earlier, holds.owed, holds.dlq⟩
  refine Triple.bind _ (upholds_flush sinkFrame).anyhow ?_
  intro _
  exact (upholds_putPosition state bookmark).consequence
    (fun _ ends => ⟨fun stored held => Nat.le_of_lt (ends.1.earlier stored held),
      ⟨ends.2, ends.1.owed, ends.1.dlq rfl⟩⟩)
    (fun _ _ flushed => flushed.later true) (fun _ ends => ends)

end FastPieces

/-! ## The columnar run -/

namespace ColumnarRun

variable {governs : Nat -> GovernanceOutcome -> Prop} {Result : Type} {page : Nat} (run : ColumnarRun)
  (items : List (Except FaucetError StreamPage))

/-- No position is stored at the given page or later: the run has no store,
or no page from there on carries a bookmark. -/
def Silent (page : Nat) : Prop :=
  run.state = none ∨ forall content, Except.ok content ∈ items.drop (page - 1) -> content.bookmark = none

/-- Governance sets rows of a page aside for the dead-letter sink, and lets the
page pass, only when no position is stored from that page on. -/
def Cautious (page : Nat) (outcome : GovernanceOutcome) : Prop :=
  run.dlq ≠ none -> outcome.envelopes ≠ [] -> outcome.deferredAbort = none -> run.Silent items page

/-- Nothing waits in the dead-letter sink, or no position will be stored. -/
def Ready (page : Nat) (envelopes : List Envelope) (ledger : Ledger) : Prop :=
  exists quiet, ledger.Writing quiet page envelopes ∧ (quiet = false -> run.Silent items page)

theorem Silent.later {run : ColumnarRun} {items : List (Except FaucetError StreamPage)} {page : Nat}
    (silent : run.Silent items page) : run.Silent items (page + 1) := by
  rcases silent with stateless | unmarked
  · exact Or.inl stateless
  · refine Or.inr (fun content member => unmarked content ?_)
    have further : items.drop (page + 1 - 1) <:+ items.drop (page - 1) :=
      List.drop_suffix_drop_left items (by omega)
    exact further.subset member

theorem Ready.later {run : ColumnarRun} {items : List (Except FaucetError StreamPage)} {page : Nat}
    {ledger : Ledger} (ready : run.Ready items page [] ledger) : run.Ready items (page + 1) [] ledger := by
  rcases ready with ⟨quiet, writing, silent⟩
  exact ⟨quiet, writing.later, fun loud => (silent loud).later⟩

theorem upholds_routeEnvelopes (envelopes : List Envelope) (stats : DlqStats)
    (cautious : run.dlq ≠ none -> envelopes ≠ [] -> run.Silent items page) :
    Upholds governs (run.Ready items page envelopes) (run.routeEnvelopes page envelopes stats)
      (fun _ => run.Ready items page []) Anyhow := by
  unfold routeEnvelopes
  split
  · rename_i none
    rw [List.isEmpty_iff.mp none]
    exact Triple.skip
  · rename_i some
    have present : envelopes ≠ [] := fun empty => some (List.isEmpty_iff.mpr empty)
    split
    · exact Triple.fails
    · rename_i configured
      have routed : run.dlq ≠ none := fun absent => by
        rw [absent] at configured
        cases configured
      refine Triple.bind (fun _ => run.Ready items page [])
        ((upholds_gateDlq envelopes).mapFailure.consequence
          (fun _ ready => ready.elim (fun _ writing => writing.1.loud))
          (fun _ _ written => ⟨false, written, fun _ => cautious routed present⟩) (fun _ _ => trivial)) ?_
      intro _
      exact Triple.skip

theorem upholds_governBatch (content : StreamPage) (stats : DlqStats)
    (cautious : forall outcome, governs page outcome -> run.Cautious items page outcome) :
    Upholds governs (run.Ready items page []) (run.governBatch page content stats)
      (fun _ => run.Ready items page []) Anyhow := by
  unfold governBatch
  split
  · exact Triple.skip
  · have governed : Upholds governs (run.Ready items page [])
        (call (.applyGovernance page content.records) id)
        (fun outcome ledger => governs page outcome ∧ run.Ready items page outcome.envelopes ledger) Anyhow := by
      apply triple_call
      intro world answer after kept ready answered
      rcases ready with ⟨quiet, writing, silent⟩
      cases answer with
      | error error =>
          have same : after = world := answered
          rw [same]
          exact ⟨kept, trivial⟩
      | ok outcome =>
          have owes : governs page outcome ∧ after = world.owe page outcome.envelopes := answered
          have step := writing.owe kept outcome.envelopes
          rw [List.nil_append] at step
          rw [owes.2]
          exact ⟨step.1, owes.1, quiet, step.2, silent⟩
    refine Triple.bind _ governed ?_
    rintro outcome ledger kept ⟨allowed, ready⟩
    rcases ready with ⟨quiet, writing, silent⟩
    cases abort : outcome.deferredAbort with
    | some error =>
        cases run.dlq with
        | none => exact ⟨kept, trivial⟩
        | some dlq =>
            refine Triple.bind _ (upholds_abortWithEnvelopes outcome.envelopes) ?_ ledger kept writing.loud
            intro _
            exact Triple.fails
    | none =>
        refine Triple.bind _ (run.upholds_routeEnvelopes items outcome.envelopes stats
          (fun routed present => cautious outcome allowed routed present abort)) ?_ ledger kept
          ⟨quiet, writing, silent⟩
        intro routed
        have encodes : Upholds governs (run.Ready items page [])
            (call (.encodeBatch page outcome.records) id) (fun _ => run.Ready items page []) _ :=
          upholds_call_unchanged (fun _ _ _ unchanged => unchanged)
        refine Triple.bind _ encodes.anyhow ?_
        intro _
        exact Triple.skip

theorem upholds_writeBatch (records : List Value) :
    Upholds governs (run.Ready items page []) (writeBatch page records) (fun _ => run.Ready items page [])
      Anyhow := by
  unfold writeBatch
  split
  · exact Triple.skip
  · intro world kept ready
    rcases ready with ⟨quiet, writing, silent⟩
    have writes : Upholds governs (Ledger.Writing quiet page []) (call (.writeBatchColumnar page records) id)
        (fun _ => Ledger.Writing quiet page []) (Ledger.Writing quiet page []) :=
      upholds_call_write (fun _ _ _ wrote => wrote)
    refine (writes.consequence (fun _ holds => holds) (fun _ _ ends => ?_) (fun _ _ => trivial)) world kept
      writing
    exact ⟨quiet, ends, silent⟩

theorem upholds_checkpoint (content : StreamPage) (listed : Except.ok content ∈ items.drop (page - 1)) :
    Upholds governs (run.Ready items page []) (run.checkpoint page content.bookmark)
      (fun _ => run.Ready items (page + 1) []) Anyhow := by
  cases marked : content.bookmark with
  | none => exact Triple.pure (fun _ ready => ready.later)
  | some bookmark =>
      intro world kept ready
      rcases ready with ⟨quiet, writing, silent⟩
      cases quiet with
      | true =>
          refine ((upholds_flushAndPut run.state bookmark).gives (fun _ _ ends => ?_)) world kept writing
          exact ⟨true, ends, nofun⟩
      | false =>
          -- The page carries a bookmark, so the run has no store.
          rcases silent rfl with stateless | unmarked
          · have frame : forall ledger : Ledger, run.Ready items page [] ledger ->
                run.Ready items page [] { ledger with sinkPending := [] } := by
              rintro ledger ⟨quiet, holds, calm⟩
              exact ⟨quiet, ⟨holds.earlier, holds.owed, holds.dlq⟩, calm⟩
            refine Triple.bind _ (upholds_flush frame).anyhow ?_ world kept ⟨false, writing, silent⟩
            intro _
            rw [stateless]
            exact Triple.pure (fun _ ends => ends.1.later)
          · rw [unmarked content listed] at marked
            cases marked

theorem upholds_stepPage (content : StreamPage) (listed : Except.ok content ∈ items.drop (page - 1))
    (cautious : forall outcome, governs page outcome -> run.Cautious items page outcome) (state : LoopState) :
    Upholds governs (run.Ready items page []) (run.stepPage page content state)
      (fun _ => run.Ready items (page + 1) []) Anyhow := by
  refine Triple.bind _ (run.upholds_governBatch items content state.dlqStats cautious) ?_
  intro batch
  refine Triple.bind _ (run.upholds_writeBatch items batch.records) ?_
  intro written
  refine Triple.bind _ (upholds_settle _) ?_
  intro _
  refine Triple.bind _ (run.upholds_checkpoint items content listed) ?_
  intro _
  cases batch.deferred with
  | some error => exact Triple.fails
  | none => exact Triple.skip

/-- The whole loop; what is left to read are the items from the current page
on. -/
theorem upholds_pageLoop
    (cautious : forall page outcome, governs page outcome -> run.Cautious items page outcome)
    (remaining : List (Except FaucetError StreamPage)) (page : Nat)
    (listed : remaining = items.drop page) (state : LoopState) :
    Upholds governs (run.Ready items (page + 1) []) (run.pageLoop remaining (page + 1) state)
      (fun _ => Anyhow) Anyhow := by
  induction remaining generalizing page state with
  | nil =>
      unfold pageLoop
      refine Triple.bind _ (upholds_cancelledAtBoundary run.cancel) ?_
      intro stops
      split
      · exact Triple.pure (fun _ _ => trivial)
      · exact Triple.pure (fun _ _ => trivial)
  | cons item rest ih =>
      unfold pageLoop
      refine Triple.bind _ (upholds_cancelledAtBoundary run.cancel) ?_
      intro stops
      split
      · exact Triple.pure (fun _ _ => trivial)
      · cases item with
        | error error => exact Triple.fails
        | ok content =>
            have here : Except.ok content ∈ items.drop (page + 1 - 1) := by
              rw [Nat.add_sub_cancel, ← listed]
              exact List.mem_cons_self
            have next : rest = items.drop (page + 1) := by
              rw [← List.tail_drop, ← listed]
              rfl
            refine Triple.bind _ (run.upholds_stepPage items content here
              (fun outcome governed => cautious (page + 1) outcome governed) state) ?_
            intro after
            exact ih (page + 1) next after

theorem upholds_runStream
    (cautious : forall page outcome, governs page outcome -> run.Cautious items page outcome) :
    Upholds governs (run.Ready items 1 []) (run.runStream items) (fun _ => Anyhow) Anyhow := by
  refine Triple.bind _ (run.upholds_pageLoop items cautious items 0 rfl _) ?_
  intro state
  refine Triple.bind _ Run.upholds_flush_anyhow ?_
  intro _
  exact Triple.skip

end ColumnarRun

/-! ## The native run -/

namespace NativeRun

variable {governs : Nat -> GovernanceOutcome -> Prop} {page : Nat} (run : NativeRun)

theorem upholds_checkpoint (bookmark : Option Value) (state : LoopState) :
    Upholds governs (Ledger.Writing true page []) (run.checkpoint page bookmark state)
      (fun _ => Ledger.Writing true (page + 1) []) Anyhow := by
  cases bookmark with
  | none => exact Triple.pure (fun _ holds => holds.later)
  | some bookmark =>
      by_cases overwrite : run.overwrite = true
      · simp only [checkpoint, overwrite, if_true]
        exact Triple.pure (fun _ holds => holds.later)
      · simp only [checkpoint, overwrite]
        refine Triple.bind _ (upholds_flushAndPut run.state bookmark) ?_
        intro _
        exact Triple.skip

theorem upholds_stepPage (batch : NativeBatch) (state : LoopState) :
    Upholds governs (Ledger.Writing true page []) (run.stepPage page batch state)
      (fun _ => Ledger.Writing true (page + 1) []) Anyhow := by
  have loads : Upholds governs (Ledger.Writing true page []) (call (.loadNative page state.firstBatch) id)
      (fun _ => Ledger.Writing true page []) (Ledger.Writing true page []) :=
    upholds_call_write (fun _ _ _ wrote => wrote)
  refine Triple.bind _ loads.anyhow ?_
  intro loaded
  refine Triple.bind _ (upholds_settle _) ?_
  intro _
  exact run.upholds_checkpoint batch.bookmark _

theorem upholds_pageLoop (items : List (Except FaucetError NativeBatch)) (page : Nat) (state : LoopState) :
    Upholds governs (Ledger.Writing true page []) (run.pageLoop items page state)
      (fun _ ledger => exists page, ledger.Writing true page []) Anyhow := by
  induction items generalizing page state with
  | nil =>
      unfold pageLoop
      refine Triple.bind _ (upholds_cancelledAtBoundary run.cancel) ?_
      intro stops
      split
      · exact Triple.pure (fun _ holds => ⟨page, holds⟩)
      · exact Triple.pure (fun _ holds => ⟨page, holds⟩)
  | cons item rest ih =>
      unfold pageLoop
      refine Triple.bind _ (upholds_cancelledAtBoundary run.cancel) ?_
      intro stops
      split
      · exact Triple.pure (fun _ holds => ⟨page, holds⟩)
      · cases item with
        | error error => exact Triple.fails
        | ok batch =>
            refine Triple.bind _ (run.upholds_stepPage batch state) ?_
            intro next
            exact ih (page + 1) next

/-- The position held back is stored once everything is flushed. -/
theorem upholds_finish (state : LoopState) (page : Nat) :
    Upholds governs (Ledger.Writing true page []) (run.finish state) (fun _ => Anyhow) Anyhow := by
  have sinkFrame : forall ledger : Ledger, ledger.Writing true page [] ->
      Ledger.Writing true page [] { ledger with sinkPending := [] } :=
    fun _ holds => ⟨holds.earlier, holds.owed, holds.dlq⟩
  refine Triple.bind (fun _ => Ledger.Drained) ((upholds_flush sinkFrame).consequence (fun _ holds => holds)
    (fun _ _ ends => ⟨ends.2, ends.1.owed, ends.1.dlq rfl⟩) (fun _ _ => trivial)) ?_
  intro _
  cases state.pendingBookmark with
  | none => exact Triple.pure (fun _ _ => trivial)
  | some held =>
      refine Triple.bind (fun _ => Ledger.Drained) ?_ (fun _ => Triple.pure (fun _ _ => trivial))
      unfold putPosition
      cases run.state with
      | none => exact Triple.pure (fun _ drained => drained)
      | some key =>
          exact (upholds_putState (fun _ drained => drained) (fun _ drained => (drained.store held.1).2) key
            held.2).anyhow

theorem upholds_runStream (items : List (Except FaucetError NativeBatch)) :
    Upholds governs (Ledger.Writing true 1 []) (run.runStream items) (fun _ => Anyhow) Anyhow := by
  refine Triple.bind _ (run.upholds_pageLoop items 1 _) ?_
  intro final
  dsimp only
  split
  · exact Triple.pure (fun _ _ => trivial)
  · rintro world kept ⟨page, writing⟩
    exact run.upholds_finish final.1 page world kept writing

end NativeRun

/-! ## Every write path -/

/-- The runs of the engine, one kind for each write path, with what their
source yields. -/
inductive Job where
  | stream (run : Run) (items : List (Except FaucetError StreamPage))
  | columnar (run : ColumnarRun) (items : List (Except FaucetError StreamPage))
  | native (run : NativeRun) (items : List (Except FaucetError NativeBatch))

namespace Job

def program : Job -> Engine PipelineResult
  | .stream run items => run.runStream items
  | .columnar run items => run.runStream items
  | .native run items => run.runStream items

/-- What governance may answer for a page: anything, but the envelopes of a
streaming run without a dead-letter queue come out of its own passes. -/
def Governs : Job -> GovernanceOutcome -> Prop
  | .stream run _, outcome => run.options.dlq = none -> run.Governs outcome
  | .columnar _ _, _ => True
  | .native _ _, _ => True

/-- No columnar run stores a position at or after a page from which rows went
to the dead-letter sink. -/
def Cautious : Job -> Nat -> GovernanceOutcome -> Prop
  | .stream _ _, _, _ => True
  | .columnar run items, page, outcome => run.Cautious items page outcome
  | .native _ _, _, _ => True

/-- At every point of every run whose governance answers are cautious, the
stored position is behind what is durable. -/
theorem durable_of_reaches (job : Job) (later : Engine PipelineResult) (ledger : Ledger)
    (reached : Reaches (surroundings (fun page outcome => job.Governs outcome ∧ job.Cautious page outcome))
      job.program Ledger.empty later ledger) : ledger.Durable := by
  cases job with
  | stream run items =>
      exact (run.upholds_runStream (fun absent _ _ governed => governed.1 absent) items).reaches
        Ledger.durable_empty (Ledger.writing_empty _ 1) reached
  | columnar run items =>
      exact (run.upholds_runStream items (fun _ _ governed => governed.2)).reaches Ledger.durable_empty
        ⟨true, Ledger.writing_empty true 1, nofun⟩ reached
  | native run items =>
      exact (run.upholds_runStream items).reaches Ledger.durable_empty (Ledger.writing_empty true 1) reached

end Job

/-! ### A page with quarantined rows, on two paths -/

/-- Surroundings in which everything succeeds at once. -/
def obliging (specs : GovernanceSpecs) : (op : Op) -> Ledger -> op.Answer × Ledger
  | .applyGovernance page records, ledger =>
      match applyGovernance specs sampleState sampleSink records with
      | .ok (outcome, _) => (.ok outcome, ledger.owe page outcome.envelopes)
      | .error error => (.error error, ledger)
  | .writeGoverned page rows, ledger => (.ok (.ofAccepted rows.length), ledger.wrote page)
  | .writeBatchPartial page rows, ledger => (.ok (rows.map (fun _ => .ok ())), ledger.wrote page)
  | .writeBatchIdempotent page rows _ _, ledger => (.ok (.ofAccepted rows.length), ledger.wrote page)
  | .writeBatchColumnar page records, ledger => (.ok records.length, ledger.wrote page)
  | .loadNative page _, ledger => (.ok 0, ledger.wrote page)
  | .flush, ledger => (.ok (), { ledger with sinkPending := [] })
  | .pushFailure page envelope, ledger => ((), ledger.owe page [envelope])
  | .writeDlq page envelopes, ledger =>
      (.ok (.ofAccepted envelopes.length), ledger.deliver page envelopes (.ofAccepted envelopes.length))
  | .flushDlq, ledger => (.ok (), { ledger with dlqPending := [] })
  | .putState page _ _, ledger => (.ok (), ledger.store page)
  | .isCancelled, ledger => (false, ledger)
  | .sleep _, ledger => (true, ledger)
  | .admitPage _ _, ledger => (.ok (), ledger)
  | .batchSize, ledger => ((1000 : Nat), ledger)
  | .lastCommittedToken _, ledger => (.ok none, ledger)
  | .encodeBatch _ _, ledger => (.ok (), ledger)
  | .foldAccount _, ledger => ((), ledger)
  | .getState _, ledger => (.ok none, ledger)
  | .applyStartBookmark _, ledger => (.ok (), ledger)
  | .streamPages, ledger => ([], ledger)
  | .streamNative, ledger => ([], ledger)
  | .beginOverwrite, ledger => (.ok (), ledger)
  | .commitOverwrite, ledger => (.ok (), ledger)
  | .abortOverwrite, ledger => (.ok (), ledger)

theorem obliging_possible (specs : GovernanceSpecs) {governs : Nat -> GovernanceOutcome -> Prop}
    (allowed : forall page outcome, governs page outcome) (op : Op) (ledger : Ledger) :
    surroundings governs op ledger (obliging specs op ledger).1 (obliging specs op ledger).2 := by
  cases op with
  | applyGovernance page records =>
      simp only [obliging]
      cases applyGovernance specs sampleState sampleSink records with
      | ok result => exact ⟨allowed page result.1, rfl⟩
      | error error => rfl
  | _ => rfl

def sampleItems : List (Except FaucetError StreamPage) := [.ok ⟨samplePage, some (.string "5")⟩]

def sampleColumnarRun : ColumnarRun := ⟨sampleSpecs, some sampleDlq, some "orders", false⟩

namespace Job

/-- Where a job ends when everything succeeds. -/
def finished (job : Job) : Except FaucetError PipelineResult × Ledger :=
  execute (obliging sampleSpecs) job.program Ledger.empty

theorem reaches_finished (job : Job) {governs : Nat -> GovernanceOutcome -> Prop}
    (allowed : forall page outcome, governs page outcome) :
    Reaches (surroundings governs) job.program Ledger.empty (.done job.finished.1) job.finished.2 :=
  reaches_execute (obliging sampleSpecs) (obliging_possible sampleSpecs allowed) job.program Ledger.empty

theorem durable_of_reaches_sampleRun :
    (Job.stream sampleRun sampleItems).finished.2.held = some 1 ∧
      (Job.stream sampleRun sampleItems).finished.2.Durable := by
  refine ⟨by decide +kernel, durable_of_reaches _ _ _ (reaches_finished _ ?_)⟩
  exact fun page outcome => ⟨nofun, trivial⟩

/-- The columnar run writes the envelopes of the page and stores its bookmark
with the dead-letter sink never flushed. -/
theorem columnar_stores_before_dlqFlush :
    exists later ledger,
      Reaches (surroundings (fun _ outcome => (Job.columnar sampleColumnarRun sampleItems).Governs outcome))
        (Job.columnar sampleColumnarRun sampleItems).program Ledger.empty later ledger ∧
      ledger.held = some 1 ∧ ledger.dlqPending.map (fun entry => entry.2.recordIndex) = [1, 2, 3] ∧
      ¬ ledger.Durable := by
  have held : (Job.columnar sampleColumnarRun sampleItems).finished.2.held = some 1 := by decide +kernel
  have pending : (Job.columnar sampleColumnarRun sampleItems).finished.2.dlqPending.map
      (fun entry => (entry.1, entry.2.recordIndex)) = [(1, 1), (1, 2), (1, 3)] := by decide +kernel
  refine ⟨_, _, reaches_finished _ (fun _ _ => trivial), held, ?_, fun durable => ?_⟩
  · have indices := congrArg (List.map Prod.snd) pending
    rw [List.map_map] at indices
    exact indices
  · have member : (1, 1) ∈ (Job.columnar sampleColumnarRun sampleItems).finished.2.dlqPending.map
        (fun entry => (entry.1, entry.2.recordIndex)) := by
      rw [pending]
      exact List.mem_cons_self
    rcases List.mem_map.mp member with ⟨entry, waiting, placed⟩
    have later : 1 < entry.1 := durable.dlq 1 held entry waiting
    rw [(Prod.mk.inj placed).1] at later
    exact absurd later (Nat.lt_irrefl 1)

end Job

end Pipeline
end FaucetStream
