import FaucetStream.Pipeline.FastPaths

namespace FaucetStream
namespace Pipeline

open Json
open Library
open Governance
open Delivery
open Engine

/-!
# Resuming a pipeline

`Pipeline::run` reads the stored position before it reads from its source, and
an exactly-once run then looks at the token its sink has committed: when the
token is further than the stored position, the source is anchored at the
bookmark inside the token.

Two positions outlive a run, the stored value and the sink's token, and the
rest of this module follows them.  The rows of an exactly-once page and its
token are committed in one step, and a failed answer leaves open whether the
step was taken.

An overwriting sink is staged around the run, and its position is stored once
the staging is in place.

Which write path a run takes is given; the planner keeps exactly-once runs off
the fast ones.  Legacy state keys, cleanup and the sink's own end of a run are
left out.
-/

/-- The bookmark of an item the source yields. -/
def itemMark : Except FaucetError StreamPage -> Option Value
  | .ok content => content.bookmark
  | .error _ => none

def batchMark : Except FaucetError NativeBatch -> Option Value
  | .ok batch => batch.bookmark
  | .error _ => none

inductive WritePath where
  | stream
  | columnar
  | native
  deriving DecidableEq

/-- A pipeline: what its run is configured with, the path it takes, and how its
source's positions are written. -/
structure PipelineConfig where
  run : Run
  path : WritePath
  /-- Someone else stages the sink and stores the position. -/
  suppressOverwriteLifecycle : Bool
  exactlyOnce_streams : run.options.delivery = .exactlyOnce -> path = .stream
  codec : StateCodec
  /-- `Source::migrate_state`, from a shape version. -/
  migrateState : Nat -> Value -> Except FaucetError Value
  /-- `serde_json::from_str`. -/
  fromStr : String -> Option Value

namespace PipelineConfig

variable (pipeline : PipelineConfig)

/-- Bare positions carry no shape version, so a source that has one refuses to
write them. -/
def checkCodec : Except FaucetError Unit :=
  if pipeline.codec.legacy && decide (0 < pipeline.codec.schema) then
    .error (.stateIncompatible (pipeline.run.options.stateKey.getD "")
      ("a reader that predates versioned state (bare '" ++ pipeline.codec.owner ++ "' bookmarks)")
      ("'" ++ pipeline.codec.owner ++ "' state schema " ++ toString pipeline.codec.schema))
  else .ok ()

/-- Hand a bookmark to the source, when there is one. -/
def handOver : Option Value -> Engine Unit
  | some bookmark => call (.applyStartBookmark bookmark) id
  | none => pure ()

/-- Hand the stored position to the source.  It is unwrapped for an
exactly-once run only. -/
def applyPrior (prior : Value) : Engine Nat :=
  match pipeline.run.options.delivery with
  | .exactlyOnce => do
      handOver (unwrapState prior).1
      pure (unwrapState prior).2
  | .atLeastOnce => do
      call (.applyStartBookmark prior) id
      pure 0

def readPrior (key : String) : Option Value -> Engine Nat
  | none => pure 0
  | some stored => do
      let prior <- Program.ofExcept
        (resolveWith key stored pipeline.codec.owner pipeline.codec.schema pipeline.migrateState)
      pipeline.applyPrior prior

/-- Resume from the state store: the sequence number stored, 0 without one. -/
def resumeFromState : Engine Nat :=
  match pipeline.run.options.stateStore, pipeline.run.options.stateKey with
  | true, some key => do
      Program.ofExcept (Run.validateStateKey key)
      let stored <- call (.getState key) id
      pipeline.readPrior key stored
  | _, _ => pure 0

/-- Whether the run anchors its source at the sink's token. -/
def anchors : Bool :=
  pipeline.run.options.delivery == .exactlyOnce && pipeline.run.sink.supportsIdempotentWrites &&
    pipeline.run.options.replay == some .deterministic

/-- Go on from the token when it is ahead of the stored position. -/
def anchorAt (startSeq : Nat) : Option (Nat × Option Value) -> Engine Nat
  | some (sinkSeq, some bookmark) =>
      if startSeq < sinkSeq then do
        call (.applyStartBookmark bookmark) id
        pure sinkSeq
      else pure startSeq
  | _ => pure startSeq

def anchorAtSink (startSeq : Nat) : Engine Nat :=
  match pipeline.anchors, pipeline.run.options.stateKey with
  | true, some key => do
      let token <- call (.lastCommittedToken key) id
      anchorAt startSeq (token.bind (parseTokenParts pipeline.fromStr))
  | _, _ => pure startSeq

/-- The run with the sequence number it goes on from. -/
def startingAt (startSeq : Nat) : Run :=
  { pipeline.run with options := { pipeline.run.options with startSeq := startSeq } }

/-- The state key, when the run has a store. -/
def storeKey : Option String :=
  if pipeline.run.options.stateStore then pipeline.run.options.stateKey else none

def columnarRun : ColumnarRun where
  specs := pipeline.run.options.specs
  dlq := pipeline.run.options.dlq
  state := pipeline.storeKey
  cancel := pipeline.run.options.cancel

def nativeRun : NativeRun where
  overwrite := pipeline.run.sink.isOverwrite
  state := pipeline.storeKey
  cancel := pipeline.run.options.cancel

/-- The resume block: the sequence number the run goes on from. -/
def resume : Engine Nat := do
  Program.ofExcept pipeline.checkCodec
  let stored <- pipeline.resumeFromState
  pipeline.anchorAtSink stored

def overwriting : Bool :=
  pipeline.run.sink.isOverwrite && !pipeline.suppressOverwriteLifecycle

/-- Store the position a run over an overwriting sink held back.  `marks` are
the bookmarks of its pages, for the page it is of. -/
def putDeferred (marks : List (Option Value)) : Option Value -> Engine Unit
  | some bookmark => putPosition pipeline.storeKey (marks.idxOf (some bookmark) + 1) bookmark
  | none => pure ()

/-- Put the staging in place after a run that succeeded and was not cancelled,
discard it otherwise. -/
def finishOverwrite (marks : List (Option Value)) :
    Except FaucetError PipelineResult -> Engine PipelineResult
  | .ok result => do
      let cancelled <- cancelledAtBoundary pipeline.run.options.cancel
      if cancelled then do
        let _ <- (call .abortOverwrite id).attempt
        pure result
      else do
        call .commitOverwrite id
        pipeline.putDeferred marks result.bookmark
        pure result
  | .error error => do
      let _ <- (call .abortOverwrite id).attempt
      Program.raise error

/-- The value path, staged when its sink overwrites. -/
def staged (marks : List (Option Value)) (body : Engine PipelineResult) :
    Engine PipelineResult :=
  if pipeline.overwriting then do
    call .beginOverwrite id
    let result <- body.attempt
    pipeline.finishOverwrite marks result
  else body

/-- Read from the source and write, on the path of the run. -/
def transfer (startSeq : Nat) : Engine PipelineResult :=
  match pipeline.path with
  | .stream => .ask .streamPages (fun items =>
      pipeline.staged (items.map itemMark) ((pipeline.startingAt startSeq).runStream items))
  | .columnar => .ask .streamPages (fun items => pipeline.columnarRun.runStream items)
  | .native => .ask .streamNative (fun items => pipeline.nativeRun.runStream items)

def program : Engine PipelineResult := do
  let startSeq <- pipeline.resume
  pipeline.transfer startSeq

end PipelineConfig

/-! ## What outlives a run -/

/-- The sink and the state store, with what is known of the run under way. -/
structure Stage where
  /-- The rows the sink holds. -/
  rows : List Value
  /-- The token it has committed. -/
  token : Option String
  /-- The stored value. -/
  state : Option Value
  /-- The bookmark last handed to the source in this run. -/
  handed : Option Value
  /-- The bookmarks of the pages of this run. -/
  marks : List (Option Value)
  /-- The bookmark of the page checkpointed last, with the mode of its run. -/
  checkpoint : Option (DeliveryMode × Value)
  /-- The bookmark of the page committed last with a token. -/
  committed : Option Value

namespace Stage

def empty : Stage := ⟨[], none, none, none, [], none, none⟩

/-- The bookmark of a page of this run, counted from 1. -/
def mark (stage : Stage) (page : Nat) : Option Value := (stage.marks[page - 1]?).join

/-- The rows of a page and its token are committed together. -/
def commit (stage : Stage) (page : Nat) (rows : List GovernedRow) (token : String) : Stage :=
  { stage with
    rows := stage.rows ++ rows.map GovernedRow.record
    token := some token
    committed := stage.mark page }

def store (stage : Stage) (codec : StateCodec) (mode : DeliveryMode) (page : Nat) (value : Value) : Stage :=
  { stage with
    state := some (codec.encode value)
    checkpoint := (stage.mark page).map (fun bookmark => (mode, bookmark)) }

/-- A new process: nothing was handed over or read yet. -/
def restart (stage : Stage) : Stage := { stage with handed := none, marks := [] }

/-- The sequence number of the token. -/
def seq (stage : Stage) : Nat := (stage.token.bind parseToken).getD 0

end Stage

/-- What the surroundings of a run may do.  `governs` says what governance makes
of records, `opens` which pages a source yields after a bookmark was handed to
it, and `opensNative` which batches. -/
structure Surroundings where
  codec : StateCodec
  mode : DeliveryMode
  governs : List Value -> GovernanceOutcome -> Prop
  opens : Option Value -> List (Except FaucetError StreamPage) -> Prop
  opensNative : Option Value -> List (Except FaucetError NativeBatch) -> Prop

/-- The effect of a question on the stage.  A failed commit or store may have
been done all the same; a plain write adds any rows. -/
def Surroundings.environment (around : Surroundings) : Environment Op.Answer Stage
  | .applyGovernance _ records, before, answer, after =>
      (forall outcome, answer = .ok outcome -> around.governs records outcome) ∧ after = before
  | .writeGoverned _ _, before, _, after => exists added, after = { before with rows := before.rows ++ added }
  | .writeBatchPartial _ _, before, _, after =>
      exists added, after = { before with rows := before.rows ++ added }
  | .writeBatchColumnar _ _, before, _, after =>
      exists added, after = { before with rows := before.rows ++ added }
  | .loadNative _ _, before, _, after => exists added, after = { before with rows := before.rows ++ added }
  | .writeBatchIdempotent page rows _ token, before, answer, after =>
      match answer with
      | .ok _ => after = before.commit page rows token
      | .error _ => after = before ∨ after = before.commit page rows token
  | .lastCommittedToken _, before, answer, after =>
      (forall token, answer = .ok token -> token = before.token) ∧ after = before
  | .putState page _ value, before, answer, after =>
      match answer with
      | .ok _ => after = before.store around.codec around.mode page value
      | .error _ => after = before ∨ after = before.store around.codec around.mode page value
  | .getState _, before, answer, after =>
      (forall stored, answer = .ok stored -> stored = before.state) ∧ after = before
  | .applyStartBookmark bookmark, before, answer, after =>
      match answer with
      | .ok _ => after = { before with handed := some bookmark }
      | .error _ => after = before ∨ after = { before with handed := some bookmark }
  | .streamPages, before, (answer : List (Except FaucetError StreamPage)), after =>
      around.opens before.handed answer ∧ after = { before with marks := answer.map itemMark }
  | .streamNative, before, (answer : List (Except FaucetError NativeBatch)), after =>
      around.opensNative before.handed answer ∧ after = { before with marks := answer.map batchMark }
  | .flush, before, _, after => after = before
  | .pushFailure _ _, before, _, after => after = before
  | .writeDlq _ _, before, _, after => after = before
  | .flushDlq, before, _, after => after = before
  | .isCancelled, before, _, after => after = before
  | .sleep _, before, _, after => after = before
  | .admitPage _ _, before, _, after => after = before
  | .batchSize, before, _, after => after = before
  | .encodeBatch _ _, before, _, after => after = before
  | .foldAccount _, before, _, after => after = before
  | .beginOverwrite, before, _, after => after = before
  | .commitOverwrite, before, _, after => exists rows, after = { before with rows := rows }
  | .abortOverwrite, before, _, after => after = before

theorem Surroundings.idle (around : Surroundings) : Idle around.environment where
  sleep := fun unchanged => unchanged
  isCancelled := fun unchanged => unchanged
  batchSize := fun unchanged => unchanged

/-! ## Rules -/

section Rules

variable {around : Surroundings} {invariant : Stage -> Prop} {Result : Type} {pre escape : Stage -> Prop}
  {post : Result -> Stage -> Prop} {page : Nat}

/-- A question that leaves the stage as it is. -/
theorem moves_call_same {op : Op} {read : op.Answer -> Except FaucetError Result}
    (same : forall before answer after, around.environment op before answer after -> after = before) :
    Triple around.environment invariant pre (call op read) (fun _ => pre) pre := by
  apply triple_call
  intro stage answer after kept holds answered
  rw [same stage answer after answered]
  refine ⟨kept, ?_⟩
  cases read answer with
  | ok value => exact holds
  | error error => exact holds

theorem moves_settle (account : PageAccount) :
    Triple around.environment invariant pre (settle account) (fun _ => pre) pre := by
  apply Triple.ask
  intro stage answer after kept holds answered
  have same : after = stage := answered
  rw [same]
  refine ⟨kept, fun _ => ?_⟩
  split
  · exact ⟨kept, holds⟩
  · exact ⟨kept, holds⟩

theorem Stage.seq_commit (stage : Stage) (page : Nat) (rows : List GovernedRow) {token : String} {seq : Nat}
    (parsed : parseToken token = some seq) : (stage.commit page rows token).seq = seq := by
  change (parseToken token).getD 0 = seq
  rw [parsed]
  rfl

/-- Whether the token covers a sequence number. -/
theorem Stage.covers_iff (stage : Stage) {seq : Nat} (positive : 0 < seq) :
    (stage.token.bind parseToken).any (fun known => decide (seq ≤ known)) = true <-> seq ≤ stage.seq := by
  unfold Stage.seq
  cases stage.token.bind parseToken with
  | none =>
      simp only [Option.any_none, Option.getD_none]
      exact ⟨nofun, fun zero => (by omega)⟩
  | some value => simp only [Option.any_some, Option.getD_some, decide_eq_true_eq]

namespace Run

variable (run : Run) {start : Stage}

theorem moves_retrying_same {body : Nat -> Engine Result}
    (once : forall attempt, Triple around.environment invariant pre (body attempt) (fun _ => pre) pre) :
    Triple around.environment invariant pre (run.retrying body) (fun _ => pre) pre :=
  triple_withRetry around.idle.sleep _ _ once (fun _ holds => holds)

theorem moves_flush :
    Triple around.environment invariant pre (run.retrying (fun _ => flush)) (fun _ => pre) pre :=
  run.moves_retrying_same (fun _ => moves_call_same (fun _ _ _ unchanged => unchanged))

/-- Storing a position, from a stage that may be any of two to begin with. -/
theorem moves_persist (configured : run.options.stateStore = true) {key : String}
    (keyed : run.options.stateKey = some key) (value : Value)
    (after : invariant (start.store around.codec around.mode page value)) :
    Triple around.environment invariant (fun stage => stage = start) (run.persist page value)
      (fun _ stage => stage = start.store around.codec around.mode page value) (fun _ => True) := by
  unfold persist
  rw [configured, keyed]
  -- A failed attempt may have stored, so the next one starts from either stage.
  have once : Triple around.environment invariant
      (fun stage => stage = start ∨ stage = start.store around.codec around.mode page value)
      (call (.putState page key value) id)
      (fun _ stage => stage = start.store around.codec around.mode page value)
      (fun stage => stage = start ∨ stage = start.store around.codec around.mode page value) := by
    apply triple_call
    intro stage answer next kept holds answered
    have again : stage.store around.codec around.mode page value =
        start.store around.codec around.mode page value := by
      rcases holds with same | stored
      · rw [same]
      · rw [stored]
        rfl
    cases answer with
    | ok done =>
        have stored : next = stage.store around.codec around.mode page value := answered
        rw [stored, again]
        exact ⟨after, rfl⟩
    | error error =>
        rcases (answered : next = stage ∨ next = stage.store around.codec around.mode page value) with
          same | stored
        · rw [same]
          exact ⟨kept, holds⟩
        · rw [stored, again]
          exact ⟨after, Or.inr rfl⟩
  exact (triple_withRetry around.idle.sleep run.retryPolicy run.options.cancel (fun _ => once)
    (fun _ either => either)).consequence (fun _ same => Or.inl same) (fun _ _ ends => ends)
    (fun _ _ => trivial)

/-- One attempt at an exactly-once write.  Only the first may assume that the
page is not committed; the others ask. -/
theorem moves_eoWriteOnce (rows : List GovernedRow) (scope : String) {token : String} {seq : Nat}
    (parsed : parseToken token = some seq) (behind : start.seq < seq)
    (committed : invariant (start.commit page rows token)) (attempt : Nat) :
    Triple around.environment invariant
      (fun stage => stage = start ∨ 0 < attempt ∧ stage = start.commit page rows token)
      (eoWriteOnce page rows scope token seq attempt)
      (fun _ stage => stage = start.commit page rows token)
      (fun stage => stage = start ∨ stage = start.commit page rows token) := by
  -- What the sink says it has committed tells the two stages apart.
  refine Triple.bind (fun known stage => (stage = start ∨ stage = start.commit page rows token) ∧
    ((known.bind parseToken).any (fun known => decide (seq ≤ known)) = true <->
      stage = start.commit page rows token)) ?_ ?_
  · have apart : start ≠ start.commit page rows token := by
      intro same
      have seqs := congrArg Stage.seq same
      rw [start.seq_commit page rows parsed] at seqs
      omega
    unfold committedToken
    split
    · rename_i later
      apply triple_call
      intro stage answer after kept holds answered
      have same : after = stage := answered.2
      rw [same]
      have either : stage = start ∨ stage = start.commit page rows token := by
        rcases holds with here | there
        · exact Or.inl here
        · exact Or.inr there.2
      cases answer with
      | error error => exact ⟨kept, either⟩
      | ok known =>
          have honest : known = stage.token := answered.1 known rfl
          refine ⟨kept, either, ?_⟩
          rw [honest]
          refine (stage.covers_iff (Nat.zero_lt_of_lt behind)).trans ?_
          rcases either with here | there
          · rw [here]
            exact ⟨fun ahead => by omega, fun same => absurd same apart⟩
          · rw [there, start.seq_commit page rows parsed]
            exact ⟨fun _ => rfl, fun _ => Nat.le_refl seq⟩
    · rename_i first
      refine Triple.pure (fun stage holds => ?_)
      rcases holds with here | there
      · rw [here]
        exact ⟨Or.inl rfl, ⟨nofun, fun same => absurd same apart⟩⟩
      · exact absurd there.1 first
  · intro known
    by_cases covered : (known.bind parseToken).any (fun known => decide (seq ≤ known)) = true
    · rw [if_pos covered]
      exact Triple.pure (fun _ holds => holds.2.mp covered)
    · rw [if_neg covered]
      apply triple_call
      intro stage answer after kept holds answered
      have here : stage = start := by
        rcases holds.1 with here | there
        · exact here
        · exact absurd (holds.2.mpr there) covered
      rw [here] at answered kept
      cases answer with
      | ok report =>
          have next : after = start.commit page rows token := answered
          rw [next]
          exact ⟨committed, rfl⟩
      | error error =>
          rcases (answered : after = start ∨ after = start.commit page rows token) with same | next
          · rw [same]
            exact ⟨kept, Or.inl rfl⟩
          · rw [next]
            exact ⟨committed, Or.inr rfl⟩

/-- The write of an exactly-once page: when it succeeds the page is committed,
and it was committed once. -/
theorem moves_writeOrSkip (committedSeq : Nat) (rows : List GovernedRow) {token : String} {seq : Nat}
    (parsed : parseToken token = some seq) (fresh : committedSeq < seq) (behind : start.seq < seq)
    (committed : invariant (start.commit page rows token)) (account : PageAccount) :
    Triple around.environment invariant (fun stage => stage = start)
      (run.writeOrSkip committedSeq page rows seq token account)
      (fun _ stage => stage = start.commit page rows token) (fun _ => True) := by
  unfold writeOrSkip
  rw [if_neg (Nat.not_le.mpr fresh)]
  refine Triple.bind (fun _ stage => stage = start.commit page rows token) ?_
    (fun _ => Triple.skip)
  refine (triple_withRetry_from around.idle.sleep run.retryPolicy run.options.cancel
    (fun attempt => moves_eoWriteOnce rows run.scope parsed behind committed attempt)
    (fun attempt stage either => ?_)).consequence (fun _ same => Or.inl same) (fun _ _ ends => ends)
    (fun _ _ => trivial)
  rcases either with here | there
  · exact Or.inl here
  · exact Or.inr ⟨Nat.succ_pos attempt, there⟩

/-- The stage after an exactly-once page. -/
def pageDone (around : Surroundings) (start : Stage) (page : Nat) (records : List Value) (bookmark : Value)
    (seq : Nat) : Stage :=
  (start.commit page (governedRows records) (formatTokenWithBookmark seq (some bookmark))).store around.codec
    around.mode page (wrapState (some bookmark) seq)

/-- A page that carries a bookmark: it is committed, then stored. -/
theorem moves_exactlyOncePage (configured : run.options.stateStore = true) {key : String}
    (keyed : run.options.stateKey = some key) (committedSeq : Nat) (records : List Value) (bookmark : Value)
    (account : PageAccount) (state : LoopState) (fresh : committedSeq ≤ state.nextSeq)
    (behind : start.seq ≤ state.nextSeq)
    (committed : invariant (start.commit page (governedRows records)
      (formatTokenWithBookmark (state.nextSeq + 1) (some bookmark))))
    (stored : invariant (pageDone around start page records bookmark (state.nextSeq + 1))) :
    Triple around.environment invariant (fun stage => stage = start)
      (run.exactlyOncePage committedSeq page records bookmark account state)
      (fun next stage => next.nextSeq = state.nextSeq + 1 ∧
        stage = pageDone around start page records bookmark (state.nextSeq + 1))
      (fun _ => True) := by
  unfold exactlyOncePage
  refine Triple.bind _ (run.moves_writeOrSkip committedSeq _ (parseToken_format _ bookmark)
    (Nat.lt_succ_of_le fresh) (Nat.lt_succ_of_le behind) committed account) ?_
  intro written
  refine Triple.bind _ ((moves_settle _).mayFail) ?_
  intro _
  refine Triple.bind (fun _ stage => stage = pageDone around start page records bookmark (state.nextSeq + 1))
    ?_ (fun _ => Triple.pure (fun _ holds => ⟨rfl, holds⟩))
  refine Triple.bind _ (run.moves_flush.mayFail) ?_
  intro _
  exact run.moves_persist configured keyed _ stored

theorem moves_ofExcept {result : Except FaucetError Result} :
    Triple around.environment invariant pre (Program.ofExcept result) (fun value stage =>
      result = .ok value ∧ pre stage) (fun _ => True) := by
  apply Triple.ofExcept
  intro stage holds
  cases result with
  | ok value => exact ⟨rfl, holds⟩
  | error error => trivial

/-- Over a sink with tokens and a source that replays, an exactly-once run uses
the tokens or is refused; it has no dead-letter queue then, and its sink does
not overwrite. -/
theorem usesWatermark_exactlyOnce (mode : run.options.delivery = .exactlyOnce)
    (idempotent : run.sink.supportsIdempotentWrites = true)
    (replays : run.options.replay = some .deterministic) {watermark : Bool}
    (allowed : run.usesWatermark = .ok watermark) :
    watermark = true ∧ run.options.dlq = none ∧ run.sink.isOverwrite = false := by
  unfold usesWatermark at allowed
  have deterministic : run.options.replay.all (fun replay => replay == .deterministic) = true := by
    rw [replays]
    rfl
  simp only [mode, idempotent, deterministic, Bool.and_self, if_true] at allowed
  split at allowed
  · cases allowed
  · split at allowed
    · cases allowed
    · rename_i absent
      split at allowed
      · cases allowed
      · rename_i appends
        refine ⟨(Except.ok.inj allowed).symm, ?_, Bool.eq_false_of_not_eq_true appends⟩
        cases configured : run.options.dlq with
        | none => rfl
        | some dlq =>
            rw [configured] at absent
            exact absurd rfl absent

/-- The sink tells its token, or fails to. -/
theorem moves_lastCommittedToken (scope : String) :
    Triple around.environment invariant (fun stage => stage = start) (call (.lastCommittedToken scope) id)
      (fun token stage => token = start.token ∧ stage = start) (fun _ => True) := by
  apply triple_call
  intro stage answer after kept holds answered
  have unchanged : after = stage := answered.2
  rw [unchanged]
  cases answer with
  | error error => exact ⟨kept, trivial⟩
  | ok token => exact ⟨kept, by rw [← holds]; exact answered.1 token rfl, holds⟩

theorem moves_committedSeq :
    Triple around.environment invariant (fun stage => stage = start) run.committedSeq
      (fun committed stage => committed = start.seq ∧ stage = start) (fun _ => True) := by
  refine Triple.bind _ (moves_lastCommittedToken run.scope) ?_
  intro token
  refine Triple.pure (fun stage holds => ⟨?_, holds.2⟩)
  rw [holds.1]
  rfl

/-- Such a run starts with what the sink has committed. -/
theorem moves_start (mode : run.options.delivery = .exactlyOnce)
    (idempotent : run.sink.supportsIdempotentWrites = true)
    (replays : run.options.replay = some .deterministic) :
    Triple around.environment invariant (fun stage => stage = start) run.start
      (fun branch stage => run.sink.isOverwrite = false ∧ branch = .exactlyOnce start.seq ∧ stage = start)
      (fun _ => True) := by
  refine Triple.bind _ moves_ofExcept ?_
  intro _
  refine Triple.bind _ moves_ofExcept ?_
  rintro watermark stage kept ⟨allowed, _, same⟩
  rcases run.usesWatermark_exactlyOnce mode idempotent replays allowed with ⟨used, absent, appends⟩
  rw [used, absent]
  refine Triple.bind _ run.moves_committedSeq ?_ stage kept same
  intro committed
  refine Triple.bind _ moves_ofExcept ?_
  intro _
  exact Triple.pure (fun _ holds => ⟨appends, by rw [holds.2.1]; rfl, holds.2.2⟩)

/-! The ends of a run only flush. -/

theorem moves_flushOnce : Triple around.environment invariant pre flush (fun _ => pre) pre :=
  moves_call_same (fun _ _ _ unchanged => unchanged)

theorem moves_flushDlq (policy : Option RetryPolicy) (cancel : Bool) :
    Triple around.environment invariant pre (flushDlq policy cancel) (fun _ => pre) pre := by
  have once : Triple around.environment invariant pre (call .flushDlq id) (fun _ => pre) pre :=
    moves_call_same (fun _ _ _ unchanged => unchanged)
  exact (triple_withRetry around.idle.sleep policy cancel (fun _ => once) (fun _ holds => holds)).mapFailure

theorem moves_attempt {program : Engine Unit}
    (moves : Triple around.environment invariant pre program (fun _ => pre) pre) :
    Triple around.environment invariant pre program.attempt (fun _ => pre) pre := by
  refine moves.attempt (fun result stage ended => ?_)
  cases result with
  | ok value => exact ended
  | error error => exact ended

theorem moves_unwind : Triple around.environment invariant pre run.unwind (fun _ => pre) pre := by
  refine Triple.bind _ (moves_attempt ?_) ?_
  · split
    · exact moves_call_same (fun _ _ _ unchanged => unchanged)
    · exact Triple.skip
  · intro _
    refine Triple.bind _ (moves_attempt ?_) ?_
    · split
      · exact Triple.skip
      · exact moves_flushOnce
    · intro _
      exact Triple.skip

theorem moves_finish (cancelled : Bool) :
    Triple around.environment invariant pre (run.finish cancelled) (fun _ => pre) pre := by
  refine Triple.bind (fun _ => pre) ?_ ?_
  · split
    · exact moves_flushDlq none false
    · exact Triple.skip
  · intro _
    split
    · exact Triple.skip
    · exact moves_flushOnce

theorem moves_isCancelled {wired : Bool} :
    Triple around.environment invariant pre
      (if wired then .ask .isCancelled (fun fired => pure fired) else pure false : Engine Bool)
      (fun _ => pre) escape := by
  split
  · apply Triple.ask
    intro stage answer after kept holds answered
    have same : after = stage := answered
    rw [same]
    exact ⟨kept, fun _ => ⟨kept, holds⟩⟩
  · exact Triple.skip

/-- A run from its start to its end, given what its loop does. -/
theorem moves_runStream {started : Branch -> Stage -> Prop} {ended : Stage -> Prop}
    (items : List (Except FaucetError StreamPage))
    (starts : Triple around.environment invariant pre run.start started (fun _ => True))
    (loops : forall branch, Triple around.environment invariant (started branch)
      (run.pageLoop branch items 1 run.initialState) (fun _ => ended) (fun _ => True)) :
    Triple around.environment invariant pre (run.runStream items) (fun _ => ended) (fun _ => True) := by
  refine Triple.bind _ starts ?_
  intro branch
  refine Triple.bind (Ends (fun _ => ended) (fun _ => True)) ((loops branch).attempt (fun _ _ ends => ends)) ?_
  intro result
  cases result with
  | error error =>
      refine Triple.bind _ run.moves_unwind ?_
      intro _
      exact Triple.fails
  | ok final =>
      refine Triple.bind (fun _ => ended) ((run.moves_finish final.2).mayFail) ?_
      intro _
      exact Triple.skip

end Run

namespace PipelineConfig

variable (pipeline : PipelineConfig) {start : Stage}

/-- A run that is refused over an overwriting sink never puts the staging in
place. -/
theorem moves_staged (marks : List (Option Value)) {body : Engine PipelineResult} {ended : Stage -> Prop}
    (runs : Triple around.environment invariant pre body
      (fun _ stage => pipeline.run.sink.isOverwrite = false ∧ ended stage) (fun _ => True)) :
    Triple around.environment invariant pre (pipeline.staged marks body) (fun _ => ended) (fun _ => True) := by
  unfold staged
  split
  · rename_i overwriting
    have overwrites : pipeline.run.sink.isOverwrite = true := (Bool.and_eq_true_iff.mp overwriting).1
    have begins : Triple around.environment invariant pre (call .beginOverwrite id) (fun _ => pre) pre :=
      moves_call_same (fun _ _ _ unchanged => unchanged)
    refine Triple.bind _ (begins.mayFail) ?_
    intro _
    refine Triple.bind (Ends _ (fun _ => True)) (runs.attempt (fun _ _ ends => ends)) ?_
    intro result
    cases result with
    | ok result =>
        rintro stage kept ⟨appends, _⟩
        rw [overwrites] at appends
        cases appends
    | error error =>
        have aborts : Triple around.environment invariant (fun _ => True) (call .abortOverwrite id)
            (fun _ _ => True) (fun _ => True) :=
          moves_call_same (fun _ _ _ unchanged => unchanged)
        refine Triple.bind _ (Run.moves_attempt aborts) ?_
        intro _
        exact Triple.fails
  · exact runs.gives (fun _ _ ends => ends.2)

/-! ### The resume block -/

/-- What a stored value makes a run do: the bookmark handed over and the
sequence number it goes on from. -/
def resumption (key : String) : Option Value -> Except FaucetError (Option Value × Nat)
  | none => .ok (none, 0)
  | some stored =>
      (resolveWith key stored pipeline.codec.owner pipeline.codec.schema pipeline.migrateState).map
        (fun prior => match pipeline.run.options.delivery with
          | .exactlyOnce => unwrapState prior
          | .atLeastOnce => (some prior, 0))

/-- The stage with a bookmark handed over, when there is one. -/
def handing (stage : Stage) (bookmark : Option Value) : Stage :=
  { stage with handed := bookmark.orElse (fun _ => stage.handed) }

theorem moves_applyStartBookmark (bookmark : Value) (handed : invariant (handing start (some bookmark))) :
    Triple around.environment invariant (fun stage => stage = start) (call (.applyStartBookmark bookmark) id)
      (fun _ stage => stage = handing start (some bookmark)) (fun _ => True) := by
  apply triple_call
  intro stage answer after kept holds answered
  rw [holds] at answered kept
  cases answer with
  | ok done =>
      have next : after = handing start (some bookmark) := answered
      rw [next]
      exact ⟨handed, rfl⟩
  | error error =>
      rcases (answered : after = start ∨ after = handing start (some bookmark)) with same | next
      · rw [same]
        exact ⟨kept, trivial⟩
      · rw [next]
        exact ⟨handed, trivial⟩

theorem moves_resumeFromState (configured : pipeline.run.options.stateStore = true) {key : String}
    (keyed : pipeline.run.options.stateKey = some key)
    (handed : forall bookmark, invariant (handing start bookmark)) :
    Triple around.environment invariant (fun stage => stage = start) pipeline.resumeFromState
      (fun seq stage => exists bookmark, pipeline.resumption key start.state = .ok (bookmark, seq) ∧
        stage = handing start bookmark) (fun _ => True) := by
  unfold resumeFromState
  rw [configured, keyed]
  refine Triple.bind _ Run.moves_ofExcept ?_
  intro _
  refine Triple.bind (fun stored stage => stored = start.state ∧ stage = start) ?_ ?_
  · apply triple_call
    intro stage answer after kept holds answered
    have same : after = stage := answered.2
    rw [same]
    cases answer with
    | error error => exact ⟨kept, trivial⟩
    | ok stored => exact ⟨kept, by rw [← holds.2]; exact answered.1 stored rfl, holds.2⟩
  · rintro stored stage kept ⟨same, here⟩
    rw [← same]
    cases stored with
    | none => exact ⟨kept, none, rfl, by rw [here]; rfl⟩
    | some stored =>
        have resolves : Triple around.environment invariant (fun stage => stage = start) (Program.ofExcept
            (resolveWith key stored pipeline.codec.owner pipeline.codec.schema pipeline.migrateState)) _ _ :=
          Run.moves_ofExcept
        refine Triple.bind _ resolves ?_ stage kept here
        rintro prior next still ⟨resolved, there⟩
        simp only [resumption, resolved, Except.map]
        unfold applyPrior
        cases pipeline.run.options.delivery with
        | atLeastOnce =>
            refine Triple.bind _ (moves_applyStartBookmark prior (handed (some prior))) ?_ next still there
            intro _
            exact Triple.pure (fun _ holds => ⟨some prior, rfl, holds⟩)
        | exactlyOnce =>
            dsimp only
            cases bookmark : (unwrapState prior).1 with
            | none =>
                refine ⟨still, none, ?_, by rw [there]; rfl⟩
                rw [← bookmark]
            | some value =>
                refine Triple.bind _ (moves_applyStartBookmark value (handed (some value))) ?_ next still there
                intro _
                refine Triple.pure (fun _ holds => ⟨some value, ?_, holds⟩)
                rw [← bookmark]

/-- The sequence number and the bookmark a token makes of a stored position. -/
def anchored (startSeq : Nat) (token : Option String) : Nat × Option Value :=
  if pipeline.anchors then
    match token.bind (parseTokenParts pipeline.fromStr) with
    | some (sinkSeq, some bookmark) => if startSeq < sinkSeq then (sinkSeq, some bookmark) else (startSeq, none)
    | _ => (startSeq, none)
  else (startSeq, none)

theorem moves_anchorAtSink {key : String} (keyed : pipeline.run.options.stateKey = some key) (startSeq : Nat)
    (handed : forall bookmark, invariant (handing start bookmark)) :
    Triple around.environment invariant (fun stage => stage = start) (pipeline.anchorAtSink startSeq)
      (fun seq stage => seq = (pipeline.anchored startSeq start.token).1 ∧
        stage = handing start (pipeline.anchored startSeq start.token).2) (fun _ => True) := by
  unfold anchorAtSink anchored
  rw [keyed]
  cases pipeline.anchors with
  | false => exact Triple.pure (fun _ here => ⟨rfl, here⟩)
  | true =>
      refine Triple.bind _ (Run.moves_lastCommittedToken key) ?_
      rintro token stage kept ⟨same, here⟩
      rw [same]
      cases parsed : start.token.bind (parseTokenParts pipeline.fromStr) with
      | none => exact ⟨kept, rfl, here⟩
      | some parts =>
          rcases parts with ⟨sinkSeq, bookmark⟩
          cases bookmark with
          | none => exact ⟨kept, rfl, here⟩
          | some bookmark =>
              by_cases ahead : startSeq < sinkSeq
              · simp only [anchorAt, ahead, if_true]
                refine Triple.bind _ (moves_applyStartBookmark bookmark (handed (some bookmark))) ?_ stage kept
                  here
                intro _
                exact Triple.pure (fun _ holds => ⟨rfl, holds⟩)
              · simp only [anchorAt, ahead, if_false, if_true]
                exact ⟨kept, rfl, here⟩

/-- The resume block as a whole. -/
theorem moves_resume (configured : pipeline.run.options.stateStore = true) {key : String}
    (keyed : pipeline.run.options.stateKey = some key)
    (handed : forall bookmark anchor, invariant (handing (handing start bookmark) anchor)) :
    Triple around.environment invariant (fun stage => stage = start) pipeline.resume
      (fun seq stage => pipeline.checkCodec = .ok () ∧ exists bookmark stored,
        pipeline.resumption key start.state = .ok (bookmark, stored) ∧
          seq = (pipeline.anchored stored start.token).1 ∧
          stage = handing (handing start bookmark) (pipeline.anchored stored start.token).2)
      (fun _ => True) := by
  refine Triple.bind _ Run.moves_ofExcept ?_
  rintro ⟨⟩ stage kept ⟨checked, here⟩
  refine Triple.bind _ (pipeline.moves_resumeFromState configured keyed (fun bookmark => handed bookmark none)) ?_
    stage kept here
  rintro stored next still ⟨bookmark, resumed, there⟩
  rw [there] at still ⊢
  refine (pipeline.moves_anchorAtSink keyed stored (handed bookmark)).gives (fun _ _ ends =>
    ⟨checked, bookmark, stored, resumed, ends⟩) _ still rfl

/-- A run that writes bare positions reads positions without a version. -/
theorem schema_of_legacy (checked : pipeline.checkCodec = .ok ()) (legacy : pipeline.codec.legacy = true) :
    pipeline.codec.schema = 0 := by
  unfold checkCodec at checked
  rw [legacy] at checked
  by_contra versioned
  rw [decide_eq_true (Nat.pos_of_ne_zero versioned)] at checked
  cases checked

end PipelineConfig
end Rules

end Pipeline
end FaucetStream
