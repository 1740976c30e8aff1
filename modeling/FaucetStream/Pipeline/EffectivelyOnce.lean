import FaucetStream.Pipeline.Resume

namespace FaucetStream
namespace Pipeline

open Json
open Library
open Governance
open Delivery
open Engine

/-!
# Effectively once

A source that is an immutable log yields, after a bookmark was handed to it,
exactly the records that follow it, cut into pages in any way.  A run may stop
between any two of its questions, and the next one starts over with what the
sink and the state store hold.

The invariant ties the three together: the sink holds the log up to some
record, its token carries a bookmark of that record, and the stored position is
either that of the token or of an earlier page.
-/

/-- An immutable log with its bookmarks. -/
structure LogSource where
  log : List Value
  /-- The bookmarks the source gives out. -/
  issued : Value -> Prop
  /-- How many records come before a bookmark. -/
  locate : Value -> Nat
  /-- A null bookmark stands for no bookmark. -/
  null_start : issued .null -> locate .null = 0

/-- What the source may yield from a position on. -/
inductive LogSource.Follows (source : LogSource) : Nat -> List (Except FaucetError StreamPage) -> Prop
  | done (position : Nat) : Follows source position []
  | broken (position : Nat) (error : FaucetError) (rest : List (Except FaucetError StreamPage)) :
      Follows source position (.error error :: rest)
  | page {position next : Nat} {bookmark : Value} {rest : List (Except FaucetError StreamPage)}
      (forward : position ≤ next) (within : next ≤ source.log.length) (issued : source.issued bookmark)
      (located : source.locate bookmark = next) (more : Follows source next rest) :
      Follows source position
        (.ok ⟨(source.log.drop position).take (next - position), some bookmark⟩ :: rest)

/-- Where the source stands after the last bookmark handed to it. -/
def LogSource.position (source : LogSource) (handed : Option Value) : Nat := handed.elim 0 source.locate

/-- What the runs of one pipeline have in common. -/
structure Deployment where
  source : LogSource
  key : String
  owner : String
  schema : Nat
  schema_small : schema < 2 ^ 32
  fromStr : String -> Option Value
  /-- A bookmark is read back from its JSON text.  This leaves out bookmarks
  with floats that `serde_json` does not read back to the last bit. -/
  reads : forall bookmark, source.issued bookmark -> fromStr bookmark.text = some bookmark

namespace Deployment

variable (deployment : Deployment)

/-- An exactly-once pipeline of the deployment: its sink commits tokens, its
source replays, it has a state store, and no governance pass is configured. -/
structure Runs (pipeline : PipelineConfig) : Prop where
  delivery : pipeline.run.options.delivery = .exactlyOnce
  idempotent : pipeline.run.sink.supportsIdempotentWrites = true
  replays : pipeline.run.options.replay = some .deterministic
  configured : pipeline.run.options.stateStore = true
  keyed : pipeline.run.options.stateKey = some deployment.key
  owner : pipeline.codec.owner = deployment.owner
  schema : pipeline.codec.schema = deployment.schema
  fromStr : pipeline.fromStr = deployment.fromStr
  ungoverned : cleared pipeline.run.options.specs = true

/-- The surroundings of a run: the pipeline's own governance, and the log. -/
def around (pipeline : PipelineConfig) : Surroundings where
  codec := pipeline.codec
  mode := .exactlyOnce
  governs := fun records outcome => exists state sink next,
    applyGovernance pipeline.run.options.specs state sink records = .ok (outcome, next)
  opens := fun handed items => deployment.source.Follows (deployment.source.position handed) items
  opensNative := fun _ _ => True

/-- The stages of all histories of runs, each stopped anywhere. -/
inductive Visits : Stage -> Prop
  | first : Visits Stage.empty
  | run {pipeline : PipelineConfig} {before after : Stage} {later : Engine PipelineResult}
      (runs : deployment.Runs pipeline) (visited : Visits before)
      (reached : Reaches (deployment.around pipeline).environment pipeline.program before.restart later after) :
      Visits after

end Deployment

/-- Without a pass governance returns the page it was given. -/
theorem applyGovernance_of_cleared {specs : GovernanceSpecs} (clear : cleared specs = true)
    {state next : GovernanceState} {sink : SinkSchema} {records : List Value} {outcome : GovernanceOutcome}
    (governed : applyGovernance specs state sink records = .ok (outcome, next)) :
    outcome = ⟨records, [], none⟩ := by
  unfold cleared at clear
  simp only [Bool.and_eq_true, Option.isNone_iff_eq_none] at clear
  rcases clear with ⟨⟨⟨masking, quality⟩, contract⟩, drift⟩
  simp only [applyGovernance, GovernanceSpecs.masked, qualityPass, contractPass, driftPass, masking, quality,
    contract, drift, deferAbort] at governed
  cases governed
  rfl

theorem governedRows_records (records : List Value) : (governedRows records).map GovernedRow.record = records := by
  rw [governedRows, List.map_map]
  exact List.zipIdx_map_fst 0 records

namespace Deployment

variable (deployment : Deployment)

/-! ## The invariant -/

/-- What the token says: nothing was committed, or the log up to the bookmark
in it. -/
def Committed (seq position : Nat) (token : Option String) : Prop :=
  token = none ∧ seq = 0 ∧ position = 0 ∨
    0 < seq ∧ exists bookmark, deployment.source.issued bookmark ∧
      deployment.source.locate bookmark = position ∧ token = some (formatTokenWithBookmark seq (some bookmark))

/-- What the state store says: nothing, or the position of the token's page or
of an earlier one. -/
def Stored (seq position : Nat) (state : Option Value) : Prop :=
  state = none ∨ exists bookmark stored legacy, deployment.source.issued bookmark ∧
    (legacy = true -> deployment.schema = 0) ∧
    state = some (encodeForWrite deployment.owner deployment.schema (wrapState (some bookmark) stored) legacy) ∧
    stored ≤ seq ∧ (stored = seq -> deployment.source.locate bookmark = position)

structure Sound (seq position : Nat) (stage : Stage) : Prop where
  rows : stage.rows = deployment.source.log.take position
  token : deployment.Committed seq position stage.token
  state : deployment.Stored seq position stage.state

def Consistent (stage : Stage) : Prop := exists seq position, deployment.Sound seq position stage

variable {deployment} {pipeline : PipelineConfig} {seq position : Nat} {stage : Stage}

theorem Committed.seq_eq {token : Option String} (committed : deployment.Committed seq position token) :
    (token.bind parseToken).getD 0 = seq := by
  rcases committed with ⟨absent, zero, _⟩ | ⟨_, bookmark, _, _, present⟩
  · rw [absent, zero]
    rfl
  · rw [present, Option.bind_some, parseToken_format]
    rfl

theorem Sound.handing (sound : deployment.Sound seq position stage) (bookmark : Option Value) :
    deployment.Sound seq position (PipelineConfig.handing stage bookmark) :=
  ⟨sound.rows, sound.token, sound.state⟩

/-- Committing the next page of the log. -/
theorem Sound.commit (sound : deployment.Sound seq position stage) {next : Nat} (forward : position ≤ next)
    {bookmark : Value} (issued : deployment.source.issued bookmark)
    (located : deployment.source.locate bookmark = next) (page : Nat) :
    deployment.Sound (seq + 1) next
      (stage.commit page (governedRows ((deployment.source.log.drop position).take (next - position)))
        (formatTokenWithBookmark (seq + 1) (some bookmark))) := by
  refine ⟨?_, Or.inr ⟨Nat.succ_pos seq, bookmark, issued, located, rfl⟩, ?_⟩
  · change stage.rows ++ (governedRows _).map GovernedRow.record = _
    rw [governedRows_records, sound.rows, ← List.take_add, Nat.add_sub_cancel' forward]
  · rcases sound.state with absent | ⟨earlier, stored, legacy, given, unversioned, encoded, behind, _⟩
    · exact Or.inl absent
    · exact Or.inr ⟨earlier, stored, legacy, given, unversioned, encoded, Nat.le_succ_of_le behind,
        fun same => by omega⟩

/-- Storing the position of the page just committed. -/
theorem Sound.store (runs : deployment.Runs pipeline) (checked : pipeline.checkCodec = .ok ())
    (sound : deployment.Sound seq position stage) {bookmark : Value} (issued : deployment.source.issued bookmark)
    (located : deployment.source.locate bookmark = position) (mode : DeliveryMode) (page : Nat) :
    deployment.Sound seq position
      (stage.store pipeline.codec mode page (wrapState (some bookmark) seq)) := by
  refine ⟨sound.rows, sound.token, Or.inr ⟨bookmark, seq, pipeline.codec.legacy, issued, ?_, ?_, Nat.le_refl seq,
    fun _ => located⟩⟩
  · intro legacy
    rw [← runs.schema]
    exact pipeline.schema_of_legacy checked legacy
  · change some (pipeline.codec.encode _) = _
    rw [StateCodec.encode, runs.owner, runs.schema]

/-! ## Resuming -/

/-- A run goes on from what the sink has committed: it takes the sequence
number of the token, and its source stands behind the rows of the sink. -/
theorem Sound.resumed (runs : deployment.Runs pipeline) (sound : deployment.Sound seq position stage)
    (fresh : stage.handed = none) {bookmark : Option Value} {stored : Nat}
    (resumed : pipeline.resumption deployment.key stage.state = .ok (bookmark, stored)) :
    (pipeline.anchored stored stage.token).1 = seq ∧
      deployment.source.position (PipelineConfig.handing (PipelineConfig.handing stage bookmark)
        (pipeline.anchored stored stage.token).2).handed = position := by
  -- The stored position is that of the token or of an earlier page.
  have prior : stored ≤ seq ∧ (stored = seq ->
      deployment.source.position (PipelineConfig.handing stage bookmark).handed = position) := by
    rcases sound.state with absent | ⟨mark, number, legacy, issued, unversioned, encoded, behind, same⟩
    · rw [absent] at resumed
      cases resumed
      refine ⟨Nat.zero_le seq, fun zero => ?_⟩
      rcases sound.token with ⟨_, _, start⟩ | ⟨positive, _⟩
      · rw [start]
        change deployment.source.position stage.handed = 0
        rw [fresh]
        rfl
      · omega
    · have read := resolveWith_encode ⟨deployment.owner, deployment.schema, legacy⟩ deployment.key
        (wrapState (some mark) number) pipeline.migrateState deployment.schema_small
        (fun bare => ⟨unversioned bare, parse_wrapState _ _⟩)
      rw [encoded] at resumed
      simp only [PipelineConfig.resumption, runs.owner, runs.schema, runs.delivery] at resumed
      rw [StateCodec.encode] at read
      rw [read] at resumed
      simp only [Except.map, unwrapState_wrapState, Except.ok.injEq, Prod.mk.injEq] at resumed
      rw [← resumed.2]
      refine ⟨behind, fun equal => ?_⟩
      rw [← same equal, ← resumed.1]
      change deployment.source.position ((if mark.isNull then none else some mark).orElse
        (fun _ => stage.handed)) = _
      rw [fresh]
      cases null : mark.isNull with
      | false => rfl
      | true =>
          -- A null bookmark is not handed over, and stands for the start.
          have nothing : mark = .null := by
            cases mark with
            | null => rfl
            | _ => cases null
          rw [nothing] at issued ⊢
          exact (deployment.source.null_start issued).symm
  have anchors : pipeline.anchors = true := by
    rw [PipelineConfig.anchors, runs.delivery, runs.idempotent, runs.replays]
    rfl
  unfold PipelineConfig.anchored
  rw [if_pos anchors]
  rcases sound.token with ⟨absent, zero, start⟩ | ⟨positive, mark, issued, located, present⟩
  · rw [absent]
    have equal : stored = seq := by omega
    exact ⟨equal, prior.2 equal⟩
  · rw [present, Option.bind_some, parseTokenParts_format, runs.fromStr, deployment.reads mark issued]
    simp only
    by_cases ahead : stored < seq
    · rw [if_pos ahead]
      exact ⟨rfl, located⟩
    · rw [if_neg ahead]
      have equal : stored = seq := by omega
      exact ⟨equal, prior.2 equal⟩

/-! ## A run -/

theorem Sound.consistent (sound : deployment.Sound seq position stage) : deployment.Consistent stage :=
  ⟨seq, position, sound⟩

section Run

variable (run : Run) {page : Nat} {start : Stage}

/-- One page of the log. -/
theorem consistent_stepPage (runs : deployment.Runs pipeline) (checked : pipeline.checkCodec = .ok ())
    (configured : run.options.stateStore = true) (keyed : run.options.stateKey = some deployment.key)
    (sound : deployment.Sound seq position start) {next : Nat} (forward : position ≤ next) {bookmark : Value}
    (issued : deployment.source.issued bookmark) (located : deployment.source.locate bookmark = next)
    (committedSeq : Nat) (fresh : committedSeq ≤ seq) (state : LoopState) (same : state.nextSeq = seq) :
    Triple (deployment.around pipeline).environment deployment.Consistent (fun stage => stage = start)
      (run.stepPage (.exactlyOnce committedSeq) page
        ⟨(deployment.source.log.drop position).take (next - position), some bookmark⟩ state)
      (fun after stage => after.nextSeq = seq + 1 ∧ deployment.Sound (seq + 1) next stage) (fun _ => True) := by
  have committed := sound.commit forward issued located page
  intro stage kept here
  refine ⟨kept, ?_⟩
  rintro answer after ⟨governs, unchanged⟩
  rw [unchanged]
  cases answer with
  | error error => exact ⟨kept, trivial⟩
  | ok outcome =>
      rcases governs outcome rfl with ⟨governance, sink, rest, governed⟩
      rw [applyGovernance_of_cleared runs.ungoverned governed]
      have behind : start.seq ≤ state.nextSeq := by
        rw [same]
        exact Nat.le_of_eq sound.token.seq_eq
      have stored := committed.store runs checked issued located .exactlyOnce page
      refine (Run.moves_exactlyOncePage run configured keyed committedSeq _ bookmark _ state
        (by rw [same]; exact fresh) behind ?_ ?_).gives ?_
        stage kept here
      · rw [same]
        exact committed.consistent
      · rw [same]
        exact stored.consistent
      · rintro after last ⟨advanced, reached⟩
        rw [same] at advanced reached
        rw [reached]
        exact ⟨advanced, stored⟩

/-- The whole loop, by induction on what the source yields. -/
theorem consistent_pageLoop (runs : deployment.Runs pipeline) (checked : pipeline.checkCodec = .ok ())
    (configured : run.options.stateStore = true) (keyed : run.options.stateKey = some deployment.key)
    (committedSeq : Nat) (items : List (Except FaucetError StreamPage)) (page : Nat) (state : LoopState)
    (start : Stage) (sound : deployment.Sound seq position start)
    (follows : deployment.source.Follows position items) (fresh : committedSeq ≤ seq)
    (same : state.nextSeq = seq) :
    Triple (deployment.around pipeline).environment deployment.Consistent (fun stage => stage = start)
      (run.pageLoop (.exactlyOnce committedSeq) items page state) (fun _ _ => True) (fun _ => True) := by
  induction follows generalizing seq page state start with
  | done position =>
      unfold Run.pageLoop
      refine Triple.bind _ Run.moves_isCancelled ?_
      intro stops
      split
      · exact Triple.pure (fun _ _ => trivial)
      · refine Triple.bind _ Run.moves_isCancelled ?_
        intro drained
        exact Triple.pure (fun _ _ => trivial)
  | broken position error rest =>
      unfold Run.pageLoop
      refine Triple.bind _ Run.moves_isCancelled ?_
      intro stops
      split
      · exact Triple.pure (fun _ _ => trivial)
      · exact Triple.fails
  | page forward within issued located more ih =>
      unfold Run.pageLoop
      refine Triple.bind _ Run.moves_isCancelled ?_
      intro stops
      split
      · exact Triple.pure (fun _ _ => trivial)
      · dsimp only
        rw [if_neg (by simp)]
        refine Triple.bind _ (consistent_stepPage run runs checked configured keyed sound forward issued located
          committedSeq fresh state same) ?_
        rintro after stage kept ⟨advanced, reached⟩
        exact ih (page + 1) after stage reached (Nat.le_succ_of_le fresh) advanced stage kept rfl

end Run

/-- A run leaves the stage consistent wherever it stops. -/
theorem consistent_program (runs : deployment.Runs pipeline) (start : Stage) (fresh : start.handed = none)
    (sound : deployment.Sound seq position start) :
    Triple (deployment.around pipeline).environment deployment.Consistent (fun stage => stage = start)
      pipeline.program (fun _ _ => True) (fun _ => True) := by
  have streams : pipeline.path = .stream := pipeline.exactlyOnce_streams runs.delivery
  refine Triple.bind (fun startSeq stage => pipeline.checkCodec = .ok () ∧ startSeq = seq ∧
    deployment.Sound seq position stage ∧ deployment.source.position stage.handed = position) ?_ ?_
  · refine (pipeline.moves_resume runs.configured runs.keyed
      (fun bookmark anchor => ((sound.handing bookmark).handing anchor).consistent)).gives ?_
    rintro startSeq stage ⟨checked, bookmark, stored, resumed, anchored, reached⟩
    have resumption := sound.resumed runs fresh resumed
    rw [reached]
    exact ⟨checked, anchored.trans resumption.1, (sound.handing bookmark).handing _, resumption.2⟩
  · rintro startSeq stage kept ⟨checked, numbered, here, stands⟩
    unfold PipelineConfig.transfer
    rw [streams]
    refine ⟨kept, ?_⟩
    rintro items opened ⟨follows, marked⟩
    have whole : deployment.Sound seq position opened := by
      rw [marked]
      exact ⟨here.rows, here.token, here.state⟩
    have continues : deployment.source.Follows position items := by
      rw [← stands]
      exact follows
    refine pipeline.moves_staged _ ((pipeline.startingAt startSeq).moves_runStream items
      (Run.moves_start _ runs.delivery runs.idempotent runs.replays) ?_) opened whole.consistent rfl
    rintro branch next still ⟨appends, chosen, same⟩
    rw [chosen]
    exact (consistent_pageLoop (pipeline.startingAt startSeq) runs checked runs.configured runs.keyed opened.seq
      items 1 (pipeline.startingAt startSeq).initialState opened whole continues
      (Nat.le_of_eq whole.token.seq_eq) numbered).gives (fun _ _ _ => ⟨appends, trivial⟩) next still same

theorem Visits.consistent (visited : deployment.Visits stage) : deployment.Consistent stage := by
  induction visited with
  | first => exact ⟨0, 0, rfl, Or.inl ⟨rfl, rfl, rfl⟩, Or.inl rfl⟩
  | @run pipeline before after later runs visited reached ih =>
      rcases ih with ⟨seq, position, sound⟩
      have restarted : deployment.Sound seq position before.restart := ⟨sound.rows, sound.token, sound.state⟩
      exact (consistent_program runs before.restart rfl restarted).reaches restarted.consistent rfl reached

end Deployment

/-- In every history of runs, each stopped anywhere, the sink holds a prefix of
the log at every moment. -/
theorem rows_prefix_of_visits (deployment : Deployment) (stage : Stage) (visited : deployment.Visits stage) :
    stage.rows <+: deployment.source.log := by
  rcases visited.consistent with ⟨seq, position, sound⟩
  rw [sound.rows]
  exact List.take_prefix position deployment.source.log

/-! ### A run that ends between its commit and its checkpoint -/

def sampleLogSource : LogSource where
  log := [.string "a", .string "b", .string "c"]
  issued := fun bookmark => bookmark = .string "2" ∨ bookmark = .string "3"
  locate := fun bookmark => if bookmark = .string "2" then 2 else 3
  null_start := fun given => by
    rcases given with impossible | impossible
    · cases impossible
    · cases impossible

def sampleDeployment : Deployment where
  source := sampleLogSource
  key := "orders"
  owner := "log"
  schema := 0
  schema_small := by decide
  fromStr := fun text =>
    if text = (Value.string "2").text then some (.string "2")
    else if text = (Value.string "3").text then some (.string "3")
    else none
  reads := fun bookmark given => by
    rcases given with rfl | rfl
    · decide +kernel
    · decide +kernel

def sampleExactlyOnce : PipelineConfig where
  run :=
    { options :=
        { sampleRun.options with
          specs := { sampleSpecs with masking := none, quality := none, contract := none, schemaDrift := none }
          dlq := none
          delivery := .exactlyOnce
          replay := some .deterministic }
      sink := ⟨"sink", true, false, false, false⟩ }
  path := .stream
  suppressOverwriteLifecycle := false
  exactlyOnce_streams := fun _ => rfl
  codec := ⟨"log", 0, false⟩
  migrateState := fun _ bookmark => .ok bookmark
  fromStr := sampleDeployment.fromStr

theorem sampleExactlyOnce_runs : sampleDeployment.Runs sampleExactlyOnce where
  delivery := rfl
  idempotent := rfl
  replays := rfl
  configured := rfl
  keyed := rfl
  owner := rfl
  schema := rfl
  fromStr := rfl
  ungoverned := rfl

/-- The pages from the start of the log, and those after its second record. -/
def samplePages (handed : Option Value) : List (Except FaucetError StreamPage) :=
  if handed = none then [.ok ⟨[.string "a", .string "b"], some (.string "2")⟩]
  else if handed = some (.string "2") then [.ok ⟨[.string "c"], some (.string "3")⟩]
  else []

theorem samplePages_follow (handed : Option Value) :
    sampleLogSource.Follows (sampleLogSource.position handed) (samplePages handed) := by
  unfold samplePages
  split
  · rename_i fresh
    rw [fresh]
    exact @LogSource.Follows.page sampleLogSource 0 2 (.string "2") [] (by decide) (by decide) (Or.inl rfl)
      (by decide) (.done 2)
  · split
    · rename_i second
      rw [second]
      exact @LogSource.Follows.page sampleLogSource 2 3 (.string "3") [] (by decide) (by decide) (Or.inr rfl)
        (by decide) (.done 3)
    · exact .done _

/-- Everything succeeds, apart from the store when it is down. -/
def sampleAnswers (storeDown : Bool) : (op : Op) -> Stage -> op.Answer × Stage
  | .applyGovernance _ records, stage =>
      ((applyGovernance sampleExactlyOnce.run.options.specs sampleState sampleSink records).map Prod.fst, stage)
  | .writeGoverned _ rows, stage => (.ok (.ofAccepted rows.length), { stage with rows := stage.rows ++ [] })
  | .writeBatchPartial _ rows, stage =>
      (.ok (rows.map (fun _ => .ok ())), { stage with rows := stage.rows ++ [] })
  | .writeBatchColumnar _ records, stage => (.ok records.length, { stage with rows := stage.rows ++ [] })
  | .loadNative _ _, stage => (.ok 0, { stage with rows := stage.rows ++ [] })
  | .writeBatchIdempotent page rows _ token, stage =>
      (.ok (.ofAccepted rows.length), stage.commit page rows token)
  | .lastCommittedToken _, stage => (.ok stage.token, stage)
  | .putState page _ value, stage =>
      if storeDown then (.error (.state "unreachable"), stage)
      else (.ok (), stage.store sampleExactlyOnce.codec .exactlyOnce page value)
  | .getState _, stage => (.ok stage.state, stage)
  | .applyStartBookmark bookmark, stage => (.ok (), { stage with handed := some bookmark })
  | .streamPages, stage =>
      (samplePages stage.handed, { stage with marks := (samplePages stage.handed).map itemMark })
  | .streamNative, stage => ([], { stage with marks := [] })
  | .flush, stage => (.ok (), stage)
  | .pushFailure _ _, stage => ((), stage)
  | .writeDlq _ envelopes, stage => (.ok (.ofAccepted envelopes.length), stage)
  | .flushDlq, stage => (.ok (), stage)
  | .isCancelled, stage => (false, stage)
  | .sleep _, stage => (true, stage)
  | .admitPage _ _, stage => (.ok (), stage)
  | .batchSize, stage => ((1 : Nat), stage)
  | .encodeBatch _ _, stage => (.ok (), stage)
  | .foldAccount _, stage => ((), stage)
  | .beginOverwrite, stage => (.ok (), stage)
  | .commitOverwrite, stage => (.ok (), { stage with rows := stage.rows })
  | .abortOverwrite, stage => (.ok (), stage)

theorem sampleAnswers_possible (storeDown : Bool) (op : Op) (stage : Stage) :
    (sampleDeployment.around sampleExactlyOnce).environment op stage (sampleAnswers storeDown op stage).1
      (sampleAnswers storeDown op stage).2 := by
  cases op with
  | applyGovernance page records =>
      refine ⟨fun outcome answered => ?_, rfl⟩
      simp only [sampleAnswers] at answered
      cases governed : applyGovernance sampleExactlyOnce.run.options.specs sampleState sampleSink records with
      | error error =>
          rw [governed] at answered
          cases answered
      | ok result =>
          rw [governed] at answered
          cases answered
          exact ⟨sampleState, sampleSink, result.2, governed⟩
  | writeGoverned page rows => exact ⟨[], rfl⟩
  | writeBatchPartial page rows => exact ⟨[], rfl⟩
  | writeBatchColumnar page records => exact ⟨[], rfl⟩
  | loadNative page first => exact ⟨[], rfl⟩
  | lastCommittedToken scope => exact ⟨fun _ answered => (Except.ok.inj answered).symm, rfl⟩
  | getState key => exact ⟨fun _ answered => (Except.ok.inj answered).symm, rfl⟩
  | putState page key value =>
      cases storeDown with
      | true => exact Or.inl rfl
      | false => rfl
  | streamPages => exact ⟨samplePages_follow stage.handed, rfl⟩
  | streamNative => exact ⟨trivial, rfl⟩
  | commitOverwrite => exact ⟨stage.rows, rfl⟩
  | _ => rfl

/-- The stage after a run from a stage. -/
def sampleStage (storeDown : Bool) (stage : Stage) : Stage :=
  (execute (sampleAnswers storeDown) sampleExactlyOnce.program stage.restart).2

theorem visits_sampleStage (storeDown : Bool) {stage : Stage} (visited : sampleDeployment.Visits stage) :
    sampleDeployment.Visits (sampleStage storeDown stage) :=
  .run sampleExactlyOnce_runs visited
    (reaches_execute (sampleAnswers storeDown) (sampleAnswers_possible storeDown) sampleExactlyOnce.program
      stage.restart)

/-- The first run commits a page it cannot checkpoint; the second goes on
behind it. -/
theorem rows_prefix_of_visits_sampleStage :
    (sampleStage true Stage.empty).rows = [.string "a", .string "b"] ∧
      (sampleStage true Stage.empty).state = none ∧
      (sampleStage false (sampleStage true Stage.empty)).rows = [.string "a", .string "b", .string "c"] ∧
      (sampleStage false (sampleStage true Stage.empty)).rows <+: sampleDeployment.source.log := by
  refine ⟨by decide +kernel, by decide +kernel, by decide +kernel, ?_⟩
  exact rows_prefix_of_visits sampleDeployment _ (visits_sampleStage false (visits_sampleStage true .first))

end Pipeline
end FaucetStream
