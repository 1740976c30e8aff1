import FaucetStream.Pipeline.EffectivelyOnce
import FaucetStream.Pipeline.Plain

namespace FaucetStream
namespace Pipeline

open Json
open Library
open Governance
open Delivery
open Engine

/-!
# Changing the delivery mode

One pipeline is run again and again, each time in either delivery mode.  What
the next run hands to its source depends on two positions: the stored value,
bare after an at-least-once run and wrapped after an exactly-once one, and the
token of the last page an exactly-once run committed, which an at-least-once
run leaves as it is.
-/

/-! ## Histories -/

/-- What the runs of one pipeline have in common, in whichever mode. -/
structure Series where
  /-- The bookmarks the source gives out. -/
  issued : Value -> Prop
  /-- None is null or shaped like a stored value. -/
  plain : forall bookmark, issued bookmark ->
    bookmark.isNull = false ∧ isEoEnvelope bookmark = false ∧ Bare bookmark
  key : String
  owner : String
  schema : Nat
  schema_small : schema < 2 ^ 32
  fromStr : String -> Option Value
  /-- A bookmark is read back from its JSON text.  This leaves out bookmarks
  with floats that `serde_json` does not read back to the last bit. -/
  reads : forall bookmark, issued bookmark -> fromStr bookmark.text = some bookmark

namespace Series

variable (series : Series)

/-- A pipeline of the series: over a source that replays and a sink that
commits tokens, with a state store. -/
structure Runs (pipeline : PipelineConfig) : Prop where
  idempotent : pipeline.run.sink.supportsIdempotentWrites = true
  replays : pipeline.run.options.replay = some .deterministic
  configured : pipeline.run.options.stateStore = true
  keyed : pipeline.run.options.stateKey = some series.key
  owner : pipeline.codec.owner = series.owner
  schema : pipeline.codec.schema = series.schema
  fromStr : pipeline.fromStr = series.fromStr

/-- The surroundings of a run: any governance, and pages with bookmarks of the
source. -/
def around (pipeline : PipelineConfig) : Surroundings where
  codec := pipeline.codec
  mode := pipeline.run.options.delivery
  governs := fun _ _ => True
  opens := fun _ items => forall page bookmark, markAt (items.map itemMark) page = some bookmark ->
    series.issued bookmark
  opensNative := fun _ items => forall page bookmark, markAt (items.map batchMark) page = some bookmark ->
    series.issued bookmark

/-- The stages after any number of completed runs. -/
inductive Completed : Stage -> Prop
  | first : Completed Stage.empty
  | run {pipeline : PipelineConfig} {before after : Stage} {result : PipelineResult}
      (runs : series.Runs pipeline) (completed : Completed before)
      (reached : Reaches (series.around pipeline).environment pipeline.program before.restart
        (.done (.ok result)) after) : Completed after

/-- The token is that of the page committed last. -/
inductive Tokened (stage : Stage) : Prop
  | never (uncommitted : stage.committed = none) (absent : stage.token = none)
  | committed (bookmark : Value) (seq : Nat) (last : stage.committed = some bookmark)
      (issued : series.issued bookmark) (positive : 0 < seq)
      (present : stage.token = some (formatTokenWithBookmark seq (some bookmark)))

/-- The stored value is that of the page checkpointed last, in the wrapping of
its mode; after an exactly-once page the sink has committed the same page. -/
inductive StoredAs (stage : Stage) : Prop
  | never (unset : stage.checkpoint = none) (absent : stage.state = none)
  | bare (bookmark : Value) (legacy : Bool) (last : stage.checkpoint = some (.atLeastOnce, bookmark))
      (issued : series.issued bookmark) (unversioned : legacy = true -> series.schema = 0)
      (present : stage.state = some (encodeForWrite series.owner series.schema bookmark legacy))
  | wrapped (bookmark : Value) (seq : Nat) (legacy : Bool)
      (last : stage.checkpoint = some (.exactlyOnce, bookmark)) (issued : series.issued bookmark)
      (unversioned : legacy = true -> series.schema = 0)
      (present : stage.state =
        some (encodeForWrite series.owner series.schema (wrapState (some bookmark) seq) legacy))
      (same : stage.committed = some bookmark)
      (token : stage.token = some (formatTokenWithBookmark seq (some bookmark)))

structure Recorded (stage : Stage) : Prop where
  token : series.Tokened stage
  state : series.StoredAs stage

variable {series} {pipeline : PipelineConfig} {stage start : Stage}

/-- Nothing but the rows and what a run reads has changed. -/
theorem Recorded.same (recorded : series.Recorded stage) {other : Stage} (token : other.token = stage.token)
    (state : other.state = stage.state) (checkpoint : other.checkpoint = stage.checkpoint)
    (committed : other.committed = stage.committed) : series.Recorded other := by
  refine ⟨?_, ?_⟩
  · cases recorded.token with
    | never uncommitted absent => exact .never (committed.trans uncommitted) (token.trans absent)
    | committed bookmark seq last issued positive present =>
        exact .committed bookmark seq (committed.trans last) issued positive (token.trans present)
  · cases recorded.state with
    | never unset absent => exact .never (checkpoint.trans unset) (state.trans absent)
    | bare bookmark legacy last issued unversioned present =>
        exact .bare bookmark legacy (checkpoint.trans last) issued unversioned (state.trans present)
    | wrapped bookmark seq legacy last issued unversioned present same tokened =>
        exact .wrapped bookmark seq legacy (checkpoint.trans last) issued unversioned (state.trans present)
          (committed.trans same) (token.trans tokened)

/-- Storing the bookmark of a page as it is. -/
theorem Recorded.storeBare (runs : series.Runs pipeline) (checked : pipeline.checkCodec = .ok ())
    (recorded : series.Recorded stage) {page : Nat} {bookmark : Value} (marked : stage.mark page = some bookmark)
    (issued : series.issued bookmark) :
    series.Recorded (stage.store pipeline.codec .atLeastOnce page bookmark) := by
  refine ⟨?_, .bare bookmark pipeline.codec.legacy ?_ issued ?_ ?_⟩
  · cases recorded.token with
    | never uncommitted absent => exact .never uncommitted absent
    | committed bookmark seq last issued positive present =>
        exact .committed bookmark seq last issued positive present
  · change (stage.mark page).map _ = _
    rw [marked]
    rfl
  · intro legacy
    rw [← runs.schema]
    exact pipeline.schema_of_legacy checked legacy
  · change some (pipeline.codec.encode bookmark) = _
    rw [StateCodec.encode, runs.owner, runs.schema]

/-- An exactly-once page, committed and stored. -/
theorem recorded_pageDone (runs : series.Runs pipeline) (checked : pipeline.checkCodec = .ok ())
    (mode : pipeline.run.options.delivery = .exactlyOnce) {page : Nat} {bookmark : Value}
    (marked : stage.mark page = some bookmark) (issued : series.issued bookmark) (records : List Value)
    (seq : Nat) (positive : 0 < seq) :
    series.Recorded (Run.pageDone (series.around pipeline) stage page records bookmark seq) := by
  refine ⟨.committed bookmark seq marked issued positive rfl,
    .wrapped bookmark seq pipeline.codec.legacy ?_ issued ?_ ?_ marked rfl⟩
  · change (stage.mark page).map (fun bookmark => (pipeline.run.options.delivery, bookmark)) = _
    rw [marked, mode]
    rfl
  · intro legacy
    rw [← runs.schema]
    exact pipeline.schema_of_legacy checked legacy
  · change some (pipeline.codec.encode _) = _
    rw [StateCodec.encode, runs.owner, runs.schema]

/-! ## Runs keep the record -/

/-- A plain question keeps the record: a store is of the page's bookmark and
by an at-least-once run. -/
theorem recorded_of_plainly (runs : series.Runs pipeline) (checked : pipeline.checkCodec = .ok ())
    {marks : List (Option Value)} {op : Op} {answer : op.Answer} {after : Stage} (plainly : Plainly marks op)
    (honest : forall page bookmark, markAt marks page = some bookmark ->
      pipeline.run.options.delivery = .atLeastOnce ∧ stage.mark page = some bookmark ∧ series.issued bookmark)
    (recorded : series.Recorded stage)
    (answered : (series.around pipeline).environment op stage answer after) :
    series.Recorded after ∧ after.marks = stage.marks ∧ after.token = stage.token := by
  have written : (exists added, after = { stage with rows := stage.rows ++ added }) ->
      series.Recorded after ∧ after.marks = stage.marks ∧ after.token = stage.token := by
    rintro ⟨added, next⟩
    rw [next]
    exact ⟨recorded.same rfl rfl rfl rfl, rfl, rfl⟩
  have unchanged : after = stage ->
      series.Recorded after ∧ after.marks = stage.marks ∧ after.token = stage.token := by
    intro same
    rw [same]
    exact ⟨recorded, rfl, rfl⟩
  cases op with
  | putState page key value =>
      rcases honest page value plainly with ⟨mode, marked, issued⟩
      have stored : after = stage.store pipeline.codec pipeline.run.options.delivery page value ->
          series.Recorded after ∧ after.marks = stage.marks ∧ after.token = stage.token := by
        intro next
        rw [next, mode]
        exact ⟨recorded.storeBare runs checked marked issued, rfl, rfl⟩
      cases answer with
      | ok done => exact stored answered
      | error error => exact Or.elim answered unchanged stored
  | writeBatchIdempotent page rows scope token => exact plainly.elim
  | getState key => exact plainly.elim
  | applyStartBookmark bookmark => exact plainly.elim
  | streamPages => exact plainly.elim
  | streamNative => exact plainly.elim
  | writeGoverned page rows => exact written answered
  | writeBatchPartial page rows => exact written answered
  | writeBatchColumnar page records => exact written answered
  | loadNative page first => exact written answered
  | applyGovernance page records => exact unchanged answered.2
  | lastCommittedToken scope => exact unchanged answered.2
  | commitOverwrite =>
      rcases answered with ⟨rows, next⟩
      rw [next]
      exact ⟨recorded.same rfl rfl rfl rfl, rfl, rfl⟩
  | _ => exact unchanged answered

/-- No condition on the stages in between. -/
abbrev Leads (series : Series) (pipeline : PipelineConfig) {Result : Type} (pre : Stage -> Prop)
    (program : Engine Result) (post : Result -> Stage -> Prop) : Prop :=
  Triple (series.around pipeline).environment (fun _ => True) pre program post (fun _ => True)

/-- An at-least-once run keeps the record, over pages with bookmarks of the
source. -/
theorem leads_plain (runs : series.Runs pipeline) (checked : pipeline.checkCodec = .ok ())
    (mode : pipeline.run.options.delivery = .atLeastOnce) {marks : List (Option Value)}
    (given : forall page bookmark, markAt marks page = some bookmark -> series.issued bookmark)
    {Result : Type} {program : Engine Result} (plain : Plain marks program) :
    series.Leads pipeline (fun stage => series.Recorded stage ∧ stage.marks = marks) program
      (fun _ => series.Recorded) := by
  refine (plain.triple ?_ (fun _ _ => trivial)).consequence (fun _ holds => holds) (fun _ _ ends => ends.2.1)
    (fun _ _ => trivial)
  rintro op stage answer after plainly ⟨recorded, same⟩ answered
  rcases recorded_of_plainly runs checked plainly (fun page bookmark marked =>
    ⟨mode, by rw [Stage.mark, same]; exact marked, given page bookmark marked⟩) recorded answered with
    ⟨still, marks, _⟩
  exact ⟨still, marks.trans same⟩

/-- Where an exactly-once loop stands between two pages. -/
structure Between (series : Series) (marks : List (Option Value)) (seq : Nat) (stage : Stage) : Prop where
  recorded : series.Recorded stage
  marks : stage.marks = marks
  behind : stage.seq ≤ seq

/-- A page that stores nothing. -/
theorem leads_idle (runs : series.Runs pipeline) (checked : pipeline.checkCodec = .ok ())
    {marks : List (Option Value)} {seq : Nat} {Result : Type} {returns : Result -> Prop}
    {program : Engine Result} (plain : Only (Plainly []) returns program) :
    series.Leads pipeline (series.Between marks seq) program
      (fun value stage => returns value ∧ series.Between marks seq stage) := by
  refine (plain.triple ?_ (fun _ _ => trivial)).mayFail
  rintro op stage answer after plainly between answered
  rcases recorded_of_plainly runs checked plainly (fun page bookmark marked => by cases marked) between.recorded
    answered with ⟨still, marks, token⟩
  refine ⟨still, marks.trans between.marks, ?_⟩
  rw [Stage.seq, token]
  exact between.behind

section ExactlyOnceRun

variable (run : Run) {items : List (Except FaucetError StreamPage)}

theorem leads_stepPage (runs : series.Runs pipeline) (checked : pipeline.checkCodec = .ok ())
    (mode : pipeline.run.options.delivery = .exactlyOnce)
    (configured : run.options.stateStore = true) (keyed : run.options.stateKey = some series.key)
    {page : Nat} {content : StreamPage} {marks : List (Option Value)} (marked : markAt marks page = content.bookmark)
    (issued : forall bookmark, content.bookmark = some bookmark -> series.issued bookmark)
    (committedSeq : Nat) (state : LoopState) (fresh : committedSeq ≤ state.nextSeq) :
    series.Leads pipeline (series.Between marks state.nextSeq)
      (run.stepPage (.exactlyOnce committedSeq) page content state)
      (fun next stage => committedSeq ≤ next.nextSeq ∧ series.Between marks next.nextSeq stage) := by
  have idle : forall {program : Engine LoopState},
      Only (Plainly []) (fun next => next.nextSeq = state.nextSeq) program ->
      series.Leads pipeline (series.Between marks state.nextSeq) program
        (fun next stage => committedSeq ≤ next.nextSeq ∧ series.Between marks next.nextSeq stage) := by
    intro program plain
    refine (leads_idle runs checked plain).gives ?_
    rintro next stage ⟨same, between⟩
    rw [same]
    exact ⟨fresh, between⟩
  refine Triple.bind (fun _ => series.Between marks state.nextSeq) ?_ ?_
  · apply triple_call
    intro stage answer after kept between answered
    have same : after = stage := answered.2
    rw [same]
    cases answer with
    | ok outcome => exact ⟨trivial, between⟩
    | error error => exact ⟨trivial, trivial⟩
  · intro outcome
    dsimp only
    split
    · exact idle ((run.plain_abortPage _ _).weaken (fun _ impossible => impossible.elim))
    · cases carried : content.bookmark with
      | none => exact idle (run.plain_unmarkedPage _ _ state)
      | some bookmark =>
          intro stage kept between
          have here : stage.mark page = some bookmark := by
            rw [← carried, ← marked, Stage.mark, between.marks]
            rfl
          refine (run.moves_exactlyOncePage configured keyed committedSeq outcome.records bookmark _ state fresh
            between.behind trivial trivial).gives ?_ stage kept
            rfl
          rintro next last ⟨advanced, reached⟩
          have record := recorded_pageDone runs checked mode here (issued bookmark carried) outcome.records
            (state.nextSeq + 1) (Nat.succ_pos _)
          have number : (Run.pageDone (series.around pipeline) stage page outcome.records bookmark
              (state.nextSeq + 1)).seq = state.nextSeq + 1 :=
            stage.seq_commit page (governedRows outcome.records) (parseToken_format _ bookmark)
          rw [advanced, reached]
          exact ⟨Nat.le_succ_of_le fresh, record, between.marks, Nat.le_of_eq number⟩

theorem leads_pageLoop (runs : series.Runs pipeline) (checked : pipeline.checkCodec = .ok ())
    (mode : pipeline.run.options.delivery = .exactlyOnce)
    (configured : run.options.stateStore = true) (keyed : run.options.stateKey = some series.key)
    (given : forall page bookmark, markAt (items.map itemMark) page = some bookmark -> series.issued bookmark)
    (committedSeq : Nat) (remaining : List (Except FaucetError StreamPage)) (page : Nat)
    (listed : remaining = items.drop page) (state : LoopState) (fresh : committedSeq ≤ state.nextSeq) :
    series.Leads pipeline (series.Between (items.map itemMark) state.nextSeq)
      (run.pageLoop (.exactlyOnce committedSeq) remaining (page + 1) state) (fun _ => series.Recorded) := by
  induction remaining generalizing page state with
  | nil =>
      unfold Run.pageLoop
      refine Triple.bind _ Run.moves_isCancelled ?_
      intro stops
      split
      · exact Triple.pure (fun _ between => between.recorded)
      · refine Triple.bind _ Run.moves_isCancelled ?_
        intro drained
        exact Triple.pure (fun _ between => between.recorded)
  | cons item rest ih =>
      have next : rest = items.drop (page + 1) := by
        rw [← List.tail_drop, ← listed]
        rfl
      unfold Run.pageLoop
      refine Triple.bind _ Run.moves_isCancelled ?_
      intro stops
      split
      · exact Triple.pure (fun _ between => between.recorded)
      · cases item with
        | error error => exact Triple.fails
        | ok content =>
            dsimp only
            have marked := Run.markAt_of_drop listed
            split
            · exact ih (page + 1) next state fresh
            · refine Triple.bind _ (leads_stepPage run runs checked mode configured keyed marked
                (fun bookmark carried => given (page + 1) bookmark (marked.trans carried)) committedSeq state
                fresh) ?_
              rintro after stage kept ⟨still, between⟩
              exact ih (page + 1) next after still stage kept between

end ExactlyOnceRun

/-! ## What the next run hands over -/

theorem anchors_eq (runs : series.Runs pipeline) :
    pipeline.anchors = (pipeline.run.options.delivery == .exactlyOnce) := by
  rw [PipelineConfig.anchors, runs.idempotent, runs.replays, Bool.and_true]
  exact Bool.and_true _

/-- The token of the page committed last takes the lead over an earlier
sequence number. -/
theorem anchored_committed (runs : series.Runs pipeline)
    (mode : pipeline.run.options.delivery = .exactlyOnce) {bookmark : Value} (issued : series.issued bookmark)
    {seq : Nat} (stored : Nat) :
    pipeline.anchored stored (some (formatTokenWithBookmark seq (some bookmark))) =
      if stored < seq then (seq, some bookmark) else (stored, none) := by
  have anchors : pipeline.anchors = true := by
    rw [anchors_eq runs, mode]
    rfl
  rw [PipelineConfig.anchored, if_pos anchors, Option.bind_some, parseTokenParts_format, runs.fromStr,
    series.reads bookmark issued]

theorem anchored_none (stored : Nat) : pipeline.anchored stored none = (stored, none) := by
  unfold PipelineConfig.anchored
  split
  · rfl
  · rfl

/-- A run goes on from a sequence number no smaller than the token's. -/
theorem Recorded.seq_le (runs : series.Runs pipeline) (recorded : series.Recorded stage)
    (mode : pipeline.run.options.delivery = .exactlyOnce) (stored : Nat) :
    stage.seq ≤ (pipeline.anchored stored stage.token).1 := by
  cases recorded.token with
  | never uncommitted absent =>
      rw [Stage.seq, absent]
      exact Nat.zero_le _
  | committed bookmark seq last issued positive present =>
      have number : stage.seq = seq := by
        rw [Stage.seq, present, Option.bind_some, parseToken_format]
        rfl
      rw [number, present, anchored_committed runs mode issued]
      split
      · exact Nat.le_refl seq
      · rename_i ahead
        exact Nat.not_lt.mp ahead

/-- What a stored payload makes the next run do. -/
theorem resumption_encode (runs : series.Runs pipeline) {legacy : Bool} {data : Value}
    (unversioned : legacy = true -> series.schema = 0) (bare : Bare data)
    (present : stage.state = some (encodeForWrite series.owner series.schema data legacy)) :
    pipeline.resumption series.key stage.state = .ok (match pipeline.run.options.delivery with
      | .exactlyOnce => unwrapState data
      | .atLeastOnce => (some data, 0)) := by
  have read := resolveWith_encode ⟨series.owner, series.schema, legacy⟩ series.key data pipeline.migrateState
    series.schema_small (fun legacy => ⟨unversioned legacy, bare⟩)
  rw [StateCodec.encode] at read
  rw [present, PipelineConfig.resumption, runs.owner, runs.schema, read]
  rfl

/-- The condition on the next mode: the one of the last checkpoint, or
exactly-once after at-least-once with a sink that has committed no other
bookmark. -/
def Agrees (next last : DeliveryMode) (bookmark : Value) (committed : Option Value) : Prop :=
  next = last ∨ next = .exactlyOnce ∧ (committed = none ∨ committed = some bookmark)

/-- The bookmark the resume block hands over last is that of the last
checkpoint exactly when the modes agree. -/
theorem Recorded.handed_iff (runs : series.Runs pipeline) (recorded : series.Recorded stage)
    (fresh : stage.handed = none) {last : DeliveryMode} {bookmark : Value}
    (checkpoint : stage.checkpoint = some (last, bookmark)) {first : Option Value} {stored : Nat}
    (resumed : pipeline.resumption series.key stage.state = .ok (first, stored)) :
    (PipelineConfig.handing (PipelineConfig.handing stage first)
      (pipeline.anchored stored stage.token).2).handed = some bookmark <->
      Agrees pipeline.run.options.delivery last bookmark stage.committed := by
  have handed : (PipelineConfig.handing (PipelineConfig.handing stage first)
      (pipeline.anchored stored stage.token).2).handed =
        (pipeline.anchored stored stage.token).2.orElse (fun _ => first) := by
    change (pipeline.anchored stored stage.token).2.orElse (fun _ => first.orElse (fun _ => stage.handed)) = _
    rw [fresh]
    cases first with
    | none => rfl
    | some value => rfl
  rw [handed, Agrees]
  cases recorded.state with
  | never unset absent =>
      rw [unset] at checkpoint
      cases checkpoint
  | bare mark legacy lastPage issued unversioned present =>
      rw [lastPage] at checkpoint
      cases checkpoint
      rcases series.plain bookmark issued with ⟨present', unwrapped, bare⟩
      rw [resumption_encode runs unversioned bare present] at resumed
      cases mode : pipeline.run.options.delivery with
      | atLeastOnce =>
          rw [mode] at resumed
          cases resumed
          have alone : pipeline.anchored 0 stage.token = (0, none) := by
            rw [PipelineConfig.anchored, anchors_eq runs, mode]
            rfl
          rw [alone]
          exact ⟨fun _ => Or.inl rfl, fun _ => rfl⟩
      | exactlyOnce =>
          rw [mode] at resumed
          simp only [unwrapState_bare bare unwrapped, present', Bool.false_eq_true, if_false, Except.ok.injEq,
            Prod.mk.injEq] at resumed
          rw [← resumed.1, ← resumed.2]
          cases recorded.token with
          | never uncommitted absent =>
              rw [absent, anchored_none]
              exact ⟨fun _ => Or.inr ⟨rfl, Or.inl uncommitted⟩, fun _ => rfl⟩
          | committed other seq lastCommit given positive token =>
              rw [token, anchored_committed runs mode given, if_pos positive, lastCommit]
              simp
  | wrapped mark seq legacy lastPage issued unversioned present same token =>
      rw [lastPage] at checkpoint
      cases checkpoint
      rcases series.plain bookmark issued with ⟨present', unwrapped, _⟩
      rw [resumption_encode runs unversioned (parse_wrapState _ _) present] at resumed
      cases mode : pipeline.run.options.delivery with
      | atLeastOnce =>
          rw [mode] at resumed
          cases resumed
          have alone : pipeline.anchored 0 stage.token = (0, none) := by
            rw [PipelineConfig.anchored, anchors_eq runs, mode]
            rfl
          rw [alone]
          -- The source is handed the wrapper, and no bookmark is one.
          refine ⟨fun equal => ?_, fun agrees => ?_⟩
          · have shape : isEoEnvelope bookmark = true := by
              rw [← Option.some.inj equal]
              rfl
            rw [shape] at unwrapped
            cases unwrapped
          · rcases agrees with impossible | impossible
            · cases impossible
            · cases impossible.1
      | exactlyOnce =>
          rw [mode] at resumed
          simp only [unwrapState_wrapState, present', Bool.false_eq_true, if_false, Except.ok.injEq,
            Prod.mk.injEq] at resumed
          rw [← resumed.1, ← resumed.2, token, anchored_committed runs mode issued, if_neg (Nat.lt_irrefl seq)]
          exact ⟨fun _ => Or.inl rfl, fun _ => rfl⟩

/-! ## Completed histories -/

theorem Recorded.handing (recorded : series.Recorded stage) (bookmark : Option Value) :
    series.Recorded (PipelineConfig.handing stage bookmark) :=
  recorded.same rfl rfl rfl rfl

/-- A run that completes leaves the record in order. -/
theorem leads_program (runs : series.Runs pipeline) (recorded : series.Recorded start) :
    series.Leads pipeline (fun stage => stage = start) pipeline.program (fun _ => series.Recorded) := by
  refine Triple.bind _ (pipeline.moves_resume runs.configured runs.keyed (fun _ _ => trivial)) ?_
  rintro startSeq stage kept ⟨checked, bookmark, stored, _, numbered, reached⟩
  have still : series.Recorded stage := by
    rw [reached]
    exact (recorded.handing bookmark).handing _
  have token : stage.token = start.token := by
    rw [reached]
    rfl
  unfold PipelineConfig.transfer
  cases path : pipeline.path with
  | columnar =>
      have mode : pipeline.run.options.delivery = .atLeastOnce := by
        cases mode : pipeline.run.options.delivery with
        | atLeastOnce => rfl
        | exactlyOnce => exact absurd (pipeline.exactlyOnce_streams mode) (by rw [path]; decide)
      refine ⟨trivial, ?_⟩
      rintro items opened ⟨given, marked⟩
      refine leads_plain runs checked mode given (pipeline.columnarRun.plain_runStream items) opened trivial ⟨?_, ?_⟩
      · rw [marked]
        exact still.same rfl rfl rfl rfl
      · rw [marked]
  | native =>
      have mode : pipeline.run.options.delivery = .atLeastOnce := by
        cases mode : pipeline.run.options.delivery with
        | atLeastOnce => rfl
        | exactlyOnce => exact absurd (pipeline.exactlyOnce_streams mode) (by rw [path]; decide)
      refine ⟨trivial, ?_⟩
      rintro items opened ⟨given, marked⟩
      refine leads_plain runs checked mode given (pipeline.nativeRun.plain_runStream items) opened trivial ⟨?_, ?_⟩
      · rw [marked]
        exact still.same rfl rfl rfl rfl
      · rw [marked]
  | stream =>
      refine ⟨trivial, ?_⟩
      rintro items opened ⟨given, marked⟩
      have record : series.Recorded opened := by
        rw [marked]
        exact still.same rfl rfl rfl rfl
      have marks : opened.marks = List.map itemMark items := by rw [marked]
      cases mode : pipeline.run.options.delivery with
      | atLeastOnce =>
          exact leads_plain runs checked mode given
            (pipeline.plain_staged ((pipeline.startingAt startSeq).plain_runStream
              ((pipeline.startingAt startSeq).usesWatermark_of_atLeastOnce mode) items (fun _ => rfl))) opened trivial
            ⟨record, marks⟩
      | exactlyOnce =>
          have behind : opened.seq ≤ startSeq := by
            have same : opened.seq = start.seq := by
              rw [marked]
              exact congrArg (fun token => (token.bind parseToken).getD 0) token
            rw [same, numbered]
            exact recorded.seq_le runs mode stored
          refine pipeline.moves_staged _ ((pipeline.startingAt startSeq).moves_runStream items
            (Run.moves_start _ mode runs.idempotent runs.replays) ?_) opened trivial rfl
          rintro branch next kept ⟨appends, chosen, same⟩
          rw [chosen]
          refine (leads_pageLoop (pipeline.startingAt startSeq) runs checked mode runs.configured runs.keyed given
            opened.seq items 0 rfl (pipeline.startingAt startSeq).initialState behind).gives (fun _ _ ends =>
              ⟨appends, ends⟩) next kept ?_
          rw [same]
          exact ⟨record, marks, behind⟩

theorem Completed.recorded (completed : series.Completed stage) : series.Recorded stage := by
  induction completed with
  | first => exact ⟨.never rfl rfl, .never rfl rfl⟩
  | @run pipeline before after result runs completed reached ih =>
      have restarted : series.Recorded before.restart := ih.same rfl rfl rfl rfl
      exact ((leads_program runs restarted before.restart trivial rfl).reaches reached).2

end Series

/-- After any history of completed runs, the bookmark last handed to the source
by the next run is that of the page checkpointed last exactly when the next
mode agrees with the history. -/
theorem handed_iff_agrees (series : Series) (stage : Stage) (completed : series.Completed stage)
    (pipeline : PipelineConfig) (runs : series.Runs pipeline) (last : DeliveryMode) (bookmark : Value)
    (checkpoint : stage.checkpoint = some (last, bookmark)) (startSeq : Nat) (after : Stage)
    (resumed : Reaches (series.around pipeline).environment pipeline.resume stage.restart
      (.done (.ok startSeq)) after) :
    after.handed = some bookmark <->
      Series.Agrees pipeline.run.options.delivery last bookmark stage.committed := by
  have recorded : series.Recorded stage.restart := completed.recorded.same rfl rfl rfl rfl
  have resume : series.Leads pipeline (fun start => start = stage.restart) pipeline.resume _ :=
    pipeline.moves_resume runs.configured runs.keyed (fun _ _ => trivial)
  have ended := ((resume stage.restart trivial rfl).reaches resumed).2
  rcases ended with ⟨_, first, stored, resumption, _, reached⟩
  rw [reached]
  exact recorded.handed_iff runs rfl checkpoint resumption

/-! ### A log read in both modes -/

def sampleSeries : Series where
  issued := sampleLogSource.issued
  plain := fun bookmark given => by
    rcases given with rfl | rfl
    · exact ⟨rfl, rfl, rfl⟩
    · exact ⟨rfl, rfl, rfl⟩
  key := "orders"
  owner := "log"
  schema := 0
  schema_small := sampleDeployment.schema_small
  fromStr := sampleDeployment.fromStr
  reads := sampleDeployment.reads

def samplePipeline (mode : DeliveryMode) : PipelineConfig where
  run := { sampleExactlyOnce.run with options := { sampleExactlyOnce.run.options with delivery := mode } }
  path := .stream
  suppressOverwriteLifecycle := false
  exactlyOnce_streams := fun _ => rfl
  codec := sampleExactlyOnce.codec
  migrateState := sampleExactlyOnce.migrateState
  fromStr := sampleDeployment.fromStr

theorem samplePipeline_runs (mode : DeliveryMode) : sampleSeries.Runs (samplePipeline mode) where
  idempotent := rfl
  replays := rfl
  configured := rfl
  keyed := rfl
  owner := rfl
  schema := rfl
  fromStr := rfl

/-- The first page of the log, and its second one after any bookmark. -/
def sampleReading (handed : Option Value) : List (Except FaucetError StreamPage) :=
  if handed = none then [.ok ⟨[.string "a", .string "b"], some (.string "2")⟩]
  else [.ok ⟨[.string "c"], some (.string "3")⟩]

theorem sampleReading_issued (handed : Option Value) (page : Nat) (bookmark : Value)
    (marked : markAt ((sampleReading handed).map itemMark) page = some bookmark) :
    sampleSeries.issued bookmark := by
  have member := Run.mem_of_markAt marked
  unfold sampleReading at member
  split at member
  · exact Or.inl (Option.some.inj (List.mem_singleton.mp member))
  · exact Or.inr (Option.some.inj (List.mem_singleton.mp member))

/-- Everything succeeds, in a run of the given mode. -/
def sampleModeAnswers (mode : DeliveryMode) : (op : Op) -> Stage -> op.Answer × Stage
  | .putState page _ value, stage => (.ok (), stage.store (samplePipeline mode).codec mode page value)
  | .streamPages, stage =>
      (sampleReading stage.handed, { stage with marks := (sampleReading stage.handed).map itemMark })
  | op, stage => sampleAnswers false op stage

theorem sampleModeAnswers_possible (mode : DeliveryMode) (op : Op) (stage : Stage) :
    (sampleSeries.around (samplePipeline mode)).environment op stage (sampleModeAnswers mode op stage).1
      (sampleModeAnswers mode op stage).2 := by
  cases op with
  | applyGovernance page records => exact ⟨fun _ _ => trivial, rfl⟩
  | writeGoverned page rows => exact ⟨[], rfl⟩
  | writeBatchPartial page rows => exact ⟨[], rfl⟩
  | writeBatchColumnar page records => exact ⟨[], rfl⟩
  | loadNative page first => exact ⟨[], rfl⟩
  | lastCommittedToken scope => exact ⟨fun _ answered => (Except.ok.inj answered).symm, rfl⟩
  | getState key => exact ⟨fun _ answered => (Except.ok.inj answered).symm, rfl⟩
  | streamPages => exact ⟨sampleReading_issued stage.handed, rfl⟩
  | streamNative => exact ⟨fun page bookmark marked => (by cases marked), rfl⟩
  | commitOverwrite => exact ⟨stage.rows, rfl⟩
  | _ => rfl

/-- A whole run in a mode, and the start of one. -/
def sampleRunOf (mode : DeliveryMode) (stage : Stage) : Except FaucetError PipelineResult × Stage :=
  execute (sampleModeAnswers mode) (samplePipeline mode).program stage.restart

def sampleResume (mode : DeliveryMode) (stage : Stage) : Except FaucetError Nat × Stage :=
  execute (sampleModeAnswers mode) (samplePipeline mode).resume stage.restart

theorem reaches_sampleResume (mode : DeliveryMode) (stage : Stage) {startSeq : Nat}
    (succeeds : (sampleResume mode stage).1 = .ok startSeq) :
    Reaches (sampleSeries.around (samplePipeline mode)).environment (samplePipeline mode).resume stage.restart
      (.done (.ok startSeq)) (sampleResume mode stage).2 := by
  rw [← succeeds]
  exact reaches_execute (sampleModeAnswers mode) (sampleModeAnswers_possible mode) _ stage.restart

theorem completed_sampleRunOf (mode : DeliveryMode) {stage : Stage} (completed : sampleSeries.Completed stage)
    {result : PipelineResult} (succeeds : (sampleRunOf mode stage).1 = .ok result) :
    sampleSeries.Completed (sampleRunOf mode stage).2 := by
  have reached := reaches_execute (sampleModeAnswers mode) (sampleModeAnswers_possible mode)
    (samplePipeline mode).program stage.restart
  change Reaches _ _ _ (.done (sampleRunOf mode stage).1) (sampleRunOf mode stage).2 at reached
  rw [succeeds] at reached
  exact .run (samplePipeline_runs mode) completed reached

/-- The stages after an exactly-once run, and after an at-least-once run that
follows it. -/
def sampleOnce : Stage := (sampleRunOf .exactlyOnce Stage.empty).2

def sampleTwice : Stage := (sampleRunOf .atLeastOnce sampleOnce).2

theorem completed_sampleOnce : sampleSeries.Completed sampleOnce :=
  completed_sampleRunOf .exactlyOnce .first
    (by decide +kernel : (sampleRunOf .exactlyOnce Stage.empty).1 = .ok ⟨2, some (.string "2"), none⟩)

theorem completed_sampleTwice : sampleSeries.Completed sampleTwice :=
  completed_sampleRunOf .atLeastOnce completed_sampleOnce
    (by decide +kernel : (sampleRunOf .atLeastOnce sampleOnce).1 = .ok ⟨1, some (.string "3"), none⟩)

theorem handed_iff_agrees_sampleOnce :
    (sampleResume .exactlyOnce sampleOnce).2.handed = some (.string "2") <->
      Series.Agrees .exactlyOnce .exactlyOnce (.string "2") sampleOnce.committed :=
  handed_iff_agrees sampleSeries sampleOnce completed_sampleOnce (samplePipeline .exactlyOnce)
    (samplePipeline_runs .exactlyOnce) .exactlyOnce (.string "2") (by decide +kernel) 1 _
    (reaches_sampleResume .exactlyOnce sampleOnce (by decide +kernel))

/-- An at-least-once run after an exactly-once one hands over the wrapper, and
an exactly-once run after both an older bookmark. -/
theorem handed_wrapper_or_older :
    (sampleResume .atLeastOnce sampleOnce).2.handed = some (wrapState (some (.string "2")) 1) ∧
      sampleTwice.checkpoint = some (.atLeastOnce, .string "3") ∧
      (sampleResume .exactlyOnce sampleTwice).2.handed = some (.string "2") ∧
      ¬ forall (series : Series) (stage : Stage), series.Completed stage ->
        forall (pipeline : PipelineConfig), series.Runs pipeline ->
        forall (last : DeliveryMode) (bookmark : Value), stage.checkpoint = some (last, bookmark) ->
        forall (startSeq : Nat) (after : Stage),
          Reaches (series.around pipeline).environment pipeline.resume stage.restart
            (.done (.ok startSeq)) after ->
          after.handed = some bookmark := by
  have older : (sampleResume .exactlyOnce sampleTwice).2.handed = some (.string "2") := by decide +kernel
  refine ⟨by decide +kernel, by decide +kernel, older, fun claimed => ?_⟩
  have same := claimed sampleSeries sampleTwice completed_sampleTwice (samplePipeline .exactlyOnce)
    (samplePipeline_runs .exactlyOnce) .atLeastOnce (.string "3") (by decide +kernel) 1 _
    (reaches_sampleResume .exactlyOnce sampleTwice (by decide +kernel))
  rw [older] at same
  exact absurd same (by decide +kernel)

end Pipeline
end FaucetStream
