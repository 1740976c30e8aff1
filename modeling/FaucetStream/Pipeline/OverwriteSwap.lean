import FaucetStream.Pipeline.Lifecycle
import FaucetStream.Pipeline.Plain

namespace FaucetStream
namespace Pipeline

open Json
open Library
open Governance
open Delivery
open Engine

/-!
# The position of an overwriting run

A run over an overwriting sink writes into a staging copy, so a position
stored before the copy is in place would let the next run skip rows the
destination never got.  On the value path the loop stores nothing and the
position is stored after the commit; the native path holds it back until the
terminal flush.  The columnar path is ruled out by the table.

One thing does change the stored value earlier: a value left under an older
key is moved to the run's own key before anything is read.
-/

/-! ## Behind the wrappers -/

namespace WholeRun

variable {whole : WholeRun} {around : Around}

/-- What a question of the loops comes to behind the wrappers: it is asked on,
and the signal may be read meanwhile; or a position is held back, or one that
is held back is read. -/
def behind (whole : WholeRun) (around : Around) : Environment Op.Answer (Site × Wrappers) :=
  fun op before answer after =>
    (exists middle state, whole.engine around op before.1 answer middle ∧
      after.1 = { middle with signal := state } ∧ after.2.held = before.2.held) ∨
    (whole.holding = true ∧ (exists page key value, op = .putState page key value) ∧
      exists state, after.1 = { before.1 with signal := state }) ∨
    ((exists key, op = .getState key) ∧ after = before)

theorem behind_asked {op : Op} {site middle : Site} {wrappers : Wrappers} {answer : op.Answer}
    (asked : whole.engine around op site answer middle) :
    whole.behind around op (site, wrappers) answer (middle, wrappers) :=
  Or.inl ⟨middle, middle.signal, asked, rfl, rfl⟩

/-- An invariant of the site that does not depend on the signal. -/
def Signalless (invariant : Site -> Prop) : Prop :=
  forall site state, invariant site -> invariant { site with signal := state }

/-- Recording changes nothing but the keys. -/
theorem safe_record {invariant : Site -> Prop} {Result : Type} {page : Nat} {records : List Value}
    {wrappers : Wrappers} {site : Site} {rest : Wrappers -> Lifecycle Result}
    {post : Except FaucetError Result -> Site -> Prop} (kept : invariant site)
    (safe : forall next state, next.held = wrappers.held ->
      Safe (whole.environment around) invariant post (rest next) { site with signal := state }) :
    Safe (whole.environment around) invariant post (whole.wrapping.record page records wrappers >>= rest) site := by
  unfold Wrapping.record
  split
  · exact safe wrappers site.signal rfl
  · dsimp only
    split
    · refine ⟨kept, ?_⟩
      rintro answer after ⟨_, _, rfl⟩
      refine safe _ answer ?_
      split
      · rfl
      · rfl
    · exact safe _ site.signal rfl

theorem safe_writing {invariant : Site -> Prop} (signals : Signalless invariant) {Report : Type} {page : Nat}
    {rows : List GovernedRow} {wrappers : Wrappers} {site : Site} {answer : Except FaucetError Report}
    (kept : invariant site) :
    Safe (whole.environment around) invariant (fun result after => exists next : Wrappers,
        result = .ok (answer, next) ∧ (exists state, after = { site with signal := state }) ∧
          next.held = wrappers.held)
      (whole.wrapping.writing page rows wrappers answer) site := by
  cases answer with
  | error error => exact ⟨kept, wrappers, rfl, ⟨site.signal, rfl⟩, rfl⟩
  | ok report =>
      apply safe_record kept
      intro next state same
      exact ⟨signals site state kept, next, rfl, ⟨state, rfl⟩, same⟩

/-- Storing a position does not depend on the signal. -/
theorem putState_signal {page : Nat} {key : String} {value : Value} {site after : Site} {state : ReadState}
    {answer : (Op.putState page key value).Answer}
    (answered : whole.engine around (.putState page key value) { site with signal := state } answer after) :
    exists middle, whole.engine around (.putState page key value) site answer middle ∧
      after = { middle with signal := state } := by
  cases answer with
  | ok done => exact ⟨_, rfl, answered⟩
  | error error =>
      rcases answered with same | stored
      · exact ⟨site, Or.inl rfl, same⟩
      · exact ⟨_, Or.inr rfl, stored⟩

/-- The wrappers keep an invariant that does not depend on the signal. -/
theorem performs_behind {invariant : Site -> Prop} {keeps : Site × Wrappers -> Prop}
    (signals : Signalless invariant)
    (holds : forall site wrappers, keeps (site, wrappers) -> invariant site) :
    Performs (whole.environment around) invariant (whole.behind around) keeps whole.wrapping.perform := by
  intro op site wrappers kept leads
  have start := holds site wrappers kept
  have step : forall answer middle, whole.engine around op site answer middle -> invariant middle :=
    fun answer middle answered => holds middle wrappers (leads answer _ (behind_asked answered))
  have plain : Safe (whole.environment around) invariant (fun result after => exists answer next,
        result = .ok (answer, next) ∧ whole.behind around op (site, wrappers) answer (after, next))
      (.ask (.engine op) (fun answer => pure (answer, wrappers)) : Lifecycle (op.Answer × Wrappers)) site := by
    refine ⟨start, ?_⟩
    intro answer after answered
    exact ⟨step answer after answered, answer, wrappers, rfl, behind_asked answered⟩
  cases op with
  | writeGoverned page rows =>
      refine ⟨start, ?_⟩
      intro answer middle answered
      refine (safe_writing signals (step answer middle answered)).weaken ?_
      rintro result after _ ⟨next, rfl, ⟨state, rfl⟩, same⟩
      exact ⟨answer, next, rfl, Or.inl ⟨middle, state, answered, rfl, same⟩⟩
  | writeBatchIdempotent page rows scope token =>
      refine ⟨start, ?_⟩
      intro answer middle answered
      refine (safe_writing signals (step answer middle answered)).weaken ?_
      rintro result after _ ⟨next, rfl, ⟨state, rfl⟩, same⟩
      exact ⟨answer, next, rfl, Or.inl ⟨middle, state, answered, rfl, same⟩⟩
  | writeBatchPartial page rows =>
      refine ⟨start, ?_⟩
      intro answer middle answered
      have still := step answer middle answered
      apply safe_record still
      intro next state same
      exact ⟨signals middle state still, answer, next, rfl, Or.inl ⟨middle, state, answered, rfl, same⟩⟩
  | putState page key value =>
      rw [Wrapping.perform_putState]
      split
      · rename_i held
        refine ⟨start, ?_⟩
        rintro state after ⟨_, _, rfl⟩
        dsimp only
        split
        · refine ⟨signals site state start, ?_⟩
          intro answer after answered
          rcases putState_signal answered with ⟨middle, before, rfl⟩
          exact ⟨signals middle state (step answer middle before), answer, wrappers, rfl,
            Or.inl ⟨middle, state, before, rfl, rfl⟩⟩
        · exact ⟨signals site state start, .ok (), _, rfl,
            Or.inr (Or.inl ⟨held, ⟨page, key, value, rfl⟩, state, rfl⟩)⟩
      · exact plain
  | getState key =>
      cases found : wrappers.heldAt key with
      | some value =>
          have read : whole.wrapping.perform (.getState key) wrappers = pure (.ok (some value), wrappers) := by
            simp only [Wrapping.perform, found]
          rw [read]
          exact ⟨start, .ok (some value), wrappers, rfl, Or.inr (Or.inr ⟨⟨key, rfl⟩, rfl⟩)⟩
      | none =>
          rw [Wrapping.perform_getState _ found]
          exact plain
  | _ => exact plain

/-- A program behind the wrappers keeps what each of its questions keeps. -/
theorem triple_within {invariant : Site -> Prop} {keeps : Site × Wrappers -> Prop} {Result : Type}
    {allowed : Op -> Prop} {returns : Result -> Prop} {program : Engine Result} (signals : Signalless invariant)
    (holds : forall site wrappers, keeps (site, wrappers) -> invariant site)
    (only : Only allowed returns program)
    (steps : forall op before answer after, allowed op -> keeps before ->
      whole.behind around op before answer after -> keeps after) (wrappers : Wrappers) :
    Triple (whole.environment around) invariant (fun site => keeps (site, wrappers))
      (whole.within program wrappers)
      (fun value site => returns value.1 ∧ keeps (site, value.2))
      (fun site => exists last, keeps (site, last)) := by
  refine (Triple.through (performs_behind signals holds) holds (only.triple steps (fun _ kept => kept))
    wrappers).consequence ?_ ?_ ?_
  · exact fun site kept => ⟨kept, kept⟩
  · exact fun value site ends => ends.2
  · rintro site ⟨last, kept, _⟩
    exact ⟨last, kept⟩

/-! ## Where the stored value may come from -/

/-- The bookmark of the last page that carries one. -/
def lastMark (marks : List (Option Value)) : Option Value :=
  marks.foldl (fun last mark => mark.orElse (fun _ => last)) none

/-- The staging is in place, in a run that was not found cancelled: it was
committed, or the load was flushed. -/
def Installed (whole : WholeRun) (site : Site) : Prop :=
  match whole.path with
  | .native => site.finalised = true
  | _ => site.committed = true

/-- The value under the key is the one the run found, or the one an older key
held while this one held nothing. -/
def Unmoved (whole : WholeRun) (start : Site) (key : String) (site : Site) : Prop :=
  site.store key = start.store key ∨
    (start.store key = none ∧ exists old, old ∈ whole.legacyStateKeys ∧ (start.store old).isSome = true ∧
      site.store key = start.store old)

/-- The value under the key is the position of the last page, and the staging
is in place. -/
def Swapped (whole : WholeRun) (key : String) (site : Site) : Prop :=
  whole.Installed site ∧ exists bookmark, lastMark site.marks = some bookmark ∧
    site.store key = some (whole.codec.encode bookmark)

def Placed (whole : WholeRun) (start : Site) (key : String) (site : Site) : Prop :=
  whole.Unmoved start key site ∨ whole.Swapped key site

section Overwrite

variable {start : Site} {key : String}

theorem Unmoved.same {site other : Site} (unmoved : whole.Unmoved start key site)
    (same : other.store = site.store) : whole.Unmoved start key other := by
  unfold Unmoved
  rw [same]
  exact unmoved

theorem signalless_placed : Signalless (whole.Placed start key) := fun _ _ placed => placed

/-! ## Before anything is read -/

/-- The store as the run found it. -/
structure Untouched (start : Site) (site : Site) : Prop where
  store : site.store = start.store
  quiet : site.cancelled = false
  unflushed : site.finalised = false

/-- The value under the key is the run's to start from. -/
structure Ready (whole : WholeRun) (start : Site) (key : String) (site : Site) : Prop where
  unmoved : whole.Unmoved start key site
  quiet : site.cancelled = false
  unflushed : site.finalised = false

theorem Untouched.ready {site : Site} (untouched : Untouched start site) : whole.Ready start key site :=
  ⟨Or.inl (congrFun untouched.store key), untouched.quiet, untouched.unflushed⟩

/-- Deleting an older key, whether or not it succeeds. -/
theorem triple_dropOld {old : String} (different : ¬old = key) :
    Triple (whole.environment around) (whole.Placed start key) (whole.Ready start key)
      (do
        let _ <- (invoke (.deleteState old) id).attempt
        pure ()) (fun _ => whole.Ready start key) (fun _ => True) := by
  have dropped : forall site : Site, whole.Ready start key site -> whole.Ready start key (site.drop old) := by
    intro site ready
    have same : (site.drop old).store key = site.store key := if_neg (fun same => different same.symm)
    refine ⟨?_, ready.quiet, ready.unflushed⟩
    unfold Unmoved
    rw [same]
    exact ready.unmoved
  have once : Triple (whole.environment around) (whole.Placed start key) (whole.Ready start key)
      (invoke (.deleteState old) id) (fun _ => whole.Ready start key) (whole.Ready start key) := by
    apply triple_invoke
    intro site answer after placed ready answered
    cases answer with
    | ok done =>
        rw [show after = site.drop old from answered]
        exact ⟨Or.inl (dropped site ready).unmoved, dropped site ready⟩
    | error error =>
        rcases answered with rfl | rfl
        · exact ⟨placed, ready⟩
        · exact ⟨Or.inl (dropped site ready).unmoved, dropped site ready⟩
  refine Triple.bind (fun _ => whole.Ready start key) ?_ (fun _ => Triple.pure (fun _ ready => ready))
  refine once.attempt ?_
  intro result site ends
  cases result with
  | ok done => exact ends
  | error error => exact ends

theorem triple_migrateFrom (empty : start.store key = none) (candidates : List String)
    (legacy : forall old, old ∈ candidates -> old ∈ whole.legacyStateKeys) :
    Triple (whole.environment around) (whole.Placed start key) (Untouched start)
      (migrateFrom key candidates) (fun _ => whole.Ready start key) (fun _ => True) := by
  induction candidates with
  | nil => exact Triple.pure (fun _ untouched => untouched.ready)
  | cons old rest ih =>
      have later := ih (fun other member => legacy other (List.mem_cons_of_mem _ member))
      unfold migrateFrom
      split
      · exact later
      · rename_i different
        refine Triple.bind (fun value site => Untouched start site ∧ value = start.store old) ?_ ?_
        · apply triple_invoke
          rintro site answer after placed untouched ⟨truly, rfl⟩
          refine ⟨placed, ?_⟩
          cases answer with
          | error error => trivial
          | ok value =>
              refine ⟨untouched, ?_⟩
              rw [truly value rfl, untouched.store]
        · intro value
          cases value with
          | none => exact later.given (fun _ holds => holds.1)
          | some value =>
              have moves : forall site : Site, Untouched start site -> some value = start.store old ->
                  whole.Ready start key (site.put key value) := by
                intro site untouched found
                refine ⟨Or.inr ⟨empty, old, legacy old List.mem_cons_self, ?_, ?_⟩, untouched.quiet,
                  untouched.unflushed⟩
                · rw [← found]
                  rfl
                · rw [← found]
                  exact if_pos rfl
              refine Triple.bind (fun _ => whole.Ready start key) ?_ ?_
              · apply triple_invoke
                rintro site answer after placed ⟨untouched, found⟩ answered
                have moved := moves site untouched found
                cases answer with
                | error error =>
                    rcases answered with rfl | ⟨_, rfl⟩
                    · exact ⟨placed, trivial⟩
                    · exact ⟨Or.inl moved.unmoved, trivial⟩
                | ok done =>
                    cases done with
                    | true =>
                        rcases answered with ⟨_, rfl⟩
                        exact ⟨Or.inl moved.unmoved, moved⟩
                    | false =>
                        rcases answered with ⟨_, rfl⟩
                        exact ⟨placed, untouched.ready⟩
              · intro done
                cases done with
                | false => exact Triple.pure (fun _ ready => ready)
                | true => exact triple_dropOld different

theorem triple_migrate (stored : whole.config.storeKey = some key) :
    Triple (whole.environment around) (whole.Placed start key) (Untouched start)
      whole.migrate (fun _ => whole.Ready start key) (fun _ => True) := by
  unfold migrate
  rw [stored]
  dsimp only
  split
  · exact Triple.pure (fun _ untouched => untouched.ready)
  · refine Triple.bind (fun current site => Untouched start site ∧ current = start.store key) ?_ ?_
    · apply triple_invoke
      rintro site answer after placed untouched ⟨truly, rfl⟩
      refine ⟨placed, ?_⟩
      cases answer with
      | error error => trivial
      | ok value =>
          refine ⟨untouched, ?_⟩
          rw [truly value rfl, untouched.store]
    · intro current
      cases current with
      | some value => exact Triple.pure (fun _ holds => holds.1.ready)
      | none =>
          intro site placed holds
          exact triple_migrateFrom holds.2.symm whole.legacyStateKeys (fun _ member => member) site placed
            holds.1

/-! ## Resuming -/

/-- What a run asks to find its position. -/
def Resumes : Op -> Prop
  | .getState _ => True
  | .applyStartBookmark _ => True
  | .lastCommittedToken _ => True
  | _ => False

theorem only_handOver (bookmark : Option Value) :
    Only Resumes (fun _ => True) (PipelineConfig.handOver bookmark) := by
  cases bookmark with
  | none => trivial
  | some bookmark => exact only_call trivial

theorem only_resume (pipeline : PipelineConfig) : Only Resumes (fun _ => True) pipeline.resume := by
  refine Only.andThen (Only.done _) ?_
  intro _
  refine Only.andThen ?_ ?_
  · unfold PipelineConfig.resumeFromState
    split
    · refine Only.andThen (Only.done _) ?_
      intro _
      refine Only.andThen (only_call trivial) ?_
      intro stored
      cases stored with
      | none => trivial
      | some stored =>
          refine Only.andThen (Only.done _) ?_
          intro prior
          unfold PipelineConfig.applyPrior
          split
          · exact Only.andThen (only_handOver _) (fun _ => trivial)
          · exact Only.andThen (only_call trivial) (fun _ => trivial)
    · trivial
  · intro startSeq
    unfold PipelineConfig.anchorAtSink
    split
    · refine Only.andThen (only_call trivial) ?_
      intro token
      unfold PipelineConfig.anchorAt
      split
      · split
        · exact Only.andThen (only_call trivial) (fun _ => trivial)
        · trivial
      · trivial
    · trivial

theorem ready_resumes {op : Op} {before after : Site × Wrappers} {answer : op.Answer} (asked : Resumes op)
    (ready : whole.Ready start key before.1 ∧ before.2.held = [])
    (answered : whole.behind around op before answer after) :
    whole.Ready start key after.1 ∧ after.2.held = [] := by
  rcases answered with ⟨middle, state, answered, after, held⟩ | ⟨_, ⟨page, other, value, rfl⟩, _⟩ | ⟨_, rfl⟩
  · have same : middle = before.1 ∨ exists bookmark, middle = { before.1 with handed := bookmark } := by
      cases op with
      | getState other => exact Or.inl answered.2
      | lastCommittedToken scope => exact Or.inl answered.2
      | applyStartBookmark bookmark =>
          cases answer with
          | ok done => exact Or.inr ⟨_, answered⟩
          | error error => exact answered.imp id (fun handed => ⟨_, handed⟩)
      | _ => exact asked.elim
    rw [after, held]
    rcases same with rfl | ⟨bookmark, rfl⟩
    · exact ⟨⟨ready.1.unmoved, ready.1.quiet, ready.1.unflushed⟩, ready.2⟩
    · exact ⟨⟨ready.1.unmoved, ready.1.quiet, ready.1.unflushed⟩, ready.2⟩
  · exact asked.elim
  · exact ready

/-- The resume reads and leaves the stored values alone. -/
theorem triple_resume :
    Triple (whole.environment around) (whole.Placed start key) (whole.Ready start key)
      (whole.within whole.config.resume Wrappers.new)
      (fun value site => whole.Ready start key site ∧ value.2.held = []) (fun _ => True) := by
  refine (triple_within signalless_placed (fun site _ ready => Or.inl ready.1.unmoved) (only_resume whole.config)
    (fun op before answer after asked ready => ready_resumes asked ready) Wrappers.new).consequence ?_ ?_ ?_
  · exact fun site ready => ⟨ready, rfl⟩
  · exact fun value site ends => ends.2
  · exact fun _ _ => trivial

/-! ## The value path -/

/-- A run that loops over pages with these bookmarks: nothing was stored or
held back, and only a run with a token is found cancelled. -/
structure Looping (whole : WholeRun) (start : Site) (key : String) (marks : List (Option Value))
    (place : Site × Wrappers) : Prop where
  unmoved : whole.Unmoved start key place.1
  marks : place.1.marks = marks
  released : place.2.held = []
  wired : place.1.cancelled = true -> whole.run.options.cancel = true

variable {marks : List (Option Value)}

/-- A question that stores nothing. -/
theorem engine_plainly {op : Op} {site middle : Site} {answer : op.Answer} (asked : Plainly [] op)
    (answered : whole.engine around op site answer middle) :
    middle.store = site.store ∧ middle.marks = site.marks ∧
      (site.cancelled = true -> middle.cancelled = true) ∧
      (middle.cancelled = true -> site.cancelled = true ∨ whole.run.options.cancel = true) := by
  have written : (exists rows, middle = { site with rows := rows }) ->
      middle.store = site.store ∧ middle.marks = site.marks ∧
        (site.cancelled = true -> middle.cancelled = true) ∧
        (middle.cancelled = true -> site.cancelled = true ∨ whole.run.options.cancel = true) := by
    rintro ⟨rows, rfl⟩
    exact ⟨rfl, rfl, id, Or.inl⟩
  have unchanged : middle = site ->
      middle.store = site.store ∧ middle.marks = site.marks ∧
        (site.cancelled = true -> middle.cancelled = true) ∧
        (middle.cancelled = true -> site.cancelled = true ∨ whole.run.options.cancel = true) := by
    rintro rfl
    exact ⟨rfl, rfl, id, Or.inl⟩
  cases op with
  | putState page key value => cases asked
  | writeBatchIdempotent page rows scope token => exact asked.elim
  | getState key => exact asked.elim
  | applyStartBookmark bookmark => exact asked.elim
  | streamPages => exact asked.elim
  | streamNative => exact asked.elim
  | isCancelled =>
      rcases answered with ⟨stays, wired, rfl⟩
      exact ⟨rfl, rfl, stays, wired⟩
  | writeGoverned page rows => exact written answered
  | writeBatchPartial page rows => exact written answered
  | writeBatchColumnar page records => exact written answered
  | loadNative page first =>
      rcases answered with ⟨rows, rfl⟩
      exact ⟨rfl, rfl, id, Or.inl⟩
  | flush =>
      cases answer with
      | ok done =>
          rw [show middle = _ from answered]
          exact ⟨rfl, rfl, id, Or.inl⟩
      | error error => exact unchanged answered
  | commitOverwrite =>
      cases answer with
      | ok done =>
          rcases answered with ⟨rows, rfl⟩
          exact ⟨rfl, rfl, id, Or.inl⟩
      | error error => exact written answered
  | applyGovernance page records => exact unchanged answered.2
  | lastCommittedToken scope => exact unchanged answered.2
  | _ => exact unchanged answered

theorem looping_plainly {op : Op} {before after : Site × Wrappers} {answer : op.Answer}
    (asked : Plainly [] op) (looping : whole.Looping start key marks before)
    (answered : whole.behind around op before answer after) :
    whole.Looping start key marks after ∧ (before.1.cancelled = true -> after.1.cancelled = true) := by
  rcases answered with ⟨middle, state, answered, rest, held⟩ | ⟨_, ⟨page, other, value, rfl⟩, _⟩ | ⟨_, rfl⟩
  · rcases engine_plainly asked answered with ⟨store, listed, stays, wired⟩
    constructor
    · constructor
      · rw [rest]
        exact looping.unmoved.same store
      · rw [rest]
        exact listed.trans looping.marks
      · exact held.trans looping.released
      · rw [rest]
        exact fun fired => (wired fired).elim looping.wired id
    · rw [rest]
      exact stays
  · cases asked
  · exact ⟨looping, id⟩

/-- A piece of the loop that stores nothing, and a fact that lasts unless the
run is found cancelled. -/
theorem loops_plain {Result : Type} {returns : Result -> Prop} {program : Engine Result} (fact : Prop)
    (only : Only (Plainly []) returns program) :
    Triple (whole.behind around) (whole.Looping start key marks)
      (fun place => whole.Looping start key marks place ∧ (place.1.cancelled = true ∨ fact)) program
      (fun value place => returns value ∧ (place.1.cancelled = true ∨ fact))
      (fun _ => True) := by
  refine (only.triple ?_ (fun _ kept => kept.1)).consequence (fun _ kept => kept)
    (fun _ _ ends => ⟨ends.1, ends.2.2⟩) (fun _ _ => trivial)
  rintro op before answer after asked ⟨looping, lasting⟩ answered
  rcases looping_plainly asked looping answered with ⟨still, stays⟩
  exact ⟨still, lasting.imp stays id⟩

/-- A piece of the loop that stores nothing. -/
theorem loops_quiet {Result : Type} {returns : Result -> Prop} {program : Engine Result}
    {pre : Site × Wrappers -> Prop} (only : Only (Plainly []) returns program) :
    Triple (whole.behind around) (whole.Looping start key marks) pre program
      (fun value _ => returns value) (fun _ => True) := by
  intro place looping _
  exact ((loops_plain True only).gives (fun _ _ ends => ends.1)) place looping ⟨looping, Or.inr trivial⟩

/-- Asking whether the run is cancelled. -/
theorem loops_isCancelled {wired : Bool} (fact : Prop) :
    Triple (whole.behind around) (whole.Looping start key marks)
      (fun place => place.1.cancelled = true ∨ fact)
      (if wired then .ask .isCancelled (fun fired => pure fired) else pure false : Engine Bool)
      (fun fired place => (fired = true -> place.1.cancelled = true) ∧ (place.1.cancelled = true ∨ fact) ∧
        (wired = true -> fired = false -> place.1.cancelled = false))
      (fun _ => True) := by
  split
  · apply Triple.ask
    intro before answer after looping lasting answered
    rcases looping_plainly (show Plainly [] .isCancelled from trivial) looping answered with ⟨still, stays⟩
    refine ⟨still, fun _ => ⟨still, ?_⟩⟩
    rcases answered with ⟨middle, state, ⟨_, _, rfl⟩, rest, _⟩ | ⟨_, ⟨_, _, _, impossible⟩, _⟩ |
      ⟨⟨_, impossible⟩, _⟩
    · refine ⟨fun fired => ?_, lasting.imp stays id, fun _ quiet => ?_⟩
      · rw [rest]
        exact fired
      · rw [rest]
        exact quiet
    · cases impossible
    · cases impossible
  · rename_i unwired
    exact Triple.pure (fun place lasting =>
      ⟨nofun, lasting, fun wired => absurd wired unwired⟩)

/-- The position after the rest of the pages. -/
def markFrom (last : Option Value) (items : List (Except FaucetError StreamPage)) : Option Value :=
  (items.map itemMark).foldl (fun last mark => mark.orElse (fun _ => last)) last

theorem usesWatermark_of_overwrite {run : Run} (overwrite : run.sink.isOverwrite = true) :
    run.usesWatermark ≠ .ok true := by
  unfold Run.usesWatermark
  intro uses
  cases mode : run.options.delivery with
  | atLeastOnce =>
      rw [mode] at uses
      cases uses
  | exactlyOnce =>
      rw [mode] at uses
      dsimp only at uses
      simp only [overwrite, if_true] at uses
      split at uses
      · split at uses
        · cases uses
        · split at uses
          · cases uses
          · cases uses
      · split at uses
        · cases uses
        · split at uses
          · cases uses
          · cases uses

/-- The loop ends on a cancellation, or with the bookmark of the last page that
carries one. -/
theorem loops_pageLoop {run : Run} (overwrite : run.sink.isOverwrite = true) {branch : Run.Branch}
    (untokened : branch.Untokened) (items : List (Except FaucetError StreamPage)) (page : Nat)
    (state : LoopState) :
    Triple (whole.behind around) (whole.Looping start key marks) (fun _ => True)
      (run.pageLoop branch items page state)
      (fun final place => place.1.cancelled = true ∨ final.1.lastBookmark = markFrom state.lastBookmark items)
      (fun _ => True) := by
  have stores : forall page bookmark, run.Stores [] page bookmark := by
    intro page bookmark writes
    rw [overwrite] at writes
    cases writes
  induction items generalizing page state with
  | nil =>
      unfold Run.pageLoop
      refine Triple.bind _ ((loops_isCancelled True).given (fun _ _ => Or.inr trivial)) ?_
      intro stops
      cases stops with
      | true => exact Triple.pure (fun _ ends => Or.inl (ends.1 rfl))
      | false =>
          refine Triple.bind _ ((loops_isCancelled True).given (fun _ _ => Or.inr trivial)) ?_
          intro drained
          exact Triple.pure (fun _ _ => Or.inr rfl)
  | cons item rest ih =>
      unfold Run.pageLoop
      refine Triple.bind _ ((loops_isCancelled True).given (fun _ _ => Or.inr trivial)) ?_
      intro stops
      cases stops with
      | true => exact Triple.pure (fun _ ends => Or.inl (ends.1 rfl))
      | false =>
          cases item with
          | error error => exact Triple.fails
          | ok content =>
              simp only [Bool.false_eq_true, if_false]
              split
              · rename_i skipped
                have unmarked : content.bookmark = none :=
                  Option.isNone_iff_eq_none.mp (Bool.and_eq_true_iff.mp skipped).2
                refine (ih (page + 1) state).consequence (fun _ _ => trivial) ?_
                  (fun _ ends => ends)
                intro final place ends
                refine ends.imp id (fun last => last.trans ?_)
                simp only [markFrom, List.map_cons, List.foldl_cons, itemMark, unmarked]
                rfl
              · refine Triple.bind (fun next _ =>
                  next.lastBookmark = content.bookmark.orElse (fun _ => state.lastBookmark)) ?_ ?_
                · exact loops_quiet (run.plain_stepPage branch untokened content
                    (stores page content.bookmark) state)
                · intro next place looping same
                  refine (ih (page + 1) next place looping trivial).weaken ?_
                  intro result after _ ends
                  cases result with
                  | error error => trivial
                  | ok final =>
                      refine ends.imp id (fun last => last.trans ?_)
                      rw [same]
                      rfl

/-- The value path stores nothing and ends with the last bookmark, unless it
is found cancelled. -/
theorem loops_runStream {run : Run} (overwrite : run.sink.isOverwrite = true)
    (items : List (Except FaucetError StreamPage)) :
    Triple (whole.behind around) (whole.Looping start key marks) (fun _ => True) (run.runStream items)
      (fun result place => place.1.cancelled = true ∨ result.bookmark = lastMark (items.map itemMark))
      (fun _ => True) := by
  refine Triple.bind (fun branch place => branch.Untokened) ?_ ?_
  · exact loops_quiet (run.plain_start (usesWatermark_of_overwrite overwrite))
  · intro branch place looping untokened
    have looped : Triple (whole.behind around) (whole.Looping start key marks) (fun _ => True)
        (run.pageLoop branch items 1 run.initialState).attempt
        (fun result place => forall final, result = .ok final ->
          place.1.cancelled = true ∨ final.1.lastBookmark = lastMark (items.map itemMark)) (fun _ => True) := by
      refine (loops_pageLoop overwrite untokened items 1 run.initialState).attempt ?_
      rintro result place ends final rfl
      exact ends
    refine Triple.bind _ looped ?_ place looping trivial
    intro result
    cases result with
    | error error =>
        refine Triple.bind (fun _ _ => True) ?_ (fun _ => Triple.fails)
        exact loops_quiet run.plain_unwind
    | ok final =>
        intro place looping ends
        have finished : Triple (whole.behind around) (whole.Looping start key marks)
            (fun place => whole.Looping start key marks place ∧ (place.1.cancelled = true ∨
              final.1.lastBookmark = lastMark (items.map itemMark))) (run.finish final.2)
            (fun _ place => place.1.cancelled = true ∨
              final.1.lastBookmark = lastMark (items.map itemMark)) (fun _ => True) :=
          (loops_plain _ (run.plain_finish final.2)).gives (fun _ _ ends => ends.2)
        exact Triple.bind _ finished (fun _ => Triple.pure (fun _ ends => ends)) place looping
          ⟨looping, ends final rfl⟩

/-! ## Cleanup and staging -/

theorem Looping.placed {place : Site × Wrappers} (looping : whole.Looping start key marks place) :
    whole.Placed start key place.1 := Or.inl looping.unmoved

/-- A loop that is over, with a fact that holds unless it was found
cancelled. -/
def Looped (whole : WholeRun) (start : Site) (key : String) (marks : List (Option Value)) (fact : Prop)
    (wrappers : Wrappers) (site : Site) : Prop :=
  whole.Looping start key marks (site, wrappers) ∧ (site.cancelled = true ∨ fact)

variable {fact : Prop} {wrappers : Wrappers}

/-- Nothing but the keys and the counters of a site has changed. -/
theorem Looped.same {site other : Site} {next : Wrappers}
    (looped : whole.Looped start key marks fact wrappers site) (store : other.store = site.store)
    (listed : other.marks = site.marks) (cancelled : other.cancelled = site.cancelled)
    (released : next.held = []) : whole.Looped start key marks fact next other := by
  refine ⟨⟨looped.1.unmoved.same store, listed.trans looped.1.marks, released, ?_⟩, ?_⟩
  · rw [show (other, next).1.cancelled = site.cancelled from cancelled]
    exact looped.1.wired
  · rw [cancelled]
    exact looped.2

theorem triple_count (outcome : CleanupOutcome) (seen : SeenKeys) :
    Triple (whole.environment around) (whole.Placed start key)
      (whole.Looped start key marks fact wrappers) (count outcome seen)
      (fun _ => whole.Looped start key marks fact wrappers) (fun _ => True) := by
  apply Triple.ask
  rintro site answer after placed looped rfl
  exact ⟨placed, fun still => ⟨still, looped.same rfl rfl rfl looped.1.released⟩⟩

theorem releaseHeld_of_released (released : wrappers.held = []) : whole.releaseHeld wrappers = pure () := by
  unfold releaseHeld
  rw [released]
  split
  · rfl
  · rfl

theorem triple_finishCleanup (policy : CleanupPolicy) (released : wrappers.held = []) :
    Triple (whole.environment around) (whole.Placed start key)
      (whole.Looped start key marks fact wrappers) (whole.finishCleanup policy wrappers)
      (fun next => whole.Looped start key marks fact next) (fun _ => True) := by
  unfold finishCleanup
  rw [releaseHeld_of_released released]
  split
  · refine Triple.bind _ (triple_count _ _) ?_
    intro _
    split
    · exact Triple.bind (fun _ _ => True) (Triple.pure (fun _ _ => trivial))
        (fun _ => Triple.fails)
    · exact Triple.fails
  · refine Triple.bind (fun _ => whole.Looped start key marks fact wrappers) ?_ ?_
    · have once : Triple (whole.environment around) (whole.Placed start key)
          (whole.Looped start key marks fact wrappers) (invoke (.cleanupScope policy.scope wrappers.seen) id)
          (fun _ => whole.Looped start key marks fact wrappers)
          (whole.Looped start key marks fact wrappers) := by
        apply triple_invoke
        rintro site answer after placed looped ⟨_, rows, next⟩
        have still : whole.Looped start key marks fact wrappers after := by
          rw [next]
          exact looped.same rfl rfl rfl released
        refine ⟨Or.inl still.1.unmoved, ?_⟩
        cases answer with
        | ok deleted => exact still
        | error error => exact still
      refine once.attempt ?_
      intro result site ends
      cases result with
      | ok deleted => exact ends
      | error error => exact ends
    · intro deleted
      cases deleted with
      | ok deleted =>
          refine Triple.bind _ (triple_count _ _) ?_
          intro _
          refine Triple.bind (fun _ => whole.Looped start key marks fact wrappers)
            (Triple.pure (fun _ looped => looped)) ?_
          intro _
          exact Triple.pure (fun _ looped => Looped.same looped rfl rfl rfl rfl)
      | error error =>
          exact Triple.bind _ (triple_count _ _) (fun _ => Triple.fails)

theorem triple_settleCleanup (readState : Option ReadState) :
    Triple (whole.environment around) (whole.Placed start key)
      (whole.Looped start key marks fact wrappers) (whole.settleCleanup readState wrappers)
      (fun next => whole.Looped start key marks fact next) (fun _ => True) := by
  unfold settleCleanup
  split
  · exact Triple.pure (fun _ looped => looped)
  · rename_i policy _
    have asked : Triple (whole.environment around) (whole.Placed start key)
        (whole.Looped start key marks fact wrappers)
        (whole.within (cancelledAtBoundary whole.run.options.cancel) wrappers)
        (fun value => whole.Looped start key marks fact value.2) (fun _ => True) := by
      have steps : forall op before (answer : op.Answer) after, Plainly [] op ->
          whole.Looped start key marks fact before.2 before.1 -> whole.behind around op before answer after ->
          whole.Looped start key marks fact after.2 after.1 := by
        intro op before answer after plainly looped answered
        rcases looping_plainly plainly looped.1 answered with ⟨still, stays⟩
        exact ⟨still, looped.2.imp stays id⟩
      exact (triple_within signalless_placed (fun _ _ looped => Or.inl looped.1.unmoved) plain_isCancelled steps
        wrappers).consequence (fun _ looped => looped) (fun _ _ ends => ends.2) (fun _ _ => trivial)
    refine Triple.bind _ asked ?_
    rintro ⟨cancelled, next⟩
    dsimp only
    split
    · exact Triple.bind _ (triple_count _ _) (fun _ => Triple.pure (fun _ looped => looped))
    · split
      · exact Triple.bind _ (triple_count _ _) (fun _ => Triple.pure (fun _ looped => looped))
      · exact Triple.pure (fun _ looped => looped)
      · exact fun site placed looped => triple_finishCleanup policy looped.1.released site placed looped
      · exact fun site placed looped => triple_finishCleanup policy looped.1.released site placed looped

/-- Unless the run is found cancelled, the position of the last page is
stored.  During a complete read it may be held back. -/
def Stored (whole : WholeRun) (key : String) (site : Site) : Prop :=
  whole.holding = false -> site.cancelled = false -> forall bookmark, lastMark site.marks = some bookmark ->
    site.store key = some (whole.codec.encode bookmark)

/-- A question of the staging, from a loop that is over. -/
abbrev Stages (whole : WholeRun) (around : Around) (start : Site) (key : String) {Result : Type}
    (pre : Site × Wrappers -> Prop) (program : Engine Result) (post : Result -> Site × Wrappers -> Prop) : Prop :=
  Triple (whole.behind around) (fun place => whole.Placed start key place.1) pre program post (fun _ => True)

/-- The staging was put in place, and the run was not found cancelled. -/
structure Committed (whole : WholeRun) (start : Site) (key : String) (marks : List (Option Value))
    (place : Site × Wrappers) : Prop where
  looping : whole.Looping start key marks place
  quiet : place.1.cancelled = false
  installed : whole.Installed place.1

theorem stages_of_loops {Result : Type} {pre escape : Site × Wrappers -> Prop}
    {post : Result -> Site × Wrappers -> Prop} {program : Engine Result}
    (loops : Triple (whole.behind around) (whole.Looping start key marks) pre program post escape) :
    Stages whole around start key (fun place => whole.Looping start key marks place ∧ pre place) program
      (fun value place => whole.Looping start key marks place ∧ post value place) :=
  (loops.relax (fun _ looping => looping.placed)).mayFail

theorem stages_abort :
    Stages whole around start key
      (fun place => whole.Looping start key marks place ∧ place.1.cancelled = true)
      (call .abortOverwrite id).attempt (fun _ place => place.1.cancelled = true) := by
  have asked : Plain [] (call .abortOverwrite id).attempt := plain_attempt (only_call trivial)
  have aborts : Triple (whole.behind around) (whole.Looping start key marks)
      (fun place => whole.Looping start key marks place ∧ (place.1.cancelled = true ∨ False))
      (call .abortOverwrite id).attempt (fun _ place => True ∧ (place.1.cancelled = true ∨ False))
      (fun _ => True) := loops_plain False asked
  refine (stages_of_loops aborts).consequence ?_ ?_ (fun _ ends => ends)
  · exact fun _ holds => ⟨holds.1, holds.1, Or.inl holds.2⟩
  · exact fun _ _ ends => ends.2.2.elim id False.elim

theorem stages_commit (streams : whole.path = .stream) :
    Stages whole around start key
      (fun place => whole.Looping start key marks place ∧ place.1.cancelled = false)
      (call .commitOverwrite id) (fun _ => whole.Committed start key marks) := by
  apply triple_call
  rintro ⟨site, wrappers⟩ answer ⟨after, next⟩ placed ⟨looping, uncancelled⟩ answered
  have still := (looping_plainly (show Plainly [] .commitOverwrite from trivial) looping answered).1
  refine ⟨still.placed, ?_⟩
  rcases answered with ⟨middle, state, answered, rest, _⟩ | ⟨_, ⟨_, _, _, impossible⟩, _⟩ | ⟨⟨_, impossible⟩, _⟩
  · cases answer with
    | error error => trivial
    | ok done =>
        rcases answered with ⟨rows, rfl⟩
        have kept : after.cancelled = false := (congrArg Site.cancelled rest).trans uncancelled
        refine ⟨still, kept, ?_⟩
        unfold Installed
        rw [streams, show after = _ from rest]
        change (!site.cancelled) = true
        rw [uncancelled]
        rfl
  · cases impossible
  · cases impossible

/-- Storing the position of the last page, once the staging is in place. -/
theorem stages_put (page : Nat) (bookmark : Value)
    (last : lastMark marks = some bookmark) :
    Stages whole around start key (whole.Committed start key marks)
      (call (.putState page key bookmark) id) (fun _ place => whole.Stored key place.1) := by
  apply triple_call
  rintro ⟨site, wrappers⟩ answer ⟨after, next⟩ placed committed answered
  have swapped : forall state, whole.Swapped key
      { site.put key (whole.codec.encode bookmark) with signal := state } := by
    intro state
    refine ⟨committed.installed, bookmark, ?_, if_pos rfl⟩
    rw [← last]
    exact congrArg lastMark committed.looping.marks
  have stored : forall state, whole.Stored key
      { site.put key (whole.codec.encode bookmark) with signal := state } := by
    intro state _ _ other found
    have same : lastMark marks = some other := (congrArg lastMark committed.looping.marks).symm.trans found
    rw [last] at same
    cases same
    exact if_pos rfl
  rcases answered with ⟨middle, state, answered, rest, _⟩ | ⟨held, _, state, rest⟩ | ⟨⟨_, impossible⟩, _⟩
  · cases answer with
    | ok done =>
        rw [show middle = _ from answered] at rest
        rw [show after = _ from rest]
        exact ⟨Or.inr (swapped state), stored state⟩
    | error error =>
        refine ⟨?_, trivial⟩
        rcases answered with rfl | rfl
        · rw [show after = _ from rest]
          exact placed
        · rw [show after = _ from rest]
          exact Or.inr (swapped state)
  · rw [show after = _ from rest]
    refine ⟨placed, ?_⟩
    cases answer with
    | error error => trivial
    | ok done =>
        intro free
        rw [held] at free
        cases free
  · cases impossible

theorem stages_finishOverwrite (streams : whole.path = .stream) (keyed : whole.config.storeKey = some key)
    (result : PipelineResult) :
    Stages whole around start key
      (fun place => whole.Looped start key marks (result.bookmark = lastMark marks) place.2 place.1)
      (whole.config.finishOverwrite marks (.ok result)) (fun _ place => whole.Stored key place.1) := by
  have asked : Stages whole around start key
      (fun place => whole.Looped start key marks (result.bookmark = lastMark marks) place.2 place.1)
      (cancelledAtBoundary whole.run.options.cancel)
      (fun fired place => whole.Looping start key marks place ∧
        ((fired = true ∧ place.1.cancelled = true) ∨
          (fired = false ∧ place.1.cancelled = false ∧ result.bookmark = lastMark marks))) := by
    have loops : Triple (whole.behind around) (whole.Looping start key marks)
        (fun place => place.1.cancelled = true ∨ result.bookmark = lastMark marks)
        (cancelledAtBoundary whole.run.options.cancel)
        (fun fired place => (fired = true -> place.1.cancelled = true) ∧
          (place.1.cancelled = true ∨ result.bookmark = lastMark marks) ∧
          (whole.run.options.cancel = true -> fired = false -> place.1.cancelled = false))
        (fun _ => True) := loops_isCancelled _
    refine (stages_of_loops loops).gives ?_
    rintro fired place ⟨looping, found, lasting, quiet⟩
    refine ⟨looping, ?_⟩
    cases fired with
    | true => exact Or.inl ⟨rfl, found rfl⟩
    | false =>
        have uncancelled : place.1.cancelled = false := by
          cases fired : place.1.cancelled with
          | false => rfl
          | true =>
              have never := quiet (looping.wired fired) rfl
              rw [fired] at never
              exact never
        refine Or.inr ⟨rfl, uncancelled, lasting.resolve_left ?_⟩
        rw [uncancelled]
        exact Bool.false_ne_true
  unfold PipelineConfig.finishOverwrite
  refine Triple.bind _ asked ?_
  intro fired
  cases fired with
  | true =>
      rintro place placed ⟨looping, ⟨_, cancelled⟩ | ⟨impossible, _⟩⟩
      · refine Triple.bind _ stages_abort ?_ place placed ⟨looping, cancelled⟩
        intro _
        refine Triple.pure (fun place cancelled _ quiet => ?_)
        rw [cancelled] at quiet
        cases quiet
      · cases impossible
  | false =>
      intro place placed held
      have last : result.bookmark = lastMark marks := by
        rcases held.2 with ⟨impossible, _⟩ | ⟨_, _, last⟩
        · cases impossible
        · exact last
      have uncancelled : place.1.cancelled = false := by
        rcases held.2 with ⟨impossible, _⟩ | ⟨_, quiet, _⟩
        · cases impossible
        · exact quiet
      refine Triple.bind _ (stages_commit streams) ?_ place placed ⟨held.1, uncancelled⟩
      intro _
      refine Triple.bind (fun _ place => whole.Stored key place.1) ?_ (fun _ => Triple.pure (fun _ ends => ends))
      rw [last]
      cases found : lastMark marks with
      | none =>
          refine Triple.pure (fun place committed _ _ bookmark present => ?_)
          rw [committed.looping.marks, found] at present
          cases present
      | some bookmark =>
          change Triple _ _ _ (putPosition whole.config.storeKey _ bookmark) _ _
          rw [keyed]
          exact stages_put _ bookmark found

/-! ## The native path -/

/-- The position a native run has held back. -/
def pendingMark (state : NativeRun.LoopState) : Option Value := state.pendingBookmark.map Prod.snd

/-- A native loop: nothing is stored, and the sink was not flushed. -/
structure Loading (whole : WholeRun) (start : Site) (key : String) (marks : List (Option Value))
    (place : Site × Wrappers) : Prop where
  looping : whole.Looping start key marks place
  unflushed : place.1.finalised = false

/-- What the native loop asks. -/
def Loads : Op -> Prop
  | .isCancelled => True
  | .loadNative _ _ => True
  | .foldAccount _ => True
  | _ => False

theorem loading_loads {op : Op} {before after : Site × Wrappers} {answer : op.Answer} (asked : Loads op)
    (loading : whole.Loading start key marks before) (answered : whole.behind around op before answer after) :
    whole.Loading start key marks after := by
  have plainly : Plainly [] op := by
    cases op with
    | isCancelled => trivial
    | loadNative page first => trivial
    | foldAccount account => trivial
    | _ => exact asked.elim
  refine ⟨(looping_plainly plainly loading.looping answered).1, ?_⟩
  rcases answered with ⟨middle, state, answered, rest, _⟩ | ⟨_, ⟨page, other, value, rfl⟩, _⟩ | ⟨_, rfl⟩
  · rw [rest]
    cases op with
    | isCancelled =>
        rcases answered with ⟨_, _, rfl⟩
        exact loading.unflushed
    | loadNative page first =>
        rcases answered with ⟨rows, rfl⟩
        rfl
    | foldAccount account =>
        rw [show middle = _ from answered]
        exact loading.unflushed
    | _ => exact asked.elim
  · exact asked.elim
  · exact loading.unflushed

/-- One batch: its bookmark is held back. -/
theorem only_nativeStep {run : NativeRun} (overwrite : run.overwrite = true) (page : Nat) (batch : NativeBatch)
    (state : NativeRun.LoopState) :
    Only Loads (fun next => pendingMark next = batch.bookmark.orElse (fun _ => pendingMark state))
      (run.stepPage page batch state) := by
  refine Only.andThen (only_call trivial) ?_
  intro loaded
  refine Only.andThen (only_settle (fun _ => trivial) _) ?_
  intro _
  unfold NativeRun.checkpoint
  cases batch.bookmark with
  | none => rfl
  | some bookmark =>
      simp only [overwrite, if_true]
      rfl

/-- The native loop ends on a cancellation, or with the bookmark of the last
batch that carries one held back. -/
theorem loads_pageLoop {run : NativeRun} (overwrite : run.overwrite = true)
    (wired : run.cancel = whole.run.options.cancel) (items : List (Except FaucetError NativeBatch)) (page : Nat)
    (state : NativeRun.LoopState) :
    Triple (whole.behind around) (whole.Loading start key marks) (fun _ => True)
      (run.pageLoop items page state)
      (fun final place => (final.2 = true ∧ place.1.cancelled = true) ∨
        (final.2 = false ∧ place.1.cancelled = false ∧
          pendingMark final.1 = (items.map batchMark).foldl (fun last mark => mark.orElse (fun _ => last))
            (pendingMark state)))
      (fun _ => True) := by
  have asked : Triple (whole.behind around) (whole.Loading start key marks) (fun _ => True)
      (cancelledAtBoundary run.cancel) (fun fired place => place.1.cancelled = fired) (fun _ => True) := by
    unfold cancelledAtBoundary
    split
    · apply Triple.ask
      intro before answer after loading _ answered
      have still := loading_loads (show Loads .isCancelled from trivial) loading answered
      refine ⟨still, fun _ => ⟨still, ?_⟩⟩
      rcases answered with ⟨middle, state, ⟨_, _, rfl⟩, rest, _⟩ | ⟨_, ⟨_, _, _, impossible⟩, _⟩ |
        ⟨⟨_, impossible⟩, _⟩
      · exact congrArg Site.cancelled rest
      · cases impossible
      · cases impossible
    · rename_i unwired
      intro place loading _
      refine ⟨loading, ?_⟩
      cases fired : place.1.cancelled with
      | false => exact fired
      | true => exact absurd (wired.trans (loading.looping.wired fired)) unwired
  induction items generalizing page state with
  | nil =>
      unfold NativeRun.pageLoop
      refine Triple.bind _ asked ?_
      intro stops
      cases stops with
      | true => exact Triple.pure (fun _ cancelled => Or.inl ⟨rfl, cancelled⟩)
      | false => exact Triple.pure (fun _ quiet => Or.inr ⟨rfl, quiet, rfl⟩)
  | cons item rest ih =>
      unfold NativeRun.pageLoop
      refine Triple.bind _ asked ?_
      intro stops
      cases stops with
      | true => exact Triple.pure (fun _ cancelled => Or.inl ⟨rfl, cancelled⟩)
      | false =>
          cases item with
          | error error => exact Triple.fails
          | ok batch =>
              simp only [Bool.false_eq_true, if_false]
              intro place loading _
              have stepped : Triple (whole.behind around) (whole.Loading start key marks)
                  (whole.Loading start key marks) (run.stepPage page batch state)
                  (fun next place => pendingMark next = batch.bookmark.orElse (fun _ => pendingMark state) ∧
                    whole.Loading start key marks place) (whole.Loading start key marks) :=
                (only_nativeStep overwrite page batch state).triple
                  (fun _ _ _ _ asked loading answered => loading_loads asked loading answered)
                  (fun _ loading => loading)
              have stepped := stepped.mayFail
              refine Triple.bind _ stepped ?_ place loading loading
              intro next place loading ends
              refine (ih (page + 1) next place loading trivial).weaken ?_
              intro result after _ finished
              cases result with
              | error error => trivial
              | ok final =>
                  refine finished.imp id (fun last => ⟨last.1, last.2.1, last.2.2.trans ?_⟩)
                  rw [ends.1]
                  rfl

/-- The terminal flush puts the load in place. -/
theorem stages_flush (native : whole.path = .native) :
    Stages whole around start key
      (fun place => whole.Loading start key marks place ∧ place.1.cancelled = false)
      flush (fun _ => whole.Committed start key marks) := by
  apply triple_call
  rintro ⟨site, wrappers⟩ answer ⟨after, next⟩ placed ⟨loading, uncancelled⟩ answered
  have still := (looping_plainly (show Plainly [] .flush from trivial) loading.looping answered).1
  refine ⟨still.placed, ?_⟩
  rcases answered with ⟨middle, state, answered, rest, _⟩ | ⟨_, ⟨_, _, _, impossible⟩, _⟩ | ⟨⟨_, impossible⟩, _⟩
  · cases answer with
    | error error => trivial
    | ok done =>
        rw [show middle = _ from answered] at rest
        have kept : after.cancelled = false := (congrArg Site.cancelled rest).trans uncancelled
        refine ⟨still, kept, ?_⟩
        unfold Installed
        rw [native, show after = _ from rest]
        change (!site.cancelled) = true
        rw [uncancelled]
        rfl
  · cases impossible
  · cases impossible

theorem stages_nativeFinish (native : whole.path = .native) (keyed : whole.config.storeKey = some key)
    (state : NativeRun.LoopState) (last : pendingMark state = lastMark marks) :
    Stages whole around start key
      (fun place => whole.Loading start key marks place ∧ place.1.cancelled = false)
      (whole.config.nativeRun.finish state) (fun _ place => whole.Stored key place.1) := by
  refine Triple.bind _ (stages_flush native) ?_
  intro _
  cases pending : state.pendingBookmark with
  | none =>
      refine Triple.pure (fun place committed _ _ bookmark present => ?_)
      rw [committed.looping.marks, ← last, pendingMark, pending] at present
      cases present
  | some held =>
      have found : lastMark marks = some held.2 := by
        rw [← last, pendingMark, pending]
        rfl
      refine Triple.bind (fun _ place => whole.Stored key place.1) ?_ (fun _ => Triple.pure (fun _ ends => ends))
      change Triple _ _ _ (putPosition whole.config.storeKey held.1 held.2) _ _
      rw [keyed]
      exact stages_put held.1 held.2 found

/-- The native path stores the last bookmark once its load is flushed, unless
it is found cancelled. -/
theorem stages_nativeStream (native : whole.path = .native) (overwrite : whole.run.sink.isOverwrite = true)
    (keyed : whole.config.storeKey = some key) (items : List (Except FaucetError NativeBatch))
    (listed : marks = items.map batchMark) :
    Stages whole around start key (whole.Loading start key marks)
      (whole.config.nativeRun.runStream items) (fun _ place => whole.Stored key place.1) := by
  have stops : whole.config.nativeRun.overwrite = true := overwrite
  have loops : Triple (whole.behind around) (whole.Loading start key marks) (fun _ => True)
      (whole.config.nativeRun.pageLoop items 1 ⟨0, none, none, true⟩)
      (fun final place => (final.2 = true ∧ place.1.cancelled = true) ∨
        (final.2 = false ∧ place.1.cancelled = false ∧ pendingMark final.1 = lastMark (items.map batchMark)))
      (fun _ => True) :=
    loads_pageLoop stops rfl items 1 ⟨0, none, none, true⟩
  have loops := (loops.relax (fun place loading => loading.looping.placed)).consequence
    (fun place loading => ⟨loading, trivial⟩) (fun _ _ ends => ends) (fun _ _ => trivial)
  refine Triple.bind _ loops ?_
  rintro ⟨state, cancelled⟩
  cases cancelled with
  | true =>
      simp only [stops, Bool.and_self, if_true]
      refine Triple.pure (fun place ends _ quiet => ?_)
      rcases ends.2 with ⟨_, cancelled⟩ | ⟨impossible, _⟩
      · rw [cancelled] at quiet
        cases quiet
      · cases impossible
  | false =>
      simp only [Bool.false_and, Bool.false_eq_true, if_false]
      rintro place placed ⟨loading, ⟨impossible, _⟩ | ⟨_, quiet, last⟩⟩
      · cases impossible
      · exact stages_nativeFinish native keyed state (last.trans (congrArg lastMark listed).symm) place placed
          ⟨loading, quiet⟩

/-! ## The whole run -/

theorem Looping.withWrappers {site : Site} {last next : Wrappers}
    (looping : whole.Looping start key marks (site, last)) (released : next.held = []) :
    whole.Looping start key marks (site, next) :=
  ⟨looping.unmoved, looping.marks, released, looping.wired⟩

/-- A piece of the staging behind the wrappers. -/
theorem triple_stages {Result : Type} {pre : Site × Wrappers -> Prop} {post : Result -> Site × Wrappers -> Prop}
    {program : Engine Result} (stages : Stages whole around start key pre program post) (wrappers : Wrappers) :
    Triple (whole.environment around) (whole.Placed start key) (fun site => pre (site, wrappers))
      (whole.within program wrappers) (fun value site => post value.1 (site, value.2)) (fun _ => True) := by
  intro site placed holds
  have performs : Performs (whole.environment around) (whole.Placed start key) (whole.behind around)
      (fun place => whole.Placed start key place.1) whole.wrapping.perform :=
    performs_behind signalless_placed (fun _ _ placed => placed)
  exact ((Triple.through performs (fun _ _ placed => placed) stages wrappers).consequence (fun _ holds => holds)
    (fun _ _ ends => ends.2) (fun _ _ => trivial)) site placed ⟨placed, holds⟩

theorem triple_finishStaging (streams : whole.path = .stream) (keyed : whole.config.storeKey = some key)
    (items : List (Except FaucetError StreamPage)) (result : PipelineResult) :
    Triple (whole.environment around) (whole.Placed start key)
      (whole.Looped start key (items.map itemMark) (result.bookmark = lastMark (items.map itemMark)) wrappers)
      (whole.finishStaging items (.ok result) wrappers)
      (fun _ site => whole.config.overwriting = true -> whole.Stored key site) (fun _ => True) := by
  unfold finishStaging
  split
  · refine Triple.bind _ (triple_stages (stages_finishOverwrite streams keyed result) wrappers) ?_
    rintro ⟨value, next⟩
    exact Triple.pure (fun _ stored _ => stored)
  · rename_i appends
    exact Triple.pure (fun _ _ overwriting => absurd overwriting appends)

theorem triple_discard (items : List (Except FaucetError StreamPage)) (error : FaucetError)
    {post : PipelineResult -> Site -> Prop} :
    Triple (whole.environment around) (whole.Placed start key)
      (fun site => whole.Looping start key marks (site, wrappers))
      (whole.finishStaging items (.error error) wrappers) post (fun _ => True) := by
  unfold finishStaging
  split
  · have discards : Stages whole around start key (whole.Looping start key marks)
        (whole.config.finishOverwrite (items.map itemMark) (.error error)) (fun _ _ => False) := by
      refine Triple.bind (fun _ _ => True) ?_ (fun _ => Triple.fails)
      have asked : Plain [] (call .abortOverwrite id).attempt := plain_attempt (only_call trivial)
      have aborts : Triple (whole.behind around) (whole.Looping start key marks) (fun _ => True)
          (call .abortOverwrite id).attempt (fun _ _ => True) (fun _ => True) := loops_quiet asked
      exact (stages_of_loops aborts).consequence (fun _ looping => ⟨looping, trivial⟩) (fun _ _ _ => trivial)
        (fun _ ends => ends)
    refine Triple.bind _ (triple_stages discards wrappers) ?_
    intro value
    exact fun _ _ impossible => impossible.elim
  · exact Triple.fails

theorem triple_currentReadState {pre : Site -> Prop} (signals : Signalless pre) :
    Triple (whole.environment around) (whole.Placed start key) pre whole.currentReadState (fun _ => pre)
      (fun _ => True) := by
  unfold currentReadState
  split
  · apply Triple.ask
    rintro site answer after placed holds ⟨_, _, rfl⟩
    exact ⟨placed, fun still => ⟨still, signals site answer holds⟩⟩
  · exact Triple.skip

theorem triple_transferStream (streams : whole.path = .stream) (overwrite : whole.run.sink.isOverwrite = true)
    (keyed : whole.config.storeKey = some key) (startSeq : Nat) (released : wrappers.held = [])
    (items : List (Except FaucetError StreamPage)) :
    Triple (whole.environment around) (whole.Placed start key)
      (fun site => whole.Looping start key (items.map itemMark) (site, wrappers))
      (whole.transferStream startSeq wrappers items)
      (fun _ site => whole.config.overwriting = true -> whole.Stored key site) (fun _ => True) := by
  have begins : Triple (whole.environment around) (whole.Placed start key)
      (fun site => whole.Looping start key (items.map itemMark) (site, wrappers))
      (if whole.config.overwriting then invoke (.engine .beginOverwrite) id else pure () : Lifecycle Unit)
      (fun _ site => whole.Looping start key (items.map itemMark) (site, wrappers)) (fun _ => True) := by
    split
    · apply triple_invoke
      rintro site answer after placed looping rfl
      refine ⟨placed, ?_⟩
      cases answer with
      | ok done => exact looping
      | error error => trivial
    · exact Triple.pure (fun _ looping => looping)
  have performs : Performs (whole.environment around) (whole.Placed start key) (whole.behind around)
      (whole.Looping start key (items.map itemMark)) whole.wrapping.perform :=
    performs_behind signalless_placed (fun _ _ looping => looping.placed)
  have streaming : (whole.config.startingAt startSeq).sink.isOverwrite = true := overwrite
  have loops := Triple.through performs (fun _ _ looping => looping.placed)
    (loops_runStream streaming items) wrappers
  have looped : Triple (whole.environment around) (whole.Placed start key)
      (fun site => whole.Looping start key (items.map itemMark) (site, wrappers))
      (whole.within ((whole.config.startingAt startSeq).runStream items) wrappers).attempt
      (fun result site => match result with
        | .ok value => whole.Looped start key (items.map itemMark)
            (value.1.bookmark = lastMark (items.map itemMark)) value.2 site
        | .error _ => whole.Looping start key (items.map itemMark) (site, wrappers)) (fun _ => True) := by
    refine (loops.given (fun _ looping => ⟨looping, trivial⟩)).attempt ?_
    intro result site ends
    cases result with
    | ok value => exact ends
    | error error =>
        rcases ends with ⟨last, looping, _⟩
        exact looping.withWrappers released
  refine Triple.bind _ (Triple.check whole.checkCleanup) ?_
  intro _
  refine Triple.bind _ begins ?_
  intro _
  refine Triple.bind _ looped ?_
  intro result
  cases result with
  | error error =>
      refine Triple.bind _ (triple_currentReadState ?_) (fun _ => triple_discard items error)
      exact fun _ _ looping => ⟨looping.unmoved, looping.marks, looping.released, looping.wired⟩
  | ok value =>
      refine Triple.bind _ (triple_currentReadState ?_) ?_
      · exact fun _ _ looped => looped.same rfl rfl rfl looped.1.released
      · intro readState
        refine Triple.bind _ (triple_settleCleanup readState) ?_
        intro next
        exact triple_finishStaging streams keyed items value.1

theorem Ready.looping {site after : Site} (ready : whole.Ready start key site) (released : wrappers.held = [])
    (store : after.store = site.store) (cancelled : after.cancelled = site.cancelled)
    (listed : after.marks = marks) : whole.Looping start key marks (after, wrappers) := by
  refine ⟨ready.unmoved.same store, listed, released, ?_⟩
  intro fired
  rw [show (after, wrappers).1.cancelled = false from cancelled.trans ready.quiet] at fired
  cases fired

theorem path_ne_columnar (overwrite : whole.run.sink.isOverwrite = true) : whole.path ≠ .columnar := by
  have never := whole.takesColumnar_eq_false (whole.mem_compatFeatures_of_overwrite overwrite) (by decide)
  unfold path
  rw [never]
  split
  · exact nofun
  · exact nofun

theorem triple_transfer (overwrite : whole.run.sink.isOverwrite = true)
    (keyed : whole.config.storeKey = some key) (startSeq : Nat) (released : wrappers.held = []) :
    Triple (whole.environment around) (whole.Placed start key)
      (whole.Ready start key) (whole.transfer startSeq wrappers)
      (fun _ site => whole.config.overwriting = true -> whole.Stored key site) (fun _ => True) := by
  unfold transfer
  cases chosen : whole.path with
  | stream =>
      apply Triple.ask
      rintro site items after placed ready ⟨_, next⟩
      have looping : whole.Looping start key (items.map itemMark) (after, wrappers) := by
        rw [next]
        exact ready.looping released rfl rfl rfl
      exact ⟨looping.placed, fun still =>
        triple_transferStream chosen overwrite keyed startSeq released items after still looping⟩
  | columnar => exact absurd chosen (path_ne_columnar overwrite)
  | native =>
      apply Triple.ask
      rintro site items after placed ready next
      have loading : whole.Loading start key (items.map batchMark) (after, wrappers) := by
        rw [show after = _ from next]
        exact ⟨ready.looping released rfl rfl rfl, ready.unflushed⟩
      refine ⟨loading.looping.placed, fun still => ?_⟩
      refine Triple.bind _ (triple_stages (stages_nativeStream chosen overwrite keyed items rfl) wrappers) ?_
        after still loading
      rintro ⟨value, next⟩
      exact Triple.pure (fun _ stored _ => stored)

/-- What holds of a run at its end. -/
theorem triple_body (overwrite : whole.run.sink.isOverwrite = true)
    (keyed : whole.config.storeKey = some key) :
    Triple (whole.environment around) (whole.Placed start key)
      (Untouched start) whole.body
      (fun _ site => whole.config.overwriting = true -> whole.Stored key site) (fun _ => True) := by
  refine Triple.bind _ (Triple.check whole.checkSource) ?_
  intro _
  refine Triple.bind _ (Triple.check whole.preflight) ?_
  intro _
  refine Triple.bind _ (triple_migrate keyed) ?_
  intro _
  refine Triple.bind _ triple_resume ?_
  rintro ⟨startSeq, wrappers⟩ site placed ⟨ready, released⟩
  exact triple_transfer overwrite keyed startSeq released site placed ready

/-- The end of a run stores nothing. -/
theorem triple_complete (result : PipelineResult) :
    Triple (whole.environment around) (whole.Placed start key)
      (fun site => whole.config.overwriting = true -> whole.Stored key site) (whole.complete result)
      (fun _ site => whole.config.overwriting = true -> whole.Stored key site) (fun _ => True) := by
  have only : Only (fun op => op = .isCancelled) (fun _ => True)
      (cancelledAtBoundary whole.run.options.cancel) := by
    unfold cancelledAtBoundary
    split
    · exact ⟨rfl, fun _ => trivial⟩
    · trivial
  have steps : forall op before (answer : op.Answer) after, op = .isCancelled ->
      (whole.Placed start key before.1 ∧ (whole.config.overwriting = true -> whole.Stored key before.1)) ->
      whole.behind around op before answer after ->
      whole.Placed start key after.1 ∧ (whole.config.overwriting = true -> whole.Stored key after.1) := by
    rintro op before answer ⟨after, next⟩ rfl ⟨placed, stored⟩ answered
    rcases answered with ⟨middle, state, ⟨stays, _, rfl⟩, rest, _⟩ | ⟨_, ⟨_, _, _, impossible⟩, _⟩ |
      ⟨⟨_, impossible⟩, _⟩
    · rw [show after = _ from rest]
      refine ⟨placed, fun overwriting free quiet => ?_⟩
      refine stored overwriting free (Bool.eq_false_iff.mpr (fun fired => ?_))
      rw [show answer = false from quiet] at stays
      cases stays fired
    · cases impossible
    · cases impossible
  have asked := triple_within signalless_placed (fun _ _ holds => holds.1) only steps Wrappers.new
  refine Triple.bind (fun _ site => whole.config.overwriting = true -> whole.Stored key site) ?_ ?_
  · intro site placed stored
    exact (asked.consequence (fun _ holds => holds) (fun _ _ ends => ends.2.2) (fun _ _ => trivial)) site placed
      ⟨placed, stored⟩
  · rintro ⟨cancelled, next⟩
    dsimp only
    split
    · exact Triple.pure (fun _ stored => stored)
    · refine Triple.bind (fun _ site => whole.config.overwriting = true -> whole.Stored key site) ?_
        (fun _ => Triple.pure (fun _ stored => stored))
      apply triple_invoke
      rintro site answer after placed stored rfl
      refine ⟨placed, ?_⟩
      cases answer with
      | ok done => exact stored
      | error error => trivial

/-- Over an overwriting sink, at every point of every run: the value under the
run's key is the one the run found, or one moved from an older key while the
key held nothing, or the bookmark of the last page that carries one, and then
the staging is in place.  A run that returns and was not found cancelled has
stored that bookmark. -/
theorem stored_after_swap (whole : WholeRun) (around : Around) (overwrite : whole.run.sink.isOverwrite = true)
    (key : String) (keyed : whole.config.storeKey = some key) (start last : Site)
    (final : Lifecycle PipelineResult)
    (reached : Reaches (whole.environment around) whole.program start.restart final last) :
    whole.Placed start key last ∧ forall result, final = .done (.ok result) ->
      whole.suppressOverwriteLifecycle = false -> whole.Stored key last := by
  have whole_triple : Triple (whole.environment around) (whole.Placed start key) (Untouched start)
      whole.program (fun _ site => whole.config.overwriting = true -> whole.Stored key site)
      (fun _ => True) :=
    Triple.bind _ (triple_body overwrite keyed) (fun result => triple_complete result)
  have safe := (whole_triple start.restart (Or.inl (Or.inl rfl)) ⟨rfl, rfl, rfl⟩).reaches reached
  refine ⟨safe.holds, ?_⟩
  rintro result rfl unsuppressed
  apply safe.2
  unfold PipelineConfig.overwriting
  rw [show whole.config.run.sink.isOverwrite = true from overwrite,
    show whole.config.suppressOverwriteLifecycle = false from unsuppressed]
  rfl

end Overwrite

end WholeRun

/-! ### A run whose position was stored under an older key -/

def sampleOverwrite : WholeRun where
  run :=
    { options :=
        { sampleRun.options with
          specs := { sampleSpecs with masking := none, quality := none, contract := none, schemaDrift := none }
          dlq := none }
      sink := ⟨"sink", false, false, true, false⟩ }
  suppressOverwriteLifecycle := false
  codec := ⟨"log", 0, false⟩
  migrateState := fun _ value => .ok value
  fromStr := fun _ => none
  sourceName := "log"
  consumesDestructively := false
  preflight := .ok ()
  legacyStateKeys := ["orders-v1"]
  nativeFormat := false
  supportsColumnar := true
  perRowSink := false
  maskingRetypesByValue := false
  governanceFeatures := []
  cleanup := none
  readCompleteness := none
  supportsCleanup := false

def sampleSwapPages : List (Except FaucetError StreamPage) :=
  [.ok ⟨[.string "a"], some (.string "1")⟩, .ok ⟨[.string "b"], some (.string "2")⟩, .ok ⟨[.string "c"], none⟩]

/-- A value under the older key, before any run. -/
def sampleLegacySite : Site := Site.blank.put "orders-v1" (.string "0")

def sampleSwapRun : Except FaucetError PipelineResult × Site :=
  execute (sampleOverwrite.calm sampleSwapPages 9) sampleOverwrite.program sampleLegacySite.restart

theorem reaches_sampleSwapRun :
    Reaches (sampleOverwrite.environment (WholeRun.calmAround sampleSwapPages 9)) sampleOverwrite.program
      sampleLegacySite.restart (.done sampleSwapRun.1) sampleSwapRun.2 :=
  reaches_execute (sampleOverwrite.calm sampleSwapPages 9) WholeRun.calm_possible sampleOverwrite.program
    sampleLegacySite.restart

/-- The run is over three pages and stores the bookmark of the second. -/
theorem stored_after_swap_sample :
    sampleSwapRun.1 = .ok ⟨3, some (.string "2"), none⟩ ∧
      sampleSwapRun.2.store "orders" = some (sampleOverwrite.codec.encode (.string "2")) := by
  have succeeds : sampleSwapRun.1 = .ok ⟨3, some (.string "2"), none⟩ := by decide +kernel
  have reached := reaches_sampleSwapRun
  rw [succeeds] at reached
  have stored := (WholeRun.stored_after_swap sampleOverwrite (WholeRun.calmAround sampleSwapPages 9) rfl "orders"
    rfl sampleLegacySite sampleSwapRun.2 _ reached).2 _ rfl rfl
  exact ⟨succeeds, stored rfl (by decide +kernel) (.string "2") (by decide +kernel)⟩

/-- Everything succeeds but the opening of the staging. -/
def sampleUnstaged : (op : LifecycleOp) -> Site -> op.Answer × Site
  | .engine .beginOverwrite, site => (.error (.sink "no space left"), site)
  | op, site => sampleOverwrite.calm sampleSwapPages 9 op site

theorem sampleUnstaged_possible (op : LifecycleOp) (site : Site) :
    sampleOverwrite.environment (WholeRun.calmAround sampleSwapPages 9) op site (sampleUnstaged op site).1
      (sampleUnstaged op site).2 := by
  unfold sampleUnstaged
  split
  · rfl
  · exact WholeRun.calm_possible _ site

def sampleUnstagedRun : Except FaucetError PipelineResult × Site :=
  execute sampleUnstaged sampleOverwrite.program sampleLegacySite.restart

/-- The value under the run's key changes although nothing was ever staged. -/
theorem moved_before_swap :
    sampleUnstagedRun.2.store "orders" = some (.string "0") ∧ sampleUnstagedRun.2.committed = false ∧
      ¬ forall (whole : WholeRun) (around : Around), whole.run.sink.isOverwrite = true ->
        forall (key : String), whole.config.storeKey = some key ->
        forall (start last : Site) (final : Lifecycle PipelineResult),
          Reaches (whole.environment around) whole.program start.restart final last ->
          last.store key = start.store key ∨ whole.Swapped key last := by
  have moved : sampleUnstagedRun.2.store "orders" = some (.string "0") := by decide +kernel
  have unstaged : sampleUnstagedRun.2.committed = false := by decide +kernel
  refine ⟨moved, unstaged, fun claimed => ?_⟩
  have reached := reaches_execute sampleUnstaged sampleUnstaged_possible sampleOverwrite.program
    sampleLegacySite.restart
  rcases claimed sampleOverwrite _ rfl "orders" rfl sampleLegacySite _ _ reached with same | swapped
  · rw [show (execute sampleUnstaged sampleOverwrite.program sampleLegacySite.restart).2.store "orders" = _
      from moved] at same
    exact absurd same (by decide +kernel)
  · have installed : sampleUnstagedRun.2.committed = true := swapped.1
    rw [unstaged] at installed
    cases installed

end Pipeline
end FaucetStream
