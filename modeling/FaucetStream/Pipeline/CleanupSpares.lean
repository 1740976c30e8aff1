import FaucetStream.Pipeline.CleanupKeys
import FaucetStream.Pipeline.OverwriteSwap

namespace FaucetStream
namespace Pipeline

open Json
open Library
open Governance
open Delivery
open Engine
open KeyedWrites

/-!
# Cleanup deletes no row the run delivered

From the pages to the whole run: the position the run goes on from is compared
with the sink's token, the pages are written and recorded, and the delete is
called once, after the loop, with the keys recorded by then.
-/

namespace WholeRun

variable {whole : WholeRun} {around : Around} {policy : CleanupPolicy}

/-! ## The start of a run -/

/-- The value a run finds under its key: its own, or the one moved there from
the first older key that has one. -/
def adopted (whole : WholeRun) (start : Site) (key : String) : Option Value :=
  (start.store key).or ((whole.legacyStateKeys.filter (fun old => old ≠ key)).findSome? start.store)

/-- The sequence number stored with that value. -/
def storedSeq (whole : WholeRun) (start : Site) (key : String) : Nat :=
  match whole.adopted start key with
  | none => 0
  | some stored =>
      match resolveWith key stored whole.codec.owner whole.codec.schema whole.migrateState with
      | .ok prior => (unwrapState prior).2
      | .error _ => 0

/-- The sink's token lies no further than the stored position, or the source is
anchored at the bookmark inside it. -/
def Aligned (whole : WholeRun) (start : Site) : Prop :=
  whole.run.usesWatermark = .ok true -> forall key, whole.run.options.stateKey = some key ->
    tokenSeq start key ≤ whole.storedSeq start key ∨
      (whole.config.anchors = true ∧ exists seq bookmark,
        (start.tokens key).bind (parseTokenParts whole.fromStr) = some (seq, some bookmark))

/-! ## A delete that spares what was delivered -/

/-- A record of a page is delivered under its key, whatever governance does. -/
def PassesOn (around : Around) (policy : CleanupPolicy) (content : StreamPage) (tuple : KeyTuple) : Prop :=
  (exists record, record ∈ content.records ∧ recordKey record policy.key = some tuple) ∧
    forall outcome, around.governs content.records outcome -> exists row other, row ∈ outcome.records ∧
      recordKey row policy.key = some other ∧ canonicalKeyText other = canonicalKeyText tuple

/-- The loop over these pages, from where the run had resumed, ended and had
recorded these keys. -/
def LoopEnded (whole : WholeRun) (around : Around) (items : List (Except FaucetError StreamPage))
    (seen : SeenKeys) : Prop :=
  exists startSeq wrappers opened result last ended,
    Steady whole items (opened, wrappers) ∧ Anchored (whole.config.startingAt startSeq) (opened, wrappers) ∧
      Reaches (whole.settled around) (whole.within ((whole.config.startingAt startSeq).runStream items) wrappers)
        opened (.done (.ok (result, last))) ended ∧
      last.seen = seen

/-- A call of the delete after a run over these pages. -/
structure Spares (whole : WholeRun) (around : Around) (policy : CleanupPolicy)
    (items : List (Except FaucetError StreamPage)) (call : CleanupCall) : Prop where
  ended : whole.LoopEnded around items call.seen
  uncancelled : call.cancelled = false
  /-- The keys of what governance made of each page. -/
  governed : forall item, item ∈ items -> exists content, item = .ok content ∧ (content.records = [] ∨
    exists outcome, around.governs content.records outcome ∧ forall row, row ∈ outcome.records ->
      forall tuple, recordKey row policy.key = some tuple -> call.seen.Has tuple)
  /-- The keys of the records the source yielded. -/
  yielded : forall content, .ok content ∈ items -> forall tuple, PassesOn around policy content tuple ->
    call.seen.Has tuple
  /-- Their rows stay. -/
  stays : forall content, .ok content ∈ items -> forall tuple, PassesOn around policy content tuple ->
    forall row, row ∈ call.before -> forall other, recordKey row policy.key = some other ->
      canonicalKeyText other = canonicalKeyText tuple -> row ∈ call.after

/-- At most one delete was called, and it spares what was delivered. -/
def Spared (whole : WholeRun) (around : Around) (policy : CleanupPolicy) (site : Site) : Prop :=
  site.cleanups.length ≤ 1 ∧ forall call, call ∈ site.cleanups -> whole.Spares around policy site.items call

theorem spared_of_unswept {site : Site} (unswept : site.cleanups = []) : whole.Spared around policy site := by
  unfold Spared
  rw [unswept]
  exact ⟨Nat.zero_le 1, nofun⟩

theorem Spared.same {site other : Site} (spared : whole.Spared around policy site)
    (cleanups : other.cleanups = site.cleanups) (items : other.items = site.items) :
    whole.Spared around policy other := by
  unfold Spared
  rw [cleanups, items]
  exact spared

/-! ## Before anything is read -/

/-- Nothing was read or written yet. -/
structure Fresh (start site : Site) : Prop where
  tokens : site.tokens = start.tokens
  unlost : site.lost = false
  unswept : site.cleanups = []
  unlisted : site.items = []
  uncancelled : site.cancelled = false

/-- The value under the key is the one the run goes on from. -/
structure Primed (whole : WholeRun) (start site : Site) : Prop where
  fresh : Fresh start site
  stored : forall key, whole.config.storeKey = some key -> site.store key = whole.adopted start key

variable {start : Site}

theorem Fresh.put {site : Site} (fresh : Fresh start site) (key : String) (value : Value) :
    Fresh start (site.put key value) :=
  ⟨fresh.tokens, fresh.unlost, fresh.unswept, fresh.unlisted, fresh.uncancelled⟩

theorem Fresh.drop {site : Site} (fresh : Fresh start site) (key : String) : Fresh start (site.drop key) :=
  ⟨fresh.tokens, fresh.unlost, fresh.unswept, fresh.unlisted, fresh.uncancelled⟩

theorem Fresh.spared {site : Site} (fresh : Fresh start site) : whole.Spared around policy site :=
  spared_of_unswept fresh.unswept

/-- Reading a stored value before anything was read. -/
theorem primes_getState (old : String) :
    Triple (whole.settled around) (whole.Spared around policy)
      (fun site => Fresh start site ∧ site.store = start.store) (invoke (.engine (.getState old)) id)
      (fun value site => (Fresh start site ∧ site.store = start.store) ∧ value = start.store old)
      (fun _ => True) := by
  apply triple_invoke
  rintro site answer after spared ⟨fresh, store⟩ ⟨⟨truly, same⟩, _⟩
  rw [show after = site from same]
  refine ⟨spared, ?_⟩
  cases answer with
  | error error => trivial
  | ok value =>
      refine ⟨⟨fresh, store⟩, ?_⟩
      rw [← store]
      exact truly value rfl

/-- Deleting an older key leaves the value that was moved. -/
theorem primes_dropOld {old key : String} {moved : Option Value} (different : ¬old = key) :
    Triple (whole.settled around) (whole.Spared around policy)
      (fun site => Fresh start site ∧ site.store key = moved)
      (do
        let _ <- (invoke (.deleteState old) id).attempt
        pure ())
      (fun _ site => Fresh start site ∧ site.store key = moved) (fun _ => True) := by
  have dropped : forall site : Site, Fresh start site ∧ site.store key = moved ->
      Fresh start (site.drop old) ∧ (site.drop old).store key = moved := by
    rintro site ⟨fresh, stored⟩
    exact ⟨fresh.drop old, (if_neg (fun same => different same.symm)).trans stored⟩
  have once : Triple (whole.settled around) (whole.Spared around policy)
      (fun site => Fresh start site ∧ site.store key = moved) (invoke (.deleteState old) id)
      (fun _ site => Fresh start site ∧ site.store key = moved)
      (fun site => Fresh start site ∧ site.store key = moved) := by
    apply triple_invoke
    rintro site answer after spared holds ⟨answered, _⟩
    cases answer with
    | ok done =>
        rw [show after = site.drop old from answered]
        exact ⟨(dropped site holds).1.spared, dropped site holds⟩
    | error error =>
        rcases answered with rfl | rfl
        · exact ⟨spared, holds⟩
        · exact ⟨(dropped site holds).1.spared, dropped site holds⟩
  refine Triple.bind (fun _ site => Fresh start site ∧ site.store key = moved) ?_
    (fun _ => Triple.skip)
  refine once.attempt ?_
  intro result site ends
  cases result with
  | ok done => exact ends
  | error error => exact ends

/-- The value of the first older key that has one ends up under the key. -/
theorem primes_migrateFrom {key : String} (empty : start.store key = none) (candidates : List String) :
    Triple (whole.settled around) (whole.Spared around policy)
      (fun site => Fresh start site ∧ site.store = start.store) (migrateFrom key candidates)
      (fun _ site => Fresh start site ∧
        site.store key = (candidates.filter (fun old => old ≠ key)).findSome? start.store)
      (fun _ => True) := by
  induction candidates with
  | nil =>
      refine Triple.pure ?_
      rintro site ⟨fresh, store⟩
      refine ⟨fresh, ?_⟩
      rw [store, empty]
      rfl
  | cons old rest ih =>
      unfold migrateFrom
      split
      · rename_i same
        rw [List.filter_cons_of_neg (by simp only [same, ne_eq, not_true_eq_false, decide_false,
          Bool.false_eq_true, not_false_eq_true])]
        exact ih
      · rename_i different
        rw [List.filter_cons_of_pos (by simp only [different, ne_eq, not_false_eq_true, decide_true]),
          List.findSome?_cons]
        refine Triple.bind _ (primes_getState old) ?_
        intro value
        cases value with
        | none =>
            rintro site spared ⟨holds, found⟩
            rw [← found]
            exact ih site spared holds
        | some value =>
            rintro site spared ⟨holds, found⟩
            rw [← found]
            dsimp only
            have moved : Triple (whole.settled around) (whole.Spared around policy)
                (fun site => Fresh start site ∧ site.store = start.store)
                (invoke (.compareAndPut key none value) id)
                (fun done site => done = true ∧ Fresh start site ∧ site.store key = some value)
                (fun _ => True) := by
              apply triple_invoke
              rintro site answer after spared ⟨fresh, store⟩ ⟨answered, _⟩
              cases answer with
              | error error =>
                  rcases answered with rfl | ⟨_, rfl⟩
                  · exact ⟨spared, trivial⟩
                  · exact ⟨(fresh.put key value).spared, trivial⟩
              | ok done =>
                  cases done with
                  | true =>
                      rcases answered with ⟨_, rfl⟩
                      exact ⟨(fresh.put key value).spared, rfl, fresh.put key value, if_pos rfl⟩
                  | false =>
                      rcases answered with ⟨taken, _⟩
                      rw [store] at taken
                      exact absurd empty taken
            refine Triple.bind _ moved ?_ site spared holds
            rintro done after still ⟨rfl, holds⟩
            exact primes_dropOld different after still holds

theorem primes_migrate :
    Triple (whole.settled around) (whole.Spared around policy)
      (fun site => Fresh start site ∧ site.store = start.store) whole.migrate
      (fun _ => Primed whole start) (fun _ => True) := by
  unfold migrate
  cases keyed : whole.config.storeKey with
  | none =>
      refine Triple.pure ?_
      rintro site ⟨fresh, _⟩
      refine ⟨fresh, fun key impossible => ?_⟩
      rw [keyed] at impossible
      cases impossible
  | some key =>
      have primed : forall site : Site, Fresh start site -> site.store key = whole.adopted start key ->
          Primed whole start site := by
        intro site fresh stored
        refine ⟨fresh, fun other same => ?_⟩
        rw [keyed] at same
        cases same
        exact stored
      dsimp only
      split
      · rename_i none_older
        refine Triple.pure ?_
        rintro site ⟨fresh, store⟩
        refine primed site fresh ?_
        unfold adopted
        rw [store, List.isEmpty_iff.mp none_older]
        exact Option.or_none.symm
      · refine Triple.bind _ (primes_getState key) ?_
        intro current
        cases current with
        | some value =>
            refine Triple.pure ?_
            rintro site ⟨⟨fresh, store⟩, found⟩
            refine primed site fresh ?_
            unfold adopted
            rw [store, ← found]
            rfl
        | none =>
            rintro site spared ⟨holds, found⟩
            refine (primes_migrateFrom found.symm whole.legacyStateKeys site spared holds).weaken ?_
            intro result after _ ends
            cases result with
            | error error => trivial
            | ok done =>
                refine primed after ends.1 ?_
                unfold adopted
                rw [← found]
                exact ends.2

/-! ## Resuming -/

theorem quiet_of_resumes {op : Op} (asked : Resumes op) : Quiet op := by
  cases op with
  | streamPages => exact asked.elim
  | writeBatchIdempotent page rows scope token => exact asked.elim
  | _ => trivial

theorem primed_resumes {op : Op} {before after : Site × Wrappers} {answer : op.Answer} (asked : Resumes op)
    (primed : Primed whole start before.1) (answered : whole.tracked around policy op before answer after) :
    Primed whole start after.1 := by
  have same : after.1 = before.1 ∨ exists bookmark, after.1 = { before.1 with handed := bookmark } := by
    have asked_on := answered.1.1
    cases op with
    | getState key => exact Or.inl asked_on.2
    | lastCommittedToken scope => exact Or.inl asked_on.2
    | applyStartBookmark bookmark =>
        cases answer with
        | ok done => exact Or.inr ⟨_, asked_on⟩
        | error error =>
            rcases asked_on with unchanged | handed
            · exact Or.inl unchanged
            · exact Or.inr ⟨_, handed⟩
    | _ => exact asked.elim
  rcases same with unchanged | ⟨bookmark, handed⟩
  · rw [unchanged]
    exact primed
  · rw [handed]
    exact ⟨⟨primed.fresh.tokens, primed.fresh.unlost, primed.fresh.unswept, primed.fresh.unlisted,
      primed.fresh.uncancelled⟩, primed.stored⟩

/-- A question of the resume, with what its answer says. -/
theorem resumes_call {Result : Type} {op : Op} {read : op.Answer -> Except FaucetError Result} (asked : Resumes op)
    (returns : Result -> Prop)
    (tells : forall before answer after, Primed whole start before.1 ->
      whole.tracked around policy op before answer after -> forall value, read answer = .ok value -> returns value) :
    Triple (whole.tracked around policy) (Steady whole []) (fun place => Primed whole start place.1) (call op read)
      (fun value place => returns value ∧ Primed whole start place.1) (fun _ => True) := by
  apply triple_call
  intro before answer after steady primed answered
  rcases tracked_quiet (quiet_of_resumes asked) answered with ⟨grows, _⟩
  refine ⟨steady.grows grows, ?_⟩
  cases result : read answer with
  | error error => trivial
  | ok value => exact ⟨tells before answer after primed answered value result, primed_resumes asked primed answered⟩

theorem resumes_handOver (bookmark : Option Value) :
    Triple (whole.tracked around policy) (Steady whole []) (fun place => Primed whole start place.1)
      (PipelineConfig.handOver bookmark) (fun _ place => Primed whole start place.1) (fun _ => True) := by
  cases bookmark with
  | none => exact Triple.pure (fun _ primed => primed)
  | some bookmark =>
      have asked : Resumes (.applyStartBookmark bookmark) := trivial
      exact (resumes_call asked (fun _ => True) (fun _ _ _ _ _ _ _ => trivial)).gives (fun _ _ ends => ends.2)

variable {key : String}

/-- The sequence number a run resumes from is the stored one. -/
theorem resumes_fromState (mode : whole.run.options.delivery = .exactlyOnce)
    (stateful : whole.run.options.stateStore = true) (keyed : whole.run.options.stateKey = some key) :
    Triple (whole.tracked around policy) (Steady whole []) (fun place => Primed whole start place.1)
      whole.config.resumeFromState
      (fun seq place => seq = whole.storedSeq start key ∧ Primed whole start place.1) (fun _ => True) := by
  have named : whole.config.storeKey = some key := by
    unfold PipelineConfig.storeKey
    rw [show whole.config.run.options.stateStore = true from stateful,
      show whole.config.run.options.stateKey = some key from keyed]
    rfl
  unfold PipelineConfig.resumeFromState
  rw [show whole.config.run.options.stateStore = true from stateful,
    show whole.config.run.options.stateKey = some key from keyed]
  dsimp only
  refine Triple.bind _ (Triple.check _) ?_
  intro _
  refine Triple.bind (fun stored place => stored = whole.adopted start key ∧ Primed whole start place.1) ?_ ?_
  · refine resumes_call (show Resumes (.getState key) from trivial) _ ?_
    rintro before answer after primed answered stored rfl
    rw [← primed.stored key named]
    exact answered.1.1.1 stored rfl
  · intro stored
    cases stored with
    | none =>
        refine Triple.pure ?_
        rintro place ⟨found, primed⟩
        refine ⟨?_, primed⟩
        unfold storedSeq
        rw [← found]
    | some stored =>
        refine Triple.bind _ (Triple.checked _) ?_
        rintro prior place steady ⟨resolved, found, primed⟩
        have same : (unwrapState prior).2 = whole.storedSeq start key := by
          unfold storedSeq
          rw [← found]
          dsimp only
          rw [show resolveWith key stored whole.codec.owner whole.codec.schema whole.migrateState = .ok prior
            from resolved]
        unfold PipelineConfig.applyPrior
        rw [show whole.config.run.options.delivery = .exactlyOnce from mode]
        exact Triple.bind _ (resumes_handOver _) (fun _ => Triple.pure (fun _ primed => ⟨same, primed⟩)) place
          steady primed

theorem parseToken_of_parts {token : String} {seq : Nat} {bookmark : Option Value}
    (parsed : parseTokenParts whole.fromStr token = some (seq, bookmark)) : parseToken token = some seq := by
  unfold parseTokenParts at parsed
  unfold parseToken
  cases split : splitToken token.toList with
  | none =>
      rw [split] at parsed
      rcases Option.map_eq_some_iff.mp parsed with ⟨read, found, same⟩
      cases same
      exact found
  | some parts =>
      rw [split] at parsed
      rcases Option.map_eq_some_iff.mp parsed with ⟨read, found, same⟩
      cases same
      exact found

/-- An anchored run goes on from the token when it is further. -/
theorem resumes_anchorAt (startSeq : Nat) (parts : Option (Nat × Option Value)) :
    Triple (whole.tracked around policy) (Steady whole []) (fun place => Primed whole start place.1)
      (PipelineConfig.anchorAt startSeq parts)
      (fun seq place => (startSeq ≤ seq ∧ forall sinkSeq bookmark, parts = some (sinkSeq, some bookmark) ->
        sinkSeq ≤ seq) ∧ Primed whole start place.1) (fun _ => True) := by
  unfold PipelineConfig.anchorAt
  split
  · rename_i sinkSeq bookmark
    split
    · rename_i ahead
      refine Triple.bind _ (resumes_handOver (some bookmark)) ?_
      intro _
      refine Triple.pure (fun _ primed => ⟨⟨Nat.le_of_lt ahead, ?_⟩, primed⟩)
      rintro other mark same
      cases same
      exact Nat.le_refl _
    · rename_i within
      refine Triple.pure (fun _ primed => ⟨⟨Nat.le_refl _, ?_⟩, primed⟩)
      rintro other mark same
      cases same
      exact Nat.le_of_not_lt within
  · rename_i otherwise
    refine Triple.pure (fun _ primed => ⟨⟨Nat.le_refl _, ?_⟩, primed⟩)
    intro sinkSeq bookmark same
    exact absurd same (otherwise sinkSeq bookmark)

theorem resumes_anchorAtSink (keyed : whole.run.options.stateKey = some key) (startSeq : Nat) :
    Triple (whole.tracked around policy) (Steady whole []) (fun place => Primed whole start place.1)
      (whole.config.anchorAtSink startSeq)
      (fun seq place => (startSeq ≤ seq ∧ (whole.config.anchors = true -> forall sinkSeq bookmark,
        (start.tokens key).bind (parseTokenParts whole.fromStr) = some (sinkSeq, some bookmark) ->
          sinkSeq ≤ seq)) ∧ Primed whole start place.1) (fun _ => True) := by
  unfold PipelineConfig.anchorAtSink
  rw [show whole.config.run.options.stateKey = some key from keyed]
  cases anchored : whole.config.anchors with
  | false =>
      exact Triple.pure (fun _ primed => ⟨⟨Nat.le_refl _, nofun⟩, primed⟩)
  | true =>
      refine Triple.bind (fun token place => token = start.tokens key ∧ Primed whole start place.1) ?_ ?_
      · refine resumes_call (show Resumes (.lastCommittedToken key) from trivial) _ ?_
        rintro before answer after primed answered token rfl
        rw [← primed.fresh.tokens]
        exact answered.1.1.1 token rfl
      · rintro token place steady ⟨rfl, primed⟩
        refine (resumes_anchorAt startSeq _ place steady primed).weaken ?_
        intro result last _ ends
        cases result with
        | error error => trivial
        | ok seq => exact ⟨⟨ends.1.1, fun _ => ends.1.2⟩, ends.2⟩

theorem of_usesWatermark {run : Run} (uses : run.usesWatermark = .ok true) :
    run.options.delivery = .exactlyOnce ∧ run.options.stateStore = true ∧ exists key, run.options.stateKey =
      some key := by
  unfold Run.usesWatermark at uses
  cases mode : run.options.delivery with
  | atLeastOnce =>
      rw [mode] at uses
      cases uses
  | exactlyOnce =>
      rw [mode] at uses
      dsimp only at uses
      split at uses
      · split at uses
        · cases uses
        · rename_i stored
          simp only [Bool.or_eq_true, Bool.not_eq_true, not_or, Bool.not_eq_eq_eq_not, Bool.not_true,
            Bool.not_eq_false] at stored
          refine ⟨rfl, stored.1, ?_⟩
          cases named : run.options.stateKey with
          | none =>
              rw [named] at stored
              cases stored.2
          | some key => exact ⟨key, rfl⟩
      · split at uses
        · cases uses
        · split at uses
          · cases uses
          · cases uses

/-- A run goes on from no earlier a page than the sink's token. -/
theorem resumes_anchored (aligned : whole.Aligned start) :
    Triple (whole.tracked around policy) (Steady whole []) (fun place => Primed whole start place.1)
      whole.config.resume
      (fun seq place => Anchored (whole.config.startingAt seq) place ∧ Primed whole start place.1)
      (fun _ => True) := by
  by_cases watermark : whole.run.usesWatermark = .ok true
  · rcases of_usesWatermark watermark with ⟨mode, stateful, key, keyed⟩
    unfold PipelineConfig.resume
    refine Triple.bind _ (Triple.check _) ?_
    intro _
    refine Triple.bind _ (resumes_fromState mode stateful keyed) ?_
    rintro startSeq place steady ⟨rfl, primed⟩
    refine (resumes_anchorAtSink keyed _ place steady primed).weaken ?_
    intro result last _ ends
    cases result with
    | error error => trivial
    | ok seq =>
        refine ⟨fun _ => ⟨ends.2.fresh.unlost, ?_⟩, ends.2⟩
        have sameScope : (whole.config.startingAt seq).scope = key := by
          change whole.run.options.stateKey.getD "" = key
          rw [keyed]
          rfl
        rw [sameScope]
        have same : tokenSeq last.1 key = tokenSeq start key := by
          unfold tokenSeq
          rw [ends.2.fresh.tokens]
        rw [same]
        rcases aligned watermark key keyed with behind | ⟨anchors, sinkSeq, bookmark, parsed⟩
        · exact Nat.le_trans behind ends.1.1
        · have reached := ends.1.2 anchors sinkSeq bookmark parsed
          rcases Option.bind_eq_some_iff.mp parsed with ⟨token, held, parts⟩
          have read : tokenSeq start key = sinkSeq := by
            unfold tokenSeq
            rw [held, Option.bind_some, parseToken_of_parts parts]
            rfl
          rw [read]
          exact reached
  · have only := (only_resume whole.config)
    have kept : Triple (whole.tracked around policy) (Steady whole [])
        (fun place => Steady whole [] place ∧ Primed whole start place.1) whole.config.resume
        (fun _ place => True ∧ Steady whole [] place ∧ Primed whole start place.1)
        (fun place => Steady whole [] place ∧ Primed whole start place.1) := by
      refine only.triple ?_ (fun _ holds => holds.1)
      rintro op before answer after asked ⟨steady, primed⟩ answered
      exact ⟨steady.grows (tracked_quiet (quiet_of_resumes asked) answered).1, primed_resumes asked primed answered⟩
    intro place steady primed
    refine (kept place steady ⟨steady, primed⟩).weaken ?_
    intro result last _ ends
    cases result with
    | error error => trivial
    | ok seq => exact ⟨fun uses => absurd uses watermark, ends.2.2⟩

/-! ## From the pages to the delete -/

section Sweeping

variable {items : List (Except FaucetError StreamPage)} {Result : Type}
  (cleans : whole.cleanup = some policy) (always : policy.trigger = .always)

theorem Steady.spared {site : Site} {wrappers : Wrappers} (steady : Steady whole items (site, wrappers)) :
    whole.Spared around policy site := spared_of_unswept steady.unswept

include cleans always in
/-- A piece of the loops behind the tracker. -/
theorem triple_tracked {program : Engine Result} {pre : Site × Wrappers -> Prop}
    {post : Result -> Site × Wrappers -> Prop}
    (inner : Triple (whole.tracked around policy) (Steady whole items) pre program post (fun _ => True))
    (wrappers : Wrappers) :
    Triple (whole.settled around) (whole.Spared around policy)
      (fun site => Steady whole items (site, wrappers) ∧ pre (site, wrappers)) (whole.within program wrappers)
      (fun value site => Steady whole items (site, value.2) ∧ post value.1 (site, value.2))
      (fun site => exists last, Steady whole items (site, last)) := by
  refine (Triple.through (performs_tracked cleans always (fun _ _ steady => steady.spared)
    (fun _ _ steady => steady.released)) (fun _ _ steady => steady.spared) inner wrappers).consequence
    (fun _ holds => holds) (fun _ _ ends => ends) ?_
  rintro site ⟨last, steady, _⟩
  exact ⟨last, steady⟩

/-- A loop that is over, with what its tracker recorded. -/
structure Ended (whole : WholeRun) (around : Around) (policy : CleanupPolicy)
    (items : List (Except FaucetError StreamPage)) (last : Wrappers) (site : Site) : Prop where
  steady : Steady whole items (site, last)
  seen : AllSeen around policy items (site, last)
  ended : whole.LoopEnded around items last.seen

include cleans always in
/-- The loop, with how it ended. -/
theorem triple_loop (startSeq : Nat) (wrappers : Wrappers) :
    Triple (whole.settled around) (whole.Spared around policy)
      (fun site => Steady whole items (site, wrappers) ∧
        Anchored (whole.config.startingAt startSeq) (site, wrappers))
      (whole.within ((whole.config.startingAt startSeq).runStream items) wrappers).attempt
      (fun result site => match result with
        | .ok value => Ended whole around policy items value.2 site
        | .error _ => exists last, Steady whole items (site, last)) (fun _ => True) := by
  intro site spared holds
  apply Safe.attempt
  have streamed : Triple (whole.tracked around policy) (Steady whole items)
      (Anchored (whole.config.startingAt startSeq)) ((whole.config.startingAt startSeq).runStream items)
      (fun _ place => AllSeen around policy items place) (fun _ => True) := tracks_runStream _
  refine (triple_tracked cleans always streamed wrappers site spared holds).reached.weaken ?_
  rintro result after _ ⟨ends, reached⟩
  cases result with
  | error error => exact ends
  | ok value =>
      exact ⟨ends.1, ends.2, startSeq, wrappers, site, value.1, value.2, after, holds.1, holds.2, reached, rfl⟩

include cleans always in
/-- The run is asked once more whether it was cancelled. -/
theorem triple_boundary (last : Wrappers) :
    Triple (whole.settled around) (whole.Spared around policy) (Ended whole around policy items last)
      (whole.within (cancelledAtBoundary whole.run.options.cancel) last)
      (fun value site => value.2 = last ∧ Ended whole around policy items last site ∧
        (value.1 = false -> site.cancelled = false)) (fun _ => True) := by
  have inner : Triple (whole.tracked around policy) (Steady whole items)
      (fun place => place.2 = last ∧ AllSeen around policy items place)
      (cancelledAtBoundary whole.run.options.cancel)
      (fun fired place => (place.2 = last ∧ AllSeen around policy items place) ∧
        (fired = true -> place.1.cancelled = true) ∧
        (whole.run.options.cancel = true -> fired = false -> place.1.cancelled = false)) (fun _ => True) := by
    apply tracks_asksCancelled
    rintro before answer after answered steady ⟨kept, seen⟩
    refine ⟨answered.2.trans kept, ?_⟩
    exact growing_allSeen before after steady.sound
      (tracked_quiet (show Quiet .isCancelled from trivial) answered).1 seen
  intro site spared loopOver
  refine (triple_tracked cleans always inner last site spared ⟨loopOver.steady, rfl, loopOver.seen⟩).weaken ?_
  intro result after _ ends
  cases result with
  | error error => trivial
  | ok value =>
      rcases ends with ⟨steady, ⟨same, seen⟩, _, quiet⟩
      rw [same] at steady seen
      refine ⟨same, ⟨steady, seen, loopOver.ended⟩, ?_⟩
      intro unfired
      cases fired : after.cancelled with
      | false => rfl
      | true =>
          have never := quiet (steady.wired fired) unfired
          rw [show (after, value.2).1.cancelled = true from fired] at never
          exact never

theorem triple_counted (outcome : CleanupOutcome) (seen : SeenKeys) {pre : Site -> Prop}
    (keeps : forall site overflows, pre site -> pre { site with overflows := overflows }) :
    Triple (whole.settled around) (whole.Spared around policy) pre (count outcome seen) (fun _ => pre)
      (fun _ => True) := by
  apply Triple.ask
  rintro site answer after spared holds ⟨next, _⟩
  rw [show after = _ from next]
  exact ⟨spared.same rfl rfl, fun still => ⟨still, keeps site _ holds⟩⟩

include cleans always in
/-- What a call of the delete after the loop spares. -/
theorem Ended.spares {last : Wrappers} {site : Site} (loopOver : Ended whole around policy items last site)
    (within : last.seen.overflowed = false) (uncancelled : site.cancelled = false) {rows : List Value}
    {succeeded : Bool}
    (kept : forall row, row ∈ site.rows -> forall tuple, recordKey row whole.cleanupKey = some tuple ->
      last.seen.Has tuple -> row ∈ rows) :
    whole.Spares around policy items ⟨last.seen, succeeded, site.signal, site.cancelled, site.rows, rows⟩ := by
  have key : whole.cleanupKey = policy.key := by
    unfold cleanupKey
    rw [policy_of_always cleans always]
    rfl
  have governed : forall item, item ∈ items -> exists content, item = .ok content ∧ (content.records = [] ∨
      exists outcome, around.governs content.records outcome ∧ forall row, row ∈ outcome.records ->
        forall tuple, recordKey row policy.key = some tuple -> last.seen.Has tuple) := by
    intro item member
    rcases loopOver.seen with cancelled | each
    · rw [show site.cancelled = true from cancelled] at uncancelled
      cases uncancelled
    · rcases each item member with ⟨content, shape, sees⟩
      refine ⟨content, shape, sees.imp id ?_⟩
      rintro ⟨outcome, governs, overflowed | there⟩
      · rw [show last.seen.overflowed = true from overflowed] at within
        cases within
      · exact ⟨outcome, governs, there⟩
  have yielded : forall content, .ok content ∈ items -> forall tuple, PassesOn around policy content tuple ->
      last.seen.Has tuple := by
    rintro content member tuple ⟨⟨record, present, _⟩, passes⟩
    rcases governed (.ok content) member with ⟨same, shape, empty | ⟨outcome, governs, there⟩⟩
    · cases shape
      rw [empty] at present
      cases present
    · cases shape
      rcases passes outcome governs with ⟨row, other, kept, read, spelled⟩
      rcases there row kept other read with ⟨found, listed, text⟩
      exact ⟨found, listed, text.trans spelled⟩
  refine ⟨loopOver.ended, uncancelled, governed, yielded, ?_⟩
  intro content member tuple passes row present other read spelled
  rw [← key] at read
  refine kept row present other read ?_
  rcases yielded content member tuple passes with ⟨found, listed, text⟩
  exact ⟨found, listed, text.trans spelled.symm⟩

include cleans always in
theorem triple_sweep (last : Wrappers) :
    Triple (whole.settled around) (whole.Spared around policy)
      (fun site => Ended whole around policy items last site ∧ site.cancelled = false)
      (whole.finishCleanup policy last) (fun next _ => next.held = []) (fun _ => True) := by
  intro site spared holds
  have released : last.held = [] := holds.1.steady.released
  unfold finishCleanup
  rw [releaseHeld_of_released released]
  have counts : forall outcome, Triple (whole.settled around) (whole.Spared around policy) (fun _ => True)
      (count outcome last.seen) (fun _ _ => True) (fun _ => True) :=
    fun outcome => triple_counted outcome last.seen (fun _ _ _ => trivial)
  split
  · refine Triple.bind _ (counts .refusedOverflow) ?_ site spared trivial
    intro _
    split
    · exact Triple.bind (fun _ _ => True) (Triple.pure (fun _ _ => trivial))
        (fun _ => Triple.fails)
    · exact Triple.fails
  · rename_i within
    have once : Triple (whole.settled around) (whole.Spared around policy)
        (fun site => Ended whole around policy items last site ∧ site.cancelled = false)
        (invoke (.cleanupScope policy.scope last.seen) id) (fun _ _ => True) (fun _ => True) := by
      apply triple_invoke
      rintro before answer after _ ⟨loopOver, uncancelled⟩ ⟨⟨kept, rows, next⟩, _⟩
      rw [next] at kept
      have spares : whole.Spares around policy items
          ⟨last.seen, answer.toOption.isSome, before.signal, before.cancelled, before.rows, rows⟩ :=
        loopOver.spares cleans always (Bool.eq_false_iff.mpr within) uncancelled kept
      rw [next]
      refine ⟨⟨?_, ?_⟩, ?_⟩
      · rw [show before.cleanups = [] from loopOver.steady.unswept]
        exact Nat.le_refl 1
      · rw [show before.cleanups = [] from loopOver.steady.unswept,
          show before.items = items from loopOver.steady.listed]
        intro call member
        rw [List.mem_singleton.mp member]
        exact spares
      · cases answer with
        | ok deleted => trivial
        | error error => trivial
    refine Triple.bind (fun _ _ => True) (once.attempt (fun _ _ _ => trivial)) ?_ site spared holds
    intro deleted
    cases deleted with
    | ok deleted =>
        refine Triple.bind _ (counts .applied) ?_
        intro _
        exact Triple.bind (fun _ _ => True) (Triple.pure (fun _ _ => trivial))
          (fun _ => Triple.pure (fun _ _ => rfl))
    | error error => exact Triple.bind _ (counts .failed) (fun _ => Triple.fails)

include cleans always in
theorem triple_settle (last : Wrappers) :
    Triple (whole.settled around) (whole.Spared around policy) (Ended whole around policy items last)
      (whole.settleCleanup none last) (fun next _ => next.held = []) (fun _ => True) := by
  unfold settleCleanup
  rw [policy_of_always cleans always]
  refine Triple.bind _ (triple_boundary cleans always last) ?_
  rintro ⟨cancelled, next⟩ site spared ⟨rfl, loopOver, quiet⟩
  dsimp only
  split
  · refine Triple.bind (fun _ _ => True) (triple_counted _ _ (fun _ _ _ => trivial)) ?_ site spared trivial
    intro _
    exact Triple.pure (fun _ _ => loopOver.steady.released)
  · rename_i unfired
    exact triple_sweep cleans always next site spared ⟨loopOver, quiet (Bool.eq_false_iff.mpr unfired)⟩

/-! ## After the delete -/

include cleans always in
/-- What follows the loop calls no delete. -/
theorem triple_after {program : Engine Result} (only : Only Quiet (fun _ => True) program) {wrappers : Wrappers}
    (released : wrappers.held = []) :
    Triple (whole.settled around) (whole.Spared around policy) (fun _ => True) (whole.within program wrappers)
      (fun _ _ => True) (fun _ => True) := by
  have inner : Triple (whole.tracked around policy)
      (fun place => place.2.held = [] ∧ whole.Spared around policy place.1)
      (fun place => place.2.held = [] ∧ whole.Spared around policy place.1) program
      (fun _ place => True ∧ place.2.held = [] ∧ whole.Spared around policy place.1)
      (fun place => place.2.held = [] ∧ whole.Spared around policy place.1) := by
    refine only.triple ?_ (fun _ holds => holds)
    rintro op before answer after quiet ⟨held, spared⟩ answered
    have grows := (tracked_quiet quiet answered).1
    exact ⟨grows.held.trans held, spared.same grows.cleanups grows.items⟩
  intro site spared _
  refine ((Triple.through (performs_tracked cleans always (fun _ _ holds => holds.2) (fun _ _ holds => holds.1))
    (fun _ _ holds => holds.2) inner wrappers).consequence (fun _ holds => holds) (fun _ _ _ => trivial)
    (fun _ _ => trivial)) site spared ⟨⟨released, spared⟩, released, spared⟩

theorem quiet_cancelledAtBoundary (cancel : Bool) : Only Quiet (fun _ => True) (cancelledAtBoundary cancel) := by
  unfold cancelledAtBoundary
  split
  · exact ⟨trivial, fun _ => trivial⟩
  · trivial

theorem quiet_finishOverwrite (pipeline : PipelineConfig) (marks : List (Option Value))
    (result : Except FaucetError PipelineResult) :
    Only Quiet (fun _ => True) (pipeline.finishOverwrite marks result) := by
  have aborts : Only Quiet (fun _ => True) (call .abortOverwrite id).attempt :=
    (only_call trivial).attempt.weaken (fun _ _ => trivial)
  cases result with
  | error error => exact Only.andThen aborts (fun _ => trivial)
  | ok result =>
      unfold PipelineConfig.finishOverwrite
      refine Only.andThen (quiet_cancelledAtBoundary _) ?_
      intro cancelled
      split
      · exact Only.andThen aborts (fun _ => trivial)
      · refine Only.andThen (only_call trivial) ?_
        intro _
        refine Only.andThen ?_ (fun _ => trivial)
        cases result.bookmark with
        | none => trivial
        | some bookmark =>
            change Only Quiet (fun _ => True) (putPosition pipeline.storeKey _ bookmark)
            unfold putPosition
            split
            · exact only_call trivial
            · trivial

include cleans always in
theorem triple_staging (result : Except FaucetError PipelineResult) {wrappers : Wrappers}
    (released : wrappers.held = []) :
    Triple (whole.settled around) (whole.Spared around policy) (fun _ => True)
      (whole.finishStaging items result wrappers) (fun _ _ => True) (fun _ => True) := by
  unfold finishStaging
  split
  · refine Triple.bind _ (triple_after cleans always (quiet_finishOverwrite _ _ result) released) ?_
    intro value
    exact Triple.pure (fun _ _ => trivial)
  · exact (Triple.check result).gives (fun _ _ _ => trivial)

include cleans always in
theorem triple_streamed (startSeq : Nat) (wrappers : Wrappers) (released : wrappers.held = []) :
    Triple (whole.settled around) (whole.Spared around policy)
      (fun site => Steady whole items (site, wrappers) ∧
        Anchored (whole.config.startingAt startSeq) (site, wrappers))
      (whole.transferStream startSeq wrappers items) (fun _ _ => True) (fun _ => True) := by
  unfold transferStream
  refine Triple.bind _ (Triple.check _) ?_
  intro _
  refine Triple.bind (fun _ site => Steady whole items (site, wrappers) ∧
    Anchored (whole.config.startingAt startSeq) (site, wrappers)) ?_ ?_
  · split
    · apply triple_invoke
      rintro site answer after spared holds ⟨same, _⟩
      rw [show after = site from same]
      refine ⟨spared, ?_⟩
      cases answer with
      | ok done => exact holds
      | error error => trivial
    · exact Triple.skip
  · intro _
    refine Triple.bind _ (triple_loop cleans always startSeq wrappers) ?_
    intro looped
    have unread : whole.currentReadState = pure none := by
      unfold currentReadState
      rw [completeRead_of_always cleans always]
      rfl
    rw [unread]
    cases looped with
    | error error =>
        refine Triple.bind (fun _ _ => True) (Triple.pure (fun _ _ => trivial)) ?_
        intro _
        exact triple_staging cleans always (.error error) released
    | ok value =>
        refine Triple.bind (fun state site => state = none ∧ Ended whole around policy items value.2 site)
          (Triple.pure (fun _ loopOver => ⟨rfl, loopOver⟩)) ?_
        rintro state site spared ⟨rfl, loopOver⟩
        refine Triple.bind _ (triple_settle cleans always value.2) ?_ site spared loopOver
        rintro next after still settled
        exact triple_staging cleans always (.ok value.1) settled after still trivial

end Sweeping

/-! ## The whole run -/

section Whole

variable (cleans : whole.cleanup = some policy) (always : policy.trigger = .always)

include cleans always

theorem triple_resumed (aligned : whole.Aligned start) :
    Triple (whole.settled around) (whole.Spared around policy) (Primed whole start)
      (whole.within whole.config.resume Wrappers.new)
      (fun value site => Steady whole [] (site, value.2) ∧
        Anchored (whole.config.startingAt value.1) (site, value.2)) (fun _ => True) := by
  intro site spared primed
  have steady : Steady whole [] (site, Wrappers.new) := by
    refine ⟨rfl, SeenKeys.sound_new, primed.fresh.unswept, primed.fresh.unlisted, ?_⟩
    intro fired
    rw [show (site, Wrappers.new).1.cancelled = false from primed.fresh.uncancelled] at fired
    cases fired
  refine (triple_tracked cleans always (resumes_anchored aligned) Wrappers.new site spared
    ⟨steady, primed⟩).weaken ?_
  intro result after _ ends
  cases result with
  | error error => trivial
  | ok value => exact ⟨ends.1, ends.2.1⟩

theorem triple_transferred (startSeq : Nat) (wrappers : Wrappers) :
    Triple (whole.settled around) (whole.Spared around policy)
      (fun site => Steady whole [] (site, wrappers) ∧
        Anchored (whole.config.startingAt startSeq) (site, wrappers))
      (whole.transfer startSeq wrappers) (fun _ _ => True) (fun _ => True) := by
  have streams : whole.path = .stream := by
    refine whole.path_eq_stream_of_cleanup ?_
    rw [cleans]
    rfl
  unfold transfer
  rw [streams]
  apply Triple.ask
  rintro site items after spared ⟨steady, anchored⟩ ⟨⟨_, next⟩, _⟩
  have listed : Steady whole items (after, wrappers) := by
    rw [next]
    exact ⟨steady.released, steady.sound, steady.unswept, rfl, steady.wired⟩
  have still : Anchored (whole.config.startingAt startSeq) (after, wrappers) := by
    rw [next]
    exact anchored
  exact ⟨listed.spared, fun kept =>
    triple_streamed cleans always startSeq wrappers steady.released after kept ⟨listed, still⟩⟩

theorem triple_completed (result : PipelineResult) :
    Triple (whole.settled around) (whole.Spared around policy) (fun _ => True) (whole.complete result)
      (fun _ _ => True) (fun _ => True) := by
  have asked : Triple (whole.settled around) (whole.Spared around policy) (fun _ => True)
      (whole.within (cancelledAtBoundary whole.run.options.cancel) Wrappers.new) (fun _ _ => True)
      (fun _ => True) := triple_after cleans always (quiet_cancelledAtBoundary _) rfl
  refine Triple.bind _ asked ?_
  rintro ⟨cancelled, next⟩
  dsimp only
  split
  · exact Triple.pure (fun _ _ => trivial)
  · refine Triple.bind (fun _ _ => True) ?_ (fun _ => Triple.pure (fun _ _ => trivial))
    apply triple_invoke
    rintro site answer after spared _ ⟨same, _⟩
    rw [show after = site from same]
    refine ⟨spared, ?_⟩
    cases answer with
    | ok done => trivial
    | error error => trivial

end Whole

/-- In every run of a cleanup that always runs, over a sink whose token is
aligned with the stored position, in which the token is never read after a lost
write: the delete is called at most once, after the loop ended and the run was
not found cancelled, with the keys of everything the source yielded, and the
rows of those keys stay. -/
theorem cleanup_spares_delivered (whole : WholeRun) (around : Around) (policy : CleanupPolicy)
    (cleans : whole.cleanup = some policy) (always : policy.trigger = .always) (start last : Site)
    (aligned : whole.Aligned start) (point : Lifecycle PipelineResult)
    (reached : Reaches (whole.settled around) whole.program start.restart point last) :
    last.cleanups.length ≤ 1 ∧ forall call, call ∈ last.cleanups ->
      whole.Spares around policy last.items call := by
  have whole_triple : Triple (whole.settled around) (whole.Spared around policy)
      (fun site => Fresh start site ∧ site.store = start.store) whole.program (fun _ _ => True)
      (fun _ => True) := by
    refine Triple.bind (fun _ _ => True) ?_ (fun result => triple_completed cleans always result)
    refine Triple.bind _ (Triple.check whole.checkSource) ?_
    intro _
    refine Triple.bind _ (Triple.check whole.preflight) ?_
    intro _
    refine Triple.bind _ primes_migrate ?_
    intro _
    refine Triple.bind _ (triple_resumed cleans always aligned) ?_
    intro resumed
    exact triple_transferred cleans always resumed.1 resumed.2
  have fresh : Fresh start start.restart := ⟨rfl, rfl, rfl, rfl, rfl⟩
  exact whole_triple.reaches fresh.spared ⟨fresh, rfl⟩ reached

end WholeRun

/-! ### A page found committed -/

def sampleCleanup : CleanupPolicy := ⟨[("contact", .string "c1")], ["id"], 100, .always⟩

/-- An exactly-once pipeline that retries and cleans up. -/
def sampleCleaning : WholeRun :=
  { sampleOverwrite with
    run :=
      { options :=
          { sampleOverwrite.run.options with
            delivery := .exactlyOnce
            replay := some .deterministic
            resilience := some ⟨⟨3, .immediate, 0, 0, fun _ => true⟩, none, none⟩ }
        sink := ⟨"sink", true, true, false, true⟩ }
    cleanup := some sampleCleanup
    supportsCleanup := true }

def sampleContact : Value := .object [("contact", .string "c1"), ("id", .string "r1")]

def sampleContactPages : List (Except FaucetError StreamPage) := [.ok ⟨[sampleContact], some (.string "1")⟩]

/-- The sink deletes the rows whose keys are not among those seen. -/
def sampleSweep (seen : SeenKeys) (rows : List Value) : List Value :=
  rows.filter (fun row => (recordKey row sampleCleaning.cleanupKey).any (fun tuple =>
    seen.keys.any (fun kept => canonicalKeyText kept == canonicalKeyText tuple)))

theorem mem_sampleSweep {seen : SeenKeys} {rows : List Value} {row : Value} {tuple : KeyTuple}
    (present : row ∈ rows) (read : recordKey row sampleCleaning.cleanupKey = some tuple) (kept : seen.Has tuple) :
    row ∈ sampleSweep seen rows := by
  rcases kept with ⟨other, listed, spelled⟩
  refine List.mem_filter.mpr ⟨present, ?_⟩
  rw [read]
  exact List.any_eq_true.mpr ⟨other, listed, beq_iff_eq.mpr spelled⟩

/-- Each write with a token succeeds, or each is lost; the delete is carried
out. -/
def sampleSite (lossy : Bool) : (op : LifecycleOp) -> Site -> op.Answer × Site
  | .engine (.writeBatchIdempotent _ rows scope token), site =>
      let written := site.commit scope token (rows.map GovernedRow.record)
      if lossy then (.error (.timeout "write" 30000), { written with lost := true })
      else (.ok (.ofAccepted rows.length), { written with lost := false })
  | .engine (.lastCommittedToken scope), site =>
      if lossy || !site.lost then (.ok (site.tokens scope), site) else (.error (.sink "unavailable"), site)
  | .cleanupScope _ seen, site => (.ok 1, { site with
      rows := sampleSweep seen site.rows
      cleanups := ⟨seen, true, site.signal, site.cancelled, site.rows, sampleSweep seen site.rows⟩ ::
        site.cleanups })
  | op, site => sampleCleaning.calm sampleContactPages 9 op site

theorem sampleSite_possible (lossy : Bool) (op : LifecycleOp) (site : Site) :
    sampleCleaning.environment (WholeRun.calmAround sampleContactPages 9) op site (sampleSite lossy op site).1
      (sampleSite lossy op site).2 := by
  unfold sampleSite
  split
  · cases lossy with
    | true => exact Or.inr ⟨_, rfl⟩
    | false => exact ⟨_, rfl⟩
  · split
    · exact ⟨fun _ answered => (Except.ok.inj answered).symm, rfl⟩
    · exact ⟨nofun, rfl⟩
  · exact ⟨fun row present tuple read kept => mem_sampleSweep present read kept, _, rfl⟩
  · exact WholeRun.calm_possible _ _

theorem sampleSite_settled (op : LifecycleOp) (site : Site) :
    WholeRun.Settled op site (sampleSite false op site).1 := by
  cases op with
  | engine op =>
      cases op with
      | lastCommittedToken scope =>
          rintro ⟨token, answered⟩
          cases found : site.lost with
          | false => rfl
          | true =>
              have failed : (sampleSite false (.engine (.lastCommittedToken scope)) site).1 =
                  (.error (.sink "unavailable") : Except FaucetError (Option String)) := by
                simp only [sampleSite, found, Bool.not_true, Bool.or_self, Bool.false_eq_true, if_false]
                rfl
              rw [failed] at answered
              cases answered
      | _ => trivial
  | _ => trivial

def sampleCleaned (lossy : Bool) : Except FaucetError PipelineResult × Site :=
  execute (sampleSite lossy) sampleCleaning.program Site.blank.restart

/-- The page is written and its key is spared. -/
theorem cleanup_spares_delivered_sample :
    (sampleCleaned false).2.cleanups.map (fun call => (call.seen.keys.length, call.before, call.after)) =
        [(1, [sampleContact], [sampleContact])] ∧
      WholeRun.Spared sampleCleaning (WholeRun.calmAround sampleContactPages 9) sampleCleanup
        (sampleCleaned false).2 := by
  refine ⟨by decide +kernel, ?_⟩
  have possible : forall op site, sampleCleaning.settled (WholeRun.calmAround sampleContactPages 9) op site
      (sampleSite false op site).1 (sampleSite false op site).2 :=
    fun op site => ⟨sampleSite_possible false op site, sampleSite_settled op site⟩
  have reached := reaches_execute (sampleSite false) possible sampleCleaning.program Site.blank.restart
  exact WholeRun.cleanup_spares_delivered sampleCleaning _ sampleCleanup rfl rfl Site.blank _
    (fun _ _ _ => Or.inl (Nat.zero_le _)) _ reached

/-- The write of the only page is lost, the retry finds its token, and the
delete removes the row that was written. -/
theorem delivered_row_deleted :
    (sampleCleaned true).2.cleanups.map (fun call => (call.seen.keys, call.before, call.after)) =
        [([], [sampleContact], [])] ∧
      ¬ forall (whole : WholeRun) (around : Around) (policy : CleanupPolicy), whole.cleanup = some policy ->
        policy.trigger = .always -> forall (start last : Site) (point : Lifecycle PipelineResult),
        Reaches (whole.environment around) whole.program start.restart point last ->
        forall call, call ∈ last.cleanups -> forall content, .ok content ∈ last.items -> forall tuple,
          WholeRun.PassesOn around policy content tuple -> call.seen.Has tuple := by
  have deleted : (sampleCleaned true).2.cleanups.map (fun call => (call.seen.keys, call.before, call.after)) =
      [([], [sampleContact], [])] := by decide +kernel
  refine ⟨deleted, fun claimed => ?_⟩
  have reached := reaches_execute (sampleSite true) (sampleSite_possible true) sampleCleaning.program
    Site.blank.restart
  have listed : (sampleCleaned true).2.items = sampleContactPages := by decide +kernel
  rcases List.map_eq_cons_iff.mp deleted with ⟨call, rest, shape, keys, _⟩
  have member : call ∈ (sampleCleaned true).2.cleanups := by
    rw [shape]
    exact List.mem_cons_self
  have yields : Except.ok ⟨[sampleContact], some (.string "1")⟩ ∈ (sampleCleaned true).2.items := by
    rw [listed]
    exact List.mem_cons_self
  have passes : WholeRun.PassesOn (WholeRun.calmAround sampleContactPages 9) sampleCleanup
      ⟨[sampleContact], some (.string "1")⟩ ⟨[("id", .string "r1")]⟩ := by
    refine ⟨⟨sampleContact, List.mem_cons_self, by decide +kernel⟩, ?_⟩
    rintro outcome rfl
    exact ⟨sampleContact, ⟨[("id", .string "r1")]⟩, List.mem_cons_self, by decide +kernel, rfl⟩
  rcases claimed sampleCleaning _ sampleCleanup rfl rfl Site.blank _ _ reached call member _ yields _ passes with
    ⟨kept, present, _⟩
  rw [show call.seen.keys = [] from congrArg Prod.fst keys] at present
  cases present

end Pipeline
end FaucetStream
