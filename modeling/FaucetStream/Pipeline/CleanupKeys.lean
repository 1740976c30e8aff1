import FaucetStream.Pipeline.EffectivelyOnce
import FaucetStream.Pipeline.Lifecycle
import FaucetStream.Pipeline.Plain

namespace FaucetStream
namespace Pipeline

open Json
open Library
open Governance
open Delivery
open Engine
open KeyedWrites

/-!
# What scoped cleanup spares

A cleanup that always runs deletes the rows of its scope whose keys the run did
not record.  Keys are recorded where a write passes the tracker and succeeds,
so the question is whether each page the source yielded is written through it.
A plain page is, and so is each slice of a page with a dead-letter queue.

An exactly-once page may be settled without a write: when the sink's token
already covers it, at the start of the run or after a write whose answer was
lost.  The keys of such a page are missing.  Here is what holds when neither
happens: the token lies no further than the position the run goes on from, and
no attempt reads the token after a lost write.
-/

/-- What the tracker keeps once it has recorded rows. -/
def Wrappers.deliver (policy : CleanupPolicy) (wrappers : Wrappers) (rows : List Value) : Wrappers :=
  { wrappers with seen := wrappers.seen.recordPage policy.key policy.maxKeys rows }

namespace WholeRun

variable {whole : WholeRun} {around : Around} {policy : CleanupPolicy}

/-! ## Runs that never read the token after a lost write -/

/-- The sink's token is not read while the last write is lost. -/
def Settled : (op : LifecycleOp) -> Site -> op.Answer -> Prop
  | .engine (.lastCommittedToken _), before, (answer : Except FaucetError (Option String)) =>
      (exists token, answer = .ok token) -> before.lost = false
  | _, _, _ => True

def settled (whole : WholeRun) (around : Around) : Environment LifecycleOp.Answer Site :=
  fun op before answer after => whole.environment around op before answer after ∧ Settled op before answer

/-! ## Behind a tracker that is always on -/

/-- The rows a write that succeeded hands on. -/
def ofSuccess {Report : Type} (rows : List GovernedRow) : Except FaucetError Report -> List Value
  | .ok _ => rows.map GovernedRow.record
  | .error _ => []

/-- The rows a question of the loops has recorded. -/
def delivered : (op : Op) -> op.Answer -> List Value
  | .writeGoverned _ rows, answer => ofSuccess rows answer
  | .writeBatchIdempotent _ rows _ _, answer => ofSuccess rows answer
  | .writeBatchPartial _ rows, _ => rows.map GovernedRow.record
  | _, _ => []

/-- A question behind the tracker: it is asked on, and the rows it wrote are
recorded. -/
def tracked (whole : WholeRun) (around : Around) (policy : CleanupPolicy) :
    Environment Op.Answer (Site × Wrappers) :=
  fun op before answer after =>
    whole.settled around (.engine op) before.1 answer after.1 ∧
      after.2 = Wrappers.deliver policy before.2 (delivered op answer)

section Tracked

variable (cleans : whole.cleanup = some policy) (always : policy.trigger = .always)

include cleans always

theorem policy_of_always : whole.policy = some policy := by
  unfold WholeRun.policy
  rw [cleans]
  simp only [always]

theorem completeRead_of_always : whole.completeRead = none := by
  unfold completeRead
  rw [cleans]
  simp only [always]
  rfl

theorem wrapping_of_always : whole.wrapping = ⟨some (policy.key, policy.maxKeys), false, false⟩ := by
  have unread := completeRead_of_always cleans always
  unfold wrapping holding
  rw [policy_of_always cleans always, unread]
  rfl

/-- With nothing held back, each question is asked on as it is. -/
theorem perform_of_always (op : Op) {wrappers : Wrappers} (released : wrappers.held = []) :
    whole.wrapping.perform op wrappers = .ask (.engine op) (fun answer =>
      .done (.ok (answer, Wrappers.deliver policy wrappers (delivered op answer)))) := by
  rw [wrapping_of_always cleans always]
  cases op with
  | writeGoverned page rows =>
      refine congrArg (Program.ask _) (funext fun answer => ?_)
      cases answer with
      | ok report => rfl
      | error error => rfl
  | writeBatchIdempotent page rows scope token =>
      refine congrArg (Program.ask _) (funext fun answer => ?_)
      cases answer with
      | ok report => rfl
      | error error => rfl
  | getState key =>
      refine (Wrapping.perform_getState _ ?_).trans rfl
      unfold Wrappers.heldAt
      rw [released]
      rfl
  | _ => rfl

theorem performs_tracked {invariant : Site -> Prop} {keeps : Site × Wrappers -> Prop}
    (holds : forall site wrappers, keeps (site, wrappers) -> invariant site)
    (released : forall site wrappers, keeps (site, wrappers) -> wrappers.held = []) :
    Performs (whole.settled around) invariant (whole.tracked around policy) keeps whole.wrapping.perform := by
  intro op site wrappers kept leads
  rw [perform_of_always cleans always op (released site wrappers kept)]
  refine ⟨holds site wrappers kept, ?_⟩
  intro answer after answered
  have inside : whole.tracked around policy op (site, wrappers) answer
      (after, Wrappers.deliver policy wrappers (delivered op answer)) := ⟨answered, rfl⟩
  exact ⟨holds after _ (leads answer _ inside), answer, _, rfl, inside⟩

end Tracked

/-! ## What lasts while pages are written -/

/-- What any question but that for the pages leaves: the keys that were covered
stay covered. -/
structure Grows (whole : WholeRun) (policy : CleanupPolicy) (before after : Site × Wrappers) : Prop where
  held : after.2.held = before.2.held
  sound : before.2.seen.Sound -> after.2.seen.Sound
  covers : before.2.seen.Sound -> forall rows, before.2.seen.Covers policy.key rows ->
    after.2.seen.Covers policy.key rows
  cleanups : after.1.cleanups = before.1.cleanups
  items : after.1.items = before.1.items
  stays : before.1.cancelled = true -> after.1.cancelled = true
  wired : after.1.cancelled = true -> before.1.cancelled = true ∨ whole.run.options.cancel = true

/-- What a question of the loops leaves on the site. -/
structure Carries (whole : WholeRun) (site after : Site) : Prop where
  cleanups : after.cleanups = site.cleanups
  items : after.items = site.items
  stays : site.cancelled = true -> after.cancelled = true
  wired : after.cancelled = true -> site.cancelled = true ∨ whole.run.options.cancel = true

theorem Carries.refl (site : Site) : Carries whole site site := ⟨rfl, rfl, id, Or.inl⟩

/-- A question that is neither for the pages nor a write with a token. -/
def Quiet : Op -> Prop
  | .streamPages => False
  | .writeBatchIdempotent _ _ _ _ => False
  | _ => True

/-- The sink's tokens, and whether the last write with one is lost, are as they
were. -/
def SameTokens (site after : Site) : Prop := after.tokens = site.tokens ∧ after.lost = site.lost

theorem engine_quiet {op : Op} {site after : Site} {answer : op.Answer} (quiet : Quiet op)
    (answered : whole.engine around op site answer after) : Carries whole site after ∧ SameTokens site after := by
  have unchanged : after = site -> Carries whole site after ∧ SameTokens site after := by
    rintro rfl
    exact ⟨Carries.refl _, rfl, rfl⟩
  have written : (exists rows, after = { site with rows := rows }) ->
      Carries whole site after ∧ SameTokens site after := by
    rintro ⟨rows, rfl⟩
    exact ⟨⟨rfl, rfl, id, Or.inl⟩, rfl, rfl⟩
  cases op with
  | streamPages => exact quiet.elim
  | writeBatchIdempotent page rows scope token => exact quiet.elim
  | isCancelled =>
      rcases answered with ⟨stays, wired, rfl⟩
      exact ⟨⟨rfl, rfl, stays, wired⟩, rfl, rfl⟩
  | applyGovernance page records => exact unchanged answered.2
  | lastCommittedToken scope => exact unchanged answered.2
  | getState key => exact unchanged answered.2
  | writeGoverned page rows => exact written answered
  | writeBatchPartial page rows => exact written answered
  | writeBatchColumnar page records => exact written answered
  | loadNative page first =>
      rcases answered with ⟨rows, rfl⟩
      exact ⟨⟨rfl, rfl, id, Or.inl⟩, rfl, rfl⟩
  | streamNative =>
      rw [show after = _ from answered]
      exact ⟨⟨rfl, rfl, id, Or.inl⟩, rfl, rfl⟩
  | putState page key value =>
      cases answer with
      | ok done =>
          rw [show after = _ from answered]
          exact ⟨⟨rfl, rfl, id, Or.inl⟩, rfl, rfl⟩
      | error error =>
          rcases answered with same | stored
          · exact unchanged same
          · rw [stored]
            exact ⟨⟨rfl, rfl, id, Or.inl⟩, rfl, rfl⟩
  | applyStartBookmark bookmark =>
      cases answer with
      | ok done =>
          rw [show after = _ from answered]
          exact ⟨⟨rfl, rfl, id, Or.inl⟩, rfl, rfl⟩
      | error error =>
          rcases answered with same | handed
          · exact unchanged same
          · rw [handed]
            exact ⟨⟨rfl, rfl, id, Or.inl⟩, rfl, rfl⟩
  | flush =>
      cases answer with
      | ok done =>
          rw [show after = _ from answered]
          exact ⟨⟨rfl, rfl, id, Or.inl⟩, rfl, rfl⟩
      | error error => exact unchanged answered
  | commitOverwrite =>
      cases answer with
      | ok done =>
          rcases answered with ⟨rows, rfl⟩
          exact ⟨⟨rfl, rfl, id, Or.inl⟩, rfl, rfl⟩
      | error error => exact written answered
  | _ => exact unchanged answered

theorem engine_writeBatchIdempotent {page : Nat} {rows : List GovernedRow} {scope token : String}
    {site after : Site} {answer : (Op.writeBatchIdempotent page rows scope token).Answer}
    (answered : whole.engine around (.writeBatchIdempotent page rows scope token) site answer after) :
    Carries whole site after := by
  cases answer with
  | ok report =>
      rcases answered with ⟨left, rfl⟩
      exact ⟨rfl, rfl, id, Or.inl⟩
  | error error =>
      rcases answered with rfl | ⟨left, rfl⟩
      · exact ⟨rfl, rfl, id, Or.inl⟩
      · exact ⟨rfl, rfl, id, Or.inl⟩

theorem Carries.grows {before after : Site × Wrappers} {rows : List Value}
    (carries : Carries whole before.1 after.1) (recorded : after.2 = before.2.deliver policy rows) :
    Grows whole policy before after := by
  constructor
  · rw [recorded]
    rfl
  · intro sound
    rw [recorded]
    exact (SeenKeys.recordPage_spec sound rows).1
  · intro sound earlier covers
    rw [recorded]
    exact (covers.recordPage sound rows).subset (fun row member => List.mem_append_left _ member)
  · exact carries.cleanups
  · exact carries.items
  · exact carries.stays
  · exact carries.wired

theorem tracked_quiet {op : Op} {before after : Site × Wrappers} {answer : op.Answer} (quiet : Quiet op)
    (answered : whole.tracked around policy op before answer after) :
    Grows whole policy before after ∧ SameTokens before.1 after.1 := by
  rcases engine_quiet quiet answered.1.1 with ⟨carries, same⟩
  exact ⟨carries.grows answered.2, same⟩

/-! ## Pieces of the loops -/

/-- A loop over these pages: nothing is held back or deleted. -/
structure Steady (whole : WholeRun) (items : List (Except FaucetError StreamPage))
    (place : Site × Wrappers) : Prop where
  released : place.2.held = []
  sound : place.2.seen.Sound
  unswept : place.1.cleanups = []
  listed : place.1.items = items
  wired : place.1.cancelled = true -> whole.run.options.cancel = true

theorem Steady.grows {items : List (Except FaucetError StreamPage)} {before after : Site × Wrappers}
    (steady : Steady whole items before) (grows : Grows whole policy before after) : Steady whole items after where
  released := grows.held.trans steady.released
  sound := grows.sound steady.sound
  unswept := grows.cleanups.trans steady.unswept
  listed := grows.items.trans steady.listed
  wired := fun fired => (grows.wired fired).elim steady.wired id

/-- A fact that no question breaks that is neither for the pages nor a write
with a token. -/
def Lasting (whole : WholeRun) (policy : CleanupPolicy) (fact : Site × Wrappers -> Prop) : Prop :=
  forall before after, before.2.seen.Sound -> Grows whole policy before after -> SameTokens before.1 after.1 ->
    fact before -> fact after

variable {items : List (Except FaucetError StreamPage)} {Result : Type} {fact : Site × Wrappers -> Prop}

/-- A piece of the loops that asks nothing but quiet questions. -/
theorem tracks_quiet {returns : Result -> Prop} {program : Engine Result} (only : Only Quiet returns program)
    (lasting : Lasting whole policy fact) :
    Triple (whole.tracked around policy) (Steady whole items) fact program
      (fun value place => returns value ∧ fact place) fact := by
  have both : Triple (whole.tracked around policy) (Steady whole items)
      (fun place => Steady whole items place ∧ fact place) program
      (fun value place => returns value ∧ Steady whole items place ∧ fact place)
      (fun place => Steady whole items place ∧ fact place) := by
    refine only.triple ?_ (fun _ holds => holds.1)
    rintro op before answer after quiet ⟨steady, holds⟩ answered
    rcases tracked_quiet quiet answered with ⟨grows, same⟩
    exact ⟨steady.grows grows, lasting before after steady.sound grows same holds⟩
  intro place steady holds
  refine (both place steady ⟨steady, holds⟩).weaken ?_
  intro result after _ ends
  cases result with
  | ok value => exact ⟨ends.1, ends.2.2⟩
  | error error => exact ends.2

theorem Lasting.and {other : Site × Wrappers -> Prop} (first : Lasting whole policy fact)
    (second : Lasting whole policy other) : Lasting whole policy (fun place => fact place ∧ other place) :=
  fun before after sound grows same holds =>
    ⟨first before after sound grows same holds.1, second before after sound grows same holds.2⟩

/-- The rows are recorded, or the delete will be refused. -/
def Recorded (policy : CleanupPolicy) (rows : List Value) (place : Site × Wrappers) : Prop :=
  place.2.seen.Covers policy.key rows

theorem lasting_recorded (rows : List Value) : Lasting whole policy (Recorded policy rows) :=
  fun _ _ sound grows _ recorded => grows.covers sound rows recorded

theorem recorded_nil (place : Site × Wrappers) : Recorded policy [] place :=
  Or.inr nofun

theorem Recorded.append {first second : List Value} {place : Site × Wrappers}
    (head : Recorded policy first place) (tail : Recorded policy second place) :
    Recorded policy (first ++ second) place := by
  rcases head with overflowed | there
  · exact Or.inl overflowed
  · rcases tail with overflowed | too
    · exact Or.inl overflowed
    · refine Or.inr ?_
      intro row member
      rcases List.mem_append.mp member with earlier | later
      · exact there row earlier
      · exact too row later

theorem recorded_deliver {before after : Site × Wrappers} {rows : List Value} (sound : before.2.seen.Sound)
    (recorded : after.2 = before.2.deliver policy rows) : Recorded policy rows after := by
  unfold Recorded
  rw [recorded]
  exact SeenKeys.Covers.recordPage (recorded_nil before) sound rows

theorem tracked_sleeps : Sleeps (whole.tracked around policy) := by
  intro milliseconds before answer after answered
  exact Prod.ext answered.1.1 answered.2

variable (run : Run)

theorem tracks_retryingWrite {body : Engine Result} {post : Result -> Site × Wrappers -> Prop}
    {escape : Site × Wrappers -> Prop}
    (once : Triple (whole.tracked around policy) (Steady whole items) fact body post escape)
    (again : forall place, escape place -> fact place) :
    Triple (whole.tracked around policy) (Steady whole items) fact (run.retryingWrite body) post escape := by
  unfold Run.retryingWrite
  split
  · exact triple_withRetry tracked_sleeps _ _ (fun _ => once) again
  · exact once

/-! ### Plain writes -/

variable {page : Nat}

theorem tracks_writeGoverned (rows : List GovernedRow) (lasting : Lasting whole policy fact) :
    Triple (whole.tracked around policy) (Steady whole items) fact (call (.writeGoverned page rows) id)
      (fun _ place => fact place ∧ Recorded policy (rows.map GovernedRow.record) place) fact := by
  apply triple_call
  intro before answer after steady holds answered
  rcases tracked_quiet (show Quiet (.writeGoverned page rows) from trivial) answered with ⟨grows, same⟩
  have still := lasting before after steady.sound grows same holds
  refine ⟨steady.grows grows, ?_⟩
  cases answer with
  | ok report => exact ⟨still, recorded_deliver steady.sound answered.2⟩
  | error error => exact still

theorem tracks_writeReported (rows : List GovernedRow) (account : PageAccount) (lasting : Lasting whole policy fact) :
    Triple (whole.tracked around policy) (Steady whole items) fact (run.writeReported page rows account)
      (fun _ place => fact place ∧ Recorded policy (rows.map GovernedRow.record) place) fact := by
  refine Triple.bind _ (tracks_retryingWrite run (tracks_writeGoverned rows lasting) (fun _ holds => holds)) ?_
  intro report
  exact Triple.pure (fun _ ends => ends)

theorem quiet_of_plainly {marks : List (Option Value)} {op : Op} (plainly : Plainly marks op) : Quiet op := by
  cases op with
  | streamPages => exact plainly.elim
  | writeBatchIdempotent page rows scope token => exact plainly.elim
  | _ => trivial

theorem quiet_plain {program : Engine Result} (plain : Plain [] program) : Only Quiet (fun _ => True) program :=
  plain.widen (fun _ plainly => quiet_of_plainly plainly)

/-- A slice takes a row when there is one. -/
theorem quiet_sliceSize (remaining : Nat) :
    Only Quiet (fun size => 0 < remaining -> 0 < size) (run.sliceSize remaining) := by
  unfold Run.sliceSize
  split
  · refine ⟨trivial, fun current rows => ?_⟩
    exact Nat.lt_min.mpr ⟨Nat.lt_of_lt_of_le Nat.zero_lt_one (Nat.le_max_right _ 1), rows⟩
  · exact fun rows => rows

/-- What is left after a slice fits the rounds that are left. -/
theorem length_drop_le {remaining : List GovernedRow} {rounds size : Nat} (present : 0 < remaining.length -> 0 < size)
    (enough : remaining.length ≤ rounds + 1) : (remaining.drop size).length ≤ rounds := by
  rw [List.length_drop]
  by_cases empty : remaining.length = 0
  · omega
  · have taken := present (Nat.pos_of_ne_zero empty)
    omega

theorem map_take_drop (remaining : List GovernedRow) (size : Nat) :
    (remaining.take size).map GovernedRow.record ++ (remaining.drop size).map GovernedRow.record =
      remaining.map GovernedRow.record := by
  rw [← List.map_append, List.take_append_drop]

theorem tracks_plainSlices (rounds : Nat) (remaining : List GovernedRow) (account : PageAccount)
    (written : Nat) (enough : remaining.length ≤ rounds) (lasting : Lasting whole policy fact) :
    Triple (whole.tracked around policy) (Steady whole items) fact
      (run.plainSlices page rounds remaining account written)
      (fun _ place => fact place ∧ Recorded policy (remaining.map GovernedRow.record) place) fact := by
  induction rounds generalizing remaining account written fact with
  | zero =>
      rw [List.eq_nil_of_length_eq_zero (Nat.le_zero.mp enough)]
      exact Triple.pure (fun place holds => ⟨holds, recorded_nil place⟩)
  | succ rounds ih =>
      unfold Run.plainSlices
      split
      · rename_i empty
        rw [List.isEmpty_iff.mp empty]
        exact Triple.pure (fun place holds => ⟨holds, recorded_nil place⟩)
      · refine Triple.bind _ (tracks_quiet (quiet_sliceSize run _) lasting) ?_
        intro size place steady sized
        have left := length_drop_le sized.1 enough
        have both := lasting.and (lasting_recorded ((remaining.take size).map GovernedRow.record))
        refine Triple.bind _ ((tracks_writeReported run (remaining.take size) account lasting).consequence
          (fun _ holds => holds) (fun _ _ ends => ends) (fun _ ends => ends)) ?_ place steady sized.2
        intro reported
        refine (ih (remaining.drop size) reported.1 (written + reported.2) left both).consequence
          (fun _ holds => holds) ?_ (fun _ ends => ends.1)
        rintro value last ⟨⟨holds, first⟩, second⟩
        refine ⟨holds, ?_⟩
        rw [← map_take_drop remaining size]
        exact first.append second

theorem tracks_writePlain (rows : List GovernedRow) (account : PageAccount) (lasting : Lasting whole policy fact) :
    Triple (whole.tracked around policy) (Steady whole items) fact (run.writePlain page rows account)
      (fun _ place => fact place ∧ Recorded policy (rows.map GovernedRow.record) place) fact := by
  unfold Run.writePlain
  split
  · rename_i empty
    rw [List.isEmpty_iff.mp empty]
    exact Triple.pure (fun place holds => ⟨holds, recorded_nil place⟩)
  · split
    · refine Triple.bind (fun _ => fact) ((tracks_quiet (quiet_plain (run.plain_admitRows rows)) lasting).gives
        (fun _ _ ends => ends.2)) ?_
      intro _
      exact tracks_plainSlices run rows.length rows account 0 (Nat.le_refl _) lasting
    · exact tracks_writeReported run rows account lasting

theorem quiet_persist (value : Value) : Only Quiet (fun _ => True) (run.persist page value) := by
  unfold Run.persist
  split
  · exact only_withRetry (fun _ => trivial) _ _ (fun _ => only_call trivial)
  · trivial

theorem quiet_flushAndPersist (value : Value) :
    Only Quiet (fun _ => True) (run.flushAndPersist page value) := by
  refine Only.andThen (only_withRetry (fun _ => trivial) _ _ (fun _ => only_call trivial)) ?_
  intro _
  exact quiet_persist run value

theorem quiet_settle (account : PageAccount) : Only Quiet (fun _ => True) (settle account) :=
  only_settle (fun _ => trivial) account

theorem quiet_checkpoint (bookmark : Option Value) :
    Only Quiet (fun _ => True) (run.checkpoint page bookmark) := by
  cases bookmark with
  | none => trivial
  | some bookmark =>
      unfold Run.checkpoint
      dsimp only
      split
      · trivial
      · exact quiet_flushAndPersist run bookmark

theorem quiet_checkpointWithDlq (bookmark : Option Value) :
    Only Quiet (fun _ => True) (run.checkpointWithDlq page bookmark) := by
  cases bookmark with
  | none => trivial
  | some bookmark =>
      unfold Run.checkpointWithDlq
      dsimp only
      split
      · exact quiet_plain (plain_flushDlq _ _)
      · refine Only.andThen (only_withRetry (fun _ => trivial) _ _ (fun _ => only_call trivial)) ?_
        intro _
        exact Only.andThen (quiet_plain (plain_flushDlq _ _)) (fun _ => quiet_persist run bookmark)

theorem tracks_plainPage (records : List Value) (bookmark : Option Value) (account : PageAccount)
    (state : LoopState) (lasting : Lasting whole policy fact) :
    Triple (whole.tracked around policy) (Steady whole items) fact
      (run.plainPage page records bookmark account state)
      (fun _ place => fact place ∧ Recorded policy records place) (fun _ => True) := by
  have both : Lasting whole policy (fun place => fact place ∧ Recorded policy records place) :=
    lasting.and (lasting_recorded records)
  refine Triple.bind (fun _ place => fact place ∧ Recorded policy records place) ?_ ?_
  · refine (tracks_writePlain run (governedRows records) account lasting).consequence (fun _ holds => holds) ?_
      (fun _ _ => trivial)
    intro value place ends
    rw [governedRows_records] at ends
    exact ends
  · intro written
    have rest : Only Quiet (fun _ => True) (do
        settle written.1
        run.checkpoint page bookmark
        pure { state with
          recordsWritten := state.recordsWritten + written.2
          lastBookmark := bookmark.orElse (fun _ => state.lastBookmark) }) := by
      refine Only.andThen (quiet_settle _) ?_
      intro _
      exact Only.andThen (quiet_checkpoint run bookmark) (fun _ => trivial)
    exact (tracks_quiet rest both).consequence (fun _ holds => holds) (fun _ _ ends => ends.2)
      (fun _ _ => trivial)

/-! ### Rows that fail one by one -/

/-- Rows handed to a sink that answers for each of them are recorded, whatever
the answer. -/
theorem tracks_writeBatchPartial (rows : List GovernedRow) (lasting : Lasting whole policy fact) :
    Triple (whole.tracked around policy) (Steady whole items) fact (call (.writeBatchPartial page rows) id)
      (fun _ place => fact place ∧ Recorded policy (rows.map GovernedRow.record) place)
      (fun place => fact place ∧ Recorded policy (rows.map GovernedRow.record) place) := by
  apply triple_call
  intro before answer after steady holds answered
  rcases tracked_quiet (show Quiet (.writeBatchPartial page rows) from trivial) answered with ⟨grows, same⟩
  have still := lasting before after steady.sound grows same holds
  have recorded : Recorded policy (rows.map GovernedRow.record) after :=
    recorded_deliver steady.sound answered.2
  refine ⟨steady.grows grows, ?_⟩
  cases answer with
  | ok outcomes => exact ⟨still, recorded⟩
  | error error => exact ⟨still, recorded⟩

theorem tracks_writeChunk (dlq : DlqConfig) (chunk : List GovernedRow) (lasting : Lasting whole policy fact) :
    Triple (whole.tracked around policy) (Steady whole items) fact (run.writeChunk dlq page chunk)
      (fun _ place => fact place ∧ Recorded policy (chunk.map GovernedRow.record) place) (fun _ => True) := by
  refine Triple.bind (fun _ place => fact place ∧ Recorded policy (chunk.map GovernedRow.record) place) ?_ ?_
  · refine (tracks_retryingWrite run (tracks_writeBatchPartial chunk lasting) (fun _ ends => ends.1)).attempt ?_
    intro result place ends
    cases result with
    | ok outcomes => exact ends
    | error error => exact ends
  · intro answer
    split
    · split
      · exact Triple.fails
      · exact Triple.pure (fun _ ends => ends)
    · exact Triple.fails
    · exact Triple.fails
    · exact Triple.fails
    · split
      · exact Triple.fails
      · exact Triple.pure (fun _ ends => ends)

theorem tracks_writeSlice (dlq : DlqConfig) (chunk : List GovernedRow) (offset : Nat)
    (state : Run.SliceState) (lasting : Lasting whole policy fact) :
    Triple (whole.tracked around policy) (Steady whole items) fact (run.writeSlice dlq page chunk offset state)
      (fun _ place => fact place ∧ Recorded policy (chunk.map GovernedRow.record) place) (fun _ => True) := by
  have both : Lasting whole policy (fun place => fact place ∧
      Recorded policy (chunk.map GovernedRow.record) place) := lasting.and (lasting_recorded _)
  refine Triple.bind _ (tracks_writeChunk run dlq chunk lasting) ?_
  intro written
  have rest : Plain [] (do
      let outcomes <- run.resubmit page chunk written
      run.settleRows page written.2 offset (chunk.zip outcomes) 0 state) := by
    refine Only.andThen ?_ (fun outcomes => run.plain_settleRows _ _ _ _ _)
    unfold Run.resubmit
    split
    · exact run.plain_poisonRetries chunk _ _
    · trivial
  exact (tracks_quiet (quiet_plain rest) both).consequence (fun _ holds => holds) (fun _ _ ends => ends.2)
    (fun _ _ => trivial)

theorem tracks_slices (dlq : DlqConfig) (rounds : Nat) (remaining : List GovernedRow) (offset : Nat)
    (state : Run.SliceState) (enough : remaining.length ≤ rounds) (lasting : Lasting whole policy fact) :
    Triple (whole.tracked around policy) (Steady whole items) fact
      (run.slices dlq page rounds remaining offset state)
      (fun _ place => fact place ∧ Recorded policy (remaining.map GovernedRow.record) place) (fun _ => True) := by
  induction rounds generalizing remaining offset state fact with
  | zero =>
      rw [List.eq_nil_of_length_eq_zero (Nat.le_zero.mp enough)]
      exact Triple.pure (fun place holds => ⟨holds, recorded_nil place⟩)
  | succ rounds ih =>
      unfold Run.slices
      split
      · rename_i empty
        rw [List.isEmpty_iff.mp empty]
        exact Triple.pure (fun place holds => ⟨holds, recorded_nil place⟩)
      · refine Triple.bind _ ((tracks_quiet (quiet_sliceSize run _) lasting).mayFail) ?_
        intro size place steady sized
        have left := length_drop_le sized.1 enough
        have both := lasting.and (lasting_recorded ((remaining.take size).map GovernedRow.record))
        refine Triple.bind _ (tracks_writeSlice run dlq (remaining.take size) offset state lasting) ?_ place
          steady sized.2
        intro counted
        refine (ih (remaining.drop size) (offset + size) counted left both).gives ?_
        rintro value last ⟨⟨holds, first⟩, second⟩
        refine ⟨holds, ?_⟩
        rw [← map_take_drop remaining size]
        exact first.append second

theorem tracks_dlqPage (dlq : DlqConfig) (records : List Value) (quarantined : List Envelope)
    (bookmark : Option Value) (account : PageAccount) (state : LoopState)
    (lasting : Lasting whole policy fact) :
    Triple (whole.tracked around policy) (Steady whole items) fact
      (run.dlqPage dlq page records quarantined bookmark account state)
      (fun _ place => fact place ∧ Recorded policy records place) (fun _ => True) := by
  have both : Lasting whole policy (fun place => fact place ∧ Recorded policy records place) :=
    lasting.and (lasting_recorded records)
  refine Triple.bind (fun _ => fact) ((tracks_quiet (quiet_plain (run.plain_admitRows _)) lasting).consequence
    (fun _ holds => holds) (fun _ _ ends => ends.2) (fun _ _ => trivial)) ?_
  intro _
  refine Triple.bind (fun _ place => fact place ∧ Recorded policy records place) ?_ ?_
  · refine (tracks_slices run dlq _ (governedRows records) 0 _ (Nat.le_refl _) lasting).gives ?_
    intro value place ends
    rw [governedRows_records] at ends
    exact ends
  · intro written
    dsimp only
    refine Triple.bind (fun _ place => fact place ∧ Recorded policy records place)
      ((tracks_quiet (quiet_plain (run.plain_routeEnvelopes dlq _ _)) both).consequence (fun _ holds => holds)
        (fun _ _ ends => ends.2) (fun _ _ => trivial)) ?_
    intro stats
    refine Triple.bind (fun _ place => fact place ∧ Recorded policy records place)
      ((tracks_quiet (quiet_settle _) both).consequence (fun _ holds => holds) (fun _ _ ends => ends.2)
        (fun _ _ => trivial)) ?_
    intro _
    refine Triple.bind (fun _ place => fact place ∧ Recorded policy records place)
      ((tracks_quiet (quiet_checkpointWithDlq run bookmark) both).consequence (fun _ holds => holds)
        (fun _ _ ends => ends.2) (fun _ _ => trivial)) ?_
    intro _
    split
    · exact Triple.fails
    · exact Triple.fails
    · exact Triple.pure (fun _ ends => ends)

/-! ### Pages with a token -/

/-- A fact that no question breaks but that for the pages. -/
def Growing (whole : WholeRun) (policy : CleanupPolicy) (fact : Site × Wrappers -> Prop) : Prop :=
  forall before after, before.2.seen.Sound -> Grows whole policy before after -> fact before -> fact after

theorem Growing.lasting (growing : Growing whole policy fact) : Lasting whole policy fact :=
  fun before after sound grows _ holds => growing before after sound grows holds

/-- The sequence number the sink has committed under a scope. -/
def tokenSeq (site : Site) (scope : String) : Nat := ((site.tokens scope).bind parseToken).getD 0

/-- No write is lost, and the token lies no further than the last page. -/
def Level (scope : String) (seq : Nat) (place : Site × Wrappers) : Prop :=
  place.1.lost = false ∧ tokenSeq place.1 scope ≤ seq

theorem lasting_level (scope : String) (seq : Nat) : Lasting whole policy (Level scope seq) := by
  rintro before after _ _ ⟨tokens, lost⟩ ⟨kept, level⟩
  refine ⟨lost.trans kept, ?_⟩
  unfold tokenSeq
  rw [tokens]
  exact level

/-- Between the attempts at a write: unless it is lost, the token is where it
was. -/
def Pending (scope : String) (seq : Nat) (place : Site × Wrappers) : Prop :=
  place.1.lost = false -> tokenSeq place.1 scope ≤ seq

theorem covered_eq_false {token : Option String} {seq : Nat} (behind : (token.bind parseToken).getD 0 ≤ seq) :
    ((token.bind parseToken).any (fun committed => decide (seq + 1 ≤ committed))) = false := by
  cases read : token.bind parseToken with
  | none => rfl
  | some committed =>
      rw [read] at behind
      exact decide_eq_false (Nat.not_le.mpr (Nat.lt_succ_of_le behind))

variable {scope : String} {seq : Nat}

/-- The committed token is read before a repeated write only, and then no write
is lost. -/
theorem tracks_committedToken (attempt : Nat) (growing : Growing whole policy fact) :
    Triple (whole.tracked around policy) (Steady whole items)
      (fun place => fact place ∧ Pending scope seq place ∧ (attempt = 0 -> place.1.lost = false))
      (Run.committedToken scope attempt)
      (fun token place => fact place ∧ Level scope seq place ∧ (token.bind parseToken).getD 0 ≤ seq)
      (fun place => fact place ∧ Pending scope seq place) := by
  unfold Run.committedToken
  split
  · apply triple_call
    rintro before answer after steady ⟨holds, pending, _⟩ answered
    rcases tracked_quiet (show Quiet (.lastCommittedToken scope) from trivial) answered with ⟨grows, same⟩
    have still := growing before after steady.sound grows holds
    refine ⟨steady.grows grows, ?_⟩
    rcases answered with ⟨⟨⟨truly, unchanged⟩, settled⟩, _⟩
    cases answer with
    | error error =>
        refine ⟨still, ?_⟩
        unfold Pending
        rw [show after.1 = before.1 from unchanged]
        exact pending
    | ok token =>
        have kept : before.1.lost = false := settled ⟨token, rfl⟩
        have found : token = before.1.tokens scope := truly token rfl
        refine ⟨still, ?_, ?_⟩
        · unfold Level
          rw [show after.1 = before.1 from unchanged]
          exact ⟨kept, pending kept⟩
        · rw [found]
          exact pending kept
  · rename_i first
    refine Triple.pure ?_
    rintro place ⟨holds, pending, unlost⟩
    have kept := unlost (Nat.eq_zero_of_not_pos first)
    exact ⟨holds, ⟨kept, pending kept⟩, Nat.zero_le _⟩

theorem tracks_writeBatchIdempotent (rows : List GovernedRow) (bookmark : Value)
    (growing : Growing whole policy fact) :
    Triple (whole.tracked around policy) (Steady whole items)
      (fun place => fact place ∧ Level scope seq place)
      (call (.writeBatchIdempotent page rows scope (formatTokenWithBookmark (seq + 1) (some bookmark))) id)
      (fun _ place => (fact place ∧ Level scope (seq + 1) place) ∧
        Recorded policy (rows.map GovernedRow.record) place)
      (fun place => fact place ∧ Pending scope seq place) := by
  apply triple_call
  rintro before answer after steady ⟨holds, unlost, level⟩ answered
  have wrote : whole.engine around (.writeBatchIdempotent page rows scope
    (formatTokenWithBookmark (seq + 1) (some bookmark))) before.1 answer after.1 := answered.1.1
  have grows : Grows whole policy before after := (engine_writeBatchIdempotent wrote).grows answered.2
  have still := growing before after steady.sound grows holds
  refine ⟨steady.grows grows, ?_⟩
  cases answer with
  | ok report =>
      rcases wrote with ⟨left, committed⟩
      refine ⟨⟨still, ?_, ?_⟩, recorded_deliver steady.sound answered.2⟩
      · rw [committed]
      · unfold tokenSeq
        rw [committed]
        simp only [Site.commit, if_true, Option.bind_some, parseToken_format, Option.getD_some, Nat.le_refl]
  | error error =>
      refine ⟨still, ?_⟩
      intro kept
      rcases wrote with same | ⟨left, committed⟩
      · unfold tokenSeq
        rw [same]
        exact level
      · rw [committed] at kept
        cases kept

theorem tracks_eoWriteOnce (rows : List GovernedRow) (bookmark : Value) (attempt : Nat)
    (growing : Growing whole policy fact) :
    Triple (whole.tracked around policy) (Steady whole items)
      (fun place => fact place ∧ Pending scope seq place ∧ (attempt = 0 -> place.1.lost = false))
      (Run.eoWriteOnce page rows scope (formatTokenWithBookmark (seq + 1) (some bookmark)) (seq + 1) attempt)
      (fun _ place => (fact place ∧ Level scope (seq + 1) place) ∧
        Recorded policy (rows.map GovernedRow.record) place)
      (fun place => fact place ∧ Pending scope seq place) := by
  unfold Run.eoWriteOnce
  refine Triple.bind _ (tracks_committedToken attempt growing) ?_
  rintro token place steady ⟨holds, level, behind⟩
  simp only [covered_eq_false behind, Bool.false_eq_true, if_false]
  exact tracks_writeBatchIdempotent rows bookmark growing place steady ⟨holds, level⟩

/-- A page ahead of the token is written, and its keys are recorded. -/
theorem tracks_exactlyOncePage (committedSeq : Nat) (records : List Value) (bookmark : Value)
    (account : PageAccount) (state : LoopState) (behind : committedSeq ≤ state.nextSeq)
    (growing : Growing whole policy fact) :
    Triple (whole.tracked around policy) (Steady whole items)
      (fun place => fact place ∧ Level run.scope state.nextSeq place)
      (run.exactlyOncePage committedSeq page records bookmark account state)
      (fun next place => fact place ∧ Recorded policy records place ∧ state.nextSeq ≤ next.nextSeq ∧
        Level run.scope next.nextSeq place) (fun _ => True) := by
  have ahead : ¬state.nextSeq + 1 ≤ committedSeq := Nat.not_le.mpr (Nat.lt_succ_of_le behind)
  have lasting : Lasting whole policy (fun place => (fact place ∧ Level run.scope (state.nextSeq + 1) place) ∧
      Recorded policy records place) :=
    (growing.lasting.and (lasting_level run.scope (state.nextSeq + 1))).and (lasting_recorded records)
  unfold Run.exactlyOncePage
  dsimp only
  refine Triple.bind (fun _ place => (fact place ∧ Level run.scope (state.nextSeq + 1) place) ∧
    Recorded policy records place) ?_ ?_
  · have once : forall attempt, Triple (whole.tracked around policy) (Steady whole items)
        (fun place => fact place ∧ Pending run.scope state.nextSeq place ∧ (attempt = 0 -> place.1.lost = false))
        (Run.eoWriteOnce page (governedRows records) run.scope
          (formatTokenWithBookmark (state.nextSeq + 1) (some bookmark)) (state.nextSeq + 1) attempt)
        (fun _ place => (fact place ∧ Level run.scope (state.nextSeq + 1) place) ∧
          Recorded policy ((governedRows records).map GovernedRow.record) place)
        (fun place => fact place ∧ Pending run.scope state.nextSeq place) :=
      fun attempt => tracks_eoWriteOnce (governedRows records) bookmark attempt growing
    unfold Run.writeOrSkip
    rw [if_neg ahead]
    refine Triple.bind (fun _ place => (fact place ∧ Level run.scope (state.nextSeq + 1) place) ∧
      Recorded policy records place) ?_ (fun report => Triple.pure (fun _ ends => ends))
    refine (triple_withRetry_from tracked_sleeps run.retryPolicy run.options.cancel once ?_).consequence ?_ ?_ ?_
    · rintro attempt place ⟨holds, pending⟩
      exact ⟨holds, pending, nofun⟩
    · rintro place ⟨holds, unlost, level⟩
      exact ⟨holds, fun _ => level, fun _ => unlost⟩
    · intro report place ends
      rw [governedRows_records] at ends
      exact ends
    · exact fun _ _ => trivial
  · rintro ⟨settledAccount, written⟩
    have rest : Only Quiet (fun next => next.nextSeq = state.nextSeq + 1) (do
        settle settledAccount
        run.flushAndPersist page (wrapState (some bookmark) (state.nextSeq + 1))
        pure { state with
          recordsWritten := state.recordsWritten + written, lastBookmark := some bookmark
          nextSeq := state.nextSeq + 1 }) := by
      refine Only.andThen (quiet_settle _) ?_
      intro _
      exact Only.andThen (quiet_flushAndPersist run _) (fun _ => rfl)
    refine (tracks_quiet rest lasting).consequence (fun _ holds => holds) ?_ (fun _ _ => trivial)
    rintro next place ⟨same, ⟨holds, level⟩, recorded⟩
    refine ⟨holds, recorded, ?_, ?_⟩
    · omega
    · rw [same]
      exact level

theorem tracks_unmarkedPage (records : List Value) (account : PageAccount) (state : LoopState)
    (lasting : Lasting whole policy fact) :
    Triple (whole.tracked around policy) (Steady whole items) fact
      (run.unmarkedPage page records account state)
      (fun next place => fact place ∧ Recorded policy records place ∧ next.nextSeq = state.nextSeq)
      (fun _ => True) := by
  unfold Run.unmarkedPage
  split
  · rename_i empty
    rw [List.isEmpty_iff.mp empty]
    exact Triple.pure (fun place holds => ⟨holds, recorded_nil place, rfl⟩)
  · refine Triple.bind (fun _ place => fact place ∧ Recorded policy records place) ?_ ?_
    · refine (tracks_writeReported run (governedRows records) account lasting).consequence (fun _ holds => holds)
        ?_ (fun _ _ => trivial)
      intro value place ends
      rw [governedRows_records] at ends
      exact ends
    · intro written
      have rest : Only Quiet (fun next => next.nextSeq = state.nextSeq) (do
          settle written.1
          pure { state with recordsWritten := state.recordsWritten + written.2 }) :=
        Only.andThen (quiet_settle _) (fun _ => rfl)
      refine (tracks_quiet rest (lasting.and (lasting_recorded records))).consequence (fun _ holds => holds) ?_
        (fun _ _ => trivial)
      rintro next place ⟨same, holds, recorded⟩
      exact ⟨holds, recorded, same⟩

/-! ### The loop -/

/-- The rows governance made of a page are recorded. -/
def Sees (around : Around) (policy : CleanupPolicy) (content : StreamPage) (place : Site × Wrappers) : Prop :=
  content.records = [] ∨ exists outcome, around.governs content.records outcome ∧
    Recorded policy outcome.records place

theorem growing_sees (content : StreamPage) : Growing whole policy (Sees around policy content) := by
  intro before after sound grows sees
  refine sees.imp id ?_
  rintro ⟨outcome, governs, recorded⟩
  exact ⟨outcome, governs, grows.covers sound _ recorded⟩

theorem Growing.and {other : Site × Wrappers -> Prop} (first : Growing whole policy fact)
    (second : Growing whole policy other) : Growing whole policy (fun place => fact place ∧ other place) :=
  fun before after sound grows holds =>
    ⟨first before after sound grows holds.1, second before after sound grows holds.2⟩

/-- A page with a token is ahead of what the sink has committed. -/
def OnBranch (branch : Run.Branch) (state : LoopState) (place : Site × Wrappers) : Prop :=
  match branch with
  | .exactlyOnce committedSeq => committedSeq ≤ state.nextSeq ∧ Level run.scope state.nextSeq place
  | _ => True

theorem lasting_onBranch (branch : Run.Branch) (state : LoopState) :
    Lasting whole policy (OnBranch run branch state) := by
  intro before after sound grows same holds
  cases branch with
  | deadLetter dlq => trivial
  | plain => trivial
  | exactlyOnce committedSeq =>
      exact ⟨holds.1, lasting_level run.scope state.nextSeq before after sound grows same holds.2⟩

theorem tracks_writePage (branch : Run.Branch) (outcome : GovernanceOutcome)
    (bookmark : Option Value) (account : PageAccount) (state : LoopState) (growing : Growing whole policy fact) :
    Triple (whole.tracked around policy) (Steady whole items)
      (fun place => fact place ∧ OnBranch run branch state place)
      (run.writePage branch page outcome bookmark account state)
      (fun next place => fact place ∧ Recorded policy outcome.records place ∧ OnBranch run branch next place)
      (fun _ => True) := by
  cases branch with
  | deadLetter dlq =>
      exact (tracks_dlqPage run dlq _ _ bookmark account state growing.lasting).consequence
        (fun _ holds => holds.1) (fun _ _ ends => ⟨ends.1, ends.2, trivial⟩) (fun _ ends => ends)
  | plain =>
      have written : Triple (whole.tracked around policy) (Steady whole items) fact
          (run.writePage .plain page outcome bookmark account state)
          (fun _ place => fact place ∧ Recorded policy outcome.records place) (fun _ => True) := by
        cases bookmark with
        | none => exact tracks_plainPage run _ none account state growing.lasting
        | some bookmark => exact tracks_plainPage run _ (some bookmark) account state growing.lasting
      exact written.consequence (fun _ holds => holds.1) (fun _ _ ends => ⟨ends.1, ends.2, trivial⟩)
        (fun _ ends => ends)
  | exactlyOnce committedSeq =>
      rintro place steady ⟨holds, behind, level⟩
      cases bookmark with
      | some bookmark =>
          refine (tracks_exactlyOncePage run committedSeq outcome.records bookmark account state behind growing
            place steady ⟨holds, level⟩).weaken ?_
          intro result last _ ends
          cases result with
          | error error => trivial
          | ok next =>
              rcases ends with ⟨still, recorded, further, level⟩
              exact ⟨still, recorded, Nat.le_trans behind further, level⟩
      | none =>
          have lasting := growing.lasting.and (lasting_level run.scope state.nextSeq)
          refine (tracks_unmarkedPage run outcome.records account state lasting place steady
            ⟨holds, level⟩).weaken ?_
          intro result last _ ends
          cases result with
          | error error => trivial
          | ok next =>
              rcases ends with ⟨⟨still, level⟩, recorded, same⟩
              refine ⟨still, recorded, ?_⟩
              unfold OnBranch
              rw [same]
              exact ⟨behind, level⟩

theorem quiet_abortPage (envelopes : List Envelope) (error : FaucetError) :
    Only Quiet (fun _ => False) (run.abortPage page envelopes error) := by
  have plain : Only (Plainly []) (fun _ => False) (run.abortPage page envelopes error) :=
    run.plain_abortPage envelopes error
  exact plain.widen (fun _ plainly => quiet_of_plainly plainly)

theorem tracks_stepPage (branch : Run.Branch) (content : StreamPage) (state : LoopState)
    (growing : Growing whole policy fact) :
    Triple (whole.tracked around policy) (Steady whole items)
      (fun place => fact place ∧ OnBranch run branch state place)
      (run.stepPage branch page content state)
      (fun next place => fact place ∧ Sees around policy content place ∧ OnBranch run branch next place)
      (fun _ => True) := by
  have lasting : Lasting whole policy (fun place => fact place ∧ OnBranch run branch state place) :=
    growing.lasting.and (lasting_onBranch run branch state)
  refine Triple.bind (fun outcome place => around.governs content.records outcome ∧ fact place ∧
    OnBranch run branch state place) ?_ ?_
  · apply triple_call
    intro before answer after steady holds answered
    rcases tracked_quiet (show Quiet (.applyGovernance page content.records) from trivial) answered with
      ⟨grows, same⟩
    refine ⟨steady.grows grows, ?_⟩
    cases answer with
    | error error => trivial
    | ok outcome =>
        exact ⟨answered.1.1.1 outcome rfl, lasting before after steady.sound grows same holds⟩
  · intro outcome place steady holds
    dsimp only
    split
    · refine (tracks_quiet (quiet_abortPage run _ _) lasting place steady holds.2).weaken ?_
      intro result last _ ends
      cases result with
      | error error => trivial
      | ok next => exact ends.1.elim
    · refine (tracks_writePage run branch outcome content.bookmark _ state growing place steady holds.2).weaken ?_
      intro result last _ ends
      cases result with
      | error error => trivial
      | ok next => exact ⟨ends.1, Or.inr ⟨outcome, holds.1, ends.2.1⟩, ends.2.2⟩

/-- Asking whether the run is cancelled, with a fact that the question keeps. -/
theorem tracks_asksCancelled {wired : Bool}
    (keeps : forall before answer after, whole.tracked around policy .isCancelled before answer after ->
      Steady whole items before -> fact before -> fact after) :
    Triple (whole.tracked around policy) (Steady whole items) fact
      (if wired then .ask .isCancelled (fun fired => pure fired) else pure false : Engine Bool)
      (fun fired place => fact place ∧ (fired = true -> place.1.cancelled = true) ∧
        (wired = true -> fired = false -> place.1.cancelled = false)) (fun _ => True) := by
  split
  · apply Triple.ask
    intro before answer after steady holds answered
    rcases tracked_quiet (show Quiet .isCancelled from trivial) answered with ⟨grows, same⟩
    refine ⟨steady.grows grows, fun still => ⟨still, ?_⟩⟩
    have found : after.1.cancelled = answer := congrArg Site.cancelled answered.1.1.2.2
    refine ⟨keeps before answer after answered steady holds, ?_, ?_⟩
    · exact fun fired => found.trans fired
    · exact fun _ quiet => found.trans quiet
  · rename_i unwired
    exact Triple.pure (fun place holds =>
      ⟨holds, nofun, fun wired => absurd wired unwired⟩)

theorem tracks_isCancelled {wired : Bool} (lasting : Lasting whole policy fact) :
    Triple (whole.tracked around policy) (Steady whole items) fact
      (if wired then .ask .isCancelled (fun fired => pure fired) else pure false : Engine Bool)
      (fun fired place => fact place ∧ (fired = true -> place.1.cancelled = true) ∧
        (wired = true -> fired = false -> place.1.cancelled = false)) (fun _ => True) := by
  apply tracks_asksCancelled
  intro before answer after answered steady holds
  rcases tracked_quiet (show Quiet .isCancelled from trivial) answered with ⟨grows, same⟩
  exact lasting before after steady.sound grows same holds

/-- The loop ends on a cancellation, or has recorded each of its pages. -/
theorem tracks_pageLoop (branch : Run.Branch) (remaining : List (Except FaucetError StreamPage))
    (page : Nat) (state : LoopState) (growing : Growing whole policy fact) :
    Triple (whole.tracked around policy) (Steady whole items)
      (fun place => fact place ∧ OnBranch run branch state place)
      (run.pageLoop branch remaining page state)
      (fun _ place => place.1.cancelled = true ∨ (fact place ∧ forall item, item ∈ remaining ->
        exists content, item = .ok content ∧ Sees around policy content place)) (fun _ => True) := by
  induction remaining generalizing page state fact with
  | nil =>
      have lasting : Lasting whole policy (fun place => fact place ∧ OnBranch run branch state place) :=
        growing.lasting.and (lasting_onBranch run branch state)
      unfold Run.pageLoop
      refine Triple.bind _ (tracks_isCancelled lasting) ?_
      intro stops
      cases stops with
      | true => exact Triple.pure (fun _ ends => Or.inl (ends.2.1 rfl))
      | false =>
          refine Triple.bind _ ((tracks_isCancelled lasting).given (fun _ holds => holds.1)) ?_
          intro drained
          exact Triple.pure (fun _ ends => Or.inr ⟨ends.1.1, fun _ member => by cases member⟩)
  | cons item rest ih =>
      have lasting : Lasting whole policy (fun place => fact place ∧ OnBranch run branch state place) :=
        growing.lasting.and (lasting_onBranch run branch state)
      unfold Run.pageLoop
      refine Triple.bind _ (tracks_isCancelled lasting) ?_
      intro stops
      cases stops with
      | true => exact Triple.pure (fun _ ends => Or.inl (ends.2.1 rfl))
      | false =>
          cases item with
          | error error => exact Triple.fails
          | ok content =>
              have seen : Growing whole policy (fun place => fact place ∧ Sees around policy content place) :=
                growing.and (growing_sees content)
              have later : forall next page, Triple (whole.tracked around policy) (Steady whole items)
                  (fun place => (fact place ∧ Sees around policy content place) ∧ OnBranch run branch next place)
                  (run.pageLoop branch rest page next)
                  (fun _ place => place.1.cancelled = true ∨ (fact place ∧
                    forall item, item ∈ .ok content :: rest -> exists content, item = .ok content ∧
                      Sees around policy content place)) (fun _ => True) := by
                intro next page
                refine (ih page next seen).gives ?_
                rintro final place (cancelled | ⟨⟨holds, sees⟩, each⟩)
                · exact Or.inl cancelled
                · refine Or.inr ⟨holds, ?_⟩
                  intro item member
                  rcases List.mem_cons.mp member with rfl | further
                  · exact ⟨content, rfl, sees⟩
                  · exact each item further
              simp only [Bool.false_eq_true, if_false]
              split
              · rename_i skipped
                have empty : content.records = [] := List.isEmpty_iff.mp (Bool.and_eq_true_iff.mp skipped).1
                exact (later state (page + 1)).given (fun _ holds => ⟨⟨holds.1.1, Or.inl empty⟩, holds.1.2⟩)
              · refine Triple.bind _ ((tracks_stepPage run branch content state growing).given (fun _ holds =>
                  holds.1)) ?_
                intro next
                exact (later next (page + 1)).given (fun _ holds => ⟨⟨holds.1, holds.2.1⟩, holds.2.2⟩)

/-! ### The run over its pages -/

theorem onBranch_of_untokened {branch : Run.Branch} (untokened : branch.Untokened) (state : LoopState)
    (place : Site × Wrappers) : OnBranch run branch state place := by
  cases branch with
  | deadLetter dlq => trivial
  | plain => trivial
  | exactlyOnce committedSeq => exact untokened.elim

/-- A run with a token goes on from no earlier a page than the token's. -/
def Anchored (place : Site × Wrappers) : Prop :=
  run.usesWatermark = .ok true -> Level run.scope run.options.startSeq place

theorem tracks_committedSeq (seq : Nat) :
    Triple (whole.tracked around policy) (Steady whole items) (Level run.scope seq) run.committedSeq
      (fun committed place => committed ≤ seq ∧ Level run.scope seq place) (fun _ => True) := by
  refine Triple.bind (fun token place => (token.bind parseToken).getD 0 ≤ seq ∧ Level run.scope seq place) ?_
    (fun token => Triple.pure (fun _ ends => ends))
  apply triple_call
  intro before answer after steady level answered
  rcases tracked_quiet (show Quiet (.lastCommittedToken run.scope) from trivial) answered with ⟨grows, same⟩
  refine ⟨steady.grows grows, ?_⟩
  cases answer with
  | error error => trivial
  | ok token =>
      have found : token = before.1.tokens run.scope := answered.1.1.1 token rfl
      refine ⟨?_, lasting_level run.scope seq before after steady.sound grows same level⟩
      rw [found]
      exact level.2

/-- The branch of a run is chosen with the token where it is. -/
theorem tracks_start :
    Triple (whole.tracked around policy) (Steady whole items) (Anchored run) run.start
      (fun branch place => OnBranch run branch run.initialState place) (fun _ => True) := by
  by_cases watermark : run.usesWatermark = .ok true
  · unfold Run.start
    refine Triple.bind _ (Triple.check _) ?_
    intro _
    rw [watermark]
    refine Triple.bind (fun uses place => uses = true ∧ Level run.scope run.options.startSeq place)
      (Triple.ofExcept (fun place anchored => ⟨rfl, anchored watermark⟩)) ?_
    rintro uses place steady ⟨rfl, level⟩
    refine Triple.bind _ (tracks_committedSeq run run.options.startSeq) ?_ place steady level
    intro committed
    refine Triple.bind _ (Triple.check _) ?_
    intro _
    cases run.options.dlq with
    | some dlq => exact Triple.pure (fun _ _ => trivial)
    | none => exact Triple.pure (fun _ ends => ends)
  · have untokened : Only Quiet Run.Branch.Untokened run.start := by
      have plain : Only (Plainly []) Run.Branch.Untokened run.start := run.plain_start watermark
      exact plain.widen (fun _ plainly => quiet_of_plainly plainly)
    have nothing : Lasting whole policy (fun _ => True) := fun _ _ _ _ _ _ => trivial
    exact (tracks_quiet untokened nothing).consequence (fun _ _ => trivial)
      (fun branch place ends => onBranch_of_untokened run ends.1 run.initialState place) (fun _ _ => trivial)

/-- Each page the source yielded is recorded, unless the run was found
cancelled. -/
def AllSeen (around : Around) (policy : CleanupPolicy) (items : List (Except FaucetError StreamPage))
    (place : Site × Wrappers) : Prop :=
  place.1.cancelled = true ∨ forall item, item ∈ items ->
    exists content, item = .ok content ∧ Sees around policy content place

theorem growing_allSeen : Growing whole policy (AllSeen around policy items) := by
  rintro before after sound grows (cancelled | each)
  · exact Or.inl (grows.stays cancelled)
  · refine Or.inr ?_
    intro item member
    rcases each item member with ⟨content, shape, sees⟩
    exact ⟨content, shape, growing_sees content before after sound grows sees⟩

theorem tracks_runStream :
    Triple (whole.tracked around policy) (Steady whole items) (Anchored run) (run.runStream items)
      (fun _ place => AllSeen around policy items place) (fun _ => True) := by
  have nothing : Growing whole policy (fun _ => True) := fun _ _ _ _ _ => trivial
  refine Triple.bind _ (tracks_start run) ?_
  intro branch
  have looped : Triple (whole.tracked around policy) (Steady whole items)
      (OnBranch run branch run.initialState) (run.pageLoop branch items 1 run.initialState).attempt
      (fun result place => forall final, result = .ok final -> AllSeen around policy items place)
      (fun _ => True) := by
    refine ((tracks_pageLoop run branch items 1 run.initialState nothing).given (fun _ holds =>
      ⟨trivial, holds⟩)).attempt ?_
    rintro result place ends final rfl
    exact ends.imp id (fun each => each.2)
  refine Triple.bind _ looped ?_
  intro result
  cases result with
  | error error =>
      refine Triple.bind (fun _ _ => True) ?_ (fun _ => Triple.fails)
      exact (tracks_quiet (quiet_plain run.plain_unwind) nothing.lasting).consequence (fun _ _ => trivial)
        (fun _ _ _ => trivial) (fun _ _ => trivial)
  | ok final =>
      refine Triple.bind (fun _ => AllSeen around policy items) ?_ (fun _ => Triple.pure (fun _ ends => ends))
      exact (tracks_quiet (quiet_plain (run.plain_finish final.2)) growing_allSeen.lasting).consequence
        (fun _ ends => ends final rfl) (fun _ _ ends => ends.2) (fun _ _ => trivial)

end WholeRun
end Pipeline
end FaucetStream
