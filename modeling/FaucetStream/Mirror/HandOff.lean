import Mathlib.Data.Nat.Basic
import Mathlib.Order.Defs.PartialOrder
import FaucetStream.Library.Concurrent

namespace FaucetStream
namespace Mirror

open Library

/-!
# From the snapshot to the change stream

A single-table mirror records a marker, takes the snapshot and hands off to the
change stream from the position captured before it.  Several processes may do
this against one state store.  The marker only changes by compare-and-put, and
once it says that the snapshot is done it stays so; the bookmark is written
unconditionally in between.  A process that stalls right before such a write
rewinds the bookmark of a process that has finished the hand-off meanwhile;
every history without such a late write keeps what the change streams stored.
-/

inductive Phase where
  | snapshot
  | cdc
  deriving DecidableEq

/-- The durable marker. -/
structure ReplicationState (Position : Type) where
  phase : Phase
  snapshotDone : Bool
  position : Position
  deriving DecidableEq

inductive Plan where
  | bootstrap
  | resumeSnapshot
  | resumeCdc
  deriving DecidableEq

variable {Position : Type}

def planFromMarker : Option (ReplicationState Position) -> Plan
  | none => .bootstrap
  | some state => if state.snapshotDone then .resumeCdc else .resumeSnapshot

inductive CliError where
  | config (message : String)
  | internal (message : String)
  | leaseHeld (message : String)
  deriving DecidableEq

/-- How a snapshot run ends. -/
inductive SnapshotEnd where
  | complete
  | interrupted
  | failed (error : CliError)

/-- What a mirror process asks of its surroundings. -/
inductive Question (Position : Type) where
  | getMarker
  | compareAndPutMarker (expected : Option (ReplicationState Position)) (value : ReplicationState Position)
  | putBookmark (position : Position)
  | captureResumePosition
  | runSnapshot
  | runCdc

/-- A change-stream cycle answers whether another one follows. -/
def Reply (Position : Type) : Question Position -> Type
  | .getMarker => Option (ReplicationState Position)
  | .compareAndPutMarker _ _ => Bool
  | .putBookmark _ => Unit
  | .captureResumePosition => Option Position
  | .runSnapshot => SnapshotEnd
  | .runCdc => Except CliError Bool

abbrev Process (Position Result : Type) : Type := Program (Reply Position) CliError Result

/-- Ask and go on with the answer. -/
abbrev ask (question : Question Position) : Process Position (Reply Position question) := Program.request question

/-- Record the marker at `position`, only if there is none, and seed the
bookmark there.  Returns whether this process bootstrapped. -/
def bootstrapMarker (position : Position) : Process Position Bool := do
  let written : Bool <- ask (.compareAndPutMarker none ⟨.snapshot, false, position⟩)
  if !written then pure false
  else do
    let _ : Unit <- ask (.putBookmark position)
    pure true

def markerChanged (markerKey : String) : CliError :=
  .config ("mirror: the phase marker `" ++ markerKey ++ "` changed while this process ran the snapshot — another " ++
    "mirror process is running this pipeline")

/-- The pending marker with its phase alternated. -/
def claimOf (marker : ReplicationState Position) : ReplicationState Position where
  phase := match marker.phase with
    | .cdc => .snapshot
    | .snapshot => .cdc
  snapshotDone := false
  position := marker.position

/-- Claim the marker that was read, seed the bookmark from it and mark the
hand-off. -/
def handOffToCdc (markerKey : String) (marker : ReplicationState Position) : Process Position Unit := do
  let claimed : Bool <- ask (.compareAndPutMarker (some marker) (claimOf marker))
  if !claimed then Program.raise (markerChanged markerKey)
  else do
    let _ : Unit <- ask (.putBookmark marker.position)
    let done : Bool <- ask (.compareAndPutMarker (some (claimOf marker)) ⟨.cdc, true, marker.position⟩)
    if !done then Program.raise (markerChanged markerKey) else pure ()

/-- At most `rounds` change-stream cycles. -/
def cdcPhase : Nat -> Process Position Unit
  | 0 => pure ()
  | rounds + 1 => do
      let cycle : Except CliError Bool <- ask .runCdc
      match cycle with
      | .error error => Program.raise error
      | .ok again => if again then cdcPhase rounds else pure ()

/-- The marker to go by is read again after the bootstrap. -/
def afterBootstrap (markerKey : String) (rounds : Nat) : Process Position Unit := do
  let found : Option (ReplicationState Position) <- ask .getMarker
  match found with
  | none => Program.raise (.internal "mirror: marker missing after bootstrap")
  | some marker =>
      if marker.snapshotDone then cdcPhase rounds
      else do
        let ended : SnapshotEnd <- ask .runSnapshot
        match ended with
        | .failed error => Program.raise error
        | .interrupted => pure ()
        | .complete => do
            handOffToCdc markerKey marker
            cdcPhase rounds

def runReplication (kind markerKey : String) (rounds : Nat) : Process Position Unit := do
  let marker : Option (ReplicationState Position) <- ask .getMarker
  if planFromMarker marker = .bootstrap then do
    let captured : Option Position <- ask .captureResumePosition
    match captured with
    | none => Program.raise (.config ("mirror: source '" ++ kind ++ "' does not support position capture"))
    | some position => do
        let _ : Bool <- bootstrapMarker position
        afterBootstrap markerKey rounds
  else afterBootstrap markerKey rounds

/-! ## The store -/

/-- The two keys of the store, and the positions the change streams stored. -/
structure Store (Position : Type) where
  marker : Option (ReplicationState Position) := none
  bookmark : Option Position := none
  stored : List Position := []

/-- The marker says that the snapshot is done. -/
def Store.Done (store : Store Position) : Prop :=
  exists marker, store.marker = some marker ∧ marker.snapshotDone = true

variable [Preorder Position]

/-- What the store and the runs answer.  A change-stream cycle may move the
bookmark forward, and leaves it alone otherwise. -/
def answers : Environment (Reply Position) (Store Position)
  | .getMarker, store, answer, after => answer = store.marker ∧ after = store
  | .compareAndPutMarker expected value, store, answer, after =>
      (answer = true ∧ store.marker = expected ∧ after = { store with marker := some value }) ∨
        (answer = false ∧ store.marker ≠ expected ∧ after = store)
  | .putBookmark position, store, _, after => after = { store with bookmark := some position }
  | .captureResumePosition, store, _, after => after = store
  | .runSnapshot, store, _, after => after = store
  | .runCdc, store, _, after => after = store ∨
      exists position, (forall bookmark, store.bookmark = some bookmark -> bookmark ≤ position) ∧
        after = { store with bookmark := some position, stored := position :: store.stored }

/-- The same, but the bookmark is put only before the marker says that the
snapshot is done, or before a change stream has stored a position. -/
def timelyAnswers : Environment (Reply Position) (Store Position) := fun question store answer after =>
  answers question store answer after ∧
    forall position, question = .putBookmark position -> ¬ store.Done ∨ store.stored = []

/-! ## No step undoes the hand-off -/

/-- What the change streams stored is not behind the bookmark, and they only
stored after the hand-off. -/
def Forward (store : Store Position) : Prop :=
  forall position, position ∈ store.stored ->
    store.Done ∧ exists bookmark, store.bookmark = some bookmark ∧ position ≤ bookmark

/-- The hand-off is not undone. -/
def StaysDone (store after : Store Position) : Prop := store.Done -> after.Done

section Steps

variable {store after : Store Position}

theorem Forward.nothing_stored (forward : Forward store) (pending : ¬ store.Done) : store.stored = [] := by
  apply List.eq_nil_iff_forall_not_mem.mpr
  intro position member
  exact pending (forward position member).1

/-- A compare-and-put against a marker that is missing or pending. -/
theorem compareAndPut_keeps {expected : Option (ReplicationState Position)} {value : ReplicationState Position}
    {answer : Reply Position (.compareAndPutMarker expected value)} (forward : Forward store)
    (pending : forall marker, expected = some marker -> marker.snapshotDone = false)
    (answered : timelyAnswers (.compareAndPutMarker expected value) store answer after) :
    Forward after ∧ StaysDone store after ∧ (answer = true -> after.marker = some value) := by
  rcases answered.1 with ⟨written, matched, rfl⟩ | ⟨refused, _, rfl⟩
  · have notDone : ¬ store.Done := by
      rintro ⟨marker, found, done⟩
      have undone := pending marker (matched.symm.trans found)
      rw [undone] at done
      cases done
    refine ⟨?_, fun done => absurd done notDone, fun _ => rfl⟩
    intro position member
    rw [show store.stored = [] from forward.nothing_stored notDone] at member
    cases member
  · refine ⟨forward, id, ?_⟩
    intro written
    rw [refused] at written
    cases written

theorem putBookmark_keeps {position : Position} {answer : Reply Position (.putBookmark position)}
    (forward : Forward store) (answered : timelyAnswers (.putBookmark position) store answer after) :
    Forward after ∧ StaysDone store after := by
  rcases answered with ⟨rfl, timely⟩
  have nothing : store.stored = [] := by
    rcases timely position rfl with pending | nothing
    · exact forward.nothing_stored pending
    · exact nothing
  refine ⟨?_, id⟩
  intro other member
  rw [show store.stored = [] from nothing] at member
  cases member

theorem runCdc_keeps {answer : Reply Position .runCdc} (forward : Forward store) (done : store.Done)
    (answered : timelyAnswers .runCdc store answer after) : Forward after ∧ StaysDone store after := by
  rcases answered.1 with rfl | ⟨position, ahead, rfl⟩
  · exact ⟨forward, id⟩
  · refine ⟨?_, id⟩
    intro other member
    rcases List.mem_cons.mp member with rfl | older
    · exact ⟨done, other, rfl, le_refl other⟩
    · rcases (forward other older).2 with ⟨bookmark, found, behind⟩
      exact ⟨done, position, rfl, le_trans behind (ahead bookmark found)⟩

end Steps

/-! ## Every program keeps it -/

abbrev Keeps {Result : Type} (post : Except CliError Result -> Store Position -> Prop) :
    Process Position Result -> Store Position -> Prop :=
  Kept timelyAnswers Forward StaysDone StaysDone post

theorem cdcPhase_keeps (rounds : Nat) {store : Store Position} (done : store.Done) :
    Keeps (fun _ _ => True) (cdcPhase rounds) store := by
  induction rounds generalizing store with
  | zero => trivial
  | succ rounds ih =>
      apply Kept.request
      intro current moved forward answer after answered
      rcases runCdc_keeps forward (moved done) answered with ⟨still, stays⟩
      refine ⟨still, stays, ?_⟩
      cases answer with
      | error error => trivial
      | ok again =>
          cases again with
          | true => exact ih (stays (moved done))
          | false => trivial

theorem bootstrapMarker_keeps (position : Position) (store : Store Position) :
    Keeps (fun _ _ => True) (bootstrapMarker position) store := by
  apply Kept.request
  intro current _ forward answer after answered
  have pending : forall marker, (none : Option (ReplicationState Position)) = some marker ->
      marker.snapshotDone = false := by
    intro marker absurdity
    cases absurdity
  rcases compareAndPut_keeps forward pending answered with ⟨still, stays, _⟩
  refine ⟨still, stays, ?_⟩
  cases answer with
  | false => trivial
  | true =>
      apply Kept.request
      intro current _ forward answer after answered
      rcases putBookmark_keeps forward answered with ⟨still, stays⟩
      exact ⟨still, stays, trivial⟩

theorem handOffToCdc_keeps (markerKey : String) {marker : ReplicationState Position}
    (pending : marker.snapshotDone = false) (store : Store Position) :
    Keeps (fun result after => forall value, result = .ok value ->
      after.Done) (handOffToCdc markerKey marker) store := by
  apply Kept.request
  intro current _ forward claimed after answered
  have readPending : forall found, some marker = some found -> found.snapshotDone = false := by
    intro found same
    cases same
    exact pending
  rcases compareAndPut_keeps forward readPending answered with ⟨still, stays, _⟩
  refine ⟨still, stays, ?_⟩
  cases claimed with
  | false =>
      intro value absurdity
      cases absurdity
  | true =>
      apply Kept.request
      intro current _ forward put after answered
      rcases putBookmark_keeps forward answered with ⟨still, stays⟩
      refine ⟨still, stays, ?_⟩
      apply Kept.request
      intro current _ forward finished after answered
      have claimPending : forall found, some (claimOf marker) = some found -> found.snapshotDone = false := by
        intro found same
        cases same
        rfl
      rcases compareAndPut_keeps forward claimPending answered with ⟨still, stays, written⟩
      refine ⟨still, stays, ?_⟩
      cases finished with
      | false =>
          intro value absurdity
          cases absurdity
      | true =>
          intro value _
          exact ⟨_, written rfl, rfl⟩

theorem afterBootstrap_keeps (markerKey : String) (rounds : Nat) (store : Store Position) :
    Keeps (fun _ _ => True) (afterBootstrap markerKey rounds) store := by
  apply Kept.request
  intro current _ forward found after answered
  rcases answered.1 with ⟨rfl, rfl⟩
  refine ⟨forward, id, ?_⟩
  cases known : after.marker with
  | none => trivial
  | some marker =>
      cases done : marker.snapshotDone with
      | true =>
          dsimp only
          rw [if_pos done]
          exact cdcPhase_keeps rounds ⟨marker, known, done⟩
      | false =>
          dsimp only
          rw [if_neg (by rw [done]; exact Bool.false_ne_true)]
          apply Kept.request
          intro current _ forward ended after answered
          cases answered.1
          refine ⟨forward, id, ?_⟩
          cases ended with
          | failed error => trivial
          | interrupted => trivial
          | complete =>
              apply Kept.bind
              apply (handOffToCdc_keeps markerKey done _).weaken
              intro result after handedOff
              cases result with
              | error error => trivial
              | ok value => exact cdcPhase_keeps rounds (handedOff value rfl)

theorem runReplication_keeps (kind markerKey : String) (rounds : Nat) (store : Store Position) :
    Keeps (fun _ _ => True) (runReplication kind markerKey rounds) store := by
  apply Kept.request
  intro current _ forward found after answered
  rcases answered.1 with ⟨rfl, rfl⟩
  refine ⟨forward, id, ?_⟩
  by_cases bootstrap : planFromMarker after.marker = .bootstrap
  · rw [if_pos bootstrap]
    apply Kept.request
    intro current _ forward captured after answered
    cases answered.1
    refine ⟨forward, id, ?_⟩
    cases captured with
    | none => trivial
    | some position =>
        apply Kept.bind
        apply (bootstrapMarker_keeps position _).weaken
        intro result after _
        cases result with
        | error error => trivial
        | ok value => exact afterBootstrap_keeps markerKey rounds after
  · rw [if_neg bootstrap]
    exact afterBootstrap_keeps markerKey rounds after

/-! ## Any number of processes -/

section Processes

variable {Task : Type} [DecidableEq Task]

/-- A process may be started, or started again after a crash, at any time. -/
def Starts (kind markerKey : String) (_ : Task) (program : Process Position Unit) : Prop :=
  exists rounds, program = runReplication kind markerKey rounds

/-- No process is running yet and the store is empty. -/
def idle : Pool Task (Reply Position) CliError Unit (Store Position) := ⟨fun _ => .done (.ok ()), {}⟩

/-- Without late writes, no process rewinds what a change stream stored. -/
theorem bookmark_not_rewound {kind markerKey : String}
    {pool : Pool Task (Reply Position) CliError Unit (Store Position)}
    (reached : Pool.Reaches timelyAnswers (Starts kind markerKey) (fun _ _ => False) idle pool) :
    forall position, position ∈ pool.world.stored ->
      pool.world.Done ∧ exists bookmark, pool.world.bookmark = some bookmark ∧ position ≤ bookmark := by
  have refl : forall (_ : Task) (store : Store Position), StaysDone store store := fun _ _ => id
  have trans : forall (_ : Task) (first second third : Store Position), StaysDone first second ->
      StaysDone second third -> StaysDone first third := fun _ _ _ _ one two => two ∘ one
  have initial : Forward (idle : Pool Task (Reply Position) CliError Unit (Store Position)).world := by
    intro position member
    cases member
  have started : forall (task : Task) (program : Process Position Unit), Starts kind markerKey task program ->
    forall store, Forward store ->
      Keeps (fun _ _ => True) program store := by
    intro task program starts store _
    rcases starts with ⟨rounds, rfl⟩
    exact runReplication_keeps kind markerKey rounds store
  exact (reached.keeps refl trans (fun _ _ _ _ _ stays => stays) initial (fun _ => trivial) started
    (fun _ _ absurdity => absurdity.elim)).1

/-! ## Two processes -/

def pendingMarker : ReplicationState Nat := ⟨.snapshot, false, 1⟩

def sampleProgram (rounds : Nat) : Process Nat Unit := runReplication "postgres-cdc" "p::__replication__" rounds

/-- The store after the bootstrap's compare-and-put. -/
def bootstrapped : Store Nat := { marker := some pendingMarker }

/-- The store after a hand-off and one cycle of the change stream. -/
def streamed : Store Nat := { marker := some ⟨.cdc, true, 1⟩, bookmark := some 5, stored := [5] }

/-- An answer other than to a put of the bookmark is always timely. -/
theorem timely {question : Question Nat} {store after : Store Nat} {answer : Reply Nat question}
    (answered : answers question store answer after)
    (other : forall position, question ≠ .putBookmark position) : timelyAnswers question store answer after :=
  ⟨answered, fun position same => absurd same (other position)⟩

/-- A process that stalls right before it seeds the bookmark. -/
theorem stalls_before_seed : exists rest,
    Library.Reaches timelyAnswers (sampleProgram 0) {} (.ask (.putBookmark 1) rest) bootstrapped := by
  have read : timelyAnswers .getMarker {} none {} := timely ⟨rfl, rfl⟩ nofun
  have captured : timelyAnswers .captureResumePosition {} (some 1) {} := timely rfl nofun
  have written : timelyAnswers (.compareAndPutMarker none pendingMarker) {} true bootstrapped :=
    timely (.inl ⟨rfl, rfl, rfl⟩) nofun
  exact ⟨_, .step read (.step captured (.step written (.here _ _)))⟩

/-- Another process that takes the snapshot, hands off and streams. -/
theorem hands_off_and_streams :
    Library.Reaches timelyAnswers (sampleProgram 1) bootstrapped (.done (.ok ())) streamed := by
  have read : timelyAnswers .getMarker bootstrapped (some pendingMarker) bootstrapped :=
    timely ⟨rfl, rfl⟩ nofun
  have copied : timelyAnswers .runSnapshot bootstrapped .complete bootstrapped :=
    timely rfl nofun
  have claimed : timelyAnswers (.compareAndPutMarker (some pendingMarker) (claimOf pendingMarker)) bootstrapped true
      { marker := some (claimOf pendingMarker) } :=
    timely (.inl ⟨rfl, rfl, rfl⟩) nofun
  have seeded : timelyAnswers (.putBookmark 1) { marker := some (claimOf pendingMarker) } ()
      { marker := some (claimOf pendingMarker), bookmark := some 1 } :=
    ⟨rfl, fun _ _ => .inr rfl⟩
  have handedOff : timelyAnswers (.compareAndPutMarker (some (claimOf pendingMarker)) ⟨.cdc, true, 1⟩)
      { marker := some (claimOf pendingMarker), bookmark := some 1 } true
      { marker := some ⟨.cdc, true, 1⟩, bookmark := some 1 } :=
    timely (.inl ⟨rfl, rfl, rfl⟩) nofun
  have ahead : forall bookmark, some 1 = some bookmark -> bookmark ≤ 5 := by
    intro bookmark same
    cases same
    decide
  have moved : timelyAnswers .runCdc { marker := some ⟨.cdc, true, 1⟩, bookmark := some 1 } (.ok false) streamed :=
    timely (.inr ⟨5, ahead, rfl⟩) nofun
  exact .step read (.step read (.step copied (.step claimed
    (.step seeded (.step handedOff (.step moved (.here _ _)))))))

/-- One process is about to seed the bookmark while another has handed off. -/
theorem streamed_reached : exists (programs : Bool -> Process Nat Unit) (rest : Unit -> Process Nat Unit),
    programs false = .ask (.putBookmark 1) rest ∧
      Pool.Reaches timelyAnswers (Starts "postgres-cdc" "p::__replication__") (fun _ _ => False) idle
        ⟨programs, streamed⟩ := by
  rcases stalls_before_seed with ⟨rest, stalls⟩
  have first : Pool.Reaches timelyAnswers (Starts "postgres-cdc" "p::__replication__") (fun _ _ => False)
      (idle : Pool Bool (Reply Nat) CliError Unit (Store Nat)) _ :=
    (Pool.Reaches.here.start false ⟨0, rfl⟩).run false (Function.update_self _ _ _) stalls
  have second := (first.start true ⟨1, rfl⟩).run true (Function.update_self _ _ _) hands_off_and_streams
  exact ⟨_, rest, rfl, second⟩

theorem bookmark_not_rewound_streamed : exists pool : Pool Bool (Reply Nat) CliError Unit (Store Nat),
    pool.world.stored = [5] ∧ forall position, position ∈ pool.world.stored ->
      pool.world.Done ∧ exists bookmark, pool.world.bookmark = some bookmark ∧ position ≤ bookmark := by
  rcases streamed_reached with ⟨_, _, _, reached⟩
  exact ⟨_, rfl, bookmark_not_rewound reached⟩

/-- The bootstrapping process wakes up and rewinds the bookmark. -/
theorem late_seed_rewinds :
    ¬ forall pool : Pool Bool (Reply Nat) CliError Unit (Store Nat),
      Pool.Reaches answers (Starts "postgres-cdc" "p::__replication__") (fun _ _ => False) idle pool ->
      forall position, position ∈ pool.world.stored ->
        exists bookmark, pool.world.bookmark = some bookmark ∧ position ≤ bookmark := by
  intro always
  rcases streamed_reached with ⟨programs, rest, waits, reached⟩
  have late := (reached.mono (fun _ _ _ _ answered => answered.1)).answer false waits
    (show answers (.putBookmark 1) streamed () { streamed with bookmark := some 1 } from rfl)
  rcases always _ late 5 List.mem_cons_self with ⟨bookmark, found, ahead⟩
  cases found
  exact absurd ahead (by decide)

end Processes

end Mirror
end FaucetStream
