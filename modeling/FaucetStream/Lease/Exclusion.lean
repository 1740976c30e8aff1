import FaucetStream.Lease.Release

namespace FaucetStream
namespace Lease

open Library

/-!
# One run holds the row

However the tasks of the runs interleave, whichever calls fail and whichever
runs and processes die: while a run goes by a lease that is not expired, that
lease or a later one of its own is stored, unless another run was forced.  So
two runs never hold the row at once.  A release without a warning leaves no
lease of its run, and none comes back.
-/

variable {Run Process Value : Type} {deployment : Deployment Run Process Value}
variable {world after : World Run Process Value} {run : Run}

/-- A run at work that goes by a lease that is not expired. -/
structure Holding (deployment : Deployment Run Process Value) (world : World Run Process Value) (run : Run) : Prop where
  phase : world.phase run = .holding
  running : world.life (deployment.processOf run) = .running
  unexpired : world.now < world.heldUntil run

theorem Holding.stored (holding : Holding deployment world run) (sound : Sound deployment world)
    (free : ¬world.overridden run) : exists lease, storedLease deployment world = some lease ∧
      lease.runId = deployment.runId run ∧ world.now < lease.expiresAt := by
  rcases sound.covered run holding.phase ⟨Or.inr holding.phase, holding.running⟩ holding.unexpired free with
    ⟨lease, stored, own, later⟩
  exact ⟨lease, stored, own, lt_of_lt_of_le holding.unexpired later⟩

section Drifting

theorem Sound.time (sound : Sound deployment world) {later : Int} (forward : world.now ≤ later) :
    Sound deployment { world with now := later } where
  fresh := sound.fresh
  apart := sound.apart
  born := sound.born
  marked := sound.marked
  storedOwn := sound.storedOwn
  unspawned := sound.unspawned
  spawnedOwn := fun run lease spawned =>
    ⟨(sound.spawnedOwn run lease spawned).1,
      le_trans (sound.spawnedOwn run lease spawned).2 (Int.add_le_add_right forward _)⟩
  covered := fun run holding live unexpired => sound.covered run holding live (lt_of_le_of_lt forward unexpired)

/-- What processes do to the leases: no run of theirs becomes live again, and an
ended one stays so. -/
theorem Sound.life (sound : Sound deployment world) {life : Process -> Life}
    (apart : forall process other, life process = .running -> life other = .running ->
      (deployment.info process).host ≠ none -> deployment.info process = deployment.info other -> process = other)
    (born : forall run, world.phase run ≠ .idle -> life (deployment.processOf run) ≠ .unborn)
    (running : forall run, world.phase run ≠ .idle -> life (deployment.processOf run) = .running ->
      world.life (deployment.processOf run) = .running)
    (gone : forall process, world.life process = .gone -> life process = .gone) :
    Passes deployment world { world with life := life } := by
  have live : forall run, Live deployment { world with life := life } run -> Live deployment world run := by
    rintro run ⟨phase, runs⟩
    refine ⟨phase, running run ?_ runs⟩
    rcases phase with taking | holding
    · exact fun idle => absurd (idle.symm.trans taking) (by decide)
    · exact fun idle => absurd (idle.symm.trans holding) (by decide)
  have carries : forall run, Carries deployment run world { world with life := life } :=
    fun run _ covered lives => covered (live run lives)
  have onward : Onward deployment world { world with life := life } := by
    refine ⟨le_refl _, ?_, fun _ => id⟩
    rintro run (isOver | aborted | ended)
    · exact Or.inl isOver
    · exact Or.inr (Or.inl aborted)
    · exact Or.inr (Or.inr (gone _ ended))
  refine ⟨⟨sound.fresh, apart, born, sound.marked, sound.storedOwn, sound.unspawned, sound.spawnedOwn,
    fun run holding => carries run _ (sound.covered run holding)⟩, ?_⟩
  rintro ⟨run, role⟩
  cases role with
  | owner => exact ⟨onward, Or.inl rfl, rfl, id, carries run, fun _ => Or.inl rfl⟩
  | renewal => exact ⟨onward, fun _ => rfl, rfl, fun _ => carries run⟩

variable [DecidableEq Process]

theorem Sound.birth (sound : Sound deployment world) {process : Process} (fresh : world.life process = .unborn)
    (apart : forall other, world.life other = .running -> (deployment.info process).host ≠ none ->
      deployment.info other ≠ deployment.info process) :
    Passes deployment world { world with life := Function.update world.life process .running } := by
  have before : forall other, other ≠ process -> Function.update world.life process Life.running other = .running ->
      world.life other = .running := fun other same runs => (Function.update_of_ne same _ _).symm.trans runs
  have begun : forall run, world.phase run ≠ .idle -> deployment.processOf run ≠ process :=
    fun run begun same => absurd (same ▸ fresh) (sound.born run begun)
  refine sound.life ?_ ?_ (fun run phase => before _ (begun run phase)) ?_
  · intro one two first second known equal
    by_cases sameOne : one = process
    · by_cases sameTwo : two = process
      · exact sameOne.trans sameTwo.symm
      · rw [sameOne] at known equal
        exact absurd equal.symm (apart two (before two sameTwo second) known)
    · by_cases sameTwo : two = process
      · rw [sameTwo] at equal
        exact absurd equal (apart one (before one sameOne first) (equal ▸ known))
      · exact sound.apart one two (before one sameOne first) (before two sameTwo second) known equal
  · intro run phase
    rw [Function.update_of_ne (begun run phase)]
    exact sound.born run phase
  · intro other ended
    have same : other ≠ process := by
      rintro rfl
      exact absurd (fresh.symm.trans ended) (by decide)
    exact (Function.update_of_ne same _ _).trans ended

theorem Sound.death (sound : Sound deployment world) {process : Process} (living : world.life process = .running) :
    Passes deployment world { world with life := Function.update world.life process .gone } := by
  have before : forall other, Function.update world.life process Life.gone other = .running ->
      world.life other = .running := by
    intro other running
    by_cases same : other = process
    · rw [same]
      exact living
    · exact (Function.update_of_ne same _ _).symm.trans running
  refine sound.life (fun one two first second => sound.apart one two (before one first) (before two second)) ?_
    (fun run _ => before _) ?_
  · intro run begun
    by_cases same : deployment.processOf run = process
    · rw [same, Function.update_self]
      decide
    · rw [Function.update_of_ne same]
      exact sound.born run begun
  · intro other ended
    by_cases same : other = process
    · rw [same, Function.update_self]
    · exact (Function.update_of_ne same _ _).trans ended

variable [DecidableEq Run]

theorem Sound.abort (sound : Sound deployment world) (taking : world.phase run = .taking) :
    Passes deployment world ((world.setHeldHere deployment run (· - 1)).setPhase run .aborted) := by
  have begun : world.phase run ≠ .idle := by
    rw [taking]
    decide
  have unspawned : world.spawned run ≠ none -> Phase.aborted = .over :=
    fun some => absurd (sound.unspawned_before (Or.inr (Or.inl taking))) some
  rcases sound.unmark (sound.born run begun) (Or.inr rfl) unspawned with ⟨still, guarantees⟩
  refine ⟨still, ?_⟩
  intro task
  by_cases same : task = (run, .owner)
  · rw [same]
    refine ⟨(guarantees (run, .renewal) (by simp)).1, Or.inr ⟨taking, phase_move _ _⟩, rfl, id, ?_,
      fun _ => Or.inl rfl⟩
    rintro expiresAt _ ⟨phase, _⟩
    rw [phase_move] at phase
    rcases phase with phase | phase <;> cases phase
  · exact guarantees task same

theorem Drifts.sound (moved : Drifts deployment world after) (sound : Sound deployment world) :
    Passes deployment world after := by
  cases moved with
  | time later forward =>
      refine ⟨sound.time forward, ?_⟩
      have onward : Onward deployment world { world with now := later } := ⟨forward, fun _ => id, fun _ => id⟩
      have carries : forall run, Carries deployment run world { world with now := later } :=
        fun _ _ covered live unexpired => covered live (lt_of_le_of_lt forward unexpired)
      rintro ⟨run, role⟩
      cases role with
      | owner => exact ⟨onward, Or.inl rfl, rfl, id, carries run, fun _ => Or.inl rfl⟩
      | renewal => exact ⟨onward, fun _ => rfl, rfl, fun _ => carries run⟩
  | birth process fresh apart => exact sound.birth fresh apart
  | death process living => exact sound.death living
  | abort run taking => exact sound.abort taking

end Drifting

/-! ## Any number of runs -/

abbrev Runs (Run Process Value : Type) : Type :=
  Pool (Run × Role) (@Reply Run Value) RunLease TaskEnd (World Run Process Value)

/-- Every run has its two tasks, and none has begun. -/
structure Startup (deployment : Deployment Run Process Value) (first : Runs Run Process Value) : Prop where
  world : Initial deployment first.world
  owner : forall run, exists force polls, first.programs (run, .owner) = leasedRun deployment run force polls
  renewal : forall run, exists rounds, first.programs (run, .renewal) = renewalTask deployment run rounds

variable [DecidableEq Run] [DecidableEq Process] {first pool : Runs Run Process Value}

/-- What the runs come to: each of them runs once. -/
abbrev Comes (deployment : Deployment Run Process Value) (first pool : Runs Run Process Value) : Prop :=
  Pool.Reaches (answers deployment) (fun _ _ => False) (Drifts deployment) first pool

/-- What a task says when it ends. -/
def TaskEnded (deployment : Deployment Run Process Value) : Run × Role -> Except RunLease TaskEnd ->
    World Run Process Value -> Prop
  | (run, .owner), result, world => OwnerEnd deployment run result world
  | (_, .renewal), _, _ => True

theorem Comes.sound (startup : Startup deployment first) (reached : Comes deployment first pool) :
    Sound deployment pool.world ∧ forall task,
      Kept (answers deployment) (Sound deployment) (Relies deployment task) (Guarantees deployment task)
        (TaskEnded deployment task) (pool.programs task) pool.world := by
  refine Pool.Reaches.keepsEnds reached Relies.refl (fun task _ _ _ => Relies.trans task) ?_
    (fun _ other apart _ _ guarantees => guarantees other apart) startup.world.sound ?_
    (fun _ _ impossible => impossible.elim) (fun _ _ moved sound => moved.sound sound)
  · rintro ⟨run, role⟩ result one two moved ends
    cases role with
    | owner => exact OwnerEnd.stable ends moved
    | renewal => trivial
  · rintro ⟨run, role⟩
    cases role with
    | owner =>
        rcases startup.owner run with ⟨force, polls, program⟩
        rw [program]
        exact leasedRun_keeps force polls (startup.world.idle run)
    | renewal =>
        rcases startup.renewal run with ⟨rounds, program⟩
        rw [program]
        exact renewalTask_keeps rounds (startup.world.notReturned run)

/-- While a run holds the row, its own live lease is stored and no other run
holds the row. -/
theorem one_run_holds (startup : Startup deployment first) (reached : Comes deployment first pool)
    (holding : Holding deployment pool.world run) (free : ¬pool.world.overridden run) :
    (exists lease, storedLease deployment pool.world = some lease ∧ lease.runId = deployment.runId run ∧
      pool.world.now < lease.expiresAt) ∧
      forall other, Holding deployment pool.world other -> ¬pool.world.overridden other -> other = run := by
  have sound := (Comes.sound startup reached).1
  rcases holding.stored sound free with ⟨lease, stored, own, live⟩
  refine ⟨⟨lease, stored, own, live⟩, ?_⟩
  intro other also alsoFree
  rcases also.stored sound alsoFree with ⟨found, storedToo, ownToo, _⟩
  rw [stored] at storedToo
  cases storedToo
  exact deployment.distinct (ownToo.symm.trans own)

/-! ### One run that takes and releases the lease -/

def sampleDeployment : Deployment Bool Unit (Option RunLease) where
  runId := fun run => if run then "r1" else "r2"
  distinct := by
    intro one two same
    cases one <;> cases two <;> first | rfl | exact absurd same (by decide)
  processOf := fun _ => ()
  info := fun _ => ⟨some "host", none, 7⟩
  toValue := some
  fromValue := id
  null := none
  fromValue_toValue := fun _ => rfl
  fromValue_null := rfl

def sampleLease : RunLease := .new "r1" ⟨some "host", none, 7⟩ 0

def sampleStart : World Bool Unit (Option RunLease) where
  stored := none
  now := 0
  life := fun _ => .running
  heldHere := fun _ _ => 0
  phase := fun _ => .idle
  spawned := fun _ => none
  returned := fun _ => false
  lost := fun _ => false
  heldUntil := fun _ => 0
  overridden := fun _ => False

def sampleRuns : Runs Bool Unit (Option RunLease) where
  programs := fun task => match task with
    | (run, .owner) => leasedRun sampleDeployment run false 0
    | (run, .renewal) => renewalTask sampleDeployment run 1
  world := sampleStart

theorem sampleRuns_startup : Startup sampleDeployment sampleRuns where
  world :=
    { apart := fun _ _ _ _ _ _ => rfl
      idle := fun _ => rfl
      unspawned := fun _ => rfl
      notReturned := fun _ => rfl
      foreign := fun _ _ stored => by cases stored }
  owner := fun _ => ⟨false, 0, rfl⟩
  renewal := fun _ => ⟨1, rfl⟩

def sampleTaking : World Bool Unit (Option RunLease) :=
  (sampleStart.setHeldHere sampleDeployment true (· + 1)).setPhase true .taking

/-- The world after the take. -/
def sampleHeld : World Bool Unit (Option RunLease) := (sampleTaking.write true (some sampleLease)).hold true sampleLease

/-- The process of the sample runs until its end. -/
theorem sample_acting {phase : Phase} (notAborted : phase ≠ .aborted) : Life.running = .running ∧ phase ≠ .aborted :=
  ⟨rfl, notAborted⟩

/-- The first run takes the lease. -/
theorem takes_lease : Library.Reaches (answers sampleDeployment) (leasedRun sampleDeployment true false 0)
    sampleStart (workLeased sampleDeployment true) sampleHeld := by
  have timed : answers sampleDeployment (.now true) sampleStart (0 : Int) sampleStart :=
    ⟨sample_acting (by decide), rfl, rfl⟩
  have marked : answers sampleDeployment (.mark true) sampleStart () sampleTaking := ⟨sample_acting (by decide), rfl⟩
  have read : answers sampleDeployment (.get true) sampleTaking (.ok none) sampleTaking :=
    ⟨rfl, Or.inl ⟨sample_acting (by decide), rfl⟩⟩
  have written : answers sampleDeployment (.compareAndPut true none (some sampleLease)) sampleTaking (.ok true)
      (sampleTaking.write true (some sampleLease)) := Or.inl ⟨sample_acting (by decide), rfl, rfl, rfl⟩
  have spawned : answers sampleDeployment (.spawn true sampleLease) (sampleTaking.write true (some sampleLease)) ()
      sampleHeld := ⟨sample_acting (by decide), rfl⟩
  exact .step timed (.step marked (.step read (.step written (.step spawned (.here _ _)))))

theorem one_run_holds_sample : exists pool : Runs Bool Unit (Option RunLease),
    Holding sampleDeployment pool.world true ∧
      (exists lease, storedLease sampleDeployment pool.world = some lease ∧ lease.runId = "r1" ∧
        pool.world.now < lease.expiresAt) ∧
      forall other, Holding sampleDeployment pool.world other -> ¬pool.world.overridden other -> other = true := by
  have reached : Comes sampleDeployment sampleRuns _ :=
    (Pool.Reaches.here : Comes sampleDeployment sampleRuns sampleRuns).run (true, .owner) rfl takes_lease
  have holding : Holding sampleDeployment sampleHeld true := ⟨rfl, rfl, by decide⟩
  exact ⟨_, holding, one_run_holds sampleRuns_startup reached holding (fun overridden => overridden.2 rfl)⟩

theorem released_lease_stays_gone (startup : Startup deployment first) (reached : Comes deployment first pool)
    (released : pool.programs (run, .owner) = .done (.ok (.released true))) :
    forall lease, storedLease deployment pool.world = some lease -> lease.runId ≠ deployment.runId run := by
  have ended := (Comes.sound startup reached).2 (run, .owner)
  rw [released] at ended
  exact (ended rfl).2

def sampleReleasing : World Bool Unit (Option RunLease) := sampleHeld.setPhase true .releasing

/-- The world after the renewal task has returned. -/
def sampleReturned : World Bool Unit (Option RunLease) :=
  { sampleReleasing with returned := Function.update sampleReleasing.returned true true }

def sampleOver : World Bool Unit (Option RunLease) :=
  ((sampleReturned.write true none).setHeldHere sampleDeployment true (· - 1)).setPhase true .over

/-- The first run comes to the end of its work. -/
theorem stops_renewal : exists rest, Library.Reaches (answers sampleDeployment) (workLeased sampleDeployment true)
    sampleHeld rest sampleReleasing ∧
      Library.Reaches (answers sampleDeployment) rest sampleReturned (.done (.ok (.released true))) sampleOver := by
  have worked : answers sampleDeployment (.work true) sampleHeld true sampleHeld :=
    ⟨sample_acting (by decide), rfl⟩
  have stopped : answers sampleDeployment (.cancelStop true) sampleHeld () sampleReleasing :=
    ⟨sample_acting (by decide), rfl⟩
  have awaited : answers sampleDeployment (.awaitRenewal true) sampleReturned () sampleReturned :=
    ⟨sample_acting (by decide), rfl, rfl⟩
  have read : answers sampleDeployment (.get true) sampleReturned (.ok (some (some sampleLease))) sampleReturned :=
    ⟨rfl, Or.inl ⟨sample_acting (by decide), rfl⟩⟩
  have removed : answers sampleDeployment (.compareAndPut true (some (some sampleLease)) none) sampleReturned (.ok true)
      (sampleReturned.write true none) := Or.inl ⟨sample_acting (by decide), rfl, rfl, rfl⟩
  have unmarked : answers sampleDeployment (.unmark true) (sampleReturned.write true none) () sampleOver :=
    ⟨sample_acting (by decide), rfl⟩
  exact ⟨_, .step worked (.step stopped (.here _ _)),
    .step awaited (.step read (.step removed (.step unmarked (.here _ _))))⟩

/-- Its renewal task returns. -/
theorem renewal_returns : Library.Reaches (answers sampleDeployment) (renewalTask sampleDeployment true 1)
    sampleReleasing (.done (.ok .renewal)) sampleReturned := by
  have spawned : answers sampleDeployment (.spawned true) sampleReleasing sampleLease sampleReleasing :=
    ⟨sample_acting (by decide), rfl, rfl⟩
  have stopped : answers sampleDeployment (.stopOrElapsed true) sampleReleasing true sampleReleasing :=
    ⟨sample_acting (by decide), ⟨fun _ => Or.inl rfl, fun _ => rfl⟩, rfl⟩
  have returned : answers sampleDeployment (.returned true) sampleReleasing () sampleReturned :=
    ⟨sample_acting (by decide), rfl⟩
  exact .step spawned (.step stopped (.step returned (.here _ _)))

theorem sampleOver_reached : exists programs, Comes sampleDeployment sampleRuns ⟨programs, sampleOver⟩ ∧
    programs (true, .owner) = .done (.ok (.released true)) := by
  rcases stops_renewal with ⟨rest, stops, releases⟩
  have taken : Comes sampleDeployment sampleRuns _ :=
    (Pool.Reaches.here : Comes sampleDeployment sampleRuns sampleRuns).run (true, .owner) rfl takes_lease
  have stopping := taken.run (true, .owner) (Function.update_self _ _ _) stops
  have returned := stopping.run (true, .renewal) rfl renewal_returns
  exact ⟨_, returned.run (true, .owner) rfl releases, Function.update_self _ _ _⟩

theorem released_lease_stays_gone_sample : exists pool : Runs Bool Unit (Option RunLease),
    pool.programs (true, .owner) = .done (.ok (.released true)) ∧
      forall lease, storedLease sampleDeployment pool.world = some lease ->
        lease.runId ≠ sampleDeployment.runId true := by
  rcases sampleOver_reached with ⟨programs, reached, ended⟩
  exact ⟨⟨programs, sampleOver⟩, ended, released_lease_stays_gone sampleRuns_startup reached ended⟩

end Lease
end FaucetStream
