import Mathlib.Algebra.Order.Group.Int
import FaucetStream.Lease.Protocol

namespace FaucetStream
namespace Lease

open Library

/-!
# The surroundings of the runs

One state store, one clock that never goes back, and the processes with the
guards they hold.  A conditional write is atomic.  A call that fails may have
had its effect, also after its run was torn down or its process has died.  A
process that was started runs until it is gone, and no two running processes
of one host share a process id.
-/

inductive Life where
  | unborn
  | running
  | gone
  deriving DecidableEq

/-- How far a run has come with its lease. -/
inductive Phase where
  | idle
  /-- Marked as held, before there is a guard. -/
  | taking
  /-- Torn down while it took the lease. -/
  | aborted
  | holding
  | releasing
  /-- The mark is gone. -/
  | over
  deriving DecidableEq

/-- The shared store and the processes.  A host name and a pid namespace name
one machine, the probe of a pid tells the truth, and a store call that reports
an error has landed, if it lands at all, by then. -/
structure World (Run Process Value : Type) where
  stored : Option Value
  now : Int
  life : Process -> Life
  /-- The guards a process holds, by run id. -/
  heldHere : Process -> String -> Nat
  phase : Run -> Phase
  /-- The lease that the renewal task was spawned with. -/
  spawned : Run -> Option RunLease
  returned : Run -> Bool
  lost : Run -> Bool
  /-- The expiry of the lease the run goes by. -/
  heldUntil : Run -> Int
  /-- Another run has forced a take since the run last wrote its lease. -/
  overridden : Run -> Prop

variable {Run Process Value : Type} (deployment : Deployment Run Process Value)

namespace World

variable [DecidableEq Run] [DecidableEq Process] (world : World Run Process Value) (run : Run)

def setPhase (phase : Phase) : World Run Process Value :=
  { world with phase := Function.update world.phase run phase }

/-- One more or one less guard of the run in its process. -/
def setHeldHere (count : Nat -> Nat) : World Run Process Value :=
  { world with
    heldHere := Function.update world.heldHere (deployment.processOf run)
      (Function.update (world.heldHere (deployment.processOf run)) (deployment.runId run)
        (count (world.heldHere (deployment.processOf run) (deployment.runId run)))) }

/-- The run has a guard for the lease. -/
def hold (lease : RunLease) : World Run Process Value :=
  { world.setPhase run .holding with
    spawned := Function.update world.spawned run (some lease)
    heldUntil := Function.update world.heldUntil run lease.expiresAt }

/-- A write of the run that overrides the runs `hit`. -/
def put (value : Value) (hit : Run -> Prop) : World Run Process Value :=
  { world with stored := some value, overridden := fun other => hit other ∧ other ≠ run }

/-- A write the run made against the stored value. -/
abbrev write (value : Value) : World Run Process Value := world.put run value world.overridden

/-- A write the run made whatever was stored. -/
abbrev overwrite (value : Value) : World Run Process Value := world.put run value (fun _ => True)

end World

variable (world : World Run Process Value)

/-- The stored lease, if the stored value is one. -/
def storedLease : Option RunLease := world.stored.bind deployment.fromValue

theorem storedLease_eq {deployment : Deployment Run Process Value} {world : World Run Process Value} {value : Value}
    (stored : world.stored = some value) : storedLease deployment world = deployment.fromValue value :=
  congrArg (Option.bind · deployment.fromValue) stored

/-- The run's process is there and the run was not torn down in its take. -/
def Acting (run : Run) : Prop :=
  world.life (deployment.processOf run) = .running ∧ world.phase run ≠ .aborted

section Surroundings

variable [DecidableEq Run] [DecidableEq Process]

/-- What a question may meet. -/
def answers : Environment (@Reply Run Value) (World Run Process Value)
  | .now run, world, answer, after => Acting deployment world run ∧ answer = world.now ∧ after = world
  | .mark run, world, _, after =>
      Acting deployment world run ∧ after = (world.setHeldHere deployment run (· + 1)).setPhase run .taking
  | .unmark run, world, _, after =>
      Acting deployment world run ∧ after = (world.setHeldHere deployment run (· - 1)).setPhase run .over
  | .get run, world, answer, after =>
      after = world ∧ ((Acting deployment world run ∧ answer = .ok world.stored) ∨ exists error, answer = .error error)
  | .put run value, world, answer, after =>
      (Acting deployment world run ∧ answer = .ok () ∧ after = world.overwrite run value) ∨
        exists error, answer = .error error ∧ (after = world ∨ after = world.overwrite run value)
  | .compareAndPut run expected value, world, answer, after =>
      (Acting deployment world run ∧ answer = .ok true ∧ world.stored = expected ∧ after = world.write run value) ∨
        (Acting deployment world run ∧ answer = .ok false ∧ world.stored ≠ expected ∧ after = world) ∨
        exists error, answer = .error error ∧
          (after = world ∨ world.stored = expected ∧ after = world.write run value)
  | .heldHere run runId, world, answer, after =>
      Acting deployment world run ∧ answer = decide (0 < world.heldHere (deployment.processOf run) runId) ∧ after =
        world
  | .pidAlive run pid, world, answer, after =>
      Acting deployment world run ∧ after = world ∧ (answer = some false ->
        forall process, world.life process = .running ->
          deployment.info process ≠ ⟨(ownInfo deployment run).host, (ownInfo deployment run).pidNs, pid⟩)
  | .beforeDeadline run, world, _, after => Acting deployment world run ∧ after = world
  | .spawn run lease, world, _, after =>
      Acting deployment world run ∧ after = world.hold run lease
  | .work run, world, _, after => Acting deployment world run ∧ after = world
  | .cancelStop run, world, _, after => Acting deployment world run ∧ after = world.setPhase run .releasing
  | .awaitRenewal run, world, _, after => Acting deployment world run ∧ world.returned run = true ∧ after = world
  | .dropGuard run, world, _, after =>
      Acting deployment world run ∧ after = (world.setHeldHere deployment run (· - 1)).setPhase run .over
  | .spawned run, world, answer, after =>
      Acting deployment world run ∧ world.spawned run = some answer ∧ after = world
  | .stopOrElapsed run, world, answer, after =>
      Acting deployment world run ∧ (answer = true <-> world.phase run = .releasing ∨ world.phase run = .over) ∧
        after = world
  | .renewed run heldUntil, world, _, after =>
      Acting deployment world run ∧ after = { world with heldUntil := Function.update world.heldUntil run heldUntil }
  | .cancelLost run, world, _, after =>
      Acting deployment world run ∧ after = { world with lost := Function.update world.lost run true }
  | .returned run, world, _, after =>
      Acting deployment world run ∧ after = { world with returned := Function.update world.returned run true }

/-- How the world changes by itself. -/
inductive Drifts (world : World Run Process Value) : World Run Process Value -> Prop
  | time (later : Int) (forward : world.now ≤ later) : Drifts world { world with now := later }
  | birth (process : Process) (fresh : world.life process = .unborn)
      (apart : forall other, world.life other = .running -> (deployment.info process).host ≠ none ->
        deployment.info other ≠ deployment.info process) :
      Drifts world { world with life := Function.update world.life process .running }
  | death (process : Process) (living : world.life process = .running) :
      Drifts world { world with life := Function.update world.life process .gone }
  | abort (run : Run) (taking : world.phase run = .taking) :
      Drifts world ((world.setHeldHere deployment run (· - 1)).setPhase run .aborted)

end Surroundings

/-! ## What holds throughout -/

/-- A run that has come to its end, or whose process has. -/
def Ended (run : Run) : Prop :=
  world.phase run = .over ∨ world.phase run = .aborted ∨ world.life (deployment.processOf run) = .gone

/-- A run that takes the lease or holds it. -/
def Live (run : Run) : Prop :=
  (world.phase run = .taking ∨ world.phase run = .holding) ∧ world.life (deployment.processOf run) = .running

/-- A lease as the run writes it. -/
def Own (run : Run) (lease : RunLease) : Prop :=
  lease.runId = deployment.runId run ∧ lease.info = ownInfo deployment run

/-- While the run is live and goes by a lease that is not expired, a lease of
the run is stored that expires no sooner. -/
def Covered (run : Run) (expiresAt : Int) : Prop :=
  Live deployment world run -> world.now < expiresAt -> ¬world.overridden run ->
    exists lease, storedLease deployment world = some lease ∧ lease.runId = deployment.runId run ∧
      expiresAt ≤ lease.expiresAt

/-- The run whose lease is stored is not overridden. -/
def Fresh : Prop :=
  forall run lease, storedLease deployment world = some lease -> lease.runId = deployment.runId run ->
    ¬world.overridden run

structure Sound : Prop where
  fresh : Fresh deployment world
  apart : forall process other, world.life process = .running -> world.life other = .running ->
    (deployment.info process).host ≠ none -> deployment.info process = deployment.info other -> process = other
  born : forall run, world.phase run ≠ .idle -> world.life (deployment.processOf run) ≠ .unborn
  marked : forall run, world.phase run = .taking ∨ world.phase run = .holding ∨ world.phase run = .releasing ->
    0 < world.heldHere (deployment.processOf run) (deployment.runId run)
  storedOwn : forall run lease, storedLease deployment world = some lease -> lease.runId = deployment.runId run ->
    world.phase run ≠ .idle ∧ lease.info = ownInfo deployment run
  unspawned : forall run, world.spawned run ≠ none ->
    world.phase run = .holding ∨ world.phase run = .releasing ∨ world.phase run = .over
  spawnedOwn : forall run lease, world.spawned run = some lease ->
    Own deployment run lease ∧ lease.expiresAt ≤ expiry world.now
  covered : forall run, world.phase run = .holding -> Covered deployment world run (world.heldUntil run)

/-- Nothing has begun, and what is stored is no lease of a run. -/
structure Initial : Prop where
  apart : forall process other, world.life process = .running -> world.life other = .running ->
    (deployment.info process).host ≠ none -> deployment.info process = deployment.info other -> process = other
  idle : forall run, world.phase run = .idle
  unspawned : forall run, world.spawned run = none
  notReturned : forall run, world.returned run = false
  foreign : forall run lease, storedLease deployment world = some lease -> lease.runId ≠ deployment.runId run

variable {deployment}

theorem Initial.sound {world : World Run Process Value} (initial : Initial deployment world) :
    Sound deployment world where
  fresh := fun run lease stored same => absurd same (initial.foreign run lease stored)
  apart := initial.apart
  born := fun run begun => absurd (initial.idle run) begun
  marked := by
    intro run phase
    rw [initial.idle run] at phase
    rcases phase with phase | phase | phase <;> cases phase
  storedOwn := fun run lease stored same => absurd same (initial.foreign run lease stored)
  unspawned := fun run some => absurd (initial.unspawned run) some
  spawnedOwn := by
    intro run lease spawned
    rw [initial.unspawned run] at spawned
    cases spawned
  covered := by
    intro run phase
    rw [initial.idle run] at phase
    cases phase

/-! ## What others do -/

variable (deployment)

/-- What no run and no drift takes back. -/
structure Onward (first second : World Run Process Value) : Prop where
  now : first.now ≤ second.now
  ended : forall run, Ended deployment first run -> Ended deployment second run
  begun : forall run, first.phase run ≠ .idle -> second.phase run ≠ .idle

/-- A covered run stays covered. -/
def Carries (run : Run) (first second : World Run Process Value) : Prop :=
  forall expiresAt, Covered deployment first run expiresAt -> Covered deployment second run expiresAt

/-- The store keeps its value or has no lease of the run. -/
def Clears (run : Run) (first second : World Run Process Value) : Prop :=
  second.stored = first.stored ∨
    forall lease, storedLease deployment second = some lease -> lease.runId ≠ deployment.runId run

inductive Role where
  | owner
  | renewal
  deriving DecidableEq

/-- What the run's own task relies on. -/
structure OwnerSide (run : Run) (first second : World Run Process Value) : Prop where
  phase : second.phase run = first.phase run ∨ (first.phase run = .taking ∧ second.phase run = .aborted)
  spawned : second.spawned run = first.spawned run
  returned : first.returned run = true -> second.returned run = true
  carries : Carries deployment run first second
  clears : first.returned run = true -> Clears deployment run first second

/-- What its renewal task relies on. -/
structure RenewalSide (run : Run) (first second : World Run Process Value) : Prop where
  spawned : first.spawned run ≠ none -> second.spawned run = first.spawned run
  returned : second.returned run = first.returned run
  carries : first.spawned run ≠ none -> Carries deployment run first second

/-- What a task relies on. -/
def Relies : Run × Role -> World Run Process Value -> World Run Process Value -> Prop
  | (run, .owner), first, second => Onward deployment first second ∧ OwnerSide deployment run first second
  | (run, .renewal), first, second => Onward deployment first second ∧ RenewalSide deployment run first second

/-- A task guarantees what the others rely on. -/
def Guarantees (task : Run × Role) (first second : World Run Process Value) : Prop :=
  forall other, other ≠ task -> Relies deployment other first second

/-- A step of a task that keeps the invariant and disturbs no other task. -/
abbrev Moves (task : Run × Role) (first second : World Run Process Value) : Prop :=
  Sound deployment second ∧ Guarantees deployment task first second

/-- A change by itself that keeps the invariant and disturbs no task. -/
abbrev Passes (first second : World Run Process Value) : Prop :=
  Sound deployment second ∧ forall task, Relies deployment task first second

variable {deployment} {first second third : World Run Process Value}

theorem Onward.refl : Onward deployment world world :=
  ⟨le_refl _, fun _ => id, fun _ => id⟩

theorem Onward.trans (one : Onward deployment first second) (two : Onward deployment second third) :
    Onward deployment first third where
  now := le_trans one.now two.now
  ended := fun run => two.ended run ∘ one.ended run
  begun := fun run => two.begun run ∘ one.begun run

theorem Clears.trans {run : Run} (one : Clears deployment run first second) (two : Clears deployment run second third) :
    Clears deployment run first third := by
  rcases two with same | absent
  · rcases one with before | absent
    · exact Or.inl (same.trans before)
    · refine Or.inr (fun lease stored => absent lease ?_)
      unfold storedLease at stored ⊢
      rw [← same]
      exact stored
  · exact Or.inr absent

theorem Relies.refl (task : Run × Role) (world : World Run Process Value) : Relies deployment task world world := by
  rcases task with ⟨run, role⟩
  cases role with
  | owner => exact ⟨Onward.refl world, Or.inl rfl, rfl, id, fun _ => id, fun _ => Or.inl rfl⟩
  | renewal => exact ⟨Onward.refl world, fun _ => rfl, rfl, fun _ _ => id⟩

theorem Relies.trans (task : Run × Role) (one : Relies deployment task first second)
    (two : Relies deployment task second third) : Relies deployment task first third := by
  rcases task with ⟨run, role⟩
  cases role with
  | owner =>
      rcases one with ⟨onward, side⟩
      rcases two with ⟨further, next⟩
      refine ⟨onward.trans further, ?_, next.spawned.trans side.spawned, next.returned ∘ side.returned,
        fun expiresAt => next.carries expiresAt ∘ side.carries expiresAt, ?_⟩
      · rcases next.phase with same | ⟨taking, aborted⟩
        · rw [same]
          exact side.phase
        · rcases side.phase with before | ⟨_, already⟩
          · exact Or.inr ⟨before.symm.trans taking, aborted⟩
          · rw [already] at taking
            cases taking
      · intro returned
        exact (side.clears returned).trans (next.clears (side.returned returned))
  | renewal =>
      rcases one with ⟨onward, side⟩
      rcases two with ⟨further, next⟩
      have still : first.spawned run ≠ none -> second.spawned run ≠ none := by
        intro some
        rw [side.spawned some]
        exact some
      exact ⟨onward.trans further, fun some => (next.spawned (still some)).trans (side.spawned some),
        next.returned.trans side.returned,
        fun some expiresAt => next.carries (still some) expiresAt ∘ side.carries some expiresAt⟩

theorem Guarantees.refl (task : Run × Role) (world : World Run Process Value) :
    Guarantees deployment task world world := fun other _ => Relies.refl other world

end Lease
end FaucetStream
