import FaucetStream.Lease.World

namespace FaucetStream
namespace Lease

open Library

/-!
# What one question changes

A write against the stored value keeps every live run covered when the lease it
replaces is the run's own, expired, or of a run that has ended.  The other
questions change only what belongs to the run that asks.
-/

variable {Run Process Value : Type} {deployment : Deployment Run Process Value}
variable {world first second : World Run Process Value} {run other : Run} {value : Value}

section Writes

variable (deployment)

/-- The holder of a lease has ended. -/
def HolderEnded (world : World Run Process Value) (lease : RunLease) : Prop :=
  forall run, deployment.runId run = lease.runId -> Ended deployment world run

/-- A run may write over the stored value. -/
def Replaceable (world : World Run Process Value) (run : Run) (stored : Option Value) : Prop :=
  forall lease, stored.bind deployment.fromValue = some lease ->
    lease.runId = deployment.runId run ∨ lease.expiresAt ≤ world.now ∨ HolderEnded deployment world lease

/-- The stored lease is the run's own, and the value is a lease that expires no
sooner. -/
def Prolongs (world : World Run Process Value) (run : Run) (value : Value) : Prop :=
  exists lease next, storedLease deployment world = some lease ∧ lease.runId = deployment.runId run ∧
    deployment.fromValue value = some next ∧ lease.expiresAt ≤ next.expiresAt

/-- What the value says is the run's own. -/
def Writes (run : Run) (value : Value) : Prop :=
  forall lease, deployment.fromValue value = some lease -> Own deployment run lease

variable {deployment}

theorem Replaceable.onward {stored : Option Value} (replaceable : Replaceable deployment first run stored)
    (onward : Onward deployment first second) : Replaceable deployment second run stored := by
  intro lease found
  rcases replaceable lease found with own | expired | ended
  · exact Or.inl own
  · exact Or.inr (Or.inl (le_trans expired onward.now))
  · exact Or.inr (Or.inr (fun other same => onward.ended other (ended other same)))

theorem Live.not_ended (live : Live deployment world run) : ¬Ended deployment world run := by
  rintro (isOver | isAborted | gone)
  · rcases live.1 with phase | phase <;> exact absurd (isOver.symm.trans phase) (by decide)
  · rcases live.1 with phase | phase <;> exact absurd (isAborted.symm.trans phase) (by decide)
  · exact absurd (gone.symm.trans live.2) (by decide)

theorem Live.not_releasing (live : Live deployment world run) : world.phase run ≠ .releasing := by
  rcases live.1 with phase | phase <;> rw [phase] <;> decide

theorem Live.not_over (live : Live deployment world run) : world.phase run ≠ .over := by
  rcases live.1 with phase | phase <;> rw [phase] <;> decide

/-- Before its guard a run has no renewal. -/
theorem Sound.unspawned_before (sound : Sound deployment world)
    (before : world.phase run = .idle ∨ world.phase run = .taking ∨ world.phase run = .aborted) :
    world.spawned run = none := by
  by_contra some
  rcases before with phase | phase | phase <;> rcases sound.unspawned run some with other | other | other <;>
    exact absurd (phase.symm.trans other) (by decide)

theorem Sound.begun_of_spawned (sound : Sound deployment world) (spawned : world.spawned run ≠ none) :
    world.phase run ≠ .idle := by
  rcases sound.unspawned run spawned with phase | phase | phase <;> rw [phase] <;> decide

/-- A run that is covered when another one writes stays covered. -/
theorem Covered.write_other {expiresAt : Int} (covered : Covered deployment world other expiresAt) (apart : other ≠ run)
    (replaceable : Replaceable deployment world run world.stored) :
    Covered deployment (world.write run value) other expiresAt := by
  intro live unexpired free
  have untouched : ¬world.overridden other := fun overridden => free ⟨overridden, apart⟩
  rcases covered live unexpired untouched with ⟨lease, stored, same, later⟩
  exfalso
  rcases replaceable lease stored with own | expired | ended
  · exact apart (deployment.distinct (same.symm.trans own))
  · exact absurd (lt_of_lt_of_le unexpired (le_trans later expired)) (lt_irrefl _)
  · exact Live.not_ended live (ended other same.symm)

theorem Covered.write_own {expiresAt : Int} (fresh : Fresh deployment world) (writes : Writes deployment run value)
    (covered : Covered deployment world run expiresAt) (prolongs : Prolongs deployment world run value) :
    Covered deployment (world.write run value) run expiresAt := by
  intro live unexpired _
  rcases prolongs with ⟨lease, next, stored, own, reads, later⟩
  rcases covered live unexpired (fresh run lease stored own) with ⟨held, found, _, bound⟩
  rw [stored] at found
  cases found
  exact ⟨next, reads, (writes next reads).1, le_trans bound later⟩

variable {hit : Run -> Prop}

theorem Clears.put (writes : Writes deployment run value) (apart : other ≠ run) :
    Clears deployment other world (world.put run value hit) := by
  refine Or.inr (fun lease stored same => apart ?_)
  exact deployment.distinct (same.symm.trans (writes lease stored).1)

theorem Onward.put : Onward deployment world (world.put run value hit) := ⟨le_refl _, fun _ => id, fun _ => id⟩

/-- What a write keeps, given the runs it leaves covered. -/
theorem Sound.put (sound : Sound deployment world) (begun : world.phase run ≠ .idle)
    (writes : Writes deployment run value) (covered : forall other, world.phase other = .holding ->
      Covered deployment (world.put run value hit) other (world.heldUntil other)) :
    Sound deployment (world.put run value hit) where
  fresh := fun _ lease stored same overridden =>
    overridden.2 (deployment.distinct (same.symm.trans (writes lease stored).1))
  apart := sound.apart
  born := sound.born
  marked := sound.marked
  storedOwn := by
    intro other lease stored same
    have own := writes lease stored
    cases deployment.distinct (same.symm.trans own.1)
    exact ⟨begun, own.2⟩
  unspawned := sound.unspawned
  spawnedOwn := sound.spawnedOwn
  covered := covered

theorem Sound.write (sound : Sound deployment world)
    (begun : world.phase run ≠ .idle) (writes : Writes deployment run value)
    (replaceable : Replaceable deployment world run world.stored)
    (prolongs : world.phase run = .holding -> Prolongs deployment world run value) :
    Sound deployment (world.write run value) := by
  refine sound.put begun writes (fun other holding => ?_)
  by_cases same : other = run
  · cases same
    exact (sound.covered run holding).write_own sound.fresh writes (prolongs holding)
  · exact (sound.covered other holding).write_other same replaceable

theorem Sound.overwrite (sound : Sound deployment world) (begun : world.phase run ≠ .idle)
    (notHolding : world.phase run ≠ .holding) (writes : Writes deployment run value) :
    Sound deployment (world.overwrite run value) :=
  sound.put begun writes (fun _ holding _ _ free =>
    absurd ⟨trivial, fun same => notHolding (same ▸ holding)⟩ free)

end Writes

/-! ## Guarantees -/

/-- What a step of a run does to the others. -/
structure Aside (deployment : Deployment Run Process Value) (run : Run) (first second : World Run Process Value) :
    Prop where
  phase : forall other, other ≠ run -> second.phase other = first.phase other
  spawned : forall other, other ≠ run -> second.spawned other = first.spawned other
  returned : forall other, other ≠ run -> second.returned other = first.returned other
  carries : forall other, other ≠ run -> Carries deployment other first second
  clears : forall other, other ≠ run -> Clears deployment other first second

theorem Aside.relies (onward : Onward deployment first second) (aside : Aside deployment run first second) {role : Role}
    (apart : other ≠ run) : Relies deployment (other, role) first second := by
  cases role with
  | owner =>
      refine ⟨onward, Or.inl (aside.phase other apart), aside.spawned other apart, ?_, aside.carries other apart,
        fun _ => aside.clears other apart⟩
      intro returned
      rw [aside.returned other apart]
      exact returned
  | renewal =>
      exact ⟨onward, fun _ => aside.spawned other apart, aside.returned other apart,
        fun _ => aside.carries other apart⟩

theorem Guarantees.owner (onward : Onward deployment first second) (aside : Aside deployment run first second)
    (side : RenewalSide deployment run first second) : Guarantees deployment (run, .owner) first second := by
  rintro ⟨other, role⟩ different
  by_cases same : other = run
  · cases same
    cases role with
    | owner => exact absurd rfl different
    | renewal => exact ⟨onward, side⟩
  · exact aside.relies onward same

theorem Guarantees.renewal (onward : Onward deployment first second) (aside : Aside deployment run first second)
    (side : OwnerSide deployment run first second) : Guarantees deployment (run, .renewal) first second := by
  rintro ⟨other, role⟩ different
  by_cases same : other = run
  · cases same
    cases role with
    | owner => exact ⟨onward, side⟩
    | renewal => exact absurd rfl different
  · exact aside.relies onward same

theorem Aside.put {hit : Run -> Prop} (writes : Writes deployment run value)
    (carries : forall other, other ≠ run -> Carries deployment other world (world.put run value hit)) :
    Aside deployment run world (world.put run value hit) where
  phase := fun _ _ => rfl
  spawned := fun _ _ => rfl
  returned := fun _ _ => rfl
  carries := carries
  clears := fun _ apart => Clears.put writes apart

theorem Aside.write (writes : Writes deployment run value)
    (replaceable : Replaceable deployment world run world.stored) :
    Aside deployment run world (world.write run value) :=
  .put writes (fun _ apart _ covered => covered.write_other apart replaceable)

theorem Aside.overwrite (writes : Writes deployment run value) :
    Aside deployment run world (world.overwrite run value) :=
  .put writes (fun _ apart _ _ _ _ free => absurd ⟨trivial, apart⟩ free)

/-! ## Changes of the run's own -/

/-- The store and the clock are as before, and of the runs only this one may
have changed. -/
structure Local (run : Run) (first second : World Run Process Value) : Prop where
  stored : second.stored = first.stored
  now : second.now = first.now
  life : second.life = first.life
  overridden : second.overridden = first.overridden
  phase : forall other, other ≠ run -> second.phase other = first.phase other
  spawned : forall other, other ≠ run -> second.spawned other = first.spawned other
  returned : forall other, other ≠ run -> second.returned other = first.returned other

theorem Local.storedLease (changed : Local run first second) :
    storedLease deployment second = storedLease deployment first := by
  unfold Lease.storedLease
  rw [changed.stored]

theorem Local.covered (changed : Local run first second) {expiresAt : Int}
    (live : Live deployment second other -> Live deployment first other)
    (covered : Covered deployment first other expiresAt) : Covered deployment second other expiresAt := by
  intro lives unexpired free
  rw [changed.now] at unexpired
  rw [changed.overridden] at free
  rw [changed.storedLease]
  exact covered (live lives) unexpired free

theorem Local.carries_other (changed : Local run first second) (apart : other ≠ run) :
    Carries deployment other first second := by
  intro expiresAt covered
  refine changed.covered ?_ covered
  intro live
  unfold Live at live ⊢
  rw [← changed.phase other apart, ← changed.life]
  exact live

theorem Local.aside (changed : Local run first second) : Aside deployment run first second where
  phase := changed.phase
  spawned := changed.spawned
  returned := changed.returned
  carries := fun _ apart => changed.carries_other apart
  clears := fun _ _ => Or.inl changed.stored

theorem Local.onward (changed : Local run first second)
    (ended : Ended deployment first run -> Ended deployment second run)
    (begun : first.phase run ≠ .idle -> second.phase run ≠ .idle) : Onward deployment first second where
  now := le_of_eq changed.now.symm
  ended := by
    intro other before
    by_cases same : other = run
    · cases same
      exact ended before
    · unfold Ended at before ⊢
      rw [changed.phase other same, changed.life]
      exact before
  begun := by
    intro other before
    by_cases same : other = run
    · cases same
      exact begun before
    · rw [changed.phase other same]
      exact before

theorem Local.fresh (changed : Local run first second) (fresh : Fresh deployment first) : Fresh deployment second := by
  intro other lease stored same
  rw [changed.storedLease] at stored
  rw [changed.overridden]
  exact fresh other lease stored same

/-- The guards that other runs hold are as before. -/
def SameGuards (deployment : Deployment Run Process Value) (run : Run) (first second : World Run Process Value) :
    Prop :=
  forall other, other ≠ run -> second.heldHere (deployment.processOf other) (deployment.runId other) =
    first.heldHere (deployment.processOf other) (deployment.runId other)

theorem sameGuards_setHeldHere [DecidableEq Run] [DecidableEq Process] (count : Nat -> Nat) (phase : Phase) :
    SameGuards deployment run world ((world.setHeldHere deployment run count).setPhase run phase) := by
  intro other apart
  have different : deployment.runId other ≠ deployment.runId run := fun same => apart (deployment.distinct same)
  change Function.update world.heldHere (deployment.processOf run) _ _ _ = _
  by_cases same : deployment.processOf other = deployment.processOf run
  · rw [same, Function.update_self, Function.update_of_ne different]
  · rw [Function.update_of_ne same]

/-- Soundness after a change of the run's own, from what it says of the run. -/
theorem Local.sound (changed : Local run first second) (sound : Sound deployment first)
    (guards : SameGuards deployment run first second)
    (born : first.life (deployment.processOf run) ≠ .unborn)
    (marked : second.phase run = .taking ∨ second.phase run = .holding ∨ second.phase run = .releasing ->
      0 < second.heldHere (deployment.processOf run) (deployment.runId run))
    (begun : second.phase run ≠ .idle)
    (unspawned : second.spawned run ≠ none ->
      second.phase run = .holding ∨ second.phase run = .releasing ∨ second.phase run = .over)
    (spawnedOwn : forall lease, second.spawned run = some lease ->
      Own deployment run lease ∧ lease.expiresAt ≤ expiry second.now)
    (heldUntil : forall other, other ≠ run -> second.heldUntil other = first.heldUntil other)
    (covered : second.phase run = .holding -> Covered deployment second run (second.heldUntil run)) :
    Sound deployment second where
  fresh := changed.fresh sound.fresh
  apart := by
    rw [changed.life]
    exact sound.apart
  born := by
    intro other started
    rw [changed.life]
    by_cases same : other = run
    · cases same
      exact born
    · rw [changed.phase other same] at started
      exact sound.born other started
  marked := by
    intro other phase
    by_cases same : other = run
    · cases same
      exact marked phase
    · rw [changed.phase other same] at phase
      rw [guards other same]
      exact sound.marked other phase
  storedOwn := by
    intro other lease stored same
    rw [changed.storedLease] at stored
    have before := sound.storedOwn other lease stored same
    refine ⟨?_, before.2⟩
    by_cases mine : other = run
    · cases mine
      exact begun
    · rw [changed.phase other mine]
      exact before.1
  unspawned := by
    intro other some
    by_cases same : other = run
    · cases same
      exact unspawned some
    · rw [changed.spawned other same] at some
      rw [changed.phase other same]
      exact sound.unspawned other some
  spawnedOwn := by
    intro other lease spawned
    by_cases same : other = run
    · cases same
      exact spawnedOwn lease spawned
    · rw [changed.spawned other same] at spawned
      rw [changed.now]
      exact sound.spawnedOwn other lease spawned
  covered := by
    intro other holding
    by_cases same : other = run
    · cases same
      exact covered holding
    · rw [heldUntil other same]
      rw [changed.phase other same] at holding
      exact changed.carries_other same _ (sound.covered other holding)

end Lease
end FaucetStream
