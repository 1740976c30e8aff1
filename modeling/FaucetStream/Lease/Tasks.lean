import FaucetStream.Lease.Holder

namespace FaucetStream
namespace Lease

open Library

/-!
# The tasks keep the lease

The renewal only ever writes over the lease it wrote last, the release over one
of its own run or none, and a take over what it may replace.
-/

variable {Run Process Value : Type} {deployment : Deployment Run Process Value}
variable {world first second : World Run Process Value} {run : Run} {lease : RunLease} {value : Value}

/-! ## The run's own steps -/

/-- A write of the run's own task, which does not write while the run works. -/
theorem Sound.owner_write (sound : Sound deployment world) (begun : world.phase run ≠ .idle)
    (notHolding : world.phase run ≠ .holding) (writes : Writes deployment run value)
    (replaceable : Replaceable deployment world run world.stored) :
    Moves deployment (run, .owner) world (world.write run value) := by
  refine ⟨sound.write begun writes replaceable (fun holding => absurd holding notHolding), ?_⟩
  refine Guarantees.owner Onward.put (Aside.write writes replaceable) ⟨fun _ => rfl, rfl, ?_⟩
  intro some expiresAt _ live
  exfalso
  rcases sound.unspawned run some with holding | releasing | isOver
  · exact notHolding holding
  · exact Live.not_releasing live releasing
  · exact Live.not_over live isOver

theorem Sound.owner_overwrite (sound : Sound deployment world)
    (taking : world.phase run = .taking ∨ world.phase run = .aborted) (writes : Writes deployment run value) :
    Moves deployment (run, .owner) world (world.overwrite run value) := by
  have begun : world.phase run ≠ .idle := by
    rcases taking with phase | phase <;> rw [phase] <;> decide
  have notHolding : world.phase run ≠ .holding := by
    rcases taking with phase | phase <;> rw [phase] <;> decide
  refine ⟨sound.overwrite begun notHolding writes, ?_⟩
  exact Guarantees.owner Onward.put (Aside.overwrite writes)
    ⟨fun _ => rfl, rfl, fun some => absurd (sound.unspawned_before (Or.inr taking)) some⟩

/-- A step that takes the run's own task to another phase. -/
theorem Local.owner (changed : Local run first second) (sound : Sound deployment first)
    (guards : SameGuards deployment run first second)
    (born : first.life (deployment.processOf run) ≠ .unborn)
    (marked : second.phase run = .taking ∨ second.phase run = .releasing ->
      0 < second.heldHere (deployment.processOf run) (deployment.runId run))
    (begun : second.phase run ≠ .idle) (notHolding : second.phase run ≠ .holding)
    (sameSpawned : second.spawned run = first.spawned run) (sameReturned : second.returned run = first.returned run)
    (sameHeld : second.heldUntil = first.heldUntil)
    (unspawned : first.spawned run ≠ none -> second.phase run = .releasing ∨ second.phase run = .over)
    (ended : Ended deployment first run -> Ended deployment second run) :
    Moves deployment (run, .owner) first second := by
  constructor
  · refine changed.sound sound guards born ?_ begun ?_ ?_ (fun other _ => congrFun sameHeld other) ?_
    · rintro (taking | holding | releasing)
      · exact marked (Or.inl taking)
      · exact absurd holding notHolding
      · exact marked (Or.inr releasing)
    · intro some
      rw [sameSpawned] at some
      exact Or.inr (unspawned some)
    · intro lease spawned
      rw [sameSpawned] at spawned
      rw [changed.now]
      exact sound.spawnedOwn run lease spawned
    · exact fun holding => absurd holding notHolding
  · refine Guarantees.owner (changed.onward ended (fun _ => begun)) changed.aside
      ⟨fun _ => sameSpawned, sameReturned, ?_⟩
    intro some expiresAt _ live
    exfalso
    rcases unspawned some with releasing | isOver
    · exact Live.not_releasing live releasing
    · exact Live.not_over live isOver

theorem Acting.born (acting : Acting deployment world run) : world.life (deployment.processOf run) ≠ .unborn := by
  rw [acting.1]
  decide

variable [DecidableEq Run]

theorem Local.setPhase (phase : Phase) : Local run world (world.setPhase run phase) where
  stored := rfl
  now := rfl
  life := rfl
  overridden := rfl
  phase := fun _ apart => Function.update_of_ne apart _ _
  spawned := fun _ _ => rfl
  returned := fun _ _ => rfl

@[simp] theorem phase_setPhase (phase : Phase) : (world.setPhase run phase).phase run = phase :=
  Function.update_self _ _ _

theorem Sound.cancelStop (sound : Sound deployment world) (acting : Acting deployment world run)
    (holding : world.phase run = .holding) :
    Moves deployment (run, .owner) world (world.setPhase run .releasing) := by
  refine (Local.setPhase .releasing).owner sound (fun _ _ => rfl) acting.born ?_ ?_ ?_ rfl rfl rfl ?_ ?_
  · intro _
    exact sound.marked run (Or.inr (Or.inl holding))
  · rw [phase_setPhase]
    decide
  · rw [phase_setPhase]
    decide
  · intro _
    rw [phase_setPhase]
    exact Or.inl rfl
  · rintro (other | other | gone)
    · exact absurd (holding.symm.trans other) (by decide)
    · exact absurd (holding.symm.trans other) (by decide)
    · exact absurd (acting.1.symm.trans gone) (by decide)

variable [DecidableEq Process]

theorem Local.move (count : Nat -> Nat) (phase : Phase) :
    Local run world ((world.setHeldHere deployment run count).setPhase run phase) where
  stored := rfl
  now := rfl
  life := rfl
  overridden := rfl
  phase := fun _ apart => Function.update_of_ne apart _ _
  spawned := fun _ _ => rfl
  returned := fun _ _ => rfl

@[simp] theorem phase_move (count : Nat -> Nat) (phase : Phase) :
    ((world.setHeldHere deployment run count).setPhase run phase).phase run = phase := Function.update_self _ _ _

theorem heldHere_move (count : Nat -> Nat) (phase : Phase) :
    ((world.setHeldHere deployment run count).setPhase run phase).heldHere (deployment.processOf run)
      (deployment.runId run) = count (world.heldHere (deployment.processOf run) (deployment.runId run)) := by
  change Function.update world.heldHere _ _ _ _ = _
  rw [Function.update_self, Function.update_self]

/-- The mark of a run goes: after its take or with its guard. -/
theorem Sound.unmark (sound : Sound deployment world) (born : world.life (deployment.processOf run) ≠ .unborn)
    {phase : Phase} (ends : phase = .over ∨ phase = .aborted) (unspawned : world.spawned run ≠ none -> phase = .over) :
    Moves deployment (run, .owner) world ((world.setHeldHere deployment run (· - 1)).setPhase run phase) := by
  refine (Local.move _ phase).owner sound (sameGuards_setHeldHere _ phase) born ?_ ?_ ?_ rfl rfl rfl ?_ ?_
  · rw [phase_move]
    rcases ends with rfl | rfl <;> (rintro (impossible | impossible) <;> cases impossible)
  · rw [phase_move]
    rcases ends with rfl | rfl <;> decide
  · rw [phase_move]
    rcases ends with rfl | rfl <;> decide
  · intro some
    rw [phase_move]
    exact Or.inr (unspawned some)
  · intro _
    unfold Ended
    rw [phase_move]
    rcases ends with rfl | rfl
    · exact Or.inl rfl
    · exact Or.inr (Or.inl rfl)

theorem Sound.mark (sound : Sound deployment world) (acting : Acting deployment world run)
    (idle : world.phase run = .idle) :
    Moves deployment (run, .owner) world ((world.setHeldHere deployment run (· + 1)).setPhase run .taking) := by
  refine (Local.move _ .taking).owner sound (sameGuards_setHeldHere _ .taking) acting.born ?_ ?_ ?_ rfl rfl rfl ?_ ?_
  · intro _
    rw [heldHere_move]
    exact Nat.succ_pos _
  · rw [phase_move]
    decide
  · rw [phase_move]
    decide
  · exact fun some => absurd (sound.unspawned_before (Or.inl idle)) some
  · rintro (other | other | gone)
    · exact absurd (idle.symm.trans other) (by decide)
    · exact absurd (idle.symm.trans other) (by decide)
    · exact absurd (acting.1.symm.trans gone) (by decide)

end Lease
end FaucetStream
