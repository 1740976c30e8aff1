import FaucetStream.Lease.Tasks

namespace FaucetStream
namespace Lease

open Library

/-!
# The take keeps the lease

Up to its end a take is marked and has no guard.  When it ends with a guard,
the lease it wrote covers the run.
-/

variable {Run Process Value : Type} {deployment : Deployment Run Process Value}
variable {world first second : World Run Process Value} {run : Run} {lease : RunLease}

/-- A run in its take, with the lease it wants to write. -/
structure Taking (deployment : Deployment Run Process Value) (run : Run) (lease : RunLease)
    (world : World Run Process Value) : Prop where
  phase : world.phase run = .taking ∨ world.phase run = .aborted
  own : Own deployment run lease
  expiry : lease.expiresAt ≤ expiry world.now

namespace Taking

theorem stable (taking : Taking deployment run lease first)
    (moved : Relies deployment (run, .owner) first second) : Taking deployment run lease second where
  phase := by
    rcases moved.2.phase with same | ⟨_, aborted⟩
    · rw [same]
      exact taking.phase
    · exact Or.inr aborted
  own := taking.own
  expiry := le_trans taking.expiry (Int.add_le_add_right moved.1.now _)

theorem stays (first second : World Run Process Value) (moved : Relies deployment (run, .owner) first second)
    (taking : Taking deployment run lease first) : Taking deployment run lease second := taking.stable moved

theorem begun (taking : Taking deployment run lease world) : world.phase run ≠ .idle := by
  rcases taking.phase with phase | phase <;> rw [phase] <;> decide

theorem notHolding (taking : Taking deployment run lease world) : world.phase run ≠ .holding := by
  rcases taking.phase with phase | phase <;> rw [phase] <;> decide

theorem unspawned (taking : Taking deployment run lease world) (sound : Sound deployment world) :
    world.spawned run = none := sound.unspawned_before (Or.inr taking.phase)

theorem acting (taking : Taking deployment run lease world) (acts : Acting deployment world run) :
    world.phase run = .taking :=
  taking.phase.resolve_right acts.2

theorem writes (taking : Taking deployment run lease world) : Writes deployment run (deployment.toValue lease) := by
  intro found reads
  rw [deployment.fromValue_toValue] at reads
  cases reads
  exact taking.own

end Taking

/-- After its write a take is covered. -/
theorem covered_of_stored (taking : Taking deployment run lease world)
    (stored : world.stored = some (deployment.toValue lease)) : Covered deployment world run lease.expiresAt := by
  intro _ _ _
  exact ⟨lease, (storedLease_eq stored).trans (deployment.fromValue_toValue lease), taking.own.1, le_refl _⟩

theorem Relies.idle (moved : Relies deployment (run, .owner) first second) (idle : first.phase run = .idle) :
    second.phase run = .idle := by
  rcases moved.2.phase with same | ⟨taking, _⟩
  · exact same.trans idle
  · exact absurd (idle.symm.trans taking) (by decide)

variable [DecidableEq Run] [DecidableEq Process]

/-- A take that succeeds leaves the run holding the lease. -/
def Took (run : Run) (result : Except RunLease Bool) (world : World Run Process Value) : Prop :=
  result = .ok true -> world.phase run = .holding

theorem unmark_keeps (taking : Taking deployment run lease world) {Result : Type} {rest : Leasing Run Value Result}
    {post : Except RunLease Result -> World Run Process Value -> Prop}
    (ends : forall world, OwnerKeeps deployment run post rest world) :
    OwnerKeeps deployment run post (do
      let _ : Unit <- ask (.unmark run)
      rest) world := by
  apply Kept.request
  rintro current moved sound answer after ⟨acting, rfl⟩
  have still := taking.stable moved
  have step := sound.unmark acting.born (Or.inl rfl) (fun some => absurd (still.unspawned sound) some)
  exact ⟨step.1, step.2, ends _⟩

theorem unleased_keeps (taking : Taking deployment run lease world) :
    OwnerKeeps deployment run (Took run) (unleased run) world :=
  unmark_keeps taking nofun

theorem refuse_keeps (taking : Taking deployment run lease world) (held : RunLease) :
    OwnerKeeps deployment run (Took run) (refuse run held) world :=
  unmark_keeps taking nofun

omit [DecidableEq Process] in
theorem Sound.spawn (sound : Sound deployment world) (acting : Acting deployment world run)
    (taking : Taking deployment run lease world) (covered : Covered deployment world run lease.expiresAt) :
    Moves deployment (run, .owner) world (world.hold run lease) := by
  have phase := taking.acting acting
  have changed : Local run world (world.hold run lease) :=
    ⟨rfl, rfl, rfl, rfl, fun _ apart => Function.update_of_ne apart _ _, fun _ apart => Function.update_of_ne apart _ _,
      fun _ _ => rfl⟩
  have holding : (world.hold run lease).phase run = .holding := Function.update_self _ _ _
  have spawned : (world.hold run lease).spawned run = some lease := Function.update_self _ _ _
  have heldUntil : (world.hold run lease).heldUntil run = lease.expiresAt := Function.update_self _ _ _
  have notIdle : (world.hold run lease).phase run ≠ .idle := by
    rw [holding]
    decide
  constructor
  · refine changed.sound sound (fun _ _ => rfl) acting.born (fun _ => sound.marked run (Or.inl phase)) notIdle
      (fun _ => Or.inl holding) ?_ (fun _ apart => Function.update_of_ne apart _ _) ?_
    · intro found same
      rw [spawned] at same
      cases same
      exact ⟨taking.own, taking.expiry⟩
    · intro _
      rw [heldUntil]
      exact changed.covered (fun live => ⟨Or.inl phase, live.2⟩) covered
  · refine Guarantees.owner (changed.onward ?_ (fun _ => notIdle)) changed.aside ⟨?_, rfl, ?_⟩
    · rintro (other | other | gone)
      · exact absurd (phase.symm.trans other) (by decide)
      · exact absurd (phase.symm.trans other) (by decide)
      · exact Or.inr (Or.inr gone)
    · exact fun some => absurd (taking.unspawned sound) some
    · exact fun some => absurd (taking.unspawned sound) some

theorem spawnGuard_keeps (taking : Taking deployment run lease world)
    (covered : Covered deployment world run lease.expiresAt) :
    OwnerKeeps deployment run (Took run) (spawnGuard run lease) world := by
  apply Kept.request
  rintro current moved sound answer after ⟨acting, rfl⟩
  have step := sound.spawn acting (taking.stable moved) (moved.2.carries _ covered)
  exact ⟨step.1, step.2, fun _ => Function.update_self _ _ _⟩

/-- The run's own conditional write outside of its work. -/
theorem owner_compareAndPut {expected : Option Value} {value : Value} {after : World Run Process Value}
    {answer : Reply (.compareAndPut run expected value)} (sound : Sound deployment world)
    (begun : world.phase run ≠ .idle) (notHolding : world.phase run ≠ .holding) (writes : Writes deployment run value)
    (replaceable : Replaceable deployment world run expected)
    (answered : answers deployment (.compareAndPut run expected value) world answer after) :
    Sound deployment after ∧ Guarantees deployment (run, .owner) world after ∧ after.phase = world.phase ∧
      after.now = world.now ∧ (answer = .ok true -> after.stored = some value) := by
  have written : world.stored = expected ->
      Moves deployment (run, .owner) world (world.write run value) := by
    rintro rfl
    exact sound.owner_write begun notHolding writes replaceable
  rcases answered with ⟨_, rfl, matched, rfl⟩ | ⟨_, rfl, _, rfl⟩ | ⟨error, rfl, rfl | ⟨matched, rfl⟩⟩
  · exact ⟨(written matched).1, (written matched).2, rfl, rfl, fun _ => rfl⟩
  · exact ⟨sound, Guarantees.refl _ _, rfl, rfl, nofun⟩
  · exact ⟨sound, Guarantees.refl _ _, rfl, rfl, nofun⟩
  · exact ⟨(written matched).1, (written matched).2, rfl, rfl, nofun⟩

theorem lastRead_keeps (taking : Taking deployment run lease world) :
    OwnerKeeps deployment run (Took run) (lastRead deployment run) world := by
  apply Kept.request
  rintro current moved sound read after ⟨rfl, reads⟩
  refine ⟨sound, Guarantees.refl _ _, ?_⟩
  have still := taking.stable moved
  rcases reads with ⟨_, rfl⟩ | ⟨error, rfl⟩
  · cases reads : after.stored.bind deployment.fromValue with
    | none =>
        dsimp only
        rw [reads]
        exact unleased_keeps still
    | some held =>
        have named := sound.named reads
        dsimp only
        rw [reads]
        dsimp only
        by_cases own : held.runId = deployment.runId run
        · rw [if_pos own]
          exact unleased_keeps still
        · rw [if_neg own]
          apply Kept.request
          rintro later onward soundLater now last ⟨_, rfl, rfl⟩
          refine ⟨soundLater, Guarantees.refl _ _, ?_⟩
          by_cases live : held.isLive last.now = true
          · rw [if_pos live]
            apply Kept.bind
            apply ((classifyHolder_looks (named.onward onward.1)).frame Taking.stays (still.stable onward)).keeps.weaken
            rintro result final ⟨_, taking⟩
            cases result with
            | error held => exact nofun
            | ok holder =>
                dsimp only
                by_cases isGone : holder = .gone
                · rw [if_pos isGone]
                  exact unleased_keeps taking
                · rw [if_neg isGone]
                  exact refuse_keeps taking held
          · rw [if_neg live]
            exact unleased_keeps (still.stable onward)
  · exact unleased_keeps still

theorem takeAttempts_keeps (polls attempts : Nat) (taking : Taking deployment run lease world) :
    OwnerKeeps deployment run (Took run) (takeAttempts deployment run lease polls attempts) world := by
  induction attempts generalizing world with
  | zero => exact lastRead_keeps taking
  | succ attempts ih =>
      apply Kept.request
      rintro current moved sound read after ⟨rfl, reads⟩
      refine ⟨sound, Guarantees.refl _ _, ?_⟩
      have still := taking.stable moved
      rcases reads with ⟨_, rfl⟩ | ⟨error, rfl⟩
      · apply Kept.bind
        apply ((heldBy_looks polls (fun _ found => sound.named found)).frame Taking.stays still).keeps.weaken
        rintro result last ⟨free, taking⟩
        cases result with
        | error held => exact nofun
        | ok blocking =>
            cases blocking with
            | some held => exact refuse_keeps taking held
            | none =>
                apply Kept.request
                intro later onward soundLater written final answered
                have here := taking.stable onward
                rcases owner_compareAndPut soundLater here.begun here.notHolding here.writes
                  ((free rfl).onward onward.1) answered with ⟨kept, guarantees, samePhase, sameNow, stores⟩
                have takes : Taking deployment run lease final :=
                  ⟨by rw [samePhase]; exact here.phase, here.own, by rw [sameNow]; exact here.expiry⟩
                refine ⟨kept, guarantees, ?_⟩
                rcases written with error | (_ | _)
                · exact unleased_keeps takes
                · exact ih takes
                · exact spawnGuard_keeps takes (covered_of_stored takes (stores rfl))
      · exact unleased_keeps still

theorem forcedTake_keeps (taking : Taking deployment run lease world) :
    OwnerKeeps deployment run (Took run) (forcedTake deployment run lease) world := by
  apply Kept.request
  intro current moved sound written after answered
  have still := taking.stable moved
  have step := sound.owner_overwrite still.phase still.writes
  have takes : Taking deployment run lease (current.overwrite run (deployment.toValue lease)) :=
    ⟨still.phase, still.own, still.expiry⟩
  rcases answered with ⟨_, rfl, rfl⟩ | ⟨error, rfl, rfl | rfl⟩
  · exact ⟨step.1, step.2, spawnGuard_keeps takes (covered_of_stored takes rfl)⟩
  · exact ⟨sound, Guarantees.refl _ _, unleased_keeps still⟩
  · exact ⟨step.1, step.2, unleased_keeps takes⟩

theorem tryAcquireEvery_keeps (force : Bool) (polls : Nat) (idle : world.phase run = .idle) :
    OwnerKeeps deployment run (Took run) (tryAcquireEvery deployment run force polls) world := by
  apply Kept.request
  rintro current moved sound now after ⟨_, rfl, rfl⟩
  refine ⟨sound, Guarantees.refl _ _, ?_⟩
  apply Kept.request
  rintro later onward soundLater answer final ⟨acting, rfl⟩
  have step := soundLater.mark acting (Relies.idle onward (Relies.idle moved idle))
  refine ⟨step.1, step.2, ?_⟩
  have taking : Taking deployment run (.new (deployment.runId run) (ownInfo deployment run) after.now)
      ((later.setHeldHere deployment run (· + 1)).setPhase run .taking) :=
    ⟨Or.inl (phase_move _ _), ⟨rfl, rfl⟩, Int.add_le_add_right onward.1.now _⟩
  cases force with
  | true => exact forcedTake_keeps taking
  | false => exact takeAttempts_keeps polls TAKE_ATTEMPTS taking

end Lease
end FaucetStream
