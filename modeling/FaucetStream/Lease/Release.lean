import FaucetStream.Lease.Take

namespace FaucetStream
namespace Lease

open Library

/-!
# The renewal and the release keep the lease

A renewal prolongs the lease that is stored, or does not write.  The renewal
has returned before the release reads the store, so from there on nobody writes
a lease of the run.
-/

variable {Run Process Value : Type} {deployment : Deployment Run Process Value}
variable {world first second : World Run Process Value} {run : Run} {lease : RunLease}

/-- No lease of the run is stored. -/
def Cleared (deployment : Deployment Run Process Value) (run : Run) (world : World Run Process Value) : Prop :=
  forall lease, storedLease deployment world = some lease -> lease.runId ≠ deployment.runId run

theorem Cleared.stable (cleared : Cleared deployment run first) (clears : Clears deployment run first second) :
    Cleared deployment run second := by
  rcases clears with same | absent
  · intro lease stored
    unfold storedLease at stored
    rw [same] at stored
    exact cleared lease stored
  · exact absent

/-- The run's own task has passed its work, and no renewal is left. -/
structure Leaving (run : Run) (phase : Phase) (world : World Run Process Value) : Prop where
  phase : world.phase run = phase
  returned : world.returned run = true

theorem Relies.phase {phase : Phase} (moved : Relies deployment (run, .owner) first second)
    (here : first.phase run = phase) (settled : phase ≠ .taking) : second.phase run = phase := by
  rcases moved.2.phase with same | ⟨taking, _⟩
  · exact same.trans here
  · exact absurd (here.symm.trans taking) settled

theorem Leaving.stable {phase : Phase} (leaving : Leaving run phase first) (settled : phase ≠ .taking)
    (moved : Relies deployment (run, .owner) first second) : Leaving run phase second :=
  ⟨moved.phase leaving.phase settled, moved.2.returned leaving.returned⟩

theorem Writes.null : Writes deployment run deployment.null := by
  intro lease reads
  rw [deployment.fromValue_null] at reads
  cases reads

theorem Writes.own (own : Own deployment run lease) : Writes deployment run (deployment.toValue lease) := by
  intro found reads
  rw [deployment.fromValue_toValue] at reads
  cases reads
  exact own

theorem Own.prolonged (own : Own deployment run lease) (expiresAt : Int) :
    Own deployment run { lease with expiresAt := expiresAt } := own

/-- What a run's own task says when it ends. -/
def OwnerEnd (deployment : Deployment Run Process Value) (run : Run) (result : Except RunLease TaskEnd)
    (world : World Run Process Value) : Prop :=
  result = .ok (.released true) -> world.returned run = true ∧ Cleared deployment run world

theorem OwnerEnd.stable {result : Except RunLease TaskEnd} (ends : OwnerEnd deployment run result first)
    (moved : Relies deployment (run, .owner) first second) : OwnerEnd deployment run result second := by
  intro same
  rcases ends same with ⟨returned, cleared⟩
  exact ⟨moved.2.returned returned, cleared.stable (moved.2.clears returned)⟩

/-! ## Renewing -/

/-- The renewal task goes by the lease it wrote last. -/
structure Renewing (deployment : Deployment Run Process Value) (run : Run) (written lease : RunLease)
    (world : World Run Process Value) : Prop where
  spawned : world.spawned run ≠ none
  running : world.returned run = false
  writtenOwn : written.runId = deployment.runId run
  own : Own deployment run lease
  bound : written.expiresAt ≤ expiry world.now

theorem Renewing.stable {written : RunLease} (renewing : Renewing deployment run written lease first)
    (moved : Relies deployment (run, .renewal) first second) : Renewing deployment run written lease second where
  spawned := by
    rw [moved.2.spawned renewing.spawned]
    exact renewing.spawned
  running := moved.2.returned.trans renewing.running
  writtenOwn := renewing.writtenOwn
  own := renewing.own
  bound := le_trans renewing.bound (Int.add_le_add_right moved.1.now _)

/-- What the renewal changes without a write. -/
theorem Local.renewal (changed : Local run first second) (sound : Sound deployment first)
    (guards : SameGuards deployment run first second)
    (samePhase : second.phase run = first.phase run) (sameHere : second.heldHere = first.heldHere)
    (sameSpawned : second.spawned run = first.spawned run) (spawned : first.spawned run ≠ none)
    (returned : first.returned run = true -> second.returned run = true)
    (heldUntil : forall other, other ≠ run -> second.heldUntil other = first.heldUntil other)
    (covered : first.phase run = .holding -> Covered deployment first run (second.heldUntil run)) :
    Moves deployment (run, .renewal) first second := by
  have phases := sound.unspawned run spawned
  have notIdle := sound.begun_of_spawned spawned
  have live : Live deployment second run -> Live deployment first run := by
    intro lives
    unfold Live at lives ⊢
    rw [← samePhase, ← changed.life]
    exact lives
  constructor
  · refine changed.sound sound guards (sound.born run notIdle) ?_ ?_ ?_ ?_ heldUntil ?_
    · intro phase
      rw [samePhase] at phase
      rw [sameHere]
      exact sound.marked run phase
    · rw [samePhase]
      exact notIdle
    · intro _
      rw [samePhase]
      exact phases
    · intro lease some
      rw [sameSpawned] at some
      rw [changed.now]
      exact sound.spawnedOwn run lease some
    · intro holding
      rw [samePhase] at holding
      exact changed.covered live (covered holding)
  · refine Guarantees.renewal (changed.onward ?_ ?_) changed.aside
      ⟨Or.inl samePhase, sameSpawned, returned, fun _ held => changed.covered live held,
        fun _ => Or.inl changed.stored⟩
    · intro ended
      unfold Ended at ended ⊢
      rw [samePhase, changed.life]
      exact ended
    · rw [samePhase]
      exact id

variable [DecidableEq Run] [DecidableEq Process]

abbrev RenewalKeeps (deployment : Deployment Run Process Value) (run : Run) {Result : Type}
    (post : Except RunLease Result -> World Run Process Value -> Prop) :
    Leasing Run Value Result -> World Run Process Value -> Prop :=
  Kept (answers deployment) (Sound deployment) (Relies deployment (run, .renewal))
    (Guarantees deployment (run, .renewal))
    post

/-- The renewal's conditional write, against the lease it wrote last. -/
theorem renewal_compareAndPut {written next : RunLease} {after : World Run Process Value}
    {answer : Reply (.compareAndPut run (some (deployment.toValue written)) (deployment.toValue next))}
    (sound : Sound deployment world) (renewing : Renewing deployment run written lease world)
    (own : Own deployment run next) (later : written.expiresAt ≤ next.expiresAt)
    (bound : next.expiresAt ≤ expiry world.now)
    (answered : answers deployment (.compareAndPut run (some (deployment.toValue written)) (deployment.toValue next))
      world answer after) :
    Sound deployment after ∧ Guarantees deployment (run, .renewal) world after ∧
      Renewing deployment run written next after ∧ (answer = .ok true -> Renewing deployment run next next after ∧
        Covered deployment after run next.expiresAt) := by
  have same : Renewing deployment run written next world :=
    ⟨renewing.spawned, renewing.running, renewing.writtenOwn, own, renewing.bound⟩
  have puts : world.stored = some (deployment.toValue written) ->
      Moves deployment (run, .renewal) world (world.write run (deployment.toValue next)) := by
    intro matched
    have stored : storedLease deployment world = some written :=
      (storedLease_eq matched).trans (deployment.fromValue_toValue written)
    have replaceable : Replaceable deployment world run world.stored := by
      intro found reads
      have equal : some written = some found := stored.symm.trans reads
      cases equal
      exact Or.inl renewing.writtenOwn
    have prolongs : Prolongs deployment world run (deployment.toValue next) :=
      ⟨written, next, stored, renewing.writtenOwn, deployment.fromValue_toValue next, later⟩
    refine ⟨sound.write (sound.begun_of_spawned renewing.spawned) (Writes.own own) replaceable
      (fun _ => prolongs), ?_⟩
    refine Guarantees.renewal Onward.put (Aside.write (Writes.own own) replaceable) ⟨Or.inl rfl, rfl, id, ?_, ?_⟩
    · exact fun _ covered => covered.write_own sound.fresh (Writes.own own) prolongs
    · intro returned
      rw [renewing.running] at returned
      cases returned
  rcases answered with ⟨_, rfl, matched, rfl⟩ | ⟨_, rfl, _, rfl⟩ | ⟨error, rfl, rfl | ⟨matched, rfl⟩⟩
  · refine ⟨(puts matched).1, (puts matched).2,
      ⟨same.spawned, same.running, same.writtenOwn, own, same.bound⟩, ?_⟩
    intro _
    refine ⟨⟨same.spawned, same.running, own.1, own, bound⟩, ?_⟩
    intro _ _ _
    exact ⟨next, deployment.fromValue_toValue next, own.1, le_refl _⟩
  · exact ⟨sound, Guarantees.refl _ _, same, nofun⟩
  · exact ⟨sound, Guarantees.refl _ _, same, nofun⟩
  · exact ⟨(puts matched).1, (puts matched).2, ⟨same.spawned, same.running, same.writtenOwn, own, same.bound⟩,
      nofun⟩

theorem returned_keeps {written : RunLease} (renewing : Renewing deployment run written lease world) :
    RenewalKeeps deployment run (fun _ _ => True) (ask (.returned run) : Leasing Run Value Unit) world := by
  rintro current moved sound answer after ⟨_, rfl⟩
  have still := renewing.stable moved
  have changed : Local run current { current with returned := Function.update current.returned run true } :=
    ⟨rfl, rfl, rfl, rfl, fun _ _ => rfl, fun _ _ => rfl, fun _ apart => Function.update_of_ne apart _ _⟩
  have step := changed.renewal sound (fun _ _ => rfl) rfl rfl rfl still.spawned (fun _ => Function.update_self _ _ _)
    (fun _ _ => rfl) (sound.covered run)
  exact ⟨step.1, step.2, trivial⟩

theorem loseLease_keeps {written : RunLease} (renewing : Renewing deployment run written lease world) :
    RenewalKeeps deployment run (fun _ _ => True) (loseLease run) world := by
  apply Kept.request
  rintro current moved sound answer after ⟨_, rfl⟩
  have still := renewing.stable moved
  have changed : Local run current { current with lost := Function.update current.lost run true } :=
    ⟨rfl, rfl, rfl, rfl, fun _ _ => rfl, fun _ _ => rfl, fun _ _ => rfl⟩
  have step := changed.renewal sound (fun _ _ => rfl) rfl rfl rfl still.spawned id (fun _ _ => rfl) (sound.covered run)
  have here : Renewing deployment run written lease { current with lost := Function.update current.lost run true } :=
    ⟨still.spawned, still.running, still.writtenOwn, still.own, still.bound⟩
  exact ⟨step.1, step.2, returned_keeps here⟩

theorem renewals_keeps (rounds : Nat) {written : RunLease} (heldUntil : Int)
    (renewing : Renewing deployment run written lease world) :
    RenewalKeeps deployment run (fun _ _ => True)
      (renewals deployment run rounds lease (deployment.toValue written) heldUntil) world := by
  induction rounds generalizing world written lease heldUntil with
  | zero => trivial
  | succ rounds ih =>
      apply Kept.request
      rintro current moved sound stopped after ⟨_, _, rfl⟩
      refine ⟨sound, Guarantees.refl _ _, ?_⟩
      have still := renewing.stable moved
      cases stopped with
      | true => exact returned_keeps still
      | false =>
          apply Kept.request
          rintro later onward soundLater now timed ⟨_, rfl, rfl⟩
          refine ⟨soundLater, Guarantees.refl _ _, ?_⟩
          have here := still.stable onward
          apply Kept.request
          intro before forward soundBefore answer put answered
          have ready := here.stable forward
          have bound : expiry timed.now ≤ expiry before.now := Int.add_le_add_right forward.1.now _
          rcases renewal_compareAndPut soundBefore ready (ready.own.prolonged (expiry timed.now)) here.bound bound
            answered with ⟨kept, guarantees, unwritten, wrote⟩
          refine ⟨kept, guarantees, ?_⟩
          rcases answer with error | (_ | _)
          · apply Kept.request
            rintro last ends soundLast found final ⟨_, rfl, rfl⟩
            refine ⟨soundLast, Guarantees.refl _ _, ?_⟩
            by_cases expired : heldUntil ≤ final.now
            · rw [if_pos expired]
              exact loseLease_keeps (unwritten.stable ends)
            · rw [if_neg expired]
              exact ih heldUntil (unwritten.stable ends)
          · exact loseLease_keeps unwritten
          · rcases wrote rfl with ⟨renewed, covered⟩
            apply Kept.request
            rintro last ends soundLast found final ⟨_, rfl⟩
            have good := renewed.stable ends
            have changed : Local run last
                { last with heldUntil := Function.update last.heldUntil run (expiry timed.now) } :=
              ⟨rfl, rfl, rfl, rfl, fun _ _ => rfl, fun _ _ => rfl, fun _ _ => rfl⟩
            have step := changed.renewal soundLast (fun _ _ => rfl) rfl rfl rfl good.spawned id
              (fun _ apart => Function.update_of_ne apart _ _) (fun _ => by
                change Covered deployment last run (Function.update last.heldUntil run (expiry timed.now) run)
                rw [Function.update_self]
                exact ends.2.carries renewed.spawned _ covered)
            exact ⟨step.1, step.2, ih _
              ⟨good.spawned, good.running, good.writtenOwn, good.own, good.bound⟩⟩

theorem renewalTask_keeps (rounds : Nat) (running : world.returned run = false) :
    RenewalKeeps deployment run (fun _ _ => True) (renewalTask deployment run rounds) world := by
  apply Kept.request
  rintro current moved sound answer after ⟨_, spawned, rfl⟩
  refine ⟨sound, Guarantees.refl _ _, ?_⟩
  rcases sound.spawnedOwn run answer spawned with ⟨own, bound⟩
  have renewing : Renewing deployment run answer answer after :=
    ⟨by rw [spawned]; exact Option.some_ne_none answer, moved.2.returned.trans running, own.1, own, bound⟩
  apply Kept.bind
  apply (renewals_keeps rounds answer.expiresAt renewing).weaken
  intro result last _
  cases result with
  | error held => trivial
  | ok value => trivial

/-! ## Releasing -/

theorem releaseLease_keeps (leaving : Leaving run .releasing world) :
    OwnerKeeps deployment run
      (fun result after => Leaving run .releasing after ∧ (result = .ok true -> Cleared deployment run after))
      (releaseLease deployment run) world := by
  have settled : Phase.releasing ≠ .taking := by decide
  apply Kept.request
  rintro current moved sound read after ⟨rfl, reads⟩
  refine ⟨sound, Guarantees.refl _ _, ?_⟩
  have still := leaving.stable settled moved
  rcases reads with ⟨_, rfl⟩ | ⟨error, rfl⟩
  · cases stored : after.stored with
    | none =>
        refine ⟨still, fun _ lease found => ?_⟩
        unfold storedLease at found
        rw [stored] at found
        cases found
    | some value =>
        dsimp only
        by_cases foreign : (deployment.fromValue value).any (fun lease => lease.runId != deployment.runId run) = true
        · rw [if_pos foreign]
          refine ⟨still, fun _ lease found => ?_⟩
          rw [storedLease_eq stored] at found
          rw [found] at foreign
          exact bne_iff_ne.mp foreign
        · rw [if_neg foreign]
          have replaceable : Replaceable deployment after run (some value) := by
            intro lease found
            change deployment.fromValue value = some lease at found
            rw [found] at foreign
            exact Or.inl (of_not_not (fun different => foreign (bne_iff_ne.mpr different)))
          apply Kept.request
          intro later onward soundLater written final answered
          have here := still.stable settled onward
          have begun : later.phase run ≠ .idle := by
            rw [here.phase]
            decide
          have notHolding : later.phase run ≠ .holding := by
            rw [here.phase]
            decide
          rcases owner_compareAndPut soundLater begun notHolding Writes.null (replaceable.onward onward.1) answered
            with ⟨kept, guarantees, samePhase, _, stores⟩
          refine ⟨kept, guarantees, ⟨?_, ?_⟩, ?_⟩
          · rw [samePhase]
            exact here.phase
          · rcases answered with ⟨_, _, _, rfl⟩ | ⟨_, _, _, rfl⟩ | ⟨_, _, rfl | ⟨_, rfl⟩⟩ <;> exact here.returned
          · intro quietly lease found
            rcases written with error | (_ | _)
            · cases quietly
            · rcases answered with ⟨_, impossible, _⟩ | ⟨_, _, changed, rfl⟩ | ⟨_, impossible, _⟩
              · cases impossible
              · rcases onward.2.clears still.returned with same | absent
                · exact absurd (same.trans stored) changed
                · exact absent lease found
              · cases impossible
            · rw [storedLease_eq (stores rfl), deployment.fromValue_null] at found
              cases found
  · exact ⟨still, nofun⟩

theorem release_keeps (holding : world.phase run = .holding) :
    OwnerKeeps deployment run (OwnerEnd deployment run) (release deployment run) world := by
  apply Kept.request
  rintro current moved sound answer after ⟨acting, rfl⟩
  have stopped := sound.cancelStop acting (moved.phase holding (by decide))
  refine ⟨stopped.1, stopped.2, ?_⟩
  apply Kept.request
  rintro later onward soundLater awaited final ⟨_, returned, rfl⟩
  refine ⟨soundLater, Guarantees.refl _ _, ?_⟩
  have leaving : Leaving run .releasing final := ⟨onward.phase (phase_setPhase _) (by decide), returned⟩
  apply Kept.bind
  apply (releaseLease_keeps leaving).weaken
  rintro result last ⟨left, cleared⟩
  cases result with
  | error held => exact nofun
  | ok quietly =>
      apply Kept.request
      rintro before forward soundBefore unmarked ended ⟨acts, rfl⟩
      have step := soundBefore.unmark acts.born (Or.inl rfl) (fun _ => rfl)
      refine ⟨step.1, step.2, ?_⟩
      rintro ⟨⟩
      exact ⟨forward.2.returned left.returned, (cleared rfl).stable (forward.2.clears left.returned)⟩

theorem expireLease_keeps (isOver : world.phase run = .over) :
    OwnerKeeps deployment run (fun _ _ => True) (expireLease deployment run) world := by
  apply Kept.request
  rintro current moved sound read after ⟨rfl, reads⟩
  refine ⟨sound, Guarantees.refl _ _, ?_⟩
  have still := moved.phase isOver (by decide)
  rcases reads with ⟨_, rfl⟩ | ⟨error, rfl⟩
  · cases stored : after.stored with
    | none => trivial
    | some value =>
        dsimp only
        cases reads : deployment.fromValue value with
        | none => trivial
        | some lease =>
            dsimp only
            by_cases own : lease.runId = deployment.runId run
            · rw [if_pos own]
              have held : storedLease deployment after = some lease := (storedLease_eq stored).trans reads
              have owns : Own deployment run lease := ⟨own, (sound.storedOwn run lease held own).2⟩
              apply Kept.request
              rintro later onward soundLater now timed ⟨_, rfl, rfl⟩
              refine ⟨soundLater, Guarantees.refl _ _, ?_⟩
              apply Kept.request
              intro before forward soundBefore written final answered
              have here := forward.phase (onward.phase still (by decide)) (by decide)
              have replaceable : Replaceable deployment before run (some value) := by
                intro found same
                change deployment.fromValue value = some found at same
                rw [reads] at same
                cases same
                exact Or.inl own
              rcases owner_compareAndPut soundBefore (by rw [here]; decide) (by rw [here]; decide)
                (Writes.own (owns.prolonged _)) replaceable answered with ⟨kept, guarantees, _⟩
              exact ⟨kept, guarantees, trivial⟩
            · rw [if_neg own]
              trivial
  · trivial

theorem dropLease_keeps :
    OwnerKeeps deployment run (OwnerEnd deployment run) (dropLease deployment run) world := by
  apply Kept.request
  rintro current moved sound answer after ⟨acting, rfl⟩
  have dropped := sound.unmark acting.born (Or.inl rfl) (fun _ => rfl)
  refine ⟨dropped.1, dropped.2, ?_⟩
  apply Kept.request
  rintro later onward soundLater awaited final ⟨_, _, rfl⟩
  refine ⟨soundLater, Guarantees.refl _ _, ?_⟩
  apply Kept.bind
  apply (expireLease_keeps (onward.phase (phase_move _ _) (by decide))).weaken
  intro result last _
  cases result with
  | error held => exact nofun
  | ok value => exact nofun

theorem workLeased_keeps (holding : world.phase run = .holding) :
    OwnerKeeps deployment run (OwnerEnd deployment run) (workLeased deployment run) world := by
  apply Kept.request
  rintro current moved sound finished after ⟨_, rfl⟩
  refine ⟨sound, Guarantees.refl _ _, ?_⟩
  cases finished with
  | true => exact release_keeps (moved.phase holding (by decide))
  | false => exact dropLease_keeps

theorem leasedRun_keeps (force : Bool) (polls : Nat) (idle : world.phase run = .idle) :
    OwnerKeeps deployment run (OwnerEnd deployment run) (leasedRun deployment run force polls) world := by
  apply Kept.bind
  apply (tryAcquireEvery_keeps force polls idle).weaken
  intro result after took
  cases result with
  | error held => exact nofun
  | ok held =>
      cases held with
      | false => exact nofun
      | true => exact workLeased_keeps (took rfl)

end Lease
end FaucetStream
