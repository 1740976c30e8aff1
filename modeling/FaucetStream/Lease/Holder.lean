import FaucetStream.Lease.Steps

namespace FaucetStream
namespace Lease

open Library

/-!
# Who holds a lease

A take learns of a holder from the lease it read and from what its own process
and the operating system say; each of these answers stays true.  So what it
replaces may still be replaced when its write lands, also when the write lands
long after it was sent.
-/

variable {Run Process Value : Type} {deployment : Deployment Run Process Value}
variable {world first second : World Run Process Value} {run : Run} {lease : RunLease}

/-! ## Runs that have ended -/

/-- The runs a lease names have begun and write just this into their leases. -/
def Named (deployment : Deployment Run Process Value) (world : World Run Process Value) (lease : RunLease) : Prop :=
  forall run, deployment.runId run = lease.runId -> world.phase run ≠ .idle ∧ lease.info = ownInfo deployment run

theorem Named.onward (named : Named deployment first lease) (onward : Onward deployment first second) :
    Named deployment second lease :=
  fun run same => ⟨onward.begun run (named run same).1, (named run same).2⟩

theorem Sound.named (sound : Sound deployment world) (stored : storedLease deployment world = some lease) :
    Named deployment world lease :=
  fun run same => sound.storedOwn run lease stored same.symm

/-- A run that has begun has ended when it is not marked in its process. -/
theorem ended_of_unmarked (sound : Sound deployment world) {holder : Run} (begun : world.phase holder ≠ .idle)
    (unmarked : ¬0 < world.heldHere (deployment.processOf holder) (deployment.runId holder)) :
    Ended deployment world holder := by
  have absent := fun phase => unmarked (sound.marked holder phase)
  unfold Ended
  cases known : world.phase holder with
  | idle => exact absurd known begun
  | taking => exact absurd (Or.inl known) absent
  | holding => exact absurd (Or.inr (Or.inl known)) absent
  | releasing => exact absurd (Or.inr (Or.inr known)) absent
  | aborted => exact Or.inr (Or.inl rfl)
  | _ => exact Or.inl rfl

/-- A run that has begun has ended when its process does not run. -/
theorem ended_of_stopped (sound : Sound deployment world) {holder : Run} (begun : world.phase holder ≠ .idle)
    (stopped : world.life (deployment.processOf holder) ≠ .running) : Ended deployment world holder := by
  have born := sound.born holder begun
  cases known : world.life (deployment.processOf holder) with
  | unborn => exact absurd known born
  | running => exact absurd known stopped
  | gone => exact Or.inr (Or.inr known)

theorem sameHost_iff : sameHost deployment run lease = true <->
    lease.host ≠ none ∧ lease.host = (ownInfo deployment run).host ∧ lease.pidNs = (ownInfo deployment run).pidNs := by
  unfold sameHost
  rw [Bool.and_eq_true, Bool.and_eq_true, Option.isSome_iff_ne_none, beq_iff_eq, beq_iff_eq, and_assoc]

/-- A holder of the asking process that holds no guard has ended. -/
theorem holderEnded_of_unheld (sound : Sound deployment world) (acting : Acting deployment world run)
    (named : Named deployment world lease) (sameHost : sameHost deployment run lease = true)
    (samePid : lease.pid = (ownInfo deployment run).pid)
    (unheld : ¬0 < world.heldHere (deployment.processOf run) lease.runId) : HolderEnded deployment world lease := by
  intro holder same
  rcases sameHost_iff.mp sameHost with ⟨known, host, pidNs⟩
  rcases named holder same with ⟨begun, info⟩
  have equal : deployment.info (deployment.processOf run) = deployment.info (deployment.processOf holder) := by
    change ownInfo deployment run = ownInfo deployment holder
    rw [← info]
    unfold RunLease.info
    rw [host, pidNs, samePid]
  by_cases running : world.life (deployment.processOf holder) = .running
  · have hosted : (deployment.info (deployment.processOf run)).host ≠ none := by
      change (ownInfo deployment run).host ≠ none
      rw [← host]
      exact known
    have together := sound.apart _ _ acting.1 running hosted equal
    refine ended_of_unmarked sound begun ?_
    rw [← together, same]
    exact unheld
  · exact ended_of_stopped sound begun running

/-- A holder of another process that does not run has ended. -/
theorem holderEnded_of_dead (sound : Sound deployment world) (named : Named deployment world lease)
    (sameHost : sameHost deployment run lease = true)
    (dead : forall process, world.life process = .running ->
      deployment.info process ≠ ⟨(ownInfo deployment run).host, (ownInfo deployment run).pidNs, lease.pid⟩) :
    HolderEnded deployment world lease := by
  intro holder same
  rcases sameHost_iff.mp sameHost with ⟨_, host, pidNs⟩
  rcases named holder same with ⟨begun, info⟩
  refine ended_of_stopped sound begun ?_
  intro running
  refine dead _ running ?_
  rw [← host, ← pidNs]
  exact info.symm

/-! ## Looking at a holder -/

variable [DecidableEq Run] [DecidableEq Process]

abbrev OwnerKeeps (deployment : Deployment Run Process Value) (run : Run) {Result : Type}
    (post : Except RunLease Result -> World Run Process Value -> Prop) :
    Leasing Run Value Result -> World Run Process Value -> Prop :=
  Kept (answers deployment) (Sound deployment) (Relies deployment (run, .owner))
    (Guarantees deployment (run, .owner)) post

/-- A part of a take that changes nothing. -/
abbrev Looks (deployment : Deployment Run Process Value) (run : Run) {Result : Type}
    (post : Except RunLease Result -> World Run Process Value -> Prop) :
    Leasing Run Value Result -> World Run Process Value -> Prop :=
  Kept (answers deployment) (Sound deployment) (Relies deployment (run, .owner)) (fun first second =>
    second = first) post

theorem classifyHolder_looks (named : Named deployment world lease) :
    Looks deployment run (fun result after => result = .ok .gone -> HolderEnded deployment after lease)
      (classifyHolder deployment run lease) world := by
  unfold classifyHolder classify
  by_cases here : sameHost deployment run lease = true
  · rw [here]
    simp only [Bool.not_true, Bool.false_eq_true, if_false]
    by_cases samePid : (lease.pid == (ownInfo deployment run).pid) = true
    · rw [if_pos samePid]
      apply Kept.request
      rintro current moved sound answer after ⟨acting, rfl, rfl⟩
      refine ⟨sound, rfl, ?_⟩
      intro isGone
      refine holderEnded_of_unheld sound acting (named.onward moved.1) here (beq_iff_eq.mp samePid) ?_
      intro held
      rw [decide_eq_true held, if_pos rfl] at isGone
      cases isGone
    · rw [if_neg samePid]
      apply Kept.request
      rintro current moved sound answer after ⟨acting, rfl, probed⟩
      refine ⟨sound, rfl, ?_⟩
      intro isGone
      refine holderEnded_of_dead sound (named.onward moved.1) here (probed ?_)
      rcases answer with _ | (_ | _)
      · cases isGone
      · rfl
      · cases isGone
  · rw [Bool.eq_false_of_not_eq_true here]
    intro isGone
    cases isGone

theorem Looks.frame {Result : Type} {post : Except RunLease Result -> World Run Process Value -> Prop}
    {program : Leasing Run Value Result} (looks : Looks deployment run post program world)
    {still : World Run Process Value -> Prop}
    (stable : forall first second, Relies deployment (run, .owner) first second -> still first -> still second)
    (start : still world) :
    Looks deployment run (fun result after => post result after ∧ still after) program world :=
  Kept.frame looks stable (fun _ _ same holds => same ▸ holds) start

theorem Looks.keeps {Result : Type} {post : Except RunLease Result -> World Run Process Value -> Prop}
    {program : Leasing Run Value Result} (looks : Looks deployment run post program world) :
    OwnerKeeps deployment run post program world :=
  Kept.loosen looks (fun _ _ _ same => same ▸ Guarantees.refl _ _)

theorem holderGone_looks (polls : Nat) (named : Named deployment world lease) :
    Looks deployment run (fun result after => result = .ok true -> HolderEnded deployment after lease)
      (holderGone deployment run lease polls) world := by
  induction polls generalizing world with
  | zero =>
      intro isGone
      cases isGone
  | succ polls ih =>
      have stable : forall first second, Relies deployment (run, .owner) first second ->
          Named deployment first lease -> Named deployment second lease :=
        fun _ _ moved known => known.onward moved.1
      apply Kept.bind
      apply (Looks.frame (classifyHolder_looks named) stable named).weaken
      rintro result after ⟨ended, known⟩
      cases result with
      | error held =>
          intro isGone
          cases isGone
      | ok holder =>
          cases holder with
          | gone => exact fun _ => ended rfl
          | alive =>
              intro isGone
              cases isGone
          | remote =>
              intro isGone
              cases isGone
          | thisProcess =>
              apply Kept.request
              rintro current moved sound early after ⟨_, rfl⟩
              refine ⟨sound, rfl, ?_⟩
              cases early with
              | true => exact ih (known.onward moved.1)
              | false =>
                  intro isGone
                  cases isGone

/-- A take goes on to write only over what it may replace. -/
theorem heldBy_looks (polls : Nat) {stored : Option Value}
    (named : forall lease, stored.bind deployment.fromValue = some lease -> Named deployment world lease) :
    Looks deployment run (fun result after => result = .ok none -> Replaceable deployment after run stored)
      (heldBy deployment run polls stored) world := by
  unfold heldBy
  cases read : stored.bind deployment.fromValue with
  | none =>
      intro _ lease found
      rw [read] at found
      cases found
  | some held =>
      dsimp only
      by_cases own : held.runId = deployment.runId run
      · rw [if_pos own]
        intro _ lease found
        rw [read] at found
        cases found
        exact Or.inl own
      · rw [if_neg own]
        apply Kept.request
        rintro current moved sound now after ⟨_, rfl, rfl⟩
        refine ⟨sound, rfl, ?_⟩
        by_cases live : held.isLive after.now = true
        · rw [if_pos live]
          apply Kept.bind
          apply (holderGone_looks polls ((named held read).onward moved.1)).weaken
          intro result last ended
          cases result with
          | error held =>
              intro isFree
              cases isFree
          | ok gone =>
              cases gone with
              | true =>
                  intro _ lease found
                  rw [read] at found
                  cases found
                  exact Or.inr (Or.inr (ended rfl))
              | false =>
                  intro isFree
                  cases isFree
        · rw [if_neg live]
          intro _ lease found
          rw [read] at found
          cases found
          exact Or.inr (Or.inl (Int.not_lt.mp (fun later => live (decide_eq_true later))))

end Lease
end FaucetStream
