import FaucetStream.Error
import FaucetStream.Library.Concurrent

namespace FaucetStream
namespace Lease

open Library

/-!
# Taking, renewing and releasing a row

A run of a row takes the row's lease by a compare-and-put against what it read,
after it has made sure that no other run holds the row.  A task of its own
renews the lease while the run works; when the run ends, it stops that task and
removes the lease, or lets it expire when the run was torn down.  Every
question says which run asks it.
-/

/-- The stored lease. -/
structure RunLease where
  runId : String
  pid : Nat
  host : Option String
  pidNs : Option String
  acquiredAt : Int
  expiresAt : Int
  deriving DecidableEq

/-- What a process writes into its leases. -/
structure ProcessInfo where
  host : Option String
  pidNs : Option String
  pid : Nat
  deriving DecidableEq

/-- Nanoseconds, as the timestamps are. -/
def LEASE_TTL : Int := 60000000000

def SECOND : Int := 1000000000

/-- Attempts at the conditional write before giving up on a contended lease. -/
def TAKE_ATTEMPTS : Nat := 3

def expiry (now : Int) : Int := now + LEASE_TTL

namespace RunLease

def new (runId : String) (info : ProcessInfo) (now : Int) : RunLease where
  runId := runId
  pid := info.pid
  host := info.host
  pidNs := info.pidNs
  acquiredAt := now
  expiresAt := expiry now

def isLive (lease : RunLease) (now : Int) : Bool := decide (now < lease.expiresAt)

def info (lease : RunLease) : ProcessInfo := ⟨lease.host, lease.pidNs, lease.pid⟩

end RunLease

/-- The runs of a row and the processes they run in, with the stored form of a
lease. -/
structure Deployment (Run Process Value : Type) where
  runId : Run -> String
  distinct : Function.Injective runId
  processOf : Run -> Process
  info : Process -> ProcessInfo
  toValue : RunLease -> Value
  fromValue : Value -> Option RunLease
  null : Value
  fromValue_toValue : forall lease, fromValue (toValue lease) = some lease
  fromValue_null : fromValue null = none

/-- Who holds a live lease, as far as a process can tell. -/
inductive Holder where
  | thisProcess
  | alive
  | gone
  | remote
  deriving DecidableEq

/-- What the tasks of a run ask. -/
inductive Question (Run Value : Type) where
  | now (run : Run)
  | mark (run : Run)
  | unmark (run : Run)
  | get (run : Run)
  | put (run : Run) (value : Value)
  | compareAndPut (run : Run) (expected : Option Value) (value : Value)
  | heldHere (run : Run) (runId : String)
  | pidAlive (run : Run) (pid : Nat)
  /-- Whether the wait for a run of this process may go on. -/
  | beforeDeadline (run : Run)
  | spawn (run : Run) (lease : RunLease)
  /-- The run's own work: whether it came to its end or was torn down. -/
  | work (run : Run)
  | cancelStop (run : Run)
  | awaitRenewal (run : Run)
  | dropGuard (run : Run)
  /-- The first question of the renewal task: the lease it was spawned with. -/
  | spawned (run : Run)
  /-- Whether the renewal task was stopped while it slept. -/
  | stopOrElapsed (run : Run)
  /-- The renewal task goes on with a later expiry. -/
  | renewed (run : Run) (heldUntil : Int)
  | cancelLost (run : Run)
  | returned (run : Run)

variable {Run Process Value : Type}

def Reply : Question Run Value -> Type
  | .now _ => Int
  | .mark _ => Unit
  | .unmark _ => Unit
  | .get _ => Except FaucetError (Option Value)
  | .put _ _ => Except FaucetError Unit
  | .compareAndPut _ _ _ => Except FaucetError Bool
  | .heldHere _ _ => Bool
  | .pidAlive _ _ => Option Bool
  | .beforeDeadline _ => Bool
  | .spawn _ _ => Unit
  | .work _ => Bool
  | .cancelStop _ => Unit
  | .awaitRenewal _ => Unit
  | .dropGuard _ => Unit
  | .spawned _ => RunLease
  | .stopOrElapsed _ => Bool
  | .renewed _ _ => Unit
  | .cancelLost _ => Unit
  | .returned _ => Unit

/-- A take is refused with the lease of another run. -/
abbrev Leasing (Run Value Result : Type) : Type := Program (@Reply Run Value) RunLease Result

abbrev ask (question : Question Run Value) : Leasing Run Value (Reply question) := Program.request question

/-! ## Taking -/

/-- `heldHere` and `alive` are asked only where the answer decides. -/
def classify (sameHost samePid : Bool) (heldHere : Leasing Run Value Bool) (alive : Leasing Run Value (Option Bool)) :
    Leasing Run Value Holder :=
  if !sameHost then pure .remote
  else if samePid then do
    let held <- heldHere
    pure (if held then .thisProcess else .gone)
  else do
    let living <- alive
    pure (match living with
      | some false => .gone
      | some true => .alive
      | none => .remote)

section Take

variable (deployment : Deployment Run Process Value) (run : Run)

/-- What the run's process writes into its leases. -/
def ownInfo : ProcessInfo := deployment.info (deployment.processOf run)

def sameHost (lease : RunLease) : Bool :=
  lease.host.isSome && lease.host == (ownInfo deployment run).host && lease.pidNs == (ownInfo deployment run).pidNs

def classifyHolder (lease : RunLease) : Leasing Run Value Holder :=
  classify (sameHost deployment run lease) (lease.pid == (ownInfo deployment run).pid)
    (ask (.heldHere run lease.runId)) (ask (.pidAlive run lease.pid))

/-- At most `polls` looks at a holder in this process before the deadline. -/
def holderGone (held : RunLease) : Nat -> Leasing Run Value Bool
  | 0 => pure false
  | polls + 1 => do
      let holder <- classifyHolder deployment run held
      match holder with
      | .gone => pure true
      | .thisProcess => do
          let early : Bool <- ask (.beforeDeadline run)
          if early then holderGone held polls else pure false
      | .alive => pure false
      | .remote => pure false

/-- The lease of another run that a take must not replace. -/
def heldBy (polls : Nat) (stored : Option Value) : Leasing Run Value (Option RunLease) :=
  match stored.bind deployment.fromValue with
  | none => pure none
  | some held =>
      if held.runId = deployment.runId run then pure none
      else do
        let now : Int <- ask (.now run)
        if held.isLive now then do
          let gone <- holderGone deployment run held polls
          pure (if gone then none else some held)
        else pure none

/-- The mark is dropped, and the run goes on without a lease. -/
def unleased : Leasing Run Value Bool := do
  let _ : Unit <- ask (.unmark run)
  pure false

def refuse (held : RunLease) : Leasing Run Value Bool := do
  let _ : Unit <- ask (.unmark run)
  Program.raise held

def spawnGuard (lease : RunLease) : Leasing Run Value Bool := do
  let _ : Unit <- ask (.spawn run lease)
  pure true

/-- After the last attempt the lease is read once more, for the refusal. -/
def lastRead : Leasing Run Value Bool := do
  let read : Except FaucetError (Option Value) <- ask (.get run)
  match read with
  | .error _ => unleased run
  | .ok stored =>
      match stored.bind deployment.fromValue with
      | none => unleased run
      | some held =>
          if held.runId = deployment.runId run then unleased run
          else do
            let now : Int <- ask (.now run)
            if held.isLive now then do
              let holder <- classifyHolder deployment run held
              if holder = .gone then unleased run else refuse run held
            else unleased run

def takeAttempts (lease : RunLease) (polls : Nat) : Nat -> Leasing Run Value Bool
  | 0 => lastRead deployment run
  | attempts + 1 => do
      let read : Except FaucetError (Option Value) <- ask (.get run)
      match read with
      | .error _ => unleased run
      | .ok stored => do
          let blocking <- heldBy deployment run polls stored
          match blocking with
          | some held => refuse run held
          | none => do
              let written : Except FaucetError Bool <- ask (.compareAndPut run stored (deployment.toValue lease))
              match written with
              | .error _ => unleased run
              | .ok true => spawnGuard run lease
              | .ok false => takeAttempts lease polls attempts

def forcedTake (lease : RunLease) : Leasing Run Value Bool := do
  let written : Except FaucetError Unit <- ask (.put run (deployment.toValue lease))
  match written with
  | .error _ => unleased run
  | .ok _ => spawnGuard run lease

/-- Whether the run holds the lease afterwards. -/
def tryAcquireEvery (force : Bool) (polls : Nat) : Leasing Run Value Bool := do
  let now : Int <- ask (.now run)
  let _ : Unit <- ask (.mark run)
  if force then forcedTake deployment run (.new (deployment.runId run) (ownInfo deployment run) now)
  else takeAttempts deployment run (.new (deployment.runId run) (ownInfo deployment run) now) polls TAKE_ATTEMPTS

/-! ## Renewing -/

/-- The renewal task says that the lease is lost, and ends. -/
def loseLease : Leasing Run Value Unit := do
  let _ : Unit <- ask (.cancelLost run)
  ask (.returned run)

/-- At most `rounds` renewals, each against the value written last. -/
def renewals : Nat -> RunLease -> Value -> Int -> Leasing Run Value Unit
  | 0, _, _, _ => pure ()
  | rounds + 1, lease, last, heldUntil => do
      let stopped : Bool <- ask (.stopOrElapsed run)
      if stopped then ask (.returned run)
      else do
        let now : Int <- ask (.now run)
        let written : Except FaucetError Bool <-
          ask (.compareAndPut run (some last) (deployment.toValue { lease with expiresAt := expiry now }))
        match written with
        | .ok true => do
            let _ : Unit <- ask (.renewed run (expiry now))
            renewals rounds { lease with expiresAt := expiry now }
              (deployment.toValue { lease with expiresAt := expiry now }) (expiry now)
        | .ok false => loseLease run
        | .error _ => do
            let later : Int <- ask (.now run)
            if heldUntil ≤ later then loseLease run
            else renewals rounds { lease with expiresAt := expiry now } last heldUntil

/-! ## Releasing -/

/-- Whether the removal went through without a warning. -/
def releaseLease : Leasing Run Value Bool := do
  let read : Except FaucetError (Option Value) <- ask (.get run)
  match read with
  | .error _ => pure false
  | .ok none => pure true
  | .ok (some current) =>
      if (deployment.fromValue current).any (fun lease => lease.runId != deployment.runId run) then pure true
      else do
        let written : Except FaucetError Bool <- ask (.compareAndPut run (some current) deployment.null)
        pure written.isOk

/-- The background part of a dropped guard. -/
def expireLease : Leasing Run Value Unit := do
  let read : Except FaucetError (Option Value) <- ask (.get run)
  match read with
  | .error _ => pure ()
  | .ok none => pure ()
  | .ok (some current) =>
      match deployment.fromValue current with
      | none => pure ()
      | some lease =>
          if lease.runId = deployment.runId run then do
            let now : Int <- ask (.now run)
            let _ : Except FaucetError Bool <-
              ask (.compareAndPut run (some current) (deployment.toValue { lease with expiresAt := now - SECOND }))
            pure ()
          else pure ()

/-! ## Tasks -/

/-- How a task of a run ends. -/
inductive TaskEnd where
  | unleased
  | released (quietly : Bool)
  | dropped
  | renewal
  deriving DecidableEq

def release : Leasing Run Value TaskEnd := do
  let _ : Unit <- ask (.cancelStop run)
  let _ : Unit <- ask (.awaitRenewal run)
  let quietly <- releaseLease deployment run
  let _ : Unit <- ask (.unmark run)
  pure (.released quietly)

def dropLease : Leasing Run Value TaskEnd := do
  let _ : Unit <- ask (.dropGuard run)
  let _ : Unit <- ask (.awaitRenewal run)
  let _ <- expireLease deployment run
  pure .dropped

/-- The work, and the end of the guard. -/
def workLeased : Leasing Run Value TaskEnd := do
  let finished : Bool <- ask (.work run)
  if finished then release deployment run else dropLease deployment run

/-- A run of the row, with the lease around its work. -/
def leasedRun (force : Bool) (polls : Nat) : Leasing Run Value TaskEnd := do
  let held <- tryAcquireEvery deployment run force polls
  if held then workLeased deployment run else pure .unleased

def renewalTask (rounds : Nat) : Leasing Run Value TaskEnd := do
  let lease : RunLease <- ask (.spawned run)
  let _ <- renewals deployment run rounds lease (deployment.toValue lease) lease.expiresAt
  pure .renewal

end Take

end Lease
end FaucetStream
