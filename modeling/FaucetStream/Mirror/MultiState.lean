import Mathlib.Tactic.Common
import FaucetStream.Library.Slots

namespace FaucetStream
namespace Mirror

open Library

/-!
# The marker of a multi-table mirror

The marker holds a state for each table the mirror knows.  Discovery adds
tables and drops those that are gone; a snapshot brings a table into the
stream; failures are counted and pause the table.  The tables are kept as the
list of their entries, whose order plays no role.  Times are seconds.
-/

inductive TablePhase where
  | pending
  | snapshotting
  | active
  | paused
  | dropped
  | refused
  deriving DecidableEq

structure SnapshotProgress where
  startedAt : Option Nat := none
  finishedAt : Option Nat := none
  rows : Nat := 0
  shardsTotal : Nat := 0
  shardsDone : Nat := 0
  attempts : Nat := 0
  deriving DecidableEq

/-- What the mirror was told to do with a table. -/
structure TablePlan where
  id : String
  key : List String
  writeMode : String
  estimatedRows : Option Nat
  deriving DecidableEq

inductive Resolution where
  | mirror (plan : TablePlan)
  | refused (reason : String)
  deriving DecidableEq

structure TableState (Position : Type) where
  phase : TablePhase
  since : Nat
  position : Option Position := none
  snapshot : SnapshotProgress := {}
  changes : Nat := 0
  lastAppliedAt : Option Nat := none
  consecutiveFailures : Nat := 0
  lastError : Option String := none
  key : List String := []
  writeMode : String := ""
  id : String := ""
  estimatedRows : Option Nat := none
  deriving DecidableEq

variable {Position : Type}

namespace TableState

def new (phase : TablePhase) (now : Nat) : TableState Position := { phase := phase, since := now }

def setPhase (table : TableState Position) (phase : TablePhase) (now : Nat) : TableState Position :=
  if table.phase = phase then table else { table with phase := phase, since := now }

def applyPlan (table : TableState Position) (plan : TablePlan) : TableState Position :=
  { table with
    key := plan.key
    writeMode := plan.writeMode
    id := plan.id
    estimatedRows := plan.estimatedRows }

@[simp] theorem setPhase_phase (table : TableState Position) (phase : TablePhase) (now : Nat) :
    (table.setPhase phase now).phase = phase := by
  unfold setPhase
  split
  · assumption
  · rfl

@[simp] theorem setPhase_consecutiveFailures (table : TableState Position) (phase : TablePhase) (now : Nat) :
    (table.setPhase phase now).consecutiveFailures = table.consecutiveFailures := by
  unfold setPhase
  split <;> rfl

end TableState

structure MirrorState (Position : Type) where
  tables : List (String × TableState Position)
  discoveredAt : Option Nat
  updatedAt : Nat
  deriving DecidableEq

variable (state : MirrorState Position)

namespace MirrorState

def new (now : Nat) : MirrorState Position := ⟨[], none, now⟩

def table (name : String) : Option (TableState Position) := state.tables.lookup name

/-- Change the state of a table, when there is one. -/
def update (name : String) (change : TableState Position -> TableState Position) :
    MirrorState Position :=
  { state with
    tables := state.tables.map (fun entry => (entry.1, (if entry.1 = name then change else id) entry.2)) }

def insert (name : String) (table : TableState Position) : MirrorState Position :=
  { state with tables := state.tables ++ [(name, table)] }

/-- Note the time of a change that met a table. -/
def touch (name : String) (now : Nat) : MirrorState Position :=
  if (state.table name).isSome then { state with updatedAt := now } else state

def inPhase (phase : TablePhase) : List String :=
  (state.tables.filter (fun entry => entry.2.phase = phase)).map Prod.fst

theorem table_update_self (name : String) (change : TableState Position -> TableState Position) :
    (state.update name change).table name = (state.table name).map change := by
  refine (lookup_map_entries state.tables (fun key => if key = name then change else id) name).trans ?_
  rw [if_pos rfl]
  rfl

theorem table_update_of_ne {name other : String} (different : other ≠ name)
    (change : TableState Position -> TableState Position) :
    (state.update name change).table other = state.table other := by
  refine (lookup_map_entries state.tables (fun key => if key = name then change else id) other).trans ?_
  rw [if_neg different]
  exact Option.map_id_apply

theorem table_insert {state : MirrorState Position} {name : String} {table : TableState Position}
    (known : state.table name = some table) (added : String) (fresh : TableState Position) :
    (state.insert added fresh).table name = some table := by
  unfold insert MirrorState.table at *
  rw [List.lookup_append, known, Option.some_or]

theorem table_touch (name other : String) (now : Nat) :
    (state.touch name now).table other = state.table other := by
  unfold touch
  split <;> rfl

end MirrorState

/-! ## Discovery -/

structure DiscoveryDiff where
  added : List String := []
  dropped : List String := []
  refused : List String := []
  deriving DecidableEq

/-- What a discovery found out about one table. -/
def resolveTable (first follow : Bool) (now : Nat) (found : MirrorState Position × DiscoveryDiff)
    (resolved : String × Resolution) : MirrorState Position × DiscoveryDiff :=
  let (state, diff) := found
  let (name, resolution) := resolved
  match state.table name, resolution with
  | none, resolution =>
      if !first && !follow then (state, diff)
      else
        match resolution with
        | .mirror plan =>
            (state.insert name ((TableState.new .pending now).applyPlan plan),
              { diff with added := diff.added ++ [name] })
        | .refused reason =>
            (state.insert name { TableState.new .refused now with lastError := some reason },
              { diff with refused := diff.refused ++ [name] })
  | some table, .mirror plan =>
      if table.phase = .dropped ∨ table.phase = .refused then
        if follow then
          (state.update name (fun table => { table.setPhase .pending now with lastError := none }.applyPlan plan),
            { diff with added := diff.added ++ [name] })
        else (state, diff)
      else (state.update name (fun table => table.applyPlan plan), diff)
  | some table, .refused reason =>
      if table.phase = .pending ∨ (table.phase = .refused ∧ table.lastError ≠ some reason) then
        (state.update name (fun table => { table.setPhase .refused now with lastError := some reason }),
          { diff with refused := diff.refused ++ [name] })
      else (state, diff)

/-- A table that the discovery did not find again is dropped. -/
def dropMissing (resolved : List (String × Resolution)) (now : Nat) (found : MirrorState Position × DiscoveryDiff)
    (name : String) : MirrorState Position × DiscoveryDiff :=
  let (state, diff) := found
  match state.table name with
  | some table =>
      if (resolved.lookup name).isNone && decide (table.phase ≠ .dropped) then
        (state.update name (fun table => { table.setPhase .dropped now with lastError := none }),
          { diff with dropped := diff.dropped ++ [name] })
      else (state, diff)
  | none => (state, diff)

def reconcileDiscovery (resolved : List (String × Resolution)) (follow : Bool)
    (now : Nat) : MirrorState Position × DiscoveryDiff :=
  let found := resolved.foldl (resolveTable state.discoveredAt.isNone follow now) (state, {})
  let (state, diff) := (found.1.tables.map Prod.fst).foldl (dropMissing resolved now) found
  ({ state with discoveredAt := some now, updatedAt := now }, diff)

/-! ## Snapshots and failures -/

def resumeTable (now : Nat) (table : TableState Position) : TableState Position :=
  if table.phase = .paused then { table.setPhase .pending now with consecutiveFailures := 0 } else table

/-- The paused tables go back to the start with a fresh count. -/
def resumePaused (now : Nat) : MirrorState Position × List String :=
  let resumed := state.inPhase .paused
  let tables := state.tables.map (fun entry => (entry.1, resumeTable now entry.2))
  ({ state with tables := tables, updatedAt := if resumed.isEmpty then state.updatedAt else now }, resumed)

def isDue (retryPausedSecs now : Nat) (table : TableState Position) : Bool :=
  match table.phase with
  | .pending | .snapshotting => true
  | .paused => decide (0 < retryPausedSecs) && decide (retryPausedSecs ≤ now - table.since)
  | _ => false

def dueForSnapshot (retryPausedSecs now : Nat) : List String :=
  (state.tables.filter (fun entry => isDue retryPausedSecs now entry.2)).map Prod.fst

def markSnapshotStarted (name : String) (position : Position) (shardsTotal now : Nat) :
    MirrorState Position :=
  (state.update name (fun table =>
    { table.setPhase .snapshotting now with
      position := some position
      snapshot := { table.snapshot with
        startedAt := some now
        finishedAt := none
        rows := 0
        shardsTotal := max shardsTotal 1
        shardsDone := 0
        attempts := table.snapshot.attempts + 1 }
      consecutiveFailures := 0
      lastError := none })).touch name now

def markShardDone (name : String) (rows now : Nat) : MirrorState Position :=
  (state.update name (fun table =>
    { table with snapshot := { table.snapshot with
        rows := table.snapshot.rows + rows
        shardsDone := table.snapshot.shardsDone + 1 } })).touch name now

def markSnapshotDone (name : String) (now : Nat) : MirrorState Position :=
  (state.update name (fun table =>
    let joined := if table.phase = .dropped ∨ table.phase = .refused then table else table.setPhase .active now
    { joined with
      snapshot := { joined.snapshot with finishedAt := some now }
      lastAppliedAt := some now })).touch name now

inductive FailureAction where
  | retry
  | paused
  deriving DecidableEq

/-- One more failure of a table, with the text that is kept of it. -/
def failTable (maxFailures : Nat) (error : String) (now : Nat) (table : TableState Position) : TableState Position :=
  let counted := { table with consecutiveFailures := table.consecutiveFailures + 1, lastError := some error }
  if max maxFailures 1 ≤ counted.consecutiveFailures then counted.setPhase .paused now else counted

def recordFailure (name error : String) (maxFailures now : Nat) :
    MirrorState Position × FailureAction :=
  match state.table name with
  | none => (state, .retry)
  | some table =>
      ((state.update name (failTable maxFailures error now)).touch name now,
        if max maxFailures 1 ≤ table.consecutiveFailures + 1 then .paused else .retry)

def recordSuccess (name : String) (now : Nat) : MirrorState Position :=
  (state.update name (fun table =>
    { table with consecutiveFailures := 0, lastError := none, lastAppliedAt := some now })).touch name now

end Mirror
end FaucetStream
