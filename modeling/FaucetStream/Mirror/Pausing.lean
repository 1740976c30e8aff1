import FaucetStream.Library.EventRun
import FaucetStream.Mirror.MultiState

namespace FaucetStream
namespace Mirror

open Library

/-!
# When a failing table is paused

The driver discovers tables, snapshots those that are due and streams the
active ones, cycle after cycle.  Both loops count their failures in the
marker.  A snapshot only starts while no cycle is open, and each start gives
the table a fresh count.
-/

variable {Position : Type}

structure DriverSettings where
  follow : Bool
  retryPausedSecs : Nat
  concurrency : Nat
  maxTableFailures : Nat
  deriving DecidableEq

structure Driver (Position : Type) where
  state : MirrorState Position
  running : List String := []
  cycle : Option (List String) := none
  deriving DecidableEq

/-- What happens to the marker.  A restart names the tables it resumed; the
result of a snapshot task is reaped after the task has ended. -/
inductive DriverEvent (Position : Type) where
  | restarted (resumed : List String)
  | discovered (resolved : List (String × Resolution))
  | prepareFailed (name error : String)
  | snapshotStarted (name : String) (position : Position) (shards : Nat)
  | shardDone (name : String) (rows : Nat)
  | snapshotDone (name : String)
  | snapshotFailed (name error : String)
  | snapshotReaped (name : String)
  | cycleOpened
  | cycleSucceeded (name : String)
  | cycleFailed (name error : String)
  | cycleClosed
  deriving DecidableEq

namespace Driver

/-- A due table that is not being snapshotted already, while there is room. -/
def startable (settings : DriverSettings) (now : Nat) (driver : Driver Position) (name : String) : Bool :=
  (dueForSnapshot driver.state settings.retryPausedSecs now).contains name && !driver.running.contains name
    && decide (driver.running.length < settings.concurrency)

def streams (driver : Driver Position) (name : String) : Bool :=
  match driver.cycle with
  | some streamed => streamed.contains name
  | none => false

/-- Whether the driver can come to an event. -/
def allows (settings : DriverSettings) (now : Nat) (driver : Driver Position) : DriverEvent Position -> Bool
  | .restarted resumed => decide (resumed = (resumePaused driver.state now).2)
  | .discovered _ => true
  | .prepareFailed name _ => driver.cycle.isNone && driver.startable settings now name
  | .snapshotStarted name _ _ => driver.cycle.isNone && driver.startable settings now name
  | .shardDone name _ => driver.running.contains name
  | .snapshotDone name => driver.running.contains name
  | .snapshotFailed name _ => driver.running.contains name
  | .snapshotReaped name => driver.running.contains name
  | .cycleOpened => driver.cycle.isNone && !(driver.state.inPhase .active).isEmpty
  | .cycleSucceeded name => driver.streams name
  | .cycleFailed name _ => driver.streams name
  | .cycleClosed => driver.cycle.isSome

def fail (settings : DriverSettings) (now : Nat) (driver : Driver Position) (name error : String) : Driver Position :=
  { driver with state := (recordFailure driver.state name error settings.maxTableFailures now).1 }

def apply (settings : DriverSettings) (now : Nat) (driver : Driver Position) : DriverEvent Position -> Driver Position
  | .restarted _ => { state := (resumePaused driver.state now).1 }
  | .discovered resolved =>
      { driver with state := (reconcileDiscovery driver.state resolved settings.follow now).1 }
  | .prepareFailed name error => driver.fail settings now name error
  | .snapshotStarted name position shards =>
      { driver with
        state := markSnapshotStarted driver.state name position shards now
        running := name :: driver.running }
  | .shardDone name rows => { driver with state := markShardDone driver.state name rows now }
  | .snapshotDone name => { driver with state := markSnapshotDone driver.state name now }
  | .snapshotFailed name error =>
      { driver.fail settings now name error with running := driver.running.filter (fun other => other != name) }
  | .snapshotReaped name => { driver with running := driver.running.filter (fun other => other != name) }
  | .cycleOpened => { driver with cycle := some (driver.state.inPhase .active) }
  | .cycleSucceeded name =>
      { driver with
        state := recordSuccess driver.state name now
        cycle := driver.cycle.map (List.filter (fun other => other != name)) }
  | .cycleFailed name error =>
      { driver.fail settings now name error with
        cycle := driver.cycle.map (List.filter (fun other => other != name)) }
  | .cycleClosed => { driver with cycle := none }

/-- One event, at its time. -/
def step (settings : DriverSettings) (driver : Driver Position) (event : Nat × DriverEvent Position) :
    Option (Driver Position) :=
  if driver.allows settings event.1 event.2 then some (driver.apply settings event.1 event.2) else none

theorem step_eq_some {settings : DriverSettings} {driver next : Driver Position} {event : Nat × DriverEvent Position}
    (stepped : driver.step settings event = some next) :
    driver.allows settings event.1 event.2 = true ∧ driver.apply settings event.1 event.2 = next := by
  unfold step at stepped
  split at stepped
  case isTrue allowed => exact ⟨allowed, Option.some.inj stepped⟩
  case isFalse => cases stepped

end Driver

/-! ## What an event is to a table -/

namespace DriverEvent

/-- A snapshot attempt or a stream cycle of the table ended in
`record_failure`. -/
def fails (name : String) : DriverEvent Position -> Bool
  | .prepareFailed other _ => other == name
  | .snapshotFailed other _ => other == name
  | .cycleFailed other _ => other == name
  | _ => false

def starts (name : String) : DriverEvent Position -> Bool
  | .snapshotStarted other _ _ => other == name
  | _ => false

/-- A snapshot or a cycle of the table succeeded, or a restart resumed it. -/
def clears (name : String) : DriverEvent Position -> Bool
  | .snapshotDone other => other == name
  | .cycleSucceeded other => other == name
  | .restarted resumed => resumed.contains name
  | _ => false

/-- A discovery did not find the table. -/
def misses (name : String) : DriverEvent Position -> Bool
  | .discovered resolved => (resolved.lookup name).isNone
  | _ => false

end DriverEvent

/-- The count stays, and the table is not paused unless it was.  It stays
paused if a discovery still finds it. -/
structure KeptBy (found : Prop) (before after : TableState Position) : Prop where
  counter : after.consecutiveFailures = before.consecutiveFailures
  unpaused : after.phase = .paused -> before.phase = .paused
  paused : found -> before.phase = .paused -> after.phase = .paused

namespace KeptBy

variable {found : Prop} {before middle after : TableState Position}

theorem refl (found : Prop) (table : TableState Position) : KeptBy found table table where
  counter := rfl
  unpaused := id
  paused := fun _ => id

theorem trans (first : KeptBy found before middle) (second : KeptBy found middle after) :
    KeptBy found before after where
  counter := second.counter.trans first.counter
  unpaused := fun paused => first.unpaused (second.unpaused paused)
  paused := fun still paused => second.paused still (first.paused still paused)

/-- A change of a table that is not paused to another phase. -/
theorem of_ne_paused (counter : after.consecutiveFailures = before.consecutiveFailures)
    (first : before.phase ≠ .paused) (second : after.phase ≠ .paused) : KeptBy found before after where
  counter := counter
  unpaused := fun paused => absurd paused second
  paused := fun _ paused => absurd paused first

theorem of_phase_eq (counter : after.consecutiveFailures = before.consecutiveFailures)
    (phase : after.phase = before.phase) : KeptBy found before after where
  counter := counter
  unpaused := fun paused => phase.symm.trans paused
  paused := fun _ paused => phase.trans paused

end KeptBy

variable {table : TableState Position}

namespace MirrorState

/-- A table after a change of one table, this or another. -/
theorem table_changed {state : MirrorState Position} {name : String}
    (known : state.table name = some table) (other : String) (change : TableState Position -> TableState Position) :
    (state.update other change).table name = some (if other = name then change table else table) := by
  by_cases same : other = name
  · rw [if_pos same, same, table_update_self, known]
    rfl
  · rw [if_neg same, table_update_of_ne state (Ne.symm same), known]

end MirrorState

/-! ## Discoveries -/

/-- A discovery that resolves tables keeps a table it knows. -/
theorem resolveTable_table {first follow : Bool} {now : Nat} {found : MirrorState Position × DiscoveryDiff}
    {name : String} (known : found.1.table name = some table)
    (resolved : String × Resolution) :
    exists after, (resolveTable first follow now found resolved).1.table name = some after ∧
      KeptBy True table after := by
  rcases found with ⟨state, diff⟩
  rcases resolved with ⟨other, resolution⟩
  dsimp only at known
  have unchanged : exists after, state.table name = some after ∧ KeptBy True table after :=
    ⟨table, known, KeptBy.refl True table⟩
  unfold resolveTable
  dsimp only
  cases current : state.table other with
  | none =>
      dsimp only
      split
      · exact unchanged
      · cases resolution with
        | mirror plan => exact ⟨table, MirrorState.table_insert known _ _, KeptBy.refl True table⟩
        | refused reason => exact ⟨table, MirrorState.table_insert known _ _, KeptBy.refl True table⟩
  | some present =>
      have changed : forall change : TableState Position -> TableState Position, KeptBy True present (change present) ->
          exists after, (state.update other change).table name = some after ∧ KeptBy True table after := by
        intro change kept
        rw [MirrorState.table_changed known]
        by_cases same : other = name
        · rw [same, known] at current
          cases current
          rw [if_pos same]
          exact ⟨change table, rfl, kept⟩
        · rw [if_neg same]
          exact ⟨table, rfl, KeptBy.refl True table⟩
      cases resolution with
      | mirror plan =>
          dsimp only
          by_cases gone : present.phase = .dropped ∨ present.phase = .refused
          · rw [if_pos gone]
            by_cases following : follow = true
            · rw [if_pos following]
              apply changed
              apply KeptBy.of_ne_paused
              · exact present.setPhase_consecutiveFailures .pending now
              · rcases gone with phase | phase <;> rw [phase] <;> decide
              · change (present.setPhase .pending now).phase ≠ .paused
                rw [TableState.setPhase_phase]
                decide
            · rw [if_neg following]
              exact unchanged
          · rw [if_neg gone]
            exact changed _ (KeptBy.of_phase_eq rfl rfl)
      | refused reason =>
          dsimp only
          by_cases moves : present.phase = .pending ∨ (present.phase = .refused ∧ present.lastError ≠ some reason)
          · rw [if_pos moves]
            apply changed
            apply KeptBy.of_ne_paused
            · exact present.setPhase_consecutiveFailures .refused now
            · rcases moves with phase | ⟨phase, _⟩ <;> rw [phase] <;> decide
            · change (present.setPhase .refused now).phase ≠ .paused
              rw [TableState.setPhase_phase]
              decide
          · rw [if_neg moves]
            exact unchanged

theorem foldl_resolveTable (first follow : Bool) (now : Nat) {name : String}
    (resolved : List (String × Resolution)) {found : MirrorState Position × DiscoveryDiff}
    (known : found.1.table name = some table) :
    exists after, (resolved.foldl (resolveTable first follow now) found).1.table name = some after ∧
      KeptBy True table after := by
  induction resolved generalizing found table with
  | nil => exact ⟨table, known, KeptBy.refl True table⟩
  | cons entry rest ih =>
      rcases resolveTable_table known entry with ⟨middle, present, kept⟩
      rcases ih present with ⟨after, last, keptOn⟩
      exact ⟨after, last, kept.trans keptOn⟩

theorem dropMissing_table {resolved : List (String × Resolution)} {now : Nat}
    {found : MirrorState Position × DiscoveryDiff} {name : String}
    (known : found.1.table name = some table) (other : String) :
    exists after, (dropMissing resolved now found other).1.table name = some after ∧
      KeptBy ((resolved.lookup name).isNone = false) table after := by
  rcases found with ⟨state, diff⟩
  dsimp only at known
  have unchanged : exists after, state.table name = some after ∧
      KeptBy ((resolved.lookup name).isNone = false) table after :=
    ⟨table, known, KeptBy.refl _ table⟩
  unfold dropMissing
  dsimp only
  cases current : state.table other with
  | none => exact unchanged
  | some present =>
      dsimp only
      by_cases missing : ((resolved.lookup other).isNone && decide (present.phase ≠ .dropped)) = true
      · rw [if_pos missing]
        dsimp only
        rw [MirrorState.table_changed known]
        by_cases same : other = name
        · rw [if_pos same]
          refine ⟨_, rfl, table.setPhase_consecutiveFailures .dropped now, ?_, ?_⟩
          · intro paused
            change (table.setPhase .dropped now).phase = .paused at paused
            rw [TableState.setPhase_phase] at paused
            cases paused
          · intro present
            rw [same, present] at missing
            cases missing
        · rw [if_neg same]
          exact ⟨table, rfl, KeptBy.refl _ table⟩
      · rw [if_neg missing]
        exact unchanged

theorem foldl_dropMissing (resolved : List (String × Resolution)) (now : Nat) {name : String} (names : List String)
    {found : MirrorState Position × DiscoveryDiff}
    (known : found.1.table name = some table) :
    exists after, (names.foldl (dropMissing resolved now) found).1.table name = some after ∧
      KeptBy ((resolved.lookup name).isNone = false) table after := by
  induction names generalizing found table with
  | nil => exact ⟨table, known, KeptBy.refl _ table⟩
  | cons other rest ih =>
      rcases dropMissing_table known other with ⟨middle, present, kept⟩
      rcases ih present with ⟨after, last, keptOn⟩
      exact ⟨after, last, kept.trans keptOn⟩

theorem reconcileDiscovery_table {state : MirrorState Position} {name : String}
    (known : state.table name = some table) (resolved : List (String × Resolution)) (follow : Bool) (now : Nat) :
    exists after, (reconcileDiscovery state resolved follow now).1.table name = some after ∧
      KeptBy ((resolved.lookup name).isNone = false) table after := by
  have start : ((state, {}) : MirrorState Position × DiscoveryDiff).1.table name = some table := known
  rcases foldl_resolveTable state.discoveredAt.isNone follow now resolved start with ⟨middle, present, kept⟩
  rcases foldl_dropMissing resolved now
    ((resolved.foldl (resolveTable state.discoveredAt.isNone follow now) (state, {})).1.tables.map Prod.fst) present
    with ⟨after, last, keptOn⟩
  refine ⟨after, last, ?_⟩
  have weaker : KeptBy ((resolved.lookup name).isNone = false) table middle :=
    ⟨kept.counter, kept.unpaused, fun _ => kept.paused trivial⟩
  exact weaker.trans keptOn

/-! ## One event -/

theorem resumePaused_table {state : MirrorState Position} {name : String}
    (known : state.table name = some table) (now : Nat) :
    (resumePaused state now).1.table name = some (resumeTable now table) := by
  refine (lookup_map_entries state.tables (fun _ => resumeTable now) name).trans ?_
  change (state.table name).map (resumeTable now) = _
  rw [known]
  rfl

theorem mem_resumed {state : MirrorState Position} {name : String}
    (known : state.table name = some table) (paused : table.phase = .paused) (now : Nat) :
    name ∈ (resumePaused state now).2 := by
  change name ∈ (state.tables.filter (fun entry => decide (entry.2.phase = .paused))).map Prod.fst
  apply List.mem_map.mpr
  exact ⟨(name, table), List.mem_filter.mpr ⟨mem_of_lookup_eq_some known, decide_eq_true paused⟩, rfl⟩

/-- What an event makes of a table. -/
structure Outcome (settings : DriverSettings) (name : String) (event : DriverEvent Position)
    (before after : TableState Position) : Prop where
  failed : event.fails name = true -> after.consecutiveFailures = before.consecutiveFailures + 1 ∧
    (after.phase = .paused <->
      max settings.maxTableFailures 1 ≤ before.consecutiveFailures + 1 ∨ before.phase = .paused)
  started : event.starts name = true -> after.consecutiveFailures = 0 ∧ after.phase ≠ .paused
  kept : event.fails name = false -> event.starts name = false -> event.clears name = false ->
    KeptBy (event.misses name = false) before after

theorem failTable_phase (maxFailures : Nat) (error : String) (now : Nat) (table : TableState Position) :
    (failTable maxFailures error now table).phase = .paused <->
      max maxFailures 1 ≤ table.consecutiveFailures + 1 ∨ table.phase = .paused := by
  unfold failTable
  dsimp only
  by_cases enough : max maxFailures 1 ≤ table.consecutiveFailures + 1
  · rw [if_pos enough, TableState.setPhase_phase]
    exact ⟨fun _ => Or.inl enough, fun _ => rfl⟩
  · rw [if_neg enough]
    exact ⟨Or.inr, fun either => either.resolve_left enough⟩

theorem failTable_consecutiveFailures (maxFailures : Nat) (error : String) (now : Nat)
    (table : TableState Position) :
    (failTable maxFailures error now table).consecutiveFailures = table.consecutiveFailures + 1 := by
  unfold failTable
  dsimp only
  split
  · exact TableState.setPhase_consecutiveFailures _ _ _
  · rfl

namespace Driver

variable {settings : DriverSettings} {now : Nat} {driver : Driver Position} {name : String}
  {table : TableState Position}

theorem fail_table (known : driver.state.table name = some table) (other error : String) :
    (driver.fail settings now other error).state.table name = some
      (if other = name then failTable settings.maxTableFailures error now table else table) := by
  unfold fail recordFailure
  cases current : driver.state.table other with
  | none =>
      have different : other ≠ name := by
        rintro rfl
        rw [known] at current
        cases current
      rw [if_neg different]
      exact known
  | some present =>
      dsimp only
      rw [MirrorState.table_touch]
      exact MirrorState.table_changed known other _

/-- A failure recorded for this table, or for another. -/
theorem failed_outcome {event : DriverEvent Position} {other : String} (error : String)
    (fails : event.fails name = (other == name)) (starts : event.starts name = false) :
    Outcome settings name event table
      (if other = name then failTable settings.maxTableFailures error now table else table) := by
  by_cases same : other = name
  · rw [if_pos same]
    rw [same, beq_self_eq_true] at fails
    refine ⟨fun _ => ?_, fun started => ?_, fun silent => ?_⟩
    · exact ⟨failTable_consecutiveFailures _ _ _ _, failTable_phase _ _ _ _⟩
    · rw [starts] at started
      cases started
    · rw [fails] at silent
      cases silent
  · rw [if_neg same]
    rw [beq_eq_false_iff_ne.mpr same] at fails
    refine ⟨fun failed => ?_, fun started => ?_, fun _ _ _ => KeptBy.refl _ table⟩
    · rw [fails] at failed
      cases failed
    · rw [starts] at started
      cases started

/-- An event that is no failure and no start of the table. -/
theorem kept_outcome {event : DriverEvent Position} {after : TableState Position}
    (fails : event.fails name = false) (starts : event.starts name = false)
    (kept : event.clears name = false -> KeptBy (event.misses name = false) table after) :
    Outcome settings name event table after := by
  refine ⟨fun failed => ?_, fun started => ?_, fun _ _ => kept⟩
  · rw [fails] at failed
    cases failed
  · rw [starts] at started
    cases started

theorem apply_table (known : driver.state.table name = some table) {event : DriverEvent Position}
    (allowed : driver.allows settings now event = true) :
    exists after, (driver.apply settings now event).state.table name = some after ∧
      Outcome settings name event table after := by
  cases event with
  | restarted resumed =>
      refine ⟨_, resumePaused_table known now, kept_outcome rfl rfl ?_⟩
      intro unnamed
      have among : resumed = (resumePaused driver.state now).2 := of_decide_eq_true allowed
      have unpaused : table.phase ≠ .paused := by
        intro paused
        have named := mem_resumed known paused now
        rw [← among, ← List.contains_iff_mem] at named
        have unnamed : resumed.contains name = false := unnamed
        rw [named] at unnamed
        cases unnamed
      rw [resumeTable, if_neg unpaused]
      exact KeptBy.refl _ table
  | discovered resolved =>
      rcases reconcileDiscovery_table known resolved settings.follow now with ⟨after, present, kept⟩
      exact ⟨after, present, kept_outcome rfl rfl (fun _ => kept)⟩
  | prepareFailed other error => exact ⟨_, fail_table known other error, failed_outcome error rfl rfl⟩
  | snapshotFailed other error => exact ⟨_, fail_table known other error, failed_outcome error rfl rfl⟩
  | cycleFailed other error => exact ⟨_, fail_table known other error, failed_outcome error rfl rfl⟩
  | snapshotStarted other position shards =>
      refine ⟨_, (MirrorState.table_touch _ _ _ _).trans (MirrorState.table_changed known other _), ?_⟩
      by_cases same : other = name
      · rw [if_pos same]
        refine ⟨fun impossible => ?_, fun _ => ⟨rfl, ?_⟩, fun _ silent => ?_⟩
        · cases impossible
        · change (table.setPhase .snapshotting now).phase ≠ .paused
          rw [TableState.setPhase_phase]
          decide
        · change (other == name) = false at silent
          rw [same, beq_self_eq_true] at silent
          cases silent
      · rw [if_neg same]
        exact kept_outcome rfl (beq_eq_false_iff_ne.mpr same) (fun _ => KeptBy.refl _ table)
  | shardDone other rows =>
      refine ⟨_, (MirrorState.table_touch _ _ _ _).trans (MirrorState.table_changed known other _),
        kept_outcome rfl rfl (fun _ => ?_)⟩
      split
      · exact KeptBy.of_phase_eq rfl rfl
      · exact KeptBy.refl _ table
  | snapshotDone other =>
      refine ⟨_, (MirrorState.table_touch _ _ _ _).trans (MirrorState.table_changed known other _),
        kept_outcome rfl rfl (fun silent => ?_)⟩
      rw [if_neg (beq_eq_false_iff_ne.mp silent)]
      exact KeptBy.refl _ table
  | cycleSucceeded other =>
      refine ⟨_, (MirrorState.table_touch _ _ _ _).trans (MirrorState.table_changed known other _),
        kept_outcome rfl rfl (fun silent => ?_)⟩
      rw [if_neg (beq_eq_false_iff_ne.mp silent)]
      exact KeptBy.refl _ table
  | snapshotReaped other => exact ⟨table, known, kept_outcome rfl rfl (fun _ => KeptBy.refl _ table)⟩
  | cycleOpened => exact ⟨table, known, kept_outcome rfl rfl (fun _ => KeptBy.refl _ table)⟩
  | cycleClosed => exact ⟨table, known, kept_outcome rfl rfl (fun _ => KeptBy.refl _ table)⟩

end Driver

/-! ## Runs -/

theorem MirrorState.known_of_mem {state : MirrorState Position} {entry : String × TableState Position}
    (member : entry ∈ state.tables) : exists table, state.table entry.1 = some table := by
  cases found : state.table entry.1 with
  | some table => exact ⟨table, rfl⟩
  | none =>
      have absent := List.lookup_eq_none_iff.mp found entry member
      rw [bne_self_eq_false] at absent
      cases absent

namespace Driver

def begin (now : Nat) : Driver Position := { state := MirrorState.new now }

def run (settings : DriverSettings) (driver : Driver Position) (events : List (Nat × DriverEvent Position)) :
    Option (Driver Position) :=
  runEvents (step settings) driver events

/-- The driver snapshots and streams tables it knows. -/
structure Sound (driver : Driver Position) : Prop where
  running : forall name, driver.running.contains name = true -> exists table, driver.state.table name = some table
  streams : forall name, driver.streams name = true -> exists table, driver.state.table name = some table

variable {settings : DriverSettings} {now : Nat} {driver next : Driver Position} {name : String}

theorem known_of_startable (startable : driver.startable settings now name = true) :
    exists table, driver.state.table name = some table := by
  simp only [Driver.startable, Bool.and_eq_true] at startable
  rcases List.mem_map.mp (List.contains_iff_mem.mp startable.1.1) with ⟨entry, due, rfl⟩
  exact MirrorState.known_of_mem (List.mem_filter.mp due).1

theorem streams_filter {other : String} (keeps : String -> Bool)
    (streamed : streams { driver with cycle := driver.cycle.map (List.filter keeps) } other = true) :
    driver.streams other = true := by
  unfold streams at *
  cases current : driver.cycle with
  | none =>
      rw [current] at streamed
      cases streamed
  | some names =>
      rw [current] at streamed
      exact List.contains_iff_mem.mpr (List.mem_filter.mp (List.contains_iff_mem.mp streamed)).1

/-- What is snapshotted or streamed after an event was so before it, or starts
with it. -/
theorem apply_busy {event : DriverEvent Position} (sound : driver.Sound)
    (allowed : driver.allows settings now event = true)
    (busy : (driver.apply settings now event).running.contains name = true ∨
      (driver.apply settings now event).streams name = true) :
    exists table, driver.state.table name = some table := by
  have either : driver.running.contains name = true ∨ driver.streams name = true ->
      exists table, driver.state.table name = some table := by
    rintro (running | streamed)
    · exact sound.running name running
    · exact sound.streams name streamed
  have shrunk : forall gone : String, (driver.running.filter (fun other => other != gone)).contains name = true ->
      driver.running.contains name = true := by
    intro gone remains
    exact List.contains_iff_mem.mpr (List.mem_filter.mp (List.contains_iff_mem.mp remains)).1
  cases event with
  | restarted resumed => rcases busy with impossible | impossible <;> cases impossible
  | discovered resolved => exact either busy
  | prepareFailed other error => exact either busy
  | shardDone other rows => exact either busy
  | snapshotDone other => exact either busy
  | snapshotStarted other position shards =>
      rcases busy with running | streamed
      · rcases List.mem_cons.mp (List.contains_iff_mem.mp running) with rfl | before
        · exact known_of_startable (Bool.and_eq_true_iff.mp allowed).2
        · exact sound.running name (List.contains_iff_mem.mpr before)
      · exact sound.streams name streamed
  | snapshotFailed other error => exact either (busy.imp_left (shrunk other))
  | snapshotReaped other => exact either (busy.imp_left (shrunk other))
  | cycleOpened =>
      rcases busy with running | streamed
      · exact sound.running name running
      · rcases List.mem_map.mp (List.contains_iff_mem.mp streamed) with ⟨entry, among, rfl⟩
        exact MirrorState.known_of_mem (List.mem_filter.mp among).1
  | cycleSucceeded other => exact either (busy.imp_right (streams_filter _))
  | cycleFailed other error => exact either (busy.imp_right (streams_filter _))
  | cycleClosed =>
      rcases busy with running | impossible
      · exact sound.running name running
      · cases impossible

theorem step_sound {event : Nat × DriverEvent Position} (sound : driver.Sound)
    (stepped : driver.step settings event = some next) : next.Sound := by
  rcases step_eq_some stepped with ⟨allowed, rfl⟩
  have still : forall name, (exists table, driver.state.table name = some table) ->
      exists table, (driver.apply settings event.1 event.2).state.table name = some table := by
    rintro name ⟨table, known⟩
    rcases apply_table known allowed with ⟨after, present, _⟩
    exact ⟨after, present⟩
  constructor
  · intro name running
    exact still name (apply_busy sound allowed (Or.inl running))
  · intro name streamed
    exact still name (apply_busy sound allowed (Or.inr streamed))

theorem begin_sound (now : Nat) : (begin now : Driver Position).Sound where
  running := by
    intro name impossible
    cases impossible
  streams := by
    intro name impossible
    cases impossible

theorem run_sound {begun : Nat} {events : List (Nat × DriverEvent Position)}
    (ran : run settings (begin begun) events = some driver) : driver.Sound :=
  runEvents_keeps (step settings) (fun _ => True) Sound
    (fun _ _ _ _ stepped sound => step_sound sound stepped) (fun _ _ => trivial) ran (begin_sound begun)

/-- A failure is recorded of a table the driver knows. -/
theorem known_of_fails {event : DriverEvent Position} (sound : driver.Sound)
    (allowed : driver.allows settings now event = true) (fails : event.fails name = true) :
    exists table, driver.state.table name = some table := by
  cases event with
  | prepareFailed other error =>
      rw [← eq_of_beq fails]
      exact known_of_startable (Bool.and_eq_true_iff.mp allowed).2
  | snapshotFailed other error =>
      rw [← eq_of_beq fails]
      exact sound.running other allowed
  | cycleFailed other error =>
      rw [← eq_of_beq fails]
      exact sound.streams other allowed
  | restarted | discovered | snapshotStarted | shardDone | snapshotDone | snapshotReaped | cycleOpened
  | cycleSucceeded | cycleClosed => cases fails

end Driver

/-! ## Failures in a row -/

def failures (name : String) (events : List (Nat × DriverEvent Position)) : Nat :=
  (events.map (fun event => (event.2.fails name).toNat)).sum

theorem failures_append (name : String) (front rest : List (Nat × DriverEvent Position)) :
    failures name (front ++ rest) = failures name front + failures name rest := by
  unfold failures
  rw [List.map_append, List.sum_append]

theorem failures_cons (name : String) (event : Nat × DriverEvent Position) (rest : List (Nat × DriverEvent Position)) :
    failures name (event :: rest) = (event.2.fails name).toNat + failures name rest := rfl

/-- The events from one failure of a table to a later one, or the same, with
this many failures in all. -/
structure FailingStreak (name : String) (count : Nat) (streak : List (Nat × DriverEvent Position)) : Prop where
  first : exists event rest, streak = event :: rest ∧ event.2.fails name = true
  last : exists front event, streak = front ++ [event] ∧ event.2.fails name = true
  total : failures name streak = count

/-- Nothing has become of a table: discoveries find it, and it was neither
tried nor resumed. -/
structure LeftAlone (name : String) (event : DriverEvent Position) : Prop where
  fails : event.fails name = false
  starts : event.starts name = false
  clears : event.clears name = false
  misses : event.misses name = false

namespace Driver

variable {settings : DriverSettings} {driver next last : Driver Position} {name : String}
  {table : TableState Position}

theorem starts_of_fails {event : DriverEvent Position} (fails : event.fails name = true) :
    event.starts name = false := by
  cases event with
  | prepareFailed | snapshotFailed | cycleFailed => rfl
  | restarted | discovered | snapshotStarted | shardDone | snapshotDone | snapshotReaped | cycleOpened
  | cycleSucceeded | cycleClosed => cases fails

theorem step_table {event : Nat × DriverEvent Position} (known : driver.state.table name = some table)
    (stepped : driver.step settings event = some next) :
    exists after, next.state.table name = some after ∧ Outcome settings name event.2 table after := by
  rcases step_eq_some stepped with ⟨allowed, rfl⟩
  exact apply_table known allowed

/-- While no snapshot of the table starts, its failures add up. -/
theorem run_counts {events : List (Nat × DriverEvent Position)}
    (unstarted : forall event, event ∈ events -> event.2.starts name = false ∧ event.2.clears name = false)
    (ran : run settings driver events = some last) (known : driver.state.table name = some table) :
    exists after, last.state.table name = some after ∧
      table.consecutiveFailures + failures name events ≤ after.consecutiveFailures := by
  refine runEvents_spends (step settings)
    (fun event => event.2.starts name = false ∧ event.2.clears name = false)
    (fun event => (event.2.fails name).toNat)
    (fun left driver => exists after, driver.state.table name = some after ∧
      table.consecutiveFailures + failures name events ≤ after.consecutiveFailures + left)
    ?_ unstarted ran 0 ⟨table, known, Nat.le_refl _⟩
  rintro driver event next left ⟨starts, clears⟩ stepped ⟨before, present, within⟩
  rcases step_table present stepped with ⟨after, still, outcome⟩
  refine ⟨after, still, ?_⟩
  cases fails : event.2.fails name with
  | true =>
      rw [fails, Bool.toNat_true] at within
      rw [(outcome.failed fails).1]
      omega
  | false =>
      rw [fails, Bool.toNat_false] at within
      rw [(outcome.kept fails starts clears).counter]
      omega

/-- A table that is not paused is not paused by fewer failures than it takes. -/
theorem run_short {events : List (Nat × DriverEvent Position)}
    (uncleared : forall event, event ∈ events -> event.2.clears name = false)
    (ran : run settings driver events = some last) (known : driver.state.table name = some table)
    (unpaused : table.phase ≠ .paused)
    (short : table.consecutiveFailures + failures name events < max settings.maxTableFailures 1) :
    exists after, last.state.table name = some after ∧ after.phase ≠ .paused := by
  have kept := runEvents_spends (step settings)
    (fun event => event.2.clears name = false)
    (fun event => (event.2.fails name).toNat)
    (fun left driver => exists after, driver.state.table name = some after ∧ after.phase ≠ .paused ∧
      after.consecutiveFailures + left < max settings.maxTableFailures 1)
    (by
      rintro driver event next left clears stepped ⟨before, present, awake, within⟩
      rcases step_table present stepped with ⟨after, still, outcome⟩
      refine ⟨after, still, ?_⟩
      cases fails : event.2.fails name with
      | true =>
          rw [fails, Bool.toNat_true] at within
          rcases outcome.failed fails with ⟨counter, phase⟩
          refine ⟨fun paused => ?_, by omega⟩
          rcases phase.mp paused with enough | already
          · omega
          · exact awake already
      | false =>
          rw [fails, Bool.toNat_false, Nat.zero_add] at within
          cases starts : event.2.starts name with
          | true =>
              rcases outcome.started starts with ⟨counter, phase⟩
              exact ⟨phase, by omega⟩
          | false =>
              have same := outcome.kept fails starts clears
              refine ⟨fun paused => awake (same.unpaused paused), ?_⟩
              rw [same.counter]
              exact within)
    uncleared ran 0 ⟨table, known, unpaused, short⟩
  rcases kept with ⟨after, present, awake, _⟩
  exact ⟨after, present, awake⟩

/-- A table left alone stays as paused as it is. -/
theorem run_leftAlone {events : List (Nat × DriverEvent Position)}
    (alone : forall event, event ∈ events -> LeftAlone name event.2)
    (ran : run settings driver events = some last) (known : driver.state.table name = some table) :
    exists after, last.state.table name = some after ∧ (after.phase = .paused <-> table.phase = .paused) := by
  refine runEvents_keeps (step settings) (fun event => LeftAlone name event.2)
    (fun driver => exists after, driver.state.table name = some after ∧
      (after.phase = .paused <-> table.phase = .paused))
    ?_ alone ran ⟨table, known, Iff.rfl⟩
  rintro driver event next quiet stepped ⟨before, present, same⟩
  rcases step_table present stepped with ⟨after, still, outcome⟩
  have kept := outcome.kept quiet.fails quiet.starts quiet.clears
  exact ⟨after, still, (Iff.intro kept.unpaused (kept.paused quiet.misses)).trans same⟩

/-- Whether the failures of a streak pause their table. -/
theorem run_streak {streak : List (Nat × DriverEvent Position)} (sound : driver.Sound)
    (ran : run settings driver streak = some last) (failing : FailingStreak name settings.maxTableFailures streak)
    (uncleared : forall event, event ∈ streak -> event.2.clears name = false) :
    exists after, last.state.table name = some after ∧
      (after.phase = .paused <-> forall event, event ∈ streak -> event.2.starts name = false) := by
  rcases failing with ⟨⟨head, tail, begins, headFails⟩, ⟨init, final, ends, finalFails⟩, total⟩
  have known : exists table, driver.state.table name = some table := by
    rw [begins] at ran
    rcases runEvents_cons.mp ran with ⟨next, stepped, _⟩
    exact known_of_fails sound (step_eq_some stepped).1 headFails
  rcases known with ⟨table, known⟩
  by_cases unstarted : forall event, event ∈ streak -> event.2.starts name = false
  · -- the counter has only gone up, and the last failure finds it high enough
    have apart : forall event, event ∈ init -> event.2.starts name = false ∧ event.2.clears name = false := by
      intro event among
      have member : event ∈ streak := by
        rw [ends]
        exact List.mem_append_left _ among
      exact ⟨unstarted event member, uncleared event member⟩
    rw [ends] at ran
    rcases runEvents_append.mp ran with ⟨middle, reached, onward⟩
    rcases run_counts apart reached known with ⟨before, present, counted⟩
    rcases runEvents_cons.mp onward with ⟨next, stepped, here⟩
    cases here
    rcases step_table present stepped with ⟨after, still, outcome⟩
    refine ⟨after, still, fun _ => unstarted, fun _ => (outcome.failed finalFails).2.mpr (Or.inl ?_)⟩
    have one : failures name [final] = 1 := by
      rw [failures_cons, finalFails]
      rfl
    rw [ends, failures_append, one] at total
    omega
  · -- the first failure was forgotten at the start, and the others are too few
    have among := unstarted
    simp only [not_forall, Bool.not_eq_false] at among
    rcases among with ⟨event, member, starts⟩
    rcases List.append_of_mem member with ⟨front, rest, split⟩
    have counted : 1 ≤ failures name front := by
      cases front with
      | nil =>
          rw [begins, List.nil_append] at split
          cases split
          rw [starts_of_fails headFails] at starts
          cases starts
      | cons first front =>
          rw [begins, List.cons_append] at split
          cases split
          rw [failures_cons, headFails, Bool.toNat_true]
          exact Nat.le_add_right 1 _
    rw [split] at ran
    rcases runEvents_append.mp ran with ⟨middle, reached, onward⟩
    rcases runEvents_cons.mp onward with ⟨next, stepped, finished⟩
    have present : exists before, middle.state.table name = some before :=
      runEvents_keeps (step settings) (fun _ => True)
        (fun driver => exists table, driver.state.table name = some table)
        (fun driver event next _ stepped ⟨before, present⟩ =>
          (step_table present stepped).imp (fun _ still => still.1))
        (fun _ _ => trivial) reached ⟨table, known⟩
    rcases present with ⟨before, present⟩
    rcases step_table present stepped with ⟨fresh, there, outcome⟩
    rcases outcome.started starts with ⟨zero, awake⟩
    have few : fresh.consecutiveFailures + failures name rest < max settings.maxTableFailures 1 := by
      rw [split, failures_append, failures_cons] at total
      omega
    have uncounted : forall event, event ∈ rest -> event.2.clears name = false := by
      intro event among
      apply uncleared
      rw [split]
      exact List.mem_append_right front (List.mem_cons_of_mem _ among)
    rcases run_short uncounted finished there awake few with ⟨after, still, unpaused⟩
    exact ⟨after, still, fun paused => absurd paused unpaused, fun all => absurd all unstarted⟩

end Driver

/-- The last `max_table_failures` attempts and cycles of a table failed, none
succeeded and no restart resumed it meanwhile, and nothing has become of the
table since.  Then it is paused just if none of its snapshots was started
between the first and the last of these failures: a start forgets the failures
before it. -/
theorem failing_paused_iff {settings : DriverSettings} {name : String} {begun : Nat} {driver : Driver Position}
    {front streak after : List (Nat × DriverEvent Position)}
    (ran : (Driver.begin begun).run settings (front ++ (streak ++ after)) = some driver)
    (failing : FailingStreak name settings.maxTableFailures streak)
    (uncleared : forall event, event ∈ streak -> event.2.clears name = false)
    (alone : forall event, event ∈ after -> LeftAlone name event.2) :
    (driver.state.table name).map TableState.phase = some .paused <->
      forall event, event ∈ streak -> event.2.starts name = false := by
  rcases runEvents_append.mp ran with ⟨reached, before, onward⟩
  rcases runEvents_append.mp onward with ⟨failed, during, rest⟩
  rcases Driver.run_streak (Driver.run_sound before) during failing uncleared with ⟨table, present, paused⟩
  rcases Driver.run_leftAlone alone rest present with ⟨last, still, same⟩
  rw [still, Option.map_some, Option.some.injEq, same]
  exact paused

namespace Driver

def twoFailures : DriverSettings := ⟨true, 0, 1, 2⟩

def discoveredOnce : List (Nat × DriverEvent Nat) :=
  [(1, .discovered [("shop.a", .mirror ⟨"shop_a", ["id"], "upsert", none⟩)])]

/-- Two snapshots of a table, each of which fails while it copies rows. -/
def failedTwice : List (Nat × DriverEvent Nat) :=
  [(3, .snapshotFailed "shop.a" "timeout"), (40, .snapshotStarted "shop.a" 9 1),
    (41, .snapshotFailed "shop.a" "timeout")]

/-- Two attempts that fail while the snapshot is prepared. -/
def refusedTwice : List (Nat × DriverEvent Nat) :=
  [(2, .prepareFailed "shop.a" "refused"), (40, .prepareFailed "shop.a" "refused")]

theorem failedTwice_streak : FailingStreak "shop.a" 2 failedTwice where
  first := ⟨_, _, rfl, rfl⟩
  last := ⟨[(3, .snapshotFailed "shop.a" "timeout"), (40, .snapshotStarted "shop.a" 9 1)],
    (41, .snapshotFailed "shop.a" "timeout"), rfl, rfl⟩
  total := rfl

end Driver

/-- Both snapshots failed, which is the limit, and the table is to be
snapshotted once more. -/
theorem failedTwice_not_paused :
    FailingStreak "shop.a" Driver.twoFailures.maxTableFailures Driver.failedTwice ∧
      (forall event, event ∈ Driver.failedTwice -> event.2.clears "shop.a" = false) ∧
      exists driver, (Driver.begin 0).run Driver.twoFailures
          (Driver.discoveredOnce ++ (2, .snapshotStarted "shop.a" 7 1) :: Driver.failedTwice) = some driver ∧
        (driver.state.table "shop.a").map TableState.phase = some .snapshotting ∧
        (driver.state.table "shop.a").map TableState.consecutiveFailures = some 1 := by
  refine ⟨Driver.failedTwice_streak, ?_, _, rfl, ?_, ?_⟩
  · decide
  · decide
  · decide

/-- Two attempts that fail before the snapshot starts pause the table, and the
next discovery leaves it so. -/
theorem failing_paused_iff_prepared :
    exists driver, (Driver.begin 0).run Driver.twoFailures
        (Driver.discoveredOnce ++ (Driver.refusedTwice ++ Driver.discoveredOnce)) = some driver ∧
      (driver.state.table "shop.a").map TableState.phase = some .paused := by
  refine ⟨_, rfl, ?_⟩
  refine (@failing_paused_iff Nat Driver.twoFailures "shop.a" 0 _ Driver.discoveredOnce Driver.refusedTwice
    Driver.discoveredOnce rfl ?_ ?_ ?_).mpr ?_
  · exact ⟨⟨_, _, rfl, rfl⟩, ⟨[(2, .prepareFailed "shop.a" "refused")], (40, .prepareFailed "shop.a" "refused"), rfl,
      rfl⟩, rfl⟩
  · decide
  · intro event among
    rw [List.mem_singleton.mp among]
    exact ⟨rfl, rfl, rfl, by decide⟩
  · decide

end Mirror
end FaucetStream
