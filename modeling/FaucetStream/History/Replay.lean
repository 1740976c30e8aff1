import FaucetStream.History.Journal
import Mathlib.Logic.Function.Basic

namespace FaucetStream
namespace History

open Json

/-!
# Replaying the journal into the primary

Once the backend answers, the journaled records are written into it.  Other
servers share the backend, so a run may meanwhile belong to a peer.  Of the
three writes a run record can go through, one is fenced by the owner and one
only ever adds; the third overwrites whatever is there.
-/

/-! ## The primary -/

/-- A row of the runs table.  The owner and the lease are columns only; the
record is the row's body. -/
structure RunRow where
  record : RunRecord
  owner : Option String
  leaseExpiresAt : Nat
  submittedBy : Option String
  labels : List (String × String)

/-- The log lines of one run, of which no two have one sequence number. -/
structure RunLogs where
  rows : List RunLogLine
  distinct : (rows.map RunLogLine.seq).Nodup

namespace RunLogs

def empty : RunLogs := ⟨[], List.nodup_nil⟩

def holds (logs : RunLogs) (seq : Nat) : Bool := logs.rows.any (fun row => row.seq == seq)

theorem holds_iff {logs : RunLogs} {seq : Nat} : logs.holds seq = true <-> seq ∈ logs.rows.map RunLogLine.seq := by
  unfold holds
  rw [List.any_eq_true, List.mem_map]
  constructor
  · rintro ⟨row, member, same⟩
    exact ⟨row, member, beq_iff_eq.mp same⟩
  · rintro ⟨row, member, rfl⟩
    exact ⟨row, member, beq_self_eq_true row.seq⟩

/-- `insert_run_log`: a line under a taken number is not written. -/
def insert (logs : RunLogs) (line : RunLogLine) : RunLogs :=
  if free : logs.holds line.seq = false then
    ⟨logs.rows ++ [line], by
      rw [List.map_append, List.nodup_append]
      refine ⟨logs.distinct, List.nodup_singleton _, ?_⟩
      intro seq held other single same
      rw [List.map_singleton, List.mem_singleton] at single
      rw [same, single] at held
      rw [holds_iff.mpr held] at free
      cases free⟩
  else logs

end RunLogs

/-- The tables the replay writes. -/
structure Primary where
  runs : String -> Option RunRow
  audits : String -> Option AuditEntry
  logs : String -> RunLogs
  /-- `faucet_serve_log_ship`: the highest number written for a run. -/
  totalSeq : String -> Option Nat
  /-- `faucet_serve_log_writers`: the highest number this server wrote. -/
  persistedSeq : String -> Option Nat
  usage : String × String -> Option UsageRecord

/-- `RUN_LOG_TRUNCATED_SEQ`, which is `u64::MAX`. -/
def runLogTruncatedSeq : Nat := 18446744073709551615

/-- `SEQ_PROBES`. -/
def seqProbes : Nat := 16

/-- `GREATEST` with a row that may be missing. -/
def raiseTo (value : Nat) (stored : Option Nat) : Option Nat :=
  match stored with
  | some held => some (max held value)
  | none => some value

namespace Primary

/-! ## The writes -/

/-- The row an upsert leaves.  A status update keeps who submitted the run and
fills in labels only where there are none. -/
def upsertRow (server : String) (lease : Nat) (record : RunRecord) : Option RunRow -> RunRow
  | none => ⟨record, some server, lease, record.submittedBy, record.labels⟩
  | some row =>
      ⟨record, some server, lease, record.submittedBy <|> row.submittedBy,
        if row.labels.isEmpty then record.labels else row.labels⟩

def upsert (server : String) (lease : Nat) (record : RunRecord) (primary : Primary) : Primary :=
  { primary with
    runs := Function.update primary.runs record.runId
      (some (upsertRow server lease record (primary.runs record.runId))) }

/-- `insert_new`, and whether it inserted. -/
def insertNew (server : String) (lease : Nat) (record : RunRecord) (primary : Primary) : Primary × Bool :=
  match primary.runs record.runId with
  | some _ => (primary, false)
  | none =>
      ({ primary with
          runs := Function.update primary.runs record.runId (some (upsertRow server lease record none)) },
        true)

/-- A terminal record carries the time it was finished. -/
def stampFinished (now : Nat) (record : RunRecord) : RunRecord :=
  if record.status.isTerminal && record.finishedAt.isNone then { record with finishedAt := some now } else record

/-- `finalize_owned`: only for the owner, and only a run that is not over. -/
def finalizeOwned (server : String) (now lease : Nat) (record : RunRecord) (primary : Primary) : Primary × Bool :=
  match primary.runs record.runId with
  | none => (primary, false)
  | some row =>
      if row.owner = some server ∧ row.record.status.isTerminal = false then
        ({ primary with
            runs := Function.update primary.runs record.runId
              (some { row with record := stampFinished now record, leaseExpiresAt := lease }) },
          true)
      else (primary, false)

/-- The number a line is written under: its own, or the next free one. -/
def probe (logs : RunLogs) (line : RunLogLine) : Option Nat :=
  let attempts := if line.seq = runLogTruncatedSeq then 1 else seqProbes
  ((List.range attempts).map (fun bump => min (line.seq + bump) runLogTruncatedSeq)).find?
    (fun seq => !logs.holds seq)

/-- One line of a batch, with the highest number written so far. -/
def writeLine (state : RunLogs × Option Nat) (line : RunLogLine) : RunLogs × Option Nat :=
  match probe state.1 line with
  | none => state
  | some seq =>
      (state.1.insert { line with seq := seq },
        if line.seq = runLogTruncatedSeq then state.2 else raiseTo seq state.2)

def recordRunLogs (runId : String) (lines : List RunLogLine) (primary : Primary) : Primary :=
  let (logs, maxSeq) := lines.foldl writeLine (primary.logs runId, none)
  { primary with
    logs := Function.update primary.logs runId logs,
    totalSeq := match maxSeq with
      | some seq => Function.update primary.totalSeq runId (raiseTo seq (primary.totalSeq runId))
      | none => primary.totalSeq,
    persistedSeq := match maxSeq with
      | some seq => Function.update primary.persistedSeq runId (raiseTo seq (primary.persistedSeq runId))
      | none => primary.persistedSeq }

/-- `list_run_logs`: lines past a number, in order, without the truncation
mark. -/
def listRunLogs (primary : Primary) (runId : String) (afterSeq : Option Nat) (limit : Nat) : List RunLogLine :=
  (((primary.logs runId).rows.filter (fun row =>
      row.seq != runLogTruncatedSeq &&
        match afterSeq with
        | some seq => decide (seq < row.seq)
        | none => true)).insertionSort (fun left right => left.seq ≤ right.seq)).take (max limit 1)

def recordAudit (entry : AuditEntry) (primary : Primary) : Primary :=
  { primary with audits := Function.update primary.audits entry.id (some entry) }

/-- `usage_record`: a repeat does nothing. -/
def usageRecord (record : UsageRecord) (primary : Primary) : Primary :=
  match primary.usage (record.runId, record.row) with
  | some _ => primary
  | none => { primary with usage := Function.update primary.usage (record.runId, record.row) (some record) }

end Primary

/-! ## Applying entries -/

/-- `checked_sub(1)`. -/
def checkedPred : Nat -> Option Nat
  | 0 => none
  | seq + 1 => some seq

/-- The instance that replays, and the lease it gives. -/
structure Replayer where
  instanceId : String
  leaseTtl : Nat

variable (server : Replayer)

/-- Write one run record. -/
def applyRun (now : Nat) (record : RunRecord) (primary : Primary) : Primary × Bool :=
  let lease := now + server.leaseTtl
  if record.status.isTerminal then
    match primary.runs record.runId with
    | none => primary.insertNew server.instanceId lease record
    | some _ => primary.finalizeOwned server.instanceId now lease record
  else
    match primary.runs record.runId with
    | none => primary.insertNew server.instanceId lease record
    | some current =>
        if current.record.status.isTerminal then (primary, false)
        else (primary.upsert server.instanceId lease record, true)

/-- The first line of a batch is already there. -/
def alreadyLogged (primary : Primary) (runId : String) (first : RunLogLine) : Bool :=
  match (primary.listRunLogs runId (checkedPred first.seq) 1).head? with
  | some line => line.seq == first.seq && line.line == first.line
  | none => false

/-- Write one entry, and whether it was applied rather than skipped. -/
def applyEntry (now : Nat) (primary : Primary) : Entry -> Primary × Bool
  | .run record => applyRun server now record primary
  | .audit entry =>
      match primary.audits entry.id with
      | some _ => (primary, false)
      | none => (primary.recordAudit entry, true)
  | .log runId lines =>
      match lines with
      | [] => (primary, false)
      | first :: _ =>
          if alreadyLogged primary runId first then (primary, false) else (primary.recordRunLogs runId lines, true)
  | .usage record => (primary.usageRecord record, true)

/-- The newest record of each run counts, in the place of the first. -/
def placeRun (runs : List RunRecord) (record : RunRecord) : List RunRecord :=
  if runs.any (fun other => other.runId == record.runId) then
    runs.map (fun other => if other.runId = record.runId then record else other)
  else runs ++ [record]

def asRun : Entry -> Option RunRecord
  | .run record => some record
  | _ => none

def newestRuns (entries : List Entry) : List RunRecord := (entries.filterMap asRun).foldl placeRun []

/-- The order in which a journal is applied: runs first, then the rest. -/
def replayOrder (entries : List Entry) : List Entry :=
  (newestRuns entries).map Entry.run ++ entries.filter (fun entry => (asRun entry).isNone)

/-- What a replay did, by kind. -/
structure Replayed where
  applied : Kind -> Nat
  skipped : Kind -> Nat

def Replayed.count (out : Replayed) (kind : Kind) (done : Bool) : Replayed :=
  if done then { out with applied := Function.update out.applied kind (out.applied kind + 1) }
  else { out with skipped := Function.update out.skipped kind (out.skipped kind + 1) }

/-- A log entry without lines is passed over uncounted. -/
def Replayed.note (out : Replayed) (entry : Entry) (done : Bool) : Replayed :=
  match entry with
  | .log _ [] => out
  | _ => out.count entry.kind done

/-- Apply entries one after the other, each with its own reading of the
clock. -/
def applyEntries (clock : Nat -> Nat) : List Entry -> Primary × Replayed -> Primary × Replayed
  | [], state => state
  | entry :: rest, (primary, out) =>
      let (next, done) := applyEntry server (clock 0) primary entry
      applyEntries (fun turn => clock (turn + 1)) rest (next, out.note entry done)

def Replayed.none : Replayed := ⟨fun _ => 0, fun _ => 0⟩

/-- `apply`. -/
def applyJournal (clock : Nat -> Nat) (primary : Primary) (entries : List Entry) : Primary × Replayed :=
  applyEntries server clock (replayOrder entries) (primary, .none)

/-- A replay that stops after some of its writes. -/
def applyPartly (clock : Nat -> Nat) (primary : Primary) (entries : List Entry) (count : Nat) : Primary :=
  (applyEntries server clock ((replayOrder entries).take count) (primary, .none)).1

/-! ## Runs keep their owner -/

/-- What a replayed record makes of the row of its run. -/
def runAfter (now : Nat) (record : RunRecord) : Option RunRow -> Option RunRow
  | none => some (Primary.upsertRow server.instanceId (now + server.leaseTtl) record none)
  | some row =>
      if row.record.status.isTerminal then some row
      else if record.status.isTerminal then
        if row.owner = some server.instanceId then
          some { row with
            record := Primary.stampFinished now record, leaseExpiresAt := now + server.leaseTtl }
        else some row
      else some (Primary.upsertRow server.instanceId (now + server.leaseTtl) record (some row))

/-- A replayed record writes the row of its run and nothing else. -/
theorem applyRun_eq (now : Nat) (record : RunRecord) (primary : Primary) :
    (applyRun server now record primary).1 =
      { primary with
        runs := Function.update primary.runs record.runId
          (runAfter server now record (primary.runs record.runId)) } := by
  unfold applyRun
  cases found : primary.runs record.runId with
  | none =>
      simp only [Primary.insertNew, found, runAfter]
      split <;> rfl
  | some row =>
      have same : { primary with runs := Function.update primary.runs record.runId (some row) } = primary := by
        rw [← found, Function.update_eq_self]
      simp only [Primary.finalizeOwned, Primary.upsert, found, runAfter]
      by_cases ended : row.record.status.isTerminal = true
      · simp only [ended, if_true, Bool.true_eq_false, and_false, if_false]
        split <;> exact same.symm
      · rw [Bool.not_eq_true] at ended
        by_cases terminal : record.status.isTerminal = true
        · by_cases owned : row.owner = some server.instanceId
          · simp only [ended, terminal, owned, if_true, Bool.false_eq_true, if_false, and_self]
          · simp only [ended, terminal, owned, if_true, Bool.false_eq_true, if_false, false_and]
            exact same.symm
        · rw [Bool.not_eq_true] at terminal
          simp only [ended, terminal, Bool.false_eq_true, if_false]

/-- The other entries leave the runs alone, and do not depend on them. -/
theorem applyEntry_frame {entry : Entry} (other : asRun entry = none) (now now' : Nat) (primary : Primary)
    (runs : String -> Option RunRow) :
    (applyEntry server now { primary with runs := runs } entry).1 =
      { (applyEntry server now' primary entry).1 with runs := runs } := by
  cases entry with
  | run record => cases other
  | audit entry =>
      simp only [applyEntry]
      cases primary.audits entry.id with
      | none => rfl
      | some held => rfl
  | usage record =>
      simp only [applyEntry, Primary.usageRecord]
      cases primary.usage (record.runId, record.row) with
      | none => rfl
      | some held => rfl
  | log runId lines =>
      cases lines with
      | nil => rfl
      | cons first rest =>
          have listed : alreadyLogged { primary with runs := runs } runId first =
              alreadyLogged primary runId first := rfl
          simp only [applyEntry, listed]
          split <;> rfl

theorem applyEntry_runs_of_other {entry : Entry} (other : asRun entry = none) (now : Nat) (primary : Primary) :
    (applyEntry server now primary entry).1.runs = primary.runs := by
  have framed : (applyEntry server now primary entry).1 =
      { (applyEntry server now primary entry).1 with runs := primary.runs } :=
    applyEntry_frame server other now now primary primary.runs
  rw [framed]

/-- The tables after a list of entries. -/
def applied (clock : Nat -> Nat) : List Entry -> Primary -> Primary
  | [], primary => primary
  | entry :: rest, primary =>
      applied (fun turn => clock (turn + 1)) rest (applyEntry server (clock 0) primary entry).1

theorem applyEntries_fst (clock : Nat -> Nat) (entries : List Entry) (primary : Primary) (out : Replayed) :
    (applyEntries server clock entries (primary, out)).1 = applied server clock entries primary := by
  induction entries generalizing clock primary out with
  | nil => rfl
  | cons entry rest ih => exact ih _ _ _

theorem applied_append (clock : Nat -> Nat) (first second : List Entry) (primary : Primary) :
    applied server clock (first ++ second) primary =
      applied server (fun turn => clock (turn + first.length)) second (applied server clock first primary) := by
  induction first generalizing clock primary with
  | nil => rfl
  | cons entry rest ih =>
      rw [List.cons_append, applied, ih, applied, List.length_cons]
      rfl

theorem applyEntry_runs_of_ne {entry : Entry} {id : String} (now : Nat) (primary : Primary)
    (apart : forall record, entry = .run record -> record.runId ≠ id) :
    (applyEntry server now primary entry).1.runs id = primary.runs id := by
  cases isRun : asRun entry with
  | none => rw [applyEntry_runs_of_other server isRun]
  | some record =>
      cases entry with
      | run other =>
          have written : (applyEntry server now primary (.run other)).1 = _ := applyRun_eq server now other primary
          rw [written]
          exact Function.update_of_ne (Ne.symm (apart other rfl)) _ _
      | audit other => cases isRun
      | usage other => cases isRun
      | log runId lines => cases isRun

theorem applied_runs_of_not_mem {id : String} (clock : Nat -> Nat) (entries : List Entry) (primary : Primary)
    (apart : forall record, Entry.run record ∈ entries -> record.runId ≠ id) :
    (applied server clock entries primary).runs id = primary.runs id := by
  induction entries generalizing clock primary with
  | nil => rfl
  | cons entry rest ih =>
      rw [applied, ih]
      · apply applyEntry_runs_of_ne
        rintro record rfl
        exact apart record List.mem_cons_self
      · intro record member
        exact apart record (List.mem_cons_of_mem entry member)

/-- Two entries that are not records of one run. -/
def Apart (left right : Entry) : Prop :=
  forall first second, left = .run first -> right = .run second -> first.runId ≠ second.runId

theorem Apart.symm {left right : Entry} (apart : Apart left right) : Apart right left :=
  fun first second isFirst isSecond => (apart second first isSecond isFirst).symm

/-- A run record of the list is what decides the row of its run. -/
theorem applied_runs_of_mem {record : RunRecord} (clock : Nat -> Nat) (entries : List Entry) (primary : Primary)
    (apart : entries.Pairwise Apart) (member : Entry.run record ∈ entries) :
    exists now, (applied server clock entries primary).runs record.runId =
      runAfter server now record (primary.runs record.runId) := by
  induction entries generalizing clock primary with
  | nil => cases member
  | cons entry rest ih =>
      rcases List.pairwise_cons.mp apart with ⟨fromFirst, restApart⟩
      rw [applied]
      rcases List.mem_cons.mp member with same | later
      · subst same
        refine ⟨clock 0, ?_⟩
        rw [applied_runs_of_not_mem]
        · have written : (applyEntry server (clock 0) primary (.run record)).1 = _ :=
            applyRun_eq server (clock 0) record primary
          rw [written]
          exact Function.update_self _ _ _
        · intro other otherMember
          exact (fromFirst _ otherMember record other rfl rfl).symm
      · rcases ih (fun turn => clock (turn + 1)) (applyEntry server (clock 0) primary entry).1
          restApart later with ⟨now, decided⟩
        refine ⟨now, ?_⟩
        rw [decided, applyEntry_runs_of_ne]
        intro other isRun
        exact fromFirst _ later other record isRun rfl

theorem placeRun_nodup {runs : List RunRecord} (distinct : (runs.map RunRecord.runId).Nodup) (record : RunRecord) :
    ((placeRun runs record).map RunRecord.runId).Nodup := by
  unfold placeRun
  by_cases known : runs.any (fun other => other.runId == record.runId) = true
  · rw [if_pos known, List.map_map]
    have ids : runs.map (RunRecord.runId ∘ fun other => if other.runId = record.runId then record else other) =
        runs.map RunRecord.runId := by
      apply List.map_congr_left
      intro other _
      by_cases same : other.runId = record.runId
      · simp only [Function.comp_apply]
        rw [if_pos same, same]
      · simp only [Function.comp_apply, if_neg same]
    rw [ids]
    exact distinct
  · rw [if_neg known, List.map_append, List.nodup_append]
    refine ⟨distinct, List.nodup_singleton _, ?_⟩
    intro id held other single same
    rw [List.map_singleton, List.mem_singleton] at single
    apply known
    rcases List.mem_map.mp held with ⟨first, member, rfl⟩
    rw [List.any_eq_true]
    exact ⟨first, member, by rw [same, single, beq_self_eq_true]⟩

theorem newestRuns_nodup (entries : List Entry) : ((newestRuns entries).map RunRecord.runId).Nodup := by
  have folded : forall records runs : List RunRecord, (runs.map RunRecord.runId).Nodup ->
      ((records.foldl placeRun runs).map RunRecord.runId).Nodup := by
    intro records
    induction records with
    | nil =>
        intro runs distinct
        exact distinct
    | cons record rest ih =>
        intro runs distinct
        exact ih _ (placeRun_nodup distinct record)
  exact folded _ [] List.nodup_nil

theorem replayOrder_apart (entries : List Entry) : (replayOrder entries).Pairwise Apart := by
  unfold replayOrder
  rw [List.pairwise_append]
  refine ⟨?_, ?_, ?_⟩
  · rw [List.pairwise_map]
    have distinct := newestRuns_nodup entries
    rw [List.Nodup, List.pairwise_map] at distinct
    apply distinct.imp
    intro left right different first second isFirst isSecond
    cases isFirst
    cases isSecond
    exact different
  · apply List.Pairwise.imp_of_mem _ (List.pairwise_of_forall (fun _ _ => trivial))
    intro left right leftMember _ _ first second isFirst
    rw [List.mem_filter] at leftMember
    rw [isFirst] at leftMember
    cases leftMember.2
  · intro left _ right rightMember first second _ isSecond
    rw [List.mem_filter] at rightMember
    rw [isSecond] at rightMember
    cases rightMember.2

theorem run_mem_replayOrder {entries : List Entry} {record : RunRecord} :
    Entry.run record ∈ replayOrder entries <-> record ∈ newestRuns entries := by
  unfold replayOrder
  rw [List.mem_append, List.mem_map, List.mem_filter]
  constructor
  · rintro (⟨other, member, same⟩ | ⟨-, other⟩)
    · cases same
      exact member
    · cases other
  · intro member
    exact Or.inl ⟨record, member, rfl⟩

/-- The primary gives the run to another server, or holds it as over. -/
def Protected (row : RunRow) : Prop :=
  row.record.status.isTerminal = true ∨ exists owner, row.owner = some owner ∧ owner ≠ server.instanceId

/-- Only a record that is not terminal, of a run that is not ended, changes a
row of another server. -/
theorem runAfter_protected_iff (now : Nat) (record : RunRecord) {row : RunRow} (keeps : Protected server row) :
    runAfter server now record (some row) = some row <->
      (record.status.isTerminal = true ∨ row.record.status.isTerminal = true) := by
  simp only [runAfter]
  by_cases ended : row.record.status.isTerminal = true
  · rw [if_pos ended]
    exact ⟨fun _ => Or.inr ended, fun _ => rfl⟩
  · rcases keeps with terminal | ⟨owner, owned, other⟩
    · exact absurd terminal ended
    · have foreign : row.owner ≠ some server.instanceId := by
        rw [owned]
        intro same
        exact other (Option.some.inj same)
      rw [if_neg ended]
      by_cases terminal : record.status.isTerminal = true
      · rw [if_pos terminal, if_neg foreign]
        exact ⟨fun _ => Or.inl terminal, fun _ => rfl⟩
      · rw [if_neg terminal]
        constructor
        · intro same
          have owners := congrArg RunRow.owner (Option.some.inj same)
          exact absurd owners.symm foreign
        · rintro (impossible | impossible)
          · exact absurd impossible terminal
          · exact absurd impossible ended

/-- A replay leaves the rows of other servers and of runs that are ended alone
exactly when no journaled record that is still open meets an open run of
another server. -/
theorem protected_rows_kept_iff (clock : Nat -> Nat) (primary : Primary) (entries : List Entry) :
    (forall id row, primary.runs id = some row -> Protected server row ->
        (applyJournal server clock primary entries).1.runs id = some row) <->
      forall record, record ∈ newestRuns entries -> record.status.isTerminal = false ->
        forall row, primary.runs record.runId = some row -> Protected server row ->
          row.record.status.isTerminal = true := by
  unfold applyJournal
  rw [applyEntries_fst]
  constructor
  · intro kept record member opened row held keeps
    rcases applied_runs_of_mem server clock (replayOrder entries) primary (replayOrder_apart entries)
      (run_mem_replayOrder.mpr member) with ⟨now, decided⟩
    rw [kept record.runId row held keeps, held] at decided
    rcases (runAfter_protected_iff server now record keeps).mp decided.symm with terminal | ended
    · rw [opened] at terminal
      cases terminal
    · exact ended
  · intro spared id row held keeps
    by_cases journaled : exists record, record ∈ newestRuns entries ∧ record.runId = id
    · rcases journaled with ⟨record, member, rfl⟩
      rcases applied_runs_of_mem server clock (replayOrder entries) primary (replayOrder_apart entries)
        (run_mem_replayOrder.mpr member) with ⟨now, decided⟩
      rw [decided, held, runAfter_protected_iff server now record keeps]
      cases terminal : record.status.isTerminal with
      | true => exact Or.inl rfl
      | false => exact Or.inr (spared record member terminal row held keeps)
    · rw [applied_runs_of_not_mem, held]
      intro record member same
      exact journaled ⟨record, run_mem_replayOrder.mp member, same⟩

/-! ## Replaying again -/

/-- A record of a run that is over and does not say since when. -/
def RunRecord.undated (record : RunRecord) : Bool := record.status.isTerminal && record.finishedAt.isNone

/-- The runs whose finish time is the clock's. -/
def stampedRuns (entries : List Entry) (id : String) : Bool :=
  (newestRuns entries).any (fun record => record.runId == id && record.undated)

/-- A row without what the clock put there: the lease, and where `stamped` the
finish time. -/
def RunRow.withoutStamps (stamped : Bool) (row : RunRow) : RunRow :=
  { row with
    leaseExpiresAt := 0
    record := { row.record with finishedAt := if stamped then none else row.record.finishedAt } }

/-- Two primaries that differ in clock stamps only. -/
structure SameButStamps (stamped : String -> Bool) (left right : Primary) : Prop where
  runs : forall id, (left.runs id).map (RunRow.withoutStamps (stamped id)) =
    (right.runs id).map (RunRow.withoutStamps (stamped id))
  others : { left with runs := right.runs } = right

variable {stamped : String -> Bool}

theorem SameButStamps.refl (primary : Primary) : SameButStamps stamped primary primary := ⟨fun _ => rfl, rfl⟩

theorem SameButStamps.trans {first second third : Primary} (left : SameButStamps stamped first second)
    (right : SameButStamps stamped second third) : SameButStamps stamped first third := by
  refine ⟨fun id => (left.runs id).trans (right.runs id), ?_⟩
  rw [← right.others, ← left.others]

theorem runAfter_congr {now now' : Nat} {record : RunRecord} {left right : Option RunRow} {dated : Bool}
    (covers : record.undated = true -> dated = true)
    (same : left.map (RunRow.withoutStamps dated) = right.map (RunRow.withoutStamps dated)) :
    (runAfter server now record left).map (RunRow.withoutStamps dated) =
      (runAfter server now' record right).map (RunRow.withoutStamps dated) := by
  have stamped : forall turn, { Primary.stampFinished turn record with
      finishedAt := if dated then none else (Primary.stampFinished turn record).finishedAt } =
        { record with finishedAt := if dated then none else record.finishedAt } := by
    intro turn
    unfold Primary.stampFinished
    split
    · next undated =>
      rw [covers undated]
      rfl
    · rfl
  cases left with
  | none =>
      cases right with
      | none => rfl
      | some row => cases same
  | some first =>
      cases right with
      | none => cases same
      | some second =>
          have rows := Option.some.inj same
          have status : first.record.status = second.record.status :=
            congrArg (fun row => row.record.status) rows
          have owner : first.owner = second.owner := congrArg (fun row => row.owner) rows
          have submitted : first.submittedBy = second.submittedBy := congrArg (fun row => row.submittedBy) rows
          have labels : first.labels = second.labels := congrArg (fun row => row.labels) rows
          simp only [runAfter, status, owner]
          split
          · exact same
          · split
            · split
              · simp only [Option.map_some, RunRow.withoutStamps, stamped, submitted, labels]
              · exact same
            · simp only [Primary.upsertRow, Option.map_some, RunRow.withoutStamps, submitted, labels]

/-- One entry, on primaries that differ in stamps only. -/
theorem applyEntry_congr {left right : Primary} (same : SameButStamps stamped left right) (now now' : Nat)
    {entry : Entry}
    (covers : forall record, entry = .run record -> record.undated = true -> stamped record.runId = true) :
    SameButStamps stamped (applyEntry server now left entry).1 (applyEntry server now' right entry).1 := by
  cases isRun : asRun entry with
  | none =>
      have leftIs : left = { right with runs := left.runs } := by rw [← same.others]
      have framed : (applyEntry server now left entry).1 =
          { (applyEntry server now' right entry).1 with runs := left.runs } := by
        rw [leftIs]
        exact applyEntry_frame server isRun now now' right left.runs
      have rightRuns := applyEntry_runs_of_other server isRun now' right
      rw [framed]
      refine ⟨?_, ?_⟩
      · intro id
        rw [rightRuns]
        exact same.runs id
      · rfl
  | some record =>
      cases entry with
      | run other =>
          have leftIs : (applyEntry server now left (.run other)).1 = _ := applyRun_eq server now other left
          have rightIs : (applyEntry server now' right (.run other)).1 = _ := applyRun_eq server now' other right
          rw [leftIs, rightIs]
          refine ⟨?_, ?_⟩
          · intro id
            by_cases same' : id = other.runId
            · subst same'
              simp only [Function.update_self]
              exact runAfter_congr server (covers other rfl) (same.runs other.runId)
            · simp only [Function.update_of_ne same']
              exact same.runs id
          · have others := same.others
            cases left
            cases right
            cases others
            rfl
      | audit other => cases isRun
      | usage other => cases isRun
      | log runId lines => cases isRun

theorem applied_congr {left right : Primary} (same : SameButStamps stamped left right) (clock clock' : Nat -> Nat)
    {entries : List Entry}
    (covers : forall record, .run record ∈ entries -> record.undated = true -> stamped record.runId = true) :
    SameButStamps stamped (applied server clock entries left) (applied server clock' entries right) := by
  induction entries generalizing left right clock clock' with
  | nil => exact same
  | cons entry rest ih =>
      have next := applyEntry_congr server same (clock 0) (clock' 0)
        (fun record first => covers record (first ▸ List.mem_cons_self))
      exact ih next _ _ (fun record member => covers record (List.mem_cons_of_mem entry member))

/-- The first line of a batch that is in the table under its own number. -/
theorem alreadyLogged_iff (primary : Primary) (runId : String) (first : RunLogLine) :
    alreadyLogged primary runId first = true <->
      first.seq ≠ runLogTruncatedSeq ∧
        exists row, row ∈ (primary.logs runId).rows ∧ row.seq = first.seq ∧ row.line = first.line := by
  unfold alreadyLogged Primary.listRunLogs
  have past : forall row : RunLogLine, (match checkedPred first.seq with
      | some seq => decide (seq < row.seq)
      | none => true) = decide (first.seq ≤ row.seq) := by
    intro row
    cases first.seq with
    | zero => exact (decide_eq_true (Nat.zero_le row.seq)).symm
    | succ seq => rfl
  simp only [past]
  have members : forall row, row ∈ ((primary.logs runId).rows.filter (fun row =>
      row.seq != runLogTruncatedSeq && decide (first.seq ≤ row.seq))).insertionSort
        (fun left right => left.seq ≤ right.seq) <->
          row ∈ (primary.logs runId).rows ∧ row.seq ≠ runLogTruncatedSeq ∧ first.seq ≤ row.seq := by
    intro row
    rw [List.mem_insertionSort, List.mem_filter, Bool.and_eq_true, bne_iff_ne, decide_eq_true_iff]
  have sorted : (((primary.logs runId).rows.filter (fun row =>
      row.seq != runLogTruncatedSeq && decide (first.seq ≤ row.seq))).insertionSort
        (fun left right => left.seq ≤ right.seq)).Pairwise (fun left right => left.seq ≤ right.seq) :=
    List.pairwise_insertionSort _ _
  rw [List.head?_take, if_neg (by decide)]
  generalize ((primary.logs runId).rows.filter (fun row =>
    row.seq != runLogTruncatedSeq && decide (first.seq ≤ row.seq))).insertionSort
      (fun left right => left.seq ≤ right.seq) = listed at members sorted
  cases listed with
  | nil =>
      constructor
      · intro impossible
        cases impossible
      · rintro ⟨proper, row, member, same, -⟩
        have inside := (members row).mpr ⟨member, by rw [same]; exact proper, by rw [same]⟩
        cases inside
  | cons head tail =>
      simp only [List.head?_cons, Bool.and_eq_true, beq_iff_eq]
      rcases (members head).mp List.mem_cons_self with ⟨headMember, headProper, headPast⟩
      constructor
      · rintro ⟨sameSeq, sameLine⟩
        exact ⟨by rw [← sameSeq]; exact headProper, head, headMember, sameSeq, sameLine⟩
      · rintro ⟨proper, row, member, same, sameLine⟩
        have inside := (members row).mpr ⟨member, by rw [same]; exact proper, by rw [same]⟩
        have below : head.seq ≤ row.seq := by
          rcases List.mem_cons.mp inside with rfl | later
          · exact Nat.le_refl _
          · exact (List.pairwise_cons.mp sorted).1 row later
        have equal : head.seq = row.seq := by omega
        have rows : head = row :=
          List.inj_on_of_nodup_map (primary.logs runId).distinct headMember member equal
        exact ⟨by rw [rows, same], by rw [rows, sameLine]⟩

theorem RunLogs.mem_insert {logs : RunLogs} {line row : RunLogLine} (held : row ∈ logs.rows) :
    row ∈ (logs.insert line).rows := by
  unfold RunLogs.insert
  split
  · exact List.mem_append_left _ held
  · exact held

theorem RunLogs.insert_free {logs : RunLogs} {line : RunLogLine} (free : logs.holds line.seq = false) :
    line ∈ (logs.insert line).rows := by
  unfold RunLogs.insert
  rw [dif_pos free]
  exact List.mem_append_right _ (List.mem_singleton_self line)

theorem mem_writeLine {state : RunLogs × Option Nat} {line row : RunLogLine} (held : row ∈ state.1.rows) :
    row ∈ (Primary.writeLine state line).1.rows := by
  unfold Primary.writeLine
  split
  · exact held
  · exact RunLogs.mem_insert held

theorem mem_foldl_writeLine {state : RunLogs × Option Nat} {row : RunLogLine} (lines : List RunLogLine)
    (held : row ∈ state.1.rows) : row ∈ (lines.foldl Primary.writeLine state).1.rows := by
  induction lines generalizing state with
  | nil => exact held
  | cons line rest ih => exact ih (mem_writeLine held)

/-- A number below the truncation mark that is free is the one a line gets. -/
theorem writeLine_own {state : RunLogs × Option Nat} {line : RunLogLine} (below : line.seq < runLogTruncatedSeq)
    (free : state.1.holds line.seq = false) : line ∈ (Primary.writeLine state line).1.rows := by
  have probed : Primary.probe state.1 line = some line.seq := by
    have reach : min (line.seq + 0) runLogTruncatedSeq = line.seq := Nat.min_eq_left (Nat.le_of_lt below)
    have first : List.range seqProbes = 0 :: (List.range 15).map Nat.succ := List.range_succ_eq_map
    unfold Primary.probe
    simp only
    rw [if_neg (Nat.ne_of_lt below), first, List.map_cons, List.find?_cons, reach, free]
    rfl
  unfold Primary.writeLine
  rw [probed]
  exact RunLogs.insert_free free

/-- The truncation mark is written once. -/
theorem probe_mark {logs : RunLogs} {line : RunLogLine} (mark : line.seq = runLogTruncatedSeq) :
    Primary.probe logs line = if logs.holds runLogTruncatedSeq then none else some runLogTruncatedSeq := by
  unfold Primary.probe
  rw [if_pos mark, mark]
  cases held : logs.holds runLogTruncatedSeq <;> simp [List.range_succ, held]

theorem foldl_writeLine_marks {logs : RunLogs} {lines : List RunLogLine}
    (marks : forall line, line ∈ lines -> line.seq = runLogTruncatedSeq)
    (held : logs.holds runLogTruncatedSeq = true) : lines.foldl Primary.writeLine (logs, none) = (logs, none) := by
  induction lines with
  | nil => rfl
  | cons line rest ih =>
      have unwritten : Primary.writeLine (logs, none) line = (logs, none) := by
        unfold Primary.writeLine
        rw [probe_mark (marks line List.mem_cons_self), if_pos held]
      rw [List.foldl_cons, unwritten]
      exact ih (fun other member => marks other (List.mem_cons_of_mem line member))

theorem writeLine_mark {state : RunLogs × Option Nat} {line : RunLogLine} (mark : line.seq = runLogTruncatedSeq) :
    (Primary.writeLine state line).1.holds runLogTruncatedSeq = true := by
  unfold Primary.writeLine
  rw [probe_mark mark]
  cases held : state.1.holds runLogTruncatedSeq with
  | true => exact held
  | false =>
      rw [if_neg Bool.false_ne_true, RunLogs.holds_iff]
      apply List.mem_map.mpr
      exact ⟨{ line with seq := runLogTruncatedSeq }, RunLogs.insert_free held, rfl⟩

theorem holds_foldl_writeLine {state : RunLogs × Option Nat} {seq : Nat} (lines : List RunLogLine)
    (held : state.1.holds seq = true) : (lines.foldl Primary.writeLine state).1.holds seq = true := by
  rw [RunLogs.holds_iff] at held ⊢
  rcases List.mem_map.mp held with ⟨row, member, rfl⟩
  exact List.mem_map.mpr ⟨row, mem_foldl_writeLine lines member, rfl⟩

theorem recordRunLogs_logs (primary : Primary) (runId : String) (lines : List RunLogLine) :
    (primary.recordRunLogs runId lines).logs =
      Function.update primary.logs runId (lines.foldl Primary.writeLine (primary.logs runId, none)).1 := rfl

/-! ## Entries that are settled -/

/-- A log batch can be told from what the table holds: the number of its first
line is free or holds that very line, or it is nothing but truncation marks. -/
def Recognisable (primary : Primary) : Entry -> Prop
  | .log runId (first :: rest) =>
      (first.seq < runLogTruncatedSeq ∧
        forall row, row ∈ (primary.logs runId).rows -> row.seq = first.seq -> row.line = first.line) ∨
      forall line, line ∈ first :: rest -> line.seq = runLogTruncatedSeq
  | _ => True

/-- Every entry is recognisable when its turn comes. -/
def AllRecognisable (clock : Nat -> Nat) : List Entry -> Primary -> Prop
  | [], _ => True
  | entry :: rest, primary =>
      Recognisable primary entry ∧
        AllRecognisable (fun turn => clock (turn + 1)) rest (applyEntry server (clock 0) primary entry).1

/-- The primary holds what the entry would write. -/
def Settled (stamped : String -> Bool) (primary : Primary) : Entry -> Prop
  | .run record => forall now,
      (runAfter server now record (primary.runs record.runId)).map (RunRow.withoutStamps (stamped record.runId)) =
        (primary.runs record.runId).map (RunRow.withoutStamps (stamped record.runId))
  | .audit entry => (primary.audits entry.id).isSome = true
  | .usage record => (primary.usage (record.runId, record.row)).isSome = true
  | .log _ [] => True
  | .log runId (first :: rest) =>
      alreadyLogged primary runId first = true ∨
        ((forall line, line ∈ first :: rest -> line.seq = runLogTruncatedSeq) ∧
          (primary.logs runId).holds runLogTruncatedSeq = true)

/-- Replaying a record twice leaves the row of replaying it once. -/
theorem runAfter_settles (now later : Nat) (record : RunRecord) (row : Option RunRow) (dated : Bool) :
    (runAfter server later record (runAfter server now record row)).map (RunRow.withoutStamps dated) =
      (runAfter server now record row).map (RunRow.withoutStamps dated) := by
  have coalesced : forall stored : Option String,
      (record.submittedBy <|> (record.submittedBy <|> stored)) = (record.submittedBy <|> stored) := by
    intro stored
    cases record.submittedBy <;> rfl
  have filled : forall stored : List (String × String),
      (if (if stored.isEmpty then record.labels else stored).isEmpty then record.labels
        else if stored.isEmpty then record.labels else stored) =
          if stored.isEmpty then record.labels else stored := by
    intro stored
    cases stored with
    | nil => simp only [List.isEmpty_nil, if_true, ite_self]
    | cons label rest => rfl
  have finished : (Primary.stampFinished now record).status = record.status := by
    unfold Primary.stampFinished
    split <;> rfl
  cases row with
  | none =>
      simp only [runAfter, Primary.upsertRow]
      cases terminal : record.status.isTerminal with
      | true => simp only [if_true]
      | false =>
          simp only [Bool.false_eq_true, if_false, Option.map_some, RunRow.withoutStamps]
          congr 2
          · cases record.submittedBy <;> rfl
          · exact ite_self _
  | some row =>
      by_cases ended : row.record.status.isTerminal = true
      · simp only [runAfter, if_pos ended]
      · by_cases terminal : record.status.isTerminal = true
        · by_cases owned : row.owner = some server.instanceId
          · simp only [runAfter, if_neg ended, if_pos terminal, if_pos owned, finished]
          · simp only [runAfter, if_neg ended, if_pos terminal, if_neg owned]
        · simp only [runAfter, if_neg ended, if_neg terminal, Primary.upsertRow, Option.map_some,
            RunRow.withoutStamps, coalesced, filled]

/-- Once applied, an entry that could be recognised is settled. -/
theorem settled_after (now : Nat) (primary : Primary) {entry : Entry} (recognisable : Recognisable primary entry) :
    Settled server stamped (applyEntry server now primary entry).1 entry := by
  cases entry with
  | run record =>
      intro later
      have written : (applyEntry server now primary (.run record)).1 = _ := applyRun_eq server now record primary
      rw [written]
      simp only [Function.update_self]
      exact runAfter_settles server now later record (primary.runs record.runId) _
  | audit entry =>
      simp only [Settled, applyEntry]
      cases held : primary.audits entry.id with
      | some stored =>
          simp only [held]
          rfl
      | none =>
          simp only [Primary.recordAudit, Function.update_self]
          rfl
  | usage record =>
      simp only [Settled, applyEntry, Primary.usageRecord]
      cases held : primary.usage (record.runId, record.row) with
      | some stored =>
          simp only [held]
          rfl
      | none =>
          simp only [Function.update_self]
          rfl
  | log runId lines =>
      cases lines with
      | nil => trivial
      | cons first rest =>
          simp only [Settled, applyEntry]
          cases logged : alreadyLogged primary runId first with
          | true => exact Or.inl (by rw [if_pos rfl]; exact logged)
          | false =>
              rw [if_neg Bool.false_ne_true]
              rcases recognisable with ⟨below, own⟩ | marks
              · left
                have free : (primary.logs runId).holds first.seq = false := by
                  rw [Bool.eq_false_iff]
                  intro taken
                  rcases List.mem_map.mp (RunLogs.holds_iff.mp taken) with ⟨row, member, same⟩
                  have found := (alreadyLogged_iff primary runId first).mpr
                    ⟨Nat.ne_of_lt below, row, member, same, own row member same⟩
                  rw [logged] at found
                  cases found
                rw [alreadyLogged_iff, recordRunLogs_logs, Function.update_self]
                refine ⟨Nat.ne_of_lt below, first, ?_, rfl, rfl⟩
                rw [List.foldl_cons]
                exact mem_foldl_writeLine rest (writeLine_own below free)
              · right
                refine ⟨marks, ?_⟩
                rw [recordRunLogs_logs, Function.update_self, List.foldl_cons]
                exact holds_foldl_writeLine rest (writeLine_mark (marks first List.mem_cons_self))

/-- A settled entry writes nothing. -/
theorem applyEntry_of_settled (now : Nat) {primary : Primary} {entry : Entry}
    (settled : Settled server stamped primary entry) :
    SameButStamps stamped (applyEntry server now primary entry).1 primary := by
  cases entry with
  | run record =>
      have written : (applyEntry server now primary (.run record)).1 = _ := applyRun_eq server now record primary
      rw [written]
      refine ⟨?_, rfl⟩
      intro id
      by_cases same : id = record.runId
      · subst same
        simp only [Function.update_self]
        exact settled now
      · simp only [Function.update_of_ne same]
  | audit entry =>
      rcases Option.isSome_iff_exists.mp settled with ⟨stored, held⟩
      simp only [applyEntry, held]
      exact SameButStamps.refl primary
  | usage record =>
      rcases Option.isSome_iff_exists.mp settled with ⟨stored, held⟩
      simp only [applyEntry, Primary.usageRecord, held]
      exact SameButStamps.refl primary
  | log runId lines =>
      cases lines with
      | nil => exact SameButStamps.refl primary
      | cons first rest =>
          simp only [applyEntry]
          cases logged : alreadyLogged primary runId first with
          | true =>
              rw [if_pos rfl]
              exact SameButStamps.refl primary
          | false =>
              rw [if_neg Bool.false_ne_true]
              rcases settled with found | ⟨marks, held⟩
              · rw [logged] at found
                cases found
              · have unwritten : primary.recordRunLogs runId (first :: rest) = primary := by
                  unfold Primary.recordRunLogs
                  rw [foldl_writeLine_marks marks held]
                  simp only [Function.update_eq_self]
                rw [unwritten]
                exact SameButStamps.refl primary

/-- What an entry adds to the tables stays there. -/
theorem applyEntry_adds (now : Nat) (primary : Primary) (entry : Entry) :
    (forall id, (primary.audits id).isSome = true ->
      ((applyEntry server now primary entry).1.audits id).isSome = true) ∧
    (forall key, (primary.usage key).isSome = true ->
      ((applyEntry server now primary entry).1.usage key).isSome = true) ∧
    forall runId row, row ∈ (primary.logs runId).rows ->
      row ∈ ((applyEntry server now primary entry).1.logs runId).rows := by
  cases entry with
  | run record =>
      have written : (applyEntry server now primary (.run record)).1 = _ := applyRun_eq server now record primary
      rw [written]
      exact ⟨fun _ held => held, fun _ held => held, fun _ _ held => held⟩
  | audit entry =>
      simp only [applyEntry]
      cases primary.audits entry.id with
      | some stored => exact ⟨fun _ held => held, fun _ held => held, fun _ _ held => held⟩
      | none =>
          refine ⟨?_, fun _ held => held, fun _ _ held => held⟩
          intro id held
          by_cases same : id = entry.id
          · subst same
            simp only [Primary.recordAudit, Function.update_self]
            rfl
          · simp only [Primary.recordAudit, Function.update_of_ne same]
            exact held
  | usage record =>
      simp only [applyEntry, Primary.usageRecord]
      cases primary.usage (record.runId, record.row) with
      | some stored => exact ⟨fun _ held => held, fun _ held => held, fun _ _ held => held⟩
      | none =>
          refine ⟨fun _ held => held, ?_, fun _ _ held => held⟩
          intro key held
          by_cases same : key = (record.runId, record.row)
          · subst same
            simp only [Function.update_self]
            rfl
          · simp only [Function.update_of_ne same]
            exact held
  | log runId lines =>
      cases lines with
      | nil => exact ⟨fun _ held => held, fun _ held => held, fun _ _ held => held⟩
      | cons first rest =>
          simp only [applyEntry]
          split
          · exact ⟨fun _ held => held, fun _ held => held, fun _ _ held => held⟩
          · refine ⟨fun _ held => held, fun _ held => held, ?_⟩
            intro other row held
            rw [recordRunLogs_logs]
            by_cases same : other = runId
            · subst same
              rw [Function.update_self]
              exact mem_foldl_writeLine _ held
            · rw [Function.update_of_ne same]
              exact held

/-- A settled entry stays settled while other entries are applied. -/
theorem settled_keep (now : Nat) {primary : Primary} {entry other : Entry}
    (settled : Settled server stamped primary entry)
    (apart : Apart other entry) : Settled server stamped (applyEntry server now primary other).1 entry := by
  rcases applyEntry_adds server now primary other with ⟨audits, usage, logs⟩
  cases entry with
  | run record =>
      intro later
      rw [applyEntry_runs_of_ne server now primary (fun written isRun => apart written record isRun rfl)]
      exact settled later
  | audit entry => exact audits entry.id settled
  | usage record => exact usage (record.runId, record.row) settled
  | log runId lines =>
      cases lines with
      | nil => trivial
      | cons first rest =>
          rcases settled with logged | ⟨marks, held⟩
          · left
            rcases (alreadyLogged_iff primary runId first).mp logged with ⟨proper, row, member, same, line⟩
            exact (alreadyLogged_iff _ runId first).mpr ⟨proper, row, logs runId row member, same, line⟩
          · right
            refine ⟨marks, ?_⟩
            rcases List.mem_map.mp (RunLogs.holds_iff.mp held) with ⟨row, member, same⟩
            exact RunLogs.holds_iff.mpr (List.mem_map.mpr ⟨row, logs runId row member, same⟩)

theorem settled_applied (clock : Nat -> Nat) {entries : List Entry} {primary : Primary} {entry : Entry}
    (settled : Settled server stamped primary entry) (apart : forall other, other ∈ entries -> Apart other entry) :
    Settled server stamped (applied server clock entries primary) entry := by
  induction entries generalizing clock primary with
  | nil => exact settled
  | cons other rest ih =>
      apply ih
      · exact settled_keep server _ settled (apart other List.mem_cons_self)
      · intro later member
        exact apart later (List.mem_cons_of_mem other member)

/-- A pass over recognisable entries settles all of them. -/
theorem all_settled (clock : Nat -> Nat) {entries : List Entry} {primary : Primary}
    (recognisable : AllRecognisable server clock entries primary) (apart : entries.Pairwise Apart) :
    forall entry, entry ∈ entries -> Settled server stamped (applied server clock entries primary) entry := by
  induction entries generalizing clock primary with
  | nil =>
      intro entry member
      cases member
  | cons first rest ih =>
      rcases List.pairwise_cons.mp apart with ⟨fromFirst, restApart⟩
      intro entry member
      rw [applied]
      rcases List.mem_cons.mp member with rfl | later
      · apply settled_applied server _ (settled_after server _ primary recognisable.1)
        intro other otherMember
        exact (fromFirst other otherMember).symm
      · exact ih _ recognisable.2 restApart entry later

/-- Settled entries can be applied again without effect. -/
theorem applied_of_settled (clock : Nat -> Nat) {entries : List Entry} {primary : Primary}
    (settled : forall entry, entry ∈ entries -> Settled server stamped primary entry) (apart : entries.Pairwise Apart) :
    SameButStamps stamped (applied server clock entries primary) primary := by
  induction entries generalizing clock primary with
  | nil => exact SameButStamps.refl primary
  | cons first rest ih =>
      rcases List.pairwise_cons.mp apart with ⟨fromFirst, restApart⟩
      have written := applyEntry_of_settled server (clock 0) (settled first List.mem_cons_self)
      refine SameButStamps.trans (ih (fun turn => clock (turn + 1)) ?_ restApart) written
      intro entry member
      exact settled_keep server _ (settled entry (List.mem_cons_of_mem first member)) (fromFirst entry member)

theorem AllRecognisable.take {clock : Nat -> Nat} {entries : List Entry} {primary : Primary} (count : Nat)
    (recognisable : AllRecognisable server clock entries primary) :
    AllRecognisable server clock (entries.take count) primary := by
  induction entries generalizing clock primary count with
  | nil =>
      rw [List.take_nil]
      exact recognisable
  | cons entry rest ih =>
      cases count with
      | zero => trivial
      | succ count => exact ⟨recognisable.1, ih count recognisable.2⟩

/-- A replay after one that stopped anywhere ends where a single replay does. -/
theorem applied_again (first second whole : Nat -> Nat) {entries : List Entry} {primary : Primary} (count : Nat)
    (recognisable : AllRecognisable server first entries primary) (apart : entries.Pairwise Apart)
    (covers : forall record, .run record ∈ entries -> record.undated = true -> stamped record.runId = true) :
    SameButStamps stamped (applied server second entries (applied server first (entries.take count) primary))
      (applied server whole entries primary) := by
  have partlyApart : (entries.take count).Pairwise Apart := apart.sublist (List.take_sublist count entries)
  have again : SameButStamps stamped _ _ := applied_of_settled server second
    (all_settled server first (recognisable.take server count) partlyApart) partlyApart
  have same : SameButStamps stamped primary primary := SameButStamps.refl primary
  have start := applied_congr server same first whole
    (fun record (member : .run record ∈ entries.take count) => covers record (List.mem_of_mem_take member))
  have split : forall clock start, applied server clock entries start =
      applied server (fun turn => clock (turn + (entries.take count).length)) (entries.drop count)
        (applied server clock (entries.take count) start) := by
    intro clock start
    rw [← applied_append, List.take_append_drop]
  rw [split second, split whole]
  exact applied_congr server (again.trans start) _ _ (fun record member => covers record (List.mem_of_mem_drop member))

/-- Replaying the journal of one server.  Rows of other servers and of runs
that are over stay as they are exactly when no journaled record that is still
open meets an open run of another server.  A journal whose log batches can be
recognised may be replayed again after a replay that stopped anywhere. -/
theorem replay_spares_and_repeats (first second whole : Nat -> Nat) (primary : Primary) (entries : List Entry)
    (count : Nat) :
    ((forall id row, primary.runs id = some row -> Protected server row ->
        (applyJournal server whole primary entries).1.runs id = some row) <->
      forall record, record ∈ newestRuns entries -> record.status.isTerminal = false ->
        forall row, primary.runs record.runId = some row -> Protected server row ->
          row.record.status.isTerminal = true) ∧
    (AllRecognisable server first (replayOrder entries) primary ->
      SameButStamps (stampedRuns entries) (applyJournal server second
        (applyPartly server first primary entries count) entries).1
        (applyJournal server whole primary entries).1) := by
  constructor
  · exact protected_rows_kept_iff server whole primary entries
  · intro recognisable
    unfold applyJournal applyPartly
    rw [applyEntries_fst, applyEntries_fst, applyEntries_fst]
    apply applied_again server first second whole count recognisable (replayOrder_apart entries)
    intro record member undated
    exact List.any_eq_true.mpr ⟨record, run_mem_replayOrder.mp member, by rw [beq_self_eq_true, undated]; rfl⟩

/-- A run of the sample primary. -/
def sampleRun (status : RunStatus) : RunRecord := ⟨"r1", status, none, none, [], .null⟩

def samplePrimary (owner : String) (rows : RunLogs) : Primary where
  runs id := if id = "r1" then some ⟨sampleRun .running, some owner, 0, none, []⟩ else none
  audits _ := none
  logs id := if id = "r1" then rows else RunLogs.empty
  totalSeq _ := none
  persistedSeq _ := none
  usage _ := none

def sampleLine (line : String) : RunLogLine := ⟨0, "", "INFO", line, []⟩

theorem replay_spares_and_repeats_sample :
    SameButStamps (stampedRuns [.run (sampleRun .completed), .log "r1" [sampleLine "x"]])
      (applyJournal ⟨"a", 60⟩ id
        (applyPartly ⟨"a", 60⟩ id (samplePrimary "b" RunLogs.empty)
          [.run (sampleRun .completed), .log "r1" [sampleLine "x"]] 1)
        [.run (sampleRun .completed), .log "r1" [sampleLine "x"]]).1
      (applyJournal ⟨"a", 60⟩ id (samplePrimary "b" RunLogs.empty)
        [.run (sampleRun .completed), .log "r1" [sampleLine "x"]]).1 := by
  apply (replay_spares_and_repeats ⟨"a", 60⟩ id id id (samplePrimary "b" RunLogs.empty)
    [.run (sampleRun .completed), .log "r1" [sampleLine "x"]] 1).2
  refine ⟨trivial, Or.inl ⟨by decide, ?_⟩, trivial⟩
  intro row member
  cases member

/-- A run a peer runs is taken back by a journaled record that is still open,
and a log line whose number holds another line is written once more by every
replay. -/
theorem reclaimed_run_taken_back :
    (Protected ⟨"a", 60⟩ ⟨sampleRun .running, some "b", 0, none, []⟩ ∧
      (applyJournal ⟨"a", 60⟩ id (samplePrimary "b" RunLogs.empty) [.run (sampleRun .running)]).1.runs "r1" ≠
        (samplePrimary "b" RunLogs.empty).runs "r1") ∧
    ¬SameButStamps (stampedRuns [.log "r1" [sampleLine "x"]])
      (applyJournal ⟨"a", 60⟩ id
        (applyPartly ⟨"a", 60⟩ id (samplePrimary "a" (RunLogs.empty.insert (sampleLine "y")))
          [.log "r1" [sampleLine "x"]] 1)
        [.log "r1" [sampleLine "x"]]).1
      (applyJournal ⟨"a", 60⟩ id (samplePrimary "a" (RunLogs.empty.insert (sampleLine "y")))
        [.log "r1" [sampleLine "x"]]).1 := by
  refine ⟨⟨Or.inr ⟨"b", rfl, by decide⟩, ?_⟩, ?_⟩
  · intro same
    have owners := congrArg (fun row => row.bind RunRow.owner) same
    exact absurd (show some "a" = some "b" from owners) (by decide)
  · intro same
    have counts := congrArg (fun primary => (primary.logs "r1").rows.length) same.others
    exact absurd (show 3 = 2 from counts) (by decide)

end History
end FaucetStream
