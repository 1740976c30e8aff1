import Mathlib.Logic.Function.Basic
import FaucetStream.Library.Lines
import FaucetStream.Logship.Export

namespace FaucetStream
namespace Logship

open Library

/-!
# The spool

Per run the spool keeps a segment of log lines, the run's metadata and a
cursor: the byte offset just past the last delivered or dropped line, with the
counters that go with it.  The writer appends to the segment through a buffer;
a shipping pass reads on from the offset, applies the size and age bounds,
exports, and removes what has settled for long enough.
-/

abbrev Bytes : Type := List UInt8

def newline : UInt8 := 10

def SYNC_EVERY : Nat := 1024

def MAX_LINES_PER_PASS : Nat := 8 * BATCH_LINES

/-- The capacity of the buffer in front of a segment. -/
def BUFFER_BYTES : Nat := 8 * 1024

/-- The functions of other crates that the spool calls. -/
structure Host where
  encode : ShipLine -> Bytes
  decode : Bytes -> Option ShipLine
  /-- The text shown for a line that cannot be decoded. -/
  lossy : Bytes -> String
  /-- An RFC 3339 time, in nanoseconds. -/
  parseTime : String -> Option Int
  redact : String -> String

variable (host : Host)

/-- The line takes up one line of the segment and can be read back. -/
structure Host.Faithful (line : ShipLine) : Prop where
  clean : newline ∉ host.encode line
  readable : host.decode (host.encode line ++ [newline]) = some line

structure RunMeta where
  runId : String
  attrs : List (String × String) := []
  startedAt : Option Int := none
  endedAt : Option Int := none
  /-- Highest sequence written. -/
  lastSeq : Nat := 0
  capped : Nat := 0
  queueDropped : Nat := 0

/-- The delivery watermark and export status of one run. -/
structure Cursor where
  offset : Nat := 0
  deliveredSeq : Option Nat := none
  deliveredLines : Nat := 0
  /-- Lines dropped by a buffer bound. -/
  dropped : Nat := 0
  lastError : Option String := none
  lastAttemptAt : Option Int := none
  failingSince : Option Int := none
  deliveredAt : Option Int := none
  settledAt : Option Int := none
  notifiedFailure : Bool := false
  notifiedDrop : Bool := false

/-- A run being written. -/
structure OpenRun where
  /-- The lines the buffer holds. -/
  buffer : List ShipLine := []
  metadata : RunMeta
  sinceSync : Nat := 0
  metaDirty : Bool := false
  maxLines : Nat
  /-- The open file still has its name: it was not removed. -/
  linked : Bool := true

/-- The files of one run, its writer, and what happened to its lines since the
files were created: `flushed` lists those written to the segment, `handled`
those a pass delivered or dropped. -/
structure Run where
  metadata : Option RunMeta := none
  cursor : Option Cursor := none
  segment : Option Bytes := none
  writer : Option OpenRun := none
  flushed : List ShipLine := []
  handled : List ShipLine := []

namespace Run

def readCursor (run : Run) : Cursor := run.cursor.getD {}

def segmentLen (run : Run) : Nat := run.segment.elim 0 List.length

def removeSegment (run : Run) : Run :=
  { run with segment := none, writer := run.writer.map (fun writer => { writer with linked := false }) }

/-- Remove every file of a run. -/
def removeRun (run : Run) : Run :=
  { run.removeSegment with metadata := none, cursor := none, flushed := [], handled := [] }

end Run

/-! ## Reading a segment -/

def Host.encodeLine (line : ShipLine) : Bytes := host.encode line ++ [newline]

def Host.encodeLines (lines : List ShipLine) : Bytes := (lines.map host.encodeLine).flatten

def Host.readLine (raw : Bytes) : ShipLine :=
  match host.decode raw with
  | some line => line
  | none => ⟨0, "", "WARN", host.lossy raw, []⟩

/-- The complete lines of a segment after `offset`. -/
def linesAfter (segment : Option Bytes) (offset : Nat) : List Bytes :=
  match segment with
  | none => []
  | some bytes => completeLines newline (bytes.drop offset)

/-- Each line with the byte offset just past it. -/
def Host.withEnds (host : Host) : Nat -> List Bytes -> List (ShipLine × Nat)
  | _, [] => []
  | position, raw :: rest =>
      (host.readLine raw, position + raw.length) :: host.withEnds (position + raw.length) rest

def readLines (segment : Option Bytes) (offset max : Nat) : List (ShipLine × Nat) :=
  (host.withEnds offset (linesAfter segment offset)).take max

/-- Complete lines after `offset` and the byte offset just past the last of
them. -/
def scanFrom (segment : Option Bytes) (offset : Nat) : Nat × Nat :=
  let lines := linesAfter segment offset
  (lines.length, offset + lines.flatten.length)

def countFrom (segment : Option Bytes) (offset : Nat) : Nat := (scanFrom segment offset).1

/-! ## The writer -/

/-- Write lines to the open file of a run. -/
def Run.spill (run : Run) (linked : Bool) (lines : List ShipLine) : Run :=
  { run with
    segment := if linked then run.segment.map (fun bytes => bytes ++ host.encodeLines lines) else run.segment
    flushed := run.flushed ++ lines }

/-- Start or reopen a run. -/
def Run.begin (run : Run) (metadata : RunMeta) (maxLines : Nat) : Run :=
  if run.writer.isSome then run
  else
    let metadata := match run.metadata with
      | some previous =>
          { metadata with
            lastSeq := previous.lastSeq
            capped := previous.capped
            queueDropped := previous.queueDropped
            startedAt := previous.startedAt <|> metadata.startedAt
            endedAt := none }
      | none => metadata
    { run with
      metadata := some metadata
      segment := some (run.segment.getD [])
      writer := some { metadata := metadata, maxLines := maxLines } }

/-- A buffered write of one line: what the buffer holds afterwards and what
went to the file. -/
def writeAll (buffer : List ShipLine) (line : ShipLine) : List ShipLine × List ShipLine :=
  let length := (host.encodeLine line).length
  let spare := BUFFER_BYTES - (host.encodeLines buffer).length
  if length < spare then (buffer ++ [line], [])
  else
    let (kept, out) := if spare < length then ([], buffer) else (buffer, [])
    if BUFFER_BYTES ≤ length then (kept, out ++ [line]) else (kept ++ [line], out)

def Run.append (run : Run) (line : ShipLine) : Run :=
  match run.writer with
  | none => run
  | some writer =>
      if writer.maxLines ≤ writer.metadata.lastSeq then
        { run with
          writer := some { writer with
            metadata := { writer.metadata with capped := writer.metadata.capped + 1 }
            metaDirty := true } }
      else
        let line := { line with seq := writer.metadata.lastSeq + 1 }
        let (buffer, out) := writeAll host writer.buffer line
        let (buffer, out, sinceSync) := if SYNC_EVERY ≤ writer.sinceSync + 1 then ([], out ++ buffer, 0)
          else (buffer, out, writer.sinceSync + 1)
        { run.spill host writer.linked out with
          writer := some { writer with
            buffer := buffer
            sinceSync := sinceSync
            metadata := { writer.metadata with lastSeq := line.seq }
            metaDirty := true } }

def Run.addQueueDropped (run : Run) (count : Nat) : Run :=
  match run.writer with
  | none => run
  | some writer =>
      { run with
        writer := some { writer with
          metadata := { writer.metadata with queueDropped := writer.metadata.queueDropped + count }
          metaDirty := true } }

/-- Push buffered lines out and persist changed metadata. -/
def Run.flush (run : Run) : Run :=
  match run.writer with
  | none => run
  | some writer =>
      { run.spill host writer.linked writer.buffer with
        metadata := if writer.metaDirty then some writer.metadata else run.metadata
        writer := some { writer with buffer := [], metaDirty := false } }

/-- Close a run. -/
def Run.end (run : Run) (now : Int) : Run :=
  match run.writer with
  | none => run
  | some writer =>
      { run.spill host writer.linked writer.buffer with
        metadata := some { writer.metadata with endedAt := some now }
        writer := none }

/-! ## Shipping -/

structure ShipOptions where
  retention : Nat
  maxAge : Nat
  maxBytes : Nat
  notifyAfter : Nat

/-- A duration that the clock cannot represent counts as none. -/
def fromStd (duration : Nat) : Int := if duration ≤ 9223372036854775807 * 1000000 then duration else 0

/-- The local variables of `process_run`. -/
structure Shipping where
  run : Run
  cursor : Cursor
  shipped : Nat := 0
  failed : Bool := false
  collectorDown : Bool := false

namespace Shipping

/-- The size bound. -/
def dropBytes (work : Shipping) (ended : Bool) : Option Bool -> Shipping
  | none => work
  | some true => { work with run := work.run.removeSegment }
  | some false =>
      let (count, stop) := scanFrom work.run.segment work.cursor.offset
      let lines := (linesAfter work.run.segment work.cursor.offset).map host.readLine
      let dropped := { work with
        run := { work.run with handled := work.run.handled ++ lines }
        cursor := { work.cursor with dropped := work.cursor.dropped + count, offset := stop } }
      if ended then
        { dropped with run := dropped.run.removeSegment, cursor := { dropped.cursor with offset := 0 } }
      else dropped

end Shipping

theorem withEnds_bounds {host : Host} {lines : List Bytes} (filled : forall raw, raw ∈ lines -> raw ≠ [])
    {position : Nat} {entry : ShipLine × Nat} (member : entry ∈ host.withEnds position lines) :
    position < entry.2 ∧ entry.2 ≤ position + lines.flatten.length := by
  induction lines generalizing position with
  | nil => cases member
  | cons raw rest ih =>
      have positive : 0 < raw.length := List.length_pos_iff.mpr (filled raw List.mem_cons_self)
      rw [List.flatten_cons, List.length_append]
      rcases List.mem_cons.mp member with rfl | later
      · dsimp only
        omega
      · have bounds := ih (fun other found => filled other (List.mem_cons_of_mem raw found)) later
        omega

/-- A line that is read ends after the offset, within the segment. -/
theorem readLines_bounds {host : Host} {segment : Option Bytes} {offset max : Nat} {entry : ShipLine × Nat}
    (member : entry ∈ readLines host segment offset max) :
    offset < entry.2 ∧ entry.2 ≤ segment.elim 0 List.length := by
  have found := List.mem_of_mem_take member
  cases segment with
  | none => cases found
  | some bytes =>
      have filled : forall raw, raw ∈ linesAfter (some bytes) offset -> raw ≠ [] := fun raw => linesFrom_ne_nil
      have bounds := withEnds_bounds filled found
      have shorter : (linesAfter (some bytes) offset).flatten.length ≤ (bytes.drop offset).length :=
        completeLines_length_le (bytes.drop offset)
      rw [List.length_drop] at shorter
      rw [Option.elim_some]
      omega

namespace Shipping

/-- The age bound: rounds of at most `MAX_LINES_PER_PASS` lines, as long as a
round was full and dropped something. -/
def ageOut (host : Host) (cutoff : Int) (work : Shipping) : Shipping :=
  let lines := readLines host work.run.segment work.cursor.offset MAX_LINES_PER_PASS
  let old := lines.takeWhile (fun entry => (host.parseTime entry.1.ts).any (fun time => decide (time < cutoff)))
  match _last : old.getLast? with
  | none => work
  | some (_, stop) =>
      let next := { work with
        run := { work.run with handled := work.run.handled ++ old.map Prod.fst }
        cursor := { work.cursor with offset := stop, dropped := work.cursor.dropped + old.length } }
      if lines.length < MAX_LINES_PER_PASS then next else ageOut host cutoff next
termination_by work.run.segmentLen - work.cursor.offset
decreasing_by
  have member := (List.takeWhile_sublist _).subset (List.mem_of_getLast? _last)
  have bounds := readLines_bounds member
  change work.run.segment.elim 0 List.length - stop < work.run.segment.elim 0 List.length - work.cursor.offset
  dsimp only at bounds
  omega

/-- One exported batch.  Offsets go by position: `ends` lists where the lines
read by the pass end. -/
def exportBatch (now : Int) (ends : List Nat) (consumed : Nat) (batch : List ShipLine)
    (outcome : ExportOutcome) (work : Shipping) : Shipping :=
  let attempted := { work with cursor := { work.cursor with lastAttemptAt := some now } }
  let advanced := if 0 < outcome.handled then
      let delivered := outcome.handled - outcome.dropped
      let last := ((batch.take outcome.handled).map ShipLine.seq).foldl max 0
      { attempted with
        run := { attempted.run with handled := attempted.run.handled ++ batch.take outcome.handled }
        cursor := { attempted.cursor with
          offset := ends.getD (consumed + outcome.handled - 1) attempted.cursor.offset
          deliveredSeq := some (attempted.cursor.deliveredSeq.elim last (fun seq => max seq last))
          deliveredLines := attempted.cursor.deliveredLines + delivered
          dropped := attempted.cursor.dropped + outcome.dropped
          deliveredAt := some now }
        shipped := attempted.shipped + delivered }
    else attempted
  match outcome.error with
  | none =>
      { advanced with
        cursor := { advanced.cursor with lastError := none, failingSince := none, notifiedFailure := false } }
  | some error =>
      { advanced with
        cursor := { advanced.cursor with
          lastError := some (host.redact error.message)
          failingSince := some (advanced.cursor.failingSince.getD now) }
        failed := true
        collectorDown := advanced.collectorDown || !error.payloadRejected }

/-- The loop over the batches: it ends at the first error. -/
def exportBatches (host : Host) (now : Int) (ends : List Nat) (exporter : Nat -> Collector) (consumed : Nat)
    (work : Shipping) : List (List ShipLine) -> Shipping
  | [] => work
  | batch :: rest =>
      let outcome := exportIsolating (exporter consumed) batch
      let next := exportBatch host now ends consumed batch outcome work
      if outcome.error.isSome then next
      else exportBatches host now ends exporter (consumed + outcome.handled) next rest

def exportPending (now : Int) (work : Shipping) : Option (Nat -> Collector) -> Shipping
  | none => work
  | some exporter =>
      let pending := readLines host work.run.segment work.cursor.offset MAX_LINES_PER_PASS
      exportBatches host now (pending.map Prod.snd) exporter 0 work (batches (pending.map Prod.fst))

end Shipping

structure DeliveryState where
  deliveredSeq : Option Nat
  totalSeq : Option Nat
  pendingLines : Nat
  droppedLines : Nat
  lastError : Option String
  lastAttemptAt : Option Int
  failingSince : Option Int
  deliveredAt : Option Int

def deliveryState (metadata : RunMeta) (cursor : Cursor) (pending : Nat) : DeliveryState where
  deliveredSeq := cursor.deliveredSeq
  totalSeq := if 0 < metadata.lastSeq then some metadata.lastSeq else none
  pendingLines := pending
  droppedLines := cursor.dropped + metadata.capped + metadata.queueDropped
  lastError := cursor.lastError
  lastAttemptAt := cursor.lastAttemptAt
  failingSince := cursor.failingSince
  deliveredAt := cursor.deliveredAt

def failingPast (state : DeliveryState) (threshold : Nat) (now : Int) : Bool :=
  decide (0 < state.pendingLines) && state.failingSince.any (fun time => decide (fromStd threshold ≤ now - time))

/-- What a pass learned about one run. -/
structure RunReport where
  runId : String
  metadata : RunMeta
  state : DeliveryState
  removed : Bool
  notifyFailure : Bool
  notifyDrop : Bool

namespace Shipping

/-- When the run ended with nothing left to ship. -/
def settledAt (work : Shipping) (metadata : RunMeta) (now : Int) : Option Int :=
  if metadata.endedAt.isSome && countFrom work.run.segment work.cursor.offset == 0 then
    some (work.cursor.settledAt.getD now)
  else none

/-- The run has been settled for longer than its retention. -/
def retired (work : Shipping) (metadata : RunMeta) (opts : ShipOptions) (now : Int) : Bool :=
  (work.settledAt metadata now).any (fun time => decide (fromStd opts.retention ≤ now - time))

/-- Settle, notify and apply retention. -/
def settle (work : Shipping) (id : String) (opts : ShipOptions) (now : Int) (metadata : RunMeta) : Run × RunReport :=
  let settled := { work.cursor with settledAt := work.settledAt metadata now }
  let state := deliveryState metadata settled (countFrom work.run.segment work.cursor.offset)
  let notifyFailure := !settled.notifiedFailure && failingPast state opts.notifyAfter now
  let notifyDrop := !settled.notifiedDrop && decide (0 < state.droppedLines)
  let cursor := { settled with
    notifiedFailure := settled.notifiedFailure || notifyFailure
    notifiedDrop := settled.notifiedDrop || notifyDrop }
  let removed := work.retired metadata opts now
  (if removed then work.run.removeRun else { work.run with cursor := some cursor },
    ⟨id, metadata, state, removed, notifyFailure, notifyDrop⟩)

end Shipping

structure PassReport where
  runs : List RunReport := []
  shipped : Nat := 0
  failed : Bool := false
  collectorDown : Bool := false

/-- The metadata a pass goes by.  The lock of the run is shared with a writer
of this process that has it open; when nobody holds it, the process writing the
run is gone and the run has ended. -/
def Run.closeAbandoned (run : Run) (id : String) (now : Int) : RunMeta × Run :=
  let metadata := run.metadata.getD { runId := id, endedAt := some now }
  if !run.writer.isSome && metadata.endedAt.isNone then
    ({ metadata with endedAt := some now }, { run with metadata := some { metadata with endedAt := some now } })
  else (metadata, run)

/-- One run of a pass. -/
def processRun (id : String) (run : Run) (exporter : Option (Nat -> Collector)) (opts : ShipOptions)
    (now : Int) (bytesDrop : Option Bool) (report : PassReport) : Run × PassReport :=
  let (metadata, run) := run.closeAbandoned id now
  let work : Shipping := { run := run, cursor := run.readCursor }
  let dropped := work.dropBytes host metadata.endedAt.isSome bytesDrop
  let aged := dropped.ageOut host (now - fromStd opts.maxAge)
  let exported := aged.exportPending host now exporter
  let (run, runReport) := exported.settle id opts now metadata
  (run,
    { runs := report.runs ++ [runReport]
      shipped := report.shipped + exported.shipped
      failed := report.failed || exported.failed
      collectorDown := report.collectorDown || exported.collectorDown })

/-- The runs of one spool directory. -/
abbrev Spool : Type := String -> Run

/-- The two rounds of `plan_bytes_drops`: settled runs first. -/
def planRound (settled : Bool) (sizes : List (String × Nat × Bool)) (plan : List (String × Bool) × Nat) :
    List (String × Bool) × Nat :=
  sizes.foldl (fun plan size =>
    if plan.2 ≠ 0 ∧ size.2.2 = settled ∧ 0 < size.2.1 then (plan.1 ++ [(size.1, settled)], plan.2 - size.2.1)
    else plan) plan

/-- Which runs to drop to get back under `maxBytes`, and whether each of them
was settled. -/
def planBytesDrops (spool : Spool) (ids : List String) (maxBytes : Nat) : List (String × Bool) :=
  let sizes := ids.map (fun id => (id, (spool id).segmentLen, (spool id).readCursor.settledAt.isSome))
  let total := (sizes.map (fun size => size.2.1)).sum
  if total ≤ maxBytes then []
  else (planRound false sizes (planRound true sizes ([], total - maxBytes))).1

/-- The loop of a pass; an unreachable collector is not tried for the later
runs. -/
def shipRuns (host : Host) (exporter : Option (String -> Nat -> Collector)) (opts : ShipOptions) (now : Int)
    (plan : List (String × Bool)) : List String -> Spool -> PassReport -> Spool × PassReport
  | [], spool, report => (spool, report)
  | id :: rest, spool, report =>
      let reachable := if report.collectorDown then none else exporter.map (fun answers => answers id)
      let (run, report) := processRun host id (spool id) reachable opts now (plan.lookup id) report
      shipRuns host exporter opts now plan rest (Function.update spool id run) report

def shipPass (spool : Spool) (ids : List String) (exporter : Option (String -> Nat -> Collector))
    (opts : ShipOptions) (now : Int) : Spool × PassReport :=
  shipRuns host exporter opts now (planBytesDrops spool ids opts.maxBytes) ids spool {}

/-! ## Histories -/

/-- The operations on a spool. -/
inductive Op where
  | begin (metadata : RunMeta) (maxLines : Nat)
  | append (id : String) (line : ShipLine)
  | addQueueDropped (id : String) (count : Nat)
  | flush
  | end (id : String) (now : Int)
  | pass (ids : List String) (exporter : Option (String -> Nat -> Collector)) (opts : ShipOptions) (now : Int)

def Spool.apply (spool : Spool) : Op -> Spool
  | .begin metadata maxLines =>
      Function.update spool metadata.runId ((spool metadata.runId).begin metadata maxLines)
  | .append id line => Function.update spool id ((spool id).append host line)
  | .addQueueDropped id count => Function.update spool id ((spool id).addQueueDropped count)
  | .flush => fun id => (spool id).flush host
  | .end id now => Function.update spool id ((spool id).end host now)
  | .pass ids exporter opts now => (shipPass host spool ids exporter opts now).1

def Spool.known (spool : Spool) (id : String) : Bool := (spool id).metadata.any (fun metadata => metadata.runId == id)

/-- What the callers see to: a run is begun with fresh metadata, the lines can
be written and read back, and a pass goes over the known runs, in any order. -/
def Issued (spool : Spool) : Op -> Prop
  | .begin metadata _ => metadata.endedAt = none
  | .append id line => forall writer, (spool id).writer = some writer ->
      host.Faithful { line with seq := writer.metadata.lastSeq + 1 }
  | .pass ids _ _ _ => ids.Nodup ∧ forall id, id ∈ ids <-> spool.known id = true
  | _ => True

end Logship
end FaucetStream
