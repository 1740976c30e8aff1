import FaucetStream.Error
import FaucetStream.FileSink.Layout
import FaucetStream.Library.Interaction

namespace FaucetStream
namespace FileSink

open Library

/-!
# The file writer

One output set: the open file, its part number and the calls so far.  What
encodes a file and what stores it is asked, and so is the writer's own state,
which is part of the world the questions change.  A writer here belongs to a
run that replaces what is there and writes to the destination itself; scratch
files, log lines and the sizes of copies are left out.
-/

abbrev FileName : Type := List Char

abbrev Part : Type := List UInt8

/-! ## State -/

structure OpenFile where
  name : FileName
  records : Nat
  bytes : Nat
  /-- Whether the published file holds everything written so far. -/
  published : Bool
  firstCall : Nat
  /-- Whether the file was published earlier in the run. -/
  continued : Bool
  /-- Whether an upload takes the file's parts. -/
  streaming : Bool
  /-- Whether the published file is extended in place. -/
  delta : Bool
  deriving DecidableEq

namespace OpenFile

def create (name : FileName) (call : Nat) : OpenFile := ⟨name, 0, 0, false, call, false, false, false⟩

/-- Whether losing the file now would lose data from before the call. -/
def atRisk (file : OpenFile) (call : Nat) : Bool := file.continued || decide (file.firstCall < call)

def markPublished (file : OpenFile) : OpenFile := { file with published := true, continued := true }

end OpenFile

structure WriterState where
  current : Option OpenFile
  nextPart : Nat
  call : Nat
  poisoned : Option String
  /-- Whether a publish not yet settled carries data a caller was already told
  was written. -/
  pendingAtRisk : Bool
  deriving DecidableEq

namespace WriterState

def new : WriterState := ⟨none, 0, 0, none, false⟩

def poison (state : WriterState) (what : String) (error : FaucetError) : WriterState :=
  match state.poisoned with
  | some _ => state
  | none =>
      { state with
        poisoned := some ("file sink: records already reported as written were lost (" ++ what ++ ": " ++
          error.text ++ "), so this run cannot continue — every later write and flush fails") }

def poisonIf (risk : Bool) (what : String) (error : FaucetError) (state : WriterState) : WriterState :=
  if risk then state.poison what error else state

/-- The first part the run has not come to. -/
def firstUnwritten (state : WriterState) : Nat :=
  match state.nextPart, state.current.isSome with
  | 0, _ => 1
  | part, true => part + 1
  | part, false => part

end WriterState

/-! ## Questions -/

/-- What one encoding step takes: rows, or a slice of a columnar batch. -/
inductive Chunk (Row : Type) where
  | rows (rows : List Row)
  | slice (offset length : Nat)

/-- A failed encoding step, by what it left behind. -/
inductive EncodeFailure where
  | clean (error : FaucetError)
  | dirty (error : FaucetError)

/-- Where the next write finds the published file it continues. -/
inductive Existing where
  | unneeded
  | kept
  | fetch

/-- What closing a file left to publish. -/
inductive Closed where
  | nothing
  | file
  | parts (parts : List Part)

inductive Op (Row : Type) where
  | load
  | modify (change : WriterState -> WriterState)
  | prepare
  | list
  | exists (name : FileName)
  | fetch (name : FileName)
  | create (name : FileName)
  | existing (file : OpenFile)
  | encode (file : OpenFile) (chunk : Chunk Row)
  | takeParts (file : OpenFile)
  | close (file : OpenFile)
  | spill (file : OpenFile) (part : Part)
  | openStream (name : FileName)
  | putPart (name : FileName) (part : Part)
  | finishStream (name : FileName)
  | abortStream (name : FileName)
  | appendPublished (name : FileName)
  | publish (name : FileName)
  | settle
  | deleteMany (names : List FileName)

@[reducible]
def Op.Answer {Row : Type} : Op Row -> Type
  | .load => WriterState
  | .modify _ => Unit
  | .prepare => Except FaucetError Unit
  | .list => Except FaucetError (List FileName)
  | .exists _ => Except FaucetError Bool
  | .fetch _ => Except FaucetError Unit
  | .create _ => Except FaucetError Unit
  | .existing _ => Existing
  | .encode _ _ => Except EncodeFailure Unit
  | .takeParts _ => List Part
  | .close _ => Except FaucetError Closed
  | .spill _ _ => Except FaucetError Unit
  | .openStream _ => Except FaucetError Unit
  | .putPart _ _ => Except FaucetError Unit
  | .finishStream _ => Except FaucetError Unit
  | .abortStream _ => Unit
  | .appendPublished _ => Except FaucetError Unit
  | .publish _ => Except FaucetError Unit
  | .settle => Except FaucetError Unit
  | .deleteMany _ => Except FaucetError Unit

abbrev Writing (Row Result : Type) : Type := Program (@Op.Answer Row) FaucetError Result

structure WriteSettings where
  maxRecordsPerFile : Option Nat
  maxBytesPerFile : Option Nat
  objectPerFlush : Bool
  objectPerWrite : Bool
  pruneStale : Bool

structure FileWriter (Row : Type) where
  settings : WriteSettings
  template : NameTemplate
  /-- Whether a published file of this format and storage is extended in place. -/
  appendsInPlace : Bool
  /-- The JSON length of a row. -/
  estimate : Row -> Nat
  /-- Where a file lives, for messages. -/
  describe : FileName -> String

namespace FileWriter

variable {Row : Type} (writer : FileWriter Row)

def capReached (records bytes : Nat) : Bool :=
  writer.settings.maxRecordsPerFile.any (fun limit => decide (limit ≤ records)) ||
    writer.settings.maxBytesPerFile.any (fun limit => decide (limit ≤ bytes))

/-! ## Steps of a write -/

def request (op : Op Row) : Writing Row op.Answer := Program.request op

def load : Writing Row WriterState := request .load

def modify (change : WriterState -> WriterState) : Writing Row Unit := request (.modify change)

def setCurrent (file : OpenFile) : Writing Row Unit := modify (fun state => { state with current := some file })

/-- A question whose failure ends the program. -/
def expect {Result : Type} (program : Writing Row (Except FaucetError Result)) : Writing Row Result :=
  program >>= Program.ofExcept

/-- `State::check`. -/
def check : Writing Row Unit := do
  let state ← load
  match state.poisoned with
  | some why => Program.raise (.sink why)
  | none => pure ()

/-- Drop the open file after a failure, poisoning the writer when that loses
data a caller was already told was written. -/
def lose {Result : Type} (call : Nat) (error : FaucetError) : Writing Row Result := do
  let state ← load
  match state.current with
  | none => Program.raise error
  | some file =>
      modify (fun state => state.poisonIf (file.atRisk call) (writer.describe file.name) error)
      if file.streaming then request (.abortStream file.name)
      modify (fun state =>
        { state with
          current := none
          nextPart := if writer.template.numbered then state.nextPart + 1 else state.nextPart })
      Program.raise error

def openNext (call : Nat) : Writing Row OpenFile := do
  let state ← load
  if state.nextPart = 0 then
    expect (request .prepare)
    modify (fun state => { state with nextPart := 1 })
  let state ← load
  let name := writer.template.fileName state.nextPart
  expect (request (.create name))
  let file := OpenFile.create name call
  setCurrent file
  pure file

/-- A local copy of the published file when the next write continues it. -/
def existingCopy (file : OpenFile) : Writing Row Unit := do
  match ← request (.existing file) with
  | .unneeded => pure ()
  | .kept => pure ()
  | .fetch =>
      if ← expect (request (.exists file.name)) then expect (request (.fetch file.name))
      else
        Program.raise (.sink ("file sink: '" ++ writer.describe file.name ++
          "' was published earlier in this run but is gone, so it cannot be continued"))

def putParts (file : OpenFile) (parts : List Part) : Writing Row OpenFile := do
  let file ← if file.streaming then pure file else do
    expect (request (.openStream file.name))
    setCurrent { file with streaming := true }
    pure { file with streaming := true }
  puts file.name parts
  pure file
where
  puts (name : FileName) : List Part -> Writing Row Unit
    | [] => pure ()
    | part :: rest => do
        expect (request (.putPart name part))
        puts name rest

/-- Run one encoding step on the open file, then upload any full parts. -/
def writeChunk (call : Nat) (file : OpenFile) (chunk : Chunk Row) (count : Nat) : Writing Row OpenFile := do
  writer.existingCopy file
  match ← request (.encode file chunk) with
  | .error (.clean error) => Program.raise error
  | .error (.dirty error) => writer.lose call error
  | .ok () =>
      let file := { file with records := file.records + count, published := false }
      setCurrent file
      match ← request (.takeParts file) with
      | [] => pure file
      | parts =>
          match ← (putParts file parts).attempt with
          | .ok file => pure file
          | .error error => writer.lose call error

/-- Publish what closing the file left. -/
def publishClosed (file : OpenFile) : Closed -> Writing Row OpenFile
  | .nothing => pure file
  | .file =>
      if file.delta then do
        expect (request (.appendPublished file.name))
        pure file
      else do
        expect (request (.publish file.name))
        pure { file with delta := writer.appendsInPlace }
  | .parts parts =>
      if !file.streaming && decide (parts.length ≤ 1) then do
        expect (request (.spill file (parts.headD [])))
        expect (request (.publish file.name))
        pure file
      else do
        let file ← putParts file parts
        setCurrent { file with streaming := false }
        expect (request (.finishStream file.name))
        pure { file with streaming := false }

/-- Publish the file so it holds everything written so far. -/
def publishFile (file : OpenFile) : Writing Row Unit := do
  let closed ← if file.published then pure .nothing else do expect (request (.close file))
  let file ← writer.publishClosed file closed
  setCurrent file.markPublished

/-- A failed publish of the open file.  The error may be that of an earlier
upload, found out here. -/
def publishFailed {Result : Type} (call : Nat) (error : FaucetError) : Writing Row Result := do
  let state ← load
  modify (fun after => after.poisonIf state.pendingAtRisk "an earlier upload" error)
  writer.lose call error

/-- Publish the open file and move to the next part. -/
def roll (call : Nat) : Writing Row Unit := do
  let state ← load
  match state.current with
  | none => pure ()
  | some file =>
      match ← (writer.publishFile file).attempt with
      | .ok () =>
          modify (fun state =>
            { state with
              pendingAtRisk := state.pendingAtRisk || file.atRisk call
              current := none })
      | .error error => writer.publishFailed call error
  modify (fun state => { state with nextPart := state.nextPart + 1 })

def rollWhen (full : Bool) (call : Nat) : Writing Row Unit :=
  if full then writer.roll call else pure ()

/-! ## Calls -/

/-- The open file, or the next one. -/
def openFile (call : Nat) : Writing Row OpenFile := do
  let state ← load
  match state.current with
  | some file => pure file
  | none => writer.openNext call

/-- A file with room.  One that has none is closed before anything is written
to it, and the file after it is new. -/
def makeRoom (call : Nat) : Writing Row OpenFile := do
  let file ← writer.openFile call
  if decide (0 < file.records) && writer.capReached file.records file.bytes then
    writer.roll call
    writer.openFile call
  else pure file

/-- The rows that still go into a file of so many records and bytes, the rows
after them, and the bytes the file then has. -/
def takeRows (records bytes : Nat) : List Row -> List Row × List Row × Nat
  | [] => ([], [], bytes)
  | row :: rest =>
      if decide (0 < records) && writer.capReached records bytes then ([], row :: rest, bytes)
      else
        let grown := if writer.settings.maxBytesPerFile.isSome then bytes + writer.estimate row else bytes
        let (chunk, after, total) := takeRows (records + 1) grown rest
        (row :: chunk, after, total)

theorem takeRows_rest_length (records bytes : Nat) (rows : List Row) :
    (writer.takeRows records bytes rows).2.1.length ≤ rows.length := by
  induction rows generalizing records bytes with
  | nil => exact Nat.le_refl 0
  | cons row rest ih =>
      unfold takeRows
      split
      · exact Nat.le_refl _
      · exact Nat.le_succ_of_le (ih _ _)

/-- The loop of `write_rows`.  Each round takes a row at least, since the file
it writes to has room. -/
def writeLoop (call : Nat) : (fuel : Nat) -> (rows : List Row) -> rows.length ≤ fuel -> Writing Row Unit
  | _, [], _ => pure ()
  | 0, _ :: _, enough => (Nat.not_succ_le_zero _ enough).elim
  | fuel + 1, row :: rest, enough => do
      let file ← writer.makeRoom call
      let grown := if writer.settings.maxBytesPerFile.isSome then file.bytes + writer.estimate row else file.bytes
      let taken := writer.takeRows (file.records + 1) grown rest
      let written ← writer.writeChunk call file (.rows (row :: taken.1)) (taken.1.length + 1)
      setCurrent { written with bytes := taken.2.2 }
      writer.rollWhen (writer.capReached written.records taken.2.2) call
      writeLoop call fuel taken.2.1
        (Nat.le_trans (writer.takeRows_rest_length _ _ rest) (Nat.le_of_succ_le_succ enough))

/-- Wait for every upload to land. -/
def settleAll (failed : FaucetError -> Writing Row Unit) : Writing Row Unit := do
  match ← request .settle with
  | .ok () => pure ()
  | .error error =>
      failed error
      Program.raise error

/-- End of a batch write: close the file when each write is its own object,
then wait for every upload the batch started. -/
def endOfWrite (call : Nat) : Writing Row Unit := do
  let state ← load
  writer.rollWhen (writer.settings.objectPerWrite && writer.template.numbered && state.current.isSome) call
  let state ← load
  modify (fun after => { after with pendingAtRisk := false })
  settleAll (fun error => modify (fun after => after.poisonIf state.pendingAtRisk "an upload" error))

/-- Count the call. -/
def enter : Writing Row Nat := do
  check
  modify (fun state => { state with call := state.call + 1 })
  let state ← load
  pure state.call

def writeRows (rows : List Row) : Writing Row Nat := do
  let call ← enter
  writer.writeLoop call rows.length rows (Nat.le_refl _)
  writer.endOfWrite call
  pure rows.length

/-- The rows of a batch that still go into a file, at least one. -/
def batchRoom (perRow left : Nat) (file : OpenFile) : Nat :=
  let room :=
    match writer.settings.maxRecordsPerFile with
    | none => left
    | some limit => max (limit - file.records) 1
  match writer.settings.maxBytesPerFile with
  | none => room
  | some limit => min room (max ((limit - file.bytes + (max perRow 1 - 1)) / max perRow 1) 1)

theorem batchRoom_pos (perRow : Nat) {left : Nat} (some : 0 < left) (file : OpenFile) :
    0 < writer.batchRoom perRow left file := by
  unfold batchRoom
  have room : 0 < (match writer.settings.maxRecordsPerFile with
      | none => left
      | .some limit => max (limit - file.records) 1) := by
    split
    · exact some
    · exact Nat.lt_of_lt_of_le Nat.one_pos (Nat.le_max_right _ _)
  dsimp only
  split
  · exact room
  · exact Nat.lt_min.mpr ⟨room, Nat.lt_of_lt_of_le Nat.one_pos (Nat.le_max_right _ _)⟩

/-- The loop of `write_batch`, with the rows left. -/
def batchLoop (call perRow : Nat) : (fuel offset left : Nat) -> left ≤ fuel -> Writing Row Unit
  | _, _, 0, _ => pure ()
  | 0, _, _ + 1, enough => (Nat.not_succ_le_zero _ enough).elim
  | fuel + 1, offset, left + 1, enough => do
      let file ← writer.openFile call
      let length := min (writer.batchRoom perRow (left + 1) file) (left + 1)
      let written ← writer.writeChunk call file (.slice offset length) length
      let bytes := if writer.settings.maxBytesPerFile.isSome then written.bytes + perRow * length else written.bytes
      setCurrent { written with bytes := bytes }
      writer.rollWhen (writer.capReached written.records bytes) call
      batchLoop call perRow fuel (offset + length) (left + 1 - length)
        (by
          have positive : 0 < writer.batchRoom perRow (left + 1) file :=
            writer.batchRoom_pos perRow (Nat.succ_pos left) file
          omega)

/-- `write_batch` of a batch with so many rows, of so many bytes each. -/
def writeBatch (rows perRow : Nat) : Writing Row Nat := do
  if rows = 0 then pure 0
  else
    let call ← enter
    writer.batchLoop call perRow rows 0 rows (Nat.le_refl _)
    writer.endOfWrite call
    pure rows

def flush : Writing Row Unit := do
  check
  let state ← load
  let call := state.call + 1
  if writer.settings.objectPerFlush && writer.template.numbered then
    writer.rollWhen state.current.isSome call
  else
    match state.current with
    | none => pure ()
    | some file =>
        match ← (writer.publishFile file).attempt with
        | .ok () => pure ()
        | .error error => writer.publishFailed call error
  modify (fun state => { state with pendingAtRisk := false })
  settleAll (fun error => modify (fun state => state.poison "an upload" error))

/-- End of a successful run: delete this template's files from the first part
on that the run has not come to. -/
def complete : Writing Row Unit := do
  if writer.settings.pruneStale then
    let state ← load
    expect (request .settle)
    let names ← expect (request .list)
    let stale := ((writer.template.select names).filter (fun found => decide (state.firstUnwritten ≤ found.1))).map
      Prod.snd
    if stale.isEmpty then pure () else expect (request (.deleteMany stale))
  else pure ()

/-! ## Runs -/

/-- What a caller asks of the writer while the run goes on. -/
inductive Call (Row : Type) where
  | rows (rows : List Row)
  | batch (rows perRow : Nat)
  | flush

def perform : Call Row -> Writing Row Unit
  | .rows rows => do let _ ← writer.writeRows rows
  | .batch rows perRow => do let _ ← writer.writeBatch rows perRow
  | .flush => writer.flush

/-- The calls of a run, whether they fail or not. -/
def performAll : List (Call Row) -> Writing Row Unit
  | [] => pure ()
  | call :: rest => do
      let _ ← (writer.perform call).attempt
      performAll rest

end FileWriter

end FileSink
end FaucetStream
