import FaucetStream.Library.LastMatch
import FaucetStream.OracleCdc.LobText
import FaucetStream.OracleCdc.Miner

namespace FaucetStream
namespace OracleCdc

open Json Library

/-!
# Changes of a transaction

The miner with its transactions in full.  A follow-up UPDATE is folded into the
earlier change of its row, writes to large objects wait until the row is needed,
and a row that undoes another reverts the latest change it can belong to.  Each
change leaves a piece that says how.
-/

namespace Op

def INSERT : Int := 1
def DELETE : Int := 2
def UPDATE : Int := 3
def DDL : Int := 5
def LOB_WRITE : Int := 10
def LOB_TRIM : Int := 11
def XML_DOC_BEGIN : Int := 68
def XML_DOC_WRITE : Int := 70
def XML_DOC_END : Int := 71
def UNSUPPORTED : Int := 255

end Op

/-- What becomes of a change that cannot be decoded. -/
inductive OnUnsupported where
  | fail
  | skip
  deriving DecidableEq

inductive EventOp where
  | insert
  | update
  | delete
  | ddl
  | truncate
  deriving DecidableEq

/-- One change inside a transaction. -/
structure Event where
  id : Nat
  op : EventOp
  owner : String
  table : String
  before : Option Image
  after : Option Image
  rowId : Option String
  scn : Nat
  sql : Option String
  deriving DecidableEq

/-- How a redo row changed the events. -/
inductive PieceKind where
  | created (kind : DmlKind)
  | folded (prevAfter : Image)
  deriving DecidableEq

structure Piece where
  eventId : Nat
  rowId : Option String
  kind : PieceKind
  deriving DecidableEq

/-- The writes to one column of one event. -/
structure PendingLob where
  eventId : Nat
  column : String
  /-- The value they apply to; none when it is older than the window. -/
  base : Option Resolved
  /-- The event was made for these writes alone. -/
  synthesized : Bool
  changes : List LobChange
  row : LogRow
  deriving DecidableEq

/-- What a transaction has buffered. -/
structure Staged where
  events : List Event
  pieces : List Piece
  lobs : List PendingLob
  deriving DecidableEq

def Staged.empty : Staged := ⟨[], [], []⟩

/-- Why a change cannot be decoded. -/
inductive Reason where
  | mismatch
  | redo (cause : RedoError)
  | lob (cause : LobError)
  | noKeys
  | binaryXml
  | info (text : String)
  | partialLob
  deriving DecidableEq

/-- Why the miner stops; each holds what its message shows. -/
inductive MineError where
  | undecodable (scn : Nat) (owner table : String) (reason : Reason)
  | exceeded (xid : String) (limit : Nat)
  deriving DecidableEq

/-! ## Images -/

/-- A ROW_ID other than the empty one and the one of letters `A` alone. -/
def validRowId (rowId : Option String) : Option String :=
  rowId.filter (fun text => !text.toList.isEmpty && !text.toList.all (· == 'A'))

def overlay (base set : Image) : Image := assignAll base set

/-- `matches`. -/
def imageMatches (image conditions : Image) : Bool := conditions.all (fun cell => image.contains cell)

def containsText (text sought : List Char) : Bool := text.tails.any sought.isPrefixOf

def isMismatch (row : LogRow) : Bool :=
  row.info.any (fun info =>
    let lower := info.toList.map Char.toLower
    containsText lower "dictionary".toList && containsText lower "mismatch".toList)

/-! ## One transaction -/

/-- By ROW_ID when both carry one, else by the conditions. -/
def sameRow (prev : Event) (rowId : Option String) (conditions : Image) : Bool :=
  match prev.rowId, rowId with
  | some first, some second => first == second
  | _, _ => !conditions.isEmpty && prev.after.any (fun after => imageMatches after conditions)

def isUpsert (op : EventOp) : Bool := op == .insert || op == .update

/-- Whether an update belongs to an earlier change. -/
def Event.takes (rowId : Option String) (dml : Dml) (event : Event) : Bool :=
  isUpsert event.op && event.owner == dml.owner && event.table == dml.table && sameRow event rowId dml.conditions

def Event.fold (rowId : Option String) (dml : Dml) (event : Event) : Event :=
  { event with after := some (overlay (event.after.getD []) dml.set), rowId := event.rowId <|> rowId }

def baseEvent (id : Nat) (owner table : String) (rowId : Option String) (scn : Nat) : Event :=
  ⟨id, .insert, owner, table, none, none, rowId, scn, none⟩

/-- The event of a change that is not folded. -/
def newEvent (id scn : Nat) (rowId : Option String) (dml : Dml) : Event :=
  let base := baseEvent id dml.owner dml.table rowId scn
  match dml.kind with
  | .insert => { base with op := .insert, after := some dml.set }
  | .update =>
      { base with op := .update, before := some dml.conditions, after := some (overlay dml.conditions dml.set) }
  | .delete => { base with op := .delete, before := some dml.conditions }

namespace Staged

/-- The event an update is folded into as it was, and the events after. -/
def folded (staged : Staged) (rowId : Option String) (dml : Dml) : Option (Event × List Event) :=
  if dml.kind = .update then modifyLast (Event.takes rowId dml) (Event.fold rowId dml) staged.events else none

/-- Adds a change. -/
def record (staged : Staged) (id scn : Nat) (rowId : Option String) (dml : Dml) : Staged :=
  match staged.folded rowId dml with
  | some (prev, events) =>
      { staged with
        events := events
        pieces := staged.pieces ++ [⟨prev.id, rowId, .folded (prev.after.getD [])⟩] }
  | none =>
      { staged with
        events := staged.events ++ [newEvent id scn rowId dml]
        pieces := staged.pieces ++ [⟨id, rowId, .created dml.kind⟩] }

end Staged

def Piece.targetsRow (events : List Event) (rid : String) (piece : Piece) : Bool :=
  piece.rowId == some rid || events.any (fun event => event.id == piece.eventId && event.rowId == some rid)

def Piece.compatible (original : DmlKind) (piece : Piece) : Bool :=
  match piece.kind with
  | .created kind => kind == original
  | .folded _ => original == .update

/-- Changes the first event with an id. -/
def modifyEvent (events : List Event) (id : Nat) (change : Event -> Event) : List Event :=
  match events with
  | [] => []
  | event :: rest => if event.id = id then change event :: rest else event :: modifyEvent rest id change

namespace Staged

/-- Reverts the latest change of a kind to a row. -/
def undo (staged : Staged) (rid : String) (original : DmlKind) : Staged :=
  match takeLast (fun piece => piece.targetsRow staged.events rid && piece.compatible original) staged.pieces with
  | none => staged
  | some (piece, pieces) =>
      match piece.kind with
      | .created _ =>
          { staged with
            events := staged.events.filter (fun event => event.id != piece.eventId)
            pieces := pieces.filter (fun other => other.eventId != piece.eventId) }
      | .folded prevAfter =>
          { staged with
            events := modifyEvent staged.events piece.eventId (fun event => { event with after := some prevAfter })
            pieces := pieces }

/-- Adds a write to a large object to the writes that wait. -/
def lob (staged : Staged) (id : Nat) (row : LogRow) (change : LobChange) : Staged :=
  let target := staged.events.reverse.find? (fun event =>
    isUpsert event.op && event.owner == change.owner && event.table == change.table &&
      event.after.any (fun after => imageMatches after change.conditions))
  match target with
  | some event =>
      let same := fun (lob : PendingLob) => lob.eventId == event.id && lob.column == change.column
      if staged.lobs.any same then
        -- the first of them takes the write
        let (front, back) := staged.lobs.span (fun lob => !same lob)
        let added := back.head?.toList.map (fun lob => { lob with changes := lob.changes ++ [change] })
        { staged with lobs := front ++ added ++ back.tail }
      else
        let base := event.after.bind (fun after => after.lookup change.column)
        { staged with lobs := staged.lobs ++ [⟨event.id, change.column, base, false, [change], row⟩] }
  | none =>
      let event := { baseEvent id change.owner change.table none row.scn with
        op := .update, before := some change.conditions, after := some change.conditions }
      { staged with
        events := staged.events ++ [event]
        lobs := staged.lobs ++ [⟨id, change.column, none, true, [change], row⟩] }

end Staged

/-! ## The miner -/

structure RedoMiner where
  opened : List (String × Txn Staged)
  onUnsupported : OnUnsupported
  maxStaged : Option Nat
  ddlSeen : List (String × String)
  nextId : Nat

namespace RedoMiner

def new (onUnsupported : OnUnsupported) (maxStaged : Option Nat) : RedoMiner := ⟨[], onUnsupported, maxStaged, [], 0⟩

def slot (miner : RedoMiner) (xid : String) : Option (Txn Staged) := miner.opened.lookup xid

/-- The transaction of an id, opened at an SCN if it is not yet. -/
def txn (miner : RedoMiner) (xid : String) (scn : Nat) : Txn Staged := (miner.slot xid).getD ⟨scn, Staged.empty⟩

/-- Changes the buffer of a transaction, which is opened if it is not yet. -/
def update (miner : RedoMiner) (xid : String) (scn : Nat) (change : Staged -> Staged) : RedoMiner :=
  let txn := miner.txn xid scn
  { miner with opened := assign miner.opened xid ⟨txn.firstScn, change txn.buffer⟩ }

/-- Draws an id. -/
def drawn (miner : RedoMiner) : RedoMiner := { miner with nextId := miner.nextId + 1 }

def unsupported (miner : RedoMiner) (row : LogRow) (reason : Reason) : Except MineError Unit :=
  match miner.onUnsupported with
  | .fail => .error (.undecodable row.scn (row.owner.getD "?") (row.table.getD "?") reason)
  | .skip => .ok ()

def checkStaged (miner : RedoMiner) (xid : String) : Except MineError Unit :=
  match miner.maxStaged, miner.slot xid with
  | some limit, some txn => if limit < txn.buffer.events.length then .error (.exceeded xid limit) else .ok ()
  | _, _ => .ok ()

/-- Applies one waiting write. -/
def settleLob (miner : RedoMiner) (events : List Event) (pending : PendingLob) : Except MineError (List Event) :=
  let write := fun base =>
    modifyEvent events pending.eventId (fun event =>
      { event with
        after := some (overlay (event.after.getD []) [(pending.column, applyLobAll base pending.changes)]) })
  match pending.base with
  | some base => .ok (write base)
  | none =>
      if isFullRewriteAll pending.changes then .ok (write .null)
      else do
        miner.unsupported pending.row .partialLob
        if pending.synthesized then .ok (events.filter (fun event => event.id != pending.eventId)) else .ok events

def settleLobs (miner : RedoMiner) (xid : String) : Except MineError RedoMiner :=
  match miner.slot xid with
  | none => .ok miner
  | some txn => do
      let events ← txn.buffer.lobs.foldlM miner.settleLob txn.buffer.events
      let settled : Txn Staged := ⟨txn.firstScn, { txn.buffer with events := events, lobs := [] }⟩
      .ok { miner with opened := assign miner.opened xid settled }

end RedoMiner

/-- The kind of the change that a row with this code undoes. -/
def undoneKind (op : Int) : DmlKind :=
  if op = Op.DELETE then .insert else if op = Op.INSERT then .delete else .update

section Apply

variable (alphanumeric : Alphanumeric)

/-- The change of a row, or why it cannot be decoded. -/
def decodeDml (row : LogRow) : Except Reason Dml :=
  if isMismatch row then .error .mismatch
  else match parseDml alphanumeric row.redo.toList with
    | .error cause => .error (.redo cause)
    | .ok dml => if dml.kind ≠ .insert ∧ dml.conditions = [] then .error .noKeys else .ok dml

namespace RedoMiner

def dml (miner : RedoMiner) (row : LogRow) : Except MineError RedoMiner := do
  let miner ← miner.settleLobs row.xid
  if row.rollback then
    match validRowId row.rowId with
    | some rid => .ok (miner.update row.xid row.scn (fun staged => staged.undo rid (undoneKind row.op)))
    | none => .ok miner
  else
    match decodeDml alphanumeric row with
    | .error reason => do
        miner.unsupported row reason
        .ok miner
    | .ok dml =>
        let rowId := validRowId row.rowId
        let drawn := miner.drawn
        let next := drawn.update row.xid row.scn (fun staged => staged.record drawn.nextId row.scn rowId dml)
        -- a change that is folded adds no event
        if ((drawn.txn row.xid row.scn).buffer.folded rowId dml).isSome then .ok next
        else do
          next.checkStaged row.xid
          .ok next

def ddl (miner : RedoMiner) (row : LogRow) : Except MineError RedoMiner := do
  let owner := row.owner.getD ""
  let table := row.table.getD ""
  let lower := (row.redo.toList.dropWhile isWhitespace).map Char.toLower
  let kind : EventOp := if "truncate".toList.isPrefixOf lower then .truncate else .ddl
  let drawn := { miner.drawn with ddlSeen := miner.ddlSeen ++ [(owner, table)] }
  let event : Event :=
    ⟨drawn.nextId, kind, owner, table, none, none, none, row.scn, some (String.ofList (trim row.redo.toList))⟩
  let next := drawn.update row.xid row.scn (fun staged => { staged with events := staged.events ++ [event] })
  next.checkStaged row.xid
  .ok next

def lobChange (miner : RedoMiner) (row : LogRow) : Except MineError RedoMiner :=
  match parseLobChange alphanumeric row.redo.toList with
  | .error cause => do
      miner.unsupported row (.lob cause)
      .ok miner
  | .ok change =>
      if isMismatch row then do
        miner.unsupported row .mismatch
        .ok miner
      else do
        let drawn := miner.drawn
        let next := drawn.update row.xid row.scn (fun staged => staged.lob drawn.nextId row change)
        next.checkStaged row.xid
        .ok next

/-- Feeds one row; a COMMIT releases its transaction. -/
def apply (miner : RedoMiner) (row : LogRow) : Except MineError (RedoMiner × Option (Committed Event)) :=
  if row.op = Op.START then .ok (miner.update row.xid row.scn id, none)
  else if row.op = Op.COMMIT then do
    let miner ← miner.settleLobs row.xid
    let committed := (miner.slot row.xid).map (fun txn => ⟨row.xid, row.scn, row.timestamp, txn.buffer.events⟩)
    .ok ({ miner with opened := unassign miner.opened row.xid }, committed)
  else if row.op = Op.ROLLBACK then .ok ({ miner with opened := unassign miner.opened row.xid }, none)
  else if row.op = Op.INSERT ∨ row.op = Op.DELETE ∨ row.op = Op.UPDATE then do
    let miner ← miner.dml alphanumeric row
    .ok (miner, none)
  else if row.op = Op.DDL then do
    let miner ← miner.ddl row
    .ok (miner, none)
  else if row.op = Op.LOB_WRITE ∨ row.op = Op.LOB_TRIM then do
    let miner ← miner.lobChange alphanumeric row
    .ok (miner, none)
  else if row.op = Op.XML_DOC_BEGIN ∨ row.op = Op.XML_DOC_WRITE ∨ row.op = Op.XML_DOC_END then do
    miner.unsupported row .binaryXml
    .ok (miner, none)
  else if row.op = Op.UNSUPPORTED then do
    miner.unsupported row (.info (row.info.getD "unsupported operation"))
    .ok (miner, none)
  else .ok (miner, none)

/-- Feeds rows that release nothing. -/
def feed (miner : RedoMiner) (rows : List LogRow) : Except MineError RedoMiner :=
  rows.foldlM (fun miner row => (miner.apply alphanumeric row).map Prod.fst) miner

end RedoMiner

variable {alphanumeric}

theorem decodeDml_of_parsed {row : LogRow} {dml : Dml} (current : isMismatch row = false)
    (parsed : parseDml alphanumeric row.redo.toList = .ok dml) (keyed : ¬(dml.kind ≠ .insert ∧ dml.conditions = [])) :
    decodeDml alphanumeric row = .ok dml := by
  unfold decodeDml
  rw [current, if_neg Bool.false_ne_true, parsed]
  exact if_neg keyed

theorem decodeDml_mismatch {row : LogRow} (mismatch : isMismatch row = true) :
    decodeDml alphanumeric row = .error .mismatch := if_pos mismatch

end Apply

end OracleCdc
end FaucetStream
