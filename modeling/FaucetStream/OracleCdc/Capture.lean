import FaucetStream.OracleCdc.Miner
import FaucetStream.OracleCdc.Position

namespace FaucetStream
namespace OracleCdc

open Json

/-!
# Capture runs and what is kept of them

A run mines the redo in consecutive windows, from the bookmark's restart SCN
on, and sends pages.  Where a window ends is decided by the database's current
SCN, the configured width and the checkpoint of other redo threads; whether an
aggregated page is due is decided by a clock.  Both are free here.

A run may stop anywhere.  Some first part of its pages is kept, and the next
run starts from the bookmark of the last page kept.
-/

/-- Redo rows in SCN order.  No row follows the end of its transaction. -/
structure History where
  rows : List LogRow
  sorted : rows.Pairwise (fun first second => first.scn ≤ second.scn)
  closed : rows.Pairwise (fun first second => first.Ends -> first.xid ≠ second.xid)

/-- A page carries the changes of some transactions; here it lists them. -/
structure Page (Event : Type) where
  records : List (Committed Event)
  bookmark : Value

inductive Phase where
  /-- Between two windows. -/
  | waiting
  /-- In the window that ends at `endScn`, opened at the position `before`. -/
  | mining (endScn : Nat) (before : Position) (pending : List LogRow)
  | finished

structure Run (Buffer Event : Type) where
  perTxn : Bool
  position : Position
  miner : Miner Buffer
  fromScn : Nat
  agg : List (Committed Event)
  phase : Phase
  pages : List (Page Event)

variable {Buffer Event : Type}

namespace Run

def start (perTxn : Bool) (position : Position) (pages : List (Page Event)) : Run Buffer Event :=
  ⟨perTxn, position, Miner.new, position.restartScn - 1, [], .waiting, pages⟩

/-- `mine` reads the rows with `from < SCN <= to`. -/
def openWindow (history : History) (run : Run Buffer Event) (endScn : Nat) : Run Buffer Event :=
  { run with
    phase := .mining endScn run.position
      (history.rows.filter (fun row => decide (run.fromScn < row.scn ∧ row.scn ≤ endScn))) }

/-- One redo row.  `due` is the answer of `agg_page_due`. -/
def onRow (decoder : Decoder Buffer Event) (run : Run Buffer Event) (row : LogRow) (due : Bool) :
    Except FaucetError (Run Buffer Event) := do
  let (miner, applied) <- run.miner.apply decoder row
  let run := { run with miner := miner }
  match applied with
  | none => .ok run
  | some txn =>
      if txn.events.isEmpty || run.position.alreadyEmitted txn.commitScn txn.xid then .ok run
      else
        let position := run.position.recordCommit txn.commitScn txn.xid miner.oldestOpen
        if run.perTxn then .ok { run with position := position, pages := run.pages ++ [⟨[txn], position.toValue⟩] }
        else if due then
          .ok { run with
            position := position, agg := [], pages := run.pages ++ [⟨run.agg ++ [txn], position.toValue⟩] }
        else .ok { run with position := position, agg := run.agg ++ [txn] }

def closeWindow (run : Run Buffer Event) (endScn : Nat) (before : Position) : Run Buffer Event :=
  let position := run.position.advanceTo endScn run.miner.oldestOpen
  { run with
    position := position
    fromScn := endScn
    phase := .waiting
    pages := if run.perTxn && decide (position ≠ before) then run.pages ++ [⟨[], position.toValue⟩] else run.pages }

/-- The end of an idle cycle. -/
def finish (run : Run Buffer Event) : Run Buffer Event :=
  if run.perTxn then { run with phase := .finished }
  else { run with phase := .finished, agg := [], pages := run.pages ++ [⟨run.agg, run.position.toValue⟩] }

/-- A step of `capture`.  `closes` restricts at which states a window may end. -/
inductive Step (decoder : Decoder Buffer Event) (history : History) (closes : Run Buffer Event -> Nat -> Prop) :
    Run Buffer Event -> Run Buffer Event -> Prop where
  | openWindow {run : Run Buffer Event} {endScn : Nat} (waits : run.phase = .waiting) (ahead : run.fromScn < endScn) :
      Step decoder history closes run (run.openWindow history endScn)
  | onRow {run next : Run Buffer Event} {endScn : Nat} {before : Position} {row : LogRow} {pending : List LogRow}
      {due : Bool} (mines : run.phase = .mining endScn before (row :: pending))
      (done : run.onRow decoder row due = .ok next) :
      Step decoder history closes run { next with phase := .mining endScn before pending }
  | closeWindow {run : Run Buffer Event} {endScn : Nat} {before : Position}
      (mines : run.phase = .mining endScn before []) (granted : closes run endScn) :
      Step decoder history closes run (run.closeWindow endScn before)
  | finish {run : Run Buffer Event} (waits : run.phase = .waiting) : Step decoder history closes run run.finish

end Run

/-! ## A sequence of runs -/

/-- What was kept so far, and the run under way. -/
structure System (Buffer Event : Type) where
  kept : List (Committed Event)
  stored : Option Value
  run : Option (Run Buffer Event)

def carried (pages : List (Page Event)) : List (Committed Event) := pages.flatMap Page.records

/-- The bookmark in the store once `pages` are kept. -/
def lastBookmark (stored : Option Value) (pages : List (Page Event)) : Option Value :=
  (pages.getLast?.map Page.bookmark).or stored

/-- A position bound to the incarnations the database reports. -/
def bound (position : Position) (resetlogs : Nat) (pdb : Option Nat) : Except FaucetError Position := do
  let position <- position.bindIncarnation resetlogs
  position.bindPdbIncarnation pdb

namespace System

def initial : System Buffer Event := ⟨[], none, none⟩

inductive Step (decoder : Decoder Buffer Event) (history : History) (first : Position)
    (closes : Run Buffer Event -> Nat -> Prop) : System Buffer Event -> System Buffer Event -> Prop where
  | first {system : System Buffer Event} {perTxn : Bool} {resetlogs : Nat} {pdb : Option Nat} {position : Position}
      (idle : system.run = none) (fresh : system.stored = none) (binds : bound first resetlogs pdb = .ok position) :
      Step decoder history first closes system
        { system with run := some (.start perTxn position (if perTxn then [⟨[], position.toValue⟩] else [])) }
  | resume {system : System Buffer Event} {perTxn : Bool} {resetlogs : Nat} {pdb : Option Nat} {value : Value}
      {saved position : Position} (idle : system.run = none) (found : system.stored = some value)
      (reads : Position.fromValue value = .ok saved) (binds : bound saved resetlogs pdb = .ok position) :
      Step decoder history first closes system { system with run := some (.start perTxn position []) }
  | work {system : System Buffer Event} {run next : Run Buffer Event} (running : system.run = some run)
      (moves : run.Step decoder history closes next) :
      Step decoder history first closes system { system with run := some next }
  | stop {system : System Buffer Event} {run : Run Buffer Event} (count : Nat) (running : system.run = some run) :
      Step decoder history first closes system
        ⟨system.kept ++ carried (run.pages.take count), lastBookmark system.stored (run.pages.take count), none⟩

/-- The states some sequence of runs comes to. -/
inductive Reaches (decoder : Decoder Buffer Event) (history : History) (first : Position)
    (closes : Run Buffer Event -> Nat -> Prop) : System Buffer Event -> Prop where
  | initial : Reaches decoder history first closes initial
  | step {system next : System Buffer Event} (reached : Reaches decoder history first closes system)
      (moves : Step decoder history first closes system next) : Reaches decoder history first closes next

end System

/-! ## What should come out -/

/-- What a transaction's rows release at its COMMIT row. -/
def outcome (decoder : Decoder Buffer Event) (rows : List LogRow) (row : LogRow) :
    Except FaucetError (Option (Committed Event)) := do
  let slot <- assemble decoder rows
  release decoder slot row

/-- A transaction as all its rows in the history make it. -/
def Whole (decoder : Decoder Buffer Event) (history : History) (committed : Committed Event) : Prop :=
  exists before row after, history.rows = before ++ row :: after ∧ row.op = Op.COMMIT ∧
    outcome decoder (rowsOf before row.xid) row = .ok (some committed)

/-- A transaction open at `current`: begun, and not ended up to there. -/
def OpenAt (history : History) (current : Nat) (row : LogRow) : Prop :=
  row ∈ history.rows ∧ row.scn ≤ current ∧
    forall last, last ∈ history.rows -> last.xid = row.xid -> last.Ends -> current < last.scn

/-- `oldest` is at most the SCN of the first row of every transaction open at
`current`.  0 is no SCN. -/
def ReachesBack (history : History) (current : Nat) (oldest : Option Nat) : Prop :=
  forall row, OpenAt history current row -> exists start, oldest = some start ∧ 0 < start ∧ start ≤ row.scn

end OracleCdc
end FaucetStream
