import FaucetStream.Library.Overwrite
import FaucetStream.Library.Slots
import FaucetStream.Library.Utf16
import FaucetStream.OracleCdc.Redo

namespace FaucetStream
namespace OracleCdc

open Library

/-!
# Writes to large objects

A long text is logged in pieces, in any order and spread over several redo rows.
The first piece stands at an offset in UTF-16 units, each further one at the
offset of the piece before plus its number of characters.  The two counts part
at the first character of two units, and every later piece is logged too early
by as much.
-/

/-- One write to a large object. -/
structure LobPiece where
  /-- Counted from one. -/
  offset : Nat
  data : Resolved
  deriving DecidableEq

structure LobChange where
  owner : String
  table : String
  column : String
  conditions : Image
  writes : List LobPiece
  /-- The length after a trim. -/
  trim : Option Nat
  deriving DecidableEq

/-! ## Offsets in units -/

/-- Places one write, in the order of the logged offsets.  The table holds, at
the end of each text in characters, how far that end lies ahead in units. -/
def placeWrite (state : List (Nat × Nat) × List Nat) (entry : LobPiece × Nat) : List (Nat × Nat) × List Nat :=
  let write := entry.1
  let shift := (state.1.lookup write.offset).getD 0
  let offsets := state.2.set entry.2 (write.offset + shift)
  match write.data with
  | .text text =>
      let chars := text.toList.length
      let units := (encodeUtf16 text.toList).length
      (assign state.1 (write.offset + chars) (shift + units - chars), offsets)
  | _ => (state.1, offsets)

/-- The offset of each write in units. -/
def unitOffsets (writes : List LobPiece) : List Nat :=
  let order := writes.zipIdx.mergeSort (fun first second => decide (first.1.offset ≤ second.1.offset))
  (order.foldl placeWrite ([], List.replicate writes.length 0)).2

/-! ## Whole rewrites -/

def dataLength : Resolved -> Nat
  | .bytes bytes => bytes.length
  | .text text => (encodeUtf16 text.toList).length
  | _ => 0

/-- Whether writes in order leave no gap behind the end reached so far. -/
def coversFrom (reached : Nat) : List (Nat × LobPiece) -> Bool
  | [] => true
  | (offset, write) :: rest =>
      if offset > reached then false
      else coversFrom (max reached (offset + dataLength write.data)) rest

def isFullRewriteAll (changes : List LobChange) : Bool :=
  if changes.any (fun change => change.trim.isSome) then false
  else
    let writes := changes.flatMap LobChange.writes
    if writes.isEmpty then false
    else
      let pieces := (unitOffsets writes).zip writes
      coversFrom 1 (pieces.mergeSort (fun first second => decide (first.1 ≤ second.1)))

/-! ## Applying writes -/

def truncateTo {Item : Type} (items : List Item) (trim : Option Nat) : List Item :=
  match trim with
  | some length => items.take length
  | none => items

def bytesOf : Resolved -> List UInt8
  | .bytes bytes => bytes
  | .text text => text.toUTF8.toList
  | _ => []

def unitsOf : Resolved -> List UInt16
  | .text text => encodeUtf16 text.toList
  | _ => []

def isBytes : Resolved -> Bool
  | .bytes _ => true
  | _ => false

/-- The writes and the trim of one change to bytes. -/
def applyBytes (bytes : List UInt8) (change : LobChange) : List UInt8 :=
  let written := change.writes.foldl (fun bytes write => writeAt 0 bytes (write.offset - 1) (bytesOf write.data)) bytes
  truncateTo written change.trim

/-- The writes and the trim of one change to a text, each write at the next of
the offsets. -/
def applyUnits (state : List UInt16 × List Nat) (change : LobChange) : List UInt16 × List Nat :=
  let written := (change.writes.zip state.2).foldl
    (fun units entry => writeAt 0x20 units (entry.2 - 1) (unitsOf entry.1.data)) state.1
  (truncateTo written change.trim, state.2.drop change.writes.length)

/-- Applies the changes of a transaction to one large object. -/
def applyLobAll (current : Resolved) (changes : List LobChange) : Resolved :=
  let writes := changes.flatMap LobChange.writes
  if isBytes current || writes.any (fun write => isBytes write.data) then
    let bytes := match current with
      | .bytes bytes => bytes
      | _ => []
    .bytes (changes.foldl applyBytes bytes)
  else
    .text (String.ofList (fromUtf16Lossy (changes.foldl applyUnits (unitsOf current, unitOffsets writes)).1))

end OracleCdc
end FaucetStream
