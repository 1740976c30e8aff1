import FaucetStream.Error
import FaucetStream.Library.Hex
import FaucetStream.Library.Reader
import FaucetStream.Library.Utf8

namespace FaucetStream
namespace PostgresCdc
namespace Pgoutput

open Library

/-!
# Decoding pgoutput messages

The first byte of a payload says what message follows.  Numbers are big-endian,
names end with a zero byte, texts and lists come after their length.  One cursor
moves through the payload, and the first thing that does not fit fails the
message.
-/

/-! ## Messages -/

inductive MessageKind where
  | begin
  | commit
  | origin
  | relation
  | type
  | insert
  | update
  | delete
  | truncate

/-- REPLICA IDENTITY of a relation. -/
inductive ReplicaIdentity where
  | default
  | nothing
  | full
  | index
  deriving DecidableEq

structure ColumnDesc where
  /-- Bit 0 = part of the replica identity key. -/
  flags : UInt8
  name : String
  typeOid : UInt32
  typeModifier : Int32
  deriving DecidableEq

structure Begin where
  finalLsn : UInt64
  commitTs : Int64
  xid : UInt32
  deriving DecidableEq

structure Commit where
  flags : UInt8
  commitLsn : UInt64
  endLsn : UInt64
  commitTs : Int64
  deriving DecidableEq

structure Relation where
  oid : UInt32
  /-- The namespace. -/
  schema : String
  name : String
  replicaIdentity : ReplicaIdentity
  columns : List ColumnDesc
  deriving DecidableEq

inductive TupleCell where
  | null
  | unchangedToast
  | text (value : String)
  deriving DecidableEq

structure TupleData where
  cells : List TupleCell
  deriving DecidableEq

structure Insert where
  relationOid : UInt32
  new : TupleData
  deriving DecidableEq

inductive UpdateOldKind where
  | none
  | key
  | full
  deriving DecidableEq

structure Update where
  relationOid : UInt32
  oldKind : UpdateOldKind
  old : Option TupleData
  new : TupleData
  deriving DecidableEq

inductive DeleteOldKind where
  | key
  | full
  deriving DecidableEq

structure Delete where
  relationOid : UInt32
  oldKind : DeleteOldKind
  old : TupleData
  deriving DecidableEq

structure Truncate where
  relationOids : List UInt32
  cascade : Bool
  restartIdentity : Bool
  deriving DecidableEq

inductive Message where
  | begin (begin : Begin)
  | commit (commit : Commit)
  | origin
  | relation (relation : Relation)
  | type
  | insert (insert : Insert)
  | update (update : Update)
  | delete (delete : Delete)
  | truncate (truncate : Truncate)
  deriving DecidableEq

/-! ## How errors show a byte and a broken text -/

def asChar (byte : UInt8) : Char := Char.ofNat byte.toNat

/-- A byte read as a character and printed for debugging. -/
def debugChar (byte : UInt8) : String :=
  let printable := (32 ≤ byte.toNat && byte.toNat < 127) || (160 < byte.toNat && byte != 173)
  let shown := match asChar byte with
    | '\x00' => "\\0"
    | '\t' => "\\t"
    | '\r' => "\\r"
    | '\n' => "\\n"
    | '\'' => "\\'"
    | '\\' => "\\\\"
    | character =>
        if printable then character.toString
        else "\\u\x7b" ++ String.ofList (Nat.toDigits 16 byte.toNat) ++ "\x7d"
  "'" ++ shown ++ "'"

def upperHex (byte : UInt8) : String := String.ofList [hexDigit (byte.toNat / 16), hexDigit (byte.toNat % 16)]

def isContinuation (byte : UInt8) : Bool := 128 ≤ byte.toNat && byte.toNat < 192

/-- Which second bytes a leading byte of three or four allows. -/
def allowsSecond (leading second : UInt8) : Bool :=
  let value := second.toNat
  match leading.toNat with
  | 0xE0 => 0xA0 ≤ value && value ≤ 0xBF
  | 0xED => 0x80 ≤ value && value ≤ 0x9F
  | 0xF0 => 0x90 ≤ value && value ≤ 0xBF
  | 0xF4 => 0x80 ≤ value && value ≤ 0x8F
  | _ => isContinuation second

/-- The first character of a text, as the number of its bytes, or how much of it
is invalid; the bytes may also end inside it. -/
def utf8Step (leading : UInt8) (rest : List UInt8) : Except (Option Nat) Nat :=
  let width :=
    if leading.toNat < 0x80 then 1
    else if 0xC2 ≤ leading.toNat && leading.toNat ≤ 0xDF then 2
    else if 0xE0 ≤ leading.toNat && leading.toNat ≤ 0xEF then 3
    else if 0xF0 ≤ leading.toNat && leading.toNat ≤ 0xF4 then 4
    else 0
  match width, rest with
  | 1, _ => .ok 1
  | 0, _ => .error (some 1)
  | _, [] => .error none
  | 2, second :: _ => if isContinuation second then .ok 2 else .error (some 1)
  | 3, second :: rest =>
      if !allowsSecond leading second then .error (some 1)
      else match rest with
        | [] => .error none
        | third :: _ => if isContinuation third then .ok 3 else .error (some 2)
  | _, second :: rest =>
      if !allowsSecond leading second then .error (some 1)
      else match rest with
        | [] => .error none
        | third :: rest =>
            if !isContinuation third then .error (some 2)
            else match rest with
              | [] => .error none
              | fourth :: _ => if isContinuation fourth then .ok 4 else .error (some 3)

/-- The text of `Utf8Error`, from the place it has come to. -/
def utf8ErrorFrom (index : Nat) : Nat -> List UInt8 -> String
  | 0, _ => ""
  | _ + 1, [] => ""
  | fuel + 1, leading :: rest =>
      match utf8Step leading rest with
      | .ok width => utf8ErrorFrom (index + width) fuel (rest.drop (width - 1))
      | .error none => "incomplete utf-8 byte sequence from index " ++ toString index
      | .error (some length) =>
          "invalid utf-8 sequence of " ++ toString length ++ " bytes from index " ++ toString index

def utf8Error (bytes : List UInt8) : String := utf8ErrorFrom 0 bytes.length bytes

/-! ## The cursor -/

abbrev Decoder := Reader UInt8 FaucetError

def ioErrIn (context : String) : FaucetError :=
  .source ("pgoutput " ++ context ++ ": failed to fill whole buffer")

def readNumber (width : Nat) (context : String) : Decoder Nat := do
  let bytes ← Reader.exactly width (ioErrIn context)
  pure (fromBigEndian bytes)

def readU8 (context : String) : Decoder UInt8 := do
  let value ← readNumber 1 context
  pure (UInt8.ofNat value)

def readU16 (context : String) : Decoder UInt16 := do
  let value ← readNumber 2 context
  pure (UInt16.ofNat value)

def readU32 (context : String) : Decoder UInt32 := do
  let value ← readNumber 4 context
  pure (UInt32.ofNat value)

def readU64 (context : String) : Decoder UInt64 := do
  let value ← readNumber 8 context
  pure (UInt64.ofNat value)

def readI32 (context : String) : Decoder Int32 := do
  let value ← readU32 context
  pure value.toInt32

def readI64 (context : String) : Decoder Int64 := do
  let value ← readU64 context
  pure value.toInt64

/-- `String::from_utf8`, with the error the caller makes of a failure. -/
def fromUtf8 (bytes : List UInt8) (wrap : String -> FaucetError) : Decoder String :=
  match decodeUtf8 bytes with
  | some text => pure (String.ofList text)
  | none => throw (wrap (utf8Error bytes))

def readCstring : Decoder String := do
  let out ← (Reader.untilStop 0 (ioErrIn "cstring") [] : Decoder (List UInt8))
  fromUtf8 out (fun e => .source ("pgoutput cstring: " ++ e))

/-! ## Messages and their parts -/

def MessageKind.fromByte (b : UInt8) : Except FaucetError MessageKind :=
  match asChar b with
  | 'B' => .ok .begin
  | 'C' => .ok .commit
  | 'O' => .ok .origin
  | 'R' => .ok .relation
  | 'Y' => .ok .type
  | 'I' => .ok .insert
  | 'U' => .ok .update
  | 'D' => .ok .delete
  | 'T' => .ok .truncate
  | _ => .error (.source ("pgoutput: unknown message kind " ++ debugChar b ++ " (0x" ++ upperHex b ++ ")"))

def MessageKind.asByte : MessageKind -> UInt8
  | .begin => 'B'.toUInt8
  | .commit => 'C'.toUInt8
  | .origin => 'O'.toUInt8
  | .relation => 'R'.toUInt8
  | .type => 'Y'.toUInt8
  | .insert => 'I'.toUInt8
  | .update => 'U'.toUInt8
  | .delete => 'D'.toUInt8
  | .truncate => 'T'.toUInt8

def ReplicaIdentity.fromByte (b : UInt8) : Except FaucetError ReplicaIdentity :=
  match asChar b with
  | 'd' => .ok .default
  | 'n' => .ok .nothing
  | 'f' => .ok .full
  | 'i' => .ok .index
  | _ => .error (.source ("pgoutput: unknown replica identity " ++ debugChar b ++ " (0x" ++ upperHex b ++ ")"))

def ReplicaIdentity.asByte : ReplicaIdentity -> UInt8
  | .default => 'd'.toUInt8
  | .nothing => 'n'.toUInt8
  | .full => 'f'.toUInt8
  | .index => 'i'.toUInt8

/-- The text of a cell, after its length. -/
def decodeText (len : UInt32) : Decoder TupleCell := do
  let rem ← Reader.remaining
  if len.toNat > rem then
    throw (.source ("pgoutput tuple: declared text length " ++ toString len ++ " exceeds " ++ toString rem ++
      " remaining bytes"))
  else do
    let buf ← Reader.exactly len.toNat (ioErrIn "tuple")
    let value ← fromUtf8 buf (fun e => .source ("pgoutput tuple text not UTF-8: " ++ e))
    pure (.text value)

def decodeCell : Decoder TupleCell := do
  let kind ← readU8 "tuple"
  match asChar kind with
  | 'n' => pure .null
  | 'u' => pure .unchangedToast
  | 't' => do
      let len ← readU32 "tuple"
      decodeText len
  | 'b' => throw (.source "pgoutput tuple: binary-mode cells not supported in v1")
  | _ => throw (.source ("pgoutput tuple: unknown cell tag " ++ debugChar kind))

def decodeTuple : Decoder TupleData := do
  let n ← readU16 "tuple"
  let cells ← decodeCell.times n.toNat
  pure ⟨cells⟩

def decodeBegin : Decoder Begin := do
  let finalLsn ← readU64 "BEGIN"
  let commitTs ← readI64 "BEGIN"
  let xid ← readU32 "BEGIN"
  pure ⟨finalLsn, commitTs, xid⟩

def decodeCommit : Decoder Commit := do
  let flags ← readU8 "COMMIT"
  let commitLsn ← readU64 "COMMIT"
  let endLsn ← readU64 "COMMIT"
  let commitTs ← readI64 "COMMIT"
  pure ⟨flags, commitLsn, endLsn, commitTs⟩

def decodeColumn : Decoder ColumnDesc := do
  let flags ← readU8 "RELATION"
  let name ← readCstring
  let typeOid ← readU32 "RELATION"
  let typeModifier ← readI32 "RELATION"
  pure ⟨flags, name, typeOid, typeModifier⟩

def decodeRelation : Decoder Relation := do
  let oid ← readU32 "RELATION"
  let schema ← readCstring
  let name ← readCstring
  let identity ← readU8 "RELATION"
  let replicaIdentity ← (StateT.lift (ReplicaIdentity.fromByte identity) : Decoder ReplicaIdentity)
  let nColumns ← readU16 "RELATION"
  let columns ← decodeColumn.times nColumns.toNat
  pure ⟨oid, schema, name, replicaIdentity, columns⟩

def decodeInsert : Decoder Insert := do
  let relationOid ← readU32 "INSERT"
  let tag ← readU8 "INSERT"
  if tag ≠ 'N'.toUInt8 then
    throw (.source ("pgoutput INSERT: expected 'N' tuple tag, got " ++ debugChar tag))
  else do
    let new ← decodeTuple
    pure ⟨relationOid, new⟩

/-- What follows the old tuple of an update. -/
def decodeUpdateNew (relationOid : UInt32) (oldKind : UpdateOldKind) (old : TupleData) : Decoder Update := do
  let nTag ← readU8 "UPDATE"
  if nTag ≠ 'N'.toUInt8 then
    throw (.source ("pgoutput UPDATE: expected 'N' new-tuple tag after old tuple, got " ++ debugChar nTag))
  else do
    let new ← decodeTuple
    pure ⟨relationOid, oldKind, some old, new⟩

def decodeUpdate : Decoder Update := do
  let relationOid ← readU32 "UPDATE"
  let first ← readU8 "UPDATE"
  match asChar first with
  | 'K' => do
      let old ← decodeTuple
      decodeUpdateNew relationOid .key old
  | 'O' => do
      let old ← decodeTuple
      decodeUpdateNew relationOid .full old
  | 'N' => do
      let new ← decodeTuple
      pure ⟨relationOid, .none, none, new⟩
  | _ => throw (.source ("pgoutput UPDATE: invalid first tag byte " ++ debugChar first ++ " (0x" ++ upperHex first ++
      "), expected 'K', 'O', or 'N'"))

def decodeDelete : Decoder Delete := do
  let relationOid ← readU32 "DELETE"
  let tag ← readU8 "DELETE"
  match asChar tag with
  | 'K' => do
      let old ← decodeTuple
      pure ⟨relationOid, .key, old⟩
  | 'O' => do
      let old ← decodeTuple
      pure ⟨relationOid, .full, old⟩
  | _ => throw (.source ("pgoutput DELETE: expected 'K' or 'O' tuple tag, got " ++ debugChar tag))

def saturatingMul (left right : Nat) : Nat := min (left * right) (2 ^ 64 - 1)

/-- The relations of a truncation, after their number and the flags. -/
def decodeOids (n : UInt32) (flags : UInt8) : Decoder Truncate := do
  let rem ← Reader.remaining
  if saturatingMul n.toNat 4 > rem then
    throw (.source ("pgoutput TRUNCATE: declared relation count " ++ toString n ++ " exceeds " ++ toString rem ++
      " remaining bytes"))
  else do
    let oids ← (readU32 "TRUNCATE").times n.toNat
    pure ⟨oids, flags &&& 0b01 != 0, flags &&& 0b10 != 0⟩

def decodeTruncate : Decoder Truncate := do
  let n ← readU32 "TRUNCATE"
  let flags ← readU8 "TRUNCATE"
  decodeOids n flags

def decodeKind : MessageKind -> Decoder Message
  | .begin => .begin <$> decodeBegin
  | .commit => .commit <$> decodeCommit
  | .origin => pure .origin
  | .relation => .relation <$> decodeRelation
  | .type => pure .type
  | .insert => .insert <$> decodeInsert
  | .update => .update <$> decodeUpdate
  | .delete => .delete <$> decodeDelete
  | .truncate => .truncate <$> decodeTruncate

def decodeCursor : Decoder Message := do
  let byte ← readU8 "kind byte"
  let kind ← (StateT.lift (MessageKind.fromByte byte) : Decoder MessageKind)
  decodeKind kind

/-- `decode_message`: what follows the message is left unread. -/
def decodeMessage (buf : List UInt8) : Except FaucetError Message := decodeCursor.run' buf

end Pgoutput
end PostgresCdc
end FaucetStream
