import FaucetStream.PostgresCdc.Decoder

namespace FaucetStream
namespace PostgresCdc
namespace Pgoutput

open Library

/-!
# Messages on the wire

What the server sends for a message, and that the decoder reads it back:
whatever follows the message, and never from a part of it.
-/

/-! ## Encoding -/

def encodeU8 (value : UInt8) : List UInt8 := [value]

def encodeU16 (value : Nat) : List UInt8 := bigEndian 2 value

def encodeU32 (value : Nat) : List UInt8 := bigEndian 4 value

def encodeU64 (value : UInt64) : List UInt8 := bigEndian 8 value.toNat

def encodeI32 (value : Int32) : List UInt8 := encodeU32 value.toUInt32.toNat

def encodeI64 (value : Int64) : List UInt8 := encodeU64 value.toUInt64

def encodeCstring (name : String) : List UInt8 := encodeUtf8 name.toList ++ [0]

def TupleCell.encode : TupleCell -> List UInt8
  | .null => encodeU8 'n'.toUInt8
  | .unchangedToast => encodeU8 'u'.toUInt8
  | .text value =>
      let bytes := encodeUtf8 value.toList
      encodeU8 't'.toUInt8 ++ (encodeU32 bytes.length ++ bytes)

def TupleData.encode (tuple : TupleData) : List UInt8 :=
  encodeU16 tuple.cells.length ++ tuple.cells.flatMap TupleCell.encode

def ColumnDesc.encode (column : ColumnDesc) : List UInt8 :=
  encodeU8 column.flags ++ (encodeCstring column.name ++
    (encodeU32 column.typeOid.toNat ++ encodeI32 column.typeModifier))

def Begin.encode (begin : Begin) : List UInt8 :=
  encodeU64 begin.finalLsn ++ (encodeI64 begin.commitTs ++ encodeU32 begin.xid.toNat)

def Commit.encode (commit : Commit) : List UInt8 :=
  encodeU8 commit.flags ++ (encodeU64 commit.commitLsn ++ (encodeU64 commit.endLsn ++ encodeI64 commit.commitTs))

def Relation.encode (relation : Relation) : List UInt8 :=
  encodeU32 relation.oid.toNat ++ (encodeCstring relation.schema ++ (encodeCstring relation.name ++
    (encodeU8 relation.replicaIdentity.asByte ++
      (encodeU16 relation.columns.length ++ relation.columns.flatMap ColumnDesc.encode))))

def Insert.encode (insert : Insert) : List UInt8 :=
  encodeU32 insert.relationOid.toNat ++ (encodeU8 'N'.toUInt8 ++ insert.new.encode)

/-- The old tuple under its tag, when the update carries one. -/
def encodeOld : UpdateOldKind -> Option TupleData -> List UInt8
  | .key, some old => encodeU8 'K'.toUInt8 ++ old.encode
  | .full, some old => encodeU8 'O'.toUInt8 ++ old.encode
  | _, _ => []

def Update.encode (update : Update) : List UInt8 :=
  encodeU32 update.relationOid.toNat ++ (encodeOld update.oldKind update.old ++
    (encodeU8 'N'.toUInt8 ++ update.new.encode))

def DeleteOldKind.tag : DeleteOldKind -> UInt8
  | .key => 'K'.toUInt8
  | .full => 'O'.toUInt8

def Delete.encode (delete : Delete) : List UInt8 :=
  encodeU32 delete.relationOid.toNat ++ (encodeU8 delete.oldKind.tag ++ delete.old.encode)

def Truncate.flags (truncate : Truncate) : UInt8 :=
  (if truncate.cascade then 0b01 else 0) ||| (if truncate.restartIdentity then 0b10 else 0)

def Truncate.encode (truncate : Truncate) : List UInt8 :=
  encodeU32 truncate.relationOids.length ++ (encodeU8 truncate.flags ++
    truncate.relationOids.flatMap (fun oid => encodeU32 oid.toNat))

/-- A message after its kind; of origins and types the decoder reads the kind
alone, and what they carry is not modelled. -/
def Message.encode : Message -> List UInt8
  | .begin body => encodeU8 MessageKind.begin.asByte ++ body.encode
  | .commit body => encodeU8 MessageKind.commit.asByte ++ body.encode
  | .origin => encodeU8 MessageKind.origin.asByte
  | .relation body => encodeU8 MessageKind.relation.asByte ++ body.encode
  | .type => encodeU8 MessageKind.type.asByte
  | .insert body => encodeU8 MessageKind.insert.asByte ++ body.encode
  | .update body => encodeU8 MessageKind.update.asByte ++ body.encode
  | .delete body => encodeU8 MessageKind.delete.asByte ++ body.encode
  | .truncate body => encodeU8 MessageKind.truncate.asByte ++ body.encode

/-! ## Messages that can be sent

A name holds no zero byte, a list no more than its count can say, and a text no
more than four bytes can say. -/

def NulFree (name : String) : Prop := '\x00' ∉ name.toList

instance (name : String) : Decidable (NulFree name) := inferInstanceAs (Decidable ('\x00' ∉ name.toList))

def TupleCell.Sendable : TupleCell -> Prop
  | .text value => (encodeUtf8 value.toList).length < 2 ^ 32
  | _ => True

def TupleData.Sendable (tuple : TupleData) : Prop :=
  tuple.cells.length ≤ 65535 ∧ forall cell, cell ∈ tuple.cells -> cell.Sendable

structure Relation.Sendable (relation : Relation) : Prop where
  schema : NulFree relation.schema
  name : NulFree relation.name
  count : relation.columns.length ≤ 65535
  columns : forall column, column ∈ relation.columns -> NulFree column.name

/-- The old tuple is there exactly when the update says it is. -/
def OldSendable : UpdateOldKind -> Option TupleData -> Prop
  | .none, none => True
  | .key, some old => old.Sendable
  | .full, some old => old.Sendable
  | _, _ => False

def Message.Sendable : Message -> Prop
  | .begin _ => True
  | .commit _ => True
  | .origin => False
  | .relation body => body.Sendable
  | .type => False
  | .insert body => body.new.Sendable
  | .update body => OldSendable body.oldKind body.old ∧ body.new.Sendable
  | .delete body => body.old.Sendable
  | .truncate body => body.relationOids.length < 2 ^ 32

/-! ## Reading the parts back -/

theorem readNumber_reads {width value : Nat} (fits : value < 256 ^ width) (context : String) :
    Reads (readNumber width context) (bigEndian width value) value := by
  have exact : Reads (Reader.exactly width (ioErrIn context)) (bigEndian width value) (bigEndian width value) := by
    have whole := Reads.exactly (bigEndian width value) (ioErrIn context)
    rw [length_bigEndian] at whole
    exact whole
  have decoded : Reads (readNumber width context) (bigEndian width value)
      (fromBigEndian (bigEndian width value)) := exact.then_pure
  rw [fromBigEndian_bigEndian fits] at decoded
  exact decoded

theorem readU8_reads (context : String) (value : UInt8) : Reads (readU8 context) (encodeU8 value) value := by
  have decoded : Reads (readU8 context) (bigEndian 1 value.toNat) (UInt8.ofNat value.toNat) :=
    (readNumber_reads value.toNat_lt context).then_pure
  have single : bigEndian 1 value.toNat = encodeU8 (UInt8.ofNat value.toNat) := rfl
  rw [single, UInt8.ofNat_toNat] at decoded
  exact decoded

theorem readU16_reads {count : Nat} (fits : count ≤ 65535) (context : String) :
    Reads (readU16 context) (encodeU16 count) (UInt16.ofNat count) :=
  (readNumber_reads (Nat.lt_succ_of_le fits) context).then_pure

theorem readLength_reads {count : Nat} (fits : count < 2 ^ 32) (context : String) :
    Reads (readU32 context) (encodeU32 count) (UInt32.ofNat count) :=
  (readNumber_reads fits context).then_pure

theorem readU32_reads (context : String) (value : UInt32) :
    Reads (readU32 context) (encodeU32 value.toNat) value := by
  have decoded := readLength_reads value.toNat_lt context
  rw [UInt32.ofNat_toNat] at decoded
  exact decoded

theorem readU64_reads (context : String) (value : UInt64) : Reads (readU64 context) (encodeU64 value) value := by
  have decoded : Reads (readU64 context) (encodeU64 value) (UInt64.ofNat value.toNat) :=
    (readNumber_reads value.toNat_lt context).then_pure
  rw [UInt64.ofNat_toNat] at decoded
  exact decoded

theorem readI32_reads (context : String) (value : Int32) : Reads (readI32 context) (encodeI32 value) value := by
  have decoded : Reads (readI32 context) (encodeI32 value) value.toUInt32.toInt32 :=
    (readU32_reads context value.toUInt32).then_pure
  rw [Int32.toInt32_toUInt32] at decoded
  exact decoded

theorem readI64_reads (context : String) (value : Int64) : Reads (readI64 context) (encodeI64 value) value := by
  have decoded : Reads (readI64 context) (encodeI64 value) value.toUInt64.toInt64 :=
    (readU64_reads context value.toUInt64).then_pure
  rw [Int64.toInt64_toUInt64] at decoded
  exact decoded

theorem fromUtf8_encodeUtf8 (text : String) (wrap : String -> FaucetError) :
    fromUtf8 (encodeUtf8 text.toList) wrap = pure text := by
  unfold fromUtf8
  rw [decodeUtf8_encodeUtf8]
  dsimp only
  rw [String.ofList_toList]

theorem readCstring_reads {name : String} (nulFree : NulFree name) :
    Reads readCstring (encodeCstring name) name := by
  have absent : (0 : UInt8) ∉ encodeUtf8 name.toList := ascii_not_mem_encodeUtf8 (by decide) nulFree
  have text : Reads (fromUtf8 (encodeUtf8 name.toList) (fun e => .source ("pgoutput cstring: " ++ e))) [] name := by
    rw [fromUtf8_encodeUtf8]
    exact Reads.pure name
  exact (Reads.untilStop absent (ioErrIn "cstring")).finish text

theorem decodeText_reads {value : String} (fits : (encodeUtf8 value.toList).length < 2 ^ 32) :
    Reads (decodeText (UInt32.ofNat (encodeUtf8 value.toList).length)) (encodeUtf8 value.toList) (.text value) := by
  have length : (UInt32.ofNat (encodeUtf8 value.toList).length).toNat = (encodeUtf8 value.toList).length :=
    UInt32.toNat_ofNat_of_lt' fits
  have text : Reads (fromUtf8 (encodeUtf8 value.toList)
      (fun e => .source ("pgoutput tuple text not UTF-8: " ++ e))) [] value := by
    rw [fromUtf8_encodeUtf8]
    exact Reads.pure value
  unfold decodeText
  rw [length]
  apply Reads.limited _ le_rfl
  exact (Reads.exactly _ _).finish text.then_pure

theorem decodeCell_reads {cell : TupleCell} (sendable : cell.Sendable) : Reads decodeCell cell.encode cell := by
  cases cell with
  | null => exact (readU8_reads "tuple" 'n'.toUInt8).bind (Reads.pure TupleCell.null)
  | unchangedToast => exact (readU8_reads "tuple" 'u'.toUInt8).bind (Reads.pure TupleCell.unchangedToast)
  | text value =>
      have text := (readLength_reads sendable "tuple").bind (decodeText_reads sendable)
      exact (readU8_reads "tuple" 't'.toUInt8).bind text

theorem decodeTuple_reads {tuple : TupleData} (sendable : tuple.Sendable) :
    Reads decodeTuple tuple.encode tuple := by
  have cells := Reads.times (fun cell member => decodeCell_reads (sendable.2 cell member))
  have count : (UInt16.ofNat tuple.cells.length).toNat = tuple.cells.length :=
    UInt16.toNat_ofNat_of_lt' (Nat.lt_succ_of_le sendable.1)
  refine (readU16_reads sendable.1 "tuple").bind ?_
  rw [count]
  exact cells.then_pure

/-! ## Reading a message back -/

theorem decodeBegin_reads (begin : Begin) : Reads decodeBegin begin.encode begin :=
  (readU64_reads "BEGIN" begin.finalLsn).bind
    ((readI64_reads "BEGIN" begin.commitTs).bind (readU32_reads "BEGIN" begin.xid).then_pure)

theorem decodeCommit_reads (commit : Commit) : Reads decodeCommit commit.encode commit :=
  (readU8_reads "COMMIT" commit.flags).bind
    ((readU64_reads "COMMIT" commit.commitLsn).bind
      ((readU64_reads "COMMIT" commit.endLsn).bind (readI64_reads "COMMIT" commit.commitTs).then_pure))

theorem decodeColumn_reads {column : ColumnDesc} (nulFree : NulFree column.name) :
    Reads decodeColumn column.encode column :=
  (readU8_reads "RELATION" column.flags).bind
    ((readCstring_reads nulFree).bind
      ((readU32_reads "RELATION" column.typeOid).bind (readI32_reads "RELATION" column.typeModifier).then_pure))

theorem ReplicaIdentity.fromByte_asByte (identity : ReplicaIdentity) :
    ReplicaIdentity.fromByte identity.asByte = .ok identity := by
  cases identity <;> rfl

theorem decodeRelation_reads {relation : Relation} (sendable : relation.Sendable) :
    Reads decodeRelation relation.encode relation := by
  have columns := Reads.times (fun column member => decodeColumn_reads (sendable.columns column member))
  have count : (UInt16.ofNat relation.columns.length).toNat = relation.columns.length :=
    UInt16.toNat_ofNat_of_lt' (Nat.lt_succ_of_le sendable.count)
  refine (readU32_reads "RELATION" relation.oid).bind ?_
  refine (readCstring_reads sendable.schema).bind ?_
  refine (readCstring_reads sendable.name).bind ?_
  refine (readU8_reads "RELATION" relation.replicaIdentity.asByte).bind ?_
  rw [ReplicaIdentity.fromByte_asByte]
  refine (Reads.lift_ok relation.replicaIdentity).bind ?_
  refine (readU16_reads sendable.count "RELATION").bind ?_
  rw [count]
  exact columns.then_pure

theorem decodeInsert_reads {insert : Insert} (sendable : insert.new.Sendable) :
    Reads decodeInsert insert.encode insert := by
  refine (readU32_reads "INSERT" insert.relationOid).bind ?_
  refine (readU8_reads "INSERT" 'N'.toUInt8).bind ?_
  rw [if_neg (not_not_intro rfl)]
  exact (decodeTuple_reads sendable).then_pure

theorem decodeUpdateNew_reads {new : TupleData} (sendable : new.Sendable) (relationOid : UInt32)
    (oldKind : UpdateOldKind) (old : TupleData) :
    Reads (decodeUpdateNew relationOid oldKind old) (encodeU8 'N'.toUInt8 ++ new.encode)
      ⟨relationOid, oldKind, some old, new⟩ := by
  refine (readU8_reads "UPDATE" 'N'.toUInt8).bind ?_
  rw [if_neg (not_not_intro rfl)]
  exact (decodeTuple_reads sendable).then_pure

theorem decodeUpdate_reads {update : Update} (old : OldSendable update.oldKind update.old)
    (new : update.new.Sendable) : Reads decodeUpdate update.encode update := by
  rcases update with ⟨relationOid, oldKind, oldTuple, newTuple⟩
  refine (readU32_reads "UPDATE" relationOid).bind ?_
  -- the tag in front decides whether an old tuple comes first
  match oldKind, oldTuple, old with
  | .none, none, _ =>
      exact (readU8_reads "UPDATE" 'N'.toUInt8).bind (decodeTuple_reads new).then_pure
  | .key, some tuple, old =>
      dsimp only [encodeOld]
      rw [List.append_assoc]
      exact (readU8_reads "UPDATE" 'K'.toUInt8).bind
        ((decodeTuple_reads old).bind (decodeUpdateNew_reads new relationOid .key tuple))
  | .full, some tuple, old =>
      dsimp only [encodeOld]
      rw [List.append_assoc]
      exact (readU8_reads "UPDATE" 'O'.toUInt8).bind
        ((decodeTuple_reads old).bind (decodeUpdateNew_reads new relationOid .full tuple))

theorem decodeDelete_reads {delete : Delete} (sendable : delete.old.Sendable) :
    Reads decodeDelete delete.encode delete := by
  rcases delete with ⟨relationOid, oldKind, old⟩
  refine (readU32_reads "DELETE" relationOid).bind ?_
  cases oldKind with
  | key => exact (readU8_reads "DELETE" 'K'.toUInt8).bind (decodeTuple_reads sendable).then_pure
  | full => exact (readU8_reads "DELETE" 'O'.toUInt8).bind (decodeTuple_reads sendable).then_pure

theorem length_flatMap_encodeU32 (oids : List UInt32) :
    (oids.flatMap (fun oid => encodeU32 oid.toNat)).length = oids.length * 4 := by
  induction oids with
  | nil => rfl
  | cons oid rest ih =>
      rw [List.flatMap_cons, List.length_append, ih, List.length_cons, encodeU32, length_bigEndian]
      omega

theorem Truncate.flags_cascade (truncate : Truncate) : (truncate.flags &&& 0b01 != 0) = truncate.cascade := by
  unfold Truncate.flags
  cases truncate.cascade <;> cases truncate.restartIdentity <;> rfl

theorem Truncate.flags_restartIdentity (truncate : Truncate) :
    (truncate.flags &&& 0b10 != 0) = truncate.restartIdentity := by
  unfold Truncate.flags
  cases truncate.cascade <;> cases truncate.restartIdentity <;> rfl

theorem decodeTruncate_reads {truncate : Truncate} (sendable : truncate.relationOids.length < 2 ^ 32) :
    Reads decodeTruncate truncate.encode truncate := by
  have count : (UInt32.ofNat truncate.relationOids.length).toNat = truncate.relationOids.length :=
    UInt32.toNat_ofNat_of_lt' sendable
  have oids := Reads.times (fun oid (_ : oid ∈ truncate.relationOids) => readU32_reads "TRUNCATE" oid)
  refine (readLength_reads sendable "TRUNCATE").bind ?_
  refine (readU8_reads "TRUNCATE" truncate.flags).bind ?_
  unfold decodeOids
  rw [count, truncate.flags_cascade, truncate.flags_restartIdentity]
  apply Reads.limited oids.then_pure
  rw [length_flatMap_encodeU32]
  exact min_le_left _ _

theorem decodeKind_reads {kind : MessageKind} {bytes : List UInt8} {message : Message}
    (known : MessageKind.fromByte kind.asByte = .ok kind) (reads : Reads (decodeKind kind) bytes message) :
    Reads decodeCursor (encodeU8 kind.asByte ++ bytes) message := by
  refine (readU8_reads "kind byte" kind.asByte).bind ?_
  rw [known]
  exact (Reads.lift_ok kind).bind reads

/-- The decoder reads every message that can be sent. -/
theorem decodeCursor_reads {message : Message} (sendable : message.Sendable) :
    Reads decodeCursor message.encode message := by
  cases message with
  | begin body => exact decodeKind_reads rfl (decodeBegin_reads body).map
  | commit body => exact decodeKind_reads rfl (decodeCommit_reads body).map
  | origin => cases sendable
  | relation body => exact decodeKind_reads rfl (decodeRelation_reads sendable).map
  | type => cases sendable
  | insert body => exact decodeKind_reads rfl (decodeInsert_reads sendable).map
  | update body => exact decodeKind_reads rfl (decodeUpdate_reads sendable.1 sendable.2).map
  | delete body => exact decodeKind_reads rfl (decodeDelete_reads sendable).map
  | truncate body => exact decodeKind_reads rfl (decodeTruncate_reads sendable).map

/-- A message is read back whatever follows it, and no part that breaks off
before its end is read as a message. -/
theorem decodeMessage_encode (message : Message) (sendable : message.Sendable) :
    (forall trailing, decodeMessage (message.encode ++ trailing) = .ok message) ∧
      forall front, front <+: message.encode -> front ≠ message.encode ->
        exists cause, decodeMessage front = .error cause := by
  have reads := decodeCursor_reads sendable
  constructor
  · intro trailing
    change Prod.fst <$> decodeCursor (message.encode ++ trailing) = .ok message
    rw [reads.whole]
    rfl
  · rintro front ⟨back, split⟩ shorter
    have nonempty : back ≠ [] := by
      rintro rfl
      exact shorter (by rw [← split, List.append_nil])
    rcases reads.broken front back split.symm nonempty with ⟨cause, failed⟩
    refine ⟨cause, ?_⟩
    change Prod.fst <$> decodeCursor front = .error cause
    rw [failed]
    rfl

/-- An update that changes a key, with a text of two bytes. -/
def sampleUpdate : Message :=
  .update ⟨16384, .key, some ⟨[.text (String.ofList ['é']), .null]⟩, ⟨[.text (String.ofList ['e']), .unchangedToast]⟩⟩

theorem decodeMessage_encode_sample :
    sampleUpdate.Sendable ∧ (forall trailing, decodeMessage (sampleUpdate.encode ++ trailing) = .ok sampleUpdate) ∧
      forall front, front <+: sampleUpdate.encode -> front ≠ sampleUpdate.encode ->
        exists cause, decodeMessage front = .error cause := by
  have sendable : sampleUpdate.Sendable := by
    simp only [sampleUpdate, Message.Sendable, OldSendable, TupleData.Sendable, List.forall_mem_cons,
      TupleCell.Sendable,
      String.toList_ofList, List.not_mem_nil, false_implies, implies_true, and_true]
    decide
  exact ⟨sendable, decodeMessage_encode sampleUpdate sendable⟩

end Pgoutput
end PostgresCdc
end FaucetStream
