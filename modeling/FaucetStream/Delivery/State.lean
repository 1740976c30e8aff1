import FaucetStream.Error
import FaucetStream.Json.Value

namespace FaucetStream
namespace Delivery

open Json

/-!
# Stored positions

A bookmark is stored in up to two wrappings.  An exactly-once run keeps the
bookmark beside the sequence number of its page.  Every run, unless it writes
for older readers, puts that value into an envelope that names the connector
owning the bookmark's shape and the version of the shape.  Reading goes the
other way and refuses an envelope this release or this source cannot read.

Sequence numbers are natural numbers and never wrap.
-/

inductive DeliveryMode where
  | atLeastOnce
  | exactlyOnce
  deriving DecidableEq

inductive ReplayGuarantee where
  | nonDeterministic
  | deterministic
  deriving DecidableEq

/-! ## The versioned envelope -/

/-- The envelope version written, and the newest one read. -/
def STATE_FORMAT : Nat := 1

/-- A stored value taken apart.  A value that is no envelope has format 0 and
schema 0. -/
structure StoredState where
  format : Nat
  owner : Option String
  schema : Nat
  data : Value
  deriving DecidableEq

/-- `u32::try_from(..).unwrap_or(u32::MAX)`. -/
def saturateU32 (value : Nat) : Nat := min value (2 ^ 32 - 1)

namespace StoredState

def parse (stored : Value) : StoredState :=
  match (stored.get "faucet_state").bind Value.asU64, stored.get "data" with
  | some format, some data =>
      { format := saturateU32 format
        owner := (stored.get "owner").bind Value.asStr
        schema := (((stored.get "schema").bind Value.asU64).map saturateU32).getD 0
        data := data }
  | _, _ => ⟨0, none, 0, stored⟩

end StoredState

def wrapVersioned (owner : String) (schema : Nat) (data : Value) : Value :=
  .object [("faucet_state", .number (.int STATE_FORMAT)), ("owner", .string owner),
    ("schema", .number (.int schema)), ("data", data)]

/-- The payload of a stored value. -/
def peelVersioned (stored : Value) : Value := (StoredState.parse stored).data

inductive StateCompat where
  | current
  | migrate (source target : Nat)
  | incompatible (found expected : String)

def checkCompat (state : StoredState) (owner : String) (expected : Nat) : StateCompat :=
  if STATE_FORMAT < state.format then
    .incompatible ("state format " ++ toString state.format)
      ("state format " ++ toString STATE_FORMAT ++ " or older")
  else
    match state.owner with
    | some found =>
        if found ≠ owner then
          .incompatible ("state owned by '" ++ found ++ "'") ("state owned by '" ++ owner ++ "'")
        else compareSchema state.schema
    | none => compareSchema state.schema
where
  compareSchema (schema : Nat) : StateCompat :=
    if expected < schema then
      .incompatible ("'" ++ owner ++ "' state schema " ++ toString schema)
        ("'" ++ owner ++ "' state schema " ++ toString expected ++ " or older")
    else if schema < expected then .migrate schema expected
    else .current

/-- `encode_for_write`: the envelope, or the bare payload for older readers. -/
def encodeForWrite (owner : String) (schema : Nat) (data : Value) (legacy : Bool) : Value :=
  if legacy then data else wrapVersioned owner schema data

/-- How one pipeline's positions are written. -/
structure StateCodec where
  owner : String
  schema : Nat
  legacy : Bool

def StateCodec.encode (codec : StateCodec) (value : Value) : Value :=
  encodeForWrite codec.owner codec.schema value codec.legacy

/-! ## The exactly-once wrapper -/

/-- `wrap_state`: a bookmark beside the sequence number of its page. -/
def wrapState (bookmark : Option Value) (seq : Nat) : Value :=
  .object [("__faucet_eo", .number (.int 1)), ("bookmark", bookmark.getD .null), ("seq", .number (.int seq))]

def isEoEnvelope (value : Value) : Bool := (value.get "__faucet_eo").bind Value.asU64 == some 1

/-- A stored sequence number. -/
def seqOf (value : Value) : Option Nat :=
  match value with
  | .number (.int seq) => if 0 ≤ seq then some seq.toNat else none
  | _ => none

/-- `unwrap_state`: the bookmark and the sequence number of a stored value.  A
bare bookmark counts as sequence number 0. -/
def unwrapState (value : Value) : Option Value × Nat :=
  let peeled := peelVersioned value
  if isEoEnvelope peeled then
    ((peeled.get "bookmark").filter (fun bookmark => !bookmark.isNull),
      ((peeled.get "seq").bind seqOf).getD 0)
  else (if peeled.isNull then none else some peeled, 0)

/-! ## Reading a stored value back -/

/-- Apply a migration to the bookmark in a payload. -/
def migratePayload (data : Value) (migrate : Value -> Except FaucetError Value) : Except FaucetError Value :=
  if isEoEnvelope data then
    let (bookmark, seq) := unwrapState data
    match bookmark with
    | none => .ok (wrapState none seq)
    | some bookmark => (migrate bookmark).map (fun migrated => wrapState (some migrated) seq)
  else if data.isNull then .ok data
  else migrate data

/-- The payload at the shape the reading source expects. -/
def resolveWith (key : String) (stored : Value) (owner : String) (expected : Nat)
    (migrate : Nat -> Value -> Except FaucetError Value) : Except FaucetError Value :=
  let state := StoredState.parse stored
  match checkCompat state owner expected with
  | .current => .ok state.data
  | .incompatible found expected => .error (.stateIncompatible key found expected)
  | .migrate source target =>
      migratePayload state.data (fun bookmark =>
        (migrate source bookmark).mapError (fun error =>
          .stateIncompatible key ("'" ++ owner ++ "' state schema " ++ toString source)
            ("'" ++ owner ++ "' state schema " ++ toString target ++ " (migration failed: " ++
              error.text ++ ")")))

theorem asU64_natCast {value : Nat} (small : value < 2 ^ 64) :
    Value.asU64 (.number (.int (value : Int))) = some value := by
  have fits : (value : Int) < 2 ^ 64 := by exact_mod_cast small
  rw [Value.asU64, if_pos ⟨Int.natCast_nonneg value, fits⟩, Int.toNat_natCast]

theorem parse_wrapVersioned (owner : String) (schema : Nat) (data : Value) (small : schema < 2 ^ 32) :
    StoredState.parse (wrapVersioned owner schema data) = ⟨STATE_FORMAT, some owner, schema, data⟩ := by
  have format : (wrapVersioned owner schema data).get "faucet_state" =
      some (.number (.int (STATE_FORMAT : Nat))) := rfl
  have dataRead : (wrapVersioned owner schema data).get "data" = some data := rfl
  have ownerRead : (wrapVersioned owner schema data).get "owner" = some (.string owner) := rfl
  have schemaRead : (wrapVersioned owner schema data).get "schema" = some (.number (.int schema)) := rfl
  have saturated : saturateU32 schema = schema := Nat.min_eq_left (by omega)
  unfold StoredState.parse
  rw [format, dataRead, ownerRead, schemaRead, Option.bind_some, Option.bind_some, Option.bind_some,
    asU64_natCast (by decide), asU64_natCast (by omega)]
  simp only [Option.map_some, Option.getD_some, saturated]
  rfl

/-- The wrapper of an exactly-once run is no envelope. -/
theorem parse_wrapState (bookmark : Option Value) (seq : Nat) :
    StoredState.parse (wrapState bookmark seq) = ⟨0, none, 0, wrapState bookmark seq⟩ := rfl

/-- A value that is no envelope. -/
def Bare (value : Value) : Prop := StoredState.parse value = ⟨0, none, 0, value⟩

theorem checkCompat_current (state : StoredState) (owner : String) (schema : Nat)
    (readable : state.format ≤ STATE_FORMAT) (owned : state.owner = none ∨ state.owner = some owner)
    (same : state.schema = schema) : checkCompat state owner schema = .current := by
  unfold checkCompat
  rw [if_neg (Nat.not_lt.mpr readable)]
  have current : checkCompat.compareSchema owner schema state.schema = .current := by
    rw [checkCompat.compareSchema, same, if_neg (Nat.lt_irrefl schema), if_neg (Nat.lt_irrefl schema)]
  rcases owned with absent | present
  · rw [absent]
    exact current
  · rw [present]
    simp only [ne_eq, not_true_eq_false, if_false]
    exact current

/-- A source reads back what it wrote. -/
theorem resolveWith_encode (codec : StateCodec) (key : String) (data : Value)
    (migrate : Nat -> Value -> Except FaucetError Value) (small : codec.schema < 2 ^ 32)
    (legacy : codec.legacy = true -> codec.schema = 0 ∧ Bare data) :
    resolveWith key (codec.encode data) codec.owner codec.schema migrate = .ok data := by
  unfold resolveWith StateCodec.encode encodeForWrite
  cases mode : codec.legacy with
  | true =>
      rcases legacy mode with ⟨unversioned, bare⟩
      rw [if_pos rfl, bare]
      simp only
      rw [checkCompat_current _ _ _ (Nat.zero_le _) (Or.inl rfl) unversioned.symm]
  | false =>
      rw [if_neg (by decide), parse_wrapVersioned _ _ _ small]
      simp only
      rw [checkCompat_current _ _ _ (Nat.le_refl _) (Or.inr rfl) rfl]

theorem unwrapState_wrapState (bookmark : Value) (seq : Nat) :
    unwrapState (wrapState (some bookmark) seq) = (if bookmark.isNull then none else some bookmark, seq) := by
  have peeled : peelVersioned (wrapState (some bookmark) seq) = wrapState (some bookmark) seq := by
    rw [peelVersioned, parse_wrapState]
  have marked : isEoEnvelope (wrapState (some bookmark) seq) = true := rfl
  have bookmarkRead : (wrapState (some bookmark) seq).get "bookmark" = some bookmark := rfl
  have seqRead : (wrapState (some bookmark) seq).get "seq" = some (.number (.int seq)) := rfl
  have number : seqOf (.number (.int seq)) = some seq := by
    rw [seqOf, if_pos (Int.natCast_nonneg seq), Int.toNat_natCast]
  unfold unwrapState
  rw [peeled]
  simp only [marked, if_true, bookmarkRead, seqRead, Option.bind_some, number, Option.getD_some, Option.filter]
  by_cases null : bookmark.isNull = true
  · simp only [null, Bool.not_true, Bool.false_eq_true, if_false, if_true]
  · simp only [null, Bool.not_false, if_false, if_true, Bool.false_eq_true]

/-- A bare bookmark that is no wrapper either is unwrapped as it is. -/
theorem unwrapState_bare {bookmark : Value} (bare : Bare bookmark) (unwrapped : isEoEnvelope bookmark = false) :
    unwrapState bookmark = (if bookmark.isNull then none else some bookmark, 0) := by
  have peeled : peelVersioned bookmark = bookmark := by
    rw [peelVersioned, bare]
  unfold unwrapState
  rw [peeled]
  simp only [unwrapped, Bool.false_eq_true, if_false]

end Delivery
end FaucetStream
