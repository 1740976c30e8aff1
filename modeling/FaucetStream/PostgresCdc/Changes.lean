import FaucetStream.Library.Slots
import FaucetStream.PostgresCdc.Lsn

namespace FaucetStream
namespace PostgresCdc

open Json Library

/-!
# Staging the changes of a transaction

Between BEGIN and COMMIT every change message is turned into records, stamped
with the commit LSN that BEGIN announced, and held back.  COMMIT hands the
held records over.

How the text of a column becomes JSON is left to a parameter.
-/

structure ColumnDesc where
  name : String
  typeOid : Nat

structure Relation where
  oid : Nat
  /-- The namespace. -/
  schema : String
  name : String
  columns : List ColumnDesc

inductive TupleCell where
  | null
  | unchangedToast
  | text (value : String)

/-- A decoded pgoutput message. -/
inductive Message where
  | relation (relation : Relation)
  /-- Origin, custom types, and BEGIN or COMMIT in a place where they cannot
  stand: all ignored. -/
  | ignored
  | insert (relationOid : Nat) (new : List TupleCell)
  | update (relationOid : Nat) (old : Option (List TupleCell)) (new : List TupleCell)
  | delete (relationOid : Nat) (old : List TupleCell)
  | truncate (relationOids : List Nat)

structure RelationRegistry where
  byOid : List (Nat × Relation)
  roots : List (Nat × String)
  resolved : List Nat
  unresolved : List Nat

namespace RelationRegistry

def new : RelationRegistry := ⟨[], [], [], []⟩

def insert (registry : RelationRegistry) (relation : Relation) : RelationRegistry :=
  { registry with
    unresolved := if !registry.resolved.contains relation.oid && !registry.unresolved.contains relation.oid then
        registry.unresolved ++ [relation.oid]
      else registry.unresolved
    byOid := assign registry.byOid relation.oid relation }

/-- `take_unresolved` and `set_roots`, with the roots the database answers. -/
def resolve (registry : RelationRegistry) (roots : List (Nat × String)) : RelationRegistry :=
  if registry.unresolved.isEmpty then registry
  else { registry with
    unresolved := []
    resolved := registry.resolved ++ registry.unresolved
    roots := assignAll registry.roots roots }

def root (registry : RelationRegistry) (oid : Nat) : Option String := registry.roots.lookup oid

def get (registry : RelationRegistry) (oid : Nat) : Except FaucetError Relation :=
  match registry.byOid.lookup oid with
  | some relation => .ok relation
  | none => .error (.source ("pgoutput: change event for unknown relation oid " ++ toString oid ++
      " (Relation message must precede first change)"))

end RelationRegistry

/-- The transaction in progress. -/
structure TxnState where
  staged : List Value := []
  lastCommitted : Option Nat := none
  inProgressTs : Int := 0
  inProgressLsn : Nat := 0
  inTxn : Bool := false
  maxStagedRecords : Option Nat := none
  moneyFractionDigits : Option Nat := none

namespace TxnState

def pushStaged (state : TxnState) (record : Value) : Except FaucetError TxnState :=
  match state.maxStagedRecords with
  | some max =>
      if max ≤ state.staged.length then
        .error (.source ("postgres-cdc: in-progress transaction exceeded max_staged_records (" ++ toString max ++
          "); aborting to avoid unbounded memory growth. Raise max_staged_records or " ++
          "reduce the size of the source transaction."))
      else .ok { state with staged := state.staged ++ [record] }
  | none => .ok { state with staged := state.staged ++ [record] }

end TxnState

def POSTGRES_EPOCH_MICROS : Int := 946684800000000

/-- Milliseconds since 1970; the division truncates. -/
def postgresClockToUnixMs (ts : Int) : Int :=
  (min (POSTGRES_EPOCH_MICROS + ts) (2 ^ 63 - 1)).tdiv 1000

def UNCHANGED_TOAST_FIELD : String := "__unchanged_toast__"

def PARTITION_ROOT_FIELD : String := "partition_root"

structure TupleRow where
  values : List (String × Value)
  unchangedToast : List String

namespace TupleRow

def toValue (row : TupleRow) : Value :=
  if row.unchangedToast.isEmpty then .object row.values
  else .object (assign row.values UNCHANGED_TOAST_FIELD (.array (row.unchangedToast.map Value.string)))

end TupleRow

section Decoding

variable (textToJson : Nat -> String -> Option Nat -> Except FaucetError Value)

def addCell (moneyFractionDigits : Option Nat) (row : TupleRow) (cell : ColumnDesc × TupleCell) :
    Except FaucetError TupleRow :=
  match cell.2 with
  | .null => .ok { row with values := assign row.values cell.1.name .null }
  | .unchangedToast => .ok { row with unchangedToast := row.unchangedToast ++ [cell.1.name] }
  | .text text => do
      let value <- textToJson cell.1.typeOid text moneyFractionDigits
      .ok { row with values := assign row.values cell.1.name value }

def tupleToObject (relation : Relation) (cells : List TupleCell) (moneyFractionDigits : Option Nat) :
    Except FaucetError TupleRow :=
  if cells.length ≠ relation.columns.length then
    .error (.source ("postgres-cdc: tuple has " ++ toString cells.length ++ " cells but relation " ++
      relation.schema ++ "." ++ relation.name ++ " has " ++ toString relation.columns.length ++ " columns"))
  else (relation.columns.zip cells).foldlM (addCell textToJson moneyFractionDigits) ⟨[], []⟩

def record (relation : Relation) (partitionRoot : Option String) (op : String) (state : TxnState)
    (before after : Option TupleRow) : Value :=
  .object ([("op", .string op), ("schema", .string relation.schema), ("table", .string relation.name)] ++
    (match partitionRoot with
    | some root => [(PARTITION_ROOT_FIELD, .string root)]
    | none => []) ++
    [("lsn", .string (formatLsn state.inProgressLsn)),
      ("ts_ms", .number (.int (postgresClockToUnixMs state.inProgressTs))),
      ("before", (before.map TupleRow.toValue).getD .null), ("after", (after.map TupleRow.toValue).getD .null)])

/-- The one record of a change of one row. -/
def rowRecord (registry : RelationRegistry) (state : TxnState) (oid : Nat) (op : String)
    (old new : Option (List TupleCell)) : Except FaucetError Value := do
  let relation <- registry.get oid
  let image := fun cells : Option (List TupleCell) =>
    match cells with
    | some cells => (tupleToObject textToJson relation cells state.moneyFractionDigits).map some
    | none => Except.ok none
  let before <- image old
  let after <- image new
  .ok (record relation (registry.root relation.oid) op state before after)

def truncateRecord (registry : RelationRegistry) (state : TxnState) (oid : Nat) : Except FaucetError Value := do
  let relation <- registry.get oid
  .ok (record relation (registry.root relation.oid) "truncate" state none none)

def stageRow (registry : RelationRegistry) (state : TxnState) (oid : Nat) (op : String)
    (old new : Option (List TupleCell)) : Except FaucetError TxnState := do
  let record <- rowRecord textToJson registry state oid op old new
  state.pushStaged record

def stageInsert (registry : RelationRegistry) (state : TxnState) (oid : Nat) (new : List TupleCell) :
    Except FaucetError TxnState :=
  stageRow textToJson registry state oid "insert" none (some new)

def stageUpdate (registry : RelationRegistry) (state : TxnState) (oid : Nat) (old : Option (List TupleCell))
    (new : List TupleCell) : Except FaucetError TxnState :=
  stageRow textToJson registry state oid "update" old (some new)

def stageDelete (registry : RelationRegistry) (state : TxnState) (oid : Nat) (old : List TupleCell) :
    Except FaucetError TxnState :=
  stageRow textToJson registry state oid "delete" (some old) none

/-- A record for every table a TRUNCATE names. -/
def stageTruncate (registry : RelationRegistry) (state : TxnState) (oids : List Nat) : Except FaucetError TxnState :=
  oids.foldlM (fun state oid => do
    let record <- truncateRecord registry state oid
    state.pushStaged record) state

def handlePgoutput (registry : RelationRegistry) (state : TxnState) :
    Message -> Except FaucetError (RelationRegistry × TxnState)
  | .relation relation => .ok (registry.insert relation, state)
  | .ignored => .ok (registry, state)
  | .insert oid new => (stageInsert textToJson registry state oid new).map (registry, ·)
  | .update oid old new => (stageUpdate textToJson registry state oid old new).map (registry, ·)
  | .delete oid old => (stageDelete textToJson registry state oid old).map (registry, ·)
  | .truncate oids => (stageTruncate registry state oids).map (registry, ·)

inductive ReplicationEvent where
  | begin (finalLsn : Nat) (commitTimeMicros : Int)
  | commit (endLsn : Nat)
  /-- A pgoutput message, or the error its decoding ends with. -/
  | xLogData (message : Except FaucetError Message)
  /-- A logical message a user emitted. -/
  | message
  | other (name : String)

/-- The new registry, the new state, and what a COMMIT drains. -/
def handleEvent (registry : RelationRegistry) (state : TxnState) :
    ReplicationEvent -> Except FaucetError (RelationRegistry × TxnState × List Value)
  | .begin finalLsn commitTimeMicros =>
      if state.inTxn then
        .error (.source ("postgres-cdc: BEGIN received while a previous transaction was still in progress (" ++
          toString state.staged.length ++ " records staged) — replication stream desync"))
      else .ok (registry, { state with
        inTxn := true, inProgressLsn := finalLsn, inProgressTs := commitTimeMicros, staged := [] }, [])
  | .commit endLsn =>
      if !state.inTxn then .error (.source "postgres-cdc: COMMIT without BEGIN")
      else .ok (registry, { state with staged := [], lastCommitted := some endLsn, inTxn := false }, state.staged)
  | .xLogData message => do
      let message <- message
      let (registry, state) <- handlePgoutput textToJson registry state message
      .ok (registry, state, [])
  | .message => .ok (registry, state, [])
  | .other name =>
      .error (.source ("postgres-cdc: unhandled ReplicationEvent variant " ++ name ++
        " — refusing to continue rather than risk silently dropping change data"))

end Decoding

/-! ## What a message stages -/

/-- A record that names `lsn` as its commit. -/
def Stamped (lsn : Nat) (record : Value) : Prop := record.get "lsn" = some (.string (formatLsn lsn))

theorem stamped_record (relation : Relation) (partitionRoot : Option String) (op : String) (state : TxnState)
    (before after : Option TupleRow) :
    Stamped state.inProgressLsn (record relation partitionRoot op state before after) := by
  cases partitionRoot <;> rfl

section Staging

variable (textToJson : Nat -> String -> Option Nat -> Except FaucetError Value)

/-- The records of a message. -/
def changeRecords (registry : RelationRegistry) (state : TxnState) : Message -> Except FaucetError (List Value)
  | .relation _ => .ok []
  | .ignored => .ok []
  | .insert oid new => (rowRecord textToJson registry state oid "insert" none (some new)).map ([·])
  | .update oid old new => (rowRecord textToJson registry state oid "update" old (some new)).map ([·])
  | .delete oid old => (rowRecord textToJson registry state oid "delete" (some old) none).map ([·])
  | .truncate oids => oids.mapM (truncateRecord registry state)

end Staging

/-- The state after some records were staged. -/
def TxnState.staging (state : TxnState) (records : List Value) : TxnState :=
  { state with staged := state.staged ++ records }

theorem eq_staging_of_pushStaged {state next : TxnState} {record : Value} (done : state.pushStaged record = .ok next) :
    next = state.staging [record] := by
  rw [TxnState.pushStaged] at done
  split at done
  · split at done
    · cases done
    · exact (Except.ok.inj done).symm
  · exact (Except.ok.inj done).symm

variable {textToJson : Nat -> String -> Option Nat -> Except FaucetError Value}

theorem stamped_rowRecord {registry : RelationRegistry} {state : TxnState} {oid : Nat} {op : String}
    {old new : Option (List TupleCell)} {record : Value}
    (done : rowRecord textToJson registry state oid op old new = .ok record) : Stamped state.inProgressLsn record := by
  rcases bind_eq_ok done with ⟨relation, _, done⟩
  rcases bind_eq_ok done with ⟨before, _, done⟩
  rcases bind_eq_ok done with ⟨after, _, done⟩
  rw [← Except.ok.inj done]
  exact stamped_record _ _ _ _ _ _

theorem stamped_truncateRecord {registry : RelationRegistry} {state : TxnState} {oid : Nat} {record : Value}
    (done : truncateRecord registry state oid = .ok record) : Stamped state.inProgressLsn record := by
  rcases bind_eq_ok done with ⟨relation, _, done⟩
  rw [← Except.ok.inj done]
  exact stamped_record _ _ _ _ _ _

theorem map_eq_ok {A B : Type} {result : Except FaucetError A} {convert : A -> B} {value : B}
    (done : result.map convert = .ok value) : exists before, result = .ok before ∧ convert before = value := by
  cases result with
  | error error => cases done
  | ok before => exact ⟨before, rfl, Except.ok.inj done⟩

theorem stageRow_ok {registry : RelationRegistry} {state next : TxnState} {oid : Nat} {op : String}
    {old new : Option (List TupleCell)} (done : stageRow textToJson registry state oid op old new = .ok next) :
    exists records, (rowRecord textToJson registry state oid op old new).map ([·]) = .ok records ∧
      next = state.staging records := by
  rcases bind_eq_ok done with ⟨record, made, pushed⟩
  exact ⟨[record], by rw [made]; rfl, eq_staging_of_pushStaged pushed⟩

theorem stageTruncate_ok {registry : RelationRegistry} {state next : TxnState} {oids : List Nat}
    (done : stageTruncate registry state oids = .ok next) :
    exists records, oids.mapM (truncateRecord registry state) = .ok records ∧ next = state.staging records := by
  induction oids generalizing state with
  | nil =>
      refine ⟨[], rfl, ?_⟩
      rw [← Except.ok.inj done, TxnState.staging, List.append_nil]
  | cons oid rest ih =>
      rw [stageTruncate, List.foldlM_cons] at done
      rcases bind_eq_ok done with ⟨middle, first, done⟩
      rcases bind_eq_ok first with ⟨record, made, pushed⟩
      rcases ih done with ⟨records, others, last⟩
      have middleSame := eq_staging_of_pushStaged pushed
      subst middleSame
      refine ⟨record :: records, ?_, ?_⟩
      · have same : truncateRecord registry (state.staging [record]) = truncateRecord registry state := rfl
        rw [same] at others
        rw [List.mapM_cons, made]
        change (List.mapM (truncateRecord registry state) rest >>= fun others => Except.ok (record :: others)) = _
        rw [others]
        rfl
      · rw [last]
        simp only [TxnState.staging, List.append_assoc, List.singleton_append]

/-- A message stages its records and changes nothing else of the transaction. -/
theorem handlePgoutput_ok {registry nextRegistry : RelationRegistry} {state next : TxnState} {message : Message}
    (done : handlePgoutput textToJson registry state message = .ok (nextRegistry, next)) :
    exists records, changeRecords textToJson registry state message = .ok records ∧ next = state.staging records := by
  have unchanged : state = next -> exists records,
    Except.ok [] = (Except.ok records : Except FaucetError (List Value)) ∧
      next = state.staging records := by
    intro same
    refine ⟨[], rfl, ?_⟩
    rw [TxnState.staging, List.append_nil]
    exact same.symm
  have staged : forall {result : Except FaucetError TxnState}, result.map (registry, ·) = .ok (nextRegistry, next) ->
      result = .ok next := by
    intro result mapped
    rcases map_eq_ok mapped with ⟨before, made, same⟩
    rw [made, (Prod.mk.inj same).2]
  cases message with
  | relation relation => exact unchanged (Prod.mk.inj (Except.ok.inj done)).2
  | ignored => exact unchanged (Prod.mk.inj (Except.ok.inj done)).2
  | insert oid new => exact stageRow_ok (staged done)
  | update oid old new => exact stageRow_ok (staged done)
  | delete oid old => exact stageRow_ok (staged done)
  | truncate oids => exact stageTruncate_ok (staged done)

theorem stamped_changeRecords {registry : RelationRegistry} {state : TxnState} {message : Message}
    {records : List Value}
    (done : changeRecords textToJson registry state message = .ok records) {record : Value}
    (member : record ∈ records) :
    Stamped state.inProgressLsn record := by
  have single : forall {result : Except FaucetError Value}, result.map ([·]) = .ok records -> result = .ok record := by
    intro result mapped
    rcases map_eq_ok mapped with ⟨before, made, same⟩
    rw [← same] at member
    rw [made, List.mem_singleton.mp member]
  cases message with
  | relation relation =>
      cases Except.ok.inj done
      cases member
  | ignored =>
      cases Except.ok.inj done
      cases member
  | insert oid new => exact stamped_rowRecord (single done)
  | update oid old new => exact stamped_rowRecord (single done)
  | delete oid old => exact stamped_rowRecord (single done)
  | truncate oids =>
      have made : exists oid, truncateRecord registry state oid = .ok record := by
        clear single
        change oids.mapM (truncateRecord registry state) = .ok records at done
        induction oids generalizing records with
        | nil =>
            cases Except.ok.inj done
            cases member
        | cons oid rest ih =>
            rw [List.mapM_cons] at done
            rcases bind_eq_ok done with ⟨first, firstMade, done⟩
            rcases bind_eq_ok done with ⟨others, othersMade, done⟩
            rw [← Except.ok.inj done] at member
            rcases List.mem_cons.mp member with same | later
            · exact ⟨oid, same ▸ firstMade⟩
            · exact ih later othersMade
      rcases made with ⟨oid, done⟩
      exact stamped_truncateRecord done

end PostgresCdc
end FaucetStream
