import FaucetStream.Error
import FaucetStream.Json.Value
import FaucetStream.Library.Slots

namespace FaucetStream
namespace KeyedWrites

open Json
open Library

universe u

/-!
# Keyed write planning

A keyed sink does not apply a page row by row.  The planner reads the key of
every row, keeps one action per canonical key, and hands the sink a list of
rows to upsert and a list of keys to delete.  This module embeds the planner
and compares it with the destination that takes the rows of the page one by
one.  The two agree as long as the rows the planner emits still carry their
key, which the delete marker decides.
-/

/-- Write semantics of a sink. -/
inductive WriteMode where
  | append
  | upsert
  | delete
  | overwrite
  deriving DecidableEq

/-- A row is a delete when its `field` holds one of the `values`. -/
structure DeleteMarker where
  field : String
  values : List String
  deriving DecidableEq

structure WriteSpec where
  writeMode : WriteMode
  key : List String
  deleteMarker : Option DeleteMarker
  deriving DecidableEq

/-- Key columns and their values, in the order the key declares them. -/
structure KeyTuple where
  columns : List (String × Value)
  deriving DecidableEq

structure WritePlan where
  upserts : List Value
  deletes : List KeyTuple
  failed : List (Nat × String)
  deriving DecidableEq

inductive Action where
  | upsert (row : Value)
  | delete (key : KeyTuple)
  deriving DecidableEq

namespace WriteMode

def asStr : WriteMode -> String
  | .append => "append"
  | .upsert => "upsert"
  | .delete => "delete"
  | .overwrite => "overwrite"

end WriteMode

/-- What a configuration may ask for: an upsert or a delete needs a key. -/
def WriteSpec.validate (spec : WriteSpec) : Except FaucetError Unit :=
  if (spec.writeMode = .upsert ∨ spec.writeMode = .delete) ∧ spec.key = [] then
    .error (.config ("write_mode: " ++ spec.writeMode.asStr ++ " requires a non-empty `key`"))
  else .ok ()

/-! ## Keys of records -/

/-- The columns of a key read from the entries of an object, or the first
column that cannot be read. -/
def extractColumns (entries : List (String × Value)) :
    List String -> Except String (List (String × Value))
  | [] => .ok []
  | column :: rest =>
      match entries.lookup column with
      | none => .error ("missing key column '" ++ column ++ "'")
      | some .null => .error ("null value for key column '" ++ column ++ "'")
      | some value =>
          match extractColumns entries rest with
          | .error message => .error message
          | .ok columns => .ok ((column, value) :: columns)

def extractKey (record : Value) (key : List String) : Except String KeyTuple :=
  match record with
  | .object entries =>
      match extractColumns entries key with
      | .error message => .error message
      | .ok columns => .ok ⟨columns⟩
  | _ => .error "record is not a JSON object"

def recordKey (record : Value) (key : List String) : Option KeyTuple :=
  (extractKey record key).toOption

def isDeleteMarked (record : Value) (marker : Option DeleteMarker) : Bool :=
  match marker with
  | none => false
  | some marker =>
      match record.get marker.field with
      | some (.string text) => marker.values.any (fun value => value == text)
      | _ => false

def stripMarker (record : Value) (marker : Option DeleteMarker) : Value :=
  match marker, record with
  | some marker, .object entries => .object (Value.removeKey entries marker.field)
  | _, record => record

/-- The integer a whole float below `2^53` denotes, as the cast to `i64`
gives it. -/
def wholeFloat (value : Decimal) : Option Int :=
  if (value.digits.length : Int) ≤ value.exp ∨ value.digits = [] then
    let magnitude : Nat := value.digits.foldl (fun total digit => total * 10 + digit) 0 *
      10 ^ (value.exp - value.digits.length).toNat
    if magnitude < 9007199254740992 then
      some (if value.negative then -(magnitude : Int) else magnitude)
    else none
  else none

/-- A key value as the text a database compares it by: `7`, `7.0` and `"7"`
are one. -/
def keyScalarText : Value -> String
  | .string text => text
  | .number (.int value) => (Number.int value).text
  | .number (.float value) =>
      match wholeFloat value with
      | some whole => toString whole
      | none => (Number.float value).text
  | .bool value => (Value.bool value).text
  | other => other.canonicalJson

def canonical (key : KeyTuple) : String :=
  (Value.array (key.columns.map (fun column => .string (keyScalarText column.2)))).text

/-! ## The planner -/

namespace WriteSpec

def isDelete (spec : WriteSpec) (record : Value) : Bool :=
  match spec.writeMode with
  | .delete => true
  | .upsert => isDeleteMarked record spec.deleteMarker
  | .append | .overwrite => false

/-- What the planner does with a row whose key it could read. -/
def action (spec : WriteSpec) (record : Value) (key : KeyTuple) : Action :=
  if spec.isDelete record then .delete key else .upsert (stripMarker record spec.deleteMarker)

end WriteSpec

/-- The state of the planner's loop. -/
structure Planning where
  failed : List (Nat × String)
  slots : Slots String Action

def planRow (canonical : KeyTuple -> String) (spec : WriteSpec) (state : Planning)
    (row : Value × Nat) : Planning :=
  match extractKey row.1 spec.key with
  | .error message => { state with failed := state.failed ++ [(row.2, message)] }
  | .ok key => { state with slots := state.slots.put (canonical key) (spec.action row.1 key) }

namespace Action

def upsertRow : Action -> Option Value
  | .upsert row => some row
  | .delete _ => none

def deleteKey : Action -> Option KeyTuple
  | .upsert _ => none
  | .delete key => some key

end Action

def planWritesBy (page : List Value) (spec : WriteSpec) (canonical : KeyTuple -> String) :
    WritePlan :=
  let planned := page.zipIdx.foldl (planRow canonical spec) ⟨[], Slots.empty⟩
  { upserts := planned.slots.order.filterMap Action.upsertRow
    deletes := planned.slots.order.filterMap Action.deleteKey
    failed := planned.failed }

def planWrites (page : List Value) (spec : WriteSpec) : WritePlan :=
  planWritesBy page spec canonical

/-- The rows of a page whose key cannot be read, with the reason. -/
def keyFailures (page : List Value) (spec : WriteSpec) : List (Nat × String) :=
  page.zipIdx.filterMap (fun row =>
    match extractKey row.1 spec.key with
    | .error message => some (row.2, message)
    | .ok _ => none)

/-! ## The destination

A destination addresses a row by what its key columns identify.  The address
is the canonical key when planner and destination agree on equality of keys,
and something coarser when a collation decides. -/

section Destination

variable {K : Type u} [DecidableEq K] (address : KeyTuple -> K)

/-- Insert or replace a row under its own key.  A row that carries no key
has no address. -/
def applyUpsert (key : List String) (table : K -> Option Value) (row : Value) :
    Option (K -> Option Value) :=
  (recordKey row key).map (fun tuple => Function.update table (address tuple) (some row))

def applyDelete (table : K -> Option Value) (tuple : KeyTuple) : K -> Option Value :=
  Function.update table (address tuple) none

/-- A sink applies the upserts of a plan, then its deletes. -/
def applyPlan (key : List String) (table : K -> Option Value) (plan : WritePlan) :
    Option (K -> Option Value) :=
  (plan.upserts.foldlM (applyUpsert address key) table).map
    (fun table => plan.deletes.foldl (applyDelete address) table)

/-- One row of a page applied by itself. -/
def applyRow (spec : WriteSpec) (table : K -> Option Value) (record : Value) : K -> Option Value :=
  match extractKey record spec.key with
  | .error _ => table
  | .ok tuple =>
      if spec.isDelete record then applyDelete address table tuple
      else Function.update table (address tuple) (some (stripMarker record spec.deleteMarker))

/-- The rows of a page with a readable key, one by one in page order. -/
def applyPage (spec : WriteSpec) (table : K -> Option Value) (page : List Value) :
    K -> Option Value :=
  page.foldl (applyRow address spec) table

end Destination

/-! ## Keys survive planning unless the marker is one of them -/

/-- The marker field is a key column, so stripping it from a row takes a part
of the key away. -/
def WriteSpec.markerInKey (spec : WriteSpec) : Bool :=
  match spec.deleteMarker with
  | none => false
  | some marker => spec.key.contains marker.field

theorem extractColumns_removeKey (entries : List (String × Value)) (field : String)
    (key : List String) (outside : field ∉ key) :
    extractColumns (Value.removeKey entries field) key = extractColumns entries key := by
  induction key with
  | nil => rfl
  | cons column rest ih =>
      have different : column ≠ field := fun same => outside (same ▸ List.mem_cons_self)
      have tail := ih (fun member => outside (List.mem_cons_of_mem _ member))
      simp only [extractColumns, Value.lookup_removeKey_of_ne entries different, tail]

theorem extractColumns_of_absent (entries : List (String × Value)) (field : String)
    (absent : entries.lookup field = none) (key : List String) (inside : field ∈ key) :
    exists message, extractColumns entries key = .error message := by
  induction key with
  | nil => cases inside
  | cons column rest ih =>
      unfold extractColumns
      rcases List.mem_cons.mp inside with same | later
      · rw [← same, absent]
        exact ⟨_, rfl⟩
      · rcases ih later with ⟨message, failed⟩
        rw [failed]
        split <;> exact ⟨_, rfl⟩

/-- A row stripped of a marker outside the key keeps its key. -/
theorem extractKey_stripMarker (spec : WriteSpec) (outside : spec.markerInKey = false)
    (record : Value) :
    extractKey (stripMarker record spec.deleteMarker) spec.key = extractKey record spec.key := by
  cases shape : spec.deleteMarker with
  | none => cases record <;> rfl
  | some marker =>
      simp only [WriteSpec.markerInKey, shape, List.contains_eq_mem, decide_eq_false_iff_not] at outside
      cases record with
      | object entries =>
          simp only [stripMarker, extractKey, extractColumns_removeKey entries _ _ outside]
      | _ => rfl

/-- A row stripped of a marker that is a key column has no key left. -/
theorem recordKey_stripMarker_of_inside (spec : WriteSpec) (inside : spec.markerInKey = true)
    (record : Value) : recordKey (stripMarker record spec.deleteMarker) spec.key = none := by
  cases shape : spec.deleteMarker with
  | none =>
      simp only [WriteSpec.markerInKey, shape, Bool.false_eq_true] at inside
  | some marker =>
      simp only [WriteSpec.markerInKey, shape, List.contains_eq_mem, decide_eq_true_eq] at inside
      cases record with
      | object entries =>
          rcases extractColumns_of_absent (Value.removeKey entries marker.field) marker.field
            (Value.lookup_removeKey_self entries marker.field) spec.key inside with ⟨message, failed⟩
          simp only [stripMarker, recordKey, extractKey, failed, Except.toOption]
      | _ => rfl

/-! ## What the loop of the planner computes -/

/-- The rows of a page with a readable key, each with its key and action. -/
def keyedActions (spec : WriteSpec) (page : List Value) : List (KeyTuple × Action) :=
  page.filterMap (fun record =>
    match extractKey record spec.key with
    | .error _ => none
    | .ok tuple => some (tuple, spec.action record tuple))

/-- The entry the planner keeps for every canonical key. -/
def plannedEntries (canonical : KeyTuple -> String) (spec : WriteSpec) (page : List Value) :
    List (String × Action) :=
  assignAll [] ((keyedActions spec page).map (fun row => (canonical row.1, row.2)))

private theorem planRow_foldl (canonical : KeyTuple -> String) (spec : WriteSpec)
    (page : List Value) (start : Nat) (state : Planning) :
    (page.zipIdx start).foldl (planRow canonical spec) state =
      { failed := state.failed ++ (page.zipIdx start).filterMap (fun row =>
          match extractKey row.1 spec.key with
          | .error message => some (row.2, message)
          | .ok _ => none)
        slots := ((keyedActions spec page).map (fun row => (canonical row.1, row.2))).foldl
          (fun slots pair => slots.put pair.1 pair.2) state.slots } := by
  induction page generalizing start state with
  | nil => simp only [List.zipIdx_nil, List.foldl_nil, List.filterMap_nil, List.append_nil,
      keyedActions, List.map_nil]
  | cons record rest ih =>
      rw [List.zipIdx_cons, List.foldl_cons, ih]
      cases reading : extractKey record spec.key with
      | error message =>
          simp only [planRow, keyedActions, reading, List.filterMap_cons, List.append_assoc,
            List.singleton_append]
      | ok tuple =>
          simp only [planRow, keyedActions, reading, List.filterMap_cons, List.map_cons,
            List.foldl_cons]

/-- The planner returns its entries split by action, and the unreadable
rows. -/
theorem planWritesBy_eq (canonical : KeyTuple -> String) (spec : WriteSpec) (page : List Value) :
    planWritesBy page spec canonical =
      { upserts := (plannedEntries canonical spec page).filterMap (fun entry => entry.2.upsertRow)
        deletes := (plannedEntries canonical spec page).filterMap (fun entry => entry.2.deleteKey)
        failed := keyFailures page spec } := by
  have represented := Slots.represents_foldl_put Slots.represents_empty
    ((keyedActions spec page).map (fun row => (canonical row.1, row.2)))
  unfold planWritesBy
  rw [planRow_foldl]
  simp only [represented.order, List.filterMap_map, List.nil_append]
  rfl

/-! ## Applying a plan -/

section Destination

variable {K : Type u} [DecidableEq K] (address : KeyTuple -> K)

/-- The writes a plan amounts to, when every row of it has an address. -/
def plannedWrites (key : List String) (plan : WritePlan) : Option (List (K × Option Value)) :=
  (plan.upserts.mapM (fun row =>
      (recordKey row key).map (fun tuple => (address tuple, some row)))).map
    (fun upserts => upserts ++ plan.deletes.map (fun tuple => (address tuple, none)))

private theorem foldlM_applyUpsert (key : List String) (rows : List Value)
    (table : K -> Option Value) :
    rows.foldlM (applyUpsert address key) table =
      (rows.mapM (fun row =>
        (recordKey row key).map (fun tuple => (address tuple, some row)))).map (writeAll table) := by
  induction rows generalizing table with
  | nil => rfl
  | cons row rest ih =>
      rw [List.foldlM_cons, List.mapM_cons]
      cases reading : recordKey row key with
      | none =>
          simp only [applyUpsert, reading, Option.map_none]
          rfl
      | some tuple =>
          simp only [applyUpsert, reading, Option.map_some]
          change rest.foldlM (applyUpsert address key) _ = _
          rw [ih]
          cases rest.mapM (fun row =>
              (recordKey row key).map (fun tuple => (address tuple, some row))) <;> rfl

theorem applyPlan_eq (key : List String) (table : K -> Option Value) (plan : WritePlan) :
    applyPlan address key table plan = (plannedWrites address key plan).map (writeAll table) := by
  unfold applyPlan plannedWrites
  rw [foldlM_applyUpsert, Option.map_map, Option.map_map]
  congr 1
  funext upserts
  simp only [Function.comp_apply, writeAll_append]
  change _ = List.foldl _ _ (List.map _ _)
  rw [List.foldl_map]
  rfl

/-- Applying a page row by row is a run of writes as well. -/
theorem applyPage_eq (spec : WriteSpec) (table : K -> Option Value) (page : List Value) :
    applyPage address spec table page =
      writeAll table ((keyedActions spec page).map (fun row => (address row.1, row.2.upsertRow))) := by
  induction page generalizing table with
  | nil => rfl
  | cons record rest ih =>
      change applyPage address spec (applyRow address spec table record) rest = _
      rw [ih]
      unfold applyRow keyedActions
      cases reading : extractKey record spec.key with
      | error message => simp only [List.filterMap_cons, reading]
      | ok tuple =>
          simp only [List.filterMap_cons, reading, List.map_cons]
          cases kind : spec.isDelete record with
          | true => simp only [WriteSpec.action, kind, if_true]; rfl
          | false => simp only [WriteSpec.action, kind, Bool.false_eq_true, if_false]; rfl

end Destination

/-! ## The entries of a plan -/

/-- The key an action is applied under: a delete carries it, an upsert row
must still show it. -/
def Action.tuple (key : List String) : Action -> Option KeyTuple
  | .upsert row => recordKey row key
  | .delete tuple => some tuple

namespace Action

def isUpsert (action : Action) : Bool := action.upsertRow.isSome

@[simp] theorem upsertRow_upsert (row : Value) : (upsert row).upsertRow = some row := rfl

@[simp] theorem upsertRow_delete (tuple : KeyTuple) : (delete tuple).upsertRow = none := rfl

@[simp] theorem deleteKey_upsert (row : Value) : (upsert row).deleteKey = none := rfl

@[simp] theorem deleteKey_delete (tuple : KeyTuple) : (delete tuple).deleteKey = some tuple := rfl

@[simp] theorem isUpsert_upsert (row : Value) : (upsert row).isUpsert = true := rfl

@[simp] theorem isUpsert_delete (tuple : KeyTuple) : (delete tuple).isUpsert = false := rfl

end Action

/-- The planned entries are the last readable rows of their keys. -/
theorem mem_plannedEntries_iff (canonical : KeyTuple -> String) (spec : WriteSpec)
    (page : List Value) (text : String) (action : Action) :
    (text, action) ∈ plannedEntries canonical spec page ↔
      exists earlier record later tuple, page = earlier ++ record :: later ∧
        extractKey record spec.key = .ok tuple ∧ canonical tuple = text ∧
        action = spec.action record tuple ∧
        forall other, other ∈ later -> forall otherTuple,
          extractKey other spec.key = .ok otherTuple -> canonical otherTuple ≠ text := by
  unfold plannedEntries keyedActions
  rw [mem_assignAll_nil_iff, lastWrite_eq_some_iff, List.map_filterMap]
  constructor
  · rintro ⟨front, back, split, absent⟩
    rcases List.filterMap_eq_append_iff.mp split with ⟨earlier, tail, whole, _, rest⟩
    rcases List.filterMap_eq_cons_iff.mp rest with ⟨skipped, record, later, inner, _, read, after⟩
    cases reading : extractKey record spec.key with
    | error message => simp only [reading, Option.map_none, reduceCtorEq] at read
    | ok tuple =>
        simp only [reading, Option.map_some, Option.some.injEq, Prod.mk.injEq] at read
        refine ⟨earlier ++ skipped, record, later, tuple, ?_, reading, read.1, read.2.symm, ?_⟩
        · rw [whole, inner, List.append_assoc]
        · intro other member otherTuple otherReading
          refine absent (canonical otherTuple, spec.action other otherTuple) ?_
          rw [← after]
          exact List.mem_filterMap.mpr ⟨other, member, by simp only [otherReading, Option.map_some]⟩
  · rintro ⟨earlier, record, later, tuple, whole, reading, same, acted, absent⟩
    rw [whole, List.filterMap_append, List.filterMap_cons]
    simp only [reading, Option.map_some, same, ← acted]
    refine ⟨_, _, rfl, ?_⟩
    intro pair member
    rcases List.mem_filterMap.mp member with ⟨other, listed, read⟩
    cases otherReading : extractKey other spec.key with
    | error message => simp only [otherReading, Option.map_none, reduceCtorEq] at read
    | ok otherTuple =>
        simp only [otherReading, Option.map_some, Option.some.injEq] at read
        rw [← read]
        exact absent other listed otherTuple otherReading

section Destination

variable {K : Type u} [DecidableEq K] (address : KeyTuple -> K)

omit [DecidableEq K] in
/-- When every entry is addressed by its own action, a plan writes the
entries, upserts first. -/
theorem plannedWrites_eq (key : List String) (entries : List (String × Action))
    (failed : List (Nat × String)) (location : String -> K)
    (addressed : forall entry, entry ∈ entries ->
      exists tuple, entry.2.tuple key = some tuple ∧ address tuple = location entry.1) :
    plannedWrites address key
        ⟨entries.filterMap (fun entry => entry.2.upsertRow),
          entries.filterMap (fun entry => entry.2.deleteKey), failed⟩ =
      some ((entries.filter (fun entry => entry.2.isUpsert) ++
        entries.filter (fun entry => !entry.2.isUpsert)).map
          (fun entry => (location entry.1, entry.2.upsertRow))) := by
  have upserts : (entries.filterMap (fun entry => entry.2.upsertRow)).mapM (fun row =>
      (recordKey row key).map (fun tuple => (address tuple, some row))) =
      some ((entries.filter (fun entry => entry.2.isUpsert)).map
        (fun entry => (location entry.1, entry.2.upsertRow))) := by
    induction entries with
    | nil => rfl
    | cons entry rest ih =>
        have tail := ih (fun other member => addressed other (List.mem_cons_of_mem _ member))
        rcases entry with ⟨text, _ | tuple⟩
        case upsert row =>
          rcases addressed _ List.mem_cons_self with ⟨tuple, reading, same⟩
          simp only [Action.tuple] at reading
          simp only [List.filterMap_cons, Action.upsertRow_upsert, List.mapM_cons, reading,
            Option.map_some, List.filter_cons, Action.isUpsert_upsert, if_true, List.map_cons, same,
            tail]
          rfl
        case delete =>
          simp only [List.filterMap_cons, Action.upsertRow_delete, List.filter_cons,
            Action.isUpsert_delete, Bool.false_eq_true, if_false]
          exact tail
  have deletes : (entries.filterMap (fun entry => entry.2.deleteKey)).map
      (fun tuple => (address tuple, none)) =
      (entries.filter (fun entry => !entry.2.isUpsert)).map
        (fun entry => (location entry.1, entry.2.upsertRow)) := by
    clear upserts
    induction entries with
    | nil => rfl
    | cons entry rest ih =>
        have tail := ih (fun other member => addressed other (List.mem_cons_of_mem _ member))
        rcases entry with ⟨text, _ | tuple⟩
        case upsert row =>
          simp only [List.filterMap_cons, Action.deleteKey_upsert, List.filter_cons,
            Action.isUpsert_upsert, Bool.not_true, Bool.false_eq_true, if_false]
          exact tail
        case delete =>
          rcases addressed _ List.mem_cons_self with ⟨found, reading, same⟩
          simp only [Action.tuple, Option.some.injEq] at reading
          subst reading
          simp only [List.filterMap_cons, Action.deleteKey_delete, List.filter_cons,
            Action.isUpsert_delete, Action.upsertRow_delete, Bool.not_false, if_true, List.map_cons,
            same, tail]
  unfold plannedWrites
  rw [upserts, Option.map_some, deletes, List.map_append]

end Destination

/-! ## Planning against the sequential destination -/

/-- The key of a record cannot be read: it is no object, or a key column is
missing or null. -/
def KeyUnreadable (record : Value) (key : List String) : Prop :=
  (forall entries, record ≠ .object entries) ∨
    exists column, column ∈ key ∧ (record.get column = none ∨ record.get column = some .null)

theorem extractColumns_error_iff (entries : List (String × Value)) (key : List String) :
    (exists message, extractColumns entries key = .error message) ↔
      exists column, column ∈ key ∧
        (entries.lookup column = none ∨ entries.lookup column = some .null) := by
  induction key with
  | nil =>
      constructor
      · rintro ⟨message, impossible⟩
        cases impossible
      · rintro ⟨column, impossible, _⟩
        cases impossible
  | cons column rest ih =>
      simp only [List.mem_cons, or_and_right, exists_or, exists_eq_left]
      unfold extractColumns
      split
      · next missing => exact ⟨fun _ => Or.inl (Or.inl missing), fun _ => ⟨_, rfl⟩⟩
      · next null => exact ⟨fun _ => Or.inl (Or.inr null), fun _ => ⟨_, rfl⟩⟩
      · next value notNull present =>
        have readable : ¬ (entries.lookup column = none ∨ entries.lookup column = some .null) := by
          rw [present]
          rintro (impossible | null)
          · cases impossible
          · exact notNull (Option.some.inj null)
        rw [or_iff_right readable, ← ih]
        split
        · next message failed => exact ⟨fun _ => ⟨message, failed⟩, fun _ => ⟨message, rfl⟩⟩
        · next columns read =>
          constructor
          · rintro ⟨message, impossible⟩
            cases impossible
          · rintro ⟨message, failed⟩
            rw [read] at failed
            cases failed

theorem extractKey_error_iff (record : Value) (key : List String) :
    (exists message, extractKey record key = .error message) ↔ KeyUnreadable record key := by
  cases record with
  | object entries =>
      have isObject : ¬ forall other, Value.object entries ≠ .object other := fun absurd => absurd _ rfl
      unfold KeyUnreadable
      rw [or_iff_right isObject]
      refine Iff.trans ?_ (extractColumns_error_iff entries key)
      cases read : extractColumns entries key with
      | error message => simp only [extractKey, read, Except.error.injEq, exists_eq']
      | ok columns => simp only [extractKey, read, reduceCtorEq]
  | _ => exact ⟨fun _ => Or.inl nofun, fun _ => ⟨_, rfl⟩⟩

/-- The failed rows are reported once each, in page order. -/
theorem keyFailures_positions (page : List Value) (spec : WriteSpec) :
    ((keyFailures page spec).map Prod.fst).Pairwise (· < ·) ∧
      forall position, position ∈ (keyFailures page spec).map Prod.fst ↔
        exists record, page[position]? = some record ∧ KeyUnreadable record spec.key := by
  constructor
  · unfold keyFailures
    rw [List.map_filterMap, List.pairwise_filterMap]
    have increasing : (page.zipIdx.map Prod.snd).Pairwise (· < ·) := by
      rw [List.zipIdx_map_snd]
      exact List.pairwise_lt_range'
    refine (List.pairwise_map.mp increasing).imp ?_
    intro left right before leftPosition leftRead rightPosition rightRead
    split at leftRead <;> split at rightRead <;>
      simp only [Option.map_some, Option.map_none, Option.some.injEq, reduceCtorEq] at leftRead rightRead
    exact leftRead ▸ rightRead ▸ before
  · intro position
    unfold keyFailures
    rw [List.map_filterMap, List.mem_filterMap]
    constructor
    · rintro ⟨⟨record, index⟩, member, read⟩
      cases reading : extractKey record spec.key with
      | ok tuple => simp only [reading, Option.map_none, reduceCtorEq] at read
      | error message =>
          simp only [reading, Option.map_some, Option.some.injEq] at read
          subst read
          exact ⟨record, List.mem_zipIdx_iff_getElem?.mp member,
            (extractKey_error_iff record spec.key).mp ⟨message, reading⟩⟩
    · rintro ⟨record, found, unreadable⟩
      rcases (extractKey_error_iff record spec.key).mpr unreadable with ⟨message, reading⟩
      exact ⟨(record, position), List.mem_zipIdx_iff_getElem?.mpr found, by
        simp only [reading, Option.map_some]⟩

/-- The action of a row addresses the key of that row, unless it is an upsert
stripped of a key column. -/
theorem action_tuple (spec : WriteSpec) (record : Value) (tuple : KeyTuple)
    (reading : extractKey record spec.key = .ok tuple)
    (addressed : spec.isDelete record = true ∨ spec.markerInKey = false) :
    (spec.action record tuple).tuple spec.key = some tuple := by
  unfold WriteSpec.action
  cases kind : spec.isDelete record with
  | true =>
      simp only [if_true]
      rfl
  | false =>
      have outside : spec.markerInKey = false := addressed.resolve_left (by rw [kind]; exact Bool.false_ne_true)
      simp only [Bool.false_eq_true, if_false, Action.tuple, recordKey,
        extractKey_stripMarker spec outside, reading, Except.toOption]

/-- The last readable row of every canonical key is a delete. -/
def LastRowsDelete (spec : WriteSpec) (page : List Value) : Prop :=
  forall earlier record later tuple, page = earlier ++ record :: later ->
    extractKey record spec.key = .ok tuple ->
    (forall other, other ∈ later -> forall otherTuple,
      extractKey other spec.key = .ok otherTuple -> canonical otherTuple ≠ canonical tuple) ->
    spec.isDelete record = true

/-- A plan means what its page means row by row: the same table from any
table, one planned write per canonical key, and the unreadable rows reported
once each. -/
structure SequentialMeaning (spec : WriteSpec) (page : List Value) : Prop where
  table : forall table : String -> Option Value,
    applyPlan canonical spec.key table (planWrites page spec) =
      some (applyPage canonical spec table page)
  distinct : exists writes, plannedWrites canonical spec.key (planWrites page spec) = some writes ∧
    (writes.map Prod.fst).Nodup
  failedOnce : ((planWrites page spec).failed.map Prod.fst).Nodup
  failed : forall position, position ∈ (planWrites page spec).failed.map Prod.fst ↔
    exists record, page[position]? = some record ∧ KeyUnreadable record spec.key

theorem plannedEntries_addressed (spec : WriteSpec) (page : List Value)
    (condition : spec.markerInKey = true -> LastRowsDelete spec page) :
    forall entry, entry ∈ plannedEntries canonical spec page ->
      exists tuple, entry.2.tuple spec.key = some tuple ∧ canonical tuple = entry.1 := by
  rintro ⟨text, action⟩ member
  rcases (mem_plannedEntries_iff canonical spec page text action).mp member with
    ⟨earlier, record, later, tuple, split, reading, same, acted, absent⟩
  refine ⟨tuple, ?_, same⟩
  change action.tuple spec.key = some tuple
  rw [acted]
  apply action_tuple spec record tuple reading
  cases inside : spec.markerInKey with
  | false => exact Or.inr rfl
  | true =>
      rw [← same] at absent
      exact Or.inl (condition inside earlier record later tuple split reading absent)

/-- The last row of a canonical key is planned without its marker, unless it
is a delete. -/
theorem stripMarker_mem_upserts {spec : WriteSpec} {page earlier later : List Value} {record : Value}
    {tuple : KeyTuple} (split : page = earlier ++ record :: later) (reading : extractKey record spec.key = .ok tuple)
    (absent : forall other, other ∈ later -> forall otherTuple,
      extractKey other spec.key = .ok otherTuple -> canonical otherTuple ≠ canonical tuple)
    (notDelete : ¬ spec.isDelete record = true) :
    stripMarker record spec.deleteMarker ∈ (planWrites page spec).upserts := by
  have acted : spec.action record tuple = .upsert (stripMarker record spec.deleteMarker) := by
    unfold WriteSpec.action
    rw [if_neg notDelete]
  unfold planWrites
  rw [planWritesBy_eq]
  refine List.mem_filterMap.mpr ⟨(canonical tuple, spec.action record tuple), ?_, ?_⟩
  · exact (mem_plannedEntries_iff canonical spec page _ _).mpr
      ⟨earlier, record, later, tuple, split, reading, rfl, rfl, absent⟩
  · rw [acted]
    rfl

/-- A plan whose rows can all be addressed has lost no key of an upsert. -/
theorem lastRowsDelete_of_plannedWrites {K : Type u} (address : KeyTuple -> K) (spec : WriteSpec)
    (page : List Value) (inside : spec.markerInKey = true)
    (readable : plannedWrites address spec.key (planWrites page spec) ≠ none) :
    LastRowsDelete spec page := by
  intro earlier record later tuple split reading absent
  by_contra notDelete
  apply readable
  -- The stripped row is planned, and its key can no longer be read.
  have planned := stripMarker_mem_upserts split reading absent notDelete
  rcases List.append_of_mem planned with ⟨before, after, whole⟩
  unfold plannedWrites
  rw [whole, List.mapM_append, List.mapM_cons, recordKey_stripMarker_of_inside spec inside]
  cases before.mapM (fun row =>
      (recordKey row spec.key).map (fun tuple => (address tuple, some row))) <;> rfl

/-- A plan has the meaning of its page exactly when no row it upserts has
lost a part of its key: the delete marker is not a key column, or every key
of the page ends with a delete. -/
theorem planWrites_sequentialMeaning_iff (spec : WriteSpec) (page : List Value) :
    SequentialMeaning spec page ↔ (spec.markerInKey = true -> LastRowsDelete spec page) := by
  constructor
  · intro meaning inside
    apply lastRowsDelete_of_plannedWrites canonical spec page inside
    rcases meaning.distinct with ⟨writes, planned, _⟩
    rw [planned]
    exact Option.some_ne_none writes
  · intro condition
    have failures : (planWrites page spec).failed = keyFailures page spec := by
      unfold planWrites
      rw [planWritesBy_eq]
    have writes := plannedWrites_eq canonical spec.key (plannedEntries canonical spec page)
      (keyFailures page spec) (fun text => text) (plannedEntries_addressed spec page condition)
    rw [← planWritesBy_eq] at writes
    have reordered := (List.filter_append_perm (fun entry : String × Action => entry.2.isUpsert)
      (plannedEntries canonical spec page)).map (fun entry => (entry.1, entry.2.upsertRow))
    have distinct : (((plannedEntries canonical spec page).map
        (fun entry => (entry.1, entry.2.upsertRow))).map Prod.fst).Nodup := by
      rw [List.map_map]
      exact nodup_map_fst_assignAll_nil _
    have writtenDistinct := (reordered.map Prod.fst).nodup_iff.mpr distinct
    refine ⟨?_, ⟨_, writes, writtenDistinct⟩, ?_, ?_⟩
    · intro table
      rw [applyPlan_eq, planWrites, writes, Option.map_some, writeAll_perm reordered writtenDistinct,
        applyPage_eq, plannedEntries, map_assignAll, List.map_nil, writeAll_assignAll, List.map_map]
      rfl
    · rw [failures]
      exact (keyFailures_positions page spec).1.imp (fun before => Nat.ne_of_lt before)
    · rw [failures]
      exact (keyFailures_positions page spec).2

/-- A marker that is also a key column: the planner hands the sink a row
without its key. -/
def markedKeySpec : WriteSpec := ⟨.upsert, ["id", "op"], some ⟨"op", ["d"]⟩⟩

def markedKeyPage : List Value :=
  [.object [("id", .number (.int 1)), ("op", .string "u"), ("v", .string "a")]]

theorem markedKeyPage_loses_key : ¬ SequentialMeaning markedKeySpec markedKeyPage := by
  intro meaning
  rcases meaning.distinct with ⟨writes, planned, _⟩
  have unreadable : plannedWrites canonical markedKeySpec.key (planWrites markedKeyPage markedKeySpec) =
      none := by decide
  rw [unreadable] at planned
  cases planned

/-! ## The keys of planned rows -/

/-- The planned row a record of the page becomes: the record is the last one
of its canonical key and no delete. -/
def PlannedFrom (spec : WriteSpec) (page : List Value) (record row : Value) : Prop :=
  exists earlier later tuple, page = earlier ++ record :: later ∧ extractKey record spec.key = .ok tuple ∧
    (forall other, other ∈ later -> forall otherTuple,
      extractKey other spec.key = .ok otherTuple -> canonical otherTuple ≠ canonical tuple) ∧
    spec.isDelete record = false ∧ row = stripMarker record spec.deleteMarker

/-- The rows a plan upserts are the planned rows of the page's records, and
each still shows the key of its record. -/
structure KeepsKeys (spec : WriteSpec) (page : List Value) : Prop where
  origin : forall row, row ∈ (planWrites page spec).upserts -> exists record, PlannedFrom spec page record row
  planned : forall record row, PlannedFrom spec page record row -> row ∈ (planWrites page spec).upserts
  kept : forall record row, PlannedFrom spec page record row ->
    recordKey row spec.key = recordKey record spec.key

theorem plannedFrom_of_mem_upserts {spec : WriteSpec} {page : List Value} {row : Value}
    (member : row ∈ (planWrites page spec).upserts) : exists record, PlannedFrom spec page record row := by
  unfold planWrites at member
  rw [planWritesBy_eq] at member
  rcases List.mem_filterMap.mp member with ⟨⟨text, action⟩, listed, upserted⟩
  rcases (mem_plannedEntries_iff canonical spec page text action).mp listed with
    ⟨earlier, record, later, tuple, split, reading, same, acted, absent⟩
  rw [← same] at absent
  change action.upsertRow = some row at upserted
  rw [acted, WriteSpec.action] at upserted
  cases kind : spec.isDelete record with
  | true =>
      rw [kind, if_pos rfl, Action.upsertRow_delete] at upserted
      cases upserted
  | false =>
      rw [kind, if_neg Bool.false_ne_true, Action.upsertRow_upsert] at upserted
      exact ⟨record, earlier, later, tuple, split, reading, absent, kind, (Option.some.inj upserted).symm⟩

/-- Planned rows keep their keys exactly when none is stripped of a part of
it: the delete marker is not a key column, or every key of the page ends with
a delete. -/
theorem planWrites_keepsKeys_iff (spec : WriteSpec) (page : List Value) :
    KeepsKeys spec page <-> (spec.markerInKey = true -> LastRowsDelete spec page) := by
  constructor
  · intro keeps inside earlier record later tuple split reading absent
    by_contra notDelete
    have kept := keeps.kept record (stripMarker record spec.deleteMarker)
      ⟨earlier, later, tuple, split, reading, absent, Bool.eq_false_iff.mpr notDelete, rfl⟩
    rw [recordKey_stripMarker_of_inside spec inside, recordKey, reading] at kept
    cases kept
  · intro condition
    refine ⟨fun row member => plannedFrom_of_mem_upserts member, ?_, ?_⟩
    · rintro record row ⟨earlier, later, tuple, split, reading, absent, kind, rfl⟩
      exact stripMarker_mem_upserts split reading absent (Bool.eq_false_iff.mp kind)
    · rintro record row ⟨earlier, later, tuple, split, reading, absent, kind, rfl⟩
      have outside : spec.markerInKey = false := by
        by_contra inside
        rw [Bool.not_eq_false] at inside
        exact Bool.eq_false_iff.mp kind (condition inside earlier record later tuple split reading absent)
      simp only [recordKey, extractKey_stripMarker spec outside]

theorem markedKeyPage_row_without_key :
    markedKeySpec.validate = .ok () ∧ ¬ KeepsKeys markedKeySpec markedKeyPage ∧
      (planWrites markedKeyPage markedKeySpec).upserts.map (fun row => recordKey row markedKeySpec.key) =
        [none] := by
  refine ⟨rfl, ?_, by decide⟩
  intro keeps
  have last : PlannedFrom markedKeySpec markedKeyPage
      (.object [("id", .number (.int 1)), ("op", .string "u"), ("v", .string "a")])
      (.object [("id", .number (.int 1)), ("v", .string "a")]) :=
    ⟨[], [], _, rfl, rfl, nofun, by decide, rfl⟩
  have kept := keeps.kept _ _ last
  revert kept
  decide

end KeyedWrites
end FaucetStream
