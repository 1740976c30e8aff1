import FaucetStream.Json.ObjectText
import FaucetStream.KeyedWrites.Plan

namespace FaucetStream
namespace KeyedWrites

open Json
open Library

/-!
# Undoing a keyed run

Before a page is applied, the sink journals for every key of its plan the row
that stands under the key, once per run.  An undo deletes the keys that had no
row and writes the other rows back.  It gives the table before the run when
every row the run writes stands under a journaled key.  The planner takes the
marker field from the rows it upserts, so a marker that is a key column leaves
rows that are written and not journaled.
-/

/-! ## Keys as text -/

/-- `key_json`: the identity of a row in the journal. -/
def keyJson (tuple : KeyTuple) : String :=
  "\x7b" ++ String.intercalate "," (tuple.columns.map (fun column => (Value.string column.1).text ++ ":" ++
    column.2.text)) ++ "\x7d"

def canonicalValue : Value -> Value
  | .null => .null
  | other => .string (keyScalarText other)

/-- Every scalar of a key as its text, a null as null. -/
def canonicalKey (tuple : KeyTuple) : KeyTuple :=
  ⟨tuple.columns.map (fun column => (column.1, canonicalValue column.2))⟩

/-- Keep a key whose text was not seen yet. -/
def collectKey (keys : List KeyTuple) (tuple : KeyTuple) : List KeyTuple :=
  if keyJson (canonicalKey tuple) ∈ keys.map keyJson then keys else keys ++ [canonicalKey tuple]

/-- The keys a planned page touches. -/
def planKeys (plan : WritePlan) (key : List String) : List KeyTuple :=
  (plan.upserts.filterMap (fun row => recordKey row key) ++ plan.deletes).foldl collectKey []

/-! ## The journal -/

structure JournalEntry where
  key : List (String × Value)
  before : Option Value

/-- The JSON reader: the text of an object of strings reads as an object with
the last value under each name. -/
structure JsonReader where
  fromStr : String -> Except String Value
  debugText : String -> String
  reads : forall entries : List (String × String), exists found,
    fromStr (Value.object (stringEntries entries)).text = .ok (.object found) ∧
      forall name, found.lookup name = lastWrite (stringEntries entries) name

/-- A row of the journal: the text of the key, and the row that stood under
it. -/
structure JournalRow where
  keyJson : String
  before : Option Value

section Journal

variable (reader : JsonReader)

/-- `decode`. -/
def JournalRow.decode (row : JournalRow) : Except FaucetError JournalEntry :=
  match reader.fromStr row.keyJson with
  | .error message =>
      .error (.sink ("rollback: malformed journal key " ++ reader.debugText row.keyJson ++ ": " ++ message))
  | .ok (.object entries) => .ok ⟨entries, row.before⟩
  | .ok other => .error (.sink ("rollback: journal key is not an object: " ++ other.text))

end Journal

/-- The key of an entry in the order of the key columns. -/
def JournalEntry.tuple (entry : JournalEntry) (key : List String) : KeyTuple :=
  ⟨key.map (fun column => (column, (entry.key.lookup column).getD .null))⟩

/-- The entries to delete and the images to write back. -/
def planRestore (entries : List JournalEntry) : List JournalEntry × List Value :=
  (entries.filter (fun entry => entry.before.isNone), entries.filterMap JournalEntry.before)

/-! ## The table -/

/-- A table addresses its rows by canonical key. -/
abbrev Rows := KeyTuple -> Option Value

/-- The key columns of a row as the table stores them: a column that the row
does not carry is null. -/
def rowTuple (key : List String) (row : Value) : KeyTuple :=
  ⟨key.map (fun column => (column, (row.get column).getD .null))⟩

def writeRow (key : List String) (rows : Rows) (row : Value) : Rows :=
  Function.update rows (canonicalKey (rowTuple key row)) (some row)

def deleteRow (rows : Rows) (tuple : KeyTuple) : Rows := Function.update rows (canonicalKey tuple) none

/-- Upserts first, then deletes. -/
def applyToRows (key : List String) (rows : Rows) (plan : WritePlan) : Rows :=
  plan.deletes.foldl deleteRow (plan.upserts.foldl (writeRow key) rows)

/-- A table whose rows stand under their own keys. -/
structure KeyedTable (key : List String) where
  rows : Rows
  keyed : forall address row, rows address = some row -> (recordKey row key).map canonicalKey = some address

/-- A run that is under way. -/
structure JournaledRun where
  rows : Rows
  journal : List JournalRow

/-- Journal a key with its current row, unless the run has journaled it. -/
def journalKey (run : JournaledRun) (tuple : KeyTuple) : JournaledRun :=
  if keyJson tuple ∈ run.journal.map JournalRow.keyJson then run
  else { run with journal := run.journal ++ [⟨keyJson tuple, run.rows tuple⟩] }

/-- One page: the journal first, then the plan. -/
def writePage (spec : WriteSpec) (run : JournaledRun) (page : List Value) : JournaledRun :=
  let plan := planWrites page spec
  let journaled := (planKeys plan spec.key).foldl journalKey run
  { journaled with rows := applyToRows spec.key journaled.rows plan }

def writePages (spec : WriteSpec) (rows : Rows) (pages : List (List Value)) : JournaledRun :=
  pages.foldl (writePage spec) ⟨rows, []⟩

/-- Undo a run from its journal. -/
def undo (reader : JsonReader) (key : List String) (run : JournaledRun) : Except FaucetError Rows :=
  match run.journal.mapM (fun row => row.decode reader) with
  | .error error => .error error
  | .ok entries =>
      let restore := planRestore entries
      .ok (restore.2.foldl (writeRow key)
        (restore.1.foldl (fun rows entry => deleteRow rows (entry.tuple key)) run.rows))

/-! ## Keys of texts -/

/-- A key of which every column is a text. -/
def Textual (key : List String) (tuple : KeyTuple) : Prop :=
  exists text : String -> String, tuple.columns = key.map (fun column => (column, .string (text column)))

/-- A key with a column that is null. -/
def Gapped (tuple : KeyTuple) : Prop := exists column, (column, Value.null) ∈ tuple.columns

theorem Textual.not_gapped {key : List String} {tuple : KeyTuple} (textual : Textual key tuple) : ¬ Gapped tuple := by
  rcases textual with ⟨text, columns⟩
  rintro ⟨column, member⟩
  rw [columns] at member
  rcases List.mem_map.mp member with ⟨name, -, same⟩
  cases (Prod.mk.inj same).2

theorem extractColumns_ok {entries : List (String × Value)} {key : List String} {columns : List (String × Value)}
    (read : extractColumns entries key = .ok columns) :
    columns = key.map (fun column => (column, (entries.lookup column).getD .null)) ∧
      forall column, column ∈ key -> (entries.lookup column).getD .null ≠ .null := by
  induction key generalizing columns with
  | nil =>
      cases read
      refine ⟨rfl, ?_⟩
      intro column member
      cases member
  | cons column rest ih =>
      rw [extractColumns] at read
      split at read
      · cases read
      · cases read
      · next value notNull found =>
          split at read
          · cases read
          · next others readOthers =>
              cases read
              rcases ih readOthers with ⟨same, filled⟩
              constructor
              · rw [List.map_cons, found, ← same]
                rfl
              · intro name member
                rcases List.mem_cons.mp member with rfl | later
                · rw [found]
                  exact notNull
                · exact filled name later

theorem canonicalValue_of_ne_null {value : Value} (filled : value ≠ .null) :
    canonicalValue value = .string (keyScalarText value) := by
  cases value with
  | null => exact absurd rfl filled
  | _ => rfl

/-- A row with a readable key shows it in the table, as texts. -/
theorem rowTuple_of_recordKey {key : List String} {row : Value} {tuple : KeyTuple}
    (read : recordKey row key = some tuple) : rowTuple key row = tuple ∧ Textual key (canonicalKey tuple) := by
  unfold recordKey extractKey at read
  cases row with
  | object entries =>
      cases columns : extractColumns entries key with
      | error message =>
          simp only [columns] at read
          cases read
      | ok found =>
          simp only [columns] at read
          cases read
          rcases extractColumns_ok columns with ⟨same, filled⟩
          constructor
          · rw [same]
            rfl
          · refine ⟨fun column => keyScalarText ((entries.lookup column).getD .null), ?_⟩
            unfold canonicalKey
            rw [same, List.map_map]
            apply List.map_congr_left
            intro column member
            exact congrArg (Prod.mk column) (canonicalValue_of_ne_null (filled column member))
  | _ => cases read

theorem canonicalKey_of_textual {key : List String} {tuple : KeyTuple} (textual : Textual key tuple) :
    canonicalKey tuple = tuple := by
  rcases textual with ⟨text, columns⟩
  rcases tuple with ⟨found⟩
  change found = _ at columns
  unfold canonicalKey
  rw [columns, List.map_map]
  rfl

theorem keyJson_eq_text {key : List String} {tuple : KeyTuple} {text : String -> String}
    (columns : tuple.columns = key.map (fun column => (column, .string (text column)))) :
    keyJson tuple = (Value.object (stringEntries (key.map (fun column => (column, text column))))).text := by
  unfold keyJson
  rw [columns, Value.text, entryTexts_eq, stringEntries, List.map_map, List.map_map, List.map_map]
  rfl

theorem lastWrite_map {key : List String} (value : String -> Value) {column : String} (member : column ∈ key) :
    lastWrite (key.map (fun name => (name, value name))) column = some (value column) := by
  cases found : lastWrite (key.map (fun name => (name, value name))) column with
  | none =>
      rw [lastWrite_eq_none_iff, List.map_map] at found
      exact absurd (List.mem_map.mpr ⟨column, member, rfl⟩) found
  | some other =>
      rcases (lastWrite_eq_some_iff _ _ _).mp found with ⟨earlier, later, split, -⟩
      have inside : (column, other) ∈ key.map (fun name => (name, value name)) := by
        rw [split]
        exact List.mem_append_right earlier List.mem_cons_self
      rcases List.mem_map.mp inside with ⟨name, -, same⟩
      cases same
      rfl

section Reader

variable (reader : JsonReader)

/-- The text of a key decodes to the key. -/
theorem decode_keyJson {key : List String} {tuple : KeyTuple} (textual : Textual key tuple) (before : Option Value) :
    exists entry, (JournalRow.mk (keyJson tuple) before).decode reader = .ok entry ∧ entry.before = before ∧
      entry.tuple key = tuple := by
  rcases textual with ⟨text, columns⟩
  rcases reader.reads (key.map (fun column => (column, text column))) with ⟨found, read, lookups⟩
  refine ⟨⟨found, before⟩, ?_, rfl, ?_⟩
  · unfold JournalRow.decode
    simp only [keyJson_eq_text columns, read]
  · rcases tuple with ⟨tupleColumns⟩
    change tupleColumns = _ at columns
    unfold JournalEntry.tuple
    rw [columns]
    congr 1
    apply List.map_congr_left
    intro column member
    have strings : stringEntries (key.map (fun column => (column, text column))) =
        key.map (fun name => (name, Value.string (text name))) := by
      unfold stringEntries
      rw [List.map_map]
      rfl
    rw [lookups, strings, lastWrite_map (fun name => .string (text name)) member]
    rfl

include reader in
theorem keyJson_injective {key : List String} {left right : KeyTuple} (leftTextual : Textual key left)
    (rightTextual : Textual key right) (same : keyJson left = keyJson right) : left = right := by
  rcases decode_keyJson reader leftTextual none with ⟨leftEntry, leftRead, -, leftTuple⟩
  rcases decode_keyJson reader rightTextual none with ⟨rightEntry, rightRead, -, rightTuple⟩
  rw [same, rightRead] at leftRead
  cases leftRead
  rw [← leftTuple, rightTuple]

/-! ## Writes -/

/-- A place that only ever receives one value has it in the end. -/
theorem writeAll_settled {rows : Rows} {writes : List (KeyTuple × Option Value)} {address : KeyTuple}
    {value : Option Value} (only : forall write, write ∈ writes -> write.1 = address -> write.2 = value)
    (received : address ∈ writes.map Prod.fst ∨ rows address = value) : writeAll rows writes address = value := by
  rcases writeAll_written_or rows writes address with ⟨write, member, same, held⟩ | ⟨absent, held⟩
  · rw [held]
    exact only write member same
  · rw [held]
    exact received.resolve_left absent

/-- A place that is never emptied is filled once something is written to it,
and stays filled. -/
theorem writeAll_filled {rows : Rows} {writes : List (KeyTuple × Option Value)} {address : KeyTuple}
    (never : forall write, write ∈ writes -> write.1 = address -> write.2 ≠ none)
    (received : address ∈ writes.map Prod.fst ∨ rows address ≠ none) : writeAll rows writes address ≠ none := by
  rcases writeAll_written_or rows writes address with ⟨write, member, same, held⟩ | ⟨absent, held⟩
  · rw [held]
    exact never write member same
  · rw [held]
    exact received.resolve_left absent

def upsertWrites (key : List String) (rows : List Value) : List (KeyTuple × Option Value) :=
  rows.map (fun row => (canonicalKey (rowTuple key row), some row))

theorem foldl_writeRow (key : List String) (table : Rows) (rows : List Value) :
    rows.foldl (writeRow key) table = writeAll table (upsertWrites key rows) := by
  unfold writeAll upsertWrites
  rw [List.foldl_map]
  rfl

theorem applyToRows_eq (key : List String) (rows : Rows) (plan : WritePlan) :
    applyToRows key rows plan =
      writeAll rows (upsertWrites key plan.upserts ++ plan.deletes.map (fun tuple => (canonicalKey tuple, none))) := by
  unfold applyToRows
  rw [foldl_writeRow, writeAll_append]
  change _ = List.foldl _ _ (List.map _ _)
  rw [List.foldl_map]
  rfl

/-! ## The keys of a plan -/

theorem foldl_collectKey (keys tuples : List KeyTuple) :
    (forall tuple, tuple ∈ tuples -> keyJson (canonicalKey tuple) ∈ (tuples.foldl collectKey keys).map keyJson) ∧
    (forall address, address ∈ tuples.foldl collectKey keys ->
      address ∈ keys ∨ exists tuple, tuple ∈ tuples ∧ address = canonicalKey tuple) ∧
    (forall address, address ∈ keys -> address ∈ tuples.foldl collectKey keys) := by
  induction tuples generalizing keys with
  | nil =>
      refine ⟨?_, fun address member => Or.inl member, fun address member => member⟩
      intro tuple member
      cases member
  | cons first rest ih =>
      rcases ih (collectKey keys first) with ⟨listed, origin, kept⟩
      have grown : forall address, address ∈ keys -> address ∈ collectKey keys first := by
        intro address member
        unfold collectKey
        split
        · exact member
        · exact List.mem_append_left _ member
      have text : keyJson (canonicalKey first) ∈ (collectKey keys first).map keyJson := by
        unfold collectKey
        split
        · next seen => exact seen
        · exact List.mem_map.mpr ⟨canonicalKey first, List.mem_append_right keys List.mem_cons_self, rfl⟩
      refine ⟨?_, ?_, fun address member => kept address (grown address member)⟩
      · intro tuple member
        rcases List.mem_cons.mp member with rfl | later
        · rcases List.mem_map.mp text with ⟨address, inside, same⟩
          exact List.mem_map.mpr ⟨address, kept address inside, same⟩
        · exact listed tuple later
      · intro address member
        rcases origin address member with early | ⟨tuple, later, same⟩
        · unfold collectKey at early
          split at early
          · exact Or.inl early
          · rcases List.mem_append.mp early with old | new
            · exact Or.inl old
            · exact Or.inr ⟨first, List.mem_cons_self, List.mem_singleton.mp new⟩
        · exact Or.inr ⟨tuple, List.mem_cons_of_mem first later, same⟩

variable {spec : WriteSpec}

/-- A planned delete carries the key of a row of the page. -/
theorem planned_delete {page : List Value} {tuple : KeyTuple}
    (member : tuple ∈ (planWrites page spec).deletes) : exists record, recordKey record spec.key = some tuple := by
  unfold planWrites at member
  rw [planWritesBy_eq] at member
  rcases List.mem_filterMap.mp member with ⟨⟨text, action⟩, planned, isDelete⟩
  rcases (mem_plannedEntries_iff canonical spec page text action).mp planned with
    ⟨earlier, record, later, recordTuple, -, reading, -, acted, -⟩
  refine ⟨record, ?_⟩
  have same : recordTuple = tuple := by
    rw [acted] at isDelete
    unfold WriteSpec.action at isDelete
    split at isDelete
    · exact Option.some.inj isDelete
    · cases isDelete
  rw [recordKey, reading, same]
  rfl

/-- The key of a plan that a page touches can be read, unless the marker takes
a part of it away. -/
theorem planned_upsert {page : List Value} {row : Value}
    (condition : spec.markerInKey = true -> LastRowsDelete spec page)
    (member : row ∈ (planWrites page spec).upserts) : exists tuple, recordKey row spec.key = some tuple := by
  unfold planWrites at member
  rw [planWritesBy_eq] at member
  rcases List.mem_filterMap.mp member with ⟨⟨text, action⟩, planned, isUpsert⟩
  rcases plannedEntries_addressed spec page condition ⟨text, action⟩ planned with ⟨tuple, carried, -⟩
  cases action with
  | upsert found =>
      cases isUpsert
      exact ⟨tuple, carried⟩
  | delete found => cases isUpsert

theorem planKeys_textual {page : List Value} :
    forall address, address ∈ planKeys (planWrites page spec) spec.key -> Textual spec.key address := by
  intro address member
  rcases (foldl_collectKey [] _).2.1 address member with impossible | ⟨tuple, inside, rfl⟩
  · cases impossible
  · rcases List.mem_append.mp inside with upsert | delete
    · rcases List.mem_filterMap.mp upsert with ⟨row, -, read⟩
      exact (rowTuple_of_recordKey read).2
    · rcases planned_delete delete with ⟨record, read⟩
      exact (rowTuple_of_recordKey read).2

include reader in
theorem mem_planKeys {page : List Value} {tuple : KeyTuple} (textual : Textual spec.key (canonicalKey tuple))
    (listed : tuple ∈ (planWrites page spec).upserts.filterMap (fun row => recordKey row spec.key) ++
      (planWrites page spec).deletes) :
    canonicalKey tuple ∈ planKeys (planWrites page spec) spec.key := by
  have text := (foldl_collectKey [] _).1 tuple listed
  rcases List.mem_map.mp text with ⟨address, inside, same⟩
  have equal := keyJson_injective reader (planKeys_textual address inside) textual same
  rw [← equal]
  exact inside

/-! ## The journal of a run -/

/-- The rows of a journal from the keys and the images they stand for. -/
def journalOf (images : List (KeyTuple × Option Value)) : List JournalRow :=
  images.map (fun image => ⟨keyJson image.1, image.2⟩)

/-- What a run has journaled. -/
structure Journaled (key : List String) (run : JournaledRun) (images : List (KeyTuple × Option Value)) : Prop where
  journal : run.journal = journalOf images
  textual : forall image, image ∈ images -> Textual key image.1

variable {images : List (KeyTuple × Option Value)}

include reader in
theorem Journaled.mem_iff {key : List String} {run : JournaledRun}
    (journaled : Journaled key run images) {address : KeyTuple} (textual : Textual key address) :
    keyJson address ∈ run.journal.map JournalRow.keyJson <-> address ∈ images.map Prod.fst := by
  rw [journaled.journal, journalOf, List.map_map]
  constructor
  · intro listed
    rcases List.mem_map.mp listed with ⟨image, member, same⟩
    have equal := keyJson_injective reader (journaled.textual image member) textual same
    exact List.mem_map.mpr ⟨image, member, equal⟩
  · intro listed
    rcases List.mem_map.mp listed with ⟨image, member, same⟩
    rw [← same]
    exact List.mem_map.mpr ⟨image, member, rfl⟩

include reader in
/-- Journaling keys adds the ones that are new, each with its current row. -/
theorem Journaled.foldl_journalKey {key : List String} {run : JournaledRun}
    (journaled : Journaled key run images) (addresses : List KeyTuple)
    (textual : forall address, address ∈ addresses -> Textual key address) :
    exists added, Journaled key (addresses.foldl journalKey run) (images ++ added) ∧
      (addresses.foldl journalKey run).rows = run.rows ∧
      (forall address, address ∈ addresses -> address ∈ (images ++ added).map Prod.fst) ∧
      forall image, image ∈ added -> image.1 ∉ images.map Prod.fst ∧ image.2 = run.rows image.1 := by
  induction addresses generalizing run images with
  | nil =>
      refine ⟨[], ?_, rfl, ?_, ?_⟩
      · rw [List.append_nil]
        exact journaled
      · intro address member
        cases member
      · intro image member
        cases member
  | cons first rest ih =>
      have firstTextual := textual first List.mem_cons_self
      have restTextual : forall address, address ∈ rest -> Textual key address :=
        fun address member => textual address (List.mem_cons_of_mem first member)
      rw [List.foldl_cons]
      by_cases seen : keyJson first ∈ run.journal.map JournalRow.keyJson
      · have same : journalKey run first = run := if_pos seen
        rw [same]
        rcases ih journaled restTextual with ⟨added, grown, rows, listed, new⟩
        refine ⟨added, grown, rows, ?_, new⟩
        intro address member
        rcases List.mem_cons.mp member with rfl | later
        · rw [List.map_append]
          exact List.mem_append_left _ ((journaled.mem_iff reader firstTextual).mp seen)
        · exact listed address later
      · have changed : journalKey run first =
            ⟨run.rows, run.journal ++ [⟨keyJson first, run.rows first⟩]⟩ := if_neg seen
        have more : Journaled key (journalKey run first) (images ++ [(first, run.rows first)]) := by
          constructor
          · rw [changed, journaled.journal, journalOf, journalOf, List.map_append]
            rfl
          · intro image member
            rcases List.mem_append.mp member with old | new
            · exact journaled.textual image old
            · rw [List.mem_singleton.mp new]
              exact firstTextual
        rcases ih more restTextual with ⟨added, grown, rows, listed, new⟩
        rw [List.append_assoc, List.singleton_append] at grown listed
        have kept : (journalKey run first).rows = run.rows := by rw [changed]
        refine ⟨(first, run.rows first) :: added, grown, rows.trans kept, ?_, ?_⟩
        · intro address member
          rcases List.mem_cons.mp member with rfl | later
          · rw [List.map_append, List.map_cons]
            exact List.mem_append_right _ List.mem_cons_self
          · exact listed address later
        · intro image member
          rcases List.mem_cons.mp member with rfl | later
          · exact ⟨fun listed => seen ((journaled.mem_iff reader firstTextual).mpr listed), rfl⟩
          · rcases new image later with ⟨absent, current⟩
            rw [List.map_append] at absent
            refine ⟨fun listed => absent (List.mem_append_left _ listed), ?_⟩
            rw [current, kept]

/-! ## What an undo writes -/

def restoreWrites (key : List String) (images : List (KeyTuple × Option Value)) : List (KeyTuple × Option Value) :=
  (images.filter (fun image => image.2.isNone)).map (fun image => (image.1, none)) ++
    upsertWrites key (images.filterMap Prod.snd)

/-- The journal decodes to its keys and images. -/
theorem decode_journalOf {key : List String} (textual : forall image, image ∈ images -> Textual key image.1) :
    exists entries, (journalOf images).mapM (fun row => row.decode reader) = .ok entries ∧
      (planRestore entries).1.map (fun entry => canonicalKey (entry.tuple key)) =
        (images.filter (fun image => image.2.isNone)).map Prod.fst ∧
      (planRestore entries).2 = images.filterMap Prod.snd := by
  induction images with
  | nil => exact ⟨[], rfl, rfl, rfl⟩
  | cons image rest ih =>
      rcases image with ⟨address, before⟩
      have isTextual := textual (address, before) List.mem_cons_self
      rcases ih (fun other member => textual other (List.mem_cons_of_mem _ member)) with
        ⟨entries, decoded, deletes, restores⟩
      rcases decode_keyJson reader isTextual before with ⟨entry, read, sameBefore, sameTuple⟩
      refine ⟨entry :: entries, ?_, ?_, ?_⟩
      · change List.mapM _ (_ :: journalOf rest) = _
        rw [List.mapM_cons, read, decoded]
        rfl
      · unfold planRestore at deletes ⊢
        cases before with
        | none =>
            rw [List.filter_cons_of_pos (by rw [sameBefore]; rfl), List.filter_cons_of_pos rfl, List.map_cons,
              List.map_cons, sameTuple, canonicalKey_of_textual isTextual, deletes]
        | some row =>
            rw [List.filter_cons_of_neg (by rw [sameBefore]; exact Bool.false_ne_true),
              List.filter_cons_of_neg Bool.false_ne_true, deletes]
      · unfold planRestore at restores ⊢
        rw [List.filterMap_cons, List.filterMap_cons, sameBefore]
        cases before with
        | none => exact restores
        | some row => exact congrArg (List.cons row) restores

theorem undo_eq {key : List String} {run : JournaledRun} (journaled : Journaled key run images) :
    undo reader key run = .ok (writeAll run.rows (restoreWrites key images)) := by
  rcases decode_journalOf reader journaled.textual with ⟨entries, decoded, deletes, restores⟩
  unfold undo
  rw [journaled.journal, decoded]
  have deleted : (planRestore entries).1.foldl (fun rows entry => deleteRow rows (entry.tuple key)) run.rows =
      writeAll run.rows ((images.filter (fun image => image.2.isNone)).map (fun image => (image.1, none))) := by
    have pairs : (images.filter (fun image => image.2.isNone)).map (fun image => (image.1, (none : Option Value))) =
        (planRestore entries).1.map (fun entry => (canonicalKey (entry.tuple key), none)) := by
      have tagged := congrArg (List.map (fun address => (address, (none : Option Value)))) deletes
      rw [List.map_map, List.map_map] at tagged
      exact tagged.symm
    rw [pairs]
    unfold writeAll
    rw [List.foldl_map]
    rfl
  simp only [deleted, restores]
  unfold restoreWrites
  rw [writeAll_append, foldl_writeRow]

/-! ## Runs that can be undone -/

/-- Every image is the row before the run, and every row that the run changed
is journaled. -/
structure Undoable (key : List String) (original : Rows) (run : JournaledRun)
    (images : List (KeyTuple × Option Value)) : Prop extends Journaled key run images where
  imaged : forall image, image ∈ images -> image.2 = original image.1
  changed : forall address, run.rows address ≠ original address -> address ∈ images.map Prod.fst

include reader in
/-- The rows that a plan touches are journaled before it is applied. -/
theorem touched_planKeys {page : List Value}
    (condition : spec.markerInKey = true -> LastRowsDelete spec page) {write : KeyTuple × Option Value}
    (member : write ∈ upsertWrites spec.key (planWrites page spec).upserts ++
      (planWrites page spec).deletes.map (fun tuple => (canonicalKey tuple, none))) :
    write.1 ∈ planKeys (planWrites page spec) spec.key := by
  rcases List.mem_append.mp member with upsert | delete
  · rcases List.mem_map.mp upsert with ⟨row, planned, rfl⟩
    rcases planned_upsert condition planned with ⟨tuple, read⟩
    rcases rowTuple_of_recordKey read with ⟨shown, textual⟩
    change canonicalKey (rowTuple spec.key row) ∈ _
    rw [shown]
    exact mem_planKeys reader textual (List.mem_append_left _ (List.mem_filterMap.mpr ⟨row, planned, read⟩))
  · rcases List.mem_map.mp delete with ⟨tuple, planned, rfl⟩
    rcases planned_delete planned with ⟨record, read⟩
    exact mem_planKeys reader (rowTuple_of_recordKey read).2 (List.mem_append_right _ planned)

include reader in
theorem Undoable.writePage {original : Rows} {run : JournaledRun}
    (undoable : Undoable spec.key original run images) {page : List Value}
    (condition : spec.markerInKey = true -> LastRowsDelete spec page) :
    exists grown, Undoable spec.key original (KeyedWrites.writePage spec run page) grown := by
  rcases undoable.toJournaled.foldl_journalKey reader (planKeys (planWrites page spec) spec.key) planKeys_textual with
    ⟨added, journaled, rows, listed, new⟩
  refine ⟨images ++ added, ⟨journaled.journal, journaled.textual⟩, ?_, ?_⟩
  · intro image member
    rcases List.mem_append.mp member with old | fresh
    · exact undoable.imaged image old
    · rcases new image fresh with ⟨absent, current⟩
      rw [current]
      by_contra different
      exact absent (undoable.changed image.1 different)
  · intro address different
    change applyToRows spec.key ((planKeys (planWrites page spec) spec.key).foldl journalKey run).rows
      (planWrites page spec) address ≠ original address at different
    rw [rows, applyToRows_eq] at different
    rcases writeAll_written_or run.rows _ address with ⟨write, member, same, -⟩ | ⟨-, held⟩
    · rw [← same]
      exact listed write.1 (touched_planKeys reader condition member)
    · rw [held] at different
      rw [List.map_append]
      exact List.mem_append_left _ (undoable.changed address different)

include reader in
theorem Undoable.writePages {original : Rows} {run : JournaledRun} (undoable : Undoable spec.key original run images)
    {pages : List (List Value)}
    (condition : forall page, page ∈ pages -> spec.markerInKey = true -> LastRowsDelete spec page) :
    exists grown, Undoable spec.key original (pages.foldl (KeyedWrites.writePage spec) run) grown := by
  induction pages generalizing run images with
  | nil => exact ⟨images, undoable⟩
  | cons page rest ih =>
      rcases undoable.writePage reader (condition page List.mem_cons_self) with ⟨more, afterPage⟩
      exact ih afterPage (fun other member => condition other (List.mem_cons_of_mem page member))

/-- Deleting the new keys and writing the images back gives the table before
the run. -/
theorem Undoable.restores {key : List String} {table : KeyedTable key} {run : JournaledRun}
    (undoable : Undoable key table.rows run images) :
    undo reader key run = .ok table.rows := by
  rw [undo_eq reader undoable.toJournaled]
  congr 1
  funext address
  apply writeAll_settled
  · intro write member same
    rcases List.mem_append.mp member with delete | restore
    · rcases List.mem_map.mp delete with ⟨image, listed, rfl⟩
      rcases List.mem_filter.mp listed with ⟨inside, isNone⟩
      rw [← same, ← undoable.imaged image inside, Option.isNone_iff_eq_none.mp isNone]
    · rcases List.mem_map.mp restore with ⟨row, listed, rfl⟩
      rcases List.mem_filterMap.mp listed with ⟨image, inside, isRow⟩
      have held : table.rows image.1 = some row := by rw [← undoable.imaged image inside, isRow]
      rcases Option.map_eq_some_iff.mp (table.keyed image.1 row held) with ⟨tuple, read, isAddress⟩
      change canonicalKey (rowTuple key row) = address at same
      rw [(rowTuple_of_recordKey read).1, isAddress] at same
      rw [← same, held]
  · by_cases different : run.rows address = table.rows address
    · exact Or.inr different
    · left
      rcases List.mem_map.mp (undoable.changed address different) with ⟨image, inside, same⟩
      unfold restoreWrites
      rw [List.map_append]
      cases before : image.2 with
      | none =>
          apply List.mem_append_left
          rw [List.map_map]
          refine List.mem_map.mpr ⟨image, List.mem_filter.mpr ⟨inside, ?_⟩, same⟩
          rw [before]
          rfl
      | some row =>
          apply List.mem_append_right
          have held : table.rows image.1 = some row := by rw [← undoable.imaged image inside, before]
          rcases Option.map_eq_some_iff.mp (table.keyed image.1 row held) with ⟨tuple, read, isAddress⟩
          unfold upsertWrites
          rw [List.map_map]
          refine List.mem_map.mpr ⟨row, List.mem_filterMap.mpr ⟨image, inside, before⟩, ?_⟩
          change canonicalKey (rowTuple key row) = address
          rw [(rowTuple_of_recordKey read).1, isAddress, same]

/-! ## Rows that have lost their key -/

/-- A row stripped of a marker that is a key column stands under a key with a
null. -/
theorem gapped_of_inside (inside : spec.markerInKey = true) (record : Value) :
    Gapped (canonicalKey (rowTuple spec.key (stripMarker record spec.deleteMarker))) := by
  cases shape : spec.deleteMarker with
  | none =>
      simp only [WriteSpec.markerInKey, shape, Bool.false_eq_true] at inside
  | some marker =>
      simp only [WriteSpec.markerInKey, shape, List.contains_eq_mem, decide_eq_true_eq] at inside
      have absent : (stripMarker record (some marker)).get marker.field = none := by
        cases record with
        | object entries => exact Value.lookup_removeKey_self entries marker.field
        | _ => rfl
      refine ⟨marker.field, ?_⟩
      unfold canonicalKey rowTuple
      rw [List.map_map]
      refine List.mem_map.mpr ⟨marker.field, inside, ?_⟩
      simp only [Function.comp_apply, absent]
      rfl

/-- Nothing takes a row away from under a key with a null. -/
theorem gapped_not_emptied {page : List Value} {address : KeyTuple} (gapped : Gapped address) :
    forall write, write ∈ upsertWrites spec.key (planWrites page spec).upserts ++
      (planWrites page spec).deletes.map (fun tuple => (canonicalKey tuple, none)) ->
      write.1 = address -> write.2 ≠ none := by
  intro write member same
  rcases List.mem_append.mp member with upsert | delete
  · rcases List.mem_map.mp upsert with ⟨row, -, rfl⟩
    exact Option.some_ne_none row
  · rcases List.mem_map.mp delete with ⟨tuple, planned, rfl⟩
    rcases planned_delete planned with ⟨record, read⟩
    rw [← same] at gapped
    exact absurd gapped (rowTuple_of_recordKey read).2.not_gapped

/-- A page puts a row under a key. -/
def Upserts (spec : WriteSpec) (page : List Value) (address : KeyTuple) : Prop :=
  address ∈ (upsertWrites spec.key (planWrites page spec).upserts).map Prod.fst

include reader in
theorem Journaled.writePage {run : JournaledRun}
    (journaled : Journaled spec.key run images) (page : List Value) {address : KeyTuple} (gapped : Gapped address) :
    exists grown, Journaled spec.key (KeyedWrites.writePage spec run page) grown ∧
      (run.rows address ≠ none ∨ Upserts spec page address ->
        (KeyedWrites.writePage spec run page).rows address ≠ none) := by
  rcases journaled.foldl_journalKey reader (planKeys (planWrites page spec) spec.key) planKeys_textual with
    ⟨added, more, rows, -, -⟩
  refine ⟨images ++ added, ⟨more.journal, more.textual⟩, ?_⟩
  intro filled
  change applyToRows spec.key ((planKeys (planWrites page spec) spec.key).foldl journalKey run).rows
    (planWrites page spec) address ≠ none
  rw [rows, applyToRows_eq]
  apply writeAll_filled (gapped_not_emptied gapped)
  rcases filled with already | written
  · exact Or.inr already
  · left
    rw [List.map_append]
    exact List.mem_append_left _ written

include reader in
theorem Journaled.writePages {run : JournaledRun}
    (journaled : Journaled spec.key run images) (pages : List (List Value)) {address : KeyTuple}
    (gapped : Gapped address) :
    exists grown, Journaled spec.key (pages.foldl (KeyedWrites.writePage spec) run) grown ∧
      ((run.rows address ≠ none ∨ exists page, page ∈ pages ∧ Upserts spec page address) ->
        (pages.foldl (KeyedWrites.writePage spec) run).rows address ≠ none) := by
  induction pages generalizing run images with
  | nil =>
      refine ⟨images, journaled, ?_⟩
      rintro (already | ⟨page, impossible, -⟩)
      · exact already
      · cases impossible
  | cons first rest ih =>
      rcases journaled.writePage reader first gapped with ⟨more, afterFirst, filledByFirst⟩
      rcases ih afterFirst with ⟨grown, afterAll, filled⟩
      refine ⟨grown, afterAll, ?_⟩
      rintro (already | ⟨page, member, upserts⟩)
      · exact filled (Or.inl (filledByFirst (Or.inl already)))
      · rcases List.mem_cons.mp member with rfl | later
        · exact filled (Or.inl (filledByFirst (Or.inr upserts)))
        · exact filled (Or.inr ⟨page, later, upserts⟩)

/-- An undo leaves a row under a key with a null where it is. -/
theorem Journaled.undo_filled {key : List String} {run : JournaledRun}
    (journaled : Journaled key run images) {address : KeyTuple} (gapped : Gapped address)
    (filled : run.rows address ≠ none) : writeAll run.rows (restoreWrites key images) address ≠ none := by
  apply writeAll_filled _ (Or.inr filled)
  intro write member same
  rcases List.mem_append.mp member with delete | restore
  · rcases List.mem_map.mp delete with ⟨image, listed, rfl⟩
    rw [← same] at gapped
    exact absurd gapped (journaled.textual image (List.mem_of_mem_filter listed)).not_gapped
  · rcases List.mem_map.mp restore with ⟨row, -, rfl⟩
    exact Option.some_ne_none row

theorem KeyedTable.gapped_free {key : List String} (table : KeyedTable key) {address : KeyTuple}
    (gapped : Gapped address) : table.rows address = none := by
  cases held : table.rows address with
  | none => rfl
  | some row =>
      rcases Option.map_eq_some_iff.mp (table.keyed address row held) with ⟨tuple, read, rfl⟩
      exact absurd gapped (rowTuple_of_recordKey read).2.not_gapped

theorem journaled_start (key : List String) (rows : Rows) : Journaled key ⟨rows, []⟩ [] := by
  refine ⟨rfl, ?_⟩
  intro image member
  cases member

/-- An undo gives the table before the run exactly when no page has planned an
upsert that lost a part of its key. -/
theorem undo_restores_iff (spec : WriteSpec) (table : KeyedTable spec.key) (pages : List (List Value)) :
    undo reader spec.key (writePages spec table.rows pages) = .ok table.rows <->
      (spec.markerInKey = true -> forall page, page ∈ pages -> LastRowsDelete spec page) := by
  constructor
  · intro restored inside page member earlier record later tuple split reading absent
    by_contra notDelete
    have planned := stripMarker_mem_upserts split reading absent notDelete
    have gapped := gapped_of_inside inside record
    have upserts : Upserts spec page (canonicalKey (rowTuple spec.key (stripMarker record spec.deleteMarker))) := by
      unfold Upserts upsertWrites
      rw [List.map_map]
      exact List.mem_map.mpr ⟨_, planned, rfl⟩
    rcases (journaled_start spec.key table.rows).writePages reader pages gapped with ⟨images, journaled, filled⟩
    have left := journaled.undo_filled gapped (filled (Or.inr ⟨page, member, upserts⟩))
    rw [writePages, undo_eq reader journaled] at restored
    injection restored with same
    rw [same] at left
    exact left (table.gapped_free gapped)
  · intro condition
    have start : Undoable spec.key table.rows ⟨table.rows, []⟩ [] := by
      refine ⟨journaled_start spec.key table.rows, ?_, ?_⟩
      · intro image member
        cases member
      · intro address different
        exact absurd rfl different
    have allowed : forall page, page ∈ pages -> spec.markerInKey = true -> LastRowsDelete spec page :=
      fun page member inside => condition inside page member
    rcases start.writePages reader allowed with ⟨images, undoable⟩
    exact undoable.restores reader

end Reader

/-- The reader of objects of strings. -/
def objectReader : JsonReader where
  fromStr text := match readObject text with
    | some value => .ok value
    | none => .error "expected value"
  debugText := Value.quote
  reads entries := by
    refine ⟨assignAll [] (stringEntries entries), ?_, ?_⟩
    · rw [readObject_text]
    · intro name
      rw [lookup_assignAll, List.lookup_nil, Option.or_none]

def noRows (key : List String) : KeyedTable key where
  rows _ := none
  keyed address row impossible := by cases impossible

/-- A row that lost the key column `op` to the marker stays in the table after
an undo. -/
theorem markedKeyPage_not_undone :
    markedKeySpec.validate = .ok () ∧
      undo objectReader markedKeySpec.key (writePages markedKeySpec (noRows markedKeySpec.key).rows [markedKeyPage]) ≠
        .ok (noRows markedKeySpec.key).rows := by
  refine ⟨rfl, ?_⟩
  intro restored
  have nothing : (writePages markedKeySpec (noRows markedKeySpec.key).rows [markedKeyPage]).journal = [] := by decide
  unfold undo at restored
  rw [nothing] at restored
  injection restored with same
  have place := congrFun same ⟨[("id", .string "1"), ("op", .null)]⟩
  exact absurd place (by decide)

end KeyedWrites
end FaucetStream
