import FaucetStream.Library.TableOps
import FaucetStream.OracleCdc.Savepoint

namespace FaucetStream
namespace OracleCdc

open Library

/-!
# The effect of folded updates

The events of a transaction are applied to a table in their order, and the redo
rows one by one in theirs.  An update that is folded takes effect where the
earlier change of its row stands, before the events behind it.  The table comes
out the same as long as none of these has the key of the row, neither as it is
nor as the update leaves it.
-/

/-! ## Rows and images -/

/-- The values of a row by column. -/
abbrev TableRow := String -> Option Resolved

def rowOf (image : Image) : TableRow := fun column => image.lookup column

/-- A row with the columns of an image replaced. -/
def overlayRow (row : TableRow) (image : Image) : TableRow := fun column => (image.lookup column).or (row column)

def rowKey (keys : List String) (row : TableRow) : List (Option Resolved) := keys.map row

def columns (image : Image) : List String := image.map Prod.fst

theorem lookup_overlay (base : Image) {set : Image} (distinct : (columns set).Nodup) (column : String) :
    (overlay base set).lookup column = (set.lookup column).or (base.lookup column) := by
  unfold overlay
  rw [lookup_assignAll, lastWrite_eq_lookup distinct]

theorem rowOf_overlay (base : Image) {set : Image} (distinct : (columns set).Nodup) :
    rowOf (overlay base set) = overlayRow (rowOf base) set := by
  funext column
  exact lookup_overlay base distinct column

/-- Two images one after the other are one image. -/
theorem overlayRow_overlay (row : TableRow) (base : Image) {set : Image} (distinct : (columns set).Nodup) :
    overlayRow row (overlay base set) = overlayRow (overlayRow row base) set := by
  funext column
  change ((overlay base set).lookup column).or (row column) = _
  rw [lookup_overlay base distinct, Option.or_assoc]
  rfl

theorem columns_overlay (base set : Image) {column : String} (named : column ∈ columns base) :
    column ∈ columns (overlay base set) := by
  have keys : forall pairs entries : Image, column ∈ entries.map Prod.fst ->
    column ∈ (assignAll entries pairs).map Prod.fst := by
    intro pairs
    induction pairs with
    | nil => exact fun entries member => member
    | cons pair pairs ih =>
        intro entries member
        apply ih
        rw [map_fst_assign]
        split
        · exact member
        · exact List.mem_append_left _ member
  exact keys set base named

theorem exists_rowOf {image : Image} {column : String} (named : column ∈ columns image) :
    exists value, rowOf image column = some value := by
  cases found : rowOf image column with
  | some value => exact ⟨value, rfl⟩
  | none =>
      rcases List.mem_map.mp named with ⟨cell, member, rfl⟩
      have absent := List.lookup_eq_none_iff.mp found cell member
      simp at absent

/-- The row has the values of the image. -/
def Extends (row : TableRow) (image : Image) : Prop :=
  forall column value, rowOf image column = some value -> row column = some value

theorem rowKey_eq_of_extends {keys : List String} {row : TableRow} {image : Image} (extended : Extends row image)
    (named : forall column, column ∈ keys -> column ∈ columns image) : rowKey keys (rowOf image) = rowKey keys row := by
  apply List.map_congr_left
  intro column member
  rcases exists_rowOf (named column member) with ⟨value, found⟩
  rw [found, extended column value found]

theorem rowKey_overlayRow {keys : List String} (row : TableRow) {image : Image}
    (named : forall column, column ∈ keys -> column ∈ columns image) :
    rowKey keys (overlayRow row image) = rowKey keys (rowOf image) := by
  apply List.map_congr_left
  intro column member
  rcases exists_rowOf (named column member) with ⟨value, found⟩
  change ((image.lookup column).or (row column)) = rowOf image column
  rw [show image.lookup column = some value from found, found]
  rfl

theorem rowKey_overlayRow_congr {keys : List String} {row other : TableRow} (same : rowKey keys row = rowKey keys other)
    (set : Image) : rowKey keys (overlayRow row set) = rowKey keys (overlayRow other set) := by
  apply List.map_congr_left
  intro column member
  have equal := List.map_inj_left.mp same column member
  unfold overlayRow
  rw [equal]

/-- Conditions that a row meets add nothing to what is set. -/
theorem overlayRow_of_extends {row : TableRow} {conditions set : Image} (met : Extends row conditions)
    (distinct : (columns set).Nodup) : overlayRow row (overlay conditions set) = overlayRow row set := by
  rw [overlayRow_overlay row conditions distinct]
  have same : overlayRow row conditions = row := by
    funext column
    change (rowOf conditions column).or (row column) = row column
    cases found : rowOf conditions column with
    | none => rfl
    | some value => exact (met column value found).symm
  rw [same]

/-! ## Events and redo rows -/

/-- A table whose rows are told apart by some of its columns. -/
structure KeyedTable where
  owner : String
  table : String
  keys : List String

/-- A redo row that is parsed. -/
structure Change where
  scn : Nat
  rowId : Option String
  dml : Dml

/-- An image that names every key column, and no column twice. -/
structure Identifies (keys : List String) (image : Image) : Prop where
  distinct : (columns image).Nodup
  named : forall column, column ∈ keys -> column ∈ columns image

/-- What an event does to a table with these key columns. -/
def Event.operation (keys : List String) (event : Event) : TableOp TableRow (List (Option Resolved)) :=
  match event.op, event.before, event.after with
  | .insert, _, some after => .add (rowKey keys (rowOf after)) (rowOf after)
  | .update, some before, some after =>
      .replace (rowKey keys (rowOf before)) (rowKey keys (rowOf after)) (fun row => overlayRow row after)
  | .delete, some before, _ => .remove (rowKey keys (rowOf before))
  | _, _, _ => .keep

section Table

variable (table : KeyedTable)

/-- What it does to this table. -/
def Event.effect (event : Event) : TableOp TableRow (List (Option Resolved)) :=
  if event.owner = table.owner ∧ event.table = table.table then event.operation table.keys else .keep

/-- The change is to the table. -/
def Change.Concerns (change : Change) : Prop := change.dml.owner = table.owner ∧ change.dml.table = table.table

/-- The key of the row a change is to. -/
def Change.present (change : Change) : List (Option Resolved) := rowKey table.keys (rowOf change.dml.conditions)

/-- The key an update leaves it with. -/
def Change.next (change : Change) : List (Option Resolved) :=
  rowKey table.keys (overlayRow (rowOf change.dml.conditions) change.dml.set)

/-- What a redo row does to the rows of the table.  Its conditions have the key,
so that they are met by one row at most; no two rows come to have the same key. -/
inductive Redo (stored : Set TableRow) (change : Change) : Set TableRow -> Prop where
  | insert (ofTable : change.Concerns table) (kind : change.dml.kind = .insert)
      (image : Identifies table.keys change.dml.set)
      (newKey : forall other, other ∈ stored -> rowKey table.keys other ≠ rowKey table.keys (rowOf change.dml.set)) :
      Redo stored change (insert (rowOf change.dml.set) stored)
  | update (row : TableRow) (ofTable : change.Concerns table) (kind : change.dml.kind = .update)
      (distinct : (columns change.dml.set).Nodup) (image : Identifies table.keys change.dml.conditions)
      (member : row ∈ stored) (met : Extends row change.dml.conditions)
      (newKey : forall other, other ∈ stored ->
        rowKey table.keys other = rowKey table.keys (overlayRow row change.dml.set) -> other = row) :
      Redo stored change (insert (overlayRow row change.dml.set) (stored \ {row}))
  | delete (row : TableRow) (ofTable : change.Concerns table) (kind : change.dml.kind = .delete)
      (image : Identifies table.keys change.dml.conditions) (member : row ∈ stored)
      (met : Extends row change.dml.conditions) : Redo stored change (stored \ {row})
  | elsewhere (ofOther : ¬change.Concerns table) : Redo stored change stored

/-- Redo rows one by one. -/
inductive RedoAll : Set TableRow -> List Change -> Set TableRow -> Prop where
  | done (stored : Set TableRow) : RedoAll stored [] stored
  | step {stored next final : Set TableRow} {change : Change} {changes : List Change}
      (one : Redo table stored change next) (rest : RedoAll next changes final) :
      RedoAll stored (change :: changes) final

/-- The events after one more change, ids apart. -/
def eventsAfter (events : List Event) (change : Change) : List Event :=
  ((⟨events, [], []⟩ : Staged).record 0 change.scn change.rowId change.dml).events

/-- The change is folded into an event, which is the last it can belong to. -/
structure Change.FoldsInto (change : Change) (prev : Event) (back : List Event) : Prop where
  kind : change.dml.kind = .update
  takes : prev.takes change.rowId change.dml = true
  last : forall event, event ∈ back -> event.takes change.rowId change.dml = false

/-- An update that is folded goes into the latest event that has the key of its
row in an image, and no event behind it has the key that the update leaves the
row with. -/
def Clear (events : List Event) (change : Change) : Prop :=
  change.Concerns table -> forall front prev back, events = front ++ prev :: back -> change.FoldsInto prev back ->
    (prev.effect table).made = some (change.present table) ∧
      forall event, event ∈ back ->
        (event.effect table).Avoids (change.present table) ∧ (event.effect table).Avoids (change.next table)

/-- The same along all changes. -/
def ClearAll : List Event -> List Change -> Prop
  | _, [] => True
  | events, change :: changes => Clear table events change ∧ ClearAll (eventsAfter events change) changes

/-- The events so far and the table they lead to. -/
structure Tracks (origin : Set TableRow) (events : List Event) (stored : Set TableRow) : Prop where
  effect : TableOp.applyAll (rowKey table.keys) origin (events.map (Event.effect table)) = stored
  fresh : TableOp.FreshAll (rowKey table.keys) origin (events.map (Event.effect table))
  lawful : forall event, event ∈ events -> (event.effect table).Lawful (rowKey table.keys)
  unique : Set.InjOn (rowKey table.keys) stored

end Table

/-! ## One change -/

/-- The two ways a change is recorded. -/
theorem eventsAfter_cases (events : List Event) (change : Change) :
    (exists front prev back, events = front ++ prev :: back ∧ change.FoldsInto prev back ∧
      eventsAfter events change = front ++ prev.fold change.rowId change.dml :: back) ∨
      eventsAfter events change = events ++ [newEvent 0 change.scn change.rowId change.dml] := by
  unfold eventsAfter Staged.record
  cases folds : (⟨events, [], []⟩ : Staged).folded change.rowId change.dml with
  | none => exact Or.inr rfl
  | some found =>
      rcases found with ⟨prev, changed⟩
      unfold Staged.folded at folds
      split at folds
      · next update =>
          rcases modifyLast_eq_some folds with ⟨front, back, split, rfl, passes, last⟩
          exact Or.inl ⟨front, prev, back, split, ⟨update, passes, last⟩, rfl⟩
      · cases folds

theorem length_eventsAfter (events : List Event) (change : Change) :
    events.length ≤ (eventsAfter events change).length := by
  rcases eventsAfter_cases events change with ⟨front, prev, back, rfl, _, folds⟩ | appends
  · rw [folds, List.length_append, List.length_append]
    rfl
  · rw [appends, List.length_append]
    exact Nat.le_add_right _ _

variable {table : KeyedTable}

theorem newEvent_owner (id scn : Nat) (rowId : Option String) (dml : Dml) :
    (newEvent id scn rowId dml).owner = dml.owner ∧ (newEvent id scn rowId dml).table = dml.table := by
  unfold newEvent
  split <;> exact ⟨rfl, rfl⟩

theorem effect_newEvent {change : Change} (ofTable : change.Concerns table) (id scn : Nat) :
    (newEvent id scn change.rowId change.dml).effect table =
      (newEvent id scn change.rowId change.dml).operation table.keys := by
  have owned := newEvent_owner id scn change.rowId change.dml
  unfold Event.effect
  rw [owned.1, owned.2]
  exact if_pos ofTable

theorem effect_newEvent_elsewhere {change : Change} (ofOther : ¬change.Concerns table) (id scn : Nat) :
    (newEvent id scn change.rowId change.dml).effect table = .keep := by
  have owned := newEvent_owner id scn change.rowId change.dml
  unfold Event.effect
  rw [owned.1, owned.2]
  exact if_neg ofOther

theorem operation_newEvent_insert {dml : Dml} (kind : dml.kind = .insert) (keys : List String) (id scn : Nat)
    (rowId : Option String) :
    (newEvent id scn rowId dml).operation keys = .add (rowKey keys (rowOf dml.set)) (rowOf dml.set) := by
  unfold newEvent
  rw [kind]
  rfl

theorem operation_newEvent_update {dml : Dml} (kind : dml.kind = .update) (keys : List String) (id scn : Nat)
    (rowId : Option String) :
    (newEvent id scn rowId dml).operation keys =
      .replace (rowKey keys (rowOf dml.conditions)) (rowKey keys (rowOf (overlay dml.conditions dml.set)))
        (fun row => overlayRow row (overlay dml.conditions dml.set)) := by
  unfold newEvent
  rw [kind]
  rfl

theorem operation_newEvent_delete {dml : Dml} (kind : dml.kind = .delete) (keys : List String) (id scn : Nat)
    (rowId : Option String) :
    (newEvent id scn rowId dml).operation keys = .remove (rowKey keys (rowOf dml.conditions)) := by
  unfold newEvent
  rw [kind]
  rfl

/-- To fold an update is to make it part of the operation. -/
theorem operation_fold {keys : List String} {event : Event} {dml : Dml} (distinct : (columns dml.set).Nodup)
    {present : List (Option Resolved)} (made : (event.operation keys).made = some present) (rowId : Option String) :
    exists after, rowKey keys (rowOf after) = present ∧
      (event.fold rowId dml).operation keys =
        (event.operation keys).fused (fun row => overlayRow row dml.set)
          (rowKey keys (overlayRow (rowOf after) dml.set)) := by
  unfold Event.operation at made ⊢
  unfold Event.fold
  split at made
  · next after op filled =>
      refine ⟨after, Option.some.inj made, ?_⟩
      dsimp only
      rw [op, filled]
      change TableOp.add _ _ = TableOp.add _ _
      rw [Option.getD_some, rowOf_overlay after distinct]
  · next before after op earlier filled =>
      refine ⟨after, Option.some.inj made, ?_⟩
      dsimp only
      rw [op, earlier, filled]
      change TableOp.replace _ _ _ = TableOp.replace _ _ _
      rw [Option.getD_some, rowOf_overlay after distinct]
      congr 1
      funext row
      exact overlayRow_overlay row after distinct
  · cases made
  · cases made

theorem effect_fold {event : Event} {change : Change} (distinct : (columns change.dml.set).Nodup)
    (made : (event.effect table).made = some (change.present table)) :
    (event.fold change.rowId change.dml).effect table =
      (event.effect table).fused (fun row => overlayRow row change.dml.set) (change.next table) := by
  unfold Event.effect at made ⊢
  change (if event.owner = table.owner ∧ event.table = table.table then _ else _) = _
  split at made
  · next here =>
      rw [if_pos here, if_pos here]
      rcases operation_fold distinct made change.rowId with ⟨after, same, folded⟩
      rw [folded, rowKey_overlayRow_congr same]
      rfl
  · cases made

/-! ## The table along the changes -/

section Steps

variable {origin stored : Set TableRow} {events : List Event} {change : Change}

theorem Tracks.concat (tracks : Tracks table origin events stored) {event : Event}
    (lawful : (event.effect table).Lawful (rowKey table.keys))
    (fresh : (event.effect table).Fresh (rowKey table.keys) stored) {next : Set TableRow}
    (applied : TableOp.apply (rowKey table.keys) stored (event.effect table) = next)
    (unique : Set.InjOn (rowKey table.keys) next) : Tracks table origin (events ++ [event]) next := by
  constructor
  · rw [List.map_append, List.map_singleton, TableOp.applyAll_append, tracks.effect]
    exact applied
  · rw [List.map_append, List.map_singleton]
    apply tracks.fresh.concat
    rw [tracks.effect]
    exact fresh
  · intro other member
    rcases List.mem_append.mp member with earlier | last
    · exact tracks.lawful other earlier
    · rw [List.mem_singleton.mp last]
      exact lawful
  · exact unique

theorem Tracks.inserted (tracks : Tracks table origin events stored) (ofTable : change.Concerns table)
    (kind : change.dml.kind = .insert)
    (newKey : forall other, other ∈ stored -> rowKey table.keys other ≠ rowKey table.keys (rowOf change.dml.set)) :
    Tracks table origin (events ++ [newEvent 0 change.scn change.rowId change.dml])
      (insert (rowOf change.dml.set) stored) := by
  have effect : (newEvent 0 change.scn change.rowId change.dml).effect table =
      .add (rowKey table.keys (rowOf change.dml.set)) (rowOf change.dml.set) := by
    rw [effect_newEvent ofTable, operation_newEvent_insert kind]
  apply tracks.concat
  · rw [effect]
    rfl
  · rw [effect]
    intro made named row member same
    cases named
    exact absurd same (newKey row member)
  · rw [effect]
    rfl
  · exact TableOp.injOn_insert_of_unused tracks.unique newKey

theorem Tracks.deleted (tracks : Tracks table origin events stored) (ofTable : change.Concerns table)
    (kind : change.dml.kind = .delete) (image : Identifies table.keys change.dml.conditions) {row : TableRow}
    (member : row ∈ stored) (met : Extends row change.dml.conditions) :
    Tracks table origin (events ++ [newEvent 0 change.scn change.rowId change.dml]) (stored \ {row}) := by
  have effect : (newEvent 0 change.scn change.rowId change.dml).effect table =
      .remove (rowKey table.keys row) := by
    rw [effect_newEvent ofTable, operation_newEvent_delete kind, rowKey_eq_of_extends met image.named]
  apply tracks.concat
  · rw [effect]
    exact trivial
  · rw [effect]
    intro made named
    cases named
  · rw [effect]
    exact TableOp.removed_eq tracks.unique member
  · exact tracks.unique.mono Set.sdiff_subset

/-- The key of a row that an update leaves. -/
theorem Change.next_eq (image : Identifies table.keys change.dml.conditions) {row : TableRow}
    (met : Extends row change.dml.conditions) :
    change.next table = rowKey table.keys (overlayRow row change.dml.set) :=
  rowKey_overlayRow_congr (rowKey_eq_of_extends met image.named) change.dml.set

/-- No two rows have the same key after an update to a key that is free. -/
theorem injOn_updated (unique : Set.InjOn (rowKey table.keys) stored) {row : TableRow} {set : Image}
    (newKey : forall other, other ∈ stored ->
      rowKey table.keys other = rowKey table.keys (overlayRow row set) -> other = row) :
    Set.InjOn (rowKey table.keys) (insert (overlayRow row set) (stored \ {row})) := by
  apply TableOp.injOn_insert_of_unused (unique.mono Set.sdiff_subset)
  rintro other ⟨member, another⟩ same
  exact another (newKey other member same)

/-- An update that is not folded. -/
theorem Tracks.updated (tracks : Tracks table origin events stored) (ofTable : change.Concerns table)
    (kind : change.dml.kind = .update) (distinct : (columns change.dml.set).Nodup)
    (image : Identifies table.keys change.dml.conditions) {row : TableRow} (member : row ∈ stored)
    (met : Extends row change.dml.conditions)
    (newKey : forall other, other ∈ stored ->
      rowKey table.keys other = rowKey table.keys (overlayRow row change.dml.set) -> other = row) :
    Tracks table origin (events ++ [newEvent 0 change.scn change.rowId change.dml])
      (insert (overlayRow row change.dml.set) (stored \ {row})) := by
  have present := rowKey_eq_of_extends met image.named
  have named : forall column, column ∈ table.keys -> column ∈ columns (overlay change.dml.conditions change.dml.set) :=
    fun column inside => columns_overlay _ _ (image.named column inside)
  have next : rowKey table.keys (rowOf (overlay change.dml.conditions change.dml.set)) =
      rowKey table.keys (overlayRow row change.dml.set) := by
    rw [rowOf_overlay _ distinct]
    exact Change.next_eq image met
  have effect : (newEvent 0 change.scn change.rowId change.dml).effect table =
      .replace (rowKey table.keys row) (rowKey table.keys (rowOf (overlay change.dml.conditions change.dml.set)))
        (fun other => overlayRow other (overlay change.dml.conditions change.dml.set)) := by
    rw [effect_newEvent ofTable, operation_newEvent_update kind, present]
  apply tracks.concat
  · rw [effect]
    exact fun other _ => rowKey_overlayRow other named
  · rw [effect]
    intro made made_eq other inside same
    cases made_eq
    rw [newKey other inside (same.trans next)] at same
    exact congrArg some same
  · rw [effect]
    change Set.image _ stored = _
    rw [TableOp.image_replaced tracks.unique member, overlayRow_of_extends met distinct]
  · exact injOn_updated tracks.unique newKey

/-- An update that is folded. -/
theorem Tracks.folded {front back : List Event} {prev : Event}
    (tracks : Tracks table origin (front ++ prev :: back) stored) (distinct : (columns change.dml.set).Nodup)
    (image : Identifies table.keys change.dml.conditions) {row : TableRow} (member : row ∈ stored)
    (met : Extends row change.dml.conditions)
    (newKey : forall other, other ∈ stored ->
      rowKey table.keys other = rowKey table.keys (overlayRow row change.dml.set) -> other = row)
    (made : (prev.effect table).made = some (change.present table))
    (clear : forall event, event ∈ back ->
      (event.effect table).Avoids (change.present table) ∧ (event.effect table).Avoids (change.next table)) :
    Tracks table origin (front ++ prev.fold change.rowId change.dml :: back)
      (insert (overlayRow row change.dml.set) (stored \ {row})) := by
  have present : change.present table = rowKey table.keys row := rowKey_eq_of_extends met image.named
  have next := Change.next_eq image met
  have changes : forall other, rowKey table.keys other = change.present table ->
      rowKey table.keys (overlayRow other change.dml.set) = change.next table :=
    fun other same => rowKey_overlayRow_congr same change.dml.set
  have effects : (front ++ prev.fold change.rowId change.dml :: back).map (Event.effect table) =
      front.map (Event.effect table) ++
        (prev.effect table).fused (fun other => overlayRow other change.dml.set) (change.next table) ::
          back.map (Event.effect table) := by
    rw [List.map_append, List.map_cons, effect_fold distinct made]
  have split : (front ++ prev :: back).map (Event.effect table) =
      front.map (Event.effect table) ++ prev.effect table :: back.map (Event.effect table) := by
    rw [List.map_append, List.map_cons]
  have lawful : forall op, op ∈ front.map (Event.effect table) ++ prev.effect table :: back.map (Event.effect table) ->
      op.Lawful (rowKey table.keys) := by
    rw [← split]
    intro op inside
    rcases List.mem_map.mp inside with ⟨event, listed, rfl⟩
    exact tracks.lawful event listed
  have passes : forall op, op ∈ back.map (Event.effect table) ->
      op.Avoids (change.present table) ∧ op.Avoids (change.next table) := by
    intro op inside
    rcases List.mem_map.mp inside with ⟨event, listed, rfl⟩
    exact clear event listed
  have fresh := tracks.fresh
  have reached := tracks.effect
  rw [split] at fresh reached
  constructor
  · rw [effects, TableOp.applyAll_fused lawful made changes passes (fresh _ _ _ rfl), reached, present]
    exact TableOp.image_replaced tracks.unique member _
  · rw [effects]
    apply fresh.fused lawful made changes passes
    rw [reached]
    intro other inside same
    rw [← same, newKey other inside (same.trans next), present]
  · intro event inside
    rcases List.mem_append.mp inside with before | rest
    · exact tracks.lawful event (List.mem_append_left _ before)
    · rcases List.mem_cons.mp rest with rfl | behind
      · rw [effect_fold distinct made]
        exact (tracks.lawful prev (List.mem_append_right _ List.mem_cons_self)).fused made changes
      · exact tracks.lawful event (List.mem_append_right _ (List.mem_cons_of_mem _ behind))
  · exact injOn_updated tracks.unique newKey

theorem Event.owned_of_takes {event : Event} (takes : event.takes change.rowId change.dml = true) :
    event.owner = change.dml.owner ∧ event.table = change.dml.table := by
  unfold Event.takes at takes
  rw [Bool.and_eq_true, Bool.and_eq_true, Bool.and_eq_true, beq_iff_eq, beq_iff_eq] at takes
  exact ⟨takes.1.1.2, takes.1.2⟩

/-- A change of another table. -/
theorem Tracks.elsewhere (tracks : Tracks table origin events stored) (ofOther : ¬change.Concerns table) :
    Tracks table origin (eventsAfter events change) stored := by
  rcases eventsAfter_cases events change with ⟨front, prev, back, rfl, folds, changed⟩ | appended
  · have owned := Event.owned_of_takes folds.takes
    have outside : ¬(prev.owner = table.owner ∧ prev.table = table.table) := by
      rw [owned.1, owned.2]
      exact ofOther
    have kept : (prev.fold change.rowId change.dml).effect table = .keep := if_neg outside
    have effects : (front ++ prev.fold change.rowId change.dml :: back).map (Event.effect table) =
        (front ++ prev :: back).map (Event.effect table) := by
      have before : prev.effect table = .keep := if_neg outside
      rw [List.map_append, List.map_append, List.map_cons, List.map_cons, kept, before]
    rw [changed]
    constructor
    · rw [effects]
      exact tracks.effect
    · rw [effects]
      exact tracks.fresh
    · intro event inside
      rcases List.mem_append.mp inside with earlier | rest
      · exact tracks.lawful event (List.mem_append_left _ earlier)
      · rcases List.mem_cons.mp rest with rfl | behind
        · rw [kept]
          exact trivial
        · exact tracks.lawful event (List.mem_append_right _ (List.mem_cons_of_mem _ behind))
    · exact tracks.unique
  · rw [appended]
    have kept := effect_newEvent_elsewhere ofOther 0 change.scn
    apply tracks.concat
    · rw [kept]
      exact trivial
    · rw [kept]
      intro made impossible
      cases impossible
    · rw [kept]
      rfl
    · exact tracks.unique

/-- One redo row. -/
theorem Tracks.step (tracks : Tracks table origin events stored) {next : Set TableRow}
    (redo : Redo table stored change next) (clear : Clear table events change) :
    Tracks table origin (eventsAfter events change) next := by
  cases redo with
  | insert ofTable kind image newKey =>
      rcases eventsAfter_cases events change with ⟨_, _, _, _, folds, _⟩ | appended
      · cases kind.symm.trans folds.kind
      · rw [appended]
        exact tracks.inserted ofTable kind newKey
  | update row ofTable kind distinct image member met newKey =>
      rcases eventsAfter_cases events change with ⟨front, prev, back, rfl, folds, changed⟩ | appended
      · rw [changed]
        rcases clear ofTable front prev back rfl folds with ⟨made, avoided⟩
        exact tracks.folded distinct image member met newKey made avoided
      · rw [appended]
        exact tracks.updated ofTable kind distinct image member met newKey
  | delete row ofTable kind image member met =>
      rcases eventsAfter_cases events change with ⟨_, _, _, _, folds, _⟩ | appended
      · cases kind.symm.trans folds.kind
      · rw [appended]
        exact tracks.deleted ofTable kind image member met
  | elsewhere ofOther => exact tracks.elsewhere ofOther

/-- All redo rows. -/
theorem Tracks.steps (tracks : Tracks table origin events stored) {changes : List Change} {final : Set TableRow}
    (redo : RedoAll table stored changes final) (clear : ClearAll table events changes) :
    Tracks table origin (changes.foldl eventsAfter events) final := by
  induction redo generalizing events with
  | done stored => exact tracks
  | step one rest ih => exact ih (tracks.step one clear.1) clear.2

theorem Tracks.start (unique : Set.InjOn (rowKey table.keys) stored) : Tracks table stored [] stored where
  effect := rfl
  fresh := by
    intro front op back split
    cases front <;> cases split
  lawful := nofun
  unique := unique

end Steps

/-! ## Where the condition holds -/

/-- Nothing is folded. -/
theorem Clear.of_untaken {events : List Event} {change : Change}
    (untaken : forall event, event ∈ events -> event.takes change.rowId change.dml = false) :
    Clear table events change := by
  rintro _ front prev back rfl folds
  have impossible := folds.takes
  rw [untaken prev (List.mem_append_right _ List.mem_cons_self)] at impossible
  cases impossible

/-- There is one event that a change can be folded into. -/
theorem Clear.of_folds {front back : List Event} {prev : Event} {change : Change} (folds : change.FoldsInto prev back)
    (made : (prev.effect table).made = some (change.present table))
    (avoided : forall event, event ∈ back ->
      (event.effect table).Avoids (change.present table) ∧ (event.effect table).Avoids (change.next table)) :
    Clear table (front ++ prev :: back) change := by
  intro _ earlier other later split otherFolds
  rcases last_unique split folds.takes folds.last otherFolds.takes otherFolds.last with ⟨_, rfl, rfl⟩
  exact ⟨made, avoided⟩

/-! ## What the miner releases -/

/-- A row of the log with the change it holds. -/
structure Carries (alphanumeric : Alphanumeric) (xid : String) (row : LogRow) (change : Change) : Prop where
  ofXid : row.xid = xid
  forward : row.rollback = false
  ofKind : row.op = kindOp change.dml.kind
  decoded : decodeDml alphanumeric row = .ok change.dml
  scn : row.scn = change.scn
  rowId : validRowId row.rowId = change.rowId

variable {alphanumeric : Alphanumeric} {xid : String}

theorem length_foldl_eventsAfter (events : List Event) (changes : List Change) :
    events.length ≤ (changes.foldl eventsAfter events).length := by
  induction changes generalizing events with
  | nil => exact le_refl _
  | cons change changes ih =>
      exact le_trans (length_eventsAfter events change) (ih (eventsAfter events change))

/-- The miner has buffered some events, ids apart, and nothing else. -/
structure RedoMiner.Buffers (miner : RedoMiner) (xid : String) (events : List Event) : Prop where
  events : (miner.staged xid).events.map Event.erased = events
  settled : (miner.staged xid).lobs = []

theorem Staged.lobs_record (staged : Staged) (id scn : Nat) (rowId : Option String) (dml : Dml) :
    (staged.record id scn rowId dml).lobs = staged.lobs := by
  unfold Staged.record
  split <;> rfl

/-- One row of the log. -/
theorem RedoMiner.Buffers.dml {miner : RedoMiner} {events : List Event} (buffers : miner.Buffers xid events)
    {row : LogRow} {change : Change} (carries : Carries alphanumeric xid row change)
    (within : forall bound, miner.maxStaged = some bound -> (eventsAfter events change).length ≤ bound) :
    exists next, miner.dml alphanumeric row = .ok next ∧ next.Buffers xid (eventsAfter events change) ∧
      next.maxStaged = miner.maxStaged := by
  rcases carries.ofXid with rfl
  rcases RedoMiner.settleLobs_of_nil buffers.settled with ⟨settled, settles, same, _, sameLimit, _⟩
  have staged := RedoMiner.staged_recorded settled row change.dml
  rw [same, carries.scn, carries.rowId] at staged
  have erased : ((settled.recorded row change.dml).staged row.xid).events.map Event.erased =
    eventsAfter events change := by
    rw [staged, record_erased, buffers.events]
    rfl
  refine ⟨settled.recorded row change.dml, ?_, ⟨erased, ?_⟩, sameLimit⟩
  · apply RedoMiner.dml_recorded settles carries.forward carries.decoded
    intro bound limited
    rw [← List.length_map Event.erased, erased]
    exact within bound (sameLimit.symm.trans limited)
  · rw [staged, Staged.lobs_record]
    exact buffers.settled


theorem RedoMiner.Buffers.feed {miner : RedoMiner} {events : List Event} (buffers : miner.Buffers xid events)
    {rows : List LogRow} {changes : List Change} (carried : List.Forall₂ (Carries alphanumeric xid) rows changes)
    (within : forall bound, miner.maxStaged = some bound -> (changes.foldl eventsAfter events).length ≤ bound) :
    exists next, miner.feed alphanumeric rows = .ok next ∧ next.Buffers xid (changes.foldl eventsAfter events) := by
  induction carried generalizing miner events with
  | nil => exact ⟨miner, rfl, buffers⟩
  | @cons row change rows changes carries _ ih =>
      have bounded : forall bound, miner.maxStaged = some bound -> (eventsAfter events change).length ≤ bound :=
        fun bound limited => le_trans (length_foldl_eventsAfter _ changes) (within bound limited)
      rcases buffers.dml carries bounded with ⟨middle, stepped, middleBuffers, sameLimit⟩
      rw [← sameLimit] at within
      rcases ih middleBuffers within with ⟨next, fed, nextBuffers⟩
      refine ⟨next, ?_, nextBuffers⟩
      unfold RedoMiner.feed at fed ⊢
      rw [List.foldlM_cons, RedoMiner.apply_of_kind carries.ofKind, stepped]
      exact fed

/-- The events of a transaction are released. -/
theorem RedoMiner.released_buffered {miner : RedoMiner} (fresh : miner.staged xid = Staged.empty) {rows : List LogRow}
    {changes : List Change} (carried : List.Forall₂ (Carries alphanumeric xid) rows changes)
    (within : forall bound, miner.maxStaged = some bound -> (changes.foldl eventsAfter []).length ≤ bound)
    {commit : LogRow} (commits : commit.op = Op.COMMIT) (ofXid : commit.xid = xid) :
    exists events, miner.released alphanumeric rows commit = .ok events ∧
      events.map Event.erased = changes.foldl eventsAfter [] := by
  have starts : miner.Buffers xid [] := by
    constructor <;> rw [fresh] <;> rfl
  rcases starts.feed carried within with ⟨next, fed, buffers⟩
  rcases RedoMiner.apply_commit buffers.settled commits ofXid with ⟨final, committed, applied, released⟩
  refine ⟨(next.staged xid).events, ?_, buffers.events⟩
  unfold RedoMiner.released
  rw [fed]
  change (next.apply alphanumeric commit >>= _) = _
  rw [applied, ← released]
  rfl

theorem map_effect_erased (table : KeyedTable) (events : List Event) :
    (events.map Event.erased).map (Event.effect table) = events.map (Event.effect table) := by
  rw [List.map_map]
  rfl

/-- The events of a transaction, applied to a table in their order, leave it as
the redo rows do one by one, as long as no update is folded over an event that
has a key of its row. -/
theorem RedoMiner.released_effect {miner : RedoMiner} (fresh : miner.staged xid = Staged.empty) {rows : List LogRow}
    {changes : List Change} (carried : List.Forall₂ (Carries alphanumeric xid) rows changes)
    (within : forall bound, miner.maxStaged = some bound -> (changes.foldl eventsAfter []).length ≤ bound)
    {commit : LogRow} (commits : commit.op = Op.COMMIT) (ofXid : commit.xid = xid) {stored final : Set TableRow}
    (unique : Set.InjOn (rowKey table.keys) stored) (redo : RedoAll table stored changes final)
    (clear : ClearAll table [] changes) :
    exists events, miner.released alphanumeric rows commit = .ok events ∧
      TableOp.applyAll (rowKey table.keys) stored (events.map (Event.effect table)) = final := by
  rcases RedoMiner.released_buffered fresh carried within commits ofXid with ⟨events, released, erased⟩
  refine ⟨events, released, ?_⟩
  rw [← map_effect_erased, erased]
  exact ((Tracks.start unique).steps redo clear).effect

/-! ## Two rows -/

def pairTable : KeyedTable := ⟨"APP", "T", ["ID"]⟩

def pairImage (id value : String) : Image := [("ID", .text id), ("V", .text value)]

/-- An update of one column of the row with these values. -/
def pairUpdate (column new id value : String) : Statement :=
  .update "APP".toList "T".toList (column.toList, .quoted new.toList) []
    [("ID".toList, .quoted id.toList), ("V".toList, .quoted value.toList)]

def pairRow (rid column new id value : String) : LogRow :=
  { scn := 1, op := Op.UPDATE, xid := "X", redo := String.ofList (pairUpdate column new id value).text,
    rowId := some rid }

def pairChange (rid column new id value : String) : Change :=
  ⟨1, some rid, ⟨.update, "APP", "T", [(column, .text new)], pairImage id value⟩⟩

theorem dml_pairUpdate (column new id value : String) :
    (pairUpdate column new id value).dml = ⟨.update, "APP", "T", [(column, .text new)], pairImage id value⟩ := by
  simp [pairUpdate, Statement.dml, cellResolved, Literal.resolved, pairImage]

theorem carries_pairRow {rid column : String} (clean : '"' ∉ column.toList) (valid : validRowId (some rid) = some rid)
    (new id value : String) :
    Carries alphanumeric "X" (pairRow rid column new id value) (pairChange rid column new id value) := by
  have names : forall name, name ∈ (pairUpdate column new id value).names -> '"' ∉ name := by
    change forall name, name ∈ ["APP".toList, "T".toList, column.toList, "ID".toList, "V".toList] -> '"' ∉ name
    simp only [List.forall_mem_cons]
    exact ⟨by decide, by decide, clean, by decide, by decide, nofun⟩
  have parsed : parseDml alphanumeric (pairRow rid column new id value).redo.toList =
      .ok (pairChange rid column new id value).dml := by
    change parseDml alphanumeric (String.ofList (pairUpdate column new id value).text).toList = _
    rw [String.toList_ofList, Statement.parseDml_text names, dml_pairUpdate]
    rfl
  refine ⟨rfl, rfl, rfl, ?_, rfl, valid⟩
  exact decodeDml_of_parsed rfl parsed (fun keyless => List.cons_ne_nil _ _ keyless.2)

theorem extends_rowOf (image : Image) : Extends (rowOf image) image := fun _ _ found => found

theorem identifies_pairImage (id value : String) : Identifies pairTable.keys (pairImage id value) := by
  constructor
  · change ["ID", "V"].Nodup
    decide
  · change forall column, column ∈ ["ID"] -> column ∈ ["ID", "V"]
    decide

theorem rowKey_pairImage (id value : String) :
    rowKey pairTable.keys (rowOf (pairImage id value)) = [some (.text id)] := rfl

theorem rowKey_pairImage_ne {id other : String} (different : id ≠ other) (value otherValue : String) :
    rowKey pairTable.keys (rowOf (pairImage id value)) ≠ rowKey pairTable.keys
      (rowOf (pairImage other otherValue)) := by
  rw [rowKey_pairImage, rowKey_pairImage]
  intro same
  exact different (Resolved.text.inj (Option.some.inj (List.cons.inj same).1))

theorem injOn_pair {id other : String} (different : id ≠ other) (value otherValue : String) :
    Set.InjOn (rowKey pairTable.keys) {rowOf (pairImage id value), rowOf (pairImage other otherValue)} := by
  rw [Set.injOn_pair]
  exact fun same => absurd same (rowKey_pairImage_ne different value otherValue)

/-- An update of one of two rows. -/
theorem redo_pair {id other column new value otherValue newId newValue : String} (different : id ≠ other)
    (newDifferent : newId ≠ other)
    (overlaid : overlay (pairImage id value) [(column, .text new)] = pairImage newId newValue) (rid : String) :
    Redo pairTable {rowOf (pairImage id value), rowOf (pairImage other otherValue)}
      (pairChange rid column new id value)
      {rowOf (pairImage newId newValue), rowOf (pairImage other otherValue)} := by
  have distinct : (columns [(column, Resolved.text new)]).Nodup := List.nodup_singleton column
  have moved : overlayRow (rowOf (pairImage id value)) [(column, .text new)] = rowOf (pairImage newId newValue) := by
    rw [← rowOf_overlay _ distinct, overlaid]
  have apart : rowOf (pairImage id value) ∉ ({rowOf (pairImage other otherValue)} : Set TableRow) := by
    intro same
    exact rowKey_pairImage_ne different value otherValue (congrArg (rowKey pairTable.keys) same)
  have updated := @Redo.update pairTable _ (pairChange rid column new id value) (rowOf (pairImage id value))
    ⟨rfl, rfl⟩ rfl distinct (identifies_pairImage id value) (Set.mem_insert _ {rowOf (pairImage other otherValue)})
    (extends_rowOf _) ?_
  · rw [Set.insert_sdiff_self_of_notMem apart] at updated
    change Redo pairTable _ _ (insert (overlayRow (rowOf (pairImage id value)) [(column, .text new)]) _) at updated
    rw [moved] at updated
    exact updated
  · intro row member same
    rcases member with rfl | another
    · rfl
    · change _ = rowKey pairTable.keys (overlayRow (rowOf (pairImage id value)) [(column, .text new)]) at same
      rw [moved, Set.mem_singleton_iff.mp another] at same
      exact absurd same.symm (rowKey_pairImage_ne newDifferent newValue otherValue)

theorem within_of_unlimited (policy : OnUnsupported) (count : Nat) :
    forall bound, (RedoMiner.new policy none).maxStaged = some bound -> count ≤ bound := by
  intro bound limited
  cases limited

/-- One row moves away from its key, and another takes it. -/
theorem redoAll_moves {change : Change} {final : Set TableRow}
    (last : Redo pairTable {rowOf (pairImage "3" "a"), rowOf (pairImage "1" "b")} change final) :
    RedoAll pairTable {rowOf (pairImage "1" "a"), rowOf (pairImage "2" "b")}
      [pairChange "R1" "ID" "3" "1" "a", pairChange "R2" "ID" "1" "2" "b", change] final := by
  have first : Redo pairTable {rowOf (pairImage "1" "a"), rowOf (pairImage "2" "b")}
      (pairChange "R1" "ID" "3" "1" "a") {rowOf (pairImage "3" "a"), rowOf (pairImage "2" "b")} :=
    redo_pair (by decide) (by decide) rfl "R1"
  have second : Redo pairTable {rowOf (pairImage "3" "a"), rowOf (pairImage "2" "b")}
      (pairChange "R2" "ID" "1" "2" "b") {rowOf (pairImage "3" "a"), rowOf (pairImage "1" "b")} := by
    rw [Set.pair_comm, Set.pair_comm (rowOf (pairImage "3" "a"))]
    exact redo_pair (by decide) (by decide) rfl "R2"
  exact .step first (.step second (.step last (.done _)))

theorem carried_moves {column : String} (clean : '"' ∉ column.toList) (new : String) :
    List.Forall₂ (Carries alphanumeric "X")
      [pairRow "R1" "ID" "3" "1" "a", pairRow "R2" "ID" "1" "2" "b", pairRow "R1" column new "3" "a"]
      [pairChange "R1" "ID" "3" "1" "a", pairChange "R2" "ID" "1" "2" "b", pairChange "R1" column new "3" "a"] :=
  .cons (carries_pairRow (by decide) rfl _ _ _)
    (.cons (carries_pairRow (by decide) rfl _ _ _) (.cons (carries_pairRow clean rfl _ _ _) .nil))

theorem eventsAfter_moves :
    eventsAfter (eventsAfter [] (pairChange "R1" "ID" "3" "1" "a")) (pairChange "R2" "ID" "1" "2" "b") =
      [] ++ newEvent 0 1 (some "R1") (pairChange "R1" "ID" "3" "1" "a").dml ::
        [newEvent 0 1 (some "R2") (pairChange "R2" "ID" "1" "2" "b").dml] := by
  decide

/-- The first row is updated once more, at the key it has moved to. -/
theorem RedoMiner.released_effect_moves :
    exists events,
      (RedoMiner.new .fail none).released asciiAlphanumeric
          [pairRow "R1" "ID" "3" "1" "a", pairRow "R2" "ID" "1" "2" "b", pairRow "R1" "V" "c" "3" "a"]
          (commitRow 1) = .ok events ∧
        TableOp.applyAll (rowKey pairTable.keys) {rowOf (pairImage "1" "a"), rowOf (pairImage "2" "b")}
            (events.map (Event.effect pairTable)) =
          {rowOf (pairImage "3" "c"), rowOf (pairImage "1" "b")} := by
  have last : Redo pairTable {rowOf (pairImage "3" "a"), rowOf (pairImage "1" "b")} (pairChange "R1" "V" "c" "3" "a")
      {rowOf (pairImage "3" "c"), rowOf (pairImage "1" "b")} :=
    redo_pair (by decide) (by decide) rfl "R1"
  refine RedoMiner.released_effect rfl (carried_moves (by decide) "c") (within_of_unlimited _ _) rfl rfl
    (injOn_pair (by decide) "a" "b") (redoAll_moves last) ⟨?_, ?_, ?_, trivial⟩
  · exact Clear.of_untaken nofun
  · exact Clear.of_untaken (by decide)
  · rw [eventsAfter_moves]
    refine Clear.of_folds ⟨rfl, by decide, by decide⟩ rfl ?_
    intro event member
    rw [List.mem_singleton.mp member]
    refine ⟨⟨?_, ?_⟩, ⟨?_, ?_⟩⟩ <;> decide

theorem overlayRow_pairImage (id value newId newValue : String) :
    overlayRow (rowOf (pairImage id value)) (pairImage newId newValue) = rowOf (pairImage newId newValue) := by
  rw [← rowOf_overlay _ (identifies_pairImage newId newValue).distinct]
  rfl

theorem effect_exchanged :
    ([pairChange "R1" "ID" "3" "1" "a", pairChange "R2" "ID" "1" "2" "b", pairChange "R1" "ID" "2" "3" "a"].foldl
        eventsAfter []).map (Event.effect pairTable) =
      [.replace (rowKey pairTable.keys (rowOf (pairImage "1" "a"))) (rowKey pairTable.keys (rowOf (pairImage "2" "a")))
          (fun row => overlayRow row (pairImage "2" "a")),
        .replace (rowKey pairTable.keys (rowOf (pairImage "2" "b"))) (rowKey pairTable.keys (rowOf (pairImage "1" "b")))
          (fun row => overlayRow row (pairImage "1" "b"))] := by
  rfl

theorem applyAll_exchanged :
    TableOp.applyAll (rowKey pairTable.keys) {rowOf (pairImage "1" "a"), rowOf (pairImage "2" "b")}
        (([pairChange "R1" "ID" "3" "1" "a", pairChange "R2" "ID" "1" "2" "b", pairChange "R1" "ID" "2" "3" "a"].foldl
          eventsAfter []).map (Event.effect pairTable)) = {rowOf (pairImage "1" "b")} := by
  rw [effect_exchanged, TableOp.applyAll_cons, TableOp.applyAll_cons]
  change Set.image _ (Set.image _ {rowOf (pairImage "1" "a"), rowOf (pairImage "2" "b")}) = _
  have stays : rowKey pairTable.keys (rowOf (pairImage "2" "b")) ≠ rowKey pairTable.keys (rowOf (pairImage "1" "a")) :=
    rowKey_pairImage_ne (by decide) "b" "a"
  have collides : rowKey pairTable.keys (rowOf (pairImage "2" "a")) =
    rowKey pairTable.keys (rowOf (pairImage "2" "b")) :=
    rfl
  rw [Set.image_pair, TableOp.replaced_of_eq rfl, TableOp.replaced_of_ne stays, overlayRow_pairImage, Set.image_pair,
    TableOp.replaced_of_eq collides, TableOp.replaced_of_eq rfl, overlayRow_pairImage, overlayRow_pairImage,
    Set.pair_eq_singleton]

/-- The first row moves on to the key the second one has left.  The events move it
there before the second one leaves, and then take both for the second. -/
theorem exchangedKeys_lose_row :
    Set.InjOn (rowKey pairTable.keys) {rowOf (pairImage "1" "a"), rowOf (pairImage "2" "b")} ∧
      List.Forall₂ (Carries asciiAlphanumeric "X")
        [pairRow "R1" "ID" "3" "1" "a", pairRow "R2" "ID" "1" "2" "b", pairRow "R1" "ID" "2" "3" "a"]
        [pairChange "R1" "ID" "3" "1" "a", pairChange "R2" "ID" "1" "2" "b", pairChange "R1" "ID" "2" "3" "a"] ∧
      RedoAll pairTable {rowOf (pairImage "1" "a"), rowOf (pairImage "2" "b")}
        [pairChange "R1" "ID" "3" "1" "a", pairChange "R2" "ID" "1" "2" "b", pairChange "R1" "ID" "2" "3" "a"]
        {rowOf (pairImage "2" "a"), rowOf (pairImage "1" "b")} ∧
      exists events,
        (RedoMiner.new .fail none).released asciiAlphanumeric
            [pairRow "R1" "ID" "3" "1" "a", pairRow "R2" "ID" "1" "2" "b", pairRow "R1" "ID" "2" "3" "a"]
            (commitRow 1) = .ok events ∧
          TableOp.applyAll (rowKey pairTable.keys) {rowOf (pairImage "1" "a"), rowOf (pairImage "2" "b")}
              (events.map (Event.effect pairTable)) ≠ {rowOf (pairImage "2" "a"), rowOf (pairImage "1" "b")} := by
  have carried : List.Forall₂ (Carries asciiAlphanumeric "X") _ _ := carried_moves (by decide : '"' ∉ "ID".toList) "2"
  have commits : (commitRow 1).op = Op.COMMIT := rfl
  refine ⟨injOn_pair (by decide) "a" "b", carried, ?_, ?_⟩
  · exact redoAll_moves (redo_pair (by decide) (by decide) rfl "R1")
  · have fresh : (RedoMiner.new .fail none).staged "X" = Staged.empty := rfl
    rcases RedoMiner.released_buffered fresh carried (within_of_unlimited _ _) commits rfl with
      ⟨events, released, erased⟩
    refine ⟨events, released, ?_⟩
    rw [← map_effect_erased, erased, applyAll_exchanged]
    intro same
    have member : rowOf (pairImage "2" "a") ∈ ({rowOf (pairImage "1" "b")} : Set TableRow) := by
      rw [same]
      exact Set.mem_insert _ _
    exact rowKey_pairImage_ne (by decide) "a" "b" (congrArg (rowKey pairTable.keys) member)

end OracleCdc
end FaucetStream
