import FaucetStream.Replication.TotalOrder
import FaucetStream.Rest.Pagination

namespace FaucetStream
namespace Rest

open Json
open Library
open Replication

/-!
# Keyset walks with an inclusive bound

A server lists a table in the order of a field and answers with the rows from
the cursor on, the cursor's own rows included.  Every page therefore begins
with the rows that were emitted at the cursor last.  The walk drops as many
copies of each, and what is left of the page follows on what was emitted.  A
walk that stops has read the table to its end.
-/

variable {Moment : Type} [LinearOrder Moment]

/-- A table listed in the order of a field, on whose values the comparison
agrees with equality. -/
structure KeysetTable (chrono : Chrono Moment) (field : String) where
  rows : List Value
  keyed : forall row, row ∈ rows -> (row.get field).isSome = true
  agrees : forall row other, row ∈ rows -> other ∈ rows -> forall left right,
    row.get field = some left -> other.get field = some right ->
      (jsonCompare chrono left right = .eq <-> left = right)
  sorted : rows.Pairwise (fun row later => forall left right,
    row.get field = some left -> later.get field = some right -> jsonCompare chrono left right ≠ .gt)

/-- Whether a row stands at the cursor or after it. -/
def atOrAfter (chrono : Chrono Moment) (field : String) (cursor : Value) (row : Value) : Bool :=
  match row.get field with
  | some value => jsonCompare chrono value cursor != .lt
  | none => false

/-- The first rows whose field is at least the requested cursor. -/
def serve (chrono : Chrono Moment) (field : String) (pageSize : Nat) (rows : List Value) (cursor : Option Value) :
    List Value :=
  match cursor with
  | none => rows.take pageSize
  | some cursor => (rows.filter (atOrAfter chrono field cursor)).take pageSize

/-- Ask for pages until the walk stops: the rows emitted, or the error it
ended with.  Without an outcome the pages ran out first. -/
def keysetWalk (libs : Libraries) (chrono : Chrono Moment) (field : String) (stopWhenShort : Bool) (pageSize : Nat)
    (rows : List Value) : Nat -> PaginationState -> List Value -> Option (Except FaucetError (List Value))
  | 0, _, _ => none
  | pages + 1, state, emitted =>
      let style : PaginationStyle := .recordFieldCursor field .max stopWhenShort pageSize true
      let page := serve chrono field pageSize rows state.recordFieldCursor
      let (kept, taken) := style.keysetPage chrono page state
      match style.advance libs (.array page) ⟨[], none⟩ taken page.length with
      | .error error => some (.error error)
      | .ok (false, _) => some (.ok (emitted ++ kept))
      | .ok (true, next) => keysetWalk libs chrono field stopWhenShort pageSize rows pages next (emitted ++ kept)

/-! ## Rows that were emitted before -/

theorem dropEmitted_append {field : String} {cursor : Value} {first : List Value}
    (level : forall row, row ∈ first -> row.get field = some cursor) (more : List Value) (extra : Multiset String) :
    dropEmitted field cursor (first ++ more) (((first.map rowFingerprint : List String) : Multiset String) + extra) =
      dropEmitted field cursor more extra := by
  induction first with
  | nil =>
      rw [List.nil_append, List.map_nil, Multiset.coe_nil, Multiset.zero_add]
  | cons row rest ih =>
      have here : rowFingerprint row ∈
          (((row :: rest).map rowFingerprint : List String) : Multiset String) + extra :=
        Multiset.mem_add.mpr (Or.inl (Multiset.mem_coe.mpr List.mem_cons_self))
      rw [List.cons_append, dropEmitted, if_pos ⟨level row List.mem_cons_self, here⟩, List.map_cons,
        ← Multiset.cons_coe, Multiset.cons_add, Multiset.erase_cons_head]
      exact ih (fun other member => level other (List.mem_cons_of_mem _ member))

theorem dropEmitted_zero (field : String) (cursor : Value) (rows : List Value) :
    dropEmitted field cursor rows 0 = (rows, 0) := by
  induction rows with
  | nil => rfl
  | cons row rest ih =>
      rw [dropEmitted, if_neg (fun both => Multiset.notMem_zero _ both.2), ih]

/-! ## Values in order -/

def keyOf (field : String) (row : Value) : Value := (row.get field).getD .null

/-- A value that may stand before another: not above it, and equal where the
comparison cannot tell them apart. -/
def Before (chrono : Chrono Moment) (left right : Value) : Prop :=
  jsonCompare chrono left right ≠ .gt ∧ (jsonCompare chrono left right = .eq -> left = right)

section Order

variable {chrono : Chrono Moment} {field : String}

theorem get_eq_keyOf {row : Value} (keyed : (row.get field).isSome = true) :
    row.get field = some (keyOf field row) := by
  rcases Option.isSome_iff_exists.mp keyed with ⟨value, found⟩
  unfold keyOf
  rw [found]
  rfl

/-- The keys of a table stand in order. -/
theorem KeysetTable.ordered (table : KeysetTable chrono field) :
    (table.rows.map (keyOf field)).Pairwise (Before chrono) := by
  apply List.pairwise_map.mpr
  apply List.Pairwise.imp_of_mem _ table.sorted
  intro row later member laterMember order
  have left := get_eq_keyOf (table.keyed row member)
  have right := get_eq_keyOf (table.keyed later laterMember)
  exact ⟨order _ _ left right, (table.agrees row later member laterMember _ _ left right).mp⟩

theorem Before.pickCursor {current candidate : Value} (order : Before chrono current candidate) :
    pickCursor chrono .max current candidate = candidate := by
  unfold Rest.pickCursor wins jsonGt
  cases compared : jsonCompare chrono current candidate with
  | gt => exact absurd compared order.1
  | eq =>
      rw [order.2 compared]
      exact ite_self _
  | lt => rw [(jsonCompare_reversible chrono).gt_of_lt compared, if_pos (by rfl)]

/-- The largest of some values in order is the last one. -/
theorem foldl_pickCursor_last {first : Value} {rest : List Value} (order : (first :: rest).Pairwise (Before chrono)) :
    some (rest.foldl (pickCursor chrono .max) first) = (first :: rest).getLast? := by
  induction rest generalizing first with
  | nil => rfl
  | cons value rest ih =>
      rcases List.pairwise_cons.mp order with ⟨below, later⟩
      rw [List.foldl_cons, (below value List.mem_cons_self).pickCursor, ih later,
        List.getLast?_cons_cons]

theorem filterMap_get {rows : List Value} (keyed : forall row, row ∈ rows -> (row.get field).isSome = true) :
    rows.filterMap (fun row => row.get field) = rows.map (keyOf field) := by
  induction rows with
  | nil => rfl
  | cons row rest ih =>
      rw [List.filterMap_cons, get_eq_keyOf (keyed row List.mem_cons_self), List.map_cons,
        ih (fun other member => keyed other (List.mem_cons_of_mem _ member))]

theorem pageAggregate_last {rows : List Value} (keyed : forall row, row ∈ rows -> (row.get field).isSome = true)
    (order : (rows.map (keyOf field)).Pairwise (Before chrono)) :
    pageAggregate chrono field .max rows = (rows.map (keyOf field)).getLast? := by
  unfold pageAggregate
  rw [filterMap_get keyed]
  cases values : rows.map (keyOf field) with
  | nil => rfl
  | cons first rest =>
      rw [values] at order
      exact foldl_pickCursor_last order

/-- Rows in order end on the rows of their last key, and all others are below
it. -/
theorem split_level {rows : List Value} {last : Value} (order : (rows.map (keyOf field)).Pairwise (Before chrono))
    (ends : (rows.map (keyOf field)).getLast? = some last) :
    exists front same, rows = front ++ same ∧ same ≠ [] ∧ (forall row, row ∈ same -> keyOf field row = last) ∧
      forall row, row ∈ front -> jsonCompare chrono (keyOf field row) last = .lt := by
  induction rows with
  | nil => cases ends
  | cons row rest ih =>
      rw [List.map_cons] at order ends
      rcases List.pairwise_cons.mp order with ⟨below, later⟩
      cases rest with
      | nil =>
          have single : keyOf field row = last := Option.some.inj ends
          refine ⟨[], [row], rfl, List.cons_ne_nil _ _, ?_, fun other member => nomatch member⟩
          intro other member
          rw [List.mem_singleton.mp member, single]
      | cons next others =>
          rw [List.map_cons, List.getLast?_cons_cons] at ends
          rcases ih later ends with ⟨front, same, split, filled, level, lower⟩
          have beforeLast : Before chrono (keyOf field row) last := below last (List.mem_of_getLast? ends)
          by_cases alone : front = [] ∧ keyOf field row = last
          · refine ⟨[], row :: same, by rw [split, alone.1, List.nil_append, List.nil_append],
              List.cons_ne_nil _ _, ?_, fun other member => nomatch member⟩
            intro other member
            rcases List.mem_cons.mp member with here | inside
            · rw [here, alone.2]
            · exact level other inside
          · refine ⟨row :: front, same, by rw [split, List.cons_append], filled, level, ?_⟩
            have distinct : keyOf field row ≠ last := by
              intro equal
              cases front with
              | nil => exact alone ⟨rfl, equal⟩
              | cons other front =>
                  have inside : other ∈ next :: others := by
                    rw [split]
                    exact List.mem_cons_self
                  have order := below _ (List.mem_map_of_mem inside)
                  rw [equal] at order
                  exact order.1 ((jsonCompare_reversible chrono).gt_of_lt (lower other List.mem_cons_self))
            intro other member
            rcases List.mem_cons.mp member with here | inside
            · rw [here]
              cases compared : jsonCompare chrono (keyOf field row) last with
              | lt => rfl
              | eq => exact absurd (beforeLast.2 compared) distinct
              | gt => exact absurd compared beforeLast.1
            · exact lower other inside

/-! ## Where a walk stands -/

/-- The rows emitted so far end on `same`, the rows emitted at the cursor, and
`rest` is still to be read. -/
structure Standing (table : KeysetTable chrono field) (front same rest : List Value) (cursor : Value)
    (state : PaginationState) : Prop where
  split : table.rows = front ++ same ++ rest
  filled : same ≠ []
  level : forall row, row ∈ same -> keyOf field row = cursor
  lower : forall row, row ∈ front -> jsonCompare chrono (keyOf field row) cursor = .lt
  position : state.recordFieldCursor = some cursor
  sent : state.previousToken = some (valueToParamString cursor)
  counted : state.recordCursorBoundary = ((same.map rowFingerprint : List String) : Multiset String)

variable {table : KeysetTable chrono field} {front same rest : List Value} {cursor : Value} {state : PaginationState}

theorem atOrAfter_eq {row : Value} (keyed : (row.get field).isSome = true) (cursor : Value) :
    atOrAfter chrono field cursor row = (jsonCompare chrono (keyOf field row) cursor != .lt) := by
  unfold atOrAfter
  rw [get_eq_keyOf keyed]

/-- The server goes on with the rows emitted at the cursor. -/
theorem Standing.serve (standing : Standing table front same rest cursor state) (pageSize : Nat) :
    serve chrono field pageSize table.rows state.recordFieldCursor = (same ++ rest).take pageSize := by
  have keyed := table.keyed
  have order := table.ordered
  rw [standing.split] at keyed order
  have passed : front.filter (atOrAfter chrono field cursor) = [] := by
    apply List.filter_eq_nil_iff.mpr
    intro row member
    rw [atOrAfter_eq (keyed row (List.mem_append_left _ (List.mem_append_left _ member))), standing.lower row member]
    decide
  have again : same.filter (atOrAfter chrono field cursor) = same := by
    apply List.filter_eq_self.mpr
    intro row member
    rw [atOrAfter_eq (keyed row (List.mem_append_left _ (List.mem_append_right _ member))), standing.level row member,
      (jsonCompare_reversible chrono).self]
    decide
  have later : rest.filter (atOrAfter chrono field cursor) = rest := by
    apply List.filter_eq_self.mpr
    intro row member
    rw [atOrAfter_eq (keyed row (List.mem_append_right _ member)), bne_iff_ne]
    intro below
    rcases List.exists_mem_of_ne_nil same standing.filled with ⟨other, inside⟩
    have beforeRow : Before chrono (keyOf field other) (keyOf field row) := by
      rw [List.map_append] at order
      exact (List.pairwise_append.mp order).2.2 _ (List.mem_map_of_mem (List.mem_append_right front inside)) _
        (List.mem_map_of_mem member)
    rw [standing.level other inside] at beforeRow
    exact beforeRow.1 ((jsonCompare_reversible chrono).gt_of_lt below)
  unfold Rest.serve
  rw [standing.position, standing.split]
  simp only [List.filter_append, passed, again, later, List.nil_append]

theorem atCursor_level {front same : List Value}
    (keyed : forall row, row ∈ front ++ same -> (row.get field).isSome = true)
    (level : forall row, row ∈ same -> keyOf field row = cursor)
    (lower : forall row, row ∈ front -> jsonCompare chrono (keyOf field row) cursor = .lt) :
    atCursor field cursor (front ++ same) = ((same.map rowFingerprint : List String) : Multiset String) := by
  have passed : front.filter (fun row => row.get field == some cursor) = [] := by
    apply List.filter_eq_nil_iff.mpr
    intro row member equal
    rw [get_eq_keyOf (keyed row (List.mem_append_left _ member)), beq_iff_eq] at equal
    have below := lower row member
    rw [Option.some.inj equal, (jsonCompare_reversible chrono).self] at below
    cases below
  have here : same.filter (fun row => row.get field == some cursor) = same := by
    apply List.filter_eq_self.mpr
    intro row member
    rw [get_eq_keyOf (keyed row (List.mem_append_right _ member)), level row member]
    exact beq_self_eq_true _
  unfold atCursor
  rw [List.filter_append, passed, here, List.nil_append]

/-- Where a walk stands once a page that ends on a new key is emitted. -/
theorem standing_after {emitted kept : List Value} (split : table.rows = emitted ++ kept ++ rest)
    (ends : (kept.map (keyOf field)).getLast? = some cursor)
    (fresh : forall row, row ∈ emitted -> keyOf field row ≠ cursor) (position : state.recordFieldCursor = some cursor)
    (sent : state.previousToken = some (valueToParamString cursor))
    (counted : state.recordCursorBoundary = atCursor field cursor kept) :
    exists front same, front ++ same = emitted ++ kept ∧ Standing table front same rest cursor state := by
  have keyed := table.keyed
  have order := table.ordered
  rw [split, List.map_append, List.map_append] at order
  rw [split] at keyed
  have upToHere := (List.pairwise_append.mp order).1
  rcases split_level (List.pairwise_append.mp upToHere).2.1 ends with ⟨front, same, parts, filled, level, lower⟩
  refine ⟨emitted ++ front, same, by rw [parts, List.append_assoc], ?_⟩
  constructor
  · rw [split, parts, List.append_assoc emitted front same]
  · exact filled
  · exact level
  · intro row member
    rcases List.mem_append.mp member with earlier | inside
    · have beforeCursor : Before chrono (keyOf field row) cursor :=
        (List.pairwise_append.mp upToHere).2.2 _ (List.mem_map_of_mem earlier) _ (List.mem_of_getLast? ends)
      cases compared : jsonCompare chrono (keyOf field row) cursor with
      | lt => rfl
      | eq => exact absurd (beforeCursor.2 compared) (fresh row earlier)
      | gt => exact absurd compared beforeCursor.1
    · exact lower row inside
  · exact position
  · exact sent
  · rw [counted, parts]
    apply atCursor_level _ level lower
    intro row member
    rw [← parts] at member
    exact keyed row (List.mem_append_left _ (List.mem_append_right _ member))

/-! ## One page -/

section Page

variable (libs : Libraries) (stopWhenShort : Bool) (pageSize : Nat)

theorem advance_recordFieldCursor (agg : RecordCursorAgg) (inclusive : Bool) (body : Value) (headers : Headers)
    (state : PaginationState) (recordCount : Nat) :
    PaginationStyle.advance libs (.recordFieldCursor field agg stopWhenShort pageSize inclusive) body headers state
      recordCount = advanceRecordCursor libs stopWhenShort pageSize state recordCount := rfl

/-- A page that is not empty ends the walk with an error, ends it short of a
full page, or moves the cursor. -/
theorem advance_outcome {recordCount : Nat} (filled : recordCount ≠ 0)
    (position : state.recordFieldCursor = some cursor) :
    (exists error, advanceRecordCursor libs stopWhenShort pageSize state recordCount = .error error) ∨
    (recordCount < pageSize ∧ advanceRecordCursor libs stopWhenShort pageSize state recordCount = .ok (false, state)) ∨
    (state.previousToken ≠ some (valueToParamString cursor) ∧
      advanceRecordCursor libs stopWhenShort pageSize state recordCount =
        .ok (true, { state with previousToken := some (valueToParamString cursor) })) := by
  unfold advanceRecordCursor
  rw [if_neg filled, position, Option.map_some]
  by_cases short : (stopWhenShort && decide (recordCount < pageSize)) = true
  · rw [if_pos short]
    exact Or.inr (Or.inl ⟨of_decide_eq_true (Bool.and_eq_true_iff.mp short).2, rfl⟩)
  · rw [if_neg short]
    by_cases again : state.previousToken = some (valueToParamString cursor)
    · simp only [if_pos again]
      by_cases full : pageSize ≤ recordCount
      · rw [if_pos full]
        exact Or.inl ⟨_, rfl⟩
      · rw [if_neg full]
        exact Or.inr (Or.inl ⟨Nat.lt_of_not_le full, rfl⟩)
    · simp only [if_neg again]
      exact Or.inr (Or.inr ⟨again, trivial⟩)

/-- The state once the kept rows of a page moved the cursor. -/
theorem keysetPage_inclusive {page kept : List Value} {left : Multiset String} {low high : Value}
    (position : state.recordFieldCursor = some low)
    (dropped : dropEmitted field low page state.recordCursorBoundary = (kept, left))
    (moved : updateRecordCursor chrono field .max kept (some low) = some high) :
    PaginationStyle.keysetPage chrono (.recordFieldCursor field .max stopWhenShort pageSize true) page state =
      (kept, { state with
        recordFieldCursor := some high
        recordCursorBoundary := (if some low = some high then left else 0) + atCursor field high kept }) := by
  unfold PaginationStyle.keysetPage
  simp only [position, dropped, moved]

theorem keysetPage_first {page : List Value} {high : Value} (position : state.recordFieldCursor = none)
    (moved : updateRecordCursor chrono field .max page none = some high) :
    PaginationStyle.keysetPage chrono (.recordFieldCursor field .max stopWhenShort pageSize true) page state =
      (page, { state with
        recordFieldCursor := some high
        recordCursorBoundary := 0 + atCursor field high page }) := by
  unfold PaginationStyle.keysetPage
  simp only [position, moved]
  rfl

/-- What a walk that stops has done: it failed, or it read the table. -/
def ReadsOnce (table : KeysetTable chrono field) (outcome : Option (Except FaucetError (List Value))) : Prop :=
  (exists error, outcome = some (.error error)) ∨ outcome = some (.ok table.rows)

/-- One page of a walk.  A page shorter than asked for leaves no rows unread,
and a walk that goes on has another cursor. -/
theorem page_readsOnce {page kept emitted left : List Value} {taken : PaginationState} {high : Value} {pages : Nat}
    (served : Rest.serve chrono field pageSize table.rows state.recordFieldCursor = page)
    (paged : PaginationStyle.keysetPage chrono (.recordFieldCursor field .max stopWhenShort pageSize true) page state =
      (kept, taken))
    (filled : page.length ≠ 0) (position : taken.recordFieldCursor = some high)
    (split : table.rows = emitted ++ kept ++ left) (ended : page.length < pageSize -> left = [])
    (later : taken.previousToken ≠ some (valueToParamString high) ->
      ReadsOnce table (keysetWalk libs chrono field stopWhenShort pageSize table.rows pages
        { taken with previousToken := some (valueToParamString high) } (emitted ++ kept))) :
    ReadsOnce table (keysetWalk libs chrono field stopWhenShort pageSize table.rows (pages + 1) state emitted) := by
  rw [keysetWalk]
  simp only [served, paged, advance_recordFieldCursor]
  rcases advance_outcome libs stopWhenShort pageSize filled position with ⟨error, failed⟩ | ⟨short, stopped⟩
    | ⟨moves, moved⟩
  · simp only [failed]
    exact Or.inl ⟨error, rfl⟩
  · simp only [stopped]
    rw [ended short, List.append_nil] at split
    exact Or.inr (by rw [split])
  · simp only [moved]
    exact later moves

/-- A page that moves the cursor nowhere. -/
theorem Standing.stuck (standing : Standing table front same rest cursor state) {page : List Value}
    {left : Multiset String} (positive : 0 < page.length) (served : (same ++ rest).take pageSize = page)
    (dropped : dropEmitted field cursor page state.recordCursorBoundary = ([], left))
    (ended : page.length < pageSize -> rest = []) (pages : Nat) :
    ReadsOnce table
      (keysetWalk libs chrono field stopWhenShort pageSize table.rows (pages + 1) state (front ++ same)) := by
  have moved : updateRecordCursor chrono field .max [] (some cursor) = some cursor := rfl
  have split : table.rows = (front ++ same) ++ [] ++ rest := by
    rw [List.append_nil]
    exact standing.split
  have paged := keysetPage_inclusive stopWhenShort pageSize standing.position dropped moved
  apply page_readsOnce libs stopWhenShort pageSize ((standing.serve pageSize).trans served) paged
    (Nat.pos_iff_ne_zero.mp positive) rfl split ended
  · intro moves
    exact absurd standing.sent moves

/-- A page that begins with the rows emitted at the cursor and goes on after
them. -/
theorem dropEmitted_level (standing : Standing table front same rest cursor state) (more : List Value) :
    dropEmitted field cursor (same ++ more) state.recordCursorBoundary = (more, 0) := by
  have keyed := table.keyed
  rw [standing.split] at keyed
  have level : forall row, row ∈ same -> row.get field = some cursor := by
    intro row member
    rw [get_eq_keyOf (keyed row (List.mem_append_left _ (List.mem_append_right _ member))), standing.level row member]
  have counted := standing.counted
  rw [← Multiset.add_zero ((same.map rowFingerprint : List String) : Multiset String)] at counted
  rw [counted, dropEmitted_append level, dropEmitted_zero]

theorem dropEmitted_take (standing : Standing table front same rest cursor state) (size : Nat) :
    exists left, dropEmitted field cursor (same.take size) state.recordCursorBoundary = ([], left) := by
  have keyed := table.keyed
  rw [standing.split] at keyed
  have level : forall row, row ∈ same.take size -> row.get field = some cursor := by
    intro row member
    have inside := List.mem_of_mem_take member
    rw [get_eq_keyOf (keyed row (List.mem_append_left _ (List.mem_append_right _ inside))), standing.level row inside]
  have counted := standing.counted
  rw [← List.take_append_drop size same, List.map_append, ← Multiset.coe_add] at counted
  have dropped := dropEmitted_append level [] (((same.drop size).map rowFingerprint : List String) : Multiset String)
  rw [List.append_nil] at dropped
  exact ⟨_, by rw [counted, dropped]; rfl⟩

/-- The largest key of the rows a page adds. -/
theorem updateRecordCursor_last {kept left : List Value} (split : table.rows = front ++ kept ++ left) {high : Value}
    (ends : (kept.map (keyOf field)).getLast? = some high) {before : Option Value}
    (lower : forall low, before = some low -> Before chrono low high) :
    updateRecordCursor chrono field .max kept before = some high := by
  have keyed := table.keyed
  have order := table.ordered
  rw [split] at keyed
  rw [split, List.map_append, List.map_append] at order
  have page : pageAggregate chrono field .max kept = some high := by
    rw [← ends]
    apply pageAggregate_last
    · intro row member
      exact keyed row (List.mem_append_left _ (List.mem_append_right _ member))
    · exact (List.pairwise_append.mp (List.pairwise_append.mp order).1).2.1
  unfold updateRecordCursor
  cases before with
  | none => simp only [page]
  | some low => simp only [page, (lower low rfl).pickCursor]

/-- A page that adds rows. -/
theorem Standing.advanced (standing : Standing table front same rest cursor state) {kept left : List Value}
    (parts : rest = kept ++ left) (filled : kept ≠ []) (served : (same ++ rest).take pageSize = same ++ kept)
    (ended : (same ++ kept).length < pageSize -> left = []) {pages : Nat}
    (later : forall front' same' high next, Standing table front' same' left high next ->
      ReadsOnce table
        (keysetWalk libs chrono field stopWhenShort pageSize table.rows pages next (front' ++ same'))) :
    ReadsOnce table
      (keysetWalk libs chrono field stopWhenShort pageSize table.rows (pages + 1) state (front ++ same)) := by
  have split : table.rows = (front ++ same) ++ kept ++ left := by
    rw [standing.split, parts, List.append_assoc (front ++ same)]
  have order := table.ordered
  rw [split, List.map_append, List.map_append] at order
  have beforeKept := (List.pairwise_append.mp (List.pairwise_append.mp order).1).2.2
  cases ends : (kept.map (keyOf field)).getLast? with
  | none => exact absurd (List.map_eq_nil_iff.mp (List.getLast?_eq_none_iff.mp ends)) filled
  | some high =>
      have highest := List.mem_of_getLast? ends
      rcases List.exists_mem_of_ne_nil same standing.filled with ⟨last, member⟩
      have rises : Before chrono cursor high := by
        have order := beforeKept _ (List.mem_map_of_mem (List.mem_append_right front member)) _ highest
        rw [standing.level last member] at order
        exact order
      have moved : updateRecordCursor chrono field .max kept (some cursor) = some high := by
        apply updateRecordCursor_last split ends
        intro low same
        rw [← Option.some.inj same]
        exact rises
      have paged := keysetPage_inclusive stopWhenShort pageSize standing.position
        (dropEmitted_level standing kept) moved
      apply page_readsOnce libs stopWhenShort pageSize ((standing.serve pageSize).trans served) paged _ rfl split ended
      · intro moves
        have distinct : cursor ≠ high := by
          intro equal
          rw [← equal] at moves
          exact moves standing.sent
        have fresh : forall row, row ∈ front ++ same -> keyOf field row ≠ high := by
          intro row inside equal
          rcases List.mem_append.mp inside with below | level
          · have under := standing.lower row below
            rw [equal] at under
            exact rises.1 ((jsonCompare_reversible chrono).gt_of_lt under)
          · exact distinct ((standing.level row level).symm.trans equal)
        have counted : (if some cursor = some high then (0 : Multiset String) else 0) + atCursor field high kept =
            atCursor field high kept := by
          rw [ite_self, Multiset.zero_add]
        have placed : exists front' same', front' ++ same' = front ++ same ++ kept ∧
            Standing table front' same' left high { state with
              previousToken := some (valueToParamString high)
              recordFieldCursor := some high
              recordCursorBoundary := (if some cursor = some high then 0 else 0) + atCursor field high kept } :=
          standing_after split ends fresh rfl rfl counted
        rcases placed with ⟨front', same', emitted, next⟩
        rw [← emitted]
        exact later front' same' high _ next
      · rw [List.length_append]
        exact Nat.ne_of_gt (Nat.add_pos_left (List.length_pos_iff.mpr standing.filled) _)

/-- A walk that stands somewhere in the table. -/
theorem Standing.readsOnce (standing : Standing table front same rest cursor state) (positive : 0 < pageSize)
    {pages : Nat} (enough : rest.length < pages) :
    ReadsOnce table
      (keysetWalk libs chrono field stopWhenShort pageSize table.rows pages state (front ++ same)) := by
  induction pages generalizing front same rest cursor state with
  | zero => exact absurd enough (Nat.not_lt_zero _)
  | succ pages ih =>
      by_cases crowded : pageSize ≤ same.length
      · rcases dropEmitted_take standing pageSize with ⟨left, dropped⟩
        have served : (same ++ rest).take pageSize = same.take pageSize := List.take_append_of_le_length crowded
        have length : (same.take pageSize).length = pageSize := List.length_take_of_le crowded
        apply standing.stuck libs stopWhenShort pageSize _ served dropped _ pages
        · rw [length]
          exact positive
        · intro short
          rw [length] at short
          exact absurd short (Nat.lt_irrefl _)
      · have room : 0 < pageSize - same.length := Nat.sub_pos_of_lt (Nat.lt_of_not_le crowded)
        have served : (same ++ rest).take pageSize = same ++ rest.take (pageSize - same.length) := by
          rw [List.take_append, List.take_of_length_le (Nat.le_of_not_le crowded)]
        have some_rows : 0 < same.length := List.length_pos_iff.mpr standing.filled
        cases fresh : rest.take (pageSize - same.length) with
        | nil =>
            rw [fresh, List.append_nil] at served
            have dropped := dropEmitted_level standing []
            rw [List.append_nil] at dropped
            apply standing.stuck libs stopWhenShort pageSize some_rows served dropped _ pages
            intro _
            exact (List.take_eq_nil_iff.mp fresh).resolve_left (Nat.pos_iff_ne_zero.mp room)
        | cons row more =>
            rw [fresh] at served
            have parts : rest = (row :: more) ++ rest.drop (pageSize - same.length) := by
              rw [← fresh, List.take_append_drop]
            apply standing.advanced libs stopWhenShort pageSize parts (List.cons_ne_nil row more) served
            · intro short
              rw [← fresh, List.length_append, List.length_take] at short
              apply List.drop_eq_nil_of_le
              omega
            · intro front' same' high next standing'
              apply ih standing'
              have shorter := congrArg List.length parts
              rw [List.length_append, List.length_cons] at shorter
              omega

end Page

end Order

variable (libs : Libraries) {chrono : Chrono Moment} {field : String} (table : KeysetTable chrono field)
  (stopWhenShort : Bool)

/-- A keyset walk with an inclusive bound fails or emits every row of the table
once and in order, before it asked for more pages than there are rows. -/
theorem keysetWalk_readsOnce {pageSize : Nat} (positive : 0 < pageSize) {pages : Nat}
    (enough : table.rows.length < pages) :
    ReadsOnce table
      (keysetWalk libs chrono field stopWhenShort pageSize table.rows pages (.start none false) []) := by
  cases pages with
  | zero => exact absurd enough (Nat.not_lt_zero _)
  | succ pages =>
      have position : (PaginationState.start none false).recordFieldCursor = none := rfl
      have served : serve chrono field pageSize table.rows (PaginationState.start none false).recordFieldCursor =
          table.rows.take pageSize := rfl
      have split : table.rows = [] ++ table.rows.take pageSize ++ table.rows.drop pageSize := by
        rw [List.nil_append, List.take_append_drop]
      cases ends : ((table.rows.take pageSize).map (keyOf field)).getLast? with
      | none =>
          have blank := List.map_eq_nil_iff.mp (List.getLast?_eq_none_iff.mp ends)
          have empty := (List.take_eq_nil_iff.mp blank).resolve_left (Nat.pos_iff_ne_zero.mp positive)
          rw [keysetWalk]
          simp only [served, blank]
          exact Or.inr (by rw [empty]; rfl)
      | some high =>
          have filled : table.rows.take pageSize ≠ [] := by
            intro blank
            rw [blank] at ends
            cases ends
          have moved : updateRecordCursor chrono field .max (table.rows.take pageSize) none = some high :=
            updateRecordCursor_last split ends (fun low impossible => nomatch impossible)
          have paged := keysetPage_first stopWhenShort pageSize position moved
          apply page_readsOnce libs stopWhenShort pageSize served paged _ rfl split
          · intro short
            rw [List.length_take] at short
            apply List.drop_eq_nil_of_le
            omega
          · intro _
            have placed : exists front' same', front' ++ same' = [] ++ table.rows.take pageSize ∧
                Standing table front' same' (table.rows.drop pageSize) high { PaginationState.start none false with
                  previousToken := some (valueToParamString high)
                  recordFieldCursor := some high
                  recordCursorBoundary := 0 + atCursor field high (table.rows.take pageSize) } :=
              standing_after split ends (fun _ impossible => nomatch impossible) rfl rfl (Multiset.zero_add _)
            rcases placed with ⟨front', same', emitted, next⟩
            rw [← emitted]
            apply next.readsOnce libs stopWhenShort pageSize positive
            have some_rows := List.length_pos_iff.mpr filled
            rw [List.length_take] at some_rows
            rw [List.length_drop]
            omega
          · exact Nat.pos_iff_ne_zero.mp (List.length_pos_iff.mpr filled)

def numberedRow (id : Int) (name : String) : Value := .object [("id", .number (.int id)), ("name", .string name)]

/-- Two rows, each listed twice. -/
def numberedTable : KeysetTable noTimestamps "id" where
  rows := [numberedRow 1 "a", numberedRow 1 "a", numberedRow 2 "b", numberedRow 2 "b"]
  keyed row member := by
    simp only [List.mem_cons, List.not_mem_nil, or_false] at member
    rcases member with same | same | same | same <;> rw [same] <;> rfl
  agrees row other member otherMember left right here there := by
    simp only [List.mem_cons, List.not_mem_nil, or_false] at member otherMember
    rcases member with same | same | same | same <;> rcases otherMember with other | other | other | other <;>
      rw [same] at here <;> rw [other] at there <;> cases here <;> cases there <;> decide
  sorted := by
    apply List.Pairwise.cons _ (List.Pairwise.cons _ (List.Pairwise.cons _ (List.pairwise_singleton _ _)))
    all_goals
      intro later member left right here there
      simp only [List.mem_cons, List.not_mem_nil, or_false] at member
    · rcases member with same | same | same <;> rw [same] at there <;> cases here <;> cases there <;> decide
    · rcases member with same | same <;> rw [same] at there <;> cases here <;> cases there <;> decide
    · rw [member] at there
      cases here
      cases there
      decide

/-- Pages of three rows. -/
theorem keysetWalk_readsOnce_numbered :
    ReadsOnce numberedTable
      (keysetWalk entryLibraries noTimestamps "id" true 3 numberedTable.rows 5 (.start none false) []) :=
  keysetWalk_readsOnce entryLibraries numberedTable true (by decide) (by decide)

end Rest
end FaucetStream
