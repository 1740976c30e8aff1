import FaucetStream.Library.Bag
import FaucetStream.Replication.Cursor
import Mathlib.Data.Set.Function
import Mathlib.Order.Defs.LinearOrder

namespace FaucetStream
namespace Replication

open Json
open Library

universe u

/-!
# Resuming a cursor read

A table only grows at or above the last bookmark.  Each read returns the rows
at or above the bookmark in cursor order, is cut off anywhere, and leaves a
bookmark behind that the next read starts from.  Over any sequence of reads
no row is lost, and no row is delivered twice unless more rows share one
cursor value than a bookmark can hold.
-/

/-- The rows of one cursor value. -/
def atValue (column : String) (value : Value) (rows : Multiset Value) : Multiset Value :=
  rows.filter (fun row => cursorOf column row = some value)

theorem cursorOf_present {column : String} {row value : Value}
    (cursor : cursorOf column row = some value) : value.isNull = false := by
  have kept := (Option.filter_eq_some_iff.mp cursor).2
  exact Bool.not_eq_true' _ ▸ kept

section AtValue

variable (column : String) (value : Value)

theorem atValue_add (left right : Multiset Value) :
    atValue column value (left + right) = atValue column value left + atValue column value right :=
  Multiset.filter_add _ _ _

theorem atValue_union (left right : Multiset Value) :
    atValue column value (left ∪ right) = atValue column value left ∪ atValue column value right :=
  Multiset.filter_union _ _ _

theorem atValue_mono {left right : Multiset Value} (below : left ≤ right) :
    atValue column value left ≤ atValue column value right :=
  Multiset.filter_le_filter _ below

theorem mem_atValue {rows : Multiset Value} {row : Value} :
    row ∈ atValue column value rows ↔ row ∈ rows ∧ cursorOf column row = some value :=
  Multiset.mem_filter

theorem atValue_concat_of_eq (rows : List Value) {row : Value}
    (cursor : cursorOf column row = some value) :
    atValue column value (rows ++ [row] : List Value) = row ::ₘ atValue column value (rows : Multiset Value) := by
  rw [coe_concat]
  exact Multiset.filter_cons_of_pos _ cursor

theorem atValue_concat_of_ne (rows : List Value) {row : Value}
    (cursor : cursorOf column row ≠ some value) :
    atValue column value (rows ++ [row] : List Value) = atValue column value (rows : Multiset Value) := by
  rw [coe_concat]
  exact Multiset.filter_cons_of_neg _ cursor

end AtValue

/-! ## One read

The tracker of a read that starts at a bookmark, with the bag of rows emitted
at the bookmark's value before. -/

/-- A cursor column of a table.  The server orders its values by `rank`, and
no two of them tie: values that only its collation takes for equal are left
out.  `rows` are the rows that may ever be stored, told apart by their
fingerprints. -/
structure CursorTable (O : Type u) [LinearOrder O] where
  column : String
  rows : Set Value
  rank : Value -> O
  initial : Value
  initial_present : initial.isNull = false
  rank_injective : Set.InjOn rank
    {value | value = initial ∨ exists row, row ∈ rows ∧ cursorOf column row = some value}
  fingerprint_injective : Set.InjOn rowFingerprint rows

namespace CursorTable

variable {O : Type u} [LinearOrder O] (table : CursorTable O)

/-- The values a bookmark of this column can take. -/
def IsCursor (value : Value) : Prop :=
  value = table.initial ∨ exists row, row ∈ table.rows ∧ cursorOf table.column row = some value

theorem eq_of_rank_eq {left right : Value} (leftCursor : table.IsCursor left)
    (rightCursor : table.IsCursor right) (same : table.rank left = table.rank right) : left = right :=
  table.rank_injective leftCursor rightCursor same

end CursorTable

/-- The boundary of a tracker counts the rows of a bag, or was dropped because
the bag grew too large or was dropped before the read. -/
structure Counts (dropped : Prop) (bag : Multiset Value) (tracker : CursorTracker) : Prop where
  counted : forall fingerprints, tracker.boundary = some fingerprints ->
    fingerprints = bag.map rowFingerprint ∧ tracker.boundaryRows = Multiset.card bag ∧ ¬ dropped
  overflow : tracker.boundary = none -> dropped ∨ MAX_BOUNDARY_ROWS < Multiset.card bag

/-- Counting a row touches the boundary and its size only. -/
theorem countRow_frame (tracker : CursorTracker) (fingerprint : String) :
    (tracker.countRow fingerprint).column = tracker.column ∧
      (tracker.countRow fingerprint).start = tracker.start ∧
      (tracker.countRow fingerprint).startBoundary = tracker.startBoundary ∧
      (tracker.countRow fingerprint).value = tracker.value := by
  unfold CursorTracker.countRow
  split
  · exact ⟨rfl, rfl, rfl, rfl⟩
  · split <;> exact ⟨rfl, rfl, rfl, rfl⟩

theorem countRow_counts {dropped : Prop} {bag : Multiset Value} {tracker : CursorTracker}
    (counts : Counts dropped bag tracker) (row : Value) :
    Counts dropped (row ::ₘ bag) (tracker.countRow (rowFingerprint row)) := by
  unfold CursorTracker.countRow
  cases boundary : tracker.boundary with
  | none =>
      refine ⟨fun fingerprints impossible => ?_, fun _ => ?_⟩
      · rw [boundary] at impossible
        cases impossible
      · refine (counts.overflow boundary).imp_right (fun exceeded => ?_)
        rw [Multiset.card_cons]
        exact Nat.lt_succ_of_lt exceeded
  | some fingerprints =>
      rcases counts.counted fingerprints boundary with ⟨same, size, kept⟩
      by_cases exceeded : MAX_BOUNDARY_ROWS < tracker.boundaryRows + 1
      · simp only [exceeded, if_true]
        refine ⟨fun other impossible => (by cases impossible), fun _ => Or.inr ?_⟩
        rw [Multiset.card_cons, ← size]
        exact exceeded
      · simp only [exceeded, if_false]
        refine ⟨fun other found => ?_, nofun⟩
        cases found
        refine ⟨?_, ?_, kept⟩
        · rw [Multiset.map_cons, same]
        · rw [Multiset.card_cons, size]

section Tracking

variable {O : Type u} [LinearOrder O] (table : CursorTable O) (start : CursorBookmark)
  (emitted : Multiset Value)

/-- What a tracker knows after the rows `seen`, of which it admitted
`admitted`. -/
structure Tracked (seen admitted : List Value) (tracker : CursorTracker) : Prop where
  column : tracker.column = table.column
  start_eq : tracker.start = start.value
  startBoundary : tracker.startBoundary = start.boundary.map (fun _ =>
    (emitted - atValue table.column start.value seen).map rowFingerprint)
  isCursor : table.IsCursor tracker.value
  present : tracker.value.isNull = false
  above : table.rank start.value ≤ table.rank tracker.value
  below : forall row, row ∈ seen -> forall value, cursorOf table.column row = some value ->
    table.rank value ≤ table.rank tracker.value
  reached : tracker.value = start.value ∨
    exists row, row ∈ seen ∧ cursorOf table.column row = some tracker.value
  subset : forall row, row ∈ admitted -> row ∈ seen
  atStart : atValue table.column start.value admitted =
    match start.boundary with
    | some _ => atValue table.column start.value seen - emitted
    | none => atValue table.column start.value seen
  beyond : forall value, value ≠ start.value ->
    atValue table.column value admitted = atValue table.column value seen
  counts : Counts (tracker.value = start.value ∧ start.boundary = none)
    ((if tracker.value = start.value then emitted else 0) +
      atValue table.column tracker.value admitted) tracker

variable {table start emitted}

theorem new_tracked (isCursor : table.IsCursor start.value) (present : start.value.isNull = false)
    (boundary : forall texts, start.boundary = some texts ->
      (texts : Multiset String) = emitted.map rowFingerprint) :
    Tracked table start emitted [] [] (CursorTracker.new table.column start) where
  column := rfl
  start_eq := rfl
  startBoundary := by
    unfold CursorTracker.new
    cases shape : start.boundary with
    | none => rfl
    | some texts =>
        have same := boundary texts shape
        have untouched : emitted - atValue table.column start.value ([] : List Value) = emitted :=
          Multiset.sub_zero emitted
        simp only [Option.map_some, same, untouched]
  isCursor := isCursor
  present := present
  above := le_refl _
  below := fun row impossible => by cases impossible
  reached := Or.inl rfl
  subset := fun row impossible => by cases impossible
  atStart := by
    cases start.boundary with
    | none => rfl
    | some texts => exact (Multiset.zero_sub emitted).symm
  beyond := fun value _ => rfl
  counts := by
    have empty : (if start.value = start.value then emitted else 0) +
        atValue table.column start.value ([] : List Value) = emitted := by
      rw [if_pos rfl]
      exact Multiset.add_zero emitted
    change Counts _ ((if start.value = start.value then emitted else 0) +
      atValue table.column start.value ([] : List Value)) _
    rw [empty]
    unfold CursorTracker.new
    cases shape : start.boundary with
    | none =>
        exact ⟨fun fingerprints impossible => (by cases impossible), fun _ => Or.inl ⟨rfl, rfl⟩⟩
    | some texts =>
        refine ⟨fun fingerprints found => ?_, nofun⟩
        cases found
        have same := boundary texts shape
        refine ⟨same, ?_, fun dropped => by cases dropped.2⟩
        simp only [Option.map_some, same, Multiset.card_map]

variable {seen admitted : List Value} {tracker : CursorTracker} {row value : Value}

/-- The rows a tracker is told about are rows of the table. -/
structure Known (table : CursorTable O) (emitted : Multiset Value) (seen : List Value) : Prop where
  emitted : forall row, row ∈ emitted -> row ∈ table.rows
  seen : forall row, row ∈ seen -> row ∈ table.rows

/-- A row of the starting value leaves the tracker where it started. -/
theorem Tracked.value_eq_start (tracked : Tracked table start emitted seen admitted tracker)
    (isCursor : table.IsCursor start.value)
    (forward : table.rank tracker.value ≤ table.rank start.value) : tracker.value = start.value :=
  table.eq_of_rank_eq tracked.isCursor isCursor (le_antisymm forward tracked.above)

/-- A refused row is one of the rows emitted before. -/
theorem Tracked.refuse (tracked : Tracked table start emitted seen admitted tracker)
    (known : Known table emitted seen) (stored : row ∈ table.rows)
    (cursor : cursorOf table.column row = some start.value)
    (atStart : tracker.value = start.value) {left : Multiset String}
    (pending : tracker.startBoundary = some left) (refused : rowFingerprint row ∈ left) :
    Tracked table start emitted (seen ++ [row]) admitted
      { tracker with startBoundary := some (left.erase (rowFingerprint row)) } := by
  cases shape : start.boundary with
  | none =>
      have impossible := tracked.startBoundary
      rw [pending, shape] at impossible
      cases impossible
  | some texts =>
      have due : left = (emitted - atValue table.column start.value seen).map rowFingerprint := by
        have boundary := tracked.startBoundary
        rw [pending, shape] at boundary
        exact Option.some.inj boundary
      have isDue : row ∈ emitted - atValue table.column start.value seen := by
        rw [due] at refused
        rcases Multiset.mem_map.mp refused with ⟨other, member, same⟩
        have otherStored := known.emitted other (Multiset.mem_of_le (Multiset.sub_le_self _ _) member)
        rw [table.fingerprint_injective otherStored stored same] at member
        exact member
      have extended := atValue_concat_of_eq table.column start.value seen cursor
      have ticked := sub_cons_of_mem isDue
      refine ⟨tracked.column, tracked.start_eq, ?_, tracked.isCursor, tracked.present, tracked.above,
        ?_, Or.inl atStart, fun other member => List.mem_append_left _ (tracked.subset other member),
        ?_, ?_, ?_⟩
      · rw [shape, Option.map_some, extended, ticked.1, Multiset.map_erase_of_mem _ _ isDue, ← due]
      · intro other member otherValue otherCursor
        rcases List.mem_append.mp member with inside | last
        · exact tracked.below other inside otherValue otherCursor
        · rw [List.mem_singleton.mp last, cursor] at otherCursor
          rw [← Option.some.inj otherCursor]
          exact tracked.above
      · have before := tracked.atStart
        simp only [shape] at before ⊢
        rw [before, extended, ticked.2]
      · intro other different
        rw [tracked.beyond other different, atValue_concat_of_ne]
        rw [cursor]
        exact fun same => different (Option.some.inj same).symm
      · exact ⟨tracked.counts.counted, tracked.counts.overflow⟩

/-- An admitted row is new, and the tracker stands at its value. -/
theorem Tracked.keep (tracked : Tracked table start emitted seen admitted tracker)
    (stored : row ∈ table.rows) (cursor : cursorOf table.column row = some value)
    (forward : table.rank tracker.value ≤ table.rank value)
    (isNew : value = start.value -> start.boundary ≠ none ->
      row ∉ emitted - atValue table.column start.value seen)
    {next : CursorTracker} (column : next.column = tracker.column) (start_eq : next.start = tracker.start)
    (startBoundary : next.startBoundary = tracker.startBoundary) (moved : next.value = value)
    (counts : Counts (value = start.value ∧ start.boundary = none)
      ((if value = start.value then emitted else 0) +
        row ::ₘ atValue table.column value admitted) next) :
    Tracked table start emitted (seen ++ [row]) (admitted ++ [row]) next := by
  refine ⟨column.trans tracked.column, start_eq.trans tracked.start_eq, ?_, ?_, ?_, ?_, ?_, ?_, ?_, ?_, ?_, ?_⟩
  · rw [startBoundary, tracked.startBoundary]
    cases shape : start.boundary with
    | none => rfl
    | some texts =>
        rw [Option.map_some, Option.map_some]
        by_cases same : value = start.value
        · have notDue := isNew same (by rw [shape]; exact Option.some_ne_none texts)
          rw [atValue_concat_of_eq _ _ _ (same ▸ cursor), (sub_cons_of_notMem notDue).1]
        · rw [atValue_concat_of_ne]
          rw [cursor]
          exact fun equal => same (Option.some.inj equal)
  · rw [moved]
    exact Or.inr ⟨row, stored, cursor⟩
  · rw [moved]
    exact cursorOf_present cursor
  · rw [moved]
    exact le_trans tracked.above forward
  · intro other member otherValue otherCursor
    rw [moved]
    rcases List.mem_append.mp member with inside | last
    · exact le_trans (tracked.below other inside otherValue otherCursor) forward
    · rw [List.mem_singleton.mp last, cursor] at otherCursor
      rw [Option.some.inj otherCursor]
  · refine Or.inr ⟨row, List.mem_append_right seen (List.mem_singleton_self row), ?_⟩
    rw [moved]
    exact cursor
  · intro other member
    rcases List.mem_append.mp member with inside | last
    · exact List.mem_append_left _ (tracked.subset other inside)
    · exact List.mem_append_right _ last
  · by_cases same : value = start.value
    · have here : cursorOf table.column row = some start.value := same ▸ cursor
      rw [atValue_concat_of_eq _ _ _ here, atValue_concat_of_eq _ _ _ here, tracked.atStart]
      cases shape : start.boundary with
      | none => rfl
      | some texts =>
          have notDue := isNew same (by rw [shape]; exact Option.some_ne_none texts)
          exact (sub_cons_of_notMem notDue).2.symm
    · have elsewhere : cursorOf table.column row ≠ some start.value := by
        rw [cursor]
        exact fun equal => same (Option.some.inj equal)
      rw [atValue_concat_of_ne _ _ _ elsewhere, atValue_concat_of_ne _ _ _ elsewhere]
      exact tracked.atStart
  · intro other different
    by_cases same : value = other
    · subst same
      rw [atValue_concat_of_eq _ _ _ cursor, atValue_concat_of_eq _ _ _ cursor,
        tracked.beyond value different]
    · have elsewhere : cursorOf table.column row ≠ some other := by
        rw [cursor]
        exact fun equal => same (Option.some.inj equal)
      rw [atValue_concat_of_ne _ _ _ elsewhere, atValue_concat_of_ne _ _ _ elsewhere,
        tracked.beyond other different]
  · rw [moved, atValue_concat_of_eq _ _ _ cursor]
    exact counts

/-- The tracker after one row of an ordered read. -/
theorem admitRow_tracked (tracked : Tracked table start emitted seen admitted tracker)
    (known : Known table emitted seen) (isCursor : table.IsCursor start.value)
    (stored : row ∈ table.rows) (cursor : cursorOf table.column row = some value)
    (forward : table.rank tracker.value ≤ table.rank value) :
    Tracked table start emitted (seen ++ [row])
      (if (tracker.admitRow row).1 then admitted ++ [row] else admitted) (tracker.admitRow row).2 := by
  have frame := countRow_frame tracker (rowFingerprint row)
  have here : cursorOf tracker.column row = some value := tracked.column ▸ cursor
  unfold CursorTracker.admitRow
  simp only [here, tracked.start_eq]
  by_cases same : value = start.value
  · subst same
    have stands := tracked.value_eq_start isCursor forward
    simp only [if_true]
    have counts : Counts (start.value = start.value ∧ start.boundary = none)
        ((if start.value = start.value then emitted else 0) +
          row ::ₘ atValue table.column start.value admitted)
        (tracker.countRow (rowFingerprint row)) := by
      have before := tracked.counts
      rw [stands] at before
      rw [Multiset.add_cons]
      exact countRow_counts before row
    cases filtered : tracker.startBoundary.filter (fun left => decide (rowFingerprint row ∈ left)) with
    | some left =>
        rcases Option.filter_eq_some_iff.mp filtered with ⟨pending, refused⟩
        simp only [Bool.false_eq_true, if_false]
        have refusal := tracked.refuse known stored cursor stands pending (of_decide_eq_true refused)
        rw [tracked.start_eq] at refusal
        exact refusal
    | none =>
        simp only [stands, if_true]
        refine tracked.keep stored cursor forward ?_ frame.1 frame.2.1 frame.2.2.1
          (frame.2.2.2.trans stands) counts
        intro _ present isDue
        cases shape : start.boundary with
        | none => exact present shape
        | some texts =>
            have boundary := tracked.startBoundary
            rw [shape, Option.map_some] at boundary
            rw [boundary, Option.filter_some, if_pos (decide_eq_true (Multiset.mem_map_of_mem _ isDue))] at filtered
            cases filtered
  · simp only [same, if_false]
    have isNew : value = start.value -> start.boundary ≠ none ->
        row ∉ emitted - atValue table.column start.value seen := fun equal => absurd equal same
    by_cases stands : value = tracker.value
    · subst stands
      simp only [if_true]
      refine tracked.keep stored cursor forward isNew frame.1 frame.2.1 frame.2.2.1 frame.2.2.2 ?_
      have before := countRow_counts tracked.counts row
      rw [← Multiset.add_cons] at before
      exact before
    · simp only [stands, if_false, if_true]
      refine tracked.keep stored cursor forward isNew rfl tracked.start_eq.symm rfl rfl ?_
      -- No earlier row has this value: the read is ordered and has moved on.
      have fresh : atValue table.column value (admitted : Multiset Value) = 0 := by
        rw [tracked.beyond value same]
        refine Multiset.eq_zero_of_forall_notMem (fun other member => ?_)
        rcases (mem_atValue table.column value).mp member with ⟨inside, otherCursor⟩
        have backward := tracked.below other inside value otherCursor
        exact stands (table.eq_of_rank_eq (Or.inr ⟨row, stored, cursor⟩) tracked.isCursor
          (le_antisymm backward forward))
      rw [fresh, if_neg same, Multiset.zero_add]
      refine ⟨fun fingerprints found => ?_, nofun⟩
      cases found
      exact ⟨rfl, rfl, fun dropped => same dropped.1⟩

private theorem foldl_admitRow_tracked (isCursor : table.IsCursor start.value) (rest : List Value)
    (tracked : Tracked table start emitted seen admitted tracker)
    (known : Known table emitted (seen ++ rest))
    (cursors : forall row, row ∈ rest -> exists value, cursorOf table.column row = some value ∧
      table.rank tracker.value ≤ table.rank value)
    (ordered : rest.Pairwise (fun left right => forall leftValue rightValue,
      cursorOf table.column left = some leftValue -> cursorOf table.column right = some rightValue ->
      table.rank leftValue ≤ table.rank rightValue)) :
    let final := rest.foldl (fun state row =>
      let (isNew, next) := state.2.admitRow row
      (if isNew then state.1 ++ [row] else state.1, next)) (admitted, tracker)
    Tracked table start emitted (seen ++ rest) final.1 final.2 := by
  induction rest generalizing seen admitted tracker with
  | nil =>
      rw [List.append_nil]
      exact tracked
  | cons row rest ih =>
      rcases cursors row List.mem_cons_self with ⟨value, cursor, forward⟩
      have stored : row ∈ table.rows :=
        known.seen row (List.mem_append_right seen List.mem_cons_self)
      have knownSeen : Known table emitted seen :=
        ⟨known.emitted, fun other member => known.seen other (List.mem_append_left _ member)⟩
      have step := admitRow_tracked tracked knownSeen isCursor stored cursor forward
      rcases List.pairwise_cons.mp ordered with ⟨first, tail⟩
      have rearranged : (seen ++ [row]) ++ rest = seen ++ row :: rest := List.append_assoc ..
      have rest' := ih step (by rw [rearranged]; exact known) (by
        intro other member
        rcases cursors other (List.mem_cons_of_mem row member) with ⟨otherValue, otherCursor, ahead⟩
        refine ⟨otherValue, otherCursor, ?_⟩
        rcases step.reached with unmoved | ⟨last, inside, lastCursor⟩
        · rw [unmoved]
          exact le_trans tracked.above ahead
        · rcases List.mem_append.mp inside with earlier | single
          · exact le_trans (tracked.below last earlier _ lastCursor) ahead
          · rw [List.mem_singleton.mp single] at lastCursor
            exact first other member _ otherValue lastCursor otherCursor) tail
      rw [rearranged] at rest'
      exact rest'

end Tracking

/-! ## A sequence of reads -/

section Reads

variable {O : Type u} [LinearOrder O]

/-- The filter of the query: `cursor >= bookmark`.  A null cursor never
passes it. -/
def CursorTable.selects (table : CursorTable O) (bookmark row : Value) : Bool :=
  match cursorOf table.column row with
  | some value => decide (table.rank bookmark ≤ table.rank value)
  | none => false

/-- The rows a server returns: those the filter selects, in cursor order.  Rows
of one value may come in any order. -/
structure Returned (table : CursorTable O) (bookmark : Value) (snapshot : Multiset Value)
    (rows : List Value) : Prop where
  selected : (rows : Multiset Value) = snapshot.filter (fun row => table.selects bookmark row = true)
  ordered : rows.Pairwise (fun left right => forall leftValue rightValue,
    cursorOf table.column left = some leftValue -> cursorOf table.column right = some rightValue ->
    table.rank leftValue ≤ table.rank rightValue)

/-- What has happened so far: the table at the last read, the stored bookmark,
the rows some read returned before it was cut, and the rows delivered. -/
structure ReadState where
  snapshot : Multiset Value
  stored : Value
  seen : Multiset Value
  delivered : Multiset Value

/-- The states after any sequence of reads.  Between two reads the table gains
rows at or above the last bookmark; a read stops after any number of rows. -/
inductive Reachable (table : CursorTable O) : ReadState -> Prop
  | start (snapshot : Multiset Value) (rows : forall row, row ∈ snapshot -> row ∈ table.rows) :
      Reachable table ⟨snapshot, (CursorBookmark.initial table.initial).toValue, 0, 0⟩
  | read {state : ReadState} (reached : Reachable table state) {bookmark : CursorBookmark}
      (reloaded : CursorBookmark.fromState state.stored = .ok bookmark) (arrived : Multiset Value)
      (rows : forall row, row ∈ arrived -> row ∈ table.rows ∧ table.selects bookmark.value row = true)
      {returned : List Value}
      (answer : Returned table bookmark.value (state.snapshot + arrived) returned) (cut : Nat) :
      Reachable table
        { snapshot := state.snapshot + arrived
          stored := ((CursorTracker.new table.column bookmark).read (returned.take cut)).2.bookmark.toValue
          seen := state.seen ∪ (returned.take cut : List Value)
          delivered := state.delivered +
            (((CursorTracker.new table.column bookmark).read (returned.take cut)).1 : List Value) }

theorem CursorTable.selects_iff (table : CursorTable O) (bookmark row : Value) :
    table.selects bookmark row = true ↔
      exists value, cursorOf table.column row = some value ∧ table.rank bookmark ≤ table.rank value := by
  unfold CursorTable.selects
  cases cursorOf table.column row with
  | none => simp only [Bool.false_eq_true, reduceCtorEq, false_and, exists_false]
  | some value => simp only [decide_eq_true_eq, Option.some.injEq, exists_eq_left']

/-- What every reachable state keeps. -/
structure Lossless (table : CursorTable O) (state : ReadState) (bookmark : CursorBookmark) : Prop where
  reloaded : CursorBookmark.fromState state.stored = .ok bookmark
  isCursor : table.IsCursor bookmark.value
  present : bookmark.value.isNull = false
  rows : forall row, row ∈ state.snapshot -> row ∈ table.rows
  seen_le : state.seen ≤ state.snapshot
  seen_cursor : forall row, row ∈ state.seen ->
    exists value, cursorOf table.column row = some value ∧ table.rank value ≤ table.rank bookmark.value
  delivered_seen : forall row, row ∈ state.delivered -> row ∈ state.seen
  covered : forall value, table.rank table.initial ≤ table.rank value ->
    table.rank value < table.rank bookmark.value ->
    atValue table.column value state.snapshot = atValue table.column value state.seen
  lossless : forall value,
    atValue table.column value state.seen ≤ atValue table.column value state.delivered
  exactly : forall value,
    Multiset.card (atValue table.column value state.snapshot) ≤ MAX_BOUNDARY_ROWS ->
    atValue table.column value state.delivered = atValue table.column value state.seen
  boundary : forall texts, bookmark.boundary = some texts ->
    (texts : Multiset String) =
        (atValue table.column bookmark.value state.delivered).map rowFingerprint ∧
      atValue table.column bookmark.value state.delivered =
        atValue table.column bookmark.value state.seen
  overflow : bookmark.boundary = none ->
    MAX_BOUNDARY_ROWS < Multiset.card (atValue table.column bookmark.value state.snapshot)

theorem start_lossless (table : CursorTable O) (snapshot : Multiset Value)
    (rows : forall row, row ∈ snapshot -> row ∈ table.rows) :
    Lossless table ⟨snapshot, (CursorBookmark.initial table.initial).toValue, 0, 0⟩
      (CursorBookmark.initial table.initial) where
  reloaded := CursorBookmark.fromState_toValue _ table.initial_present
  isCursor := Or.inl rfl
  present := table.initial_present
  rows := rows
  seen_le := Multiset.zero_le _
  seen_cursor := fun row impossible => absurd impossible (Multiset.notMem_zero row)
  delivered_seen := fun row impossible => absurd impossible (Multiset.notMem_zero row)
  covered := fun value above below => absurd (lt_of_le_of_lt above below) (lt_irrefl _)
  lossless := fun value => le_refl _
  exactly := fun value _ => rfl
  boundary := fun texts found => by
    cases found
    exact ⟨rfl, rfl⟩
  overflow := nofun

section Step

variable {table : CursorTable O} {state : ReadState} {bookmark : CursorBookmark}
  {arrived : Multiset Value} {returned : List Value} {cut : Nat}

/-- The rows of one read, with the tracker that saw them. -/
structure ReadFacts (table : CursorTable O) (state : ReadState) (bookmark : CursorBookmark)
    (snapshot : Multiset Value) (page admitted : List Value) (tracker : CursorTracker) : Prop where
  before : Lossless table state bookmark
  grows : state.snapshot ≤ snapshot
  gained : forall value, table.rank value < table.rank bookmark.value ->
    atValue table.column value snapshot = atValue table.column value state.snapshot
  rows : forall row, row ∈ snapshot -> row ∈ table.rows
  page_le : (page : Multiset Value) ≤ snapshot
  page_cursor : forall row, row ∈ page -> exists value,
    cursorOf table.column row = some value ∧ table.rank bookmark.value ≤ table.rank value
  complete : forall value, table.rank bookmark.value ≤ table.rank value ->
    table.rank value < table.rank tracker.value ->
    atValue table.column value snapshot = atValue table.column value (page : Multiset Value)
  tracked : Tracked table bookmark (atValue table.column bookmark.value state.delivered) page admitted tracker

theorem readFacts (before : Lossless table state bookmark)
    (rows : forall row, row ∈ arrived -> row ∈ table.rows ∧ table.selects bookmark.value row = true)
    (answer : Returned table bookmark.value (state.snapshot + arrived) returned) :
    ReadFacts table state bookmark (state.snapshot + arrived) (returned.take cut)
      ((CursorTracker.new table.column bookmark).read (returned.take cut)).1
      ((CursorTracker.new table.column bookmark).read (returned.take cut)).2 := by
  have allRows : forall row, row ∈ state.snapshot + arrived -> row ∈ table.rows := by
    intro row member
    rcases Multiset.mem_add.mp member with old | fresh
    · exact before.rows row old
    · exact (rows row fresh).1
  have returnedSnapshot : (returned : Multiset Value) ≤ state.snapshot + arrived := by
    rw [answer.selected]
    exact Multiset.filter_le _ _
  have pageReturned : ((returned.take cut : List Value) : Multiset Value) ≤ returned :=
    Multiset.coe_le.mpr (List.take_sublist cut returned).subperm
  have returnedCursor : forall row, row ∈ returned -> exists value,
      cursorOf table.column row = some value ∧ table.rank bookmark.value ≤ table.rank value := by
    intro row member
    have listed : row ∈ (returned : Multiset Value) := member
    rw [answer.selected] at listed
    exact (table.selects_iff bookmark.value row).mp (Multiset.mem_filter.mp listed).2
  have pageMember : forall row, row ∈ returned.take cut -> row ∈ returned :=
    fun row member => List.mem_of_mem_take member
  have known : Known table (atValue table.column bookmark.value state.delivered) (returned.take cut) := by
    refine ⟨fun row member => ?_, fun row member => ?_⟩
    · have delivered := ((mem_atValue table.column bookmark.value).mp member).1
      exact before.rows row (Multiset.mem_of_le before.seen_le (before.delivered_seen row delivered))
    · exact allRows row (Multiset.mem_of_le returnedSnapshot (pageMember row member))
  have started := new_tracked before.isCursor before.present (fun texts found => (before.boundary texts found).1)
  have tracked := foldl_admitRow_tracked before.isCursor (returned.take cut) started known
    (fun row member => returnedCursor row (pageMember row member))
    (answer.ordered.sublist (List.take_sublist cut returned))
  refine ⟨before, Multiset.le_add_right _ _, ?_, allRows, le_trans pageReturned returnedSnapshot,
    fun row member => returnedCursor row (pageMember row member), ?_, tracked⟩
  · intro value below
    have none : atValue table.column value arrived = 0 := by
      refine Multiset.eq_zero_of_forall_notMem (fun row member => ?_)
      rcases (mem_atValue table.column value).mp member with ⟨fresh, cursor⟩
      rcases (table.selects_iff bookmark.value row).mp (rows row fresh).2 with ⟨other, otherCursor, above⟩
      rw [cursor] at otherCursor
      rw [← Option.some.inj otherCursor] at above
      exact absurd (lt_of_le_of_lt above below) (lt_irrefl _)
    rw [atValue_add, none, Multiset.add_zero]
  · intro value above below
    -- The read went past this value, so no row of it is left behind the cut.
    have rest : atValue table.column value (returned.drop cut : Multiset Value) = 0 := by
      refine Multiset.eq_zero_of_forall_notMem (fun row member => ?_)
      rcases (mem_atValue table.column value).mp member with ⟨inside, cursor⟩
      rcases tracked.reached with unmoved | ⟨last, lastMember, lastCursor⟩
      · have stands : (CursorTracker.read (CursorTracker.new table.column bookmark) (returned.take cut)).2.value =
            bookmark.value := unmoved
        rw [stands] at below
        exact absurd (lt_of_le_of_lt above below) (lt_irrefl _)
      · have ordered := answer.ordered
        rw [← List.take_append_drop cut returned] at ordered
        have behind := (List.pairwise_append.mp ordered).2.2 last lastMember row inside _ value lastCursor cursor
        exact absurd (lt_of_le_of_lt behind below) (lt_irrefl _)
    have whole : atValue table.column value (state.snapshot + arrived) =
        atValue table.column value (returned : Multiset Value) := by
      rw [answer.selected]
      unfold atValue
      rw [Multiset.filter_filter]
      refine Multiset.filter_congr (fun row _ => ?_)
      constructor
      · intro cursor
        exact ⟨cursor, (table.selects_iff bookmark.value row).mpr ⟨value, cursor, above⟩⟩
      · exact fun both => both.1
    rw [whole]
    have split : (returned : Multiset Value) =
        ((returned.take cut : List Value) : Multiset Value) + (returned.drop cut : List Value) := by
      rw [Multiset.coe_add, List.take_append_drop]
    rw [split, atValue_add, rest, Multiset.add_zero]

variable {snapshot : Multiset Value} {page admitted : List Value} {tracker : CursorTracker}

namespace ReadFacts

variable (facts : ReadFacts table state bookmark snapshot page admitted tracker)

include facts

theorem start_lt_of_moved
    (moved : tracker.value ≠ bookmark.value) :
    table.rank bookmark.value < table.rank tracker.value := by
  refine lt_of_le_of_ne facts.tracked.above (fun same => moved ?_)
  exact (table.eq_of_rank_eq facts.before.isCursor facts.tracked.isCursor same).symm

/-- Nothing was seen above the old bookmark. -/
theorem seen_above {value : Value}
    (above : table.rank bookmark.value < table.rank value) :
    atValue table.column value state.seen = 0 ∧ atValue table.column value state.delivered = 0 := by
  have unseen : forall row, row ∈ state.seen -> cursorOf table.column row ≠ some value := by
    intro row member cursor
    rcases facts.before.seen_cursor row member with ⟨other, otherCursor, below⟩
    rw [cursor] at otherCursor
    rw [← Option.some.inj otherCursor] at below
    exact absurd (lt_of_le_of_lt below above) (lt_irrefl _)
  constructor
  · refine Multiset.eq_zero_of_forall_notMem (fun row member => ?_)
    rcases (mem_atValue table.column value).mp member with ⟨inside, cursor⟩
    exact unseen row inside cursor
  · refine Multiset.eq_zero_of_forall_notMem (fun row member => ?_)
    rcases (mem_atValue table.column value).mp member with ⟨inside, cursor⟩
    exact unseen row (facts.before.delivered_seen row inside) cursor

/-- No row of the read lies below the old bookmark. -/
theorem page_below {value : Value}
    (below : table.rank value < table.rank bookmark.value) :
    atValue table.column value (page : Multiset Value) = 0 := by
  refine Multiset.eq_zero_of_forall_notMem (fun row member => ?_)
  rcases (mem_atValue table.column value).mp member with ⟨inside, cursor⟩
  rcases facts.page_cursor row inside with ⟨other, otherCursor, above⟩
  rw [cursor] at otherCursor
  rw [← Option.some.inj otherCursor] at above
  exact absurd (lt_of_le_of_lt above below) (lt_irrefl _)

/-- At the old bookmark, with its boundary kept, the read delivers exactly the
copies that were missing. -/
theorem delivered_at_start
    (kept : bookmark.boundary ≠ none) :
    atValue table.column bookmark.value (state.delivered + (admitted : Multiset Value)) =
      atValue table.column bookmark.value (state.seen ∪ (page : Multiset Value)) := by
  cases shape : bookmark.boundary with
  | none => exact absurd shape kept
  | some texts =>
      have atStart := facts.tracked.atStart
      simp only [shape] at atStart
      rw [atValue_add, atStart, atValue_union, (facts.before.boundary texts shape).2, Multiset.union_comm,
        Multiset.union_def, Multiset.add_comm]

/-- At any other value the read delivers every row. -/
theorem delivered_elsewhere
    {value : Value} (different : value ≠ bookmark.value)
    (same : atValue table.column value state.delivered = atValue table.column value state.seen) :
    atValue table.column value (state.delivered + (admitted : Multiset Value)) =
      atValue table.column value (state.seen ∪ (page : Multiset Value)) := by
  rw [atValue_add, atValue_union, facts.tracked.beyond value different, same]
  by_cases empty : atValue table.column value (page : Multiset Value) = 0
  · rw [empty, Multiset.add_zero, Multiset.union_zero]
  · rcases Multiset.exists_mem_of_ne_zero empty with ⟨row, member⟩
    rcases (mem_atValue table.column value).mp member with ⟨inside, cursor⟩
    rcases facts.page_cursor row inside with ⟨other, otherCursor, above⟩
    rw [cursor] at otherCursor
    rw [← Option.some.inj otherCursor] at above
    have stored := facts.rows row (Multiset.mem_of_le facts.page_le inside)
    have strictly : table.rank bookmark.value < table.rank value := by
      refine lt_of_le_of_ne above (fun equal => different ?_)
      exact (table.eq_of_rank_eq facts.before.isCursor (Or.inr ⟨row, stored, cursor⟩) equal).symm
    rw [(facts.seen_above strictly).1, Multiset.zero_add, Multiset.zero_union]

theorem seen_le :
    state.seen ∪ (page : Multiset Value) ≤ snapshot :=
  Multiset.union_le (le_trans facts.before.seen_le facts.grows) facts.page_le

/-- Below the new bookmark every row of the table has been seen. -/
theorem covered {value : Value}
    (inside : table.rank table.initial ≤ table.rank value)
    (below : table.rank value < table.rank tracker.value) :
    atValue table.column value snapshot =
      atValue table.column value (state.seen ∪ (page : Multiset Value)) := by
  rw [atValue_union]
  rcases lt_or_ge (table.rank value) (table.rank bookmark.value) with early | late
  · rw [facts.page_below early, Multiset.union_zero, facts.gained value early,
      facts.before.covered value inside early]
  · have read := facts.complete value late below
    rw [← read]
    refine le_antisymm (Multiset.le_union_right) (Multiset.union_le ?_ (le_refl _))
    exact atValue_mono _ _ (le_trans facts.before.seen_le facts.grows)

theorem lossless (value : Value) :
    atValue table.column value (state.seen ∪ (page : Multiset Value)) ≤
      atValue table.column value (state.delivered + (admitted : Multiset Value)) := by
  by_cases same : value = bookmark.value
  · subst same
    by_cases kept : bookmark.boundary = none
    · have atStart := facts.tracked.atStart
      simp only [kept] at atStart
      rw [atValue_add, atValue_union, atStart]
      exact le_trans (Multiset.union_le_add _ _)
        (Multiset.add_le_add_right (facts.before.lossless bookmark.value))
    · exact le_of_eq (facts.delivered_at_start kept).symm
  · rw [atValue_add, atValue_union, facts.tracked.beyond value same]
    exact le_trans (Multiset.union_le_add _ _)
      (Multiset.add_le_add_right (facts.before.lossless value))

theorem exactly (value : Value)
    (few : Multiset.card (atValue table.column value snapshot) ≤ MAX_BOUNDARY_ROWS) :
    atValue table.column value (state.delivered + (admitted : Multiset Value)) =
      atValue table.column value (state.seen ∪ (page : Multiset Value)) := by
  have fewBefore : Multiset.card (atValue table.column value state.snapshot) ≤ MAX_BOUNDARY_ROWS :=
    le_trans (Multiset.card_le_card (atValue_mono _ _ facts.grows)) few
  by_cases same : value = bookmark.value
  · subst same
    apply facts.delivered_at_start
    intro dropped
    exact absurd (lt_of_lt_of_le (facts.before.overflow dropped) fewBefore) (lt_irrefl _)
  · exact facts.delivered_elsewhere same (facts.before.exactly value fewBefore)

/-- The boundary of the new bookmark holds the rows delivered at its value. -/
theorem boundary
    (fingerprints : Multiset String) (found : tracker.boundary = some fingerprints) :
    fingerprints = (atValue table.column tracker.value
        (state.delivered + (admitted : Multiset Value))).map rowFingerprint ∧
      atValue table.column tracker.value (state.delivered + (admitted : Multiset Value)) =
        atValue table.column tracker.value (state.seen ∪ (page : Multiset Value)) := by
  rcases facts.tracked.counts.counted fingerprints found with ⟨counted, _, kept⟩
  by_cases moved : tracker.value = bookmark.value
  · rw [if_pos moved, moved] at counted
    rw [moved, atValue_add]
    refine ⟨counted, ?_⟩
    rw [← atValue_add]
    exact facts.delivered_at_start (fun dropped => kept ⟨moved, dropped⟩)
  · have fresh := facts.seen_above (facts.start_lt_of_moved moved)
    rw [if_neg moved, Multiset.zero_add] at counted
    refine ⟨?_, facts.delivered_elsewhere moved (fresh.2.trans fresh.1.symm)⟩
    rw [atValue_add, fresh.2, Multiset.zero_add]
    exact counted

theorem overflow
    (dropped : tracker.boundary = none) :
    MAX_BOUNDARY_ROWS < Multiset.card (atValue table.column tracker.value snapshot) := by
  have carried := atValue_mono table.column bookmark.value facts.grows
  rcases facts.tracked.counts.overflow dropped with ⟨unmoved, before⟩ | exceeded
  · rw [unmoved]
    exact lt_of_lt_of_le (facts.before.overflow before) (Multiset.card_le_card carried)
  · by_cases moved : tracker.value = bookmark.value
    · by_cases kept : bookmark.boundary = none
      · rw [moved]
        exact lt_of_lt_of_le (facts.before.overflow kept) (Multiset.card_le_card carried)
      · rw [if_pos moved, moved, ← atValue_add, facts.delivered_at_start kept] at exceeded
        rw [moved]
        exact lt_of_lt_of_le exceeded (Multiset.card_le_card (atValue_mono _ _ facts.seen_le))
    · rw [if_neg moved, Multiset.zero_add, facts.tracked.beyond _ moved] at exceeded
      exact lt_of_lt_of_le exceeded (Multiset.card_le_card (atValue_mono _ _ facts.page_le))

/-- One read keeps the invariant. -/
theorem after :
    Lossless table
      ⟨snapshot, tracker.bookmark.toValue, state.seen ∪ (page : Multiset Value),
        state.delivered + (admitted : Multiset Value)⟩ tracker.bookmark where
  reloaded := CursorBookmark.fromState_toValue _ facts.tracked.present
  isCursor := facts.tracked.isCursor
  present := facts.tracked.present
  rows := facts.rows
  seen_le := facts.seen_le
  seen_cursor := by
    intro row member
    rcases Multiset.mem_union.mp member with old | fresh
    · rcases facts.before.seen_cursor row old with ⟨value, cursor, below⟩
      exact ⟨value, cursor, le_trans below facts.tracked.above⟩
    · rcases facts.page_cursor row fresh with ⟨value, cursor, _⟩
      exact ⟨value, cursor, facts.tracked.below row fresh value cursor⟩
  delivered_seen := by
    intro row member
    rcases Multiset.mem_add.mp member with old | fresh
    · exact Multiset.mem_union.mpr (Or.inl (facts.before.delivered_seen row old))
    · exact Multiset.mem_union.mpr (Or.inr (facts.tracked.subset row fresh))
  covered := fun value inside below => facts.covered inside below
  lossless := facts.lossless
  exactly := facts.exactly
  boundary := by
    intro texts found
    cases shape : tracker.boundary with
    | none =>
        simp only [CursorTracker.bookmark, shape, Option.map_none, reduceCtorEq] at found
    | some fingerprints =>
        simp only [CursorTracker.bookmark, shape, Option.map_some, Option.some.injEq] at found
        rw [← found, Multiset.sort_eq]
        exact facts.boundary fingerprints shape
  overflow := by
    intro dropped
    refine facts.overflow ?_
    cases shape : tracker.boundary with
    | none => rfl
    | some fingerprints =>
        simp only [CursorTracker.bookmark, shape, Option.map_some, reduceCtorEq] at dropped

end ReadFacts

end Step

theorem reachable_lossless {table : CursorTable O} {state : ReadState} (reached : Reachable table state) :
    exists bookmark, Lossless table state bookmark := by
  induction reached with
  | start snapshot rows => exact ⟨_, start_lossless table snapshot rows⟩
  | read reached reloaded arrived rows answer cut ih =>
      rcases ih with ⟨bookmark, before⟩
      have same := before.reloaded
      rw [reloaded] at same
      cases same
      exact ⟨_, (readFacts before rows answer).after⟩

theorem count_atValue {column : String} {row value : Value} (cursor : cursorOf column row = some value)
    (rows : Multiset Value) : (atValue column value rows).count row = rows.count row :=
  Multiset.count_filter_of_pos cursor

theorem Lossless.count_seen_le {table : CursorTable O} {state : ReadState} {bookmark : CursorBookmark}
    (kept : Lossless table state bookmark) (row : Value) :
    state.seen.count row ≤ state.delivered.count row := by
  by_cases member : row ∈ state.seen
  · rcases kept.seen_cursor row member with ⟨value, cursor, _⟩
    rw [← count_atValue cursor, ← count_atValue cursor state.delivered]
    exact Multiset.le_iff_count.mp (kept.lossless value) row
  · rw [Multiset.count_eq_zero_of_notMem member]
    exact Nat.zero_le _

/-- After any sequence of reads the stored bookmark loads; every row of the
table between the initial value and the bookmark, and every row a read
returned, has been delivered; and as long as no cursor value has more rows
than a bookmark holds, each of them was delivered exactly once. -/
theorem cursor_resume (table : CursorTable O) (state : ReadState) (reached : Reachable table state) :
    (exists bookmark, CursorBookmark.fromState state.stored = .ok bookmark ∧
      state.snapshot.filter (fun row => table.selects table.initial row = true ∧
        table.selects bookmark.value row = false) ≤ state.delivered) ∧
      state.seen ≤ state.delivered ∧
      ((forall value, Multiset.card (atValue table.column value state.snapshot) ≤ MAX_BOUNDARY_ROWS) ->
        state.delivered = state.seen) := by
  rcases reachable_lossless reached with ⟨bookmark, kept⟩
  refine ⟨⟨bookmark, kept.reloaded, ?_⟩, ?_, ?_⟩
  · refine Multiset.le_iff_count.mpr (fun row => ?_)
    rw [Multiset.count_filter]
    split
    · next passed =>
      rcases (table.selects_iff table.initial row).mp passed.1 with ⟨value, cursor, inside⟩
      have below : table.rank value < table.rank bookmark.value := by
        refine lt_of_not_ge (fun above => ?_)
        rw [(table.selects_iff bookmark.value row).mpr ⟨value, cursor, above⟩] at passed
        cases passed.2
      rw [← count_atValue cursor, kept.covered value inside below, count_atValue cursor]
      exact kept.count_seen_le row
    · exact Nat.zero_le _
  · exact Multiset.le_iff_count.mpr kept.count_seen_le
  · intro few
    ext row
    by_cases member : row ∈ state.seen
    · rcases kept.seen_cursor row member with ⟨value, cursor, _⟩
      rw [← count_atValue cursor, kept.exactly value (few value), count_atValue cursor]
    · rw [Multiset.count_eq_zero_of_notMem member, Multiset.count_eq_zero_of_notMem]
      exact fun delivered => member (kept.delivered_seen row delivered)

end Reads

/-! ## Two reads at one value -/

def earlyRow : Value := .object [("id", .number (.int 1)), ("seq", .number (.int 5))]

def lateRow : Value := .object [("id", .number (.int 2)), ("seq", .number (.int 5))]

/-- Two rows that share their cursor, of which the second may arrive after the
first was read. -/
def sharedCursor : CursorTable Int where
  column := "seq"
  rows := {row | row ∈ [earlyRow, lateRow]}
  rank := fun value => value.asI64.getD 0
  initial := .number (.int 0)
  initial_present := rfl
  rank_injective := by
    have cursors : forall value, (value = .number (.int 0) ∨ exists row, row ∈ [earlyRow, lateRow] ∧
        cursorOf "seq" row = some value) -> value = .number (.int 0) ∨ value = .number (.int 5) := by
      rintro value (rfl | ⟨row, member, cursor⟩)
      · exact Or.inl rfl
      · refine Or.inr ?_
        rcases List.mem_cons.mp member with rfl | member
        · exact (Option.some.inj cursor).symm
        · rw [List.mem_singleton.mp member] at cursor
          exact (Option.some.inj cursor).symm
    intro left leftMember right rightMember same
    rcases cursors left leftMember with rfl | rfl <;> rcases cursors right rightMember with rfl | rfl
    · rfl
    · exact absurd same (by decide)
    · exact absurd same (by decide)
    · rfl
  fingerprint_injective := by
    have different : rowFingerprint earlyRow ≠ rowFingerprint lateRow := by decide +kernel
    intro left leftMember right rightMember same
    have two : forall row, row ∈ [earlyRow, lateRow] -> row = earlyRow ∨ row = lateRow := by
      intro row member
      rcases List.mem_cons.mp member with first | rest
      · exact Or.inl first
      · exact Or.inr (List.mem_singleton.mp rest)
    rcases two left leftMember with rfl | rfl <;> rcases two right rightMember with rfl | rfl
    · rfl
    · exact absurd same different
    · exact absurd same.symm different
    · rfl

/-- The second row arrives at the boundary after the first was delivered, and
the resumed read delivers it alone. -/
theorem cursor_resume_sharedCursor :
    exists state : ReadState, Reachable sharedCursor state ∧ state.snapshot = {earlyRow, lateRow} ∧
      state.seen ≤ state.delivered := by
  have start : Reachable sharedCursor ⟨{earlyRow}, (CursorBookmark.initial sharedCursor.initial).toValue, 0, 0⟩ := by
    refine Reachable.start {earlyRow} (fun row member => ?_)
    rw [Multiset.mem_singleton.mp member]
    exact List.mem_cons_self
  have firstAnswer : Returned sharedCursor (.number (.int 0)) ({earlyRow} + 0) [earlyRow] :=
    ⟨by decide, List.pairwise_singleton _ _⟩
  have first := Reachable.read start (CursorBookmark.fromState_toValue _ rfl) 0
    (fun row impossible => absurd impossible (Multiset.notMem_zero row)) firstAnswer 1
  have secondAnswer : Returned sharedCursor (.number (.int 5)) ({earlyRow} + 0 + {lateRow})
      [lateRow, earlyRow] := by
    refine ⟨by decide, List.pairwise_pair.mpr ?_⟩
    intro leftValue rightValue leftCursor rightCursor
    cases leftCursor
    cases rightCursor
    exact le_refl _
  have second := Reachable.read first (CursorBookmark.fromState_toValue _ rfl) {lateRow}
    (fun row member => by
      rw [Multiset.mem_singleton.mp member]
      exact ⟨List.mem_cons_of_mem _ List.mem_cons_self, by decide⟩) secondAnswer 2
  exact ⟨_, second, by decide, (cursor_resume sharedCursor _ second).2.1⟩

end Replication
end FaucetStream
