import Mathlib.Data.Nat.Basic
import Mathlib.Order.Lattice
import FaucetStream.Mirror.Demux

namespace FaucetStream
namespace Mirror

/-!
# What the demultiplexer delivers

A change log is a list of records with positions.  A table is sent the records
of the log that are its own and lie after its position, in log order, up to the
last page read; and a bookmark only once every record up to it was sent or had
been applied before.
-/

universe u v

variable {Record : Type u} {Position : Type v}

def recordsOf (pages : List (StreamPage Record Position)) : List Record := pages.flatMap StreamPage.records

theorem recordsOf_append (first second : List (StreamPage Record Position)) :
    recordsOf (first ++ second) = recordsOf first ++ recordsOf second := List.flatMap_append

theorem recordsOf_concat (pages : List (StreamPage Record Position)) (page : StreamPage Record Position) :
    recordsOf (pages ++ [page]) = recordsOf pages ++ page.records := by
  rw [recordsOf_append]
  simp [recordsOf]

variable {source : Source Record Position} {router : Router}

namespace FeedState

/-- The records for the table among those read. -/
def wanted (source : Source Record Position) (router : Router) (state : FeedState Record Position)
    (records : List Record) : List Record :=
  state.retain source (bucket source router state.table records)

theorem wanted_append (state : FeedState Record Position) (first second : List Record) :
    state.wanted source router (first ++ second) =
      state.wanted source router first ++ state.wanted source router second := by
  unfold wanted bucket retain
  cases state.position with
  | none => exact List.filter_append first second
  | some bound =>
      simp only
      rw [List.filter_append, List.filter_append]

/-- Sending keeps the table and its position. -/
theorem send_frame (state : FeedState Record Position) (page : StreamPage Record Position) (taken : Bool) (now : Nat) :
    (state.send page taken now).table = state.table ∧ (state.send page taken now).position = state.position := by
  unfold send
  dsimp only
  split
  · exact ⟨rfl, rfl⟩
  · split
    · exact ⟨rfl, rfl⟩
    · split <;> exact ⟨rfl, rfl⟩

/-- A page sent is taken by a live table, or the table dies. -/
theorem send_cases (state : FeedState Record Position) (page : StreamPage Record Position) (taken : Bool) (now : Nat) :
    (state.tx = false ∧ state.send page taken now = state) ∨
      (state.tx = true ∧ taken = false ∧ (state.send page taken now).tx = false ∧
        (state.send page taken now).received = state.received) ∨
      (state.tx = true ∧ (state.send page taken now).tx = true ∧
        (state.send page taken now).received = state.received ++ [page]) := by
  unfold send
  dsimp only
  cases alive : state.tx with
  | false => exact .inl ⟨rfl, rfl⟩
  | true =>
      cases taken with
      | false => exact .inr (.inl ⟨rfl, rfl, rfl, rfl⟩)
      | true =>
          refine .inr (.inr ⟨rfl, ?_, ?_⟩)
          · simp only [Bool.not_true, Bool.false_eq_true, if_false]
            split
            · rfl
            · exact alive
          · simp only [Bool.not_true, Bool.false_eq_true, if_false]

theorem offer_frame (state : FeedState Record Position) (page : StreamPage Record Position) (records : List Record)
    (taken : Bool) (now : Nat) :
    (state.offer source page records taken now).table = state.table ∧
      (state.offer source page records taken now).position = state.position := by
  unfold offer
  dsimp only
  split
  · exact ⟨rfl, rfl⟩
  · split
    · exact ⟨rfl, rfl⟩
    · exact state.send_frame _ taken now

theorem finish_frame [DecidableEq Position] (state : FeedState Record Position) (last : Position) (taken : Bool)
    (now : Nat) :
    (state.finish source last taken now).table = state.table ∧
      (state.finish source last taken now).position = state.position := by
  unfold finish
  split
  · exact state.send_frame _ taken now
  · exact ⟨rfl, rfl⟩

end FeedState

/-- The tables of a cycle, with their positions. -/
def standing (states : List (FeedState Record Position)) : List (String × Option Position) :=
  states.map (fun state => (state.table, state.position))

theorem standing_tables (states : List (FeedState Record Position)) :
    (standing states).map Prod.fst = states.map FeedState.table := by
  rw [standing, List.map_map]
  rfl

/-- Every table is offered its own records. -/
theorem offerAll_eq_map {schedule : Schedule} {index : Nat} {page : StreamPage Record Position}
    {states : List (FeedState Record Position)} (distinct : (states.map FeedState.table).Nodup)
    (buckets : String -> List Record) :
    offerAll source schedule index page buckets states =
      states.map (fun state => state.offer source page (buckets state.table) (schedule.takes index state.table)
        (schedule.now index state.table)) := by
  induction states generalizing buckets with
  | nil => rfl
  | cons state rest ih =>
      rw [List.map_cons, List.nodup_cons] at distinct
      rw [offerAll, ih distinct.2, List.map_cons]
      congr 1
      apply List.map_congr_left
      intro other member
      have different : other.table ≠ state.table := by
        intro same
        apply distinct.1
        rw [← same]
        exact List.mem_map_of_mem member
      rw [Function.update_of_ne different]

theorem mem_openStates {schedule : Schedule} {feeds : List (TableFeed Position)} {state : FeedState Record Position}
    (member : state ∈ openStates schedule feeds) :
    exists feed, feed ∈ feeds ∧ feed.ready = some state.position ∧ state.table = feed.table ∧ state.tx = true ∧
      state.received = [] := by
  rcases List.mem_filterMap.mp member with ⟨feed, found, same⟩
  rcases Option.map_eq_some_iff.mp same with ⟨reported, ready, rfl⟩
  exact ⟨feed, found, ready, rfl, rfl, rfl⟩

theorem opened_of_ready (schedule : Schedule) {feeds : List (TableFeed Position)} {feed : TableFeed Position}
    (member : feed ∈ feeds) {reported : Option Position} (ready : feed.ready = some reported) :
    ({ table := feed.table, position := reported, lastSentAt := schedule.openedAt feed.table } :
      FeedState Record Position) ∈ openStates schedule feeds :=
  List.mem_filterMap.mpr ⟨feed, member, by rw [ready]; rfl⟩

theorem openStates_tables (schedule : Schedule) {feeds : List (TableFeed Position)}
    (distinct : (feeds.map TableFeed.table).Nodup) :
    ((openStates schedule feeds : List (FeedState Record Position)).map FeedState.table).Nodup := by
  refine List.Nodup.sublist ?_ distinct
  rw [openStates]
  clear distinct
  induction feeds with
  | nil => exact List.Sublist.slnil
  | cons feed rest ih =>
      rw [List.filterMap_cons, List.map_cons]
      cases feed.ready with
      | none => exact ih.cons _
      | some reported => exact ih.cons_cons _

theorem standing_openStates (schedule : Schedule) (feeds : List (TableFeed Position)) :
    standing (openStates schedule feeds : List (FeedState Record Position)) =
      feeds.filterMap (fun feed => feed.ready.map (fun reported => (feed.table, reported))) := by
  rw [standing, openStates, List.map_filterMap]
  apply List.filterMap_congr
  intro feed _
  cases feed.ready <;> rfl

/-- Every position the stream has to serve: those of the tables that opened,
the committed ones of those that did not, and the floors. -/
structure EveryPosition (feeds : List (TableFeed Position)) (floors : List Position)
    (committed : List (String × Position)) (good : Position -> Prop) : Prop where
  opened : forall feed, feed ∈ feeds -> forall bound, feed.ready = some (some bound) -> good bound
  unopened : forall feed, feed ∈ feeds -> feed.ready = none -> forall bound,
    committed.lookup feed.table = some bound -> good bound
  floors : forall floor, floor ∈ floors -> good floor

theorem everyPosition {schedule : Schedule} {feeds : List (TableFeed Position)} {floors : List Position}
    {committed : List (String × Position)} {good : Position -> Prop}
    (all : forall other, other ∈ (openStates schedule feeds : List (FeedState Record Position)).filterMap
      FeedState.position ++ (floors ++ heldBack feeds committed) -> good other) :
    EveryPosition feeds floors committed good := by
  constructor
  · intro feed member bound ready
    apply all
    apply List.mem_append_left
    exact List.mem_filterMap.mpr ⟨_, opened_of_ready schedule member ready, rfl⟩
  · intro feed member ready bound found
    apply all
    apply List.mem_append_right
    apply List.mem_append_right
    refine List.mem_filterMap.mpr ⟨feed, member, ?_⟩
    rw [ready]
    exact found
  · intro floor member
    apply all
    exact List.mem_append_right _ (List.mem_append_left _ member)

/-! ## The log and its replay -/

variable [LinearOrder Position]

/-- The source orders positions and knows which records they cover. -/
structure Source.Lawful (source : Source Record Position) (position : Record -> Position) : Prop where
  le : forall first second, source.positionLe first second = some (decide (first ≤ second))
  covered : forall record bound, source.recordCovered record bound = some (decide (position record ≤ bound))
  least : forall positions, positions ≠ [] ->
    exists start, start ∈ positions ∧ source.positionMin positions = some start ∧
      forall other, other ∈ positions -> start ≤ other

theorem exists_least {positions : List Position} (nonempty : positions ≠ []) :
    exists start, start ∈ positions ∧ forall other, other ∈ positions -> start ≤ other := by
  induction positions with
  | nil => exact absurd rfl nonempty
  | cons first rest ih =>
      by_cases single : rest = []
      · refine ⟨first, List.mem_cons_self, ?_⟩
        intro other member
        rw [single, List.mem_singleton] at member
        exact le_of_eq member.symm
      · rcases ih single with ⟨start, member, least⟩
        rcases le_total first start with below | above
        · refine ⟨first, List.mem_cons_self, ?_⟩
          intro other found
          rcases List.mem_cons.mp found with rfl | later
          · exact le_refl _
          · exact le_trans below (least other later)
        · refine ⟨start, List.mem_cons_of_mem first member, ?_⟩
          intro other found
          rcases List.mem_cons.mp found with rfl | later
          · exact above
          · exact least other later

/-- The default `position_min` finds the least position. -/
theorem defaultPositionMin_least {positionLe : Position -> Position -> Option Bool}
    (le : forall first second, positionLe first second = some (decide (first ≤ second))) (positions : List Position)
    (nonempty : positions ≠ []) :
    exists start, start ∈ positions ∧ defaultPositionMin positionLe positions = some start ∧
      forall other, other ∈ positions -> start ≤ other := by
  rcases exists_least nonempty with ⟨least, member, below⟩
  cases positions with
  | nil => exact absurd rfl nonempty
  | cons first rest =>
      rw [defaultPositionMin]
      split
      · next equal =>
        rw [List.all_eq_true] at equal
        refine ⟨first, List.mem_cons_self, rfl, ?_⟩
        intro other found
        exact le_of_eq (of_decide_eq_true (equal other found)).symm
      · have accepts : ((first :: rest).all (fun other => positionLe least other == some true)) = true := by
          rw [List.all_eq_true]
          intro other found
          rw [le, decide_eq_true (below other found)]
          rfl
        have answers : ((first :: rest).find? (fun candidate =>
            (first :: rest).all (fun other => positionLe candidate other == some true))).isSome = true :=
          List.find?_isSome.mpr ⟨least, member, accepts⟩
        rcases Option.isSome_iff_exists.mp answers with ⟨start, found⟩
        refine ⟨start, List.mem_of_find?_eq_some found, found, ?_⟩
        intro other present
        have chosen := List.find?_some found
        rw [List.all_eq_true] at chosen
        have all := chosen other present
        rw [le] at all
        simpa using all

/-- The pages replay the log from some point at or before `start`, cut
anywhere; a bookmark covers the pages up to its own and nothing after. -/
structure Replays (position : Record -> Position) (log : List Record) (start : Option Position)
    (pages : List (StreamPage Record Position)) (skipped : Nat) : Prop where
  behind : forall bound, start = some bound -> forall record, record ∈ log.take skipped -> position record ≤ bound
  order : recordsOf pages <+: log.drop skipped
  bookmark : forall before page after, pages = before ++ page :: after -> forall bookmark,
    page.bookmark = some bookmark -> (forall record, record ∈ page.records -> position record ≤ bookmark) ∧
      forall record, record ∈ log.drop (skipped + (recordsOf (before ++ [page])).length) -> bookmark < position record

variable {position : Record -> Position} {log : List Record} {skipped : Nat} {schedule : Schedule}

namespace FeedState

/-- The table had applied the record before the cycle. -/
def Applied (position : Record -> Position) (state : FeedState Record Position) (record : Record) : Prop :=
  exists bound, state.position = some bound ∧ position record ≤ bound

theorem mem_wanted (lawful : source.Lawful position) {state : FeedState Record Position} {records : List Record}
    {record : Record} : record ∈ state.wanted source router records <->
      record ∈ records ∧ source.routeOf router record = some (.active state.table) ∧
        ¬ state.Applied position record := by
  unfold wanted bucket retain Applied
  cases state.position with
  | none => simp
  | some bound =>
      simp only [List.mem_filter, lawful.covered, beq_iff_eq, bne_iff_ne, ne_eq, Option.some.injEq, decide_eq_true_eq,
        exists_eq_left']
      exact and_assoc

theorem covers_eq_true (lawful : source.Lawful position) {state : FeedState Record Position}
    {bookmark : Option Position} (covers : state.covers source bookmark = true) :
    exists mark bound, bookmark = some mark ∧ state.position = some bound ∧ mark ≤ bound := by
  unfold FeedState.covers at covers
  split at covers
  · next mark bound found =>
    rw [lawful.le] at covers
    exact ⟨mark, bound, rfl, found, by simpa using covers⟩
  · cases covers

end FeedState

/-! ## One table -/

/-- What a table got of the pages read so far: everything it wants of them, or
of those before the one it did not take; and no bookmark too early. -/
structure Served (source : Source Record Position) (router : Router) (position : Record -> Position) (log : List Record)
    (skipped : Nat) (schedule : Schedule) (read : List (StreamPage Record Position))
    (state : FeedState Record Position) : Prop where
  alive : state.tx = true -> recordsOf state.received = state.wanted source router (recordsOf read)
  died : state.tx = false -> exists count, count ≤ read.length ∧ schedule.takes count state.table = false ∧
    recordsOf state.received = state.wanted source router (recordsOf (read.take count))
  backed : forall before page after, state.received = before ++ page :: after -> forall bookmark,
    page.bookmark = some bookmark -> forall record, record ∈ log.drop skipped ->
    source.routeOf router record = some (.active state.table) -> position record ≤ bookmark ->
    state.Applied position record ∨ record ∈ recordsOf (before ++ [page])

namespace Served

variable {read : List (StreamPage Record Position)} {page : StreamPage Record Position}
  {state : FeedState Record Position}

theorem start (fresh : state.received = []) (alive : state.tx = true) :
    Served source router position log skipped schedule [] state := by
  constructor
  · intro _
    rw [fresh]
    unfold FeedState.wanted bucket FeedState.retain
    cases state.position with
    | none => rfl
    | some bound => rfl
  · intro dead
    rw [alive] at dead
    cases dead
  · intro before page after split
    rw [fresh] at split
    cases before <;> cases split

/-- A page that holds nothing for the table, and is not sent to it. -/
theorem pass (served : Served source router position log skipped schedule read state)
    (nothing : state.wanted source router page.records = []) :
    Served source router position log skipped schedule (read ++ [page]) state := by
  constructor
  · intro alive
    rw [recordsOf_concat, FeedState.wanted_append, nothing, List.append_nil]
    exact served.alive alive
  · intro dead
    rcases served.died dead with ⟨count, bound, refused, same⟩
    refine ⟨count, ?_, refused, ?_⟩
    · rw [List.length_append]
      omega
    · rw [List.take_append_of_le_length bound]
      exact same
  · exact served.backed

/-- A page, perhaps without records, that is sent to the table. -/
theorem send (served : Served source router position log skipped schedule read state)
    (more : List (StreamPage Record Position)) {bookmark : Option Position}
    (complete : forall mark, bookmark = some mark -> forall record, record ∈ log.drop skipped ->
      position record ≤ mark -> record ∈ recordsOf (read ++ more)) (lawful : source.Lawful position) (now : Nat) :
    Served source router position log skipped schedule (read ++ more)
      (state.send ⟨state.wanted source router (recordsOf more), bookmark⟩ (schedule.takes read.length state.table)
        now) := by
  have frame := state.send_frame ⟨state.wanted source router (recordsOf more), bookmark⟩
    (schedule.takes read.length state.table) now
  have cases := state.send_cases ⟨state.wanted source router (recordsOf more), bookmark⟩
    (schedule.takes read.length state.table) now
  generalize state.send ⟨state.wanted source router (recordsOf more), bookmark⟩
    (schedule.takes read.length state.table) now = next at frame cases ⊢
  have wants : forall records, next.wanted source router records = state.wanted source router records := by
    intro records
    unfold FeedState.wanted FeedState.retain
    rw [frame.1, frame.2]
  have applied : forall record, next.Applied position record <-> state.Applied position record := by
    intro record
    unfold FeedState.Applied
    rw [frame.2]
  rcases cases with ⟨dead, same⟩ | ⟨alive, refused, dies, kept⟩ | ⟨alive, stays, taken⟩
  · subst same
    constructor
    · intro alive
      rw [dead] at alive
      cases alive
    · intro _
      rcases served.died dead with ⟨count, bound, refused, same⟩
      refine ⟨count, ?_, refused, ?_⟩
      · rw [List.length_append]
        omega
      · rw [List.take_append_of_le_length bound]
        exact same
    · exact served.backed
  · constructor
    · intro lives
      rw [dies] at lives
      cases lives
    · intro _
      refine ⟨read.length, ?_, ?_, ?_⟩
      · rw [List.length_append]
        omega
      · rw [frame.1]
        exact refused
      · rw [List.take_left, wants, kept]
        exact served.alive alive
    · intro before page after split mark found record member routed bound
      rw [kept] at split
      rw [frame.1] at routed
      rw [applied]
      exact served.backed before page after split mark found record member routed bound
  · have whole : recordsOf next.received = next.wanted source router (recordsOf (read ++ more)) := by
      rw [taken, recordsOf_concat, wants, recordsOf_append, FeedState.wanted_append, served.alive alive]
    constructor
    · intro _
      exact whole
    · intro dies
      rw [stays] at dies
      cases dies
    · intro before page after split mark found record member routed bound
      rw [frame.1] at routed
      rw [applied]
      rw [taken] at split
      rcases List.eq_nil_or_concat after with rfl | ⟨init, last, rfl⟩
      · rcases List.append_inj' split rfl with ⟨rfl, same⟩
        cases same
        by_cases early : state.Applied position record
        · exact .inl early
        · right
          rw [← taken, whole, wants]
          exact (FeedState.mem_wanted lawful).mpr ⟨complete mark found record member bound, routed, early⟩
      · rw [List.concat_eq_append, ← List.cons_append, ← List.append_assoc] at split
        rcases List.append_inj' split rfl with ⟨same, _⟩
        exact served.backed before page init same mark found record member routed bound

/-- One page of the replay. -/
theorem offer (served : Served source router position log skipped schedule read state) (lawful : source.Lawful position)
    (within : forall mark, page.bookmark = some mark -> forall record, record ∈ page.records -> position record ≤ mark)
    (complete : forall mark, page.bookmark = some mark -> forall record, record ∈ log.drop skipped ->
      position record ≤ mark -> record ∈ recordsOf (read ++ [page])) (now : Nat) :
    Served source router position log skipped schedule (read ++ [page])
      (state.offer source page (bucket source router state.table page.records)
        (schedule.takes read.length state.table) now) := by
  have single : recordsOf [page] = page.records := List.flatMap_singleton _ _
  have sent := served.send [page] complete lawful now
  rw [single] at sent
  unfold FeedState.offer
  dsimp only
  split
  · next covers =>
    rcases FeedState.covers_eq_true lawful covers with ⟨mark, bound, marked, stands, below⟩
    apply served.pass
    apply List.eq_nil_iff_forall_not_mem.mpr
    intro record member
    rcases (FeedState.mem_wanted lawful).mp member with ⟨inside, _, fresh⟩
    exact fresh ⟨bound, stands, le_trans (within mark marked record inside) below⟩
  · split
    · next idle =>
      rw [Bool.and_eq_true, List.isEmpty_iff] at idle
      exact served.pass idle.1
    · exact sent

/-- The last bookmark. -/
theorem finish (served : Served source router position log skipped schedule read state)
    (lawful : source.Lawful position) {last : Position}
    (complete : forall record, record ∈ log.drop skipped -> position record ≤ last -> record ∈ recordsOf read)
    (now : Nat) :
    Served source router position log skipped schedule read
      (state.finish source last (schedule.takes read.length state.table) now) := by
  unfold FeedState.finish
  split
  · have whole : forall mark, some last = some mark -> forall record, record ∈ log.drop skipped ->
        position record ≤ mark -> record ∈ recordsOf (read ++ []) := by
      intro mark same record member below
      cases same
      rw [List.append_nil]
      exact complete record member below
    have sent := served.send [] whole lawful now
    have nothing : state.wanted source router (recordsOf ([] : List (StreamPage Record Position))) = [] := by
      unfold FeedState.wanted FeedState.retain
      cases state.position <;> rfl
    rw [nothing, List.append_nil] at sent
    exact sent
  · exact served

end Served

/-! ## The cycle -/

/-- What holds at the head of the loop. -/
structure Reading (source : Source Record Position) (router : Router) (position : Record -> Position)
    (log : List Record)
    (skipped : Nat) (schedule : Schedule) (tables : List (String × Option Position))
    (cycle : Cycle Record Position) : Prop where
  served : forall state, state ∈ cycle.states -> Served source router position log skipped schedule cycle.read state
  standing : standing cycle.states = tables
  last : forall mark, cycle.lastBookmark = some mark -> forall record, record ∈ log.drop skipped ->
    position record ≤ mark -> record ∈ recordsOf cycle.read

/-- The records up to a bookmark are on the pages read. -/
theorem Replays.complete {start : Option Position} {read rest : List (StreamPage Record Position)}
    {page : StreamPage Record Position} (replays : Replays position log start (read ++ page :: rest) skipped)
    {mark : Position} (marked : page.bookmark = some mark) {record : Record} (member : record ∈ log.drop skipped)
    (below : position record ≤ mark) : record ∈ recordsOf (read ++ [page]) := by
  have leading : recordsOf (read ++ [page]) <+: log.drop skipped := by
    have order := replays.order
    rw [← List.singleton_append, ← List.append_assoc, recordsOf_append] at order
    exact (List.prefix_append _ _).trans order
  rw [List.prefix_iff_eq_take.mp leading]
  rw [← List.take_append_drop (recordsOf (read ++ [page])).length (log.drop skipped)] at member
  rcases List.mem_append.mp member with early | late
  · exact early
  · rw [List.drop_drop] at late
    have after := (replays.bookmark read page rest rfl mark marked).2 record late
    exact absurd below (not_le_of_gt after)

variable {tables : List (String × Option Position)} {cycle : Cycle Record Position}

theorem Reading.step {start : Option Position} {rest : List (StreamPage Record Position)}
    {page : StreamPage Record Position} (reading : Reading source router position log skipped schedule tables cycle)
    (lawful : source.Lawful position) (distinct : (tables.map Prod.fst).Nodup)
    (replays : Replays position log start (cycle.read ++ page :: rest) skipped) :
    Reading source router position log skipped schedule tables (cycle.step source router schedule page) := by
  rw [← reading.standing, standing_tables] at distinct
  have complete : forall mark, page.bookmark = some mark -> forall record, record ∈ log.drop skipped ->
      position record ≤ mark -> record ∈ recordsOf (cycle.read ++ [page]) :=
    fun mark marked record member below => replays.complete marked member below
  constructor
  · intro state member
    rw [Cycle.step, offerAll_eq_map distinct] at member
    rcases List.mem_map.mp member with ⟨old, found, rfl⟩
    exact (reading.served old found).offer lawful
      (fun mark marked => (replays.bookmark cycle.read page rest rfl mark marked).1) complete _
  · rw [← reading.standing, Cycle.step, offerAll_eq_map distinct, Mirror.standing, Mirror.standing, List.map_map]
    apply List.map_congr_left
    intro state _
    have frame := @FeedState.offer_frame _ _ source state page (bucket source router state.table page.records)
      (schedule.takes cycle.read.length state.table) (schedule.now cycle.read.length state.table)
    exact Prod.ext frame.1 frame.2
  · intro mark found record member below
    change (if page.bookmark.isSome then page.bookmark else cycle.lastBookmark) = some mark at found
    split at found
    · exact complete mark found record member below
    · rw [Cycle.step, recordsOf_concat]
      exact List.mem_append_left _ (reading.last mark found record member below)

theorem Reading.readPages {start : Option Position} {pages : List (StreamPage Record Position)}
    (reading : Reading source router position log skipped schedule tables cycle) (lawful : source.Lawful position)
    (distinct : (tables.map Prod.fst).Nodup)
    (replays : Replays position log start (cycle.read ++ pages) skipped) :
    Reading source router position log skipped schedule tables (cycle.readPages source router schedule pages) ∧
      (cycle.readPages source router schedule pages).read <+: cycle.read ++ pages := by
  induction pages generalizing cycle with
  | nil => exact ⟨reading, List.prefix_append _ _⟩
  | cons page rest ih =>
      have stepped := reading.step lawful distinct replays
      have same : cycle.read ++ page :: rest = (cycle.step source router schedule page).read ++ rest := by
        rw [Cycle.step, List.append_assoc]
        rfl
      rw [Cycle.readPages]
      split
      · exact ⟨reading, List.prefix_append _ _⟩
      · dsimp only
        split
        · rw [same] at replays ⊢
          exact ih stepped replays
        · rw [same]
          exact ⟨stepped, List.prefix_append _ _⟩

theorem Cycle.read_finish (cycle : Cycle Record Position) : (cycle.finish source schedule).read = cycle.read := by
  unfold Cycle.finish
  cases cycle.lastBookmark <;> rfl

theorem Reading.finish (reading : Reading source router position log skipped schedule tables cycle)
    (lawful : source.Lawful position) :
    Reading source router position log skipped schedule tables (cycle.finish source schedule) := by
  unfold Cycle.finish
  cases found : cycle.lastBookmark with
  | none => exact reading
  | some last =>
      constructor
      · intro state member
        rcases List.mem_map.mp member with ⟨old, present, rfl⟩
        exact (reading.served old present).finish lawful (reading.last last found) _
      · rw [← reading.standing, Mirror.standing, Mirror.standing, List.map_map]
        apply List.map_congr_left
        intro state _
        have frame := @FeedState.finish_frame _ _ source _ state last (schedule.takes cycle.read.length state.table)
          (schedule.now cycle.read.length state.table)
        exact Prod.ext frame.1 frame.2
      · intro mark marked
        exact reading.last mark (found.trans marked)

/-! ## The whole cycle -/

/-- A table that stood at `bound` got the log's records of it after `bound`, up
to the last page read or the one at which it died, and every bookmark after the
records it covers. -/
structure Delivered (source : Source Record Position) (router : Router) (position : Record -> Position)
    (log : List Record) (skipped : Nat) (schedule : Schedule) (read : List (StreamPage Record Position))
    (state : FeedState Record Position) (bound : Position) : Prop where
  records : exists count, (state.tx = true -> count = read.length) ∧
    (state.tx = false -> count ≤ read.length ∧ schedule.takes count state.table = false) ∧
    recordsOf state.received = (log.take (skipped + (recordsOf (read.take count)).length)).filter
      (fun record => source.routeOf router record == some (.active state.table) && decide (bound < position record))
  bookmarks : forall before page after, state.received = before ++ page :: after -> forall bookmark,
    page.bookmark = some bookmark -> forall record, record ∈ log ->
    source.routeOf router record = some (.active state.table) -> position record ≤ bookmark ->
    position record ≤ bound ∨ record ∈ recordsOf (before ++ [page])

theorem Served.delivered {read : List (StreamPage Record Position)} {state : FeedState Record Position}
    {bound : Position} (served : Served source router position log skipped schedule read state)
    (lawful : source.Lawful position) (order : recordsOf read <+: log.drop skipped)
    (behind : forall record, record ∈ log.take skipped -> position record ≤ bound)
    (stands : state.position = some bound) :
    Delivered source router position log skipped schedule read state bound := by
  have wants : forall count, state.wanted source router (recordsOf (read.take count)) =
      (log.take (skipped + (recordsOf (read.take count)).length)).filter
        (fun record => source.routeOf router record == some (.active state.table) &&
          decide (bound < position record)) := by
    intro count
    have leading : recordsOf (read.take count) <+: log.drop skipped := by
      have split := order
      rw [← List.take_append_drop count read, recordsOf_append] at split
      exact (List.prefix_append _ _).trans split
    have nothing : (log.take skipped).filter (fun record =>
        source.routeOf router record == some (.active state.table) && decide (bound < position record)) = [] := by
      apply List.filter_eq_nil_iff.mpr
      intro record member
      simp [not_lt_of_ge (behind record member)]
    rw [List.take_add, ← List.prefix_iff_eq_take.mp leading, List.filter_append, nothing, List.nil_append]
    unfold FeedState.wanted FeedState.retain bucket
    rw [stands]
    simp only [lawful.covered]
    rw [List.filter_filter]
    apply List.filter_congr
    intro record _
    rw [Bool.and_comm]
    by_cases below : position record ≤ bound
    · simp [below, not_lt_of_ge below]
    · simp [below, lt_of_not_ge below]
  constructor
  · cases alive : state.tx with
    | true =>
        refine ⟨read.length, fun _ => rfl, nofun, ?_⟩
        rw [← wants, List.take_length]
        exact served.alive alive
    | false =>
        rcases served.died alive with ⟨count, inside, refused, same⟩
        exact ⟨count, nofun, fun _ => ⟨inside, refused⟩, by rw [same, wants]⟩
  · intro before page after split bookmark marked record member routed below
    rw [← List.take_append_drop skipped log] at member
    rcases List.mem_append.mp member with early | late
    · exact .inl (behind record early)
    · rcases served.backed before page after split bookmark marked record late routed below with applied | sent
      · rcases applied with ⟨other, same, covered⟩
        rw [stands] at same
        cases same
        exact .inl covered
      · exact .inr sent

theorem delivered_of_fresh {state : FeedState Record Position} {bound : Position} (alive : state.tx = true)
    (fresh : state.received = []) (lawful : source.Lawful position) (stands : state.position = some bound) :
    Delivered source router position log 0 schedule [] state bound := by
  have served : Served source router position log 0 schedule [] state := .start fresh alive
  apply served.delivered lawful (List.nil_prefix) ?_ stands
  intro record member
  cases member

variable {feeds : List (TableFeed Position)} {floors : List Position} {committed : List (String × Position)}

/-- The stream that resumes at `start` serves every open table. -/
theorem stream_delivers (lawful : source.Lawful position) {start : Option Position}
    (replays : Replays position log start (source.streamPages start).1 skipped)
    {states : List (FeedState Record Position)} (distinct : (states.map FeedState.table).Nodup)
    (fresh : forall state, state ∈ states -> state.tx = true ∧ state.received = [])
    (behind : forall state, state ∈ states -> forall bound, state.position = some bound ->
      exists first, start = some first ∧ first ≤ bound) (dead : List String) :
    standing (stream source router schedule dead states start).states = standing states ∧
      recordsOf (stream source router schedule dead states start).read <+: log.drop skipped ∧
      forall state, state ∈ (stream source router schedule dead states start).states -> forall bound,
        state.position = some bound -> Delivered source router position log skipped schedule
          (stream source router schedule dead states start).read state bound := by
  have opening : Reading source router position log skipped schedule (standing states) { states := states } := by
    constructor
    · intro state member
      exact .start (fresh state member).2 (fresh state member).1
    · rfl
    · intro mark none
      cases none
  have tables : ((standing states).map Prod.fst).Nodup := by
    rw [standing_tables]
    exact distinct
  rcases opening.readPages lawful tables replays with ⟨reading, leading⟩
  have finished := reading.finish lawful
  have order : recordsOf (stream source router schedule dead states start).read <+: log.drop skipped := by
    change recordsOf (Cycle.finish source schedule _).read <+: _
    rw [Cycle.read_finish]
    rcases leading with ⟨rest, whole⟩
    have all := replays.order
    rw [← List.nil_append (source.streamPages start).1, ← whole, recordsOf_append] at all
    exact (List.prefix_append _ _).trans all
  refine ⟨finished.standing, order, ?_⟩
  intro state member bound stands
  have served : Served source router position log skipped schedule
      (stream source router schedule dead states start).read state := finished.served state member
  apply served.delivered lawful order ?_ stands
  intro record early
  have listed : (state.table, state.position) ∈ standing states := by
    rw [← finished.standing]
    exact List.mem_map_of_mem member
  rcases List.mem_map.mp listed with ⟨old, found, equal⟩
  have stood : old.position = some bound := by
    rw [← stands]
    exact congrArg Prod.snd equal
  rcases behind old found bound stood with ⟨first, started, below⟩
  exact le_trans (replays.behind first started record early) below

/-- The pages up to the first at which the cycle is cancelled, the first that
announces a new table, or the end. -/
def pagesUntilStop (source : Source Record Position) (router : Router) (schedule : Schedule) :
    Nat -> List (StreamPage Record Position) -> List (StreamPage Record Position)
  | _, [] => []
  | index, page :: rest =>
      if schedule.cancelled index then []
      else if (announced source router page.records).isEmpty then
        page :: pagesUntilStop source router schedule (index + 1) rest
      else [page]

theorem Cycle.read_readPages (pages : List (StreamPage Record Position)) (quiet : cycle.newTables = []) :
    (cycle.readPages source router schedule pages).read =
      cycle.read ++ pagesUntilStop source router schedule cycle.read.length pages := by
  induction pages generalizing cycle with
  | nil => exact (List.append_nil _).symm
  | cons page rest ih =>
      have announces : (cycle.step source router schedule page).newTables = announced source router page.records := by
        rw [Cycle.step, quiet, List.nil_append]
      rw [Cycle.readPages, pagesUntilStop]
      dsimp only
      rw [announces]
      split
      · exact (List.append_nil _).symm
      · split
        · next none =>
          rw [ih (announces.trans (List.isEmpty_iff.mp none))]
          simp [Cycle.step]
        · rfl

/-- What a cycle does for its tables: the stream starts at or before everything
it has to serve, and each open table that stood somewhere gets what it lacks.
Unless no table opens, the cycle is cancelled before or the source cannot
resume, the stream is read up to where the cycle stops. -/
structure Serves (source : Source Record Position) (router : Router) (position : Record -> Position) (log : List Record)
    (feeds : List (TableFeed Position)) (floors : List Position) (committed : List (String × Position))
    (schedule : Schedule) (demux : Demux Record Position) : Prop where
  start : forall first, demux.startedAt = some first ->
    EveryPosition feeds floors committed (fun bound => first ≤ bound)
  unconstrained : demux.startedAt = none -> demux.read ≠ [] -> EveryPosition feeds floors committed (fun _ => False)
  tables : standing demux.states = feeds.filterMap (fun feed => feed.ready.map (fun reported => (feed.table, reported)))
  delivered : exists skipped, recordsOf demux.read <+: log.drop skipped ∧
    forall state, state ∈ demux.states -> forall bound, state.position = some bound ->
      Delivered source router position log skipped schedule demux.read state bound
  read : schedule.cancelledEarly = false -> (exists feed, feed ∈ feeds ∧ feed.ready.isSome = true) ->
    (forall start, source.applyStartBookmark start = .ok ()) ->
    demux.read = pagesUntilStop source router schedule 0 (source.streamPages demux.startedAt).1

/-- A cycle that ends before the stream starts. -/
theorem serves_of_idle (lawful : source.Lawful position) {demux : Demux Record Position}
    (states : demux.states = openStates schedule feeds) (idle : demux.read = []) (notStarted : demux.startedAt = none)
    (held : (openStates schedule feeds : List (FeedState Record Position)) = [] ∨ schedule.cancelledEarly = true ∨
      exists start, source.applyStartBookmark start ≠ .ok ()) :
    Serves source router position log feeds floors committed schedule demux := by
  refine ⟨?_, ?_, ?_, ?_, ?_⟩
  · intro first started
    rw [notStarted] at started
    cases started
  · intro _ busy
    exact absurd idle busy
  · rw [states]
    exact standing_openStates schedule feeds
  · rw [idle]
    refine ⟨0, List.nil_prefix, ?_⟩
    intro state member bound stands
    rw [states] at member
    rcases mem_openStates member with ⟨_, _, _, _, alive, fresh⟩
    exact delivered_of_fresh alive fresh lawful stands
  · rintro live ⟨feed, member, ready⟩ resumes
    rcases Option.isSome_iff_exists.mp ready with ⟨reported, ready⟩
    rcases held with empty | cancelled | ⟨start, refused⟩
    · have opened : _ ∈ (openStates schedule feeds : List (FeedState Record Position)) :=
        opened_of_ready schedule member ready
      rw [empty] at opened
      cases opened
    · rw [live] at cancelled
      cases cancelled
    · exact absurd (resumes start) refused

theorem serves_of_stream (lawful : source.Lawful position)
    (replays : forall start, exists skipped, Replays position log start (source.streamPages start).1 skipped)
    (distinct : (feeds.map TableFeed.table).Nodup) {start : Option Position}
    (first : forall first, start = some first -> EveryPosition feeds floors committed (fun bound => first ≤ bound))
    (unconstrained : start = none -> EveryPosition feeds floors committed (fun _ => False)) (dead : List String) :
    Serves source router position log feeds floors committed schedule
      (stream source router schedule dead (openStates schedule feeds) start) := by
  rcases replays start with ⟨skipped, replay⟩
  have behind : forall state, state ∈ (openStates schedule feeds : List (FeedState Record Position)) -> forall bound,
      state.position = some bound -> exists first, start = some first ∧ first ≤ bound := by
    intro state member bound stands
    rcases mem_openStates member with ⟨feed, found, ready, _, _, _⟩
    rw [stands] at ready
    cases known : start with
    | none => exact ((unconstrained known).opened feed found bound ready).elim
    | some mark => exact ⟨mark, rfl, (first mark known).opened feed found bound ready⟩
  have fresh : forall state, state ∈ (openStates schedule feeds : List (FeedState Record Position)) ->
      state.tx = true ∧ state.received = [] := by
    intro state member
    rcases mem_openStates member with ⟨_, _, _, _, alive, nothing⟩
    exact ⟨alive, nothing⟩
  rcases @stream_delivers _ _ source router _ position log skipped schedule lawful start replay _
    (openStates_tables schedule distinct) fresh behind dead with ⟨standing, order, delivered⟩
  refine ⟨?_, ?_, ?_, ?_, ?_⟩
  · intro mark started
    exact first mark started
  · intro notStarted _
    exact unconstrained notStarted
  · exact standing.trans (standing_openStates schedule feeds)
  · exact ⟨skipped, order, delivered⟩
  · intro _ _ _
    change (Cycle.finish source schedule _).read = _
    rw [Cycle.read_finish, Cycle.read_readPages _ rfl]
    rfl

/-- Demultiplexing a change log loses and repeats nothing. -/
theorem demux_delivers (lawful : source.Lawful position)
    (replays : forall start, exists skipped, Replays position log start (source.streamPages start).1 skipped)
    (distinct : (feeds.map TableFeed.table).Nodup) (router : Router) (floors : List Position)
    (committed : List (String × Position)) (schedule : Schedule) :
    Serves source router position log feeds floors committed schedule
      (runDemux source feeds router floors committed schedule) := by
  unfold runDemux
  dsimp only
  split
  · next idle =>
    rw [Bool.or_eq_true, List.isEmpty_iff] at idle
    exact serves_of_idle lawful rfl rfl rfl (idle.imp_right .inl)
  · split
    · next empty =>
      apply serves_of_stream lawful replays distinct
      · intro first started
        cases started
      · intro _
        apply everyPosition
        intro other member
        rw [List.isEmpty_iff.mp empty] at member
        cases member
    · next nonempty =>
      rw [List.isEmpty_iff] at nonempty
      rcases lawful.least _ nonempty with ⟨start, _, found, least⟩
      rw [found]
      dsimp only
      split
      · next error refused =>
        exact serves_of_idle lawful rfl rfl rfl (.inr (.inr ⟨start, by rw [refused]; exact nofun⟩))
      · apply serves_of_stream lawful replays distinct
        · intro first started
          cases started
          exact everyPosition least
        · intro notStarted
          cases notStarted

/-! ## A page that straddles a table's position -/

/-- A log of three changes of the tables `a` and `b`. -/
def sampleLog : List (String × Nat) := [("a", 1), ("b", 2), ("a", 3)]

def samplePages : List (StreamPage (String × Nat) Nat) := [⟨[("a", 1), ("b", 2)], none⟩, ⟨[("a", 3)], some 3⟩]

def sampleSource : Source (String × Nat) Nat where
  connectorName := "postgres-cdc"
  recordTable record := some record.1
  positionLe first second := some (decide (first ≤ second))
  recordCovered record bound := some (decide (record.2 ≤ bound))
  positionMin := defaultPositionMin (fun first second => some (decide (first ≤ second)))
  applyStartBookmark _ := .ok ()
  streamPages _ := (samplePages, none)

/-- Table `a` stands at the second change, table `b` at the beginning. -/
def sampleFeeds : List (TableFeed Nat) := [⟨"a", some (some 2)⟩, ⟨"b", some (some 0)⟩]

def sampleSchedule : Schedule where
  cancelledEarly := false
  cancelled _ := false
  openedAt _ := 0
  now _ _ := 0
  takes _ _ := true

theorem sampleSource_lawful : sampleSource.Lawful Prod.snd :=
  ⟨fun _ _ => rfl, fun _ _ => rfl, fun positions nonempty =>
    defaultPositionMin_least (fun _ _ => rfl) positions nonempty⟩

theorem samplePages_replay (start : Option Nat) : Replays Prod.snd sampleLog start samplePages 0 := by
  constructor
  · intro bound _ record member
    cases member
  · exact List.prefix_refl sampleLog
  · intro before page after split bookmark marked
    rcases before with _ | ⟨first, _ | ⟨second, rest⟩⟩
    · cases split
      cases marked
    · cases split
      cases marked
      constructor
      · intro record member
        cases List.mem_singleton.mp member
        exact le_refl 3
      · intro record member
        cases member
    · cases rest <;> cases split

theorem demux_delivers_sample :
    Serves sampleSource ⟨["a", "b"], ["a", "b"], none, none⟩ Prod.snd sampleLog sampleFeeds [] [] sampleSchedule
      (runDemux sampleSource sampleFeeds ⟨["a", "b"], ["a", "b"], none, none⟩ [] [] sampleSchedule) :=
  demux_delivers sampleSource_lawful (fun start => ⟨0, samplePages_replay start⟩) (by decide) _ _ _ _

end Mirror
end FaucetStream
