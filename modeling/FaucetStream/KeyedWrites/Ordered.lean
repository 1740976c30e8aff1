import FaucetStream.KeyedWrites.Plan
import Mathlib.Data.List.SplitBy
import Mathlib.Data.Setoid.Basic
import Mathlib.Logic.Function.Basic
import Mathlib.Logic.Nontrivial.Basic

namespace FaucetStream
namespace KeyedWrites

open Json
open Library

universe u

/-!
# Ordered planning under a collation

A destination may identify keys that the planner keeps apart, such as two
spellings that differ in case.  The ordered planner therefore cuts the page
into runs of consecutive upserts or deletes and plans each run by itself.
Inside a run the planner still moves a row to the place of the first row of
its key, and under a coarser equality that order decides which row is left.
-/

/-- The state of the loop that cuts a page into runs. -/
structure RunState where
  plans : List WritePlan
  runStart : Option Nat
  runIsDelete : Bool

/-- Plan the rows of a page between two positions. -/
def flushRun (page : List Value) (spec : WriteSpec) (start stop : Nat) : WritePlan :=
  { planWrites ((page.take stop).drop start) spec with failed := [] }

def orderedRow (page : List Value) (spec : WriteSpec) (state : RunState) (row : Value × Nat) :
    RunState :=
  match extractKey row.1 spec.key with
  | .error _ => state
  | .ok _ =>
      match state.runStart with
      | some start =>
          if spec.isDelete row.1 != state.runIsDelete then
            ⟨state.plans ++ [flushRun page spec start row.2], some row.2, spec.isDelete row.1⟩
          else { state with runIsDelete := spec.isDelete row.1 }
      | none => ⟨state.plans, some row.2, spec.isDelete row.1⟩

def planWritesOrdered (page : List Value) (spec : WriteSpec) : List WritePlan :=
  let last := page.zipIdx.foldl (orderedRow page spec) ⟨[], none, false⟩
  match last.runStart with
  | some start => last.plans ++ [flushRun page spec start page.length]
  | none => last.plans

/-! ## The runs of a page -/

def readableRows (spec : WriteSpec) (page : List Value) : List Value :=
  page.filter (fun record => (recordKey record spec.key).isSome)

/-- The readable rows of a page, cut wherever upserts and deletes meet. -/
def runs (spec : WriteSpec) (page : List Value) : List (List Value) :=
  (readableRows spec page).splitBy (fun left right => spec.isDelete left == spec.isDelete right)

def runPlan (spec : WriteSpec) (run : List Value) : WritePlan :=
  { planWrites run spec with failed := [] }

theorem keyedActions_readableRows (spec : WriteSpec) (page : List Value) :
    keyedActions spec (readableRows spec page) = keyedActions spec page := by
  unfold keyedActions readableRows
  rw [List.filterMap_filter]
  congr 1
  funext record
  unfold recordKey
  cases extractKey record spec.key <;> rfl

theorem runPlan_readableRows (spec : WriteSpec) (page : List Value) :
    runPlan spec (readableRows spec page) = runPlan spec page := by
  unfold runPlan planWrites
  rw [planWritesBy_eq, planWritesBy_eq, plannedEntries, keyedActions_readableRows, plannedEntries]

theorem readableRows_append (spec : WriteSpec) (first second : List Value) :
    readableRows spec (first ++ second) = readableRows spec first ++ readableRows spec second :=
  List.filter_append ..

theorem readableRows_of_error {spec : WriteSpec} {record : Value} {message : String}
    (reading : extractKey record spec.key = .error message) : readableRows spec [record] = [] := by
  simp only [readableRows, recordKey, reading, Except.toOption, Option.isSome_none, List.filter_cons,
    List.filter_nil, Bool.false_eq_true, if_false]

theorem readableRows_of_ok {spec : WriteSpec} {record : Value} {tuple : KeyTuple}
    (reading : extractKey record spec.key = .ok tuple) : readableRows spec [record] = [record] := by
  simp only [readableRows, recordKey, reading, Except.toOption, Option.isSome_some, List.filter_cons,
    List.filter_nil, if_true]

theorem mem_readableRows_of_mem_run {spec : WriteSpec} {page run : List Value}
    (member : run ∈ runs spec page) {record : Value} (inside : record ∈ run) :
    record ∈ readableRows spec page := by
  have whole : (runs spec page).flatten = readableRows spec page := List.flatten_splitBy _ _
  rw [← whole]
  exact List.mem_flatten.mpr ⟨run, member, inside⟩

/-- The rows of a run are of one kind. -/
theorem isDelete_of_mem_run {spec : WriteSpec} {page run : List Value} (member : run ∈ runs spec page)
    {left right : Value} (leftMember : left ∈ run) (rightMember : right ∈ run) :
    spec.isDelete left = spec.isDelete right := by
  have chain := List.isChain_of_mem_splitBy member
  have pairwise : run.Pairwise (fun left right => spec.isDelete left = spec.isDelete right) := by
    refine List.IsChain.pairwise (R := fun left right => spec.isDelete left = spec.isDelete right) ?_
    exact chain.imp (fun _ _ same => beq_iff_eq.mp same)
  rcases List.append_of_mem leftMember with ⟨front, back, split⟩
  rw [split] at pairwise rightMember
  rcases List.mem_append.mp rightMember with before | after
  · exact ((List.pairwise_append.mp pairwise).2.2 right before left List.mem_cons_self).symm
  · rcases List.mem_cons.mp after with same | later
    · rw [same]
    · exact List.rel_of_pairwise_cons (List.pairwise_append.mp pairwise).2.1 later

/-! ## The loop cuts the page into its runs -/

section Blocks

variable {A : Type u} {relation : A -> A -> Bool} {rows current : List A} {closed : List (List A)}

/-- A row related to the last one joins the last block. -/
theorem splitBy_concat_of_related (split : rows.splitBy relation = closed ++ [current]) (row : A)
    (related : forall last, last ∈ current.getLast? -> relation last row = true) :
    (rows ++ [row]).splitBy relation = closed ++ [current ++ [row]] := by
  rcases List.splitBy_eq_iff.mp split with ⟨whole, nonempty, chains, breaks⟩
  have currentNonempty : current ≠ [] := by
    intro empty
    exact nonempty (List.mem_append_right closed (by rw [empty]; exact List.mem_singleton_self []))
  refine List.splitBy_eq_iff.mpr ⟨?_, ?_, ?_, ?_⟩
  · simp only [whole, List.flatten_append, List.flatten_singleton, List.append_assoc]
  · intro empty
    rcases List.mem_append.mp empty with inside | last
    · exact nonempty (List.mem_append_left _ inside)
    · exact List.append_ne_nil_of_right_ne_nil current (List.cons_ne_nil row [])
        (List.mem_singleton.mp last).symm
  · intro block member
    rcases List.mem_append.mp member with inside | last
    · exact chains block (List.mem_append_left _ inside)
    · rw [List.mem_singleton.mp last]
      refine List.isChain_append.mpr
        ⟨chains current (List.mem_append_right _ (List.mem_singleton_self _)), List.isChain_singleton _, ?_⟩
      intro last lastMember next nextMember
      rw [List.head?_cons, Option.mem_some_iff] at nextMember
      exact nextMember ▸ related last lastMember
  · rcases List.isChain_append.mp breaks with ⟨inner, _, border⟩
    refine List.isChain_append.mpr ⟨inner, List.isChain_singleton _, ?_⟩
    intro previous previousMember next nextMember
    rw [List.head?_cons, Option.mem_some_iff] at nextMember
    rcases border previous previousMember current rfl with ⟨left, right, apart⟩
    subst nextMember
    exact ⟨left, List.append_ne_nil_of_left_ne_nil currentNonempty _, by
      rw [List.head_append_of_ne_nil currentNonempty]
      exact apart⟩

/-- A row not related to the last one opens a block. -/
theorem splitBy_concat_of_apart (split : rows.splitBy relation = closed ++ [current]) (row : A)
    (apart : forall last, last ∈ current.getLast? -> relation last row = false) :
    (rows ++ [row]).splitBy relation = closed ++ [current] ++ [[row]] := by
  rcases List.splitBy_eq_iff.mp split with ⟨whole, nonempty, chains, breaks⟩
  have currentNonempty : current ≠ [] := by
    intro empty
    exact nonempty (List.mem_append_right closed (by rw [empty]; exact List.mem_singleton_self []))
  refine List.splitBy_eq_iff.mpr ⟨?_, ?_, ?_, ?_⟩
  · simp only [whole, List.flatten_append, List.flatten_singleton, List.append_assoc]
  · intro empty
    rcases List.mem_append.mp empty with inside | last
    · exact nonempty inside
    · exact List.cons_ne_nil row [] (List.mem_singleton.mp last).symm
  · intro block member
    rcases List.mem_append.mp member with inside | last
    · exact chains block inside
    · rw [List.mem_singleton.mp last]
      exact List.isChain_singleton _
  · refine List.isChain_append.mpr ⟨breaks, List.isChain_singleton _, ?_⟩
    intro previous previousMember next nextMember
    rw [List.getLast?_concat, Option.mem_some_iff] at previousMember
    rw [List.head?_cons, Option.mem_some_iff] at nextMember
    subst previousMember nextMember
    exact ⟨currentNonempty, List.cons_ne_nil _ _,
      apart _ (List.getLast?_eq_some_getLast currentNonempty)⟩

end Blocks

/-- What the loop holds after the rows `seen`: the closed runs are planned,
and the open run is the readable part of the rows since its start. -/
def RunState.Holds (spec : WriteSpec) (seen : List Value) (state : RunState) : Prop :=
  match state.runStart with
  | none => readableRows spec seen = [] ∧ state.plans = []
  | some start =>
      start ≤ seen.length ∧ exists closed,
        runs spec seen = closed ++ [readableRows spec (seen.drop start)] ∧
        state.plans = closed.map (runPlan spec) ∧
        forall record, record ∈ readableRows spec (seen.drop start) ->
          spec.isDelete record = state.runIsDelete

theorem flushRun_eq (spec : WriteSpec) (seen rest : List Value) (start : Nat) :
    flushRun (seen ++ rest) spec start seen.length = runPlan spec (readableRows spec (seen.drop start)) := by
  rw [runPlan_readableRows, flushRun, List.take_left]
  rfl

theorem orderedRow_holds (spec : WriteSpec) (seen rest : List Value) (record : Value)
    (state : RunState) (holds : state.Holds spec seen) :
    (orderedRow (seen ++ record :: rest) spec state (record, seen.length)).Holds spec
      (seen ++ [record]) := by
  unfold orderedRow
  cases reading : extractKey record spec.key with
  | error message =>
      have skipped := readableRows_of_error reading
      unfold RunState.Holds at holds ⊢
      unfold runs at holds ⊢
      cases running : state.runStart with
      | none =>
          simp only [running, readableRows_append, skipped, List.append_nil] at holds ⊢
          exact holds
      | some start =>
          simp only [running, readableRows_append, skipped, List.append_nil, List.length_append,
            List.length_singleton] at holds ⊢
          rw [List.drop_append_of_le_length holds.1, readableRows_append, skipped, List.append_nil]
          exact ⟨Nat.le_succ_of_le holds.1, holds.2⟩
  | ok tuple =>
      have kept := readableRows_of_ok reading
      have fresh : readableRows spec ((seen ++ [record]).drop seen.length) = [record] := by
        rw [List.drop_left, kept]
      have bound : seen.length ≤ (seen ++ [record]).length := by
        rw [List.length_append]
        exact Nat.le_add_right _ _
      have single : forall other, other ∈ [record] -> spec.isDelete other = spec.isDelete record :=
        fun other member => by rw [List.mem_singleton.mp member]
      unfold RunState.Holds at holds
      cases running : state.runStart with
      | none =>
          simp only [running] at holds
          refine ⟨bound, [], ?_, ?_, ?_⟩
          · rw [runs, readableRows_append, holds.1, kept, fresh]
            rfl
          · exact holds.2
          · rw [fresh]
            exact single
      | some start =>
          simp only [running] at holds
          rcases holds with ⟨within, closed, split, planned, kind⟩
          have ofKind : forall last, last ∈ (readableRows spec (seen.drop start)).getLast? ->
              spec.isDelete last = state.runIsDelete :=
            fun last member => kind last (List.mem_of_getLast? member)
          have extended : readableRows spec ((seen ++ [record]).drop start) =
              readableRows spec (seen.drop start) ++ [record] := by
            rw [List.drop_append_of_le_length within, readableRows_append, kept]
          by_cases change : spec.isDelete record = state.runIsDelete
          · have joins := splitBy_concat_of_related split record (by
              intro last member
              rw [ofKind last member, change]
              exact beq_self_eq_true _)
            simp only [change, bne_self_eq_false, Bool.false_eq_true, if_false]
            unfold RunState.Holds
            simp only
            refine ⟨Nat.le_trans within bound, closed, ?_, planned, ?_⟩
            · rw [runs, readableRows_append, kept, joins, extended]
            · rw [extended]
              intro other member
              rcases List.mem_append.mp member with inside | last
              · exact kind other inside
              · rw [List.mem_singleton.mp last, change]
          · have opens := splitBy_concat_of_apart split record (by
              intro last member
              rw [ofKind last member]
              exact beq_eq_false_iff_ne.mpr (Ne.symm change))
            simp only [bne_iff_ne.mpr change, if_true]
            refine ⟨bound, closed ++ [readableRows spec (seen.drop start)], ?_, ?_, ?_⟩
            · rw [runs, readableRows_append, kept, opens, fresh]
            · rw [flushRun_eq, planned, List.map_append]
              rfl
            · rw [fresh]
              exact single

theorem foldl_orderedRow_holds (spec : WriteSpec) (rest seen : List Value) (state : RunState)
    (holds : state.Holds spec seen) :
    ((rest.zipIdx seen.length).foldl (orderedRow (seen ++ rest) spec) state).Holds spec
      (seen ++ rest) := by
  induction rest generalizing seen state with
  | nil =>
      rw [List.append_nil]
      exact holds
  | cons record rest ih =>
      have step := orderedRow_holds spec seen rest record state holds
      have tail := ih (seen ++ [record]) _ step
      rw [List.append_assoc, List.singleton_append, List.length_append, List.length_singleton] at tail
      exact tail

/-- The ordered planner plans the runs of the page, one after the other. -/
theorem planWritesOrdered_eq (page : List Value) (spec : WriteSpec) :
    planWritesOrdered page spec = (runs spec page).map (runPlan spec) := by
  have holds := foldl_orderedRow_holds spec page [] ⟨[], none, false⟩ ⟨rfl, rfl⟩
  rw [List.nil_append, List.length_nil] at holds
  unfold planWritesOrdered
  unfold RunState.Holds at holds
  cases running : (page.zipIdx.foldl (orderedRow page spec) ⟨[], none, false⟩).runStart with
  | none =>
      simp only [running] at holds ⊢
      rw [holds.2, runs, holds.1]
      rfl
  | some start =>
      simp only [running] at holds ⊢
      rcases holds with ⟨within, closed, split, planned, kind⟩
      have flushed := flushRun_eq spec page [] start
      rw [List.append_nil] at flushed
      rw [flushed, planned, split, List.map_append]
      rfl

/-! ## Applying the runs -/

theorem isUpsert_action (spec : WriteSpec) (record : Value) (tuple : KeyTuple) :
    (spec.action record tuple).isUpsert = !spec.isDelete record := by
  unfold WriteSpec.action
  cases spec.isDelete record <;> rfl

/-- The entries planned for a run are of one kind as well. -/
theorem plannedEntries_run {spec : WriteSpec} {page run : List Value} (member : run ∈ runs spec page) :
    (plannedEntries canonical spec run).filter (fun entry => entry.2.isUpsert) ++
      (plannedEntries canonical spec run).filter (fun entry => !entry.2.isUpsert) =
      plannedEntries canonical spec run := by
  have source : forall entry, entry ∈ plannedEntries canonical spec run ->
      exists record, record ∈ run ∧ entry.2.isUpsert = !spec.isDelete record := by
    rintro ⟨text, action⟩ listed
    rcases (mem_plannedEntries_iff canonical spec run text action).mp listed with
      ⟨earlier, record, later, tuple, split, _, _, acted, _⟩
    refine ⟨record, ?_, ?_⟩
    · rw [split]
      exact List.mem_append_right earlier List.mem_cons_self
    · rw [acted]
      exact isUpsert_action spec record tuple
  by_cases deletes : exists record, record ∈ run ∧ spec.isDelete record = true
  · rcases deletes with ⟨witness, inside, isDelete⟩
    have none : forall entry, entry ∈ plannedEntries canonical spec run -> entry.2.isUpsert = false := by
      intro entry listed
      rcases source entry listed with ⟨record, recordMember, kind⟩
      rw [kind, isDelete_of_mem_run member recordMember inside, isDelete]
      rfl
    rw [List.filter_eq_nil_iff.mpr (fun entry listed => by rw [none entry listed]; exact Bool.false_ne_true),
      List.nil_append]
    exact List.filter_eq_self.mpr (fun entry listed => by rw [none entry listed]; rfl)
  · have all : forall entry, entry ∈ plannedEntries canonical spec run -> entry.2.isUpsert = true := by
      intro entry listed
      rcases source entry listed with ⟨record, recordMember, kind⟩
      cases isDelete : spec.isDelete record with
      | true => exact absurd ⟨record, recordMember, isDelete⟩ deletes
      | false => rw [kind, isDelete]; rfl
    rw [List.filter_eq_self.mpr all, List.filter_eq_nil_iff.mpr (fun entry listed => by
      rw [all entry listed]; exact Bool.false_ne_true), List.append_nil]

section Destination

variable {K : Type} [DecidableEq K] (address : KeyTuple -> K)

/-- The plans of a page applied in order. -/
def applyPlans (key : List String) (table : K -> Option Value) (plans : List WritePlan) :
    Option (K -> Option Value) :=
  plans.foldlM (applyPlan address key) table

/-- The writes of a run, row by row, under canonical keys. -/
def runWrites (spec : WriteSpec) (run : List Value) : List (String × Option Value) :=
  (keyedActions spec run).map (fun row => (canonical row.1, row.2.upsertRow))

theorem applyPlans_eq (spec : WriteSpec) (location : String -> K) (blocks : List (List Value))
    (table : K -> Option Value)
    (planned : forall run, run ∈ blocks -> plannedWrites address spec.key (runPlan spec run) =
      some (relocate location (assignAll [] (runWrites spec run)))) :
    applyPlans address spec.key table (blocks.map (runPlan spec)) =
      some (writeAll table
        (blocks.map (fun run => relocate location (assignAll [] (runWrites spec run)))).flatten) := by
  induction blocks generalizing table with
  | nil => rfl
  | cons run rest ih =>
      have head := planned run List.mem_cons_self
      have tail := fun table => ih table
        (fun other member => planned other (List.mem_cons_of_mem _ member))
      unfold applyPlans at tail ⊢
      rw [List.map_cons, List.foldlM_cons, applyPlan_eq, head, Option.map_some, List.map_cons,
        List.flatten_cons, writeAll_append]
      exact tail _

variable (spec : WriteSpec) (location : String -> K)
  (factors : forall tuple, location (canonical tuple) = address tuple)

include factors in
/-- A page row by row writes its runs row by row. -/
theorem applyPage_eq_runs (table : K -> Option Value) (page : List Value) :
    applyPage address spec table page =
      writeAll table ((runs spec page).map (fun run => relocate location (runWrites spec run))).flatten := by
  have whole : (runs spec page).flatten = readableRows spec page := List.flatten_splitBy _ _
  have split : keyedActions spec (runs spec page).flatten =
      ((runs spec page).map (keyedActions spec)).flatten := List.filterMap_flatten
  rw [applyPage_eq, ← keyedActions_readableRows, ← whole, split, List.map_flatten, List.map_map]
  congr 3
  funext run
  unfold relocate runWrites
  rw [List.map_map]
  simp only [Function.comp_apply]
  refine List.map_congr_left (fun row _ => ?_)
  rw [Function.comp_apply, factors]

omit [DecidableEq K] in
include factors in
/-- The plan of a run of one kind writes the run deduplicated, in the order
of first appearance. -/
theorem plannedWrites_runPlan {page run : List Value} (member : run ∈ runs spec page)
    (readable : spec.markerInKey = true -> forall record, record ∈ run -> spec.isDelete record = true) :
    plannedWrites address spec.key (runPlan spec run) =
      some (relocate location (assignAll [] (runWrites spec run))) := by
  have addressed : forall entry, entry ∈ plannedEntries canonical spec run ->
      exists tuple, entry.2.tuple spec.key = some tuple ∧ address tuple = location entry.1 := by
    rintro ⟨text, action⟩ listed
    rcases (mem_plannedEntries_iff canonical spec run text action).mp listed with
      ⟨earlier, record, later, tuple, split, reading, same, acted, _⟩
    refine ⟨tuple, ?_, by rw [← factors, same]⟩
    change action.tuple spec.key = some tuple
    rw [acted]
    apply action_tuple spec record tuple reading
    cases inside : spec.markerInKey with
    | false => exact Or.inr rfl
    | true =>
        refine Or.inl (readable inside record ?_)
        rw [split]
        exact List.mem_append_right earlier List.mem_cons_self
  have planned := plannedWrites_eq address spec.key (plannedEntries canonical spec run)
    (keyFailures run spec) location addressed
  rw [← planWritesBy_eq] at planned
  rw [plannedEntries_run member] at planned
  have target : relocate location (assignAll [] (runWrites spec run)) =
      (plannedEntries canonical spec run).map (fun entry => (location entry.1, entry.2.upsertRow)) := by
    have converted := map_assignAll Action.upsertRow []
      ((keyedActions spec run).map (fun row => (canonical row.1, row.2)))
    rw [List.map_map] at converted
    change _ = assignAll [] (runWrites spec run) at converted
    rw [← converted, relocate, List.map_map]
    rfl
  rw [target]
  exact planned

/-! ## When the order of a run does not matter -/

/-- The canonical keys that the rows of a run show in one class, in order. -/
def runClassKeys (run : List Value) (cls : K) : List String :=
  ((run.filterMap (fun record => recordKey record spec.key)).filter
    (fun tuple => decide (address tuple = cls))).map canonical

/-- Every class that a run of upserts is the last to touch takes its last row
from the key that appears last in the run; and no row to upsert has lost its
key to the marker. -/
structure OrderKept (page : List Value) : Prop where
  keyed : spec.markerInKey = true ->
    forall record, record ∈ readableRows spec page -> spec.isDelete record = true
  last : forall earlier run later record tuple, runs spec page = earlier ++ run :: later ->
    record ∈ run -> spec.isDelete record = false -> recordKey record spec.key = some tuple ->
    (forall other, other ∈ later.flatten -> forall otherTuple,
      recordKey other spec.key = some otherTuple -> address otherTuple ≠ address tuple) ->
    (runClassKeys address spec run (address tuple)).eraseDups.getLast? =
      (runClassKeys address spec run (address tuple)).getLast?

theorem keyedActions_map_fst (run : List Value) :
    (keyedActions spec run).map Prod.fst = run.filterMap (fun record => recordKey record spec.key) := by
  unfold keyedActions
  rw [List.map_filterMap]
  congr 1
  funext record
  unfold recordKey
  cases extractKey record spec.key <;> rfl

include factors in
theorem classKeys_runWrites (run : List Value) (cls : K) :
    classKeys location ((runWrites spec run).map Prod.fst) cls = runClassKeys address spec run cls := by
  have keys : (runWrites spec run).map Prod.fst =
      (run.filterMap (fun record => recordKey record spec.key)).map canonical := by
    rw [← keyedActions_map_fst, runWrites, List.map_map, List.map_map]
    rfl
  unfold classKeys runClassKeys
  rw [keys, List.filter_map]
  congr 2
  funext tuple
  simp only [Function.comp_apply, factors]

theorem mem_runWrites_iff (run : List Value) (write : String × Option Value) :
    write ∈ runWrites spec run ↔
      exists record tuple, record ∈ run ∧ recordKey record spec.key = some tuple ∧
        write = (canonical tuple, (spec.action record tuple).upsertRow) := by
  unfold runWrites keyedActions
  rw [List.map_filterMap, List.mem_filterMap]
  constructor
  · rintro ⟨record, member, read⟩
    cases reading : extractKey record spec.key with
    | error message => simp only [reading, Option.map_none, reduceCtorEq] at read
    | ok tuple =>
        simp only [reading, Option.map_some, Option.some.injEq] at read
        exact ⟨record, tuple, member, by rw [recordKey, reading]; rfl, read.symm⟩
  · rintro ⟨record, tuple, member, reading, rfl⟩
    refine ⟨record, member, ?_⟩
    cases read : extractKey record spec.key with
    | error message =>
        rw [recordKey, read] at reading
        cases reading
    | ok other =>
        rw [recordKey, read] at reading
        have same : other = tuple := Option.some.inj reading
        simp only [Option.map_some, same]

include factors in
theorem lastWrite_runWrites_eq_none_iff (run : List Value) (cls : K) :
    lastWrite (relocate location (runWrites spec run)) cls = none ↔
      forall record, record ∈ run -> forall tuple,
        recordKey record spec.key = some tuple -> address tuple ≠ cls := by
  rw [lastWrite_eq_none_iff]
  constructor
  · intro absent record member tuple reading same
    apply absent
    refine List.mem_map.mpr ⟨(address tuple, (spec.action record tuple).upsertRow), ?_, same⟩
    refine List.mem_map.mpr ⟨_, (mem_runWrites_iff spec run _).mpr ⟨record, tuple, member, reading, rfl⟩, ?_⟩
    rw [factors]
  · intro absent listed
    rcases List.mem_map.mp listed with ⟨write, written, same⟩
    rcases List.mem_map.mp written with ⟨source, sourceMember, relocated⟩
    rcases (mem_runWrites_iff spec run source).mp sourceMember with ⟨record, tuple, member, reading, shape⟩
    refine absent record member tuple reading ?_
    rw [← same, ← relocated, shape, ← factors]

/-- In a run of deletes every class ends deleted, in whatever order. -/
theorem lastWrite_deleteRun (run : List Value) (cls : K)
    (deletes : forall record, record ∈ run -> spec.isDelete record = true) :
    lastWrite (relocate location (assignAll [] (runWrites spec run))) cls =
      lastWrite (relocate location (runWrites spec run)) cls := by
  have noRow : forall write, write ∈ runWrites spec run -> write.2 = none := by
    intro write member
    rcases (mem_runWrites_iff spec run write).mp member with ⟨record, tuple, inside, _, shape⟩
    rw [shape, WriteSpec.action, if_pos (deletes record inside)]
    rfl
  have deleted : forall entries : List (String × Option Value),
      (forall entry, entry ∈ entries -> entry ∈ runWrites spec run) -> forall value,
        lastWrite (relocate location entries) cls = some value -> value = none := by
    intro entries inside value written
    rcases (lastWrite_eq_some_iff _ _ _).mp written with ⟨earlier, later, split, _⟩
    have listed : (cls, value) ∈ relocate location entries := by
      rw [split]
      exact List.mem_append_right earlier List.mem_cons_self
    rcases List.mem_map.mp listed with ⟨entry, member, shape⟩
    have kept : entry.2 = value := congrArg Prod.snd shape
    rw [← kept]
    exact noRow entry (inside entry member)
  have kept : forall entry, entry ∈ assignAll [] (runWrites spec run) -> entry ∈ runWrites spec run := by
    rintro ⟨text, value⟩ member
    rcases (lastWrite_eq_some_iff _ _ _).mp ((mem_assignAll_nil_iff _ _ _).mp member) with
      ⟨earlier, later, split, _⟩
    rw [split]
    exact List.mem_append_right earlier List.mem_cons_self
  have touches := lastWrite_relocate_assignAll_eq_none_iff location (runWrites spec run) cls
  cases planned : lastWrite (relocate location (assignAll [] (runWrites spec run))) cls with
  | none => exact (touches.mp planned).symm
  | some value =>
      cases sequential : lastWrite (relocate location (runWrites spec run)) cls with
      | none =>
          rw [touches.mpr sequential] at planned
          cases planned
      | some other =>
          rw [deleted _ kept value planned, deleted _ (fun _ member => member) other sequential]

include factors in
/-- In a run of upserts a class ends alike exactly when its last row belongs
to the key that appears last. -/
theorem lastWrite_upsertRun_iff (run : List Value) (cls : K) (outside : spec.markerInKey = false)
    (upserts : forall record, record ∈ run -> spec.isDelete record = false) :
    lastWrite (relocate location (assignAll [] (runWrites spec run))) cls =
        lastWrite (relocate location (runWrites spec run)) cls ↔
      (runClassKeys address spec run cls).eraseDups.getLast? =
        (runClassKeys address spec run cls).getLast? := by
  rw [← classKeys_runWrites address spec location factors]
  apply lastWrite_assignAll_eq_iff
  intro left right leftMember rightMember same
  rcases (mem_runWrites_iff spec run left).mp leftMember with
    ⟨leftRecord, leftTuple, leftInside, leftReading, leftShape⟩
  rcases (mem_runWrites_iff spec run right).mp rightMember with
    ⟨rightRecord, rightTuple, rightInside, rightReading, rightShape⟩
  have row : forall record tuple, record ∈ run -> (spec.action record tuple).upsertRow =
      some (stripMarker record spec.deleteMarker) := by
    intro record tuple inside
    rw [WriteSpec.action, upserts record inside]
    rfl
  rw [leftShape, rightShape] at same ⊢
  simp only [row _ _ leftInside, row _ _ rightInside, Option.some.injEq] at same
  have keys := extractKey_stripMarker spec outside
  have tuples : leftTuple = rightTuple := by
    rw [recordKey, ← keys, same, keys] at leftReading
    rw [recordKey, leftReading] at rightReading
    exact Option.some.inj rightReading
  rw [tuples]

omit location in
theorem plannedWrites_of_applyPlans (key : List String) (plans : List WritePlan)
    (table : K -> Option Value) (applied : applyPlans address key table plans ≠ none) :
    forall plan, plan ∈ plans -> plannedWrites address key plan ≠ none := by
  induction plans generalizing table with
  | nil =>
      intro plan impossible
      cases impossible
  | cons first rest ih =>
      unfold applyPlans at applied
      rw [List.foldlM_cons, applyPlan_eq] at applied
      cases writes : plannedWrites address key first with
      | none =>
          rw [writes] at applied
          exact absurd rfl applied
      | some written =>
          rw [writes] at applied
          intro plan member
          rcases List.mem_cons.mp member with same | later
          · rw [same, writes]
            exact Option.some_ne_none written
          · exact ih (writeAll table written) applied plan later

omit location in
/-- When the plans of a page can be applied, no upsert lost its key. -/
theorem keyed_of_applyPlans (page : List Value) (table : K -> Option Value)
    (applied : applyPlans address spec.key table (planWritesOrdered page spec) ≠ none)
    (inside : spec.markerInKey = true) :
    forall record, record ∈ readableRows spec page -> spec.isDelete record = true := by
  intro record member
  have whole : (runs spec page).flatten = readableRows spec page := List.flatten_splitBy _ _
  rw [← whole] at member
  rcases List.mem_flatten.mp member with ⟨run, runMember, recordMember⟩
  have planned : plannedWrites address spec.key (planWrites run spec) ≠ none := by
    rw [planWritesOrdered_eq] at applied
    exact plannedWrites_of_applyPlans address spec.key _ table applied (runPlan spec run)
      (List.mem_map_of_mem runMember)
  have lastDelete := lastRowsDelete_of_plannedWrites address spec run inside planned
  rcases List.eq_nil_or_concat run with empty | ⟨front, last, split⟩
  · rw [empty] at recordMember
    cases recordMember
  · rw [List.concat_eq_append] at split
    have lastMember : last ∈ run := by
      rw [split]
      exact List.mem_append_right front (List.mem_singleton_self last)
    have readable : last ∈ readableRows spec page := mem_readableRows_of_mem_run runMember lastMember
    have some := (List.mem_filter.mp readable).2
    rw [isDelete_of_mem_run runMember recordMember lastMember]
    cases reading : extractKey last spec.key with
    | error message =>
        simp only [recordKey, reading, Except.toOption, Option.isSome_none, Bool.false_eq_true] at some
    | ok tuple =>
        exact lastDelete front last [] tuple split reading (fun other impossible => by cases impossible)

omit [DecidableEq K] address location in
theorem markerInKey_of_upsert {page : List Value}
    (keyed : spec.markerInKey = true ->
      forall record, record ∈ readableRows spec page -> spec.isDelete record = true)
    {record : Value} (member : record ∈ readableRows spec page)
    (isUpsert : spec.isDelete record = false) : spec.markerInKey = false := by
  cases inside : spec.markerInKey with
  | false => rfl
  | true =>
      have deletes := keyed inside record member
      rw [isUpsert] at deletes
      cases deletes

include factors in
/-- Applying the runs of a page gives the table of the page row by row exactly
when the order kept inside the runs is the right one. -/
theorem applyPlans_eq_applyPage_iff (page : List Value) :
    (forall table : K -> Option Value,
        applyPlans address spec.key table (planWritesOrdered page spec) =
          some (applyPage address spec table page)) ↔ OrderKept address spec page := by
  have equivalence (keyed : spec.markerInKey = true ->
      forall record, record ∈ readableRows spec page -> spec.isDelete record = true) :
      (forall table : K -> Option Value,
        applyPlans address spec.key table (planWritesOrdered page spec) =
          some (applyPage address spec table page)) ↔
      forall cls, forall earlier run later, runs spec page = earlier ++ run :: later ->
        (forall other, other ∈ later -> lastWrite (relocate location (runWrites spec other)) cls = none) ->
        lastWrite (relocate location (assignAll [] (runWrites spec run))) cls =
          lastWrite (relocate location (runWrites spec run)) cls := by
    have inRun : forall run, run ∈ runs spec page -> spec.markerInKey = true ->
        forall record, record ∈ run -> spec.isDelete record = true := by
      intro run member inside record recordMember
      exact keyed inside record (mem_readableRows_of_mem_run member recordMember)
    have applied := fun table => applyPlans_eq address spec location (runs spec page) table
      (fun run member => plannedWrites_runPlan address spec location factors member (inRun run member))
    simp only [planWritesOrdered_eq, applied, applyPage_eq_runs address spec location factors,
      Option.some.injEq]
    rw [writeAll_eq_iff]
    refine forall_congr' (fun cls => ?_)
    exact lastWrite_flatten_eq_iff (runs spec page) _ _ cls
      (fun run _ => lastWrite_relocate_assignAll_eq_none_iff location (runWrites spec run) cls)
  constructor
  · intro agree
    have keyed := keyed_of_applyPlans address spec page (fun _ => none) (by
      rw [agree]
      exact Option.some_ne_none _)
    refine ⟨keyed, ?_⟩
    intro earlier run later record tuple split member isUpsert reading untouched
    have runMember : run ∈ runs spec page := by
      rw [split]
      exact List.mem_append_right earlier List.mem_cons_self
    have upserts : forall other, other ∈ run -> spec.isDelete other = false :=
      fun other inside => (isDelete_of_mem_run runMember inside member).trans isUpsert
    have outside := markerInKey_of_upsert spec keyed (mem_readableRows_of_mem_run runMember member) isUpsert
    refine (lastWrite_upsertRun_iff address spec location factors run (address tuple) outside upserts).mp ?_
    refine (equivalence keyed).mp agree (address tuple) earlier run later split ?_
    intro other otherMember
    refine (lastWrite_runWrites_eq_none_iff address spec location factors other (address tuple)).mpr ?_
    intro otherRecord inside otherTuple otherReading
    exact untouched otherRecord (List.mem_flatten.mpr ⟨other, otherMember, inside⟩) otherTuple otherReading
  · intro kept
    refine (equivalence kept.keyed).mpr ?_
    intro cls earlier run later split untouched
    have runMember : run ∈ runs spec page := by
      rw [split]
      exact List.mem_append_right earlier List.mem_cons_self
    by_cases deletes : forall record, record ∈ run -> spec.isDelete record = true
    · exact lastWrite_deleteRun spec location run cls deletes
    · rcases Classical.not_forall.mp deletes with ⟨witness, notDelete⟩
      rcases Classical.not_imp.mp notDelete with ⟨witnessMember, isUpsert⟩
      rw [Bool.not_eq_true] at isUpsert
      have upserts : forall other, other ∈ run -> spec.isDelete other = false :=
        fun other inside => (isDelete_of_mem_run runMember inside witnessMember).trans isUpsert
      have outside := markerInKey_of_upsert spec kept.keyed
        (mem_readableRows_of_mem_run runMember witnessMember) isUpsert
      cases sequential : lastWrite (relocate location (runWrites spec run)) cls with
      | none => exact (lastWrite_relocate_assignAll_eq_none_iff location (runWrites spec run) cls).mpr sequential
      | some value =>
          have touched : ¬ lastWrite (relocate location (runWrites spec run)) cls = none := by
            rw [sequential]
            exact Option.some_ne_none value
          rw [lastWrite_runWrites_eq_none_iff address spec location factors] at touched
          push Not at touched
          rcases touched with ⟨record, member, tuple, reading, same⟩
          subst same
          rw [← sequential]
          refine (lastWrite_upsertRun_iff address spec location factors run (address tuple) outside upserts).mpr ?_
          refine kept.last earlier run later record tuple split member (upserts record member) reading ?_
          intro other otherMember otherTuple otherReading
          rcases List.mem_flatten.mp otherMember with ⟨block, blockMember, inside⟩
          exact (lastWrite_runWrites_eq_none_iff address spec location factors block (address tuple)).mp
            (untouched block blockMember) other inside otherTuple otherReading

end Destination

/-! ## Collations -/

/-- The equality by which a destination compares keys.  It never separates
keys that the planner identifies. -/
structure Collation where
  relation : Setoid KeyTuple
  same : DecidableRel relation.r
  coarser : forall left right, canonical left = canonical right -> relation.r left right

namespace Collation

/-- Where a table keyed modulo the collation keeps a key. -/
def Address (collation : Collation) : Type := Quotient collation.relation

instance (collation : Collation) : DecidableEq collation.Address :=
  @Quotient.decidableEq _ collation.relation collation.same

def address (collation : Collation) (tuple : KeyTuple) : collation.Address :=
  Quotient.mk collation.relation tuple

theorem exists_location (collation : Collation) :
    exists location : String -> collation.Address,
      forall tuple, location (canonical tuple) = collation.address tuple := by
  have factors : Function.FactorsThrough collation.address canonical :=
    fun left right same => Quotient.sound (collation.coarser left right same)
  have nonempty : Nonempty collation.Address := ⟨collation.address ⟨[]⟩⟩
  rcases (Function.factorsThrough_iff collation.address).mp factors with ⟨location, composed⟩
  exact ⟨location, fun tuple => (congrFun composed tuple).symm⟩

/-- Text keys compared without regard to case. -/
def ignoringCase : Collation where
  relation := Setoid.ker (fun tuple => (canonical tuple).toList.map Char.toLower)
  same := fun left right => inferInstanceAs
    (Decidable ((canonical left).toList.map Char.toLower = (canonical right).toList.map Char.toLower))
  coarser := fun _ _ same => congrArg (fun text => text.toList.map Char.toLower) same

end Collation

/-- For every page, specification and collation: the ordered plans leave the
table of the page row by row exactly when every class of equal keys that ends
in an upsert takes that row from the last of its spellings to appear in the
run, and no upsert lost its key to the marker. -/
theorem planWritesOrdered_collation_iff (page : List Value) (spec : WriteSpec) (collation : Collation) :
    (forall table : collation.Address -> Option Value,
        applyPlans collation.address spec.key table (planWritesOrdered page spec) =
          some (applyPage collation.address spec table page)) ↔
      OrderKept collation.address spec page := by
  rcases collation.exists_location with ⟨location, factors⟩
  exact applyPlans_eq_applyPage_iff collation.address spec location factors page

/-- Three rows of one person in two spellings.  The planner moves the third
row in front of the second. -/
def respelledPage : List Value :=
  [.object [("name", .string "Bob"), ("v", .number (.int 1))],
   .object [("name", .string "bob"), ("v", .number (.int 2))],
   .object [("name", .string "Bob"), ("v", .number (.int 3))]]

theorem respelledPage_keeps_older_row :
    ¬ forall table : Collation.ignoringCase.Address -> Option Value,
      applyPlans Collation.ignoringCase.address ["name"] table
          (planWritesOrdered respelledPage ⟨.upsert, ["name"], none⟩) =
        some (applyPage Collation.ignoringCase.address ⟨.upsert, ["name"], none⟩ table respelledPage) := by
  intro agree
  have planned : planWritesOrdered respelledPage ⟨.upsert, ["name"], none⟩ =
      [⟨[.object [("name", .string "Bob"), ("v", .number (.int 3))],
        .object [("name", .string "bob"), ("v", .number (.int 2))]], [], []⟩] := by decide +kernel
  have final := agree (fun _ => none)
  simp only [planned, applyPlans, List.foldlM_cons, List.foldlM_nil, bind_pure] at final
  rw [applyPlan_eq, applyPage_eq] at final
  have row := congrArg (Option.map (fun table =>
    table (Collation.ignoringCase.address ⟨[("name", .string "bob")]⟩))) final
  rw [Option.map_map, Option.map_some] at row
  simp only [Function.comp_def, writeAll_apply] at row
  revert row
  decide +kernel

end KeyedWrites
end FaucetStream
