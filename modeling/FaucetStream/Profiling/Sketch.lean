import Mathlib.Data.String.Basic
import FaucetStream.Library.SpaceSaving

namespace FaucetStream
namespace Profiling

open Library

/-!
# The most frequent values of a column

A column's profile lists the values it held most often, with an upper bound of
how often and how far that bound may be off.  The sketch behind it keeps four
counters for each value it is to report.
-/

/-- The counters of the tracked values, one for each. -/
structure TopK where
  capacity : Nat
  counters : List (Counter String)
  positive : 0 < capacity
  distinct : (counters.map Counter.key).Nodup

namespace TopK

/-- The order in which `insert` looks for the least counter. -/
def before (one two : Counter String) : Bool :=
  decide (one.count < two.count) || (one.count == two.count && decide (one.key < two.key))

/-- The first counter, or a later one before it. -/
def leastOf : Counter String -> List (Counter String) -> Counter String
  | first, [] => first
  | first, next :: rest => leastOf (if before next first then next else first) rest

def new (k : Nat) : TopK where
  capacity := max (k * 4) 1
  counters := []
  positive := Nat.lt_of_lt_of_le Nat.one_pos (Nat.le_max_right _ _)
  distinct := List.nodup_nil

/-- The counters after one more value. -/
def insertInto (capacity : Nat) (counters : List (Counter String)) (value : String) : List (Counter String) :=
  if value ∈ counters.map Counter.key then counters.map (bump value)
  else if counters.length < capacity then ⟨value, 1, 0⟩ :: counters
  else
    match counters with
    -- a sketch has room for a counter
    | [] => []
    | first :: rest => supplant value (leastOf first rest) (first :: rest)

theorem leastOf_spec (first : Counter String) (rest : List (Counter String)) :
    leastOf first rest ∈ first :: rest ∧
      forall other, other ∈ first :: rest -> (leastOf first rest).count ≤ other.count := by
  induction rest generalizing first with
  | nil =>
      refine ⟨List.mem_singleton.mpr rfl, ?_⟩
      intro other member
      rw [List.mem_singleton.mp member]
      exact le_refl _
  | cons next rest ih =>
      rcases ih (if before next first then next else first) with ⟨member, least⟩
      have smaller : (if before next first then next else first).count ≤ first.count ∧
          (if before next first then next else first).count ≤ next.count := by
        unfold before
        split <;> rename_i found
        · rw [Bool.or_eq_true, decide_eq_true_iff, Bool.and_eq_true, beq_iff_eq] at found
          omega
        · rw [Bool.or_eq_true, decide_eq_true_iff, not_or] at found
          omega
      have chosen : (if before next first then next else first) = next ∨
          (if before next first then next else first) = first := by
        split
        · exact Or.inl rfl
        · exact Or.inr rfl
      have start := least _ List.mem_cons_self
      change leastOf (if before next first then next else first) rest ∈ first :: next :: rest ∧
        forall other, other ∈ first :: next :: rest ->
          (leastOf (if before next first then next else first) rest).count ≤ other.count
      constructor
      · rcases List.mem_cons.mp member with here | further
        · rw [here]
          rcases chosen with isNext | isFirst
          · rw [isNext]
            exact List.mem_cons_of_mem _ List.mem_cons_self
          · rw [isFirst]
            exact List.mem_cons_self
        · exact List.mem_cons_of_mem _ (List.mem_cons_of_mem _ further)
      · intro other present
        rcases List.mem_cons.mp present with rfl | present
        · exact le_trans start smaller.1
        · rcases List.mem_cons.mp present with rfl | present
          · exact le_trans start smaller.2
          · exact least other (List.mem_cons_of_mem _ present)

variable {capacity : Nat} {counters : List (Counter String)} {values : List String}

theorem summary_insertInto (positive : 0 < capacity) (summary : Summary capacity values counters) (value : String) :
    Summary capacity (values ++ [value]) (insertInto capacity counters value) := by
  unfold insertInto
  by_cases tracked : value ∈ counters.map Counter.key
  · rw [if_pos tracked]
    exact summary.hit tracked
  · rw [if_neg tracked]
    by_cases room : counters.length < capacity
    · rw [if_pos room]
      exact summary.add tracked room
    · rw [if_neg room]
      cases counters with
      | nil => exact absurd positive room
      | cons first rest =>
          rcases leastOf_spec first rest with ⟨member, least⟩
          exact summary.replace tracked member least (le_antisymm summary.small (Nat.not_lt.mp room))

theorem distinct_insertInto (distinct : (counters.map Counter.key).Nodup) (value : String) :
    ((insertInto capacity counters value).map Counter.key).Nodup := by
  unfold insertInto
  by_cases tracked : value ∈ counters.map Counter.key
  · rw [if_pos tracked, keys_bump]
    exact distinct
  · rw [if_neg tracked]
    by_cases room : counters.length < capacity
    · rw [if_pos room]
      exact List.nodup_cons.mpr ⟨tracked, distinct⟩
    · rw [if_neg room]
      cases counters with
      | nil => exact List.nodup_nil
      | cons first rest =>
          refine List.nodup_cons.mpr ⟨?_, distinct.sublist (List.filter_sublist.map _)⟩
          intro kept
          rcases List.mem_map.mp kept with ⟨counter, present, same⟩
          exact tracked (List.mem_map.mpr ⟨counter, (List.mem_filter.mp present).1, same⟩)

def insert (sketch : TopK) (value : String) : TopK where
  capacity := sketch.capacity
  counters := insertInto sketch.capacity sketch.counters value
  positive := sketch.positive
  distinct := distinct_insertInto sketch.distinct value

/-- The order of the report: the most frequent first, and then by value. -/
def reportBefore (one two : Counter String) : Bool :=
  decide (two.count < one.count) || (two.count == one.count && decide (one.key ≤ two.key))

def top (sketch : TopK) (k : Nat) : List (Counter String) := (sketch.counters.mergeSort reportBefore).take k

/-! ## A column's values -/

/-- The sketch after a column's values. -/
def ofValues (k : Nat) (values : List String) : TopK := values.foldl insert (new k)

theorem summary_ofValues (k : Nat) (values : List String) :
    Summary (max (k * 4) 1) values (ofValues k values).counters := by
  have run : forall (rest seen : List String) (sketch : TopK), sketch.capacity = max (k * 4) 1 ->
      Summary (max (k * 4) 1) seen sketch.counters ->
      Summary (max (k * 4) 1) (seen ++ rest) (rest.foldl insert sketch).counters := by
    intro rest
    induction rest with
    | nil =>
        intro seen sketch _ summary
        rw [List.append_nil]
        exact summary
    | cons value rest ih =>
        intro seen sketch size summary
        have step : Summary (max (k * 4) 1) (seen ++ [value]) (sketch.insert value).counters := by
          rw [← size] at summary ⊢
          exact summary_insertInto sketch.positive summary value
        have further := ih (seen ++ [value]) (sketch.insert value) size step
        rw [List.append_assoc] at further
        exact further
  exact run values [] (new k) rfl (Summary.start _)

theorem reportBefore_trans (one two three : Counter String) (first : reportBefore one two = true)
    (second : reportBefore two three = true) : reportBefore one three = true := by
  unfold reportBefore at first second ⊢
  rw [Bool.or_eq_true, decide_eq_true_iff, Bool.and_eq_true, beq_iff_eq, decide_eq_true_iff] at first second ⊢
  rcases first with more | ⟨same, ordered⟩
  · refine Or.inl ?_
    rcases second with fewer | ⟨equal, _⟩
    · exact Nat.lt_trans fewer more
    · rw [equal]
      exact more
  · rcases second with fewer | ⟨equal, further⟩
    · refine Or.inl ?_
      rw [← same]
      exact fewer
    · exact Or.inr ⟨equal.trans same, le_trans ordered further⟩

theorem reportBefore_total (one two : Counter String) : (reportBefore one two || reportBefore two one) = true := by
  unfold reportBefore
  rw [Bool.or_eq_true, Bool.or_eq_true, Bool.or_eq_true, decide_eq_true_iff, decide_eq_true_iff, Bool.and_eq_true,
    Bool.and_eq_true, beq_iff_eq, beq_iff_eq, decide_eq_true_iff, decide_eq_true_iff]
  rcases Nat.lt_trichotomy one.count two.count with fewer | same | more
  · exact Or.inr (Or.inl fewer)
  · rcases le_total one.key two.key with ordered | ordered
    · exact Or.inl (Or.inr ⟨same.symm, ordered⟩)
    · exact Or.inr (Or.inr ⟨same, ordered⟩)
  · exact Or.inl (Or.inl more)

/-- The report is exact within its bounds, has a counter for each frequent
value, and the counters are not more than the sketch may hold. -/
theorem top_bounds (k : Nat) (values : List String) :
    (ofValues k values).counters.length ≤ max (k * 4) 1 ∧
    (forall counter, counter ∈ (ofValues k values).top k ->
      values.count counter.key ≤ counter.count ∧ counter.count ≤ values.count counter.key + counter.error ∧
        counter.error * (k * 4) ≤ values.length) ∧
    forall value, values.length < values.count value * k -> value ∈ ((ofValues k values).top k).map Counter.key := by
  have summary := summary_ofValues k values
  have same := List.mergeSort_perm (ofValues k values).counters reportBefore
  have sorted := List.pairwise_mergeSort reportBefore_trans reportBefore_total (ofValues k values).counters
  refine ⟨summary.small, ?_, ?_⟩
  · intro counter member
    have tracked := same.mem_iff.mp (List.mem_of_mem_take member)
    refine ⟨summary.lower counter tracked, summary.upper counter tracked, ?_⟩
    exact le_trans (Nat.mul_le_mul_left _ (Nat.le_max_left _ _)) (summary.error_share tracked)
  · intro value heavy
    refine summary.tops same ?_ (le_trans (Nat.le_mul_of_pos_right k (by decide)) (Nat.le_max_left _ _)) heavy
    refine sorted.imp ?_
    intro one two ordered
    unfold reportBefore at ordered
    rw [Bool.or_eq_true, decide_eq_true_iff, Bool.and_eq_true, beq_iff_eq] at ordered
    omega

/-- Two values in turn, and the counts of both. -/
example : ((ofValues 1 ["a", "b", "a"]).counters.map Counter.count) = [1, 2] := by decide

end TopK

end Profiling
end FaucetStream
