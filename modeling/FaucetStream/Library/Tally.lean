import Mathlib.Data.List.Induction
import Mathlib.Data.List.Nodup

namespace FaucetStream
namespace Library

/-!
# Rows counted by key

A table holds for every key how many rows have it and the first of them.  The
rows behind an entry are the rows filtered by its key, which is how the lemmas
read the table.
-/

variable {K Row : Type} [DecidableEq K]

/-- Count one more row. -/
def tally (table : List (K × Nat × Row)) (key : K) (row : Row) : List (K × Nat × Row) :=
  match table with
  | [] => [(key, 1, row)]
  | entry :: rest =>
      if entry.1 = key then (key, entry.2.1 + 1, entry.2.2) :: rest else entry :: tally rest key row

def tallyAll (key : Row -> K) (rows : List Row) : List (K × Nat × Row) :=
  rows.foldl (fun table row => tally table (key row) row) []

/-- How many rows there are, and the first. -/
def summary : List Row -> Option (Nat × Row)
  | [] => none
  | first :: others => some (others.length + 1, first)

theorem summary_append_singleton (rows : List Row) (row : Row) :
    summary (rows ++ [row]) =
      match summary rows with
      | none => some (1, row)
      | some (count, first) => some (count + 1, first) := by
  cases rows with
  | nil => rfl
  | cons first others =>
      simp only [summary, List.cons_append, List.length_append, List.length_singleton]

theorem map_fst_tally (table : List (K × Nat × Row)) (key : K) (row : Row) :
    (tally table key row).map Prod.fst =
      if key ∈ table.map Prod.fst then table.map Prod.fst else table.map Prod.fst ++ [key] := by
  induction table with
  | nil => rfl
  | cons entry rest ih =>
      unfold tally
      by_cases here : entry.1 = key
      · rw [if_pos here, if_pos (by rw [List.map_cons, here]; exact List.mem_cons_self), List.map_cons, List.map_cons,
          here]
      · rw [if_neg here, List.map_cons, ih, List.map_cons]
        by_cases later : key ∈ rest.map Prod.fst
        · rw [if_pos later, if_pos (List.mem_cons_of_mem _ later)]
        · have absent : key ∉ entry.1 :: rest.map Prod.fst := by
            intro found
            rcases List.mem_cons.mp found with same | inside
            · exact here same.symm
            · exact later inside
          rw [if_neg later, if_neg absent]
          rfl

theorem tallyAll_append (key : Row -> K) (rows : List Row) (row : Row) :
    tallyAll key (rows ++ [row]) = tally (tallyAll key rows) (key row) row := by
  rw [tallyAll, List.foldl_append]
  rfl

theorem nodup_map_fst_tallyAll (key : Row -> K) (rows : List Row) : ((tallyAll key rows).map Prod.fst).Nodup := by
  induction rows using List.reverseRecOn with
  | nil => exact List.nodup_nil
  | append_singleton rows row ih =>
      rw [tallyAll_append, map_fst_tally]
      split
      · exact ih
      · rename_i absent
        exact List.nodup_append.mpr ⟨ih, List.nodup_singleton _, by
          intro left inside right alone same
          rw [same, List.mem_singleton.mp alone] at inside
          exact absent inside⟩

section Lookup

variable [BEq K] [LawfulBEq K]

theorem lookup_tally (table : List (K × Nat × Row)) (key other : K) (row : Row) :
    (tally table key row).lookup other =
      if other = key then
        match table.lookup key with
        | none => some (1, row)
        | some (count, first) => some (count + 1, first)
      else table.lookup other := by
  induction table with
  | nil =>
      by_cases same : other = key
      · rw [if_pos same, tally, List.lookup_cons, beq_iff_eq.mpr same]
        rfl
      · rw [if_neg same, tally, List.lookup_cons, beq_eq_false_iff_ne.mpr same]
  | cons entry rest ih =>
      rcases entry with ⟨name, count, first⟩
      unfold tally
      by_cases here : name = key
      · rw [if_pos here]
        by_cases same : other = key
        · rw [if_pos same, List.lookup_cons, beq_iff_eq.mpr same, List.lookup_cons, beq_iff_eq.mpr here.symm]
        · rw [if_neg same, List.lookup_cons, beq_eq_false_iff_ne.mpr same, List.lookup_cons,
            beq_eq_false_iff_ne.mpr (fun found => same (found.trans here))]
      · rw [if_neg here, List.lookup_cons, ih]
        by_cases found : other = name
        · have different : other ≠ key := fun same => here (found.symm.trans same)
          simp only [if_neg different, List.lookup_cons, beq_iff_eq.mpr found]
        · simp only [List.lookup_cons, beq_eq_false_iff_ne.mpr (Ne.symm here), beq_eq_false_iff_ne.mpr found]

/-- An entry of the table sums up the rows with its key. -/
theorem lookup_tallyAll (key : Row -> K) (rows : List Row) (name : K) :
    (tallyAll key rows).lookup name = summary (rows.filter (fun row => key row = name)) := by
  induction rows using List.reverseRecOn with
  | nil => rfl
  | append_singleton rows row ih =>
      rw [tallyAll_append, lookup_tally, List.filter_append, List.filter_singleton]
      by_cases same : name = key row
      · rw [if_pos same, ← same, decide_eq_true rfl, cond_true, summary_append_singleton, ih]
      · rw [if_neg same, decide_eq_false (fun other => same other.symm), cond_false, List.append_nil,
          ih]

theorem mem_tallyAll_iff {key : Row -> K} {rows : List Row} {name : K} {entry : Nat × Row} :
    (name, entry) ∈ tallyAll key rows <-> summary (rows.filter (fun row => key row = name)) = some entry := by
  rw [← lookup_tallyAll]
  constructor
  · intro member
    rcases List.append_of_mem member with ⟨before, after, split⟩
    refine List.lookup_eq_some_iff.mpr ⟨before, after, split, ?_⟩
    intro other inside
    have distinct := nodup_map_fst_tallyAll key rows
    rw [split, List.map_append, List.map_cons] at distinct
    have apart := (List.nodup_append.mp distinct).2.2 other.1 (List.mem_map_of_mem inside) name List.mem_cons_self
    exact bne_iff_ne.mpr (Ne.symm apart)
  · intro found
    rcases List.lookup_eq_some_iff.mp found with ⟨before, after, split, _⟩
    rw [split]
    exact List.mem_append_right _ List.mem_cons_self

end Lookup

end Library
end FaucetStream
