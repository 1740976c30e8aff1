import Mathlib.Data.List.Perm.Basic
import Mathlib.Data.List.Basic

namespace FaucetStream
namespace Library

/-!
# Splitting a list into a kept and a removed part

A pass over a list keeps some entries in order and sets the others aside.
Passes compose: what the second one removes joins what the first one removed.
-/

universe u v

variable {A : Type u}

/-- `kept` and `removed` make up `rows`, and `kept` is still in order. -/
structure Split (rows kept removed : List A) : Prop where
  order : kept.Sublist rows
  whole : (kept ++ removed).Perm rows

namespace Split

theorem refl (rows : List A) : Split rows rows [] :=
  ⟨List.Sublist.refl rows, by rw [List.append_nil]⟩

theorem trans {rows kept removed rest dropped : List A} (first : Split rows kept removed)
    (second : Split kept rest dropped) : Split rows rest (removed ++ dropped) := by
  refine ⟨second.order.trans first.order, ?_⟩
  have swapped : (rest ++ (removed ++ dropped)).Perm (rest ++ dropped ++ removed) := by
    rw [List.append_assoc]
    exact List.Perm.append_left rest List.perm_append_comm
  exact swapped.trans ((second.whole.append_right removed).trans first.whole)

theorem filter (rows : List A) (leaves : A -> Bool) :
    Split rows (rows.filter (fun row => !leaves row)) (rows.filter leaves) := by
  refine ⟨List.filter_sublist, ?_⟩
  exact List.perm_append_comm.trans (List.filter_append_perm leaves rows)

theorem all (rows : List A) : Split rows [] rows :=
  ⟨List.nil_sublist rows, by rw [List.nil_append]⟩

theorem mem_removed {rows kept removed : List A} (split : Split rows kept removed) {row : A}
    (member : row ∈ removed) : row ∈ rows :=
  split.whole.subset (List.mem_append_right kept member)

theorem map {B : Type v} {rows kept removed : List A} (split : Split rows kept removed) (convert : A -> B) :
    Split (rows.map convert) (kept.map convert) (removed.map convert) := by
  refine ⟨split.order.map convert, ?_⟩
  rw [← List.map_append]
  exact split.whole.map convert

/-- One more row at the end, kept or removed. -/
theorem concat_kept {rows kept removed : List A} (split : Split rows kept removed) (row : A) :
    Split (rows ++ [row]) (kept ++ [row]) removed := by
  refine ⟨split.order.append (List.Sublist.refl [row]), ?_⟩
  rw [List.append_assoc]
  refine (List.Perm.append_left kept List.perm_append_comm).trans ?_
  rw [← List.append_assoc]
  exact split.whole.append_right [row]

theorem concat_removed {rows kept removed : List A} (split : Split rows kept removed) (row : A) :
    Split (rows ++ [row]) kept (removed ++ [row]) := by
  refine ⟨split.order.trans (List.sublist_append_left rows [row]), ?_⟩
  rw [← List.append_assoc]
  exact split.whole.append_right [row]

private theorem filter_mem_kept [DecidableEq A] {rows kept : List A} (order : kept.Sublist rows)
    (nodup : rows.Nodup) : rows.filter (fun row => decide (row ∈ kept)) = kept := by
  induction order with
  | slnil => rfl
  | @cons kept rows row order ih =>
      have parts := List.nodup_cons.mp nodup
      have absent : row ∉ kept := fun member => parts.1 (order.subset member)
      rw [List.filter_cons_of_neg (by rw [decide_eq_true_eq]; exact absent)]
      exact ih parts.2
  | @cons_cons kept rows row order ih =>
      have parts := List.nodup_cons.mp nodup
      rw [List.filter_cons_of_pos (by rw [decide_eq_true_eq]; exact List.mem_cons_self)]
      congr 1
      refine Eq.trans (List.filter_congr (fun other member => ?_)) (ih parts.2)
      have different : other ≠ row := fun same => parts.1 (same ▸ member)
      simp only [List.mem_cons, different, false_or]

/-- Among distinct rows the kept ones are those not removed. -/
theorem kept_eq_filter [DecidableEq A] {rows kept removed : List A} (split : Split rows kept removed)
    (nodup : rows.Nodup) : kept = rows.filter (fun row => !removed.contains row) := by
  rw [← filter_mem_kept split.order nodup]
  refine List.filter_congr (fun row member => ?_)
  have apart := List.nodup_append.mp (split.whole.nodup_iff.mpr nodup)
  rw [List.contains_eq_mem]
  by_cases inside : row ∈ kept
  · have outside : row ∉ removed := fun other => apart.2.2 row inside row other rfl
    rw [decide_eq_true inside, decide_eq_false outside]
    rfl
  · have other : row ∈ removed :=
      (List.mem_append.mp (split.whole.mem_iff.mpr member)).resolve_left inside
    rw [decide_eq_false inside, decide_eq_true other]
    rfl

end Split

end Library
end FaucetStream
