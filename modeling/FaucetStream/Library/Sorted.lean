import Mathlib.Data.List.Basic

namespace FaucetStream
namespace Library

/-!
# Lists sorted by a key

A list sorted by a key is cut by a bound into the items below it and the
others.  Sorting finds the order of a list again when no two keys are the same.
-/

universe u

variable {A : Type u}

theorem filter_lt_append_filter_le (key : A -> Nat) (bound : Nat) {items : List A}
    (sorted : items.Pairwise (fun first second => key first ≤ key second)) :
    items.filter (fun item => decide (key item < bound)) ++ items.filter (fun item => decide (bound ≤ key item)) =
      items := by
  induction items with
  | nil => rfl
  | cons item rest ih =>
      rcases List.pairwise_cons.mp sorted with ⟨least, sortedRest⟩
      by_cases below : key item < bound
      · rw [List.filter_cons_of_pos (by rw [decide_eq_true_eq]; exact below),
          List.filter_cons_of_neg (by rw [decide_eq_true_eq]; exact Nat.not_le.mpr below), List.cons_append,
          ih sortedRest]
      · have high : forall other, other ∈ item :: rest -> bound ≤ key other := by
          intro other member
          rcases List.mem_cons.mp member with same | later
          · exact same ▸ Nat.not_lt.mp below
          · exact Nat.le_trans (Nat.not_lt.mp below) (least other later)
        have none : (item :: rest).filter (fun item => decide (key item < bound)) = [] := by
          refine List.filter_eq_nil_iff.mpr (fun other member => ?_)
          rw [decide_eq_true_eq]
          exact Nat.not_lt.mpr (high other member)
        have all : (item :: rest).filter (fun item => decide (bound ≤ key item)) = item :: rest :=
          List.filter_eq_self.mpr (fun other member => decide_eq_true (high other member))
        rw [none, all, List.nil_append]

theorem pairwise_mergeSort_key (key : A -> Nat) (items : List A) :
    (items.mergeSort (fun first second => decide (key first ≤ key second))).Pairwise
      (fun first second => key first ≤ key second) := by
  refine (List.pairwise_mergeSort ?_ ?_ items).imp of_decide_eq_true
  · intro first second third before after
    rw [decide_eq_true_eq] at before after ⊢
    exact Nat.le_trans before after
  · intro first second
    rw [Bool.or_eq_true, decide_eq_true_eq, decide_eq_true_eq]
    exact Nat.le_total _ _

theorem eq_of_key_eq {key : A -> Nat} {items : List A}
    (strict : items.Pairwise (fun first second => key first < key second)) {one other : A} (inside : one ∈ items)
    (within : other ∈ items) (same : key one = key other) : one = other := by
  induction items with
  | nil => cases inside
  | cons item rest ih =>
      rcases List.pairwise_cons.mp strict with ⟨least, strictRest⟩
      rcases List.mem_cons.mp inside with rfl | behind
      · rcases List.mem_cons.mp within with rfl | beyond
        · rfl
        · exact absurd same (Nat.ne_of_lt (least other beyond))
      · rcases List.mem_cons.mp within with rfl | beyond
        · exact absurd same.symm (Nat.ne_of_lt (least one behind))
        · exact ih strictRest behind beyond

/-- There is one order for items with distinct keys. -/
theorem eq_of_sorted_perm {key : A -> Nat} {sorted ordered : List A}
    (weak : sorted.Pairwise (fun first second => key first ≤ key second))
    (strict : ordered.Pairwise (fun first second => key first < key second)) (perm : sorted.Perm ordered) :
    sorted = ordered := by
  refine List.Perm.eq_of_pairwise ?_ weak (strict.imp Nat.le_of_lt) perm
  intro one other inside within before after
  exact eq_of_key_eq strict (perm.mem_iff.mp inside) within (Nat.le_antisymm before after)

end Library
end FaucetStream
