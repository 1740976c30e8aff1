import Mathlib.Data.Multiset.AddSub
import Mathlib.Data.Multiset.MapFold

namespace FaucetStream
namespace Library

/-!
# Bags that are still due

A bag `due` of expected items is ticked off against the items `taken` so far.
One more item either meets an open copy, or exceeds what was due.
-/

universe u

variable {A : Type u}

theorem coe_concat (items : List A) (item : A) :
    ((items ++ [item] : List A) : Multiset A) = item ::ₘ (items : Multiset A) := by
  rw [Multiset.cons_coe, Multiset.coe_eq_coe]
  exact List.perm_append_singleton item items

variable [DecidableEq A] {due taken : Multiset A} {item : A}

/-- An item that is still due is ticked off. -/
theorem sub_cons_of_mem (isDue : item ∈ due - taken) :
    due - item ::ₘ taken = (due - taken).erase item ∧ item ::ₘ taken - due = taken - due := by
  have more : taken.count item < due.count item := by
    have positive := Multiset.count_pos.mpr isDue
    rw [Multiset.count_sub] at positive
    exact Nat.lt_of_sub_pos positive
  constructor
  · ext other
    by_cases same : other = item
    · subst same
      rw [Multiset.count_erase_self, Multiset.count_sub, Multiset.count_sub, Multiset.count_cons_self]
      exact (Nat.sub_sub _ _ _).symm
    · rw [Multiset.count_erase_of_ne same, Multiset.count_sub, Multiset.count_sub,
        Multiset.count_cons_of_ne same]
  · ext other
    by_cases same : other = item
    · subst same
      rw [Multiset.count_sub, Multiset.count_sub, Multiset.count_cons_self,
        Nat.sub_eq_zero_of_le more, Nat.sub_eq_zero_of_le (Nat.le_of_lt more)]
    · rw [Multiset.count_sub, Multiset.count_sub, Multiset.count_cons_of_ne same]

/-- An item that is not due any more is in excess. -/
theorem sub_cons_of_notMem (notDue : item ∉ due - taken) :
    due - item ::ₘ taken = due - taken ∧ item ::ₘ taken - due = item ::ₘ (taken - due) := by
  have enough : due.count item ≤ taken.count item := by
    have zero := Multiset.count_eq_zero.mpr notDue
    rw [Multiset.count_sub] at zero
    exact Nat.sub_eq_zero_iff_le.mp zero
  constructor
  · ext other
    by_cases same : other = item
    · subst same
      rw [Multiset.count_sub, Multiset.count_sub, Multiset.count_cons_self,
        Nat.sub_eq_zero_of_le enough, Nat.sub_eq_zero_of_le (Nat.le_succ_of_le enough)]
    · rw [Multiset.count_sub, Multiset.count_sub, Multiset.count_cons_of_ne same]
  · ext other
    by_cases same : other = item
    · subst same
      rw [Multiset.count_cons_self, Multiset.count_sub, Multiset.count_sub, Multiset.count_cons_self,
        Nat.sub_add_comm enough]
    · rw [Multiset.count_cons_of_ne same, Multiset.count_sub, Multiset.count_sub,
        Multiset.count_cons_of_ne same]

end Library
end FaucetStream
