import Mathlib.Data.Finset.Card
import Mathlib.Data.Finset.Filter
import Mathlib.Data.Set.Finite.Lattice
import Mathlib.Logic.Relation
import Mathlib.Order.WellFounded

namespace FaucetStream
namespace Library

/-!
# Runs that end

A machine is given one input after another and may stop at any of them.  A
measure that every step lowers bounds the run.  Such a measure comes from a
growing set inside a finite one, or from a relation without a cycle on finitely
many values.
-/

universe u v

variable {State : Type u} {Input : Type v}

/-! ## Runs -/

/-- The state before an input, while the machine has not stopped. -/
def stateAt (step : Input -> State -> Option State) (inputs : Nat -> Input) (start : State) : Nat -> Option State
  | 0 => some start
  | count + 1 => (stateAt step inputs start count).bind (step (inputs count))

theorem stateAt_none_of_le {step : Input -> State -> Option State} {inputs : Nat -> Input} {start : State}
    {count later : Nat} (stopped : stateAt step inputs start count = none) (order : count ≤ later) :
    stateAt step inputs start later = none := by
  induction order with
  | refl => exact stopped
  | step _ ih => rw [stateAt, ih, Option.bind_none]

/-- The inputs after which the machine goes on are finitely many once it
stops. -/
theorem steps_finite {step : Input -> State -> Option State} {inputs : Nat -> Input} {start : State} {count : Nat}
    (stopped : stateAt step inputs start count = none) :
    {turn | (stateAt step inputs start (turn + 1)).isSome = true}.Finite := by
  apply Set.Finite.subset (Set.finite_lt_nat count)
  intro turn going
  by_contra late
  have order : count ≤ turn + 1 := Nat.le_succ_of_le (Nat.le_of_not_lt late)
  have gone : (stateAt step inputs start (turn + 1)).isSome = true := going
  rw [stateAt_none_of_le stopped order] at gone
  cases gone

/-- A machine that never stops goes on after every input. -/
theorem steps_infinite {step : Input -> State -> Option State} {inputs : Nat -> Input} {start : State}
    (going : forall count, (stateAt step inputs start count).isSome = true) :
    ¬ {turn | (stateAt step inputs start (turn + 1)).isSome = true}.Finite := by
  intro finite
  have everything : {turn | (stateAt step inputs start (turn + 1)).isSome = true} = Set.univ := by
    ext turn
    exact ⟨fun _ => trivial, fun _ => going (turn + 1)⟩
  rw [everything] at finite
  exact Set.infinite_univ finite

/-- Steps that keep an invariant and lower a measure come to an end. -/
theorem stops_of_measure {step : Input -> State -> Option State} {inputs : Nat -> Input} (holds : State -> Prop)
    (measure : State -> Nat)
    (lowers : forall turn state next, holds state -> step (inputs turn) state = some next ->
      holds next ∧ measure next < measure state)
    {start : State} (initial : holds start) : exists count, stateAt step inputs start count = none := by
  have bounded : forall count state, stateAt step inputs start count = some state ->
      holds state ∧ measure state + count ≤ measure start := by
    intro count
    induction count with
    | zero =>
        intro state reached
        rw [← Option.some.inj reached]
        exact ⟨initial, Nat.le_refl _⟩
    | succ count ih =>
        intro state reached
        rw [stateAt] at reached
        rcases Option.bind_eq_some_iff.mp reached with ⟨before, earlier, stepped⟩
        rcases ih before earlier with ⟨kept, bound⟩
        rcases lowers count before state kept stepped with ⟨still, less⟩
        exact ⟨still, by omega⟩
  cases last : stateAt step inputs start (measure start + 1) with
  | none => exact ⟨measure start + 1, last⟩
  | some state =>
      have bound := (bounded _ state last).2
      omega

/-- Steps that are always possible where an invariant holds, and keep it, do
not come to an end. -/
theorem goes_on_of_invariant {step : Input -> State -> Option State} {inputs : Nat -> Input}
    (holds : Nat -> State -> Prop)
    (goes : forall turn state, holds turn state -> exists next, step (inputs turn) state = some next ∧
      holds (turn + 1) next)
    {start : State} (initial : holds 0 start) (count : Nat) :
    (stateAt step inputs start count).isSome = true := by
  have reached : exists state, stateAt step inputs start count = some state ∧ holds count state := by
    induction count with
    | zero => exact ⟨start, rfl, initial⟩
    | succ count ih =>
        rcases ih with ⟨state, here, held⟩
        rcases goes count state held with ⟨next, stepped, still⟩
        exact ⟨next, by rw [stateAt, here, Option.bind_some, stepped], still⟩
  rcases reached with ⟨state, here, _⟩
  rw [here]
  rfl

/-! ## Measures -/

/-- How many items of a finite set are not met yet. -/
def unseen {Item : Type u} [DecidableEq Item] (all seen : Finset Item) : Nat := (all \ seen).card

theorem unseen_lt {Item : Type u} [DecidableEq Item] {all seen more : Finset Item} {item : Item}
    (member : item ∈ all) (fresh : item ∉ seen) (kept : seen ⊆ more) (met : item ∈ more) :
    unseen all more < unseen all seen := by
  apply Finset.card_lt_card
  apply Finset.ssubset_iff_of_subset (Finset.sdiff_subset_sdiff (Finset.Subset.refl all) kept) |>.mpr
  exact ⟨item, Finset.mem_sdiff.mpr ⟨member, fresh⟩, fun inside => (Finset.mem_sdiff.mp inside).2 met⟩

open Classical in
/-- How many values of a finite set lie above a value. -/
noncomputable def above {Item : Type u} (relation : Item -> Item -> Prop) (all : Finset Item) (item : Item) : Nat :=
  (all.filter (Relation.TransGen relation item)).card

open Classical in
theorem above_le {Item : Type u} (relation : Item -> Item -> Prop) (all : Finset Item) (item : Item) :
    above relation all item ≤ all.card := by
  unfold above
  exact Finset.card_filter_le _ _

open Classical in
/-- A step up a relation without a cycle leaves fewer values above. -/
theorem above_lt {Item : Type u} {relation : Item -> Item -> Prop} {all : Finset Item} {low high : Item}
    (acyclic : forall item, ¬ Relation.TransGen relation item item) (rises : relation low high)
    (member : high ∈ all) : above relation all high < above relation all low := by
  apply Finset.card_lt_card
  have smaller : all.filter (Relation.TransGen relation high) ⊆ all.filter (Relation.TransGen relation low) := by
    intro item inside
    rcases Finset.mem_filter.mp inside with ⟨known, reached⟩
    exact Finset.mem_filter.mpr ⟨known, Relation.TransGen.head rises reached⟩
  apply (Finset.ssubset_iff_of_subset smaller).mpr
  refine ⟨high, Finset.mem_filter.mpr ⟨member, Relation.TransGen.single rises⟩, ?_⟩
  intro inside
  exact acyclic high (Finset.mem_filter.mp inside).2

theorem not_acc_of_loop {Item : Type u} {relation : Item -> Item -> Prop} {item : Item} (loop : relation item item) :
    ¬ Acc relation item := by
  intro accessible
  induction accessible with
  | intro item _ ih => exact ih item loop loop

/-- A cycle is walked forever. -/
theorem exists_endless_walk {Item : Type u} {relation : Item -> Item -> Prop} {item : Item}
    (cycle : Relation.TransGen relation item item) :
    exists walk : Nat -> Item, walk 0 = item ∧ forall count, relation (walk count) (walk (count + 1)) := by
  apply (not_acc_iff_exists_descending_chain (r := fun high low => relation low high)).mp
  intro accessible
  exact not_acc_of_loop (Relation.transGen_swap.mpr cycle) accessible.transGen

end Library
end FaucetStream
