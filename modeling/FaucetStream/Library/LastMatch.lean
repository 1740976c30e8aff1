import Mathlib.Data.List.Basic

namespace FaucetStream
namespace Library

/-!
# The last item that passes a test

It is taken out of a list, or changed where it stands.  There is only one place
where it can stand.
-/

universe u

variable {A : Type u} (holds : A -> Bool)

/-- The last item that passes, and the others. -/
def takeLast : List A -> Option (A × List A)
  | [] => none
  | item :: rest =>
      match takeLast rest with
      | some (found, others) => some (found, item :: others)
      | none => if holds item then some (item, rest) else none

/-- The last item that passes, as it was, and the list with it changed. -/
def modifyLast (change : A -> A) : List A -> Option (A × List A)
  | [] => none
  | item :: rest =>
      match modifyLast change rest with
      | some (found, changed) => some (found, item :: changed)
      | none => if holds item then some (item, change item :: rest) else none

variable {holds}

theorem takeLast_concat {item : A} (passes : holds item = true) (front : List A) :
    takeLast holds (front ++ [item]) = some (item, front) := by
  induction front with
  | nil =>
      rw [List.nil_append, takeLast]
      change (if holds item then some (item, []) else none) = _
      rw [if_pos passes]
  | cons first front ih => rw [List.cons_append, takeLast, ih]

theorem takeLast_eq_none {items : List A} :
    takeLast holds items = none <-> forall item, item ∈ items -> holds item = false := by
  induction items with
  | nil => exact ⟨nofun, fun _ => rfl⟩
  | cons first rest ih =>
      rw [takeLast, List.forall_mem_cons, ← ih]
      cases takeLast holds rest with
      | some found =>
          constructor
          · intro impossible
            cases impossible
          · rintro ⟨_, impossible⟩
            cases impossible
      | none =>
          dsimp only
          by_cases passes : holds first = true
          · rw [if_pos passes, passes]
            constructor
            · intro impossible
              cases impossible
            · rintro ⟨impossible, _⟩
              cases impossible
          · rw [if_neg passes]
            exact ⟨fun _ => ⟨Bool.eq_false_iff.mpr passes, rfl⟩, fun _ => rfl⟩

theorem modifyLast_eq_none {change : A -> A} {items : List A} :
    modifyLast holds change items = none <-> forall item, item ∈ items -> holds item = false := by
  induction items with
  | nil => exact ⟨nofun, fun _ => rfl⟩
  | cons first rest ih =>
      rw [modifyLast, List.forall_mem_cons, ← ih]
      cases modifyLast holds change rest with
      | some found =>
          constructor
          · intro impossible
            cases impossible
          · rintro ⟨_, impossible⟩
            cases impossible
      | none =>
          dsimp only
          by_cases passes : holds first = true
          · rw [if_pos passes, passes]
            constructor
            · intro impossible
              cases impossible
            · rintro ⟨impossible, _⟩
              cases impossible
          · rw [if_neg passes]
            exact ⟨fun _ => ⟨Bool.eq_false_iff.mpr passes, rfl⟩, fun _ => rfl⟩

/-- Where the item stands: nothing behind it passes. -/
theorem modifyLast_eq_some {change : A -> A} {items changed : List A} {found : A}
    (modified : modifyLast holds change items = some (found, changed)) :
    exists front back, items = front ++ found :: back ∧ changed = front ++ change found :: back ∧
      holds found = true ∧ forall item, item ∈ back -> holds item = false := by
  induction items generalizing changed with
  | nil => cases modified
  | cons first rest ih =>
      rw [modifyLast] at modified
      cases deeper : modifyLast holds change rest with
      | some inner =>
          rcases inner with ⟨item, others⟩
          rw [deeper] at modified
          cases modified
          rcases ih deeper with ⟨front, back, rfl, rfl, passes, last⟩
          exact ⟨first :: front, back, rfl, rfl, passes, last⟩
      | none =>
          rw [deeper] at modified
          dsimp only at modified
          split at modified
          · next passes =>
              cases modified
              exact ⟨[], rest, rfl, rfl, passes, modifyLast_eq_none.mp deeper⟩
          · cases modified

/-- A map that respects the test and the change passes through. -/
theorem modifyLast_map {B : Type u} {other : B -> Bool} {change : A -> A} {changeOther : B -> B} {convert : A -> B}
    (sameTest : forall item, other (convert item) = holds item)
    (sameChange : forall item, changeOther (convert item) = convert (change item)) (items : List A) :
    modifyLast other changeOther (items.map convert) =
      (modifyLast holds change items).map (Prod.map convert (List.map convert)) := by
  induction items with
  | nil => rfl
  | cons first rest ih =>
      rw [List.map_cons, modifyLast, modifyLast, ih, sameTest, sameChange]
      cases modifyLast holds change rest with
      | some found => rfl
      | none =>
          dsimp only [Option.map_none]
          split <;> rfl

/-! ## Places in a list -/

/-- Two places in one list. -/
theorem split_cases {front back earlier later : List A} {item other : A}
    (split : front ++ item :: back = earlier ++ other :: later) :
    (exists between, front = earlier ++ other :: between ∧ later = between ++ item :: back) ∨
      (front = earlier ∧ item = other ∧ back = later) ∨
      exists between, earlier = front ++ item :: between ∧ back = between ++ other :: later := by
  induction front generalizing earlier with
  | nil =>
      cases earlier with
      | nil =>
          rcases List.cons.inj split with ⟨rfl, rfl⟩
          exact Or.inr (Or.inl ⟨rfl, rfl, rfl⟩)
      | cons first earlier =>
          rcases List.cons.inj split with ⟨rfl, rfl⟩
          exact Or.inr (Or.inr ⟨earlier, rfl, rfl⟩)
  | cons head front ih =>
      cases earlier with
      | nil =>
          rcases List.cons.inj split with ⟨rfl, rfl⟩
          exact Or.inl ⟨front, rfl, rfl⟩
      | cons first earlier =>
          rcases List.cons.inj split with ⟨rfl, rest⟩
          rcases ih rest with ⟨between, rfl, rfl⟩ | ⟨rfl, rfl, rfl⟩ | ⟨between, rfl, rfl⟩
          · exact Or.inl ⟨between, rfl, rfl⟩
          · exact Or.inr (Or.inl ⟨rfl, rfl, rfl⟩)
          · exact Or.inr (Or.inr ⟨between, rfl, rfl⟩)

/-- There is one last item that passes. -/
theorem last_unique {front back earlier later : List A} {item other : A}
    (split : front ++ item :: back = earlier ++ other :: later) (passes : holds item = true)
    (none : forall next, next ∈ back -> holds next = false) (alsoPasses : holds other = true)
    (alsoNone : forall next, next ∈ later -> holds next = false) : front = earlier ∧ item = other ∧ back = later := by
  rcases split_cases split with ⟨between, _, rfl⟩ | same | ⟨between, _, rfl⟩
  · rw [alsoNone item (List.mem_append_right _ List.mem_cons_self)] at passes
    cases passes
  · exact same
  · rw [none other (List.mem_append_right _ List.mem_cons_self)] at alsoPasses
    cases alsoPasses

end Library
end FaucetStream
