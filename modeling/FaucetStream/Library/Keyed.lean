import Mathlib.Data.Int.Order.Basic
import Mathlib.Data.List.Chain
import Mathlib.Order.Lattice

namespace FaucetStream
namespace Library

/-!
# Maps as lists sorted by a key

A map whose entries hold their own keys is a list of the entries in the order of
their keys.  Adding an entry replaces the one with the same key.

Integers that ascend one by one leave out none between two of them.
-/

universe u v

variable {A : Type u} {K : Type v} [LinearOrder K] {key : A -> K}

def insertKeyed (key : A -> K) (item : A) : List A -> List A
  | [] => [item]
  | other :: rest =>
      if key item < key other then item :: other :: rest
      else if key item = key other then item :: rest
      else other :: insertKeyed key item rest

/-- The keys of a list are strictly ascending. -/
def Ascending (key : A -> K) (items : List A) : Prop :=
  items.Pairwise (fun first second => key first < key second)

theorem mem_insertKeyed_self (item : A) (items : List A) : item ∈ insertKeyed key item items := by
  induction items with
  | nil => exact List.mem_cons_self
  | cons other rest ih =>
      rw [insertKeyed]
      split
      · exact List.mem_cons_self
      split
      · exact List.mem_cons_self
      · exact List.mem_cons_of_mem _ ih

theorem mem_of_mem_insertKeyed {item found : A} {items : List A} (member : found ∈ insertKeyed key item items) :
    found = item ∨ found ∈ items := by
  induction items with
  | nil => exact Or.inl (List.mem_singleton.mp member)
  | cons other rest ih =>
      rw [insertKeyed] at member
      split at member
      · exact List.mem_cons.mp member
      split at member
      · rcases List.mem_cons.mp member with same | behind
        · exact Or.inl same
        · exact Or.inr (List.mem_cons_of_mem _ behind)
      · rcases List.mem_cons.mp member with rfl | behind
        · exact Or.inr List.mem_cons_self
        · rcases ih behind with same | inside
          · exact Or.inl same
          · exact Or.inr (List.mem_cons_of_mem _ inside)

/-- An entry stays unless the new one has its key. -/
theorem mem_insertKeyed_of_ne {item found : A} {items : List A} (member : found ∈ items)
    (other : key found ≠ key item) :
    found ∈ insertKeyed key item items := by
  induction items with
  | nil => cases member
  | cons first rest ih =>
      rw [insertKeyed]
      split
      · exact List.mem_cons_of_mem _ member
      rcases List.mem_cons.mp member with rfl | behind
      · rw [if_neg (Ne.symm other)]
        exact List.mem_cons_self
      · split
        · exact List.mem_cons_of_mem _ behind
        · exact List.mem_cons_of_mem _ (ih behind)

/-- The keys are those of the list and the new one. -/
theorem exists_key_insertKeyed {item : A} {items : List A} {sought : K} :
    (exists found, found ∈ insertKeyed key item items ∧ key found = sought) <->
      key item = sought ∨ exists found, found ∈ items ∧ key found = sought := by
  constructor
  · rintro ⟨found, member, rfl⟩
    rcases mem_of_mem_insertKeyed member with rfl | inside
    · exact Or.inl rfl
    · exact Or.inr ⟨found, inside, rfl⟩
  · rintro (rfl | ⟨found, member, rfl⟩)
    · exact ⟨item, mem_insertKeyed_self item items, rfl⟩
    · by_cases same : key found = key item
      · exact ⟨item, mem_insertKeyed_self item items, same.symm⟩
      · exact ⟨found, mem_insertKeyed_of_ne member same, rfl⟩

theorem Ascending.insertKeyed {items : List A} (ascending : Ascending key items) (item : A) :
    Ascending key (insertKeyed key item items) := by
  induction items with
  | nil => exact List.pairwise_singleton _ _
  | cons other rest ih =>
      rcases List.pairwise_cons.mp ascending with ⟨least, ascendingRest⟩
      rw [Library.insertKeyed]
      split
      · next below =>
          refine List.pairwise_cons.mpr ⟨?_, ascending⟩
          intro found member
          rcases List.mem_cons.mp member with rfl | behind
          · exact below
          · exact lt_trans below (least found behind)
      split
      · next same =>
          refine List.pairwise_cons.mpr ⟨?_, ascendingRest⟩
          intro found member
          rw [same]
          exact least found member
      · next notBelow different =>
          refine List.pairwise_cons.mpr ⟨?_, ih ascendingRest⟩
          intro found member
          rcases mem_of_mem_insertKeyed member with rfl | behind
          · exact lt_of_le_of_ne (not_lt.mp notBelow) (Ne.symm different)
          · exact least found behind

/-! ## Integers one by one -/

/-- Each item is one above the item before it. -/
def Consecutive (number : A -> Int) (items : List A) : Prop :=
  items.IsChain (fun first second => number second = number first + 1)

variable {number : A -> Int}

theorem Consecutive.exists_from_head {first : A} {rest : List A} (consecutive : Consecutive number (first :: rest))
    {last : A} (member : last ∈ first :: rest) {sought : Int} (above : number first ≤ sought)
    (below : sought ≤ number last) : exists item, item ∈ first :: rest ∧ number item = sought := by
  induction rest generalizing first with
  | nil =>
      rw [List.mem_singleton.mp member] at below
      exact ⟨first, List.mem_cons_self, by omega⟩
  | cons second rest ih =>
      rcases List.isChain_cons_cons.mp consecutive with ⟨next, later⟩
      by_cases here : number first = sought
      · exact ⟨first, List.mem_cons_self, here⟩
      · rcases List.mem_cons.mp member with rfl | behind
        · omega
        · rcases ih later behind (by omega) with ⟨item, inside, found⟩
          exact ⟨item, List.mem_cons_of_mem _ inside, found⟩

theorem Ascending.head_le {first : A} {rest : List A} (ascending : Ascending key (first :: rest)) {item : A}
    (member : item ∈ first :: rest) : key first ≤ key item := by
  rcases List.mem_cons.mp member with rfl | behind
  · exact le_refl _
  · exact le_of_lt (List.rel_of_pairwise_cons ascending behind)

theorem Ascending.le_getLast {items : List A} (ascending : Ascending key items) (nonempty : items ≠ []) {item : A}
    (member : item ∈ items) : key item ≤ key (items.getLast nonempty) := by
  rw [← List.dropLast_append_getLast nonempty] at ascending member
  rcases List.mem_append.mp member with before | last
  · exact le_of_lt ((List.pairwise_append.mp ascending).2.2 item before _ (List.mem_singleton_self _))
  · rw [List.mem_singleton.mp last]

/-- Ascending integers are consecutive when none is left out. -/
theorem consecutive_iff_of_ascending {items : List A} (ascending : Ascending number items) :
    Consecutive number items <->
      forall low, low ∈ items -> forall high, high ∈ items -> forall sought, number low < sought ->
        sought < number high -> exists item, item ∈ items ∧ number item = sought := by
  constructor
  · intro consecutive low lowIn high highIn sought above below
    cases items with
    | nil => cases lowIn
    | cons first rest =>
        have least := ascending.head_le lowIn
        exact consecutive.exists_from_head highIn (by omega) (le_of_lt below)
  · intro full
    induction items with
    | nil => exact List.IsChain.nil
    | cons first rest ih =>
        cases rest with
        | nil => exact List.IsChain.singleton _
        | cons second rest =>
            rcases List.pairwise_cons.mp ascending with ⟨least, ascendingRest⟩
            refine List.isChain_cons_cons.mpr ⟨?_, ih ascendingRest ?_⟩
            · have next := least second List.mem_cons_self
              by_contra gap
              rcases full first List.mem_cons_self second (List.mem_cons_of_mem _ List.mem_cons_self)
                (number first + 1) (by omega) (by omega) with ⟨item, member, found⟩
              rcases List.mem_cons.mp member with rfl | behind
              · omega
              · have beyond := Ascending.head_le ascendingRest behind
                omega
            · intro low lowIn high highIn sought above below
              rcases full low (List.mem_cons_of_mem _ lowIn) high (List.mem_cons_of_mem _ highIn) sought above below
                with ⟨item, member, found⟩
              rcases List.mem_cons.mp member with rfl | behind
              · have lower := least low lowIn
                omega
              · exact ⟨item, behind, found⟩

end Library
end FaucetStream
