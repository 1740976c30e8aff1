import Mathlib.Data.Set.Basic
import Mathlib.Data.List.Basic
import Mathlib.Data.Fin.VecNotation
import Mathlib.Order.Compare

namespace FaucetStream
namespace Library

/-!
# Three-way comparisons

A comparison function is asked for the order of two values at a time.  Here
it is only assumed to answer the swapped question with the swapped answer;
transitivity is a property of a set of values, so that a comparison may be
transitive on some sets and not on others.

Two constructions are followed.  A comparison by kinds uses one order between
values of the same kind and another between values of different kinds, and
is transitive exactly when the two orders never disagree around a third
value.  A lexicographic comparison of lists asks about the entries at a place
only where all entries before it tie.

A comparison that is not transitive goes round in a circle of three values,
each not above the next one, that do not all tie.
-/

variable {Item : Type}

/-- The swapped question has the swapped answer. -/
def Reversible (cmp : Item -> Item -> Ordering) : Prop :=
  forall left right, cmp right left = (cmp left right).swap

/-- "Not greater" is transitive on a set of values. -/
def TransOn (cmp : Item -> Item -> Ordering) (items : Set Item) : Prop :=
  forall first, first ∈ items -> forall second, second ∈ items -> forall third, third ∈ items ->
    cmp first second ≠ .gt -> cmp second third ≠ .gt -> cmp first third ≠ .gt

namespace Reversible

variable {cmp : Item -> Item -> Ordering}

theorem gt_of_lt (reversible : Reversible cmp) {left right : Item} (less : cmp left right = .lt) :
    cmp right left = .gt := by
  rw [reversible left right, less]
  rfl

theorem lt_of_gt (reversible : Reversible cmp) {left right : Item} (greater : cmp left right = .gt) :
    cmp right left = .lt := by
  rw [reversible left right, greater]
  rfl

theorem eq_symm (reversible : Reversible cmp) {left right : Item} (equal : cmp left right = .eq) :
    cmp right left = .eq := by
  rw [reversible left right, equal]
  rfl

theorem self (reversible : Reversible cmp) (item : Item) : cmp item item = .eq := by
  have swapped := reversible item item
  cases answer : cmp item item with
  | eq => rfl
  | lt => rw [answer] at swapped; cases swapped
  | gt => rw [answer] at swapped; cases swapped

/-- Two values that are each not above the other are equal. -/
theorem eq_of_not_gt (reversible : Reversible cmp) {left right : Item}
    (leftBelow : cmp left right ≠ .gt) (rightBelow : cmp right left ≠ .gt) : cmp left right = .eq := by
  cases answer : cmp left right with
  | eq => rfl
  | lt => exact absurd (reversible.gt_of_lt answer) rightBelow
  | gt => exact absurd answer leftBelow

end Reversible

namespace TransOn

variable {cmp : Item -> Item -> Ordering} {items : Set Item} {first second third : Item}

theorem mono {smaller : Set Item} (transitive : TransOn cmp items) (subset : smaller ⊆ items) :
    TransOn cmp smaller :=
  fun first firstIn second secondIn third thirdIn =>
    transitive first (subset firstIn) second (subset secondIn) third (subset thirdIn)

theorem lt_of_lt_of_le (transitive : TransOn cmp items) (reversible : Reversible cmp)
    (firstIn : first ∈ items) (secondIn : second ∈ items) (thirdIn : third ∈ items)
    (less : cmp first second = .lt) (below : cmp second third ≠ .gt) : cmp first third = .lt := by
  have notAbove := transitive first firstIn second secondIn third thirdIn (by rw [less]; decide) below
  cases answer : cmp first third with
  | lt => rfl
  | gt => exact absurd answer notAbove
  | eq =>
      have back := transitive second secondIn third thirdIn first firstIn below
        (by rw [reversible.eq_symm answer]; decide)
      exact absurd (reversible.gt_of_lt less) back

end TransOn

theorem compare_reversible {Value : Type} [LinearOrder Value] :
    Reversible (compare : Value -> Value -> Ordering) :=
  fun left right => by rw [Std.OrientedOrd.eq_swap (a := left), Ordering.swap_swap]

theorem compare_transOn {Value : Type} [LinearOrder Value] (values : Set Value) :
    TransOn (compare : Value -> Value -> Ordering) values := by
  intro first _ second _ third _ left right
  rw [Ne, compare_gt_iff_gt, not_lt] at left right ⊢
  exact le_trans left right

/-! ## Circles -/

/-- Along a circle of three that never goes down, nothing goes up. -/
theorem eq_around {Value : Type} [PartialOrder Value] {values : Fin 3 -> Value}
    (up : forall place, values place ≤ values (place + 1)) (one two : Fin 3) : values one = values two := by
  have below : forall one two, values one ≤ values two := by
    intro one two
    have cases : two = one ∨ two = one + 1 ∨ two = one + 1 + 1 := by
      revert one two
      decide
    rcases cases with rfl | rfl | rfl
    · exact le_refl _
    · exact up one
    · exact (up one).trans (up _)
  exact le_antisymm (below one two) (below two one)

/-- Three values, each not above the next one. -/
def InCircle (cmp : Item -> Item -> Ordering) (items : Fin 3 -> Item) : Prop :=
  forall place, cmp (items place) (items (place + 1)) ≠ .gt

/-- All of the values are equal to each other. -/
def Tied {Index : Type} (cmp : Item -> Item -> Ordering) (items : Index -> Item) : Prop :=
  forall one two, cmp (items one) (items two) = .eq

namespace InCircle

variable {cmp : Item -> Item -> Ordering} {items : Fin 3 -> Item}

/-- In a circle a value is only below the next one. -/
theorem next (circle : InCircle cmp items) (reversible : Reversible cmp) {one two : Fin 3}
    (less : cmp (items one) (items two) = .lt) : two = one + 1 := by
  have places : two = one + 1 ∨ two = one ∨ one = two + 1 := by
    clear less
    revert one two
    decide
  rcases places with after | rfl | rfl
  · exact after
  · rw [reversible.self] at less
    cases less
  · exact absurd (reversible.gt_of_lt less) (circle two)

/-- A circle is no chain. -/
theorem no_chain (circle : InCircle cmp items) (reversible : Reversible cmp) {low middle high : Fin 3}
    (lowMiddle : cmp (items low) (items middle) = .lt) (middleHigh : cmp (items middle) (items high) = .lt)
    (lowHigh : cmp (items low) (items high) = .lt) : False := by
  have second := circle.next reversible lowMiddle
  have third := circle.next reversible middleHigh
  have jump := circle.next reversible lowHigh
  rw [second, jump] at third
  revert third
  clear second jump lowMiddle middleHigh lowHigh
  revert low
  decide

/-- What ties each value with the next one ties them all. -/
theorem tied_of_next (reversible : Reversible cmp)
    (ties : forall place, cmp (items place) (items (place + 1)) = .eq) : Tied cmp items := by
  intro one two
  have places : two = one + 1 ∨ two = one ∨ one = two + 1 := by
    revert one two
    decide
  rcases places with rfl | rfl | rfl
  · exact ties one
  · exact reversible.self _
  · exact reversible.eq_symm (ties two)

/-- Where the comparison is transitive, a circle is of values that tie. -/
theorem tied (circle : InCircle cmp items) (reversible : Reversible cmp) (transitive : TransOn cmp (Set.range items)) :
    Tied cmp items := by
  apply tied_of_next reversible
  intro place
  have around : place + 1 + 1 + 1 = place := by
    revert place
    decide
  have back := transitive _ (Set.mem_range_self (place + 1)) _ (Set.mem_range_self (place + 1 + 1)) _
    (Set.mem_range_self (place + 1 + 1 + 1)) (circle _) (circle _)
  rw [around] at back
  exact reversible.eq_of_not_gt (circle place) back

end InCircle

/-- When the values of every circle tie, the comparison is transitive. -/
theorem transOn_of_circles {cmp : Item -> Item -> Ordering} {items : Set Item} (reversible : Reversible cmp)
    (ties : forall around : Fin 3 -> Item, (forall place, around place ∈ items) -> InCircle cmp around ->
      Tied cmp around) : TransOn cmp items := by
  intro first firstIn second secondIn third thirdIn left right above
  have back : cmp third first = .lt := reversible.lt_of_gt above
  have held : forall place, ![first, second, third] place ∈ items := by
    rintro ⟨_ | _ | _ | place, small⟩
    · exact firstIn
    · exact secondIn
    · exact thirdIn
    · omega
  have circle : InCircle cmp ![first, second, third] := by
    rintro ⟨_ | _ | _ | place, small⟩
    · exact left
    · exact right
    · change cmp third first ≠ .gt
      rw [back]
      decide
    · omega
  have tied := ties _ held circle 2 0
  change cmp third first = .eq at tied
  rw [back] at tied
  cases tied

/-! ## A comparison that depends on what its operands are -/

section Kinds

variable [LinearOrder Item] {Kind : Type} [DecidableEq Kind]

/-- Values of one kind in the order of that kind, others in the fallback
order of the type. -/
def byKind (kind : Item -> Kind) (within : Item -> Item -> Ordering) (left right : Item) : Ordering :=
  if kind left = kind right then within left right else compare left right

variable {kind : Item -> Kind} {within : Item -> Item -> Ordering}

theorem byKind_reversible (reversible : Reversible within) : Reversible (byKind kind within) := by
  intro left right
  unfold byKind
  by_cases same : kind left = kind right
  · rw [if_pos same, if_pos same.symm]
    exact reversible left right
  · rw [if_neg same, if_neg (Ne.symm same)]
    exact compare_reversible left right

/-- Whenever a value of another kind lies between two values of one kind,
the kind's own order agrees with the fallback order. -/
def KindsAgree (kind : Item -> Kind) (within : Item -> Item -> Ordering) (items : Set Item) : Prop :=
  forall low, low ∈ items -> forall middle, middle ∈ items -> forall high, high ∈ items ->
    low < middle -> middle < high -> kind low = kind high -> kind middle ≠ kind low ->
    within low high = .lt

theorem byKind_transOn_iff (reversible : Reversible within)
    (transitive : forall chosen, TransOn within (Set.preimage kind {chosen})) (items : Set Item) :
    TransOn (byKind kind within) items <-> KindsAgree kind within items := by
  constructor
  · intro ordered low lowIn middle middleIn high highIn lowMiddle middleHigh same different
    have first : byKind kind within low middle = .lt := by
      rw [byKind, if_neg (Ne.symm different)]
      exact compare_lt_iff_lt.mpr lowMiddle
    have second : byKind kind within middle high = .lt := by
      rw [byKind, if_neg (by rw [← same]; exact different)]
      exact compare_lt_iff_lt.mpr middleHigh
    have whole := ordered.lt_of_lt_of_le (byKind_reversible reversible) lowIn middleIn highIn first
      (by rw [second]; decide)
    rw [byKind, if_pos same] at whole
    exact whole
  · intro agree first firstIn second secondIn third thirdIn left right
    unfold byKind at left right ⊢
    -- The kinds of the three values decide which of the two orders answers each question.
    by_cases firstSecond : kind first = kind second
    · by_cases secondThird : kind second = kind third
      · rw [if_pos firstSecond] at left
        rw [if_pos secondThird] at right
        rw [if_pos (firstSecond.trans secondThird)]
        exact transitive (kind second) first firstSecond second rfl third secondThird.symm left right
      · rw [if_pos firstSecond] at left
        rw [if_neg secondThird, Ne, compare_gt_iff_gt, not_lt] at right
        rw [if_neg (by rw [firstSecond]; exact secondThird), Ne, compare_gt_iff_gt]
        intro thirdFirst
        have strict : second < third := lt_of_le_of_ne right (fun equal => secondThird (by rw [equal]))
        have inside := agree second secondIn third thirdIn first firstIn strict thirdFirst
          firstSecond.symm (Ne.symm secondThird)
        exact left (reversible.gt_of_lt inside)
    · rw [if_neg firstSecond, Ne, compare_gt_iff_gt, not_lt] at left
      have strict : first < second := lt_of_le_of_ne left (fun equal => firstSecond (by rw [equal]))
      by_cases secondThird : kind second = kind third
      · rw [if_pos secondThird] at right
        rw [if_neg (by rw [← secondThird]; exact firstSecond), Ne, compare_gt_iff_gt]
        intro thirdFirst
        have inside := agree third thirdIn first firstIn second secondIn thirdFirst strict
          secondThird.symm (by rw [← secondThird]; exact firstSecond)
        exact right (reversible.gt_of_lt inside)
      · rw [if_neg secondThird, Ne, compare_gt_iff_gt, not_lt] at right
        have next : second < third := lt_of_le_of_ne right (fun equal => secondThird (by rw [equal]))
        by_cases firstThird : kind first = kind third
        · rw [if_pos firstThird]
          rw [agree first firstIn second secondIn third thirdIn strict next firstThird
            (Ne.symm firstSecond)]
          decide
        · rw [if_neg firstThird, Ne, compare_gt_iff_gt]
          exact not_lt_of_gt (strict.trans next)

end Kinds

/-! ## Lists compared entry by entry -/

theorem compareLex_reversible {cmp : Item -> Item -> Ordering} (left right : List Item)
    (reversible : forall item, item ∈ left -> forall other, cmp other item = (cmp item other).swap) :
    List.compareLex cmp right left = (List.compareLex cmp left right).swap := by
  induction left generalizing right with
  | nil =>
      cases right with
      | nil => rfl
      | cons item rest => rfl
  | cons item rest ih =>
      cases right with
      | nil => rfl
      | cons other others =>
          rw [List.compareLex_cons_cons, List.compareLex_cons_cons, Ordering.swap_then,
            reversible item List.mem_cons_self other,
            ih others
              (fun entry member => reversible entry (List.mem_cons_of_mem _ member))]

/-! ## The maximum of a list -/

/-- `Iterator::max_by`: of several maximal items the last one. -/
def maxBy (cmp : Item -> Item -> Ordering) : List Item -> Option Item
  | [] => none
  | item :: rest =>
      some (rest.foldl (fun best next => if cmp best next = .gt then best else next) item)

/-- The running maximum stays in the set and above everything seen. -/
theorem foldl_max {cmp : Item -> Item -> Ordering} {items : Set Item} (reversible : Reversible cmp)
    (transitive : TransOn cmp items) (rest : List Item) (best : Item) (bestIn : best ∈ items)
    (restIn : forall item, item ∈ rest -> item ∈ items) (seen : List Item)
    (seenIn : forall item, item ∈ seen -> item ∈ items)
    (above : forall item, item ∈ seen -> cmp item best ≠ .gt) :
    let final := rest.foldl (fun best next => if cmp best next = .gt then best else next) best
    final ∈ best :: rest ∧ (forall item, item ∈ best :: seen ++ rest -> cmp item final ≠ .gt) := by
  induction rest generalizing best seen with
  | nil =>
      refine ⟨List.mem_cons_self, fun item member => ?_⟩
      rw [List.append_nil] at member
      rcases List.mem_cons.mp member with same | earlier
      · rw [same]
        change cmp best best ≠ .gt
        rw [reversible.self best]
        decide
      · exact above item earlier
  | cons next rest ih =>
      have nextIn := restIn next List.mem_cons_self
      have laterIn := fun item member => restIn item (List.mem_cons_of_mem next member)
      simp only [List.foldl_cons]
      by_cases greater : cmp best next = .gt
      · rw [if_pos greater]
        have kept := ih best bestIn laterIn (next :: seen)
          (fun item member => (List.mem_cons.mp member).elim (fun same => same ▸ nextIn) (seenIn item))
          (fun item member => (List.mem_cons.mp member).elim
            (fun same => by rw [same, reversible.lt_of_gt greater]; decide) (above item))
        refine ⟨?_, fun item member => kept.2 item ?_⟩
        · rcases List.mem_cons.mp kept.1 with same | later
          · exact List.mem_cons.mpr (Or.inl same)
          · exact List.mem_cons_of_mem _ (List.mem_cons_of_mem _ later)
        · simp only [List.cons_append, List.mem_cons, List.mem_append] at member ⊢
          tauto
      · rw [if_neg greater]
        have kept := ih next nextIn laterIn (best :: seen)
          (fun item member => (List.mem_cons.mp member).elim (fun same => same ▸ bestIn) (seenIn item))
          (fun item member => (List.mem_cons.mp member).elim (fun same => by rw [same]; exact greater)
            (fun earlier => transitive item (seenIn item earlier) best bestIn next nextIn
              (above item earlier) greater))
        refine ⟨List.mem_cons_of_mem _ kept.1, fun item member => kept.2 item ?_⟩
        simp only [List.cons_append, List.mem_cons, List.mem_append] at member ⊢
        tauto

/-- On a list where the comparison is transitive, the maximum is an entry of
the list and no entry is above it. -/
theorem maxBy_spec {cmp : Item -> Item -> Ordering} (reversible : Reversible cmp) (list : List Item)
    (transitive : TransOn cmp {item | item ∈ list}) {best : Item} (chosen : maxBy cmp list = some best) :
    best ∈ list ∧ forall item, item ∈ list -> cmp item best ≠ .gt := by
  cases list with
  | nil => cases chosen
  | cons item rest =>
      rw [maxBy, Option.some.injEq] at chosen
      have spec := foldl_max reversible transitive rest item List.mem_cons_self
        (fun other member => List.mem_cons_of_mem _ member) [] nofun
        nofun
      rw [← chosen]
      refine ⟨spec.1, fun other member => spec.2 other ?_⟩
      simpa only [List.cons_append, List.nil_append] using member

/-- Reordering the list changes the maximum only up to equality. -/
theorem maxBy_perm {cmp : Item -> Item -> Ordering} (reversible : Reversible cmp)
    {list reordered : List Item} (transitive : TransOn cmp {item | item ∈ list})
    (perm : reordered.Perm list) {best other : Item} (chosen : maxBy cmp list = some best)
    (rechosen : maxBy cmp reordered = some other) : cmp other best = .eq := by
  have transitive' : TransOn cmp {item | item ∈ reordered} :=
    transitive.mono (fun item member => perm.subset member)
  have first := maxBy_spec reversible list transitive chosen
  have second := maxBy_spec reversible reordered transitive' rechosen
  exact reversible.eq_of_not_gt (first.2 other (perm.subset second.1))
    (second.2 best (perm.symm.subset first.1))

end Library
end FaucetStream
