import FaucetStream.Shard.PkRange

namespace FaucetStream
namespace Verify

open Json
open Shard

/-!
# Key ranges

The verifier compares two tables range by range of their integer key.  A range
is half open and may be unbounded on either side; one whose digests differ is
cut in two.  An unbounded side is clamped to the keys observed to find the cut,
and the halves keep the edges of the range, so they tile it.

What is observed may change from one cut to the next.  The cut always lies
strictly between the least and the greatest key a range can hold, so a range
is cut at most as often as there are keys.
-/

/-- The truncating cast to `i64`. -/
def ofI128 (value : Int) : I64 :=
  ⟨asI64 value, by
    unfold asI64 InI64
    have lower : -((2 ^ 64 : Nat) : Int) / 2 ≤ value.bmod (2 ^ 64) := Int.le_bmod (by decide)
    have upper : value.bmod (2 ^ 64) < (((2 ^ 64 : Nat) : Int) + 1) / 2 := Int.bmod_lt (by decide)
    constructor
    · omega
    · omega⟩

/-- `saturating_add(1)`. -/
def saturatingSucc (value : I64) : I64 :=
  if below : value.val + 1 < 2 ^ 63 then ⟨value.val + 1, by
    have lower := value.property.1
    unfold InI64
    omega⟩
  else value

structure KeyRange where
  lo : Option I64
  hi : Option I64

namespace KeyRange

/-- The whole key space. -/
def ALL : KeyRange := ⟨none, none⟩

variable (range : KeyRange)

def contains (key : I64) : Bool :=
  range.lo.all (fun lo => decide (lo.val ≤ key.val)) && range.hi.all (fun hi => decide (key.val < hi.val))

/-- Cut a range at the middle of what is known of it. -/
def bisect (observed : Option (I64 × I64)) : Option (KeyRange × KeyRange) := do
  let lo <- range.lo.or (observed.map Prod.fst)
  let hi <- range.hi.or (observed.map (fun bounds => saturatingSucc bounds.2))
  if hi.val - lo.val < 2 then none
  else
    let mid := ofI128 (lo.val + (hi.val - lo.val) / 2)
    some (⟨range.lo, some mid⟩, ⟨some mid, range.hi⟩)

/-- The least key a range can hold, and the first one past its end. -/
def least : Int :=
  match range.lo with
  | some lo => lo.val
  | none => -2 ^ 63

def past : Int :=
  match range.hi with
  | some hi => hi.val
  | none => 2 ^ 63

theorem contains_iff (key : I64) :
    range.contains key = true <-> range.least ≤ key.val ∧ key.val < range.past := by
  have inside := key.property
  unfold contains least past
  rw [Bool.and_eq_true]
  apply and_congr
  · cases range.lo with
    | none => exact ⟨fun _ => inside.1, fun _ => rfl⟩
    | some lo => exact decide_eq_true_iff
  · cases range.hi with
    | none => exact ⟨fun _ => inside.2, fun _ => rfl⟩
    | some hi => exact decide_eq_true_iff

/-- A cut lies strictly inside the range. -/
theorem bisect_spec {range first second : KeyRange} {observed : Option (I64 × I64)}
    (cut : range.bisect observed = some (first, second)) :
    exists mid : I64, first = ⟨range.lo, some mid⟩ ∧ second = ⟨some mid, range.hi⟩ ∧
      range.least < mid.val ∧ mid.val < range.past := by
  unfold bisect at cut
  rw [Option.bind_eq_bind, Option.bind_eq_some_iff] at cut
  rcases cut with ⟨lo, lower, rest⟩
  rw [Option.bind_eq_some_iff] at rest
  rcases rest with ⟨hi, upper, halves⟩
  split at halves
  · cases halves
  · rename_i wide
    have loInside := lo.property
    have hiInside := hi.property
    have middle : (ofI128 (lo.val + (hi.val - lo.val) / 2)).val = lo.val + (hi.val - lo.val) / 2 :=
      asI64_of_inI64 (by
        unfold InI64 at *
        constructor
        · omega
        · omega)
    cases halves
    have low : range.least ≤ lo.val := by
      unfold least
      cases bound : range.lo with
      | none => exact loInside.1
      | some value =>
          rw [bound] at lower
          cases lower
          exact le_refl _
    have high : hi.val ≤ range.past := by
      unfold past
      cases bound : range.hi with
      | none => exact le_of_lt hiInside.2
      | some value =>
          rw [bound] at upper
          cases upper
          exact le_refl _
    refine ⟨_, rfl, rfl, ?_, ?_⟩
    · rw [middle]
      omega
    · rw [middle]
      omega

/-! ## The halves -/

/-- A key of a range is in exactly one half, and a half holds no other key. -/
theorem contains_eq_xor {range first second : KeyRange} {observed : Option (I64 × I64)}
    (cut : range.bisect observed = some (first, second)) (key : I64) :
    range.contains key = xor (first.contains key) (second.contains key) := by
  rcases bisect_spec cut with ⟨mid, rfl, rfl, low, high⟩
  have whole := range.contains_iff key
  have before := contains_iff ⟨range.lo, some mid⟩ key
  have after := contains_iff ⟨some mid, range.hi⟩ key
  change _ <-> range.least ≤ key.val ∧ key.val < mid.val at before
  change _ <-> mid.val ≤ key.val ∧ key.val < range.past at after
  rw [Bool.eq_iff_iff, whole, Bool.xor_iff_ne, ne_eq, Bool.eq_iff_iff, before, after]
  omega

/-- How many keys a range can hold. -/
def span : Nat := (range.past - range.least).toNat

theorem span_le : range.span ≤ 2 ^ 64 := by
  have low : -2 ^ 63 ≤ range.least := by
    unfold least
    cases range.lo with
    | none => exact le_refl _
    | some lo => exact lo.property.1
  have high : range.past ≤ 2 ^ 63 := by
    unfold past
    cases range.hi with
    | none => exact le_refl _
    | some hi => exact le_of_lt hi.property.2
  unfold span
  omega

theorem span_lt_of_bisect {range first second : KeyRange} {observed : Option (I64 × I64)}
    (cut : range.bisect observed = some (first, second)) :
    first.span < range.span ∧ second.span < range.span := by
  rcases bisect_spec cut with ⟨mid, rfl, rfl, low, high⟩
  change (mid.val - range.least).toNat < (range.past - range.least).toNat ∧
    (range.past - mid.val).toNat < (range.past - range.least).toNat
  omega

/-! ## Cutting on -/

/-- The range a branch of repeated cuts is at, with what is observed at each
cut and the half that is followed. -/
def branch (range : KeyRange) (observed : Nat -> Option (I64 × I64)) (upper : Nat -> Bool) :
    Nat -> Option KeyRange
  | 0 => some range
  | depth + 1 => do
      let current <- branch range observed upper depth
      let (first, second) <- current.bisect (observed depth)
      return if upper depth then second else first

theorem span_add_depth_le (observed : Nat -> Option (I64 × I64)) (upper : Nat -> Bool)
    (depth : Nat) {current : KeyRange} (reached : range.branch observed upper depth = some current) :
    current.span + depth ≤ range.span := by
  induction depth generalizing current with
  | zero =>
      cases reached
      exact le_refl _
  | succ depth ih =>
      rw [branch, Option.bind_eq_bind, Option.bind_eq_some_iff] at reached
      rcases reached with ⟨parent, before, rest⟩
      rw [Option.bind_eq_bind, Option.bind_eq_some_iff] at rest
      rcases rest with ⟨⟨first, second⟩, cut, chosen⟩
      have parentSpan := ih before
      have smaller := span_lt_of_bisect cut
      cases side : upper depth with
      | false =>
          have lower : first = current := by simpa [side] using chosen
          rw [← lower]
          omega
      | true =>
          have higher : second = current := by simpa [side] using chosen
          rw [← higher]
          omega

/-- Every branch comes to a range that is not cut. -/
theorem branch_reaches_leaf (observed : Nat -> Option (I64 × I64)) (upper : Nat -> Bool) :
    exists depth leaf, depth ≤ range.span ∧ range.branch observed upper depth = some leaf ∧
      leaf.bisect (observed depth) = none := by
  by_contra never
  have deeper : forall depth, depth ≤ range.span + 1 -> (range.branch observed upper depth).isSome = true := by
    intro depth
    induction depth with
    | zero =>
        intro _
        rfl
    | succ depth ih =>
        intro within
        rcases Option.isSome_iff_exists.mp (ih (by omega)) with ⟨current, reached⟩
        cases cut : current.bisect (observed depth) with
        | none => exact absurd ⟨depth, current, by omega, reached, cut⟩ never
        | some halves =>
            rw [branch, reached]
            simp only [Option.bind_eq_bind, Option.bind_some, cut]
            rfl
  rcases Option.isSome_iff_exists.mp (deeper (range.span + 1) (le_refl _)) with ⟨current, reached⟩
  have bound := span_add_depth_le range observed upper (range.span + 1) reached
  omega

/-- A cut tiles the range, and cutting on comes to an end on every branch,
whatever is observed on the way. -/
theorem bisect_tiles_and_ends :
    (forall (min max : I64), min.val ≤ max.val -> forall first second,
      range.bisect (some (min, max)) = some (first, second) -> forall key,
        range.contains key = xor (first.contains key) (second.contains key)) ∧
    (forall (observed : Nat -> Option (I64 × I64)) (upper : Nat -> Bool),
      exists depth leaf, depth ≤ 2 ^ 64 ∧ range.branch observed upper depth = some leaf ∧
        leaf.bisect (observed depth) = none) := by
  constructor
  · intro min max _ first second cut key
    exact contains_eq_xor cut key
  · intro observed upper
    rcases range.branch_reaches_leaf observed upper with ⟨depth, leaf, bounded, reached, ends⟩
    exact ⟨depth, leaf, le_trans bounded range.span_le, reached, ends⟩

/-- The first cut of the whole key space, with one key observed at either
end. -/
theorem bisect_tiles_and_ends_all :
    (forall first second, ALL.bisect (some (ofI128 (-2 ^ 63), ofI128 (2 ^ 63 - 1))) = some (first, second) ->
      forall key, ALL.contains key = xor (first.contains key) (second.contains key)) ∧
      (ALL.bisect (some (ofI128 (-2 ^ 63), ofI128 (2 ^ 63 - 1)))).isSome = true := by
  refine ⟨?_, by decide⟩
  exact (bisect_tiles_and_ends ALL).1 (ofI128 (-2 ^ 63)) (ofI128 (2 ^ 63 - 1)) (by decide)

end KeyRange

end Verify
end FaucetStream
