import FaucetStream.Json.Value
import Mathlib.Algebra.Order.Floor.Div

namespace FaucetStream
namespace Shard

open Json

/-!
# Primary-key range shards

A SQL source splits the observed key range `[min, max]` into shards and
hands each worker one of them as a JSON descriptor.  The boundary shards are
open-ended and the last one also owns the NULL keys, so the plan must tile
the whole line and not only the observed range.

The model keeps the three stages apart: the plan with its descriptors, the
bounds a worker parses back, and the predicate those bounds are rendered to.
The predicate is evaluated in the three-valued logic of SQL, where a
comparison with NULL is unknown and an unknown row is not selected.
-/

/-- The signed 64-bit integers, the type of a key bound. -/
def I64 : Type := { value : Int // InI64 value }

/-- The truncating cast from `i128` to `i64`. -/
def asI64 (value : Int) : Int := value.bmod (2 ^ 64)

theorem asI64_of_inI64 {value : Int} (inside : InI64 value) : asI64 value = value := by
  rcases inside with ⟨lower, upper⟩
  unfold asI64
  rw [Int.bmod_eq_of_le]
  · omega
  · omega

/-- One independently processable slice of a source. -/
structure ShardSpec where
  id : String
  descriptor : Value
  size_estimate : Option Nat

/-- The most shards one source is ever split into. -/
def MAX_SHARDS : Nat := 4096

variable (key : String)

/-- The descriptor of one planned shard. -/
def descriptor (lo hi : Int) (isFirst isLast : Bool) : Value :=
  .object [("key", .string key), ("lo", .number (.int (asI64 lo))), ("hi", .number (.int (asI64 hi))),
    ("lo_unbounded", .bool isFirst), ("hi_unbounded", .bool isLast), ("include_null", .bool isLast)]

/-- The loop of the planner from shard `i` on, with `remaining` rounds left
and the next cut at `lo`.  The size is a `u64` and wraps like one. -/
def planFrom (key : String) (max : Int) (step n : Nat) : (remaining : Nat) -> (i : Nat) -> (lo : Int) ->
    List ShardSpec
  | 0, _, _ => []
  | remaining + 1, i, lo =>
      let isFirst := i == 0
      let isLast := i == n - 1
      let hi := if isLast || lo + step > max then max else lo + step
      let size := ((hi - lo).toNat + if isLast then 1 else 0) % 2 ^ 64
      let shard : ShardSpec :=
        { id := toString i, descriptor := descriptor key lo hi isFirst isLast, size_estimate := some size }
      if isLast then [shard] else shard :: planFrom key max step n remaining (i + 1) hi

/-- The number of integers in `[min, max]`, and one for an empty range. -/
def width (min max : Int) : Nat := (Max.max (max - min + 1) 1).toNat

/-- How many shards a target asks for: at least one, at most the cap, and
never more than there are keys. -/
def shardCount (min max : Int) (target : Nat) : Nat :=
  Min.min (Min.min (Max.max target 1) MAX_SHARDS) (width min max)

def planPkShards (min max : I64) (target : Nat) : List ShardSpec :=
  let n := shardCount min.val max.val target
  let step := width min.val max.val ⌈/⌉ n
  planFrom key max.val step n n 0 min.val

/-! ## The bounds a worker parses back -/

structure PkShardBounds where
  key : String
  lo : Int
  hi : Int
  lo_unbounded : Bool
  hi_unbounded : Bool
  include_null : Bool

namespace PkShardBounds

def fromSpec (spec : ShardSpec) : Option PkShardBounds := do
  let key <- (<- spec.descriptor.get "key").asStr
  let lo <- (<- spec.descriptor.get "lo").asI64
  let hi <- (<- spec.descriptor.get "hi").asI64
  let flag := fun name => ((spec.descriptor.get name).bind Value.asBool).getD false
  return { key, lo, hi, lo_unbounded := flag "lo_unbounded", hi_unbounded := flag "hi_unbounded",
           include_null := flag "include_null" }

end PkShardBounds

/-- One comparison of the key column with a literal. -/
inductive Comparison where
  | atLeast (lo : Int)
  | below (hi : Int)

/-- The predicates the source writes after `WHERE`. -/
inductive Predicate where
  | always
  | range (parts : List Comparison)
  | rangeOrNull (parts : List Comparison)

namespace Comparison

def render : Comparison -> String
  | .atLeast lo => key ++ " >= " ++ toString lo
  | .below hi => key ++ " < " ++ toString hi

/-- A comparison with a NULL key is unknown. -/
def eval (key : Option Int) : Comparison -> Option Bool
  | .atLeast lo => key.map (fun value => decide (lo ≤ value))
  | .below hi => key.map (fun value => decide (value < hi))

end Comparison

namespace Predicate

def renderRange (parts : List Comparison) : String :=
  String.intercalate " AND " (parts.map (Comparison.render key))

def render : Predicate -> String
  | .always => "1=1"
  | .range parts => renderRange key parts
  | .rangeOrNull parts => "((" ++ renderRange key parts ++ ") OR " ++ key ++ " IS NULL)"

/-- Three-valued conjunction: false wins, then unknown. -/
def and3 : Option Bool -> Option Bool -> Option Bool
  | some false, _ | _, some false => some false
  | some true, other => other
  | none, _ => none

/-- Three-valued disjunction: true wins, then unknown. -/
def or3 : Option Bool -> Option Bool -> Option Bool
  | some true, _ | _, some true => some true
  | some false, other => other
  | none, _ => none

def evalRange (key : Option Int) (parts : List Comparison) : Option Bool :=
  parts.foldr (fun part rest => and3 (part.eval key) rest) (some true)

def eval (key : Option Int) : Predicate -> Option Bool
  | .always => some true
  | .range parts => evalRange key parts
  | .rangeOrNull parts => or3 (evalRange key parts) (some key.isNone)

/-- Whether a `WHERE` clause selects a row with this key. -/
def selects (predicate : Predicate) (key : Option Int) : Bool := predicate.eval key == some true

end Predicate

namespace PkShardBounds

def parts (bounds : PkShardBounds) : List Comparison :=
  (if bounds.lo_unbounded then [] else [.atLeast bounds.lo]) ++
    (if bounds.hi_unbounded then [] else [.below bounds.hi])

/-- The predicate `wrap` chooses.  A fully unbounded shard owns every row. -/
def predicate (bounds : PkShardBounds) : Predicate :=
  if bounds.parts.isEmpty then .always
  else if bounds.include_null then .rangeOrNull bounds.parts
  else .range bounds.parts

/-- The shard's query.  `quoteIdent` is the quoting of the SQL dialect. -/
def wrap (bounds : PkShardBounds) (inner : String) (quoteIdent : String -> String) : String :=
  "SELECT * FROM (" ++ inner ++ ") AS _faucet_shard WHERE " ++ bounds.predicate.render (quoteIdent bounds.key)

/-- Membership of a key, read off the predicate.  NULL keys go by the flag. -/
theorem selects_iff (bounds : PkShardBounds)
    (nullOwner : bounds.include_null = bounds.hi_unbounded) (key : Option Int) :
    bounds.predicate.selects key =
      match key with
      | none => bounds.include_null
      | some value => (bounds.lo_unbounded || decide (bounds.lo ≤ value)) &&
          (bounds.hi_unbounded || decide (value < bounds.hi)) := by
  rcases bounds with ⟨name, lo, hi, loUnbounded, hiUnbounded, includeNull⟩
  change includeNull = hiUnbounded at nullOwner
  subst nullOwner
  cases key with
  | none => cases loUnbounded <;> cases includeNull <;> rfl
  | some value =>
      cases loUnbounded <;> cases includeNull <;>
        simp only [predicate, parts, Predicate.selects, Predicate.eval, Predicate.evalRange, Comparison.eval,
          Option.map_some, List.foldr_cons, List.foldr_nil, List.cons_append, List.nil_append,
          List.append_nil, List.isEmpty_cons, List.isEmpty_nil, Bool.false_eq_true, if_false, if_true,
          Bool.true_or, Bool.false_or, Bool.and_true, Bool.true_and, Option.isNone_some]
      · cases decide (lo ≤ value) <;> cases decide (value < hi) <;> rfl
      · cases decide (lo ≤ value) <;> rfl
      · cases decide (value < hi) <;> rfl
      · rfl

end PkShardBounds

/-! ## The plan tiles the key line -/

/-- The bounds of a planned shard, once its descriptor is parsed back. -/
def plannedBounds (lo hi : Int) (isFirst isLast : Bool) : PkShardBounds :=
  { key, lo, hi, lo_unbounded := isFirst, hi_unbounded := isLast, include_null := isLast }

theorem plannedBounds_selects_some (lo hi value : Int) (isFirst isLast : Bool) :
    (plannedBounds key lo hi isFirst isLast).predicate.selects (some value) =
      ((isFirst || decide (lo ≤ value)) && (isLast || decide (value < hi))) :=
  PkShardBounds.selects_iff _ rfl (some value)

theorem plannedBounds_selects_none (lo hi : Int) (isFirst isLast : Bool) :
    (plannedBounds key lo hi isFirst isLast).predicate.selects none = isLast :=
  PkShardBounds.selects_iff _ rfl none

theorem fromSpec_descriptor (id key : String) (size : Option Nat) {lo hi : Int} (isFirst isLast : Bool)
    (loInside : InI64 lo) (hiInside : InI64 hi) :
    PkShardBounds.fromSpec ⟨id, descriptor key lo hi isFirst isLast, size⟩ =
      some (plannedBounds key lo hi isFirst isLast) := by
  have loRead : (Value.number (.int (asI64 lo))).asI64 = some lo := by
    rw [asI64_of_inI64 loInside]
    exact if_pos loInside
  have hiRead : (Value.number (.int (asI64 hi))).asI64 = some hi := by
    rw [asI64_of_inI64 hiInside]
    exact if_pos hiInside
  have readKey : (descriptor key lo hi isFirst isLast).get "key" = some (.string key) := by
    simp only [descriptor, Value.get]
    rfl
  have readLo : (descriptor key lo hi isFirst isLast).get "lo" = some (.number (.int (asI64 lo))) := by
    simp only [descriptor, Value.get]
    rfl
  have readHi : (descriptor key lo hi isFirst isLast).get "hi" = some (.number (.int (asI64 hi))) := by
    simp only [descriptor, Value.get]
    rfl
  simp only [PkShardBounds.fromSpec, readKey, readLo, readHi, Option.bind_eq_bind, Option.bind_some,
    Value.asStr, loRead, hiRead]
  rfl

theorem toString_nat_injective : Function.Injective (fun index : Nat => toString index) := by
  intro left right same
  have digits := congrArg String.toList same
  simp only [Nat.toString_eq_repr, Nat.toList_repr] at digits
  have numbers := congrArg (fun text => Nat.ofDigitChars 10 text 0) digits
  simpa only [Nat.ofDigitChars_ten_toDigits] using numbers

/-- What the rest of a plan covers, from shard `i` on: every key at or above
`lo`, also the keys below it when `i` is the first shard, and the NULL keys,
each exactly once. -/
structure Tiles (i : Nat) (lo : Int) (bounds : List PkShardBounds) : Prop where
  keys : forall value : Int, bounds.countP (fun shard => shard.predicate.selects (some value)) =
    if i = 0 ∨ lo ≤ value then 1 else 0
  nulls : bounds.countP (fun shard => shard.predicate.selects none) = 1

/-- The last shard alone covers everything from `lo` on. -/
theorem tiles_last (i : Nat) (lo hi : Int) :
    Tiles i lo [plannedBounds key lo hi (i == 0) true] := by
  constructor
  · intro value
    rw [List.countP_singleton, plannedBounds_selects_some]
    simp only [Bool.true_or, Bool.and_true, Bool.or_eq_true, beq_iff_eq, decide_eq_true_eq]
  · rw [List.countP_singleton, plannedBounds_selects_none]
    rfl

/-- A shard closed at `hi` in front of a plan from `hi` on covers what
starts at `lo`.  The shard may be empty (`lo = hi`), as trailing shards are
when the rounded-up step overshoots the range. -/
theorem tiles_cons (i : Nat) {lo hi : Int} (ordered : lo ≤ hi)
    {rest : List PkShardBounds} (tail : Tiles (i + 1) hi rest) :
    Tiles i lo (plannedBounds key lo hi (i == 0) false :: rest) := by
  constructor
  · intro value
    rw [List.countP_cons, tail.keys value, plannedBounds_selects_some]
    simp only [Bool.false_or, Bool.and_eq_true, Bool.or_eq_true, beq_iff_eq,
      decide_eq_true_eq, Nat.add_one_ne_zero, false_or]
    by_cases above : hi ≤ value
    · have notBelow : ¬ value < hi := not_lt.mpr above
      have inside : i = 0 ∨ lo ≤ value := Or.inr (le_trans ordered above)
      rw [if_pos above, if_neg (fun both => notBelow both.2), if_pos inside]
    · have below : value < hi := not_le.mp above
      rw [if_neg above, Nat.zero_add]
      exact if_congr (and_iff_left below) rfl rfl
  · rw [List.countP_cons, tail.nulls, plannedBounds_selects_none]
    rfl

/-- Every round of the loop, by induction on the rounds left.  The cut `lo`
stays inside the observed range, so no cast truncates; only a one-shard plan
may start above `max`, for an empty range. -/
theorem planFrom_tiles (max : Int) (step n : Nat) (maxInside : InI64 max) :
    forall (remaining i : Nat) (lo : Int), i + (remaining + 1) = n -> InI64 lo ->
      (lo ≤ max ∨ i + 1 = n) ->
      exists bounds, (planFrom key max step n (remaining + 1) i lo).mapM PkShardBounds.fromSpec = some bounds ∧
        Tiles i lo bounds := by
  intro remaining
  induction remaining with
  | zero =>
      intro i lo count loInside _
      have last : (i == n - 1) = true := beq_iff_eq.mpr (by omega)
      refine ⟨[plannedBounds key lo max (i == 0) true], ?_, tiles_last key i lo max⟩
      simp only [planFrom, last, Bool.true_or, if_true, List.mapM_cons, List.mapM_nil,
        fromSpec_descriptor _ key _ (i == 0) true loInside maxInside]
      rfl
  | succ remaining ih =>
      intro i lo count loInside range
      have notLast : (i == n - 1) = false := beq_eq_false_iff_ne.mpr (by omega)
      have loBelow : lo ≤ max := range.resolve_right (by omega)
      -- The next cut, clamped to `max` when the step overshoots.
      have nextCut : exists hi, (if lo + step > max then max else lo + step) = hi ∧ lo ≤ hi ∧ hi ≤ max := by
        by_cases exceeded : lo + step > max
        · exact ⟨max, if_pos exceeded, loBelow, le_refl _⟩
        · exact ⟨lo + step, if_neg exceeded, by omega, by omega⟩
      rcases nextCut with ⟨hi, cut, ordered, hiBelow⟩
      have hiInside : InI64 hi := ⟨le_trans loInside.1 ordered, lt_of_le_of_lt hiBelow maxInside.2⟩
      rcases ih (i + 1) hi (by omega) hiInside (Or.inl hiBelow) with ⟨bounds, parsed, tiles⟩
      refine ⟨plannedBounds key lo hi (i == 0) false :: bounds, ?_, tiles_cons key i ordered tiles⟩
      rw [planFrom]
      simp only [notLast, Bool.false_or, decide_eq_true_eq, cut, Bool.false_eq_true, if_false, List.mapM_cons,
        fromSpec_descriptor _ key _ (i == 0) false loInside hiInside, parsed]
      rfl

/-- The ids of a plan are its shard numbers, in order. -/
theorem planFrom_ids (max : Int) (step n : Nat) :
    forall (remaining i : Nat) (lo : Int), i + remaining = n ->
      (planFrom key max step n remaining i lo).map ShardSpec.id = (List.range' i remaining).map toString := by
  intro remaining
  induction remaining with
  | zero => intro i lo _; rfl
  | succ remaining ih =>
      intro i lo count
      rw [planFrom]
      by_cases last : i = n - 1
      · have only : remaining = 0 := by omega
        subst only
        simp only [beq_iff_eq.mpr last, if_true]
        rfl
      · simp only [beq_eq_false_iff_ne.mpr last, Bool.false_eq_true, if_false, List.map_cons]
        rw [ih (i + 1) _ (by omega)]
        rfl

theorem shardCount_pos (min max : Int) (target : Nat) : 0 < shardCount min max target := by
  have positive : 0 < width min max := by unfold width; omega
  unfold shardCount MAX_SHARDS
  omega

/-- Whatever the observed range and the target, the parsed-back bounds select
every key, inside or outside the range, in exactly one shard, and the NULL
keys in exactly one; the shards are as many as asked for, capped by the
constant and by the number of keys, and their ids differ pairwise. -/
theorem planPkShards_partition (min max : I64) (target : Nat) :
    exists bounds, (planPkShards key min max target).mapM PkShardBounds.fromSpec = some bounds ∧
      (forall value : Int, bounds.countP (fun shard => shard.predicate.selects (some value)) = 1) ∧
      bounds.countP (fun shard => shard.predicate.selects none) = 1 ∧
      1 ≤ (planPkShards key min max target).length ∧
      ((planPkShards key min max target).length : Int) ≤
        Min.min (Max.max (target : Int) 1) (Min.min 4096 (Max.max (max.val - min.val + 1) 1)) ∧
      ((planPkShards key min max target).map ShardSpec.id).Nodup := by
  have positive := shardCount_pos min.val max.val target
  rcases Nat.exists_eq_succ_of_ne_zero (Nat.pos_iff_ne_zero.mp positive) with ⟨remaining, count⟩
  rw [Nat.succ_eq_add_one] at count
  have ids : (planPkShards key min max target).map ShardSpec.id =
      (List.range' 0 (shardCount min.val max.val target)).map toString :=
    planFrom_ids key max.val _ _ _ 0 min.val (Nat.zero_add _)
  have length : (planPkShards key min max target).length = shardCount min.val max.val target := by
    rw [← List.length_map (f := ShardSpec.id), ids, List.length_map, List.length_range']
  have start : min.val ≤ max.val ∨ 0 + 1 = shardCount min.val max.val target := by
    by_cases ordered : min.val ≤ max.val
    · exact Or.inl ordered
    · refine Or.inr ?_
      unfold shardCount width MAX_SHARDS
      omega
  have tiled := planFrom_tiles key max.val (width min.val max.val ⌈/⌉ shardCount min.val max.val target)
    (shardCount min.val max.val target) max.property remaining 0 min.val (by omega) min.property start
  rw [← count] at tiled
  rcases tiled with ⟨bounds, parsed, tiles⟩
  refine ⟨bounds, parsed, ?_, tiles.nulls, ?_, ?_, ?_⟩
  · intro value
    rw [tiles.keys value, if_pos (Or.inl rfl)]
  · rw [length]
    exact positive
  · rw [length]
    unfold shardCount width MAX_SHARDS
    omega
  · rw [ids]
    exact List.Nodup.map toString_nat_injective (List.nodup_range' 1)

end Shard
end FaucetStream
