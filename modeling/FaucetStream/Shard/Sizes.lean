import FaucetStream.Shard.PkRange
import Mathlib.Data.Nat.Count

namespace FaucetStream
namespace Shard

open Json

/-!
# Size estimates of a plan

A planned shard carries an estimate of its size.  The cuts are `i128`, but the
estimate is a `u64` and the last shard adds one to it.  A build that checks
arithmetic stops where that sum overflows, any other build wraps.

The estimates are compared with the number of observed keys a shard's bounds
own.  They agree in every plan but one: a single shard over all 64-bit keys,
which owns one key more than a `u64` counts.
-/

/-- `u64` addition where overflow is checked. -/
def addU64 (left right : Nat) : Option Nat :=
  if left + right < 2 ^ 64 then some (left + right) else none

/-- The loop of the planner where overflow is checked. -/
def planFromChecked (key : String) (max : Int) (step n : Nat) : (remaining : Nat) -> (i : Nat) ->
    (lo : Int) -> Option (List ShardSpec)
  | 0, _, _ => some []
  | remaining + 1, i, lo => do
      let isFirst := i == 0
      let isLast := i == n - 1
      let hi := if isLast || lo + step > max then max else lo + step
      let size <- addU64 (hi - lo).toNat (if isLast then 1 else 0)
      let shard : ShardSpec :=
        { id := toString i, descriptor := descriptor key lo hi isFirst isLast, size_estimate := some size }
      if isLast then return [shard]
      else
        let rest <- planFromChecked key max step n remaining (i + 1) hi
        return shard :: rest

def planPkShardsChecked (key : String) (min max : I64) (target : Nat) : Option (List ShardSpec) :=
  let n := shardCount min.val max.val target
  let step := width min.val max.val ⌈/⌉ n
  planFromChecked key max.val step n n 0 min.val

/-- The integer keys of `[min, max]` that a shard's bounds select. -/
def ownedKeys (min max : Int) (bounds : PkShardBounds) : Nat :=
  Nat.count (fun offset => bounds.predicate.selects (some (min + offset)) = true) (max - min + 1).toNat

/-! ## What a shard owns -/

/-- Numbers below a bound that lie between two others. -/
theorem count_between {test : Nat -> Prop} [DecidablePred test] {lower upper bound : Nat}
    (between : forall number, number < bound -> (test number <-> lower ≤ number ∧ number < upper)) :
    Nat.count test bound = min upper bound - lower := by
  induction bound with
  | zero => rw [Nat.count_zero, Nat.min_zero, Nat.zero_sub]
  | succ bound ih =>
      have front := ih (fun number small => between number (Nat.lt_succ_of_lt small))
      have last := between bound (Nat.lt_succ_self bound)
      rw [Nat.count_succ, front]
      by_cases inside : lower ≤ bound ∧ bound < upper
      · rw [if_pos (last.mpr inside)]
        omega
      · rw [if_neg (fun passed => inside (last.mp passed))]
        omega

/-- The last shard owns the keys from its cut on. -/
theorem ownedKeys_last (key : String) {min max lo : Int} (hi : Int) (isFirst : Bool) (above : min ≤ lo)
    (first : isFirst = true -> lo = min) :
    ownedKeys min max (plannedBounds key lo hi isFirst true) = (max - lo + 1).toNat := by
  have selected : forall offset : Nat, offset < (max - min + 1).toNat ->
      ((plannedBounds key lo hi isFirst true).predicate.selects (some (min + offset)) = true <->
        (lo - min).toNat ≤ offset ∧ offset < (max - min + 1).toNat) := by
    intro offset small
    rw [plannedBounds_selects_some]
    simp only [Bool.true_or, Bool.and_true, Bool.or_eq_true, decide_eq_true_eq]
    constructor
    · rintro (isFirst | inside)
      · have start := first isFirst
        exact ⟨by omega, small⟩
      · exact ⟨by omega, small⟩
    · rintro ⟨later, _⟩
      exact Or.inr (by omega)
  rw [ownedKeys, count_between selected]
  omega

/-- A closed shard owns the keys between its cuts. -/
theorem ownedKeys_closed (key : String) {min max lo hi : Int} (isFirst : Bool) (above : min ≤ lo)
    (below : hi ≤ max) (first : isFirst = true -> lo = min) :
    ownedKeys min max (plannedBounds key lo hi isFirst false) = (hi - lo).toNat := by
  have selected : forall offset : Nat, offset < (max - min + 1).toNat ->
      ((plannedBounds key lo hi isFirst false).predicate.selects (some (min + offset)) = true <->
        (lo - min).toNat ≤ offset ∧ offset < (hi - min).toNat) := by
    intro offset small
    rw [plannedBounds_selects_some]
    simp only [Bool.false_or, Bool.and_eq_true, Bool.or_eq_true, decide_eq_true_eq]
    constructor
    · rintro ⟨isFirst | inside, before⟩
      · have start := first isFirst
        exact ⟨by omega, by omega⟩
      · exact ⟨by omega, by omega⟩
    · rintro ⟨later, before⟩
      exact ⟨Or.inr (by omega), by omega⟩
  rw [ownedKeys, count_between selected]
  omega

/-! ## The loop -/

/-- The estimates of the rest of a plan from the cut `lo` on: nothing
overflows, each is what its shard owns, and together they count the keys from
`lo` to the end. -/
structure SizedFrom (min max lo : Int) (checked : Option (List ShardSpec)) (plan : List ShardSpec) : Prop where
  checked : checked = some plan
  owned : forall shard, shard ∈ plan -> exists bounds, PkShardBounds.fromSpec shard = some bounds ∧
    shard.size_estimate = some (ownedKeys min max bounds)
  total : ((plan.map (fun shard => shard.size_estimate.getD 0)).sum : Int) = max - lo + 1

/-- Every round of the loop, by induction on the rounds left.  A round that
does not overflow needs the keys from the cut on to fit a `u64`. -/
theorem planFrom_sized (key : String) {min max : Int} (step n : Nat) (minInside : InI64 min)
    (maxInside : InI64 max) :
    forall (remaining i : Nat) (lo : Int), i + (remaining + 1) = n -> min ≤ lo -> lo ≤ max ->
      (i = 0 -> lo = min) -> (remaining = 0 -> max - lo + 1 < 2 ^ 64) ->
      (0 < remaining -> 0 < step) ->
      SizedFrom min max lo (planFromChecked key max step n (remaining + 1) i lo)
        (planFrom key max step n (remaining + 1) i lo) := by
  intro remaining
  induction remaining with
  | zero =>
      intro i lo count above below first fits _
      have last : (i == n - 1) = true := beq_iff_eq.mpr (by omega)
      have sum : (max - lo).toNat + 1 = (max - lo + 1).toNat := by omega
      have small : (max - lo + 1).toNat < 2 ^ 64 := by
        have bound := fits rfl
        omega
      have loInside : InI64 lo := ⟨le_trans minInside.1 above, lt_of_le_of_lt below maxInside.2⟩
      have owned : ownedKeys min max (plannedBounds key lo max (i == 0) true) = (max - lo + 1).toNat :=
        ownedKeys_last key max (i == 0) above (fun isFirst => first (beq_iff_eq.mp isFirst))
      constructor
      · simp only [planFromChecked, planFrom, last, Bool.true_or, if_true, addU64, sum, if_pos small,
          Nat.mod_eq_of_lt small]
        rfl
      · intro shard present
        simp only [planFrom, last, Bool.true_or, if_true, sum, Nat.mod_eq_of_lt small,
          List.mem_singleton] at present
        rw [present]
        exact ⟨_, fromSpec_descriptor _ key _ (i == 0) true loInside maxInside, congrArg some owned.symm⟩
      · simp only [planFrom, last, Bool.true_or, if_true, sum, Nat.mod_eq_of_lt small, List.map_cons,
          List.map_nil, Option.getD_some, List.sum_cons, List.sum_nil]
        omega
  | succ remaining ih =>
      intro i lo count above below first _ forward
      have notLast : (i == n - 1) = false := beq_eq_false_iff_ne.mpr (by omega)
      have stepPositive := forward (Nat.succ_pos remaining)
      -- The next cut, clamped to `max` when the step overshoots.
      have nextCut : exists hi, (if lo + step > max then max else lo + step) = hi ∧ lo ≤ hi ∧ hi ≤ max ∧
          (hi = max ∨ lo < hi) := by
        by_cases exceeded : lo + step > max
        · exact ⟨max, if_pos exceeded, below, le_refl _, Or.inl rfl⟩
        · exact ⟨lo + step, if_neg exceeded, by omega, by omega, Or.inr (by omega)⟩
      rcases nextCut with ⟨hi, cut, ordered, hiBelow, progress⟩
      have loInside : InI64 lo := ⟨le_trans minInside.1 above, lt_of_le_of_lt below maxInside.2⟩
      have hiInside : InI64 hi := ⟨le_trans loInside.1 ordered, lt_of_le_of_lt hiBelow maxInside.2⟩
      have small : (hi - lo).toNat < 2 ^ 64 := by
        rcases loInside with ⟨lower, _⟩
        rcases hiInside with ⟨_, upper⟩
        omega
      have restFits : max - hi + 1 < 2 ^ 64 := by
        rcases loInside with ⟨lower, _⟩
        rcases maxInside with ⟨_, upper⟩
        rcases progress with clamped | later
        · omega
        · omega
      have owned : ownedKeys min max (plannedBounds key lo hi (i == 0) false) = (hi - lo).toNat :=
        ownedKeys_closed key (i == 0) above hiBelow (fun isFirst => first (beq_iff_eq.mp isFirst))
      have rest := ih (i + 1) hi (by omega) (le_trans above ordered) hiBelow
        (fun zero => absurd zero (Nat.succ_ne_zero i)) (fun _ => restFits) (fun _ => stepPositive)
      have unfolded : planFrom key max step n (remaining + 1 + 1) i lo =
          ⟨toString i, descriptor key lo hi (i == 0) false, some (hi - lo).toNat⟩ ::
            planFrom key max step n (remaining + 1) (i + 1) hi := by
        rw [planFrom]
        simp only [notLast, Bool.false_or, decide_eq_true_eq, cut, Bool.false_eq_true, if_false, Nat.add_zero,
          Nat.mod_eq_of_lt small]
      constructor
      · rw [unfolded, planFromChecked]
        simp only [notLast, Bool.false_or, decide_eq_true_eq, cut, Bool.false_eq_true, if_false, addU64,
          Nat.add_zero, if_pos small, rest.checked]
        rfl
      · intro shard present
        rw [unfolded] at present
        rcases List.mem_cons.mp present with here | later
        · rw [here]
          exact ⟨_, fromSpec_descriptor _ key _ (i == 0) false loInside hiInside, congrArg some owned.symm⟩
        · exact rest.owned shard later
      · rw [unfolded, List.map_cons, List.sum_cons, Option.getD_some]
        rw [rest.total]
        omega

/-! ## The whole plan -/

/-- The sizes of a plan: none overflows, each counts the observed keys its
shard owns, and they sum to the number of observed keys. -/
structure ExactSizes (key : String) (min max : I64) (target : Nat) : Prop where
  checked : planPkShardsChecked key min max target = some (planPkShards key min max target)
  owned : forall shard, shard ∈ planPkShards key min max target ->
    exists bounds, PkShardBounds.fromSpec shard = some bounds ∧
      shard.size_estimate = some (ownedKeys min.val max.val bounds)
  total : (((planPkShards key min max target).map (fun shard => shard.size_estimate.getD 0)).sum : Int) =
    max.val - min.val + 1

/-- One shard over every 64-bit key: the sum of its size overflows. -/
theorem planPkShardsChecked_full (key : String) {min max : I64} {target : Nat}
    (full : max.val - min.val + 1 = 2 ^ 64) (single : target < 2) :
    planPkShardsChecked key min max target = none := by
  have one : shardCount min.val max.val target = 1 := by
    unfold shardCount width MAX_SHARDS
    omega
  have overflows : ¬ (max.val - min.val).toNat + 1 < 2 ^ 64 := by omega
  unfold planPkShardsChecked
  rw [one]
  simp only [planFromChecked, Nat.sub_self, beq_self_eq_true, Bool.true_or, if_true, addU64, if_neg overflows]
  rfl

/-- The sizes are exact unless one shard is to own all 64-bit keys. -/
theorem exactSizes_iff (key : String) (min max : I64) (target : Nat) (ordered : min.val ≤ max.val) :
    ExactSizes key min max target <-> (2 ≤ target ∨ max.val - min.val + 1 < 2 ^ 64) := by
  constructor
  · intro exact
    by_contra outside
    rw [not_or, not_le, not_lt] at outside
    have full : max.val - min.val + 1 = 2 ^ 64 := by
      have lower := min.property.1
      have upper := max.property.2
      omega
    have stopped := planPkShardsChecked_full key full outside.1
    rw [exact.checked] at stopped
    cases stopped
  · intro condition
    have positive := shardCount_pos min.val max.val target
    rcases Nat.exists_eq_succ_of_ne_zero (Nat.pos_iff_ne_zero.mp positive) with ⟨remaining, count⟩
    rw [Nat.succ_eq_add_one] at count
    have single : remaining = 0 -> max.val - min.val + 1 < 2 ^ 64 := by
      intro none
      rcases condition with several | narrow
      · unfold shardCount width MAX_SHARDS at count
        omega
      · exact narrow
    have widthPositive : 0 < width min.val max.val := by
      unfold width
      omega
    have stepPositive : 0 < width min.val max.val ⌈/⌉ shardCount min.val max.val target := by
      rw [Nat.ceilDiv_eq_add_pred_div]
      exact Nat.div_pos (by omega) positive
    have sized := planFrom_sized key (width min.val max.val ⌈/⌉ shardCount min.val max.val target)
      (shardCount min.val max.val target) min.property max.property remaining 0 min.val (by omega) (le_refl _)
      ordered (fun _ => rfl) single (fun _ => stepPositive)
    rw [← count] at sized
    exact ⟨sized.checked, sized.owned, sized.total⟩

/-- The least and the greatest key of 64 bits. -/
def leastKey : I64 := ⟨-2 ^ 63, by decide⟩

def greatestKey : I64 := ⟨2 ^ 63 - 1, by decide⟩

theorem exactSizes_two_shards :
    ExactSizes "id" leastKey greatestKey 2 :=
  (exactSizes_iff "id" leastKey greatestKey 2 (by decide)).mpr (Or.inl (le_refl 2))

/-- A build that checks arithmetic stops; any other one reports a size of
zero for the shard that owns every key. -/
theorem one_shard_over_all_keys :
    ¬ ExactSizes "id" leastKey greatestKey 1 ∧
      planPkShardsChecked "id" leastKey greatestKey 1 = none ∧
      (planPkShards "id" leastKey greatestKey 1).map ShardSpec.size_estimate = [some 0] := by
  have stopped : planPkShardsChecked "id" leastKey greatestKey 1 = none :=
    planPkShardsChecked_full "id" (by decide) (by decide)
  refine ⟨?_, stopped, by decide⟩
  intro exact
  rw [exact.checked] at stopped
  cases stopped

end Shard
end FaucetStream
