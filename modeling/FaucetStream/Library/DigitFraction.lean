import Mathlib.Algebra.Order.Field.Rat
import Mathlib.Data.List.DropRight
import Mathlib.Algebra.Order.Field.Power
import Mathlib.Order.Compare
import Mathlib.Tactic.Linarith
import Mathlib.Tactic.FieldSimp
import Mathlib.Tactic.Positivity
import Mathlib.Tactic.Ring

namespace FaucetStream
namespace Library

/-!
# Digit strings as fractions

A list of decimal digits is read after the point: `[d₁, d₂, ...]` denotes
`0.d₁d₂...`.  Two facts make an exact decimal comparison possible without
ever forming the number.  A string without trailing zeros is compared by
its digits from the left, exactly as its fraction is.  A string without a
leading zero lies between one tenth and one, so the power of ten in front
of it decides first.
-/

/-- The rational `0.d₁d₂...` a digit string denotes. -/
def fraction : List Nat -> ℚ
  | [] => 0
  | digit :: rest => (digit + fraction rest) / 10

/-- Every entry is a decimal digit. -/
def Digits (digits : List Nat) : Prop :=
  forall digit, digit ∈ digits -> digit < 10

theorem Digits.tail {digit : Nat} {rest : List Nat} (digits : Digits (digit :: rest)) :
    Digits rest :=
  fun other member => digits other (List.mem_cons_of_mem _ member)

theorem Digits.head {digit : Nat} {rest : List Nat} (digits : Digits (digit :: rest)) :
    digit < 10 :=
  digits digit List.mem_cons_self

theorem fraction_nonneg (digits : List Nat) : 0 ≤ fraction digits := by
  induction digits with
  | nil => exact le_refl _
  | cons digit rest ih =>
      simp only [fraction]
      positivity

theorem fraction_lt_one (digits : List Nat) (small : Digits digits) :
    fraction digits < 1 := by
  induction digits with
  | nil => norm_num [fraction]
  | cons digit rest ih =>
      have below := ih small.tail
      have head : (digit : ℚ) ≤ 9 := by exact_mod_cast Nat.le_of_lt_succ small.head
      simp only [fraction]
      linarith

/-- A nonempty string that does not end in a zero denotes a positive
fraction. -/
theorem fraction_pos (digits : List Nat) (nonempty : digits ≠ [])
    (trimmed : digits.getLast? ≠ some 0) : 0 < fraction digits := by
  induction digits with
  | nil => exact absurd rfl nonempty
  | cons digit rest ih =>
      simp only [fraction]
      cases rest with
      | nil =>
          have positive : 0 < digit := Nat.pos_of_ne_zero (fun zero => trimmed (by rw [zero]; rfl))
          have cast : (0 : ℚ) < digit := by exact_mod_cast positive
          simp only [fraction]
          linarith
      | cons next others =>
          have tail := ih (List.cons_ne_nil _ _)
            (by simpa only [List.getLast?_cons_cons] using trimmed)
          positivity

private theorem getLast_tail {digit : Nat} {rest : List Nat}
    (trimmed : (digit :: rest).getLast? ≠ some 0) : rest.getLast? ≠ some 0 := by
  cases rest with
  | nil => intro impossible; cases impossible
  | cons next others => simpa only [List.getLast?_cons_cons] using trimmed

theorem fraction_lt_of_head {left right : Nat} {leftRest rightRest : List Nat}
    (small : Digits leftRest) (less : left < right) :
    fraction (left :: leftRest) < fraction (right :: rightRest) := by
  have below := fraction_lt_one leftRest small
  have above := fraction_nonneg rightRest
  have gap : (left : ℚ) + 1 ≤ right := by exact_mod_cast less
  simp only [fraction]
  linarith

/-- Without trailing zeros, comparing digit by digit compares the fractions.
The trailing-zero condition is what separates a proper extension from the
string it extends. -/
theorem compare_digits (left right : List Nat)
    (leftDigits : Digits left) (rightDigits : Digits right)
    (leftTrimmed : left.getLast? ≠ some 0) (rightTrimmed : right.getLast? ≠ some 0) :
    List.compareLex compare left right = compare (fraction left) (fraction right) := by
  induction left generalizing right with
  | nil =>
      cases right with
      | nil => rfl
      | cons digit rest =>
          have positive := fraction_pos _ (List.cons_ne_nil digit rest) rightTrimmed
          exact (compare_lt_iff_lt.mpr positive).symm
  | cons leftDigit leftRest ih =>
      cases right with
      | nil =>
          have positive := fraction_pos _ (List.cons_ne_nil leftDigit leftRest) leftTrimmed
          exact (compare_gt_iff_gt.mpr positive).symm
      | cons rightDigit rightRest =>
          rw [List.compareLex_cons_cons]
          rcases lt_trichotomy leftDigit rightDigit with less | equal | greater
          · rw [compare_lt_iff_lt.mpr less]
            exact (compare_lt_iff_lt.mpr (fraction_lt_of_head leftDigits.tail less)).symm
          · subst equal
            rw [compare_eq_iff_eq.mpr (rfl : leftDigit = leftDigit), Ordering.eq_then,
              ih rightRest leftDigits.tail rightDigits.tail
                (getLast_tail leftTrimmed) (getLast_tail rightTrimmed)]
            simp only [fraction]
            rcases lt_trichotomy (fraction leftRest) (fraction rightRest) with less | equal | greater
            · rw [compare_lt_iff_lt.mpr less]
              exact (compare_lt_iff_lt.mpr (by linarith)).symm
            · rw [equal, compare_eq_iff_eq.mpr rfl, compare_eq_iff_eq.mpr rfl]
            · rw [compare_gt_iff_gt.mpr greater]
              exact (compare_gt_iff_gt.mpr (by linarith)).symm
          · rw [compare_gt_iff_gt.mpr greater]
            exact (compare_gt_iff_gt.mpr (fraction_lt_of_head rightDigits.tail greater)).symm

/-- A string that starts with a nonzero digit denotes at least one tenth. -/
theorem tenth_le_fraction {digit : Nat} {rest : List Nat} (nonzero : digit ≠ 0) :
    1 / 10 ≤ fraction (digit :: rest) := by
  have one : (1 : ℚ) ≤ digit := by exact_mod_cast Nat.one_le_iff_ne_zero.mpr nonzero
  have above := fraction_nonneg rest
  simp only [fraction]
  linarith

/-- With leading digits in range, the exponents decide before the digits. -/
theorem scaled_lt_of_exponent {left right : ℚ} {leftExponent rightExponent : Int}
    (leftBelow : left < 1) (rightAbove : 1 / 10 ≤ right)
    (less : leftExponent < rightExponent) :
    left * 10 ^ leftExponent < right * 10 ^ rightExponent := by
  have leftPower : (0 : ℚ) < 10 ^ leftExponent := by positivity
  have rightPower : (0 : ℚ) < 10 ^ (rightExponent - 1) := by positivity
  have powers : (10 : ℚ) ^ leftExponent ≤ 10 ^ (rightExponent - 1) :=
    zpow_le_zpow_right₀ (by norm_num) (by omega)
  have split : (10 : ℚ) ^ rightExponent = 10 * 10 ^ (rightExponent - 1) := by
    rw [zpow_sub_one₀ (by norm_num)]
    field_simp
  calc left * 10 ^ leftExponent
      < 1 * 10 ^ leftExponent := mul_lt_mul_of_pos_right leftBelow leftPower
    _ ≤ 10 ^ (rightExponent - 1) := by rw [one_mul]; exact powers
    _ = 1 / 10 * 10 ^ rightExponent := by rw [split]; ring
    _ ≤ right * 10 ^ rightExponent :=
        mul_le_mul_of_nonneg_right rightAbove (le_of_lt (by positivity))

/-! ## Digit strings as numbers -/

/-- The number a digit string denotes. -/
def number (digits : List Nat) : Nat := digits.foldl (fun value digit => value * 10 + digit) 0

theorem foldl_number (digits : List Nat) (value : Nat) :
    digits.foldl (fun value digit => value * 10 + digit) value = value * 10 ^ digits.length + number digits := by
  induction digits generalizing value with
  | nil => simp only [List.foldl_nil, List.length_nil, pow_zero, mul_one, number, add_zero]
  | cons digit rest ih =>
      have whole : number (digit :: rest) = (0 * 10 + digit) * 10 ^ rest.length + number rest :=
        ih (0 * 10 + digit)
      rw [List.foldl_cons, ih, whole, List.length_cons, pow_succ]
      ring

theorem number_cons (digit : Nat) (rest : List Nat) :
    number (digit :: rest) = digit * 10 ^ rest.length + number rest := by
  rw [number, List.foldl_cons, foldl_number, Nat.zero_mul, Nat.zero_add]

/-- The point moved behind the last digit. -/
theorem fraction_mul_pow (digits : List Nat) : fraction digits * 10 ^ digits.length = number digits := by
  induction digits with
  | nil => simp only [fraction, zero_mul, number, List.foldl_nil, Nat.cast_zero]
  | cons digit rest ih =>
      rw [number_cons, fraction, List.length_cons, pow_succ]
      push_cast
      rw [← ih]
      ring

theorem fraction_append (front back : List Nat) :
    fraction (front ++ back) = fraction front + fraction back / 10 ^ front.length := by
  induction front with
  | nil => simp only [List.nil_append, fraction, zero_add, List.length_nil, pow_zero, div_one]
  | cons digit rest ih =>
      rw [List.cons_append, fraction, fraction, ih, List.length_cons, pow_succ]
      field_simp
      ring

theorem fraction_eq_zero (digits : List Nat) (zeros : forall digit, digit ∈ digits -> digit = 0) :
    fraction digits = 0 := by
  induction digits with
  | nil => rfl
  | cons digit rest ih =>
      rw [fraction, zeros digit List.mem_cons_self,
        ih (fun other member => zeros other (List.mem_cons_of_mem _ member))]
      norm_num

/-- Zeros in front move the point. -/
theorem fraction_dropWhile (digits : List Nat) :
    fraction (digits.dropWhile (· == 0)) = fraction digits * 10 ^ (digits.takeWhile (· == 0)).length := by
  have zeros : fraction (digits.takeWhile (· == 0)) = 0 := by
    apply fraction_eq_zero
    intro digit member
    have zero := List.mem_takeWhile_imp member
    exact beq_iff_eq.mp zero
  have split := fraction_append (digits.takeWhile (· == 0)) (digits.dropWhile (· == 0))
  rw [List.takeWhile_append_dropWhile, zeros, zero_add] at split
  rw [split]
  field_simp

/-- Zeros behind say nothing. -/
theorem fraction_rdropWhile (digits : List Nat) : fraction (digits.rdropWhile (· == 0)) = fraction digits := by
  have zeros : fraction (digits.rtakeWhile (· == 0)) = 0 := by
    apply fraction_eq_zero
    intro digit member
    have zero := List.mem_rtakeWhile_imp member
    exact beq_iff_eq.mp zero
  have split := fraction_append (digits.rdropWhile (· == 0)) (digits.rtakeWhile (· == 0))
  rw [List.rdropWhile_append_rtakeWhile, zeros, zero_div, add_zero] at split
  exact split.symm

/-- The power of ten just above a number is unique. -/
theorem exponent_unique {value : ℚ} {left right : Int} (leftAbove : 10 ^ (left - 1) ≤ value)
    (leftBelow : value < 10 ^ left) (rightAbove : 10 ^ (right - 1) ≤ value) (rightBelow : value < 10 ^ right) :
    left = right := by
  have base : (1 : ℚ) < 10 := by norm_num
  have first : left - 1 < right := (zpow_lt_zpow_iff_right₀ base).mp (leftAbove.trans_lt rightBelow)
  have second : right - 1 < left := (zpow_lt_zpow_iff_right₀ base).mp (rightAbove.trans_lt leftBelow)
  omega

end Library
end FaucetStream
