import FaucetStream.Library.DigitFraction
import Mathlib.Data.List.DropRight

namespace FaucetStream
namespace Json

open Library

/-!
# Exact decimals

The replication cursor compares decimal texts of any length without going
through a float.  The source keeps such a number as `0.d₁d₂... × 10^exp`
with neither a leading nor a trailing zero digit.  Here that normal form is
a field of the structure, so every decimal is normal by construction, and
the comparison of the source is shown to be the order of the rational
numbers denoted.
-/

/-- The range of the source's `i64`. -/
def InI64 (value : Int) : Prop := -2 ^ 63 ≤ value ∧ value < 2 ^ 63

instance (value : Int) : Decidable (InI64 value) := by
  unfold InI64
  infer_instance

/-- The characters `str::trim` removes: the Unicode `White_Space` property. -/
def isWhitespace (character : Char) : Bool :=
  let code := character.toNat
  (9 ≤ code && code ≤ 13) || code == 0x20 || code == 0x85 || code == 0xA0 || code == 0x1680 ||
    (0x2000 ≤ code && code ≤ 0x200A) || code == 0x2028 || code == 0x2029 || code == 0x202F ||
    code == 0x205F || code == 0x3000

/-- `str::trim` on the characters of a text. -/
def trim (text : List Char) : List Char :=
  (text.dropWhile isWhitespace).rdropWhile isWhitespace

/-- An exact decimal in normal form.  Zero is the empty digit string, which
carries neither a sign nor an exponent. -/
structure Decimal where
  negative : Bool
  digits : List Nat
  exp : Int
  digits_lt : Digits digits
  head_ne_zero : digits.head? ≠ some 0
  last_ne_zero : digits.getLast? ≠ some 0
  zero_normal : digits = [] -> negative = false ∧ exp = 0

namespace Decimal

theorem ext_of_fields {left right : Decimal} (negative : left.negative = right.negative)
    (digits : left.digits = right.digits) (exp : left.exp = right.exp) : left = right := by
  cases left
  cases right
  cases negative
  cases digits
  cases exp
  rfl

instance : DecidableEq Decimal := fun left right =>
  if same : left.negative = right.negative ∧ left.digits = right.digits ∧ left.exp = right.exp then
    isTrue (ext_of_fields same.1 same.2.1 same.2.2)
  else
    isFalse (fun equal => same (by rw [equal]; exact ⟨rfl, rfl, rfl⟩))

/-- Remove the zeros a digit string carries at either end. -/
def stripZeros (digits : List Nat) : List Nat :=
  (digits.dropWhile (· == 0)).rdropWhile (· == 0)

theorem stripZeros_sublist (digits : List Nat) : (stripZeros digits).Sublist digits := by
  have leading : stripZeros digits <+: digits.dropWhile (· == 0) := List.rdropWhile_prefix _ _
  exact leading.sublist.trans (List.dropWhile_sublist _)

theorem stripZeros_last (digits : List Nat) : (stripZeros digits).getLast? ≠ some 0 := by
  intro last
  have nonempty : stripZeros digits ≠ [] := by
    intro empty
    rw [empty] at last
    cases last
  have bad := List.rdropWhile_last_not (· == 0) (digits.dropWhile (· == 0)) nonempty
  rw [List.getLast?_eq_some_getLast nonempty] at last
  have zero : (stripZeros digits).getLast nonempty = 0 := Option.some.inj last
  exact bad (by simpa only [stripZeros] using beq_iff_eq.mpr zero)

theorem stripZeros_head (digits : List Nat) : (stripZeros digits).head? ≠ some 0 := by
  intro head
  have shaped : exists rest, stripZeros digits = 0 :: rest := by
    cases shape : stripZeros digits with
    | nil => rw [shape] at head; cases head
    | cons digit rest =>
        rw [shape] at head
        exact ⟨rest, by rw [Option.some.inj head]⟩
  have leading : stripZeros digits <+: digits.dropWhile (· == 0) := List.rdropWhile_prefix _ _
  rcases shaped with ⟨rest, split⟩
  rcases leading with ⟨suffix, whole⟩
  rw [split, List.cons_append] at whole
  have nonempty : digits.dropWhile (· == 0) ≠ [] := by rw [← whole]; exact List.cons_ne_nil _ _
  have bad := List.head_dropWhile_not (· == 0) nonempty
  simp only [← whole, List.head_cons, beq_self_eq_true, Bool.true_eq_false] at bad

/-- Normalise a sign, a digit string and the exponent in front of it. -/
def normal (negative : Bool) (digits : List Nat) (exp : Int) (small : Digits digits) : Decimal where
  negative := negative && !(stripZeros digits).isEmpty
  digits := stripZeros digits
  exp := if stripZeros digits = [] then 0 else exp
  digits_lt := fun digit member => small digit ((stripZeros_sublist digits).subset member)
  head_ne_zero := stripZeros_head digits
  last_ne_zero := stripZeros_last digits
  zero_normal := fun empty => by simp only [empty, List.isEmpty_nil, Bool.not_true, Bool.and_false,
    if_true, and_self]

/-- `str::parse::<i64>`: an optional sign and at least one digit, in range. -/
def parseI64 (text : List Char) : Option Int :=
  let (negative, body) := match text with
    | '-' :: rest => (true, rest)
    | '+' :: rest => (false, rest)
    | _ => (false, text)
  if body.isEmpty || !body.all Char.isDigit then none
  else
    let magnitude : Int := body.foldl (fun value digit => value * 10 + (digit.toNat - 48 : Nat)) 0
    let value := if negative then -magnitude else magnitude
    if InI64 value then some value else none

theorem digits_of_isDigit (text : List Char) (all : text.all Char.isDigit = true) :
    Digits (text.map (fun digit => digit.toNat - 48)) := by
  intro digit member
  rcases List.mem_map.mp member with ⟨character, listed, value⟩
  have isDigit := List.all_eq_true.mp all character listed
  simp only [Char.isDigit, Bool.and_eq_true, decide_eq_true_eq] at isDigit
  have upper : character.toNat ≤ 57 := isDigit.2
  omega

/-- The digits of a mantissa on either side of its point. -/
def splitPoint (mantissa : List Char) : List Char × List Char :=
  (mantissa.takeWhile (· != '.'), (mantissa.dropWhile (· != '.')).drop 1)

/-- The part of a decimal text after its sign.  `exp` counts the integer
digits left once leading zeros are gone, plus the stated exponent. -/
def parseUnsigned (negative : Bool) (text : List Char) : Option Decimal :=
  let isExponent := fun character : Char => character == 'e' || character == 'E'
  let mantissa := text.takeWhile (fun character => !isExponent character)
  let exponent : Option Int :=
    match text.dropWhile (fun character => !isExponent character) with
    | [] => some 0
    | _ :: rest => parseI64 rest
  let (int, frac) := splitPoint mantissa
  match exponent with
  | none => none
  | some exponent =>
      if int.isEmpty && frac.isEmpty then none
      else if all : (int ++ frac).all Char.isDigit = true then
        let digits := (int ++ frac).map (fun digit => digit.toNat - 48)
        let point : Int := int.length - (digits.takeWhile (· == 0)).length
        if stripZeros digits = [] ∨ InI64 (point + exponent) then
          some (normal negative digits (point + exponent) (digits_of_isDigit _ all))
        else none
      else none

/-- Read a decimal text: surrounding blanks, a sign, digits around an
optional point, and an optional exponent. -/
def parse (text : String) : Option Decimal :=
  match trim text.toList with
  | [] => none
  | '-' :: rest => parseUnsigned true rest
  | '+' :: rest => parseUnsigned false rest
  | unsigned => parseUnsigned false unsigned

/-- The sign of a decimal. -/
def signum (decimal : Decimal) : Int :=
  match decimal.digits, decimal.negative with
  | [], _ => 0
  | _ :: _, true => -1
  | _ :: _, false => 1

def cmpMagnitude (left right : Decimal) : Ordering :=
  (compare left.exp right.exp).then (List.compareLex compare left.digits right.digits)

/-- The source's `Ord` instance. -/
def cmp (left right : Decimal) : Ordering :=
  match compare left.signum right.signum with
  | .eq =>
      if left.signum = 1 then left.cmpMagnitude right
      else if left.signum = -1 then right.cmpMagnitude left
      else .eq
  | unequal => unequal

/-! ## The number a decimal denotes -/

def magnitude (decimal : Decimal) : ℚ := fraction decimal.digits * 10 ^ decimal.exp

/-- The rational number denoted. -/
def value (decimal : Decimal) : ℚ :=
  if decimal.negative then -decimal.magnitude else decimal.magnitude

theorem magnitude_pos (decimal : Decimal) (nonzero : decimal.digits ≠ []) :
    0 < decimal.magnitude :=
  mul_pos (fraction_pos _ nonzero decimal.last_ne_zero) (by positivity)

theorem tenth_le_digits (decimal : Decimal) (nonzero : decimal.digits ≠ []) :
    1 / 10 ≤ fraction decimal.digits := by
  cases shape : decimal.digits with
  | nil => exact absurd shape nonzero
  | cons digit rest =>
      apply tenth_le_fraction
      intro zero
      exact decimal.head_ne_zero (by rw [shape, zero]; rfl)

/-- Magnitudes of nonzero decimals compare as the rationals do. -/
theorem cmpMagnitude_eq (left right : Decimal)
    (leftNonzero : left.digits ≠ []) (rightNonzero : right.digits ≠ []) :
    left.cmpMagnitude right = compare left.magnitude right.magnitude := by
  unfold cmpMagnitude
  rcases lt_trichotomy left.exp right.exp with less | equal | greater
  · rw [compare_lt_iff_lt.mpr less]
    exact (compare_lt_iff_lt.mpr (scaled_lt_of_exponent (fraction_lt_one _ left.digits_lt)
      (tenth_le_digits right rightNonzero) less)).symm
  · rw [compare_eq_iff_eq.mpr equal, Ordering.eq_then, compare_digits left.digits right.digits
      left.digits_lt right.digits_lt left.last_ne_zero right.last_ne_zero]
    have power : (0 : ℚ) < 10 ^ right.exp := by positivity
    unfold magnitude
    rw [equal]
    rcases lt_trichotomy (fraction left.digits) (fraction right.digits) with less | same | more
    · rw [compare_lt_iff_lt.mpr less, compare_lt_iff_lt.mpr (mul_lt_mul_of_pos_right less power)]
    · rw [same, compare_eq_iff_eq.mpr rfl, compare_eq_iff_eq.mpr rfl]
    · rw [compare_gt_iff_gt.mpr more, compare_gt_iff_gt.mpr (mul_lt_mul_of_pos_right more power)]
  · rw [compare_gt_iff_gt.mpr greater]
    exact (compare_gt_iff_gt.mpr (scaled_lt_of_exponent (fraction_lt_one _ right.digits_lt)
      (tenth_le_digits left leftNonzero) greater)).symm

/-- The three signs, each with what it says about the number denoted. -/
theorem signum_cases (decimal : Decimal) :
    (decimal.signum = 0 ∧ decimal.value = 0) ∨
    (decimal.signum = 1 ∧ decimal.digits ≠ [] ∧ decimal.value = decimal.magnitude ∧ 0 < decimal.value) ∨
    (decimal.signum = -1 ∧ decimal.digits ≠ [] ∧ decimal.value = -decimal.magnitude ∧
      decimal.value < 0) := by
  cases shape : decimal.digits with
  | nil =>
      have normal := decimal.zero_normal shape
      refine Or.inl ⟨by simp only [signum, shape], ?_⟩
      simp only [value, magnitude, shape, fraction, zero_mul, neg_zero, ite_self]
  | cons digit rest =>
      have nonzero : decimal.digits ≠ [] := by rw [shape]; exact List.cons_ne_nil _ _
      have positive := decimal.magnitude_pos nonzero
      cases sign : decimal.negative with
      | false =>
          have denoted : decimal.value = decimal.magnitude := by
            simp only [value, sign, Bool.false_eq_true, if_false]
          refine Or.inr (Or.inl ⟨by simp only [signum, shape, sign], List.cons_ne_nil _ _, denoted, ?_⟩)
          rw [denoted]
          exact positive
      | true =>
          have denoted : decimal.value = -decimal.magnitude := by simp only [value, sign, if_true]
          refine Or.inr (Or.inr ⟨by simp only [signum, shape, sign], List.cons_ne_nil _ _, denoted, ?_⟩)
          rw [denoted]
          exact neg_lt_zero.mpr positive

/-- The comparison of normal forms is the order of the numbers denoted. -/
theorem cmp_eq_compare_value (left right : Decimal) :
    left.cmp right = compare left.value right.value := by
  rcases left.signum_cases with ⟨leftSign, leftValue⟩ | ⟨leftSign, leftNonzero, leftValue, leftPositive⟩ |
      ⟨leftSign, leftNonzero, leftValue, leftNegative⟩ <;>
    rcases right.signum_cases with ⟨rightSign, rightValue⟩ |
      ⟨rightSign, rightNonzero, rightValue, rightPositive⟩ |
      ⟨rightSign, rightNonzero, rightValue, rightNegative⟩ <;>
    unfold cmp <;> rw [leftSign, rightSign]
  · rw [leftValue, rightValue, compare_eq_iff_eq.mpr (rfl : (0 : ℚ) = 0)]
    rfl
  · exact (compare_lt_iff_lt.mpr (by rw [leftValue]; exact rightPositive)).symm
  · exact (compare_gt_iff_gt.mpr (by rw [leftValue]; exact rightNegative)).symm
  · exact (compare_gt_iff_gt.mpr (by rw [rightValue]; exact leftPositive)).symm
  · rw [leftValue, rightValue, ← cmpMagnitude_eq left right leftNonzero rightNonzero]
    rfl
  · exact (compare_gt_iff_gt.mpr (lt_trans rightNegative leftPositive)).symm
  · exact (compare_lt_iff_lt.mpr (by rw [rightValue]; exact leftNegative)).symm
  · exact (compare_lt_iff_lt.mpr (lt_trans leftNegative rightPositive)).symm
  · have flipped : compare left.value right.value = compare right.magnitude left.magnitude := by
      rw [leftValue, rightValue]
      rcases lt_trichotomy left.magnitude right.magnitude with less | same | more
      · rw [compare_gt_iff_gt.mpr (neg_lt_neg less), compare_gt_iff_gt.mpr less]
      · rw [same, compare_eq_iff_eq.mpr rfl, compare_eq_iff_eq.mpr rfl]
      · rw [compare_lt_iff_lt.mpr (neg_lt_neg more), compare_lt_iff_lt.mpr more]
    rw [flipped, ← cmpMagnitude_eq right left rightNonzero leftNonzero]
    rfl

end Decimal
end Json
end FaucetStream
