import FaucetStream.Json.Decimal

namespace FaucetStream
namespace Json

open Library

/-!
# Decimal texts and the numbers they denote

A decimal text is a sign, digits around an optional point and an optional
exponent.  The number it denotes is its digits read as one integer, scaled by
the exponent less the digits behind the point.  This is said without the
normal form of the parser, which is then shown to denote the same number and
to exist for exactly the texts whose exponents fit.
-/

inductive Sign where
  | unsigned
  | plus
  | minus

namespace Sign

def text : Sign -> List Char
  | unsigned => []
  | plus => ['+']
  | minus => ['-']

def negative : Sign -> Bool
  | unsigned => false
  | plus => false
  | minus => true

end Sign

def digitsOf (text : List Char) : List Nat := text.map (fun digit => digit.toNat - 48)

theorem digits_digitsOf {text : List Char} (all : text.all Char.isDigit = true) : Digits (digitsOf text) :=
  Decimal.digits_of_isDigit text all

/-- A letter, a sign and at least one digit. -/
structure ExponentText where
  letter : Char
  sign : Sign
  digits : List Char
  isLetter : letter = 'e' ∨ letter = 'E'
  isDigits : digits.all Char.isDigit = true
  filled : digits ≠ []

namespace ExponentText

def text (exponent : ExponentText) : List Char := exponent.letter :: (exponent.sign.text ++ exponent.digits)

def value (exponent : ExponentText) : Int :=
  if exponent.sign.negative then -(number (digitsOf exponent.digits) : Int) else number (digitsOf exponent.digits)

end ExponentText

structure DecimalText where
  sign : Sign
  int : List Char
  /-- The digits behind a point, if there is one. -/
  frac : Option (List Char)
  exponent : Option ExponentText
  isDigits : (int ++ frac.getD []).all Char.isDigit = true
  filled : int ++ frac.getD [] ≠ []

namespace DecimalText

variable (written : DecimalText)

def mantissa : List Char :=
  written.int ++ match written.frac with
    | none => []
    | some frac => '.' :: frac

def body : List Char :=
  written.mantissa ++ match written.exponent with
    | none => []
    | some exponent => exponent.text

def text : List Char := written.sign.text ++ written.body

def digits : List Nat := digitsOf (written.int ++ written.frac.getD [])

def exponentValue : Int :=
  match written.exponent with
  | none => 0
  | some exponent => exponent.value

def magnitude : ℚ := number written.digits * 10 ^ (written.exponentValue - (written.frac.getD []).length)

/-- The rational number a text denotes. -/
def value : ℚ := if written.sign.negative then -written.magnitude else written.magnitude

end DecimalText

/-- The exponent of a number as `0.d₁d₂... × 10^exp` with `d₁` not zero fits;
zero has none. -/
def Representable (value : ℚ) : Prop :=
  value = 0 ∨ exists exp : Int, InI64 exp ∧ 10 ^ (exp - 1) ≤ |value| ∧ |value| < 10 ^ exp

/-! ## Reading a text -/

theorem not_sign_of_isDigit {character : Char} (digit : character.isDigit = true) :
    character ≠ '-' ∧ character ≠ '+' := by
  constructor
  · rintro rfl
    exact absurd digit (by decide)
  · rintro rfl
    exact absurd digit (by decide)

theorem isDigit_ne {character other : Char} (digit : character.isDigit = true) (noDigit : other.isDigit = false) :
    character ≠ other := by
  rintro rfl
  rw [digit] at noDigit
  cases noDigit

theorem foldl_chars (text : List Char) (value : Nat) :
    text.foldl (fun (value : Int) digit => value * 10 + (digit.toNat - 48 : Nat)) value =
      ((digitsOf text).foldl (fun value digit => value * 10 + digit) value : Nat) := by
  induction text generalizing value with
  | nil => rfl
  | cons digit rest ih =>
      have next := ih (value * 10 + (digit.toNat - 48))
      push_cast at next
      exact next

namespace Decimal

/-- An integer text is read if its value fits. -/
theorem parseI64_text (sign : Sign) {digits : List Char} (isDigits : digits.all Char.isDigit = true)
    (filled : digits ≠ []) :
    parseI64 (sign.text ++ digits) =
      (let value : Int := if sign.negative then -(number (digitsOf digits) : Int) else number (digitsOf digits)
      if InI64 value then some value else none) := by
  have magnitude := foldl_chars digits 0
  have nonempty : digits.isEmpty = false := by simpa using filled
  rw [Nat.cast_zero] at magnitude
  cases sign with
  | minus =>
      simp only [Sign.text, List.cons_append, List.nil_append, parseI64, nonempty, isDigits, Bool.not_true,
        Bool.or_false, Bool.false_eq_true, if_false, if_true, magnitude, Sign.negative, number]
  | plus =>
      simp only [Sign.text, List.cons_append, List.nil_append, parseI64, nonempty, isDigits, Bool.not_true,
        Bool.or_false, Bool.false_eq_true, if_false, magnitude, Sign.negative, number]
  | unsigned =>
      cases digits with
      | nil => exact absurd rfl filled
      | cons first rest =>
          rw [List.all_cons, Bool.and_eq_true] at isDigits
          have noSign := not_sign_of_isDigit isDigits.1
          have all : (first :: rest).all Char.isDigit = true := by rw [List.all_cons, isDigits.1, isDigits.2]; rfl
          rw [Sign.text, List.nil_append]
          unfold parseI64
          split
          rename_i negative body shape
          split at shape
          · rename_i other same
            exact absurd (List.cons.inj same).1 noSign.1
          · rename_i other same
            exact absurd (List.cons.inj same).1 noSign.2
          · cases shape
            simp only [nonempty, all, Bool.not_true, Bool.or_false, Bool.false_eq_true, if_false, magnitude,
              Sign.negative, number]

/-- Whatever is read as an integer is an integer text. -/
theorem text_of_parseI64 {text : List Char} {value : Int} (read : parseI64 text = some value) :
    exists sign : Sign, exists digits, text = sign.text ++ digits ∧ digits.all Char.isDigit = true ∧
      digits ≠ [] := by
  have shaped : forall (sign : Sign) (digits : List Char), text = sign.text ++ digits ->
      (digits.isEmpty || !digits.all Char.isDigit) = false ->
      exists sign : Sign, exists digits, text = sign.text ++ digits ∧ digits.all Char.isDigit = true ∧ digits ≠ [] := by
    intro sign digits spelled passed
    rw [Bool.or_eq_false_iff, Bool.not_eq_false'] at passed
    refine ⟨sign, digits, spelled, passed.2, ?_⟩
    rintro rfl
    exact absurd passed.1 (by decide)
  unfold parseI64 at read
  split at read
  rename_i negative digits split
  have passed : (digits.isEmpty || !digits.all Char.isDigit) = false := by
    by_contra failed
    rw [Bool.not_eq_false] at failed
    rw [if_pos failed] at read
    cases read
  split at split
  · rename_i rest
    cases split
    exact shaped .minus _ rfl passed
  · rename_i rest
    cases split
    exact shaped .plus _ rfl passed
  · cases split
    exact shaped .unsigned _ rfl passed

/-- The exponent behind its letter, zero without one. -/
def readExponent : List Char -> Option Int
  | [] => some 0
  | _ :: rest => parseI64 rest

/-- The decimal of the digits on either side of a point and an exponent. -/
def assemble (negative : Bool) (int frac : List Char) (exponent : Int) : Option Decimal :=
  if int.isEmpty && frac.isEmpty then none
  else if all : (int ++ frac).all Char.isDigit = true then
    if stripZeros (digitsOf (int ++ frac)) = [] ∨
        InI64 (int.length - ((digitsOf (int ++ frac)).takeWhile (· == 0)).length + exponent) then
      some (normal negative (digitsOf (int ++ frac))
        (int.length - ((digitsOf (int ++ frac)).takeWhile (· == 0)).length + exponent) (digits_digitsOf all))
    else none
  else none

theorem parseUnsigned_eq (negative : Bool) (text : List Char) :
    parseUnsigned negative text =
      (readExponent (text.dropWhile (fun character => !(character == 'e' || character == 'E')))).bind
        (assemble negative
          (splitPoint (text.takeWhile (fun character => !(character == 'e' || character == 'E')))).1
          (splitPoint (text.takeWhile (fun character => !(character == 'e' || character == 'E')))).2) := by
  unfold parseUnsigned
  dsimp only
  cases text.dropWhile (fun character => !(character == 'e' || character == 'E')) with
  | nil => rfl
  | cons letter rest =>
      rw [readExponent]
      dsimp only
      cases parseI64 rest with
      | none => rfl
      | some exponent => rfl

/-- A piece that passes a test, in front of one that does not. -/
theorem span_append {test : Char -> Bool} {front : List Char} (back : List Char)
    (passes : forall character, character ∈ front -> test character = true)
    (stops : forall character, back.head? = some character -> test character = false) :
    (front ++ back).takeWhile test = front ∧ (front ++ back).dropWhile test = back := by
  rw [List.takeWhile_append_of_pos passes, List.dropWhile_append_of_pos passes]
  cases back with
  | nil => simp
  | cons character rest => simp [stops character rfl]

end Decimal

namespace DecimalText

variable (written : DecimalText)

theorem isDigit_of_mem {character : Char} (member : character ∈ written.int ++ written.frac.getD []) :
    character.isDigit = true :=
  List.all_eq_true.mp written.isDigits character member

theorem splitPoint_mantissa :
    Decimal.splitPoint written.mantissa = (written.int, written.frac.getD []) := by
  have passes : forall character, character ∈ written.int -> (character != '.') = true := by
    intro character member
    exact bne_iff_ne.mpr (isDigit_ne (written.isDigit_of_mem (List.mem_append_left _ member)) (by decide))
  unfold Decimal.splitPoint mantissa
  cases written.frac with
  | none =>
      rcases Decimal.span_append [] passes nofun with ⟨taken, dropped⟩
      dsimp only
      rw [taken, dropped]
      rfl
  | some frac =>
      rcases Decimal.span_append ('.' :: frac) passes
        (fun character first => by cases first; rfl) with ⟨taken, dropped⟩
      dsimp only
      rw [taken, dropped]
      rfl

theorem mem_mantissa {character : Char} (member : character ∈ written.mantissa) :
    character.isDigit = true ∨ character = '.' := by
  unfold mantissa at member
  rcases List.mem_append.mp member with inInt | inFrac
  · exact Or.inl (written.isDigit_of_mem (List.mem_append_left _ inInt))
  · cases given : written.frac with
    | none =>
        rw [given] at inFrac
        exact absurd inFrac List.not_mem_nil
    | some frac =>
        rw [given] at inFrac
        rcases List.mem_cons.mp inFrac with point | digit
        · exact Or.inr point
        · refine Or.inl (written.isDigit_of_mem (List.mem_append_right _ ?_))
          rw [given]
          exact digit

theorem mantissa_ne_nil : written.mantissa ≠ [] := by
  intro empty
  unfold mantissa at empty
  rcases List.append_eq_nil_iff.mp empty with ⟨noInt, noFrac⟩
  cases given : written.frac with
  | none =>
      apply written.filled
      rw [noInt, given]
      rfl
  | some frac =>
      rw [given] at noFrac
      cases noFrac

/-- The exponent is cut off where its letter stands. -/
theorem span_body :
    written.body.takeWhile (fun character => !(character == 'e' || character == 'E')) = written.mantissa ∧
      written.body.dropWhile (fun character => !(character == 'e' || character == 'E')) =
        match written.exponent with
        | none => []
        | some exponent => exponent.text := by
  apply Decimal.span_append
  · intro character member
    rcases written.mem_mantissa member with digit | rfl
    · have notSmall : character ≠ 'e' := isDigit_ne digit (by decide)
      have notLarge : character ≠ 'E' := isDigit_ne digit (by decide)
      simp [notSmall, notLarge]
    · decide
  · intro character first
    cases given : written.exponent with
    | none =>
        rw [given] at first
        cases first
    | some exponent =>
        rw [given] at first
        cases first
        rcases exponent.isLetter with small | large
        · simp [small]
        · simp [large]

/-- The exponent the normal form of a text has. -/
def normalExponent : Int :=
  written.int.length - (written.digits.takeWhile (· == 0)).length + written.exponentValue

def normalForm : Decimal :=
  Decimal.normal written.sign.negative written.digits written.normalExponent
    (digits_digitsOf written.isDigits)

/-- The exponents fit: the one that is written and the one that is stored. -/
def Fits : Prop :=
  InI64 written.exponentValue ∧ (Decimal.stripZeros written.digits = [] ∨ InI64 written.normalExponent)

instance : Decidable written.Fits := by
  unfold Fits
  infer_instance

theorem parseUnsigned_body :
    Decimal.parseUnsigned written.sign.negative written.body =
      if written.Fits then some written.normalForm else none := by
  rcases written.span_body with ⟨taken, dropped⟩
  have exponentRead : Decimal.readExponent
      (written.body.dropWhile (fun character => !(character == 'e' || character == 'E'))) =
        if InI64 written.exponentValue then some written.exponentValue else none := by
    rw [dropped]
    unfold exponentValue
    cases written.exponent with
    | none => rfl
    | some exponent => exact Decimal.parseI64_text exponent.sign exponent.isDigits exponent.filled
  have nonempty : ¬ (written.int.isEmpty && (written.frac.getD []).isEmpty) = true := by
    rw [Bool.and_eq_true, List.isEmpty_iff, List.isEmpty_iff]
    intro empty
    exact written.filled (List.append_eq_nil_iff.mpr empty)
  rw [Decimal.parseUnsigned_eq, exponentRead, taken, splitPoint_mantissa]
  by_cases fits : InI64 written.exponentValue
  · rw [if_pos fits, Option.bind_some, Decimal.assemble, if_neg nonempty, dif_pos written.isDigits]
    by_cases stored : Decimal.stripZeros written.digits = [] ∨ InI64 written.normalExponent
    · have both : written.Fits := ⟨fits, stored⟩
      exact (if_pos stored).trans (if_pos both).symm
    · have tooFar : ¬ written.Fits := fun both => stored both.2
      exact (if_neg stored).trans (if_neg tooFar).symm
  · have tooFar : ¬ written.Fits := fun both => fits both.1
    rw [if_neg fits, if_neg tooFar, Option.bind_none]

/-- What the parser answers on a decimal text. -/
theorem parse_of_text {text : String} (spelled : trim text.toList = written.text) :
    Decimal.parse text = if written.Fits then some written.normalForm else none := by
  unfold Decimal.parse
  rw [spelled, ← parseUnsigned_body]
  unfold DecimalText.text
  cases sign : written.sign with
  | minus => rfl
  | plus => rfl
  | unsigned =>
      rw [Sign.text, List.nil_append]
      cases shape : written.body with
      | nil => exact absurd (List.append_eq_nil_iff.mp shape).1 written.mantissa_ne_nil
      | cons first rest =>
          have noSign : first ≠ '-' ∧ first ≠ '+' := by
            have member : first ∈ written.mantissa := by
              cases front : written.mantissa with
              | nil => exact absurd front written.mantissa_ne_nil
              | cons character others =>
                  unfold body at shape
                  rw [front, List.cons_append] at shape
                  rw [(List.cons.inj shape).1]
                  exact List.mem_cons_self
            rcases written.mem_mantissa member with digit | rfl
            · exact not_sign_of_isDigit digit
            · exact ⟨by decide, by decide⟩
          split
          · rename_i impossible
            cases impossible
          · rename_i other same
            exact absurd (List.cons.inj same).1 noSign.1
          · rename_i other same
            exact absurd (List.cons.inj same).1 noSign.2
          · rfl

end DecimalText

namespace Decimal

/-- A digit string with an optional point in it. -/
theorem mantissa_of_splitPoint (mantissa : List Char) :
    exists frac : Option (List Char), (splitPoint mantissa).2 = frac.getD [] ∧
      mantissa = (splitPoint mantissa).1 ++ match frac with
        | none => []
        | some frac => '.' :: frac := by
  have whole := List.takeWhile_append_dropWhile (p := fun character => character != '.') (l := mantissa)
  unfold splitPoint
  cases rest : mantissa.dropWhile (· != '.') with
  | nil =>
      rw [rest] at whole
      exact ⟨none, rfl, whole.symm⟩
  | cons character frac =>
      have point : character = '.' := by
        have nonempty : mantissa.dropWhile (· != '.') ≠ [] := by rw [rest]; exact List.cons_ne_nil _ _
        have stops := List.head_dropWhile_not (· != '.') nonempty
        simpa only [rest, List.head_cons, bne_eq_false_iff_eq] using stops
      rw [rest, point] at whole
      exact ⟨some frac, rfl, whole.symm⟩

/-- Whatever is read behind a sign is the body of a decimal text. -/
theorem text_of_parseUnsigned (sign : Sign) {negative : Bool} {text : List Char} {decimal : Decimal}
    (read : parseUnsigned negative text = some decimal) :
    exists written : DecimalText, sign.text ++ text = written.text := by
  rw [parseUnsigned_eq] at read
  rcases Option.bind_eq_some_iff.mp read with ⟨value, exponentRead, assembled⟩
  have whole := List.takeWhile_append_dropWhile
    (p := fun character => !(character == 'e' || character == 'E')) (l := text)
  rcases mantissa_of_splitPoint (text.takeWhile (fun character => !(character == 'e' || character == 'E'))) with
    ⟨frac, behind, mantissa⟩
  have exponent : exists exponent : Option ExponentText,
      text.dropWhile (fun character => !(character == 'e' || character == 'E')) = match exponent with
        | none => []
        | some exponent => exponent.text := by
    cases rest : text.dropWhile (fun character => !(character == 'e' || character == 'E')) with
    | nil => exact ⟨none, rfl⟩
    | cons letter others =>
        rw [rest, readExponent] at exponentRead
        rcases text_of_parseI64 exponentRead with ⟨exponentSign, digits, spelled, isDigits, filled⟩
        have isLetter : letter = 'e' ∨ letter = 'E' := by
          have nonempty : text.dropWhile (fun character => !(character == 'e' || character == 'E')) ≠ [] := by
            rw [rest]
            exact List.cons_ne_nil _ _
          have stops := List.head_dropWhile_not (fun character => !(character == 'e' || character == 'E')) nonempty
          simp only [rest, List.head_cons, Bool.not_eq_false', Bool.or_eq_true, beq_iff_eq] at stops
          exact stops
        exact ⟨some ⟨letter, exponentSign, digits, isLetter, isDigits, filled⟩, by rw [spelled]; rfl⟩
  rcases exponent with ⟨exponent, tail⟩
  unfold assemble at assembled
  split at assembled
  · cases assembled
  · rename_i nonempty
    split at assembled
    · rename_i isDigits
      rw [behind] at isDigits nonempty
      refine ⟨⟨sign, _, frac, exponent, isDigits, ?_⟩, ?_⟩
      · intro empty
        rcases List.append_eq_nil_iff.mp empty with ⟨noInt, noFrac⟩
        rw [noInt, noFrac] at nonempty
        exact nonempty rfl
      · unfold DecimalText.text DecimalText.body DecimalText.mantissa
        rw [← mantissa, ← tail, whole]
    · cases assembled

/-- Whatever is read is a decimal text between blanks. -/
theorem text_of_parse {text : String} {decimal : Decimal} (read : parse text = some decimal) :
    exists written : DecimalText, trim text.toList = written.text := by
  unfold parse at read
  split at read
  · cases read
  · rename_i rest spelled
    rw [spelled]
    exact text_of_parseUnsigned .minus read
  · rename_i rest spelled
    rw [spelled]
    exact text_of_parseUnsigned .plus read
  · exact text_of_parseUnsigned .unsigned read

end Decimal

/-! ## The number of the normal form -/

namespace Decimal

theorem fraction_stripZeros (digits : List Nat) :
    fraction (stripZeros digits) = fraction digits * 10 ^ (digits.takeWhile (· == 0)).length := by
  unfold stripZeros
  rw [fraction_rdropWhile, fraction_dropWhile]

theorem abs_value (decimal : Decimal) : |decimal.value| = decimal.magnitude := by
  have nonneg : 0 ≤ decimal.magnitude :=
    mul_nonneg (fraction_nonneg decimal.digits) (le_of_lt (by positivity))
  unfold value
  split
  · rw [abs_neg, abs_of_nonneg nonneg]
  · exact abs_of_nonneg nonneg

theorem value_eq_zero_iff (decimal : Decimal) : decimal.value = 0 <-> decimal.digits = [] := by
  constructor
  · intro zero
    by_contra nonzero
    have positive := decimal.magnitude_pos nonzero
    rw [← abs_value, zero, abs_zero] at positive
    exact lt_irrefl _ positive
  · intro empty
    rw [← abs_eq_zero, abs_value, magnitude, empty, fraction, zero_mul]

/-- The exponent of a normal form is the power of ten above its number. -/
theorem magnitude_bounds (decimal : Decimal) (nonzero : decimal.digits ≠ []) :
    10 ^ (decimal.exp - 1) ≤ |decimal.value| ∧ |decimal.value| < 10 ^ decimal.exp := by
  have power : (0 : ℚ) < 10 ^ decimal.exp := by positivity
  rw [abs_value, magnitude]
  constructor
  · rw [zpow_sub_one₀ (by norm_num), mul_comm]
    apply mul_le_mul_of_nonneg_right
    · rw [← one_div]
      exact decimal.tenth_le_digits nonzero
    · exact le_of_lt power
  · have below := mul_lt_mul_of_pos_right (fraction_lt_one decimal.digits decimal.digits_lt) power
    rw [one_mul] at below
    exact below

theorem representable_iff (decimal : Decimal) :
    Representable decimal.value <-> decimal.digits = [] ∨ InI64 decimal.exp := by
  unfold Representable
  rw [value_eq_zero_iff]
  by_cases zero : decimal.digits = []
  · exact ⟨fun _ => Or.inl zero, fun _ => Or.inl zero⟩
  · rcases decimal.magnitude_bounds zero with ⟨above, below⟩
    apply or_congr Iff.rfl
    constructor
    · rintro ⟨exp, inRange, otherAbove, otherBelow⟩
      rw [exponent_unique above below otherAbove otherBelow]
      exact inRange
    · intro inRange
      exact ⟨decimal.exp, inRange, above, below⟩

/-- Normal forms of one number are the same. -/
theorem eq_iff_value_eq (left right : Decimal) : left = right <-> left.value = right.value := by
  constructor
  · intro same
    rw [same]
  · intro same
    by_cases zero : left.digits = []
    · have otherZero : right.digits = [] := by
        rw [← value_eq_zero_iff, ← same, value_eq_zero_iff]
        exact zero
      rcases left.zero_normal zero with ⟨leftSign, leftExp⟩
      rcases right.zero_normal otherZero with ⟨rightSign, rightExp⟩
      exact ext_of_fields (leftSign.trans rightSign.symm) (zero.trans otherZero.symm) (leftExp.trans rightExp.symm)
    · have nonzero : right.digits ≠ [] := by
        rw [Ne, ← value_eq_zero_iff, ← same, value_eq_zero_iff]
        exact zero
      rcases left.magnitude_bounds zero with ⟨leftAbove, leftBelow⟩
      rcases right.magnitude_bounds nonzero with ⟨rightAbove, rightBelow⟩
      rw [← same] at rightAbove rightBelow
      have exps := exponent_unique leftAbove leftBelow rightAbove rightBelow
      have magnitudes : left.magnitude = right.magnitude := by rw [← abs_value, ← abs_value, same]
      have fractions : fraction left.digits = fraction right.digits := by
        unfold magnitude at magnitudes
        rw [exps] at magnitudes
        exact mul_right_cancel₀ (by positivity) magnitudes
      have digits : left.digits = right.digits := by
        have compared := compare_digits left.digits right.digits left.digits_lt right.digits_lt left.last_ne_zero
          right.last_ne_zero
        rw [fractions, compare_eq_iff_eq.mpr rfl] at compared
        exact Std.LawfulEqCmp.eq_of_compare compared
      have signs : left.negative = right.negative := by
        have positive := left.magnitude_pos zero
        unfold value at same
        rw [← magnitudes] at same
        cases leftSign : left.negative with
        | false =>
            cases rightSign : right.negative with
            | false => rfl
            | true =>
                rw [leftSign, rightSign] at same
                simp only [Bool.false_eq_true, if_false, if_true] at same
                linarith
        | true =>
            cases rightSign : right.negative with
            | true => rfl
            | false =>
                rw [leftSign, rightSign] at same
                simp only [Bool.false_eq_true, if_false, if_true] at same
                linarith
      exact ext_of_fields signs digits exps

end Decimal

namespace DecimalText

variable (written : DecimalText)

theorem magnitude_normalForm : written.normalForm.magnitude = written.magnitude := by
  have numbers := fraction_mul_pow written.digits
  have length : written.digits.length = written.int.length + (written.frac.getD []).length := by
    rw [digits, digitsOf, List.length_map, List.length_append]
  have ten : (10 : ℚ) ≠ 0 := by norm_num
  unfold Decimal.magnitude normalForm Decimal.normal magnitude
  dsimp only
  rw [← numbers, Decimal.fraction_stripZeros]
  by_cases zero : Decimal.stripZeros written.digits = []
  · have nothing : fraction written.digits = 0 := by
      have stripped := Decimal.fraction_stripZeros written.digits
      rw [zero, fraction] at stripped
      rcases mul_eq_zero.mp stripped.symm with found | impossible
      · exact found
      · exact absurd impossible (by positivity)
    rw [nothing, zero_mul, zero_mul, zero_mul, zero_mul]
  · rw [if_neg zero, normalExponent, length, mul_assoc, mul_assoc, ← zpow_natCast, ← zpow_natCast, ← zpow_add₀ ten,
      ← zpow_add₀ ten]
    congr 2
    push_cast
    ring

/-- The normal form denotes the number of the text. -/
theorem value_normalForm : written.normalForm.value = written.value := by
  unfold Decimal.value value
  rw [magnitude_normalForm]
  by_cases zero : Decimal.stripZeros written.digits = []
  · have nothing : written.magnitude = 0 := by
      rw [← magnitude_normalForm, Decimal.magnitude]
      change fraction (Decimal.stripZeros written.digits) * _ = 0
      rw [zero, fraction, zero_mul]
    rw [nothing, neg_zero, ite_self, ite_self]
  · have sign : written.normalForm.negative = written.sign.negative := by
      change (written.sign.negative && !(Decimal.stripZeros written.digits).isEmpty) = written.sign.negative
      rw [List.isEmpty_eq_false_iff.mpr zero, Bool.not_false, Bool.and_true]
    rw [sign]

/-- The stored exponent fits exactly when the number is representable. -/
theorem fits_iff : written.Fits <-> InI64 written.exponentValue ∧ Representable written.value := by
  unfold Fits
  rw [← value_normalForm, Decimal.representable_iff]
  apply and_congr Iff.rfl
  change _ <-> Decimal.stripZeros written.digits = [] ∨
    InI64 (if Decimal.stripZeros written.digits = [] then 0 else written.normalExponent)
  by_cases zero : Decimal.stripZeros written.digits = []
  · exact ⟨fun _ => Or.inl zero, fun _ => Or.inl zero⟩
  · rw [if_neg zero]

end DecimalText

/-! ## Order and acceptance -/

/-- Decimals compare as the numbers their texts denote, and the texts that are
read are those, between blanks, whose written exponent fits and whose number
is representable. -/
theorem parse_orders_and_accepts :
    (forall (left right : String) (p q : Decimal), Decimal.parse left = some p -> Decimal.parse right = some q ->
      forall leftText rightText : DecimalText, trim left.toList = leftText.text -> trim right.toList = rightText.text ->
        p.cmp q = compare leftText.value rightText.value ∧ (p = q <-> leftText.value = rightText.value)) ∧
    (forall text : String, (Decimal.parse text).isSome = true <->
      exists written : DecimalText, trim text.toList = written.text ∧ InI64 written.exponentValue ∧
        Representable written.value) := by
  have denoted : forall (text : String) (decimal : Decimal) (written : DecimalText),
      Decimal.parse text = some decimal -> trim text.toList = written.text -> decimal.value = written.value := by
    intro text decimal written read spelled
    rw [written.parse_of_text spelled] at read
    split at read
    · cases read
      exact written.value_normalForm
    · cases read
  constructor
  · intro left right p q leftRead rightRead leftText rightText leftSpelled rightSpelled
    rw [← denoted left p leftText leftRead leftSpelled, ← denoted right q rightText rightRead rightSpelled]
    exact ⟨p.cmp_eq_compare_value q, p.eq_iff_value_eq q⟩
  · intro text
    constructor
    · intro read
      rcases Option.isSome_iff_exists.mp read with ⟨decimal, parsed⟩
      rcases Decimal.text_of_parse parsed with ⟨written, spelled⟩
      rw [written.parse_of_text spelled] at parsed
      refine ⟨written, spelled, written.fits_iff.mp ?_⟩
      by_contra tooFar
      rw [if_neg tooFar] at parsed
      cases parsed
    · rintro ⟨written, spelled, fits⟩
      rw [written.parse_of_text spelled, if_pos (written.fits_iff.mpr fits)]
      rfl

theorem representable_power {exp : Int} (inRange : InI64 (exp + 1)) : Representable (10 ^ exp) := by
  have positive : (0 : ℚ) < 10 ^ exp := by positivity
  refine Or.inr ⟨exp + 1, inRange, ?_, ?_⟩
  · rw [add_sub_cancel_right, abs_of_pos positive]
  · rw [abs_of_pos positive]
    exact zpow_lt_zpow_right₀ (by norm_num) (by omega)

/-- `0.01e9223372036854775808`. -/
def farExponent : DecimalText where
  sign := .unsigned
  int := ['0']
  frac := some ['0', '1']
  exponent := some ⟨'e', .unsigned, "9223372036854775808".toList, Or.inl rfl, by decide, by decide⟩
  isDigits := by decide
  filled := by decide

/-- Its exponent fits once the zeros are gone, but not as it is written. -/
theorem farExponent_rejected :
    trim "0.01e9223372036854775808".toList = farExponent.text ∧ Representable farExponent.value ∧
      Decimal.parse "0.01e9223372036854775808" = none := by
  refine ⟨by decide +kernel, ?_, by decide +kernel⟩
  have digits : number farExponent.digits = 1 := by decide
  have exponent : farExponent.exponentValue - ((farExponent.frac.getD []).length : Int) = 9223372036854775806 := by
    decide +kernel
  have value : farExponent.value = 10 ^ (9223372036854775806 : Int) := by
    change farExponent.magnitude = _
    rw [DecimalText.magnitude, digits, exponent, Nat.cast_one, one_mul]
  rw [value]
  exact representable_power (by decide)

end Json
end FaucetStream
