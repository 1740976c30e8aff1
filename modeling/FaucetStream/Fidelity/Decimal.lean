import FaucetStream.Json.DecimalText
import FaucetStream.Json.Value
import Mathlib.Algebra.Ring.Nat

namespace FaucetStream
namespace Fidelity

open Json

/-!
# Exact decimal texts

A decimal is written out positionally, at its own scale and without leading
zeros.  What would be longer than any database writes is refused, since an
exponent alone decides how long a text becomes.
-/

inductive FidelityError where
  | notANumber (text : List Char)
  | tooManyDigits (text : List Char)
  deriving DecidableEq

def MAX_DECIMAL_DIGITS : Nat := 160000

/-- The text of an error, where `debug` quotes a text. -/
def FidelityError.text (debug : List Char -> String) : FidelityError -> String
  | .notANumber text => debug text ++ " is not a decimal number"
  | .tooManyDigits text =>
      debug text ++ " has an exponent too large to write out (more than " ++ toString MAX_DECIMAL_DIGITS ++ " digits)"

def tooManyDigits (text : List Char) : FidelityError := .tooManyDigits ((trim text).take 64)

/-- The length of the written text, or more. -/
def renderedLen (digits : List Char) (scale : Int) : Int :=
  if scale ≤ 0 then
    if digits.isEmpty then 1 else digits.length - scale + 1
  else max (digits.length : Int) (scale + 1) + 2

/-- Sign, digits without leading zeros, and scale of a decimal literal. -/
def parseDecimal (text : List Char) : Option (Bool × List Char × Int) :=
  let isExponent := fun character : Char => character == 'e' || character == 'E'
  let trimmed := trim text
  match trimmed with
  | [] => none
  | first :: more =>
      let (negative, rest) :=
        if first = '-' then (true, more) else if first = '+' then (false, more) else (false, trimmed)
      let exponent :=
        match rest.dropWhile (fun character => !isExponent character) with
        | [] => some 0
        | _ :: after => Decimal.parseI64 after
      match exponent with
      | none => none
      | some exponent =>
          let (int, frac) := Decimal.splitPoint (rest.takeWhile (fun character => !isExponent character))
          if (int.isEmpty && frac.isEmpty) || !(int ++ frac).all Char.isDigit then none
          else
            let scale : Int := frac.length - exponent
            if InI64 scale then some (negative, (int ++ frac).dropWhile (· == '0'), scale) else none

def minusIf (negative : Bool) : List Char := if negative then ['-'] else []

/-- Digits at a scale, written out. -/
def renderPositional (negative : Bool) (digits : List Char) (scale : Int) : List Char :=
  if scale ≤ 0 then
    if digits.isEmpty then ['0'] else minusIf negative ++ (digits ++ List.replicate (-scale).toNat '0')
  else
    let scale := scale.toNat
    let padded :=
      if digits.length ≤ scale then List.replicate (scale + 1 - digits.length) '0' ++ digits else digits
    minusIf (negative && !digits.isEmpty) ++
      (padded.take (padded.length - scale) ++ '.' :: padded.drop (padded.length - scale))

def renderDecimal (negative : Bool) (digits : List Char) (scale : Int) : Option (List Char) :=
  if renderedLen digits scale > MAX_DECIMAL_DIGITS then none else some (renderPositional negative digits scale)

def isNonFiniteWord (text : List Char) : Bool :=
  let word := ((trim text).dropWhile (fun character => character == '+' || character == '-')).map Char.toLower
  word == ['n', 'a', 'n'] || word == ['i', 'n', 'f'] || word == ['i', 'n', 'f', 'i', 'n', 'i', 't', 'y']

/-- An exact decimal from its text, as text at its own scale.  A number that is
not finite becomes null. -/
def decimalText (text : List Char) : Except FidelityError Value :=
  if isNonFiniteWord text then .ok .null
  else
    match parseDecimal text with
    | none => .error (.notANumber text)
    | some (negative, digits, scale) =>
        match renderDecimal negative digits scale with
        | none => .error (tooManyDigits text)
        | some written => .ok (.string (String.ofList written))

/-! ## Lengths -/

theorem length_minusIf (negative : Bool) : (minusIf negative).length ≤ 1 := by
  unfold minusIf
  split
  · exact Nat.le_refl 1
  · exact Nat.zero_le 1

theorem length_renderPositional (negative : Bool) (digits : List Char) (scale : Int) :
    ((renderPositional negative digits scale).length : Int) ≤ renderedLen digits scale := by
  unfold renderPositional renderedLen
  by_cases whole : scale ≤ 0
  · rw [if_pos whole, if_pos whole]
    split
    · exact Int.le_refl 1
    · have sign := length_minusIf negative
      rw [List.length_append, List.length_append, List.length_replicate]
      omega
  · rw [if_neg whole, if_neg whole]
    have sign := length_minusIf (negative && !digits.isEmpty)
    have padding : forall padded : List Char, (padded.length : Int) = max (digits.length : Int) (scale + 1) ->
        ((minusIf (negative && !digits.isEmpty) ++
          (padded.take (padded.length - scale.toNat) ++ '.' :: padded.drop (padded.length - scale.toNat))).length :
            Int) ≤ max (digits.length : Int) (scale + 1) + 2 := by
      intro padded padded_length
      rw [List.length_append, List.length_append, List.length_cons, List.length_take, List.length_drop]
      omega
    dsimp only
    split
    · refine padding _ ?_
      rw [List.length_append, List.length_replicate]
      omega
    · exact padding digits (by omega)

/-- No text that is written passes the limit. -/
theorem length_decimalText {text : List Char} {written : String} (writes : decimalText text = .ok (.string written)) :
    written.toList.length ≤ MAX_DECIMAL_DIGITS := by
  unfold decimalText at writes
  split at writes
  · cases writes
  · cases parsed : parseDecimal text with
    | none =>
        rw [parsed] at writes
        cases writes
    | some fields =>
        rcases fields with ⟨negative, digits, scale⟩
        rw [parsed] at writes
        unfold renderDecimal at writes
        dsimp only at writes
        by_cases long : renderedLen digits scale > MAX_DECIMAL_DIGITS
        · rw [if_pos long] at writes
          cases writes
        · rw [if_neg long] at writes
          cases writes
          have short := length_renderPositional negative digits scale
          rw [String.toList_ofList]
          omega

/-! ## Positional texts -/

/-- Digits around an optional point. -/
def positional (whole fraction : List Char) : List Char :=
  whole ++ (if fraction.isEmpty then [] else '.' :: fraction)

/-- A whole part as it is written: one digit, or no leading zero. -/
structure Whole (whole : List Char) : Prop where
  digits : forall character, character ∈ whole -> character.isDigit = true
  filled : whole ≠ []
  plain : whole = ['0'] ∨ whole.head? ≠ some '0'

theorem not_whitespace_of_isDigit {character : Char} (digit : character.isDigit = true) :
    isWhitespace character = false := by
  simp only [Char.isDigit, Bool.and_eq_true, decide_eq_true_eq] at digit
  have lower : 48 ≤ character.toNat := digit.1
  have upper : character.toNat ≤ 57 := digit.2
  simp only [isWhitespace, Bool.or_eq_false_iff, Bool.and_eq_false_iff, decide_eq_false_iff_not,
    beq_eq_false_iff_ne]
  omega

theorem toLower_of_isDigit {character : Char} (digit : character.isDigit = true) : character.toLower = character := by
  simp only [Char.isDigit, Bool.and_eq_true, decide_eq_true_eq] at digit
  unfold Char.toLower
  rw [dif_neg]
  rintro ⟨letter, _⟩
  exact absurd (UInt32.le_trans letter digit.2) (by decide)

theorem zeros_append_dropWhile (digits : List Char) :
    exists zeros, digits = List.replicate zeros '0' ++ digits.dropWhile (· == '0') := by
  refine ⟨(digits.takeWhile (· == '0')).length, ?_⟩
  have zeros : digits.takeWhile (· == '0') = List.replicate (digits.takeWhile (· == '0')).length '0' := by
    apply List.eq_replicate_of_mem
    intro character member
    have passes := List.mem_takeWhile_imp member
    exact beq_iff_eq.mp passes
  rw [← zeros]
  exact List.takeWhile_append_dropWhile.symm

theorem Whole.dropWhile {whole : List Char} (fraction : List Char) (isWhole : Whole whole) (long : whole ≠ ['0']) :
    (whole ++ fraction).dropWhile (· == '0') = whole ++ fraction := by
  cases whole with
  | nil => exact (isWhole.filled rfl).elim
  | cons first rest =>
      have nonzero : first ≠ '0' := fun zero => (isWhole.plain.resolve_left long) (by rw [List.head?_cons, zero])
      rw [List.cons_append, List.dropWhile_cons_of_neg]
      exact fun zero => nonzero (beq_iff_eq.mp zero)

/-- What is written of digits without their leading zeros is the digits. -/
theorem renderPositional_of_digits {whole fraction : List Char} (isWhole : Whole whole) (negative : Bool) :
    renderPositional negative ((whole ++ fraction).dropWhile (· == '0')) fraction.length =
      minusIf (negative && !((whole ++ fraction).dropWhile (· == '0')).isEmpty) ++ positional whole fraction := by
  unfold renderPositional positional
  cases fraction with
  | nil =>
      have scale : ((([] : List Char).length : Nat) : Int) ≤ 0 := Int.le_refl 0
      rw [if_pos scale, List.append_nil, List.isEmpty_nil, if_pos rfl]
      by_cases zero : whole = ['0']
      · rw [zero]
        cases negative with
        | true => rfl
        | false => rfl
      · have kept := isWhole.dropWhile [] zero
        rw [List.append_nil] at kept
        have filled : whole.isEmpty = false := by
          rw [List.isEmpty_eq_false_iff]
          exact isWhole.filled
        rw [kept, filled, if_neg Bool.false_ne_true, Bool.not_false, Bool.and_true]
        rfl
  | cons first rest =>
      have positive : ¬((first :: rest).length : Int) ≤ 0 := by
        rw [List.length_cons]
        omega
      rw [if_neg positive, List.isEmpty_cons, if_neg Bool.false_ne_true, Int.toNat_natCast]
      dsimp only
      congr 1
      by_cases zero : whole = ['0']
      · rw [zero, List.cons_append, List.nil_append, List.dropWhile_cons_of_pos rfl]
        rcases zeros_append_dropWhile (first :: rest) with ⟨zeros, split⟩
        have lengths := congrArg List.length split
        rw [List.length_append, List.length_replicate] at lengths
        have padded : List.replicate ((first :: rest).length + 1 - ((first :: rest).dropWhile (· == '0')).length) '0' ++
            (first :: rest).dropWhile (· == '0') = '0' :: first :: rest := by
          have count : (first :: rest).length + 1 - ((first :: rest).dropWhile (· == '0')).length = zeros + 1 := by
            omega
          rw [count, List.replicate_succ, List.cons_append, ← split]
        have short : ((first :: rest).dropWhile (· == '0')).length ≤ (first :: rest).length := by omega
        rw [if_pos short, padded, List.length_cons, Nat.add_sub_cancel_left]
        rfl
      · rw [isWhole.dropWhile _ zero]
        have long : ¬(whole ++ first :: rest).length ≤ (first :: rest).length := by
          have filled := List.length_pos_of_ne_nil isWhole.filled
          rw [List.length_append]
          omega
        rw [if_neg long, List.length_append, Nat.add_sub_cancel, List.take_left, List.drop_left]

/-! ## Reading positional texts -/

section Reading

variable {whole fraction : List Char}

theorem trim_of_plain {text : List Char}
    (plain : forall character, character ∈ text -> isWhitespace character = false) :
    trim text = text := by
  unfold trim
  have front : text.dropWhile isWhitespace = text := by
    cases text with
    | nil => rfl
    | cons first rest =>
        rw [List.dropWhile_cons_of_neg]
        rw [plain first List.mem_cons_self]
        exact Bool.false_ne_true
  rw [front, List.rdropWhile_eq_self_iff]
  intro filled
  rw [plain _ (List.getLast_mem filled)]
  exact Bool.false_ne_true

theorem mem_positional {character : Char} (member : character ∈ positional whole fraction) :
    character ∈ whole ∨ character = '.' ∨ character ∈ fraction := by
  unfold positional at member
  rcases List.mem_append.mp member with inWhole | behind
  · exact Or.inl inWhole
  · split at behind
    · cases behind
    · exact Or.inr (List.mem_cons.mp behind)

theorem splitPoint_positional (isWhole : Whole whole) :
    Decimal.splitPoint (positional whole fraction) = (whole, fraction) := by
  have noPoint : forall character, character ∈ whole -> (character != '.') = true := by
    intro character member
    exact bne_iff_ne.mpr (isDigit_ne (isWhole.digits character member) (by decide))
  unfold Decimal.splitPoint positional
  cases fraction with
  | nil =>
      rw [List.isEmpty_nil, if_pos rfl]
      have split := Decimal.span_append [] noPoint (fun _ impossible => nomatch impossible)
      rw [split.1, split.2]
      rfl
  | cons first rest =>
      rw [List.isEmpty_cons, if_neg Bool.false_ne_true]
      have split := Decimal.span_append ('.' :: first :: rest) noPoint (by
        intro character head
        cases head
        rfl)
      rw [split.1, split.2]
      rfl

variable (isWhole : Whole whole) (isFraction : forall character, character ∈ fraction -> character.isDigit = true)

include isWhole isFraction

theorem digit_or_point {character : Char} (member : character ∈ positional whole fraction) :
    character.isDigit = true ∨ character = '.' := by
  rcases mem_positional member with inWhole | point | inFraction
  · exact Or.inl (isWhole.digits character inWhole)
  · exact Or.inr point
  · exact Or.inl (isFraction character inFraction)

theorem plain_signed (negative : Bool) {character : Char}
    (member : character ∈ minusIf negative ++ positional whole fraction) : isWhitespace character = false := by
  rcases List.mem_append.mp member with sign | written
  · unfold minusIf at sign
    split at sign
    · rw [List.mem_singleton.mp sign]
      rfl
    · cases sign
  · rcases digit_or_point isWhole isFraction written with digit | point
    · exact not_whitespace_of_isDigit digit
    · rw [point]
      rfl

theorem parseDecimal_positional (negative : Bool) (small : fraction.length < 2 ^ 63) :
    parseDecimal (minusIf negative ++ positional whole fraction) =
      some (negative, (whole ++ fraction).dropWhile (· == '0'), (fraction.length : Int)) := by
  have trimmed : trim (minusIf negative ++ positional whole fraction) = minusIf negative ++ positional whole fraction :=
    trim_of_plain (fun _ member => plain_signed isWhole isFraction negative member)
  have noExponent : forall character, character ∈ positional whole fraction ->
      (!(character == 'e' || character == 'E')) = true := by
    intro character member
    rcases digit_or_point isWhole isFraction member with digit | point
    · rw [beq_eq_false_iff_ne.mpr (isDigit_ne digit (by decide)),
        beq_eq_false_iff_ne.mpr (isDigit_ne digit (by decide))]
      rfl
    · rw [point]
      rfl
  have mantissa := Decimal.span_append [] noExponent (fun _ impossible => nomatch impossible)
  rw [List.append_nil] at mantissa
  have digits : (whole ++ fraction).all Char.isDigit = true := by
    rw [List.all_append, Bool.and_eq_true]
    exact ⟨List.all_eq_true.mpr isWhole.digits, List.all_eq_true.mpr isFraction⟩
  have filled : whole.isEmpty = false := by
    rw [List.isEmpty_eq_false_iff]
    exact isWhole.filled
  have inRange : InI64 ((fraction.length : Int) - 0) := by
    unfold InI64
    omega
  have rest : forall text : List Char, text = positional whole fraction ->
      (match (match text.dropWhile (fun character => !(character == 'e' || character == 'E')) with
        | [] => some 0
        | _ :: after => Decimal.parseI64 after) with
      | none => none
      | some exponent =>
          let (int, frac) := Decimal.splitPoint
            (text.takeWhile (fun character => !(character == 'e' || character == 'E')))
          if (int.isEmpty && frac.isEmpty) || !(int ++ frac).all Char.isDigit then none
          else
            let scale : Int := frac.length - exponent
            if InI64 scale then some (negative, (int ++ frac).dropWhile (· == '0'), scale) else none) =
        some (negative, (whole ++ fraction).dropWhile (· == '0'), (fraction.length : Int)) := by
    rintro _ rfl
    rw [mantissa.1, mantissa.2, splitPoint_positional isWhole]
    dsimp only
    rw [filled, digits, Bool.false_and, Bool.not_true, Bool.or_false, if_neg Bool.false_ne_true, if_pos inRange,
      Int.sub_zero]
  unfold parseDecimal
  rw [trimmed]
  cases negative with
  | true => exact rest _ rfl
  | false =>
      cases shape : positional whole fraction with
      | nil =>
          unfold positional at shape
          exact (isWhole.filled (List.append_eq_nil_iff.mp shape).1).elim
      | cons first more =>
          have digit : first.isDigit = true := by
            unfold positional at shape
            cases whole with
            | nil => exact (isWhole.filled rfl).elim
            | cons head tail =>
                rw [List.cons_append] at shape
                cases shape
                exact isWhole.digits _ List.mem_cons_self
          have noSign := not_sign_of_isDigit digit
          have whichRest := rest (first :: more) shape.symm
          rw [show minusIf false ++ first :: more = first :: more from rfl]
          dsimp only
          rw [if_neg noSign.1, if_neg noSign.2]
          exact whichRest

theorem isNonFiniteWord_positional (negative : Bool) :
    isNonFiniteWord (minusIf negative ++ positional whole fraction) = false := by
  have trimmed : trim (minusIf negative ++ positional whole fraction) = minusIf negative ++ positional whole fraction :=
    trim_of_plain (fun _ member => plain_signed isWhole isFraction negative member)
  cases whole with
  | nil => exact (isWhole.filled rfl).elim
  | cons first rest =>
      have digit := isWhole.digits first List.mem_cons_self
      have noSign := not_sign_of_isDigit digit
      have unsigned : ¬((first == '+' || first == '-') = true) := by
        rw [beq_eq_false_iff_ne.mpr noSign.1, beq_eq_false_iff_ne.mpr noSign.2]
        exact Bool.false_ne_true
      have stripped : (minusIf negative ++ positional (first :: rest) fraction).dropWhile
          (fun character => character == '+' || character == '-') = positional (first :: rest) fraction := by
        have plain : (positional (first :: rest) fraction).dropWhile
            (fun character => character == '+' || character == '-') = positional (first :: rest) fraction := by
          unfold positional
          rw [List.cons_append, List.dropWhile_cons]
          exact if_neg unsigned
        cases negative with
        | true => exact plain
        | false => exact plain
      have notLetter : forall (letter : Char) (word : List Char), letter.isDigit = false ->
          ((positional (first :: rest) fraction).map Char.toLower == letter :: word) = false := by
        intro letter word noDigit
        rw [beq_eq_false_iff_ne]
        unfold positional
        rw [List.cons_append, List.map_cons]
        intro same
        have lower : first.toLower = first := toLower_of_isDigit digit
        have head := (List.cons.inj same).1
        rw [lower] at head
        rw [head, noDigit] at digit
        cases digit
      unfold isNonFiniteWord
      rw [trimmed, stripped]
      dsimp only
      rw [notLetter 'n' _ (by decide), notLetter 'i' _ (by decide), notLetter 'i' _ (by decide)]
      rfl

/-- A positional text is written as it is, without the sign of a zero, or is
too long. -/
theorem decimalText_positional (negative : Bool) (small : fraction.length < 2 ^ 63) :
    decimalText (minusIf negative ++ positional whole fraction) =
      if renderedLen ((whole ++ fraction).dropWhile (· == '0')) fraction.length > MAX_DECIMAL_DIGITS then
        .error (tooManyDigits (minusIf negative ++ positional whole fraction))
      else
        .ok (.string (String.ofList
          (minusIf (negative && !((whole ++ fraction).dropWhile (· == '0')).isEmpty) ++
            positional whole fraction))) := by
  unfold decimalText renderDecimal
  rw [isNonFiniteWord_positional isWhole isFraction, if_neg Bool.false_ne_true,
    parseDecimal_positional isWhole isFraction negative small]
  dsimp only
  rw [renderPositional_of_digits isWhole]
  split
  · rename_i long
    split at long
    · rename_i above
      rw [if_pos above]
    · cases long
  · rename_i written fits
    split at fits
    · cases fits
    · rename_i within
      cases fits
      rw [if_neg within]

end Reading

end Fidelity
end FaucetStream
