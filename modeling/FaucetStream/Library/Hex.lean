import Mathlib.Data.Nat.Basic
import Mathlib.Tactic.IntervalCases

namespace FaucetStream
namespace Library

/-!
# Hexadecimal text

Numbers are written in upper case without leading zeros, or in lower case to a
fixed width, and read back in either case.
-/

def hexDigit (digit : Nat) : Char := if digit < 10 then Char.ofNat (48 + digit) else Char.ofNat (55 + digit)

def hexDigitValue (character : Char) : Option Nat :=
  let code := character.toNat
  if 48 ≤ code ∧ code ≤ 57 then some (code - 48)
  else if 65 ≤ code ∧ code ≤ 70 then some (code - 55)
  else if 97 ≤ code ∧ code ≤ 102 then some (code - 87)
  else none

/-- The digits of a number of at most `width` digits. -/
def hexText : Nat -> Nat -> List Char
  | 0, _ => []
  | width + 1, number => if number < 16 then [hexDigit number] else hexText width (number / 16) ++
    [hexDigit (number % 16)]

/-- One more digit, of a number below `limit`. -/
def readHexDigit (limit read : Nat) (character : Char) : Except String Nat :=
  match hexDigitValue character with
  | none => .error "invalid digit found in string"
  | some digit =>
      if limit ≤ read * 16 + digit then .error "number too large to fit in target type" else .ok (read * 16 + digit)

def readHex (limit : Nat) (digits : List Char) : Except String Nat := digits.foldlM (readHexDigit limit) 0

/-- `from_str_radix(_, 16)` for numbers below `limit`: a plus may stand before the digits. -/
def fromStrRadix16 (limit : Nat) (text : List Char) : Option Nat :=
  match text with
  | [] => none
  | ['+'] => none
  | '+' :: digits => (readHex limit digits).toOption
  | digits => (readHex limit digits).toOption

theorem hexDigitValue_hexDigit {digit : Nat} (small : digit < 16) : hexDigitValue (hexDigit digit) = some digit := by
  interval_cases digit <;> rfl

theorem hexDigit_ne_of_none {digit : Nat} (small : digit < 16) {character : Char}
    (other : hexDigitValue character = none) : hexDigit digit ≠ character := by
  intro same
  rw [← same, hexDigitValue_hexDigit small] at other
  cases other

theorem readHex_concat {limit : Nat} {digits : List Char} {read digit : Nat} {character : Char}
    (before : readHex limit digits = .ok read) (last : hexDigitValue character = some digit)
    (small : read * 16 + digit < limit) : readHex limit (digits ++ [character]) = .ok (read * 16 + digit) := by
  rw [readHex] at before ⊢
  rw [List.foldlM_append, before]
  change List.foldlM (readHexDigit limit) read [character] = _
  rw [List.foldlM_cons, readHexDigit, last]
  simp only [if_neg (Nat.not_le.mpr small)]
  rfl

theorem readHex_hexText {limit width number : Nat} (below : number < limit) (small : number < 16 ^ width)
    (positive : 0 < width) : readHex limit (hexText width number) = .ok number := by
  induction width generalizing number with
  | zero => exact absurd positive (Nat.lt_irrefl 0)
  | succ width ih =>
      rw [hexText]
      split
      · next digit =>
        have nothing : readHex limit [] = .ok 0 := rfl
        have alone := readHex_concat nothing (hexDigitValue_hexDigit digit) (by omega)
        rw [Nat.zero_mul, Nat.zero_add] at alone
        exact alone
      · next large =>
        have higher : number / 16 < 16 ^ width := by
          rw [Nat.pow_succ] at small
          exact Nat.div_lt_of_lt_mul (Nat.mul_comm _ _ ▸ small)
        have widthPositive : 0 < width := by
          by_contra none
          rw [Nat.eq_zero_of_not_pos none] at higher
          omega
        have whole : number / 16 * 16 + number % 16 = number := Nat.div_add_mod' number 16
        have read := readHex_concat (ih (by omega) higher widthPositive)
          (hexDigitValue_hexDigit (Nat.mod_lt number (by decide))) (by omega)
        rw [whole] at read
        exact read

theorem hexText_ne_nil {width number : Nat} (positive : 0 < width) : hexText width number ≠ [] := by
  cases width with
  | zero => exact absurd positive (Nat.lt_irrefl 0)
  | succ width =>
      rw [hexText]
      split
      · exact List.cons_ne_nil _ _
      · exact List.append_ne_nil_of_right_ne_nil _ (List.cons_ne_nil _ _)

/-- No character but a digit stands in the text of a number. -/
theorem not_mem_hexText {width number : Nat} {character : Char} (other : hexDigitValue character = none) :
    character ∉ hexText width number := by
  induction width generalizing number with
  | zero => exact List.not_mem_nil
  | succ width ih =>
      rw [hexText]
      split
      · next digit =>
        intro member
        exact hexDigit_ne_of_none digit other (List.mem_singleton.mp member).symm
      · intro member
        rcases List.mem_append.mp member with higher | last
        · exact ih higher
        · exact hexDigit_ne_of_none (Nat.mod_lt number (by decide)) other (List.mem_singleton.mp last).symm

/-! ## Numbers of a fixed width -/

/-- A number in so many hexadecimal digits. -/
def hexDigits : (width : Nat) -> Nat -> List Char
  | 0, _ => []
  | width + 1, number => hexDigits width (number / 16) ++ [Nat.digitChar (number % 16)]

theorem length_hexDigits (width number : Nat) : (hexDigits width number).length = width := by
  induction width generalizing number with
  | zero => rfl
  | succ width ih =>
      rw [hexDigits, List.length_append, ih]
      rfl

theorem mem_hexDigits {width number : Nat} {character : Char} (member : character ∈ hexDigits width number) :
    exists digit, digit < 16 ∧ character = Nat.digitChar digit := by
  induction width generalizing number with
  | zero => cases member
  | succ width ih =>
      rw [hexDigits, List.mem_append] at member
      rcases member with higher | lowest
      · exact ih higher
      · exact ⟨number % 16, Nat.mod_lt _ (by decide), List.mem_singleton.mp lowest⟩

theorem hexDigitValue_digitChar {digit : Nat} (small : digit < 16) :
    hexDigitValue (Nat.digitChar digit) = some digit := by
  interval_cases digit <;> rfl

/-- A number that fits its width is read back. -/
theorem readHex_hexDigits {limit width number : Nat} (below : number < limit) (small : number < 16 ^ width) :
    readHex limit (hexDigits width number) = .ok number := by
  induction width generalizing number with
  | zero =>
      have zero : number = 0 := by omega
      rw [zero]
      rfl
  | succ width ih =>
      have higher : number / 16 < 16 ^ width := by
        rw [Nat.pow_succ] at small
        exact Nat.div_lt_of_lt_mul (Nat.mul_comm _ _ ▸ small)
      have whole : number / 16 * 16 + number % 16 = number := Nat.div_add_mod' number 16
      have read := readHex_concat (ih (by omega) higher)
        (hexDigitValue_digitChar (Nat.mod_lt number (by decide))) (by omega)
      rw [whole] at read
      exact read

theorem hexDigits_injective (width : Nat) {left right : Nat} (leftSmall : left < 16 ^ width)
    (rightSmall : right < 16 ^ width) (same : hexDigits width left = hexDigits width right) : left = right := by
  have read := readHex_hexDigits leftSmall leftSmall
  rw [same, readHex_hexDigits rightSmall rightSmall] at read
  exact (Except.ok.inj read).symm

end Library
end FaucetStream
