import FaucetStream.Error
import FaucetStream.Fidelity.Decimal

namespace FaucetStream
namespace PostgresCdc

open Json
open Fidelity

/-!
# Money

A server prints money as its locale has it: with a symbol, with the integer
digits in groups, and with a sign or in parentheses.  The decoder keeps the
digits and the points and commas, and takes the last point or comma for the
decimal one.  What the server prints is described here by itself, so that the
two can be compared.
-/

/-! ## Decoding -/

/-- How many fractional digits a server prints, from its text for one. -/
def fractionDigitsOfMoney (one : List Char) : Option Nat :=
  match one.filter Char.isDigit with
  | '1' :: rest => if rest.all (· == '0') && decide (rest.length < 2 ^ 32) then some rest.length else none
  | _ => none

def isSeparator (character : Char) : Bool := character == '.' || character == ','

def isKept (character : Char) : Bool := character.isDigit || isSeparator character

def isNegative (text : List Char) : Bool := text.contains '-' || (text.contains '(' && text.contains ')')

/-- How many characters follow the last separator. -/
def placesAfter (kept : List Char) : Option Nat := kept.reverse.findIdx? isSeparator

/-- Digits, with a point for the separator that so many characters follow. -/
def placePoint (places : Option Nat) : List Char -> List Char
  | [] => []
  | character :: rest =>
      if character.isDigit then character :: placePoint places rest
      else if places = some rest.length then '.' :: placePoint places rest
      else placePoint places rest

/-- The separator taken for the decimal one, by what follows it. -/
def decimalPlaces (debug : List Char -> String) (text kept : List Char) : Option Nat -> Except FaucetError (Option Nat)
  | none => .ok ((placesAfter kept).filter (· != 3))
  | some 0 => .ok none
  | some (digits + 1) =>
      if placesAfter kept = some (digits + 1) then .ok (some (digits + 1))
      else
        .error (.source ("pgoutput: money " ++ debug text ++ " does not carry the " ++ toString (digits + 1) ++
          " fractional digits the server's lc_monetary locale prints"))

def moneyJson (debug : List Char -> String) (text : List Char) (fractionDigits : Option Nat) :
    Except FaucetError Value :=
  let kept := text.filter isKept
  match decimalPlaces debug text kept fractionDigits with
  | .error error => .error error
  | .ok places =>
      match decimalText (minusIf (isNegative text) ++ placePoint places kept) with
      | .ok value => .ok value
      | .error error => .error (.source ("pgoutput: money " ++ debug text ++ ": " ++ error.text debug))

/-! ## Locales -/

/-- Where a minus sign stands. -/
inductive SignPlace where
  | first
  | between
  | last
  deriving DecidableEq

inductive NegativeStyle where
  | minus (place : SignPlace)
  | parentheses
  deriving DecidableEq

structure MoneyLocale where
  fractionDigits : Nat
  decimalPoint : Char
  grouping : Option Char
  symbol : List Char
  symbolFirst : Bool
  negativeStyle : NegativeStyle
  isPoint : decimalPoint ∈ ['.', ',', ' ']
  isGrouping : forall mark, grouping = some mark -> mark ∈ ['.', ',', ' '] ∧ mark ≠ decimalPoint
  plainSymbol : forall character, character ∈ symbol -> character.isDigit = false

/-- Digits in groups of three from the right. -/
def groupDigits (mark : Option Char) : List Char -> List Char
  | [] => []
  | digit :: rest =>
      digit :: (if rest.length % 3 = 0 ∧ rest ≠ [] then mark.toList ++ groupDigits mark rest else groupDigits mark rest)

namespace MoneyLocale

variable (locale : MoneyLocale)

/-- The whole units of an amount of minor units. -/
def wholeDigits (amount : Int) : List Char := Nat.toDigits 10 (amount.natAbs / 10 ^ locale.fractionDigits)

def fractionText (amount : Int) : List Char :=
  if locale.fractionDigits = 0 then []
  else (Nat.toDigits 10 (amount.natAbs % 10 ^ locale.fractionDigits)).leftpad locale.fractionDigits '0'

def numberText (amount : Int) : List Char :=
  groupDigits locale.grouping (locale.wholeDigits amount) ++
    (if locale.fractionDigits = 0 then [] else locale.decimalPoint :: locale.fractionText amount)

/-- The two parts of a rendered amount, as they stand. -/
def parts (amount : Int) : List Char × List Char :=
  if locale.symbolFirst then (locale.symbol, locale.numberText amount) else (locale.numberText amount, locale.symbol)

/-- What the server prints. -/
def render (amount : Int) : List Char :=
  let (front, back) := locale.parts amount
  if amount < 0 then
    match locale.negativeStyle with
    | .minus .first => '-' :: (front ++ back)
    | .minus .between => front ++ '-' :: back
    | .minus .last => front ++ (back ++ ['-'])
    | .parentheses => '(' :: (front ++ (back ++ [')']))
  else front ++ back

/-- The exact decimal of an amount. -/
def exactDecimal (amount : Int) : List Char :=
  minusIf (decide (amount < 0)) ++ positional (locale.wholeDigits amount) (locale.fractionText amount)

/-- The text of one unit. -/
def renderOne : List Char := locale.render (10 ^ locale.fractionDigits)

/-- Where the decoder finds the decimal point: there is none, or it is a point
or comma with nothing like it behind. -/
def PointFound : Prop :=
  locale.fractionDigits = 0 ∨
    (locale.decimalPoint ≠ ' ' ∧ (locale.symbolFirst = true ∨ forall mark, mark ∈ locale.symbol ->
      isSeparator mark = false))

/-- The exact decimal is not longer than is written out. -/
def Fits (amount : Int) : Prop :=
  renderedLen ((locale.wholeDigits amount ++ locale.fractionText amount).dropWhile (· == '0')) locale.fractionDigits ≤
    MAX_DECIMAL_DIGITS

end MoneyLocale

/-! ## What is kept of a rendered amount -/

theorem filter_isDigit_of_all {text : List Char}
    (digits : forall character, character ∈ text -> character.isDigit = true) :
    text.filter Char.isDigit = text := List.filter_eq_self.mpr digits

theorem isKept_of_isDigit {character : Char} (digit : character.isDigit = true) : isKept character = true := by
  unfold isKept
  rw [digit]
  rfl

theorem isDigit_of_separator {character : Char} (separator : isSeparator character = true) :
    character.isDigit = false := by
  unfold isSeparator at separator
  rcases Bool.or_eq_true_iff.mp separator with point | comma
  · rw [beq_iff_eq.mp point]
    rfl
  · rw [beq_iff_eq.mp comma]
    rfl

theorem placesAfter_append {front back : List Char} {mark : Char} (separator : isSeparator mark = true)
    (none : forall character, character ∈ back -> isSeparator character = false) :
    placesAfter (front ++ mark :: back) = some back.length := by
  unfold placesAfter
  rw [List.reverse_append, List.reverse_cons, List.append_assoc, List.findIdx?_append]
  have skipped : back.reverse.findIdx? isSeparator = Option.none := by
    rw [List.findIdx?_eq_none_iff]
    exact fun character member => none character (List.mem_reverse.mp member)
  rw [skipped, Option.none_or, List.singleton_append, List.findIdx?_cons, separator, List.length_reverse]
  simp only [if_true, Option.map_some, Nat.zero_add]

/-- A separator stands in front of what has none. -/
theorem length_lt_of_placesAfter {front back : List Char} {places : Nat}
    (none : forall character, character ∈ back -> isSeparator character = false)
    (found : placesAfter (front ++ back) = some places) : back.length ≤ places := by
  unfold placesAfter at found
  rw [List.reverse_append, List.findIdx?_append] at found
  have skipped : back.reverse.findIdx? isSeparator = Option.none := by
    rw [List.findIdx?_eq_none_iff]
    exact fun character member => none character (List.mem_reverse.mp member)
  rw [skipped, Option.none_or] at found
  rcases Option.map_eq_some_iff.mp found with ⟨index, _, rfl⟩
  rw [List.length_reverse]
  exact Nat.le_add_left _ _

theorem placePoint_none (text : List Char) : placePoint none text = text.filter Char.isDigit := by
  induction text with
  | nil => rfl
  | cons character rest ih =>
      unfold placePoint
      rw [List.filter_cons, ih, if_neg (Option.some_ne_none rest.length).symm]

theorem placePoint_digits (places : Option Nat) {text : List Char}
    (digits : forall character, character ∈ text -> character.isDigit = true) : placePoint places text = text := by
  induction text with
  | nil => rfl
  | cons character rest ih =>
      unfold placePoint
      rw [if_pos (digits character List.mem_cons_self),
        ih (fun other member => digits other (List.mem_cons_of_mem _ member))]

theorem placePoint_append {mark : Char} (noDigit : mark.isDigit = false) (front : List Char) {back : List Char}
    (digits : forall character, character ∈ back -> character.isDigit = true) :
    placePoint (some back.length) (front ++ mark :: back) = front.filter Char.isDigit ++ '.' :: back := by
  induction front with
  | nil =>
      rw [List.nil_append]
      unfold placePoint
      rw [noDigit, if_neg Bool.false_ne_true, if_pos rfl, placePoint_digits _ digits]
      rfl
  | cons character rest ih =>
      rw [List.cons_append]
      unfold placePoint
      have farther : ¬some back.length = some (rest ++ mark :: back).length := by
        rw [Option.some.injEq, List.length_append, List.length_cons]
        omega
      rw [ih, List.filter_cons, if_neg farther]
      split
      · rfl
      · rfl

/-! ## Digits in groups -/

theorem filter_groupDigits {mark : Option Char}
    (noDigit : forall character, mark = some character -> character.isDigit = false)
    {digits : List Char} (isDigits : forall character, character ∈ digits -> character.isDigit = true) :
    (groupDigits mark digits).filter Char.isDigit = digits := by
  induction digits with
  | nil => rfl
  | cons digit rest ih =>
      have tail := ih (fun character member => isDigits character (List.mem_cons_of_mem _ member))
      have marks : mark.toList.filter Char.isDigit = [] := by
        rw [List.filter_eq_nil_iff]
        intro character member
        rw [noDigit character (Option.mem_toList.mp member)]
        exact Bool.false_ne_true
      unfold groupDigits
      rw [List.filter_cons, if_pos (isDigits digit List.mem_cons_self)]
      split
      · rw [List.filter_append, marks, List.nil_append, tail]
      · rw [tail]

/-- Grouped digits end with a digit. -/
theorem groupDigits_concat (mark : Option Char) {digits : List Char} (filled : digits ≠ []) :
    exists front last, groupDigits mark digits = front ++ [last] ∧ last ∈ digits := by
  induction digits with
  | nil => exact (filled rfl).elim
  | cons digit rest ih =>
      unfold groupDigits
      cases rest with
      | nil =>
          rw [if_neg (fun both => both.2 rfl)]
          exact ⟨[], digit, rfl, List.mem_cons_self⟩
      | cons second more =>
          rcases ih (List.cons_ne_nil _ _) with ⟨front, last, split, member⟩
          split
          · exact ⟨digit :: (mark.toList ++ front), last, by
              rw [split, List.cons_append, List.append_assoc], List.mem_cons_of_mem _ member⟩
          · exact ⟨digit :: front, last, by rw [split, List.cons_append], List.mem_cons_of_mem _ member⟩

/-! ## Rendered amounts -/

theorem head_toDigits {value : Nat} (positive : value ≠ 0) : (Nat.toDigits 10 value).head? ≠ some '0' := by
  induction value using Nat.strongRecOn with
  | ind value ih =>
      rw [Nat.toDigits_eq_if (by decide)]
      split
      · rename_i small
        rw [List.head?_cons, Ne, Option.some.injEq]
        have cases : value = 1 ∨ value = 2 ∨ value = 3 ∨ value = 4 ∨ value = 5 ∨ value = 6 ∨ value = 7 ∨
            value = 8 ∨ value = 9 := by omega
        rcases cases with rfl | rfl | rfl | rfl | rfl | rfl | rfl | rfl | rfl <;> decide
      · rename_i large
        have further := ih (value / 10) (Nat.div_lt_self (by omega) (by decide)) (by omega)
        cases digits : Nat.toDigits 10 (value / 10) with
        | nil => exact (Nat.toDigits_ne_nil digits).elim
        | cons first rest =>
            rw [digits, List.head?_cons] at further
            rw [List.cons_append, List.head?_cons]
            exact further

namespace MoneyLocale

variable (locale : MoneyLocale) (amount : Int)

theorem wholeDigits_whole : Whole (locale.wholeDigits amount) where
  digits := fun _ member => Nat.isDigit_of_mem_toDigits (by decide) (by decide) member
  filled := Nat.toDigits_ne_nil
  plain := by
    unfold wholeDigits
    by_cases zero : amount.natAbs / 10 ^ locale.fractionDigits = 0
    · rw [zero]
      exact Or.inl (Nat.toDigits_zero 10)
    · exact Or.inr (head_toDigits zero)

theorem fractionText_digits {character : Char} (member : character ∈ locale.fractionText amount) :
    character.isDigit = true := by
  unfold fractionText at member
  split at member
  · cases member
  · rw [List.leftpad, List.mem_append] at member
    rcases member with padding | digit
    · rw [List.eq_of_mem_replicate padding]
      rfl
    · exact Nat.isDigit_of_mem_toDigits (by decide) (by decide) digit

theorem length_fractionText : (locale.fractionText amount).length = locale.fractionDigits := by
  unfold fractionText
  by_cases none : locale.fractionDigits = 0
  · rw [if_pos none, none]
    rfl
  · rw [if_neg none, List.length_leftpad]
    refine Nat.max_eq_left ?_
    rw [Nat.length_toDigits_le_iff (by decide) (Nat.pos_of_ne_zero none)]
    exact Nat.mod_lt _ (Nat.pow_pos (by decide))

theorem ofDigitChars_significant :
    Nat.ofDigitChars 10 (locale.wholeDigits amount ++ locale.fractionText amount) 0 = amount.natAbs := by
  have whole : Nat.ofDigitChars 10 (locale.wholeDigits amount) 0 = amount.natAbs / 10 ^ locale.fractionDigits :=
    Nat.ofDigitChars_ten_toDigits
  rw [Nat.ofDigitChars_append, whole]
  by_cases none : locale.fractionDigits = 0
  · unfold fractionText
    rw [if_pos none, none, Nat.ofDigitChars_nil, Nat.pow_zero, Nat.div_one]
  · have length := locale.length_fractionText amount
    rw [Nat.ofDigitChars_eq_ofDigitChars_zero, length]
    have value : Nat.ofDigitChars 10 (locale.fractionText amount) 0 = amount.natAbs % 10 ^ locale.fractionDigits := by
      unfold fractionText
      rw [if_neg none, List.leftpad, Nat.ofDigitChars_append, Nat.ofDigitChars_replicate_zero, Nat.mul_zero,
        Nat.ofDigitChars_ten_toDigits]
    rw [value]
    exact Nat.div_add_mod _ _

/-- Only zero has no significant digit. -/
theorem significant_eq_nil_iff :
    (locale.wholeDigits amount ++ locale.fractionText amount).dropWhile (· == '0') = [] <-> amount = 0 := by
  constructor
  · intro zeros
    rcases zeros_append_dropWhile (locale.wholeDigits amount ++ locale.fractionText amount) with ⟨count, split⟩
    rw [zeros, List.append_nil] at split
    have value := locale.ofDigitChars_significant amount
    rw [split, Nat.ofDigitChars_replicate_zero, Nat.mul_zero] at value
    exact Int.natAbs_eq_zero.mp value.symm
  · rintro rfl
    rw [List.dropWhile_eq_nil_iff]
    intro character member
    rw [beq_iff_eq]
    rcases List.mem_append.mp member with whole | fraction
    · unfold wholeDigits at whole
      rw [Int.natAbs_zero, Nat.zero_div, Nat.toDigits_zero] at whole
      exact List.mem_singleton.mp whole
    · unfold fractionText at fraction
      rw [Int.natAbs_zero, Nat.zero_mod, Nat.toDigits_zero] at fraction
      split at fraction
      · cases fraction
      · rcases List.mem_append.mp fraction with padding | zero
        · exact List.eq_of_mem_replicate padding
        · exact List.mem_singleton.mp zero

theorem point_cases : locale.decimalPoint = '.' ∨ locale.decimalPoint = ',' ∨ locale.decimalPoint = ' ' := by
  have member := locale.isPoint
  simp only [List.mem_cons, List.not_mem_nil, or_false] at member
  exact member

theorem grouping_noDigit {character : Char} (mark : locale.grouping = some character) : character.isDigit = false := by
  have member := (locale.isGrouping character mark).1
  simp only [List.mem_cons, List.not_mem_nil, or_false] at member
  rcases member with rfl | rfl | rfl <;> rfl

theorem point_noDigit : locale.decimalPoint.isDigit = false := by
  rcases locale.point_cases with point | comma | space
  · rw [point]; rfl
  · rw [comma]; rfl
  · rw [space]; rfl

/-- The number has digits, points, commas and spaces. -/
theorem mem_numberText {character : Char} (member : character ∈ locale.numberText amount) :
    character.isDigit = true ∨ character ∈ ['.', ',', ' '] := by
  have grouped : forall digits : List Char, (forall digit, digit ∈ digits -> digit.isDigit = true) ->
      character ∈ groupDigits locale.grouping digits -> character.isDigit = true ∨ character ∈ ['.', ',', ' '] := by
    intro digits
    induction digits with
    | nil => exact fun _ impossible => nomatch impossible
    | cons digit rest ih =>
        intro isDigits present
        have later := ih (fun other within => isDigits other (List.mem_cons_of_mem _ within))
        unfold groupDigits at present
        rcases List.mem_cons.mp present with rfl | behind
        · exact Or.inl (isDigits _ List.mem_cons_self)
        · split at behind
          · rcases List.mem_append.mp behind with mark | deeper
            · exact Or.inr (locale.isGrouping character (Option.mem_toList.mp mark)).1
            · exact later deeper
          · exact later behind
  unfold numberText at member
  rcases List.mem_append.mp member with whole | behind
  · exact grouped _ (locale.wholeDigits_whole amount).digits whole
  · split at behind
    · cases behind
    · rcases List.mem_cons.mp behind with rfl | fraction
      · exact Or.inr locale.isPoint
      · exact Or.inl (locale.fractionText_digits amount fraction)

theorem filter_isDigit_numberText :
    (locale.numberText amount).filter Char.isDigit = locale.wholeDigits amount ++ locale.fractionText amount := by
  unfold numberText
  rw [List.filter_append, filter_groupDigits (fun _ mark => locale.grouping_noDigit mark)
    (locale.wholeDigits_whole amount).digits]
  congr 1
  split
  · rename_i none
    unfold fractionText
    rw [if_pos none]
    rfl
  · rw [List.filter_cons, locale.point_noDigit, if_neg Bool.false_ne_true]
    exact filter_isDigit_of_all (fun _ member => locale.fractionText_digits amount member)

theorem filter_isDigit_symbol : locale.symbol.filter Char.isDigit = [] := by
  rw [List.filter_eq_nil_iff]
  intro character member
  rw [locale.plainSymbol character member]
  exact Bool.false_ne_true

/-- Signs and parentheses apart, an amount is its two parts. -/
theorem filter_render (test : Char -> Bool) (minus : test '-' = false) (opened : test '(' = false)
    (closed : test ')' = false) :
    (locale.render amount).filter test =
      if locale.symbolFirst then locale.symbol.filter test ++ (locale.numberText amount).filter test
      else (locale.numberText amount).filter test ++ locale.symbol.filter test := by
  have whole : (locale.render amount).filter test =
      (locale.parts amount).1.filter test ++ (locale.parts amount).2.filter test := by
    unfold render
    dsimp only
    split
    · cases locale.negativeStyle with
      | parentheses =>
          dsimp only
          rw [List.filter_cons_of_neg (by rw [opened]; exact Bool.false_ne_true), List.filter_append,
            List.filter_append, List.filter_cons_of_neg (by rw [closed]; exact Bool.false_ne_true), List.filter_nil,
            List.append_nil]
      | minus place =>
          have noMinus : ¬test '-' = true := by
            rw [minus]
            exact Bool.false_ne_true
          cases place with
          | first =>
              dsimp only
              rw [List.filter_cons_of_neg noMinus, List.filter_append]
          | between =>
              dsimp only
              rw [List.filter_append, List.filter_cons_of_neg noMinus]
          | last =>
              dsimp only
              rw [List.filter_append, List.filter_append, List.filter_cons_of_neg noMinus, List.filter_nil,
                List.append_nil]
    · exact List.filter_append _ _
  rw [whole]
  unfold parts
  split
  · rfl
  · rfl

theorem filter_isDigit_render :
    (locale.render amount).filter Char.isDigit = locale.wholeDigits amount ++ locale.fractionText amount := by
  rw [locale.filter_render amount Char.isDigit rfl rfl rfl, filter_isDigit_symbol, filter_isDigit_numberText]
  split
  · rfl
  · exact List.append_nil _

/-- The text of one unit shows how many fractional digits there are. -/
theorem fractionDigitsOfMoney_renderOne :
    fractionDigitsOfMoney locale.renderOne =
      if locale.fractionDigits < 2 ^ 32 then some locale.fractionDigits else none := by
  have whole : locale.wholeDigits (10 ^ locale.fractionDigits) = ['1'] := by
    unfold wholeDigits
    rw [Int.natAbs_pow, show (10 : Int).natAbs = 10 from rfl, Nat.div_self (Nat.pow_pos (by decide))]
    exact Nat.toDigits_of_lt_base (by decide)
  have fraction : locale.fractionText (10 ^ locale.fractionDigits) = List.replicate locale.fractionDigits '0' := by
    unfold fractionText
    rw [Int.natAbs_pow, show (10 : Int).natAbs = 10 from rfl, Nat.mod_self, Nat.toDigits_zero]
    split
    · rename_i none
      rw [none]
      rfl
    · rename_i some
      rw [List.leftpad, List.length_singleton, show ['0'] = List.replicate 1 '0' from rfl,
        List.replicate_append_replicate, Nat.sub_add_cancel (Nat.pos_of_ne_zero some)]
  unfold fractionDigitsOfMoney renderOne
  rw [filter_isDigit_render, whole, fraction, List.singleton_append]
  have zeros : (List.replicate locale.fractionDigits '0').all (· == '0') = true := by
    rw [List.all_eq_true]
    intro character member
    rw [List.eq_of_mem_replicate member]
    rfl
  change (if ((List.replicate locale.fractionDigits '0').all (· == '0') &&
      decide ((List.replicate locale.fractionDigits '0').length < 2 ^ 32)) = true then
    some (List.replicate locale.fractionDigits '0').length else none) = _
  rw [zeros, List.length_replicate, Bool.true_and]
  by_cases small : locale.fractionDigits < 2 ^ 32
  · rw [if_pos small, if_pos (decide_eq_true small)]
  · rw [if_neg small, if_neg (fun within => small (of_decide_eq_true within))]

/-! ## Decoding rendered amounts -/

/-- The symbol does not look like a sign, unless there is one anyway. -/
def SignShown : Prop := 0 < amount -> isNegative locale.symbol = false

theorem contains_numberText {character : Char} (noDigit : character.isDigit = false)
    (other : character ∉ ['.', ',', ' ']) : (locale.numberText amount).contains character = false := by
  rw [List.contains_eq_mem, decide_eq_false_iff_not]
  intro member
  rcases locale.mem_numberText amount member with digit | mark
  · rw [noDigit] at digit
    cases digit
  · exact other mark

theorem isNegative_render_of_neg (negative : amount < 0) : isNegative (locale.render amount) = true := by
  unfold isNegative render
  dsimp only
  rw [if_pos negative]
  cases locale.negativeStyle with
  | parentheses =>
      have opened : ('(' :: ((locale.parts amount).1 ++ ((locale.parts amount).2 ++ [')']))).contains '(' = true := by
        rw [List.contains_eq_mem, decide_eq_true_iff]
        exact List.mem_cons_self
      have closed : ('(' :: ((locale.parts amount).1 ++ ((locale.parts amount).2 ++ [')']))).contains ')' = true := by
        rw [List.contains_eq_mem, decide_eq_true_iff, List.mem_cons, List.mem_append, List.mem_append,
          List.mem_singleton]
        exact Or.inr (Or.inr (Or.inr rfl))
      dsimp only
      rw [opened, closed, Bool.and_self, Bool.or_true]
  | minus place =>
      cases place with
      | first =>
          have sign : ('-' :: ((locale.parts amount).1 ++ (locale.parts amount).2)).contains '-' = true := by
            rw [List.contains_eq_mem, decide_eq_true_iff]
            exact List.mem_cons_self
          dsimp only
          rw [sign, Bool.true_or]
      | between =>
          have sign : ((locale.parts amount).1 ++ '-' :: (locale.parts amount).2).contains '-' = true := by
            rw [List.contains_eq_mem, decide_eq_true_iff, List.mem_append]
            exact Or.inr List.mem_cons_self
          dsimp only
          rw [sign, Bool.true_or]
      | last =>
          have sign : ((locale.parts amount).1 ++ ((locale.parts amount).2 ++ ['-'])).contains '-' = true := by
            rw [List.contains_eq_mem, decide_eq_true_iff, List.mem_append, List.mem_append, List.mem_singleton]
            exact Or.inr (Or.inr rfl)
          dsimp only
          rw [sign, Bool.true_or]

theorem isNegative_render_of_nonneg (positive : ¬amount < 0) :
    isNegative (locale.render amount) = isNegative locale.symbol := by
  have same : forall character : Char, character.isDigit = false -> character ∉ ['.', ',', ' '] ->
      (locale.render amount).contains character = locale.symbol.contains character := by
    intro character noDigit other
    have number := locale.contains_numberText amount noDigit other
    unfold render parts
    dsimp only
    rw [if_neg positive]
    split
    · rw [List.contains_append, number, Bool.or_false]
    · rw [List.contains_append, number, Bool.false_or]
  unfold isNegative
  rw [same '-' rfl (by decide), same '(' rfl (by decide), same ')' rfl (by decide)]

/-- What is kept of the number: its digits, and the decimal point unless that
is a space. -/
theorem filter_isKept_numberText (some : locale.fractionDigits ≠ 0) :
    exists front last, (locale.numberText amount).filter isKept =
        front ++ last :: ((if locale.decimalPoint = ' ' then [] else [locale.decimalPoint]) ++
          locale.fractionText amount) ∧
      last.isDigit = true ∧ (front ++ [last]).filter Char.isDigit = locale.wholeDigits amount := by
  have isWhole := locale.wholeDigits_whole amount
  rcases groupDigits_concat locale.grouping isWhole.filled with ⟨grouped, last, split, member⟩
  have digit := isWhole.digits last member
  have fraction : (locale.fractionText amount).filter isKept = locale.fractionText amount :=
    List.filter_eq_self.mpr (fun _ within => isKept_of_isDigit (locale.fractionText_digits amount within))
  refine ⟨grouped.filter isKept, last, ?_, digit, ?_⟩
  · unfold numberText
    rw [split, if_neg some, List.filter_append, List.filter_append, List.filter_cons_of_pos (isKept_of_isDigit digit),
      List.filter_nil, List.append_assoc, List.singleton_append]
    congr 2
    rcases locale.point_cases with point | comma | space
    · rw [point, List.filter_cons_of_pos rfl, fraction]
      rfl
    · rw [comma, List.filter_cons_of_pos rfl, fraction]
      rfl
    · rw [space, if_pos rfl, List.filter_cons_of_neg (by decide), fraction]
      rfl
  · have digits := filter_groupDigits (fun _ mark => locale.grouping_noDigit mark) isWhole.digits
    rw [split, List.filter_append] at digits
    rw [List.filter_append, List.filter_filter, ← digits]
    congr 1
    refine List.filter_congr (fun character _ => ?_)
    cases within : character.isDigit with
    | true => rw [isKept_of_isDigit within]; rfl
    | false => rfl

theorem noSeparator_of_isDigit {character : Char} (digit : character.isDigit = true) :
    isSeparator character = false := by
  cases separator : isSeparator character with
  | false => rfl
  | true =>
      rw [isDigit_of_separator separator] at digit
      cases digit

theorem fractionText_noSeparator {character : Char} (member : character ∈ locale.fractionText amount) :
    isSeparator character = false := noSeparator_of_isDigit (locale.fractionText_digits amount member)

/-- A symbol keeps nothing but separators. -/
theorem filter_isKept_symbol : locale.symbol.filter isKept = locale.symbol.filter isSeparator := by
  refine List.filter_congr (fun character member => ?_)
  unfold isKept
  rw [locale.plainSymbol character member, Bool.false_or]

/-- With the point found, the digits the decoder reads are those of the amount. -/
theorem decimalPlaces_found (debug : List Char -> String) (found : locale.PointFound) :
    exists places, decimalPlaces debug (locale.render amount) ((locale.render amount).filter isKept)
        (Option.some locale.fractionDigits) = .ok places ∧
      placePoint places ((locale.render amount).filter isKept) =
        positional (locale.wholeDigits amount) (locale.fractionText amount) := by
  by_cases none : locale.fractionDigits = 0
  · refine ⟨Option.none, by rw [none]; rfl, ?_⟩
    have digits : ((locale.render amount).filter isKept).filter Char.isDigit =
        (locale.render amount).filter Char.isDigit := by
      rw [List.filter_filter]
      refine List.filter_congr (fun character _ => ?_)
      cases within : character.isDigit with
      | true => rw [isKept_of_isDigit within]; rfl
      | false => rfl
    have empty : locale.fractionText amount = [] := by
      unfold fractionText
      exact if_pos none
    rw [placePoint_none, digits, filter_isDigit_render, empty]
    rfl
  · rcases found.resolve_left none with ⟨noSpace, placed⟩
    rcases locale.filter_isKept_numberText amount none with ⟨front, last, kept, _, digits⟩
    rw [if_neg noSpace, List.singleton_append, ← List.singleton_append, ← List.append_assoc] at kept
    have point : isSeparator locale.decimalPoint = true := by
      rcases locale.point_cases with point | comma | space
      · rw [point]; rfl
      · rw [comma]; rfl
      · exact (noSpace space).elim
    have whole : exists before, (locale.render amount).filter isKept =
        before ++ locale.decimalPoint :: locale.fractionText amount ∧
          before.filter Char.isDigit = locale.wholeDigits amount := by
      rw [locale.filter_render amount isKept rfl rfl rfl, kept, filter_isKept_symbol]
      split
      · refine ⟨locale.symbol.filter isSeparator ++ (front ++ [last]), (List.append_assoc _ _ _).symm, ?_⟩
        rw [List.filter_append, digits]
        have marks : (locale.symbol.filter isSeparator).filter Char.isDigit = [] := by
          rw [List.filter_eq_nil_iff]
          intro character member
          rw [locale.plainSymbol character (List.mem_filter.mp member).1]
          exact Bool.false_ne_true
        rw [marks, List.nil_append]
      · rename_i behind
        have noMarks : locale.symbol.filter isSeparator = [] := by
          rw [List.filter_eq_nil_iff]
          intro character member
          rw [placed.resolve_left behind character member]
          exact Bool.false_ne_true
        exact ⟨front ++ [last], by rw [noMarks, List.append_nil], digits⟩
    rcases whole with ⟨before, split, wholeDigits⟩
    have length := locale.length_fractionText amount
    have places : placesAfter ((locale.render amount).filter isKept) = Option.some locale.fractionDigits := by
      rw [split, placesAfter_append point (fun _ member => locale.fractionText_noSeparator amount member), length]
    refine ⟨Option.some locale.fractionDigits, ?_, ?_⟩
    · cases digitCount : locale.fractionDigits with
      | zero => exact (none digitCount).elim
      | succ count =>
          rw [digitCount] at places
          unfold decimalPlaces
          dsimp only
          rw [if_pos places]
    · rw [split, ← length, placePoint_append (isDigit_of_separator point) _
        (fun _ member => locale.fractionText_digits amount member), wholeDigits]
      unfold positional
      have filled : (locale.fractionText amount).isEmpty = false := by
        rw [List.isEmpty_eq_false_iff]
        intro empty
        rw [empty] at length
        exact none length.symm
      rw [filled, if_neg Bool.false_ne_true]

/-- Otherwise the decoder refuses the text. -/
theorem decimalPlaces_lost (debug : List Char -> String) (lost : ¬locale.PointFound) :
    exists error, decimalPlaces debug (locale.render amount) ((locale.render amount).filter isKept)
      (Option.some locale.fractionDigits) = .error error := by
  have some : locale.fractionDigits ≠ 0 := fun none => lost (Or.inl none)
  have elsewhere : placesAfter ((locale.render amount).filter isKept) ≠ Option.some locale.fractionDigits := by
    rcases locale.filter_isKept_numberText amount some with ⟨front, last, kept, digit, _⟩
    have length := locale.length_fractionText amount
    rw [locale.filter_render amount isKept rfl rfl rfl, filter_isKept_symbol]
    intro found
    by_cases marks : locale.symbolFirst = true ∨ locale.symbol.filter isSeparator = []
    · have space : locale.decimalPoint = ' ' := by
        by_contra noSpace
        refine lost (Or.inr ⟨noSpace, marks.imp_right (fun empty mark member => ?_)⟩)
        exact Bool.eq_false_iff.mpr (List.filter_eq_nil_iff.mp empty mark member)
      have ending : exists before, placesAfter (before ++ last :: locale.fractionText amount) =
          Option.some locale.fractionDigits := by
        rw [kept, if_pos space, List.nil_append] at found
        split at found
        · exact ⟨locale.symbol.filter isSeparator ++ front, by rw [List.append_assoc]; exact found⟩
        · rename_i behind
          rw [marks.resolve_left behind, List.append_nil] at found
          exact ⟨front, found⟩
      rcases ending with ⟨before, found⟩
      have longer := length_lt_of_placesAfter (by
        intro character member
        rcases List.mem_cons.mp member with rfl | fraction
        · exact noSeparator_of_isDigit digit
        · exact locale.fractionText_noSeparator amount fraction) found
      rw [List.length_cons, length] at longer
      exact Nat.not_succ_le_self _ longer
    · rw [not_or] at marks
      rw [if_neg marks.1] at found
      rcases List.eq_nil_or_concat (locale.symbol.filter isSeparator) with empty | ⟨before, mark, split⟩
      · exact marks.2 empty
      · have separator : isSeparator mark = true := by
          have member : mark ∈ locale.symbol.filter isSeparator := by
            rw [split, List.concat_eq_append]
            exact List.mem_concat_self
          exact (List.mem_filter.mp member).2
        have none : forall character, character ∈ ([] : List Char) -> isSeparator character = false :=
          fun _ impossible => nomatch impossible
        rw [split, List.concat_eq_append, ← List.append_assoc, placesAfter_append separator none] at found
        exact some (Option.some.inj found).symm
  cases digitCount : locale.fractionDigits with
  | zero => exact (some digitCount).elim
  | succ count =>
      rw [digitCount] at elsewhere
      unfold decimalPlaces
      dsimp only
      rw [if_neg elsewhere]
      exact ⟨_, rfl⟩

end MoneyLocale

/-! ## The exact decimal -/

theorem moneyJson_of_places {debug : List Char -> String} {text : List Char} {digits : Nat} {places : Option Nat}
    (found : decimalPlaces debug text (text.filter isKept) (some digits) = .ok places) :
    moneyJson debug text (some digits) =
      match decimalText (minusIf (isNegative text) ++ placePoint places (text.filter isKept)) with
      | .ok value => .ok value
      | .error error => .error (.source ("pgoutput: money " ++ debug text ++ ": " ++ error.text debug)) := by
  unfold moneyJson
  dsimp only
  rw [found]

namespace MoneyLocale

variable (locale : MoneyLocale) (amount : Int)

/-- The sign that is read is the sign of the amount, unless the amount is zero. -/
theorem sign_read_iff :
    minusIf (isNegative (locale.render amount) &&
        !((locale.wholeDigits amount ++ locale.fractionText amount).dropWhile (· == '0')).isEmpty) =
      minusIf (decide (amount < 0)) <-> locale.SignShown amount := by
  have empty : ((locale.wholeDigits amount ++ locale.fractionText amount).dropWhile (· == '0')).isEmpty =
      decide (amount = 0) := by
    rw [Bool.eq_iff_iff, List.isEmpty_iff, decide_eq_true_iff]
    exact locale.significant_eq_nil_iff amount
  rw [empty]
  unfold SignShown
  by_cases negative : amount < 0
  · have nonzero : ¬amount = 0 := by omega
    rw [locale.isNegative_render_of_neg amount negative, decide_eq_false nonzero, decide_eq_true negative]
    exact iff_of_true rfl (fun positive => absurd positive (by omega))
  · rw [locale.isNegative_render_of_nonneg amount negative, decide_eq_false negative]
    by_cases zero : amount = 0
    · rw [decide_eq_true zero, Bool.not_true, Bool.and_false]
      exact iff_of_true rfl (fun positive => absurd positive (by omega))
    · rw [decide_eq_false zero, Bool.not_false, Bool.and_true]
      have positive : 0 < amount := by omega
      cases isNegative locale.symbol with
      | false => exact iff_of_true rfl (fun _ => rfl)
      | true => exact iff_of_false (List.cons_ne_nil _ _) (fun shown => Bool.false_ne_true (shown positive).symm)

theorem fractionDigits_lt_of_fits (fits : locale.Fits amount) : locale.fractionDigits < 2 ^ 32 := by
  unfold Fits renderedLen MAX_DECIMAL_DIGITS at fits
  split at fits
  · omega
  · omega

/-- A decoded amount is exact when the decimal point is found, no symbol looks
like a sign, and the decimal is not too long. -/
theorem money_exact_iff (debug : List Char -> String) :
    moneyJson debug (locale.render amount) (fractionDigitsOfMoney locale.renderOne) =
        .ok (.string (String.ofList (locale.exactDecimal amount))) <->
      locale.PointFound ∧ locale.SignShown amount ∧ locale.Fits amount := by
  have length := locale.length_fractionText amount
  rw [fractionDigitsOfMoney_renderOne]
  by_cases small : locale.fractionDigits < 2 ^ 32
  · rw [if_pos small]
    by_cases found : locale.PointFound
    · rcases locale.decimalPlaces_found amount debug found with ⟨places, located, digits⟩
      have read := decimalText_positional (locale.wholeDigits_whole amount)
        (fun _ member => locale.fractionText_digits amount member) (isNegative (locale.render amount))
        (by rw [length]; exact Nat.lt_trans small (by decide))
      rw [moneyJson_of_places located, digits, read, length]
      by_cases fits : locale.Fits amount
      · rw [if_neg (fun longer => absurd fits (Int.not_le.mpr longer))]
        rw [Except.ok.injEq, Value.string.injEq, String.ofList_inj, exactDecimal, List.append_left_inj, sign_read_iff]
        exact ⟨fun shown => ⟨found, shown, fits⟩, fun conditions => conditions.2.1⟩
      · rw [if_pos (Int.not_le.mp fits)]
        exact iff_of_false (fun impossible => nomatch impossible) (fun conditions => fits conditions.2.2)
    · rcases locale.decimalPlaces_lost amount debug found with ⟨error, refused⟩
      refine iff_of_false (fun impossible => ?_) (fun conditions => found conditions.1)
      unfold moneyJson at impossible
      dsimp only at impossible
      rw [refused] at impossible
      cases impossible
  · refine iff_of_false (fun exactly => ?_) (fun conditions =>
      small (locale.fractionDigits_lt_of_fits amount conditions.2.2))
    have written : exists text, decimalText text = .ok (.string (String.ofList (locale.exactDecimal amount))) := by
      unfold moneyJson at exactly
      dsimp only at exactly
      split at exactly
      · cases exactly
      · rename_i places _
        split at exactly
        · rename_i value reads
          cases exactly
          exact ⟨_, reads⟩
        · cases exactly
    rcases written with ⟨text, reads⟩
    have short := length_decimalText reads
    rw [String.toList_ofList, exactDecimal, positional, List.length_append, List.length_append] at short
    have filled : (locale.fractionText amount).isEmpty = false := by
      rw [List.isEmpty_eq_false_iff]
      intro empty
      rw [empty, List.length_nil] at length
      rw [← length] at small
      exact small (by decide)
    rw [filled, if_neg Bool.false_ne_true, List.length_cons, length] at short
    unfold MAX_DECIMAL_DIGITS at short
    omega

end MoneyLocale

/-- Kuwaiti dinars as they are written in Arabic: three fractional digits, and
a symbol with points behind the number. -/
def kuwait : MoneyLocale where
  fractionDigits := 3
  decimalPoint := '.'
  grouping := some ','
  symbol := [' ', 'د', '.', 'ك', '.']
  symbolFirst := false
  negativeStyle := .minus .first
  isPoint := by decide
  isGrouping := by
    rintro _ ⟨⟩
    decide
  plainSymbol := by
    simp only [List.forall_mem_cons, List.not_mem_nil, IsEmpty.forall_iff, implies_true, and_true]
    decide

theorem money_not_exact :
    ¬forall (locale : MoneyLocale) (amount : Int) (debug : List Char -> String),
      moneyJson debug (locale.render amount) (fractionDigitsOfMoney locale.renderOne) =
        .ok (.string (String.ofList (locale.exactDecimal amount))) := by
  intro exactly
  have impossible := exactly kuwait 1234 String.ofList
  have refused : moneyJson String.ofList (kuwait.render 1234) (fractionDigitsOfMoney kuwait.renderOne) =
      .error (.source ("pgoutput: money " ++ String.ofList (kuwait.render 1234) ++ " does not carry the " ++
        toString 3 ++
        " fractional digits the server's lc_monetary locale prints")) := by rfl
  rw [refused] at impossible
  cases impossible

end PostgresCdc
end FaucetStream
