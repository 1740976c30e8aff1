import FaucetStream.Replication.Compare

namespace FaucetStream
namespace Replication

open Json
open Library

/-!
# When replication values are totally ordered

The comparison answers every question and answers the swapped question with
the swapped answer.  It is transitive on a set of values exactly as long as
the orders it switches between do not contradict each other: `"9" < "10"` as
numbers, but `"10" < "1a" < "9"` as texts.  The coherence of a set says that
no such third value is present where the comparison gets to see it, and it is
exactly on coherent values that the largest key of a page is a largest key
whatever the order of the records.
-/

/-! ## A timestamp is no decimal -/

theorem mem_of_mem_blankToT (offset : Nat) (text : List Char) (member : ':' ∈ blankToT offset text) :
    ':' ∈ text := by
  induction text generalizing offset with
  | nil => cases offset <;> exact member
  | cons character rest ih =>
      cases offset with
      | zero =>
          rcases List.mem_cons.mp member with head | tail
          · by_cases blank : character = ' '
            · rw [if_pos blank] at head
              exact absurd head (by decide)
            · rw [if_neg blank] at head
              exact List.mem_cons.mpr (Or.inl head)
          · exact List.mem_cons_of_mem _ tail
      | succ offset =>
          rw [blankToT] at member
          by_cases fits : character.utf8Size ≤ offset + 1
          · rw [if_pos fits] at member
            rcases List.mem_cons.mp member with head | tail
            · exact List.mem_cons.mpr (Or.inl head)
            · exact List.mem_cons_of_mem _ (ih _ tail)
          · rw [if_neg fits] at member
            exact member

theorem not_all_digits {text : List Char} (colon : ':' ∈ text) : text.all Char.isDigit = false := by
  rw [List.all_eq_false]
  exact ⟨':', colon, by decide⟩

theorem parseI64_colon {text : List Char} (colon : ':' ∈ text) : Decimal.parseI64 text = none := by
  have refused : forall body : List Char, ':' ∈ body -> (body.isEmpty || !body.all Char.isDigit) = true := by
    intro body member
    rw [not_all_digits member, Bool.not_false, Bool.or_true]
  unfold Decimal.parseI64
  split
  rename_i negative body shape
  have inside : ':' ∈ body := by
    split at shape
    · cases shape
      exact (List.mem_cons.mp colon).resolve_left (by decide)
    · cases shape
      exact (List.mem_cons.mp colon).resolve_left (by decide)
    · cases shape
      exact colon
  rw [if_pos (refused body inside)]

theorem mem_splitPoint {mantissa : List Char} (colon : ':' ∈ mantissa) :
    ':' ∈ (Decimal.splitPoint mantissa).1 ++ (Decimal.splitPoint mantissa).2 := by
  rw [← List.takeWhile_append_dropWhile (p := (· != '.')) (l := mantissa), List.mem_append] at colon
  rw [List.mem_append]
  rcases colon with before | after
  · exact Or.inl before
  · cases shape : mantissa.dropWhile (· != '.') with
    | nil => rw [shape] at after; cases after
    | cons point rest =>
        have nonempty : mantissa.dropWhile (· != '.') ≠ [] := by rw [shape]; exact List.cons_ne_nil _ _
        have isPoint := List.head_dropWhile_not (· != '.') nonempty
        simp only [shape, List.head_cons, bne_eq_false_iff_eq] at isPoint
        rw [shape, isPoint] at after
        refine Or.inr ?_
        simp only [Decimal.splitPoint, shape, List.drop_succ_cons, List.drop_zero]
        exact (List.mem_cons.mp after).resolve_left (by decide)

theorem parseUnsigned_colon (negative : Bool) {text : List Char} (colon : ':' ∈ text) :
    Decimal.parseUnsigned negative text = none := by
  unfold Decimal.parseUnsigned
  rw [← List.takeWhile_append_dropWhile (p := fun character => !(character == 'e' || character == 'E'))
    (l := text), List.mem_append] at colon
  rcases colon with inMantissa | inExponent
  · have digits := not_all_digits (mem_splitPoint inMantissa)
    dsimp only
    split
    · rfl
    · split
      · rfl
      · rw [dif_neg (by rw [digits]; decide)]
  · cases shape : text.dropWhile (fun character => !(character == 'e' || character == 'E')) with
    | nil => rw [shape] at inExponent; cases inExponent
    | cons letter rest =>
        have nonempty : text.dropWhile (fun character => !(character == 'e' || character == 'E')) ≠ [] := by
          rw [shape]; exact List.cons_ne_nil _ _
        have isLetter := List.head_dropWhile_not _ nonempty
        simp only [shape, List.head_cons] at isLetter
        rw [shape] at inExponent
        have later : ':' ∈ rest := by
          rcases List.mem_cons.mp inExponent with head | tail
          · rw [← head] at isLetter
            exact absurd isLetter (by decide)
          · exact tail
        simp only [shape, parseI64_colon later]

theorem parse_colon {text : String} (colon : ':' ∈ trim text.toList) : Decimal.parse text = none := by
  unfold Decimal.parse
  split
  · rfl
  · rename_i rest shape
    rw [shape] at colon
    exact parseUnsigned_colon true ((List.mem_cons.mp colon).resolve_left (by decide))
  · rename_i rest shape
    rw [shape] at colon
    exact parseUnsigned_colon false ((List.mem_cons.mp colon).resolve_left (by decide))
  · exact parseUnsigned_colon false colon

variable {Moment : Type} (chrono : Chrono Moment)

/-- A text that reads as an instant does not read as a decimal. -/
theorem decimal_none_of_instant {text : String} {instant : Instant Moment}
    (read : Instant.parse chrono text = some instant) : Decimal.parse text = none := by
  apply parse_colon
  apply mem_of_mem_blankToT 10
  unfold Instant.parse at read
  dsimp only at read
  split at read
  · cases read
  · split at read
    · rename_i moment zoned
      have colon := chrono.rfc3339_colon _ (by rw [zoned]; rfl)
      rwa [String.toList_ofList] at colon
    · cases naive : chrono.parseFromStr (String.ofList (blankToT 10 (trim text.toList))) with
      | none => rw [naive] at read; cases read
      | some moment =>
          have colon := chrono.str_colon _ (by rw [naive]; rfl)
          rwa [String.toList_ofList] at colon

/-! ## What a text holds -/

inductive TextKind where
  | decimal
  | zoned
  | naive
  | plain
  deriving DecidableEq

/-- What a text is read as. -/
def textKind (text : String) : TextKind :=
  match Decimal.parse text, Instant.parse chrono text with
  | some _, _ => .decimal
  | none, some (.zoned _) => .zoned
  | none, some (.naive _) => .naive
  | none, none => .plain

/-- The four ways a text can read. -/
theorem textKind_cases (text : String) :
    (exists value, Decimal.parse text = some value ∧ Instant.parse chrono text = none ∧
      textKind chrono text = .decimal) ∨
    (exists moment, Decimal.parse text = none ∧ Instant.parse chrono text = some (.zoned moment) ∧
      textKind chrono text = .zoned) ∨
    (exists moment, Decimal.parse text = none ∧ Instant.parse chrono text = some (.naive moment) ∧
      textKind chrono text = .naive) ∨
    (Decimal.parse text = none ∧ Instant.parse chrono text = none ∧ textKind chrono text = .plain) := by
  cases instant : Instant.parse chrono text with
  | none =>
      cases decimal : Decimal.parse text with
      | none => exact Or.inr (Or.inr (Or.inr ⟨rfl, rfl, by simp only [textKind, decimal, instant]⟩))
      | some value => exact Or.inl ⟨value, rfl, rfl, by simp only [textKind, decimal]⟩
  | some read =>
      have decimal := decimal_none_of_instant chrono instant
      cases read with
      | zoned moment =>
          exact Or.inr (Or.inl ⟨moment, decimal, rfl, by simp only [textKind, decimal, instant]⟩)
      | naive moment =>
          exact Or.inr (Or.inr (Or.inl ⟨moment, decimal, rfl, by simp only [textKind, decimal, instant]⟩))

theorem textKind_eq_decimal_iff (text : String) :
    textKind chrono text = .decimal <-> (Decimal.parse text).isSome = true := by
  rcases textKind_cases chrono text with ⟨_, read, _, kind⟩ | ⟨_, read, _, kind⟩ | ⟨_, read, _, kind⟩ |
      ⟨read, _, kind⟩ <;>
    rw [read, kind]
  · exact ⟨fun _ => rfl, fun _ => rfl⟩
  · exact iff_of_false nofun nofun
  · exact iff_of_false nofun nofun
  · exact iff_of_false nofun nofun

variable [LinearOrder Moment]

/-- Of two texts of one kind, the first holds the smaller number or the
earlier instant. -/
def HoldsLess (x y : String) : Prop :=
  match Decimal.parse x, Decimal.parse y with
  | some a, some b => a.value < b.value
  | _, _ =>
      match Instant.parse chrono x, Instant.parse chrono y with
      | some (.zoned a), some (.zoned b) => a < b
      | some (.naive a), some (.naive b) => a < b
      | _, _ => x < y

theorem compareStrings_of_kinds_ne {x y : String} (different : textKind chrono x ≠ textKind chrono y) :
    compareStrings chrono x y = compare x y := by
  rcases textKind_cases chrono x with ⟨_, xd, xi, xk⟩ | ⟨_, xd, xi, xk⟩ | ⟨_, xd, xi, xk⟩ | ⟨xd, xi, xk⟩ <;>
    rcases textKind_cases chrono y with ⟨_, yd, yi, yk⟩ | ⟨_, yd, yi, yk⟩ | ⟨_, yd, yi, yk⟩ | ⟨yd, yi, yk⟩ <;>
    first
      | exact absurd (xk.trans yk.symm) different
      | simp only [compareStrings, xd, xi, yd, yi]

theorem compareStrings_lt_iff (x y : String) : compareStrings chrono x y = .lt <-> HoldsLess chrono x y := by
  rcases textKind_cases chrono x with ⟨_, xd, xi, _⟩ | ⟨_, xd, xi, _⟩ | ⟨_, xd, xi, _⟩ | ⟨xd, xi, _⟩ <;>
    rcases textKind_cases chrono y with ⟨_, yd, yi, _⟩ | ⟨_, yd, yi, _⟩ | ⟨_, yd, yi, _⟩ | ⟨yd, yi, _⟩ <;>
    simp only [compareStrings, HoldsLess, xd, xi, yd, yi, Decimal.cmp_eq_compare_value, compare_lt_iff_lt]

theorem byKind_compareStrings :
    byKind (textKind chrono) (compareStrings chrono) = compareStrings chrono := by
  funext x y
  unfold byKind
  by_cases same : textKind chrono x = textKind chrono y
  · rw [if_pos same]
  · rw [if_neg same, compareStrings_of_kinds_ne chrono same]

theorem compareStrings_reversible : Reversible (compareStrings chrono) := by
  intro x y
  rcases textKind_cases chrono x with ⟨_, xd, xi, _⟩ | ⟨_, xd, xi, _⟩ | ⟨_, xd, xi, _⟩ | ⟨xd, xi, _⟩ <;>
    rcases textKind_cases chrono y with ⟨_, yd, yi, _⟩ | ⟨_, yd, yi, _⟩ | ⟨_, yd, yi, _⟩ | ⟨yd, yi, _⟩ <;>
    simp only [compareStrings, xd, xi, yd, yi, Decimal.cmp_eq_compare_value] <;>
    exact compare_reversible _ _

/-- Inside one kind the comparison is that of the values held. -/
theorem compareStrings_transOn_kind (kind : TextKind) :
    TransOn (compareStrings chrono) (Set.preimage (textKind chrono) {kind}) := by
  intro x xIn y yIn z zIn
  have xKind : textKind chrono x = kind := xIn
  have yKind : textKind chrono y = kind := yIn
  have zKind : textKind chrono z = kind := zIn
  rcases textKind_cases chrono x with ⟨_, xd, xi, xk⟩ | ⟨_, xd, xi, xk⟩ | ⟨_, xd, xi, xk⟩ | ⟨xd, xi, xk⟩ <;>
    rcases textKind_cases chrono y with ⟨_, yd, yi, yk⟩ | ⟨_, yd, yi, yk⟩ | ⟨_, yd, yi, yk⟩ | ⟨yd, yi, yk⟩ <;>
    rcases textKind_cases chrono z with ⟨_, zd, zi, zk⟩ | ⟨_, zd, zi, zk⟩ | ⟨_, zd, zi, zk⟩ | ⟨zd, zi, zk⟩ <;>
    first
      | exact absurd (xk.symm.trans (xKind.trans (yKind.symm.trans yk))) (by decide)
      | exact absurd (xk.symm.trans (xKind.trans (zKind.symm.trans zk))) (by decide)
      | simp only [compareStrings, xd, xi, yd, yi, zd, zi, Decimal.cmp_eq_compare_value]
        exact compare_transOn Set.univ _ trivial _ trivial _ trivial

/-! ## Numbers and decimal texts -/

theorem compareNumbers_eq (a b : Number) : compareNumbers a b = compare a.value b.value := by
  cases a with
  | float left => rfl
  | int left =>
      cases b with
      | float right => rfl
      | int right =>
          change compare left right = compare (left : ℚ) (right : ℚ)
          rcases lt_trichotomy left right with less | same | more
          · rw [compare_lt_iff_lt.mpr less, compare_lt_iff_lt.mpr (Int.cast_lt.mpr less)]
          · rw [same, compare_eq_iff_eq.mpr rfl, compare_eq_iff_eq.mpr rfl]
          · rw [compare_gt_iff_gt.mpr more, compare_gt_iff_gt.mpr (Int.cast_lt.mpr more)]

/-- Two values that write numbers compare as the numbers. -/
theorem jsonCompare_numeric {a b : Value} {x y : ℚ} (left : numericText a = some x)
    (right : numericText b = some y) : jsonCompare chrono a b = compare x y := by
  cases a with
  | number a =>
      cases b with
      | number b =>
          cases left
          cases right
          rw [jsonCompare]
          exact compareNumbers_eq a b
      | string b =>
          rw [jsonCompare, compareNumeric, left, right]
      | null | bool _ | array _ | object _ => cases right
  | string a =>
      cases b with
      | number b =>
          rw [jsonCompare, compareNumeric, left, right]
      | string b =>
          rcases Option.map_eq_some_iff.mp left with ⟨leftDecimal, leftRead, rfl⟩
          rcases Option.map_eq_some_iff.mp right with ⟨rightDecimal, rightRead, rfl⟩
          rw [jsonCompare, compareStrings, leftRead, rightRead]
          exact Decimal.cmp_eq_compare_value _ _
      | null | bool _ | array _ | object _ => cases right
  | null | bool _ | array _ | object _ => cases left

/-- A number is below every text that is no decimal. -/
theorem jsonCompare_number_text (amount : Number) {text : String} (plain : Decimal.parse text = none) :
    jsonCompare chrono (.number amount) (.string text) = .lt := by
  simp only [jsonCompare, compareNumeric, numericText, plain, Option.map_none]
  rfl

theorem jsonCompare_text_number (amount : Number) {text : String} (plain : Decimal.parse text = none) :
    jsonCompare chrono (.string text) (.number amount) = .gt := by
  simp only [jsonCompare, compareNumeric, numericText, plain, Option.map_none]
  rfl

theorem jsonCompareItems_eq (left right : List Value) :
    jsonCompareItems chrono left right = List.compareLex (jsonCompare chrono) left right := by
  induction left generalizing right with
  | nil =>
      cases right with
      | nil => rfl
      | cons item rest => rfl
  | cons item rest ih =>
      cases right with
      | nil => rfl
      | cons other others =>
          rw [jsonCompareItems, List.compareLex_cons_cons, ih]

theorem compareNumeric_swap (a b : Value) : compareNumeric b a = (compareNumeric a b).swap := by
  unfold compareNumeric byTypeRank
  cases numericText a with
  | none =>
      cases numericText b with
      | none => exact compare_reversible _ _
      | some y => exact compare_reversible _ _
  | some x =>
      cases numericText b with
      | none => exact compare_reversible _ _
      | some y => exact compare_reversible _ _

theorem sizeOf_entry_lt {item : Value} {items : List Value} (member : item ∈ items) :
    sizeOf item < sizeOf (Value.array items) := by
  have smaller := List.sizeOf_lt_of_mem member
  rw [Value.array.sizeOf_spec]
  omega

theorem jsonCompare_reversible : Reversible (jsonCompare chrono) := by
  intro a
  induction size : sizeOf a using Nat.strong_induction_on generalizing a with
  | _ size' ih =>
      intro b
      cases a with
      | array as =>
          cases b with
          | array bs =>
              rw [jsonCompare, jsonCompare, jsonCompareItems_eq, jsonCompareItems_eq]
              apply compareLex_reversible
              intro item member other
              exact ih (sizeOf item) (size ▸ sizeOf_entry_lt member) item rfl other
          | null | bool _ | number _ | string _ | object _ => rfl
      | number a =>
          cases b with
          | number b =>
              rw [jsonCompare, jsonCompare, compareNumbers_eq, compareNumbers_eq]
              exact compare_reversible _ _
          | string b =>
              rw [jsonCompare, jsonCompare]
              exact compareNumeric_swap _ _
          | null | bool _ | array _ | object _ => rfl
      | string a =>
          cases b with
          | number b =>
              rw [jsonCompare, jsonCompare]
              exact compareNumeric_swap _ _
          | string b =>
              rw [jsonCompare, jsonCompare]
              exact compareStrings_reversible chrono a b
          | null | bool _ | array _ | object _ => rfl
      | bool a =>
          cases b with
          | bool b =>
              rw [jsonCompare, jsonCompare]
              exact compare_reversible a b
          | null | number _ | string _ | array _ | object _ => rfl
      | object a =>
          cases b with
          | object b =>
              rw [jsonCompare, jsonCompare]
              exact compare_reversible _ _
          | null | bool _ | number _ | string _ | array _ => rfl
      | null =>
          cases b with
          | null | bool _ | number _ | string _ | array _ | object _ => rfl

/-! ## When the order is transitive -/

/-- Numbers and texts that no third text sets at odds.  A text of another
kind that lies between two texts of one kind must separate what these hold,
and a decimal text above some other text must exceed every number. -/
structure CoherentValues (values : Set Value) : Prop where
  texts : forall low middle high : String, Value.string low ∈ values -> Value.string middle ∈ values ->
    Value.string high ∈ values -> low < middle -> middle < high ->
    textKind chrono low = textKind chrono high -> textKind chrono middle ≠ textKind chrono low ->
    HoldsLess chrono low high
  numbers : forall (amount : Number) (text decimalText : String) (decimal : Decimal),
    Value.number amount ∈ values -> Value.string text ∈ values -> Value.string decimalText ∈ values ->
    Decimal.parse text = none -> Decimal.parse decimalText = some decimal -> text < decimalText ->
    amount.value < decimal.value

theorem compareStrings_transOn {values : Set Value} (coherent : CoherentValues chrono values) :
    TransOn (compareStrings chrono) (Set.preimage Value.string values) := by
  rw [← byKind_compareStrings, byKind_transOn_iff (compareStrings_reversible chrono)
    (compareStrings_transOn_kind chrono)]
  intro low lowIn middle middleIn high highIn lowMiddle middleHigh same different
  rw [compareStrings_lt_iff]
  exact coherent.texts low middle high lowIn middleIn highIn lowMiddle middleHigh same different

/-- A decimal text and another text compare by their characters. -/
theorem compareStrings_decimal_other {text decimalText : String} {decimal : Decimal}
    (plain : Decimal.parse text = none) (read : Decimal.parse decimalText = some decimal) :
    compareStrings chrono text decimalText = compare text decimalText ∧
      compareStrings chrono decimalText text = compare decimalText text := by
  have different : textKind chrono text ≠ textKind chrono decimalText := by
    rw [(textKind_eq_decimal_iff chrono decimalText).mpr (by rw [read]; rfl), Ne,
      textKind_eq_decimal_iff, plain]
    exact nofun
  exact ⟨compareStrings_of_kinds_ne chrono different, compareStrings_of_kinds_ne chrono (Ne.symm different)⟩

/-- The ranks at which values of different JSON types meet: numbers and texts
share one. -/
def scalarRank : Value -> Nat
  | .string _ => 2
  | other => typeRank other

theorem jsonCompare_of_rank_lt (a b : Value) (below : scalarRank a < scalarRank b) :
    jsonCompare chrono a b = .lt := by
  cases a <;> cases b <;> first | rfl | exact absurd below (by simp only [scalarRank, typeRank]; decide)

/-- Among numbers and texts, with the number in each of the three places. -/
theorem numbersAndTexts_transOn {values : Set Value} (coherent : CoherentValues chrono values) :
    TransOn (jsonCompare chrono) {value | value ∈ values ∧ scalarRank value = 2} := by
  have strings := compareStrings_transOn chrono coherent
  have isScalar : forall {value : Value}, scalarRank value = 2 ->
      (exists amount, value = .number amount) ∨ (exists text, value = .string text) := by
    intro value rank
    cases value with
    | number amount => exact Or.inl ⟨amount, rfl⟩
    | string text => exact Or.inr ⟨text, rfl⟩
    | null | bool _ | array _ | object _ => cases rank
  rintro first ⟨firstIn, firstRank⟩ second ⟨secondIn, secondRank⟩ third ⟨thirdIn, thirdRank⟩ left right
  -- Three values that write numbers compare as the numbers.
  have numeric : forall x y z, numericText first = some x -> numericText second = some y ->
      numericText third = some z -> jsonCompare chrono first third ≠ .gt := by
    intro x y z firstNumber secondNumber thirdNumber
    rw [jsonCompare_numeric chrono firstNumber secondNumber] at left
    rw [jsonCompare_numeric chrono secondNumber thirdNumber] at right
    rw [jsonCompare_numeric chrono firstNumber thirdNumber]
    exact compare_transOn Set.univ _ trivial _ trivial _ trivial left right
  have ofText : forall {text : String} {decimal : Decimal}, Decimal.parse text = some decimal ->
      numericText (.string text) = some decimal.value := by
    intro text decimal read
    rw [numericText, read, Option.map_some]
  rcases isScalar firstRank with ⟨a, rfl⟩ | ⟨a, rfl⟩ <;>
    rcases isScalar secondRank with ⟨b, rfl⟩ | ⟨b, rfl⟩ <;>
    rcases isScalar thirdRank with ⟨c, rfl⟩ | ⟨c, rfl⟩
  case inl.inl.inl => exact numeric _ _ _ rfl rfl rfl
  case inl.inl.inr =>
      cases read : Decimal.parse c with
      | none => rw [jsonCompare_number_text chrono a read]; decide
      | some decimal => exact numeric _ _ _ rfl rfl (ofText read)
  case inl.inr.inl =>
      cases read : Decimal.parse b with
      | none => exact absurd (jsonCompare_text_number chrono c read) right
      | some decimal => exact numeric _ _ _ rfl (ofText read) rfl
  case inr.inl.inl =>
      cases read : Decimal.parse a with
      | none => exact absurd (jsonCompare_text_number chrono b read) left
      | some decimal => exact numeric _ _ _ (ofText read) rfl rfl
  case inl.inr.inr =>
      cases thirdRead : Decimal.parse c with
      | none => rw [jsonCompare_number_text chrono a thirdRead]; decide
      | some decimal =>
          cases secondRead : Decimal.parse b with
          | some other => exact numeric _ _ _ rfl (ofText secondRead) (ofText thirdRead)
          | none =>
              rw [jsonCompare, (compareStrings_decimal_other chrono secondRead thirdRead).1, Ne,
                compare_gt_iff_gt, not_lt] at right
              have strict : b < c := lt_of_le_of_ne right (fun equal => by
                rw [equal, thirdRead] at secondRead
                cases secondRead)
              have below := coherent.numbers a b c decimal firstIn secondIn thirdIn secondRead thirdRead strict
              rw [jsonCompare_numeric chrono (rfl : numericText (.number a) = _) (ofText thirdRead),
                compare_lt_iff_lt.mpr below]
              decide
  case inr.inl.inr =>
      cases firstRead : Decimal.parse a with
      | none => exact absurd (jsonCompare_text_number chrono b firstRead) left
      | some decimal =>
          cases thirdRead : Decimal.parse c with
          | some other => exact numeric _ _ _ (ofText firstRead) rfl (ofText thirdRead)
          | none =>
              rw [jsonCompare_numeric chrono (ofText firstRead) (rfl : numericText (.number b) = _), Ne,
                compare_gt_iff_gt] at left
              rw [jsonCompare, (compareStrings_decimal_other chrono thirdRead firstRead).2, Ne,
                compare_gt_iff_gt]
              intro above
              exact left (coherent.numbers b c a decimal secondIn thirdIn firstIn thirdRead firstRead above)
  case inr.inr.inl =>
      cases secondRead : Decimal.parse b with
      | none => exact absurd (jsonCompare_text_number chrono c secondRead) right
      | some decimal =>
          cases firstRead : Decimal.parse a with
          | some other => exact numeric _ _ _ (ofText firstRead) (ofText secondRead) rfl
          | none =>
              rw [jsonCompare, (compareStrings_decimal_other chrono firstRead secondRead).1, Ne,
                compare_gt_iff_gt, not_lt] at left
              have strict : a < b := lt_of_le_of_ne left (fun equal => by
                rw [equal, secondRead] at firstRead
                cases firstRead)
              have below := coherent.numbers c a b decimal thirdIn firstIn secondIn firstRead secondRead strict
              rw [jsonCompare_numeric chrono (ofText secondRead) (rfl : numericText (.number c) = _),
                compare_gt_iff_gt.mpr below] at right
              exact absurd rfl right
  case inr.inr.inr =>
      rw [jsonCompare] at left right ⊢
      exact strings a firstIn b secondIn c thirdIn left right

/-! ## Where arrays are compared -/

/-- Keys that are compared by the given entries: the keys themselves, or
entries of nested arrays at one place of which all earlier entries tie. -/
inductive ComparedBy {Index : Type} : (Index -> Value) -> (Index -> Value) -> Prop
  | whole (keys : Index -> Value) : ComparedBy keys keys
  | first {heads entries : Index -> Value} (rests : Index -> List Value) (inside : ComparedBy heads entries) :
      ComparedBy (fun key => .array (heads key :: rests key)) entries
  | later {heads entries : Index -> Value} {rests : Index -> List Value} (tied : Tied (jsonCompare chrono) heads)
      (after : ComparedBy (fun key => .array (rests key)) entries) :
      ComparedBy (fun key => .array (heads key :: rests key)) entries

/-- Wherever keys are compared by two texts of one kind and a text of another
kind that lies between them, or by a number, a text that is no decimal and a
decimal text above it, the first of the two outer ones holds less, or they
hold the same and a later entry puts its key first. -/
structure Coherent (values : Set Value) : Prop where
  texts : forall {Index : Type} {keys entries : Index -> Value}, (forall key, keys key ∈ values) ->
    ComparedBy chrono keys entries -> forall (first second third : Index) (low middle high : String),
    entries first = .string low -> entries second = .string middle -> entries third = .string high ->
    low < middle -> middle < high -> textKind chrono low = textKind chrono high ->
    textKind chrono middle ≠ textKind chrono low ->
    HoldsLess chrono low high ∨
      ¬ HoldsLess chrono high low ∧ jsonCompare chrono (keys first) (keys third) = .lt
  numbers : forall {Index : Type} {keys entries : Index -> Value}, (forall key, keys key ∈ values) ->
    ComparedBy chrono keys entries -> forall (first second third : Index) (amount : Number)
    (text decimalText : String) (decimal : Decimal),
    entries first = .number amount -> entries second = .string text -> entries third = .string decimalText ->
    Decimal.parse text = none -> Decimal.parse decimalText = some decimal -> text < decimalText ->
    amount.value < decimal.value ∨
      amount.value = decimal.value ∧ jsonCompare chrono (keys first) (keys third) = .lt

theorem jsonCompare_cons (head other : Value) (rest others : List Value) :
    jsonCompare chrono (.array (head :: rest)) (.array (other :: others)) =
      (jsonCompare chrono head other).then (jsonCompare chrono (.array rest) (.array others)) := by
  rw [jsonCompare, jsonCompare, jsonCompareItems]

/-- Entries that differ decide between their keys. -/
theorem ComparedBy.decides {Index : Type} {keys entries : Index -> Value} (compared : ComparedBy chrono keys entries)
    {one two : Index} (less : jsonCompare chrono (entries one) (entries two) = .lt) :
    jsonCompare chrono (keys one) (keys two) = .lt := by
  induction compared with
  | whole keys => exact less
  | first rests inside ih =>
      rw [jsonCompare_cons, ih less]
      rfl
  | later tied after ih =>
      rw [jsonCompare_cons, tied one two]
      exact ih less

theorem scalarRank_le {a b : Value} (below : jsonCompare chrono a b ≠ .gt) : scalarRank a ≤ scalarRank b := by
  by_contra above
  exact below ((jsonCompare_reversible chrono).gt_of_lt (jsonCompare_of_rank_lt chrono _ _ (Nat.lt_of_not_le above)))

/-- A circle of keys that compare as the items of an ordered type do. -/
theorem tied_of_compare {Held : Type} [LinearOrder Held] {keys : Fin 3 -> Value}
    (circle : InCircle (jsonCompare chrono) keys) (items : Fin 3 -> Held)
    (compares : forall one two, jsonCompare chrono (keys one) (keys two) = compare (items one) (items two)) :
    Tied (jsonCompare chrono) keys := by
  have up : forall place, items place ≤ items (place + 1) := by
    intro place
    have below := circle place
    rw [compares, Ne, compare_gt_iff_gt, not_lt] at below
    exact below
  intro one two
  rw [compares, eq_around up one two, compare_eq_iff_eq]

theorem sizeOf_pos (key : Value) : 0 < sizeOf key := by cases key <;> simp

theorem exists_array {key : Value} (rank : scalarRank key = 4) : exists items, key = .array items := by
  cases key with
  | array items => exact ⟨items, rfl⟩
  | null | bool _ | number _ | string _ | object _ => cases rank

/-- In a circle of arrays one is empty only when all are. -/
theorem tied_of_empty {lists : Fin 3 -> List Value}
    (circle : InCircle (jsonCompare chrono) (fun key => .array (lists key))) {place : Fin 3}
    (empty : lists place = []) : Tied (jsonCompare chrono) (fun key => .array (lists key)) := by
  have up : forall key, (!(lists key).isEmpty) ≤ !(lists (key + 1)).isEmpty := by
    intro key
    have below := circle key
    cases after : lists (key + 1) with
    | cons item rest => exact Bool.le_true _
    | nil =>
        cases here : lists key with
        | nil => exact le_refl _
        | cons item rest =>
            simp only [here, after] at below
            exact absurd rfl below
  have all : forall key, lists key = [] := by
    intro key
    have same := eq_around up key place
    rwa [empty, List.isEmpty_nil, Bool.not_true, Bool.not_eq_false', List.isEmpty_iff] at same
  intro one two
  simp only [all]
  rfl

/-- A circle of keys that do not tie comes from a circle of numbers and texts
that do not tie.  The induction is on the size of a key, since an array is
compared by its entries. -/
theorem exists_scalar_circle (size : Nat) : forall keys : Fin 3 -> Value, sizeOf (keys 0) ≤ size ->
    InCircle (jsonCompare chrono) keys -> ¬ Tied (jsonCompare chrono) keys ->
    exists entries, ComparedBy chrono keys entries ∧ (forall place, scalarRank (entries place) = 2) ∧
      InCircle (jsonCompare chrono) entries ∧ ¬ Tied (jsonCompare chrono) entries := by
  induction size with
  | zero =>
      intro keys small
      exact absurd (sizeOf_pos (keys 0)) (Nat.not_lt.mpr small)
  | succ size ih =>
      intro keys small circle apart
      have ranks := fun key => eq_around (fun place => scalarRank_le chrono (circle place)) key 0
      cases held : keys 0 with
      | number _ | string _ =>
          rw [held] at ranks
          exact ⟨keys, .whole keys, ranks, circle, apart⟩
      | null =>
          have all : forall key, keys key = .null := by
            intro key
            have rank := ranks key
            rw [held] at rank
            cases shape : keys key <;> rw [shape] at rank <;> first | rfl | cases rank
          refine absurd (tied_of_compare chrono circle (fun _ => ()) (fun one two => ?_)) apart
          rw [all, all]
          rfl
      | bool _ =>
          have all : forall key, exists value, keys key = .bool value := by
            intro key
            have rank := ranks key
            rw [held] at rank
            cases shape : keys key <;> rw [shape] at rank <;> first | exact ⟨_, rfl⟩ | cases rank
          choose values isBool using all
          refine absurd (tied_of_compare chrono circle values (fun one two => ?_)) apart
          rw [isBool, isBool, jsonCompare]
      | object _ =>
          have all : forall key, exists entries, keys key = .object entries := by
            intro key
            have rank := ranks key
            rw [held] at rank
            cases shape : keys key <;> rw [shape] at rank <;> first | exact ⟨_, rfl⟩ | cases rank
          choose values isObject using all
          refine absurd (tied_of_compare chrono circle (fun key => (keys key).text) (fun one two => ?_)) apart
          rw [isObject, isObject, jsonCompare]
      | array _ =>
          choose lists isArray using (fun key => exists_array ((ranks key).trans (congrArg scalarRank held)))
          rw [funext isArray] at circle apart small ⊢
          have shapes : forall key, exists head rest, lists key = head :: rest := by
            intro key
            cases shape : lists key with
            | nil => exact absurd (tied_of_empty chrono circle shape) apart
            | cons head rest => exact ⟨head, rest, rfl⟩
          choose heads rests isCons using shapes
          simp only [isCons] at circle apart small ⊢
          unfold InCircle at circle
          unfold Tied at apart
          simp only [jsonCompare_cons] at circle apart
          rw [Value.array.sizeOf_spec, List.cons.sizeOf_spec] at small
          by_cases tied : Tied (jsonCompare chrono) heads
          · have later := ih (fun key => .array (rests key))
              (by rw [Value.array.sizeOf_spec]; have positive := sizeOf_pos (heads 0); omega)
              (fun place => by have here := circle place; rwa [tied] at here)
              (fun all => apart (fun one two => by rw [tied, all]; rfl))
            rcases later with ⟨entries, compared, rest⟩
            exact ⟨entries, .later tied compared, rest⟩
          · have inside := ih heads (by omega)
              (fun place above => circle place (by rw [above]; rfl)) tied
            rcases inside with ⟨entries, compared, rest⟩
            exact ⟨entries, .first rests compared, rest⟩

/-! ## When the order is transitive -/

/-- Numbers and texts that compare in a circle do so because some third text
sets two of them at odds. -/
theorem jsonCompare_transOn {values : Set Value} (coherent : Coherent chrono values) :
    TransOn (jsonCompare chrono) values := by
  have reversible := jsonCompare_reversible chrono
  apply transOn_of_circles reversible
  intro keys keysIn circle
  by_contra apart
  rcases exists_scalar_circle chrono (sizeOf (keys 0)) keys le_rfl circle apart with
    ⟨entries, compared, scalar, around, entriesApart⟩
  -- A chain of entries is a chain of keys, but keys in a circle are no chain.
  have broken : forall {low middle high : Fin 3}, jsonCompare chrono (entries low) (entries middle) = .lt ->
      jsonCompare chrono (entries middle) (entries high) = .lt ->
      jsonCompare chrono (keys low) (keys high) = .lt -> False :=
    fun lowMiddle middleHigh lowHigh =>
      circle.no_chain reversible (compared.decides chrono lowMiddle) (compared.decides chrono middleHigh) lowHigh
  have settled : CoherentValues chrono (Set.range entries) := by
    constructor
    · rintro low middle high ⟨first, isLow⟩ ⟨second, isMiddle⟩ ⟨third, isHigh⟩ lowMiddle middleHigh same different
      rcases coherent.texts keysIn compared first second third low middle high isLow isMiddle isHigh lowMiddle
        middleHigh same different with less | ⟨_, before⟩
      · exact less
      · have left : jsonCompare chrono (entries first) (entries second) = .lt := by
          rw [isLow, isMiddle, jsonCompare, compareStrings_of_kinds_ne chrono (Ne.symm different)]
          exact compare_lt_iff_lt.mpr lowMiddle
        have right : jsonCompare chrono (entries second) (entries third) = .lt := by
          rw [isMiddle, isHigh, jsonCompare, compareStrings_of_kinds_ne chrono (same ▸ different)]
          exact compare_lt_iff_lt.mpr middleHigh
        exact (broken left right before).elim
    · rintro amount text decimalText decimal ⟨first, isAmount⟩ ⟨second, isText⟩ ⟨third, isDecimal⟩ plain read below
      rcases coherent.numbers keysIn compared first second third amount text decimalText decimal isAmount isText
        isDecimal plain read below with less | ⟨_, before⟩
      · exact less
      · have left : jsonCompare chrono (entries first) (entries second) = .lt := by
          rw [isAmount, isText, jsonCompare_number_text chrono amount plain]
        have right : jsonCompare chrono (entries second) (entries third) = .lt := by
          rw [isText, isDecimal, jsonCompare, (compareStrings_decimal_other chrono plain read).1]
          exact compare_lt_iff_lt.mpr below
        exact (broken left right before).elim
  have numbersAndTexts := numbersAndTexts_transOn chrono settled
  have ranked : {value | value ∈ Set.range entries ∧ scalarRank value = 2} = Set.range entries := by
    ext value
    constructor
    · exact fun held => held.1
    · rintro ⟨place, rfl⟩
      exact ⟨⟨place, rfl⟩, scalar place⟩
  rw [ranked] at numbersAndTexts
  exact entriesApart (around.tied reversible numbersAndTexts)

/-- Transitivity needs coherence. -/
theorem coherent_of_transOn {values : Set Value} (transitive : TransOn (jsonCompare chrono) values) :
    Coherent chrono values := by
  have reversible := jsonCompare_reversible chrono
  constructor
  · intro Index keys entries keysIn compared first second third low middle high isLow isMiddle isHigh lowMiddle
      middleHigh same different
    have before : jsonCompare chrono (keys first) (keys second) = .lt := by
      apply compared.decides
      rw [isLow, isMiddle, jsonCompare, compareStrings_of_kinds_ne chrono (Ne.symm different)]
      exact compare_lt_iff_lt.mpr lowMiddle
    have after : jsonCompare chrono (keys second) (keys third) = .lt := by
      apply compared.decides
      rw [isMiddle, isHigh, jsonCompare, compareStrings_of_kinds_ne chrono (same ▸ different)]
      exact compare_lt_iff_lt.mpr middleHigh
    have whole := transitive.lt_of_lt_of_le reversible (keysIn first) (keysIn second) (keysIn third) before
      (by rw [after]; decide)
    refine Or.inr ⟨fun more => ?_, whole⟩
    have back : jsonCompare chrono (keys third) (keys first) = .lt := by
      apply compared.decides
      rw [isLow, isHigh, jsonCompare, compareStrings_lt_iff]
      exact more
    rw [reversible.gt_of_lt back] at whole
    cases whole
  · intro Index keys entries keysIn compared first second third amount text decimalText decimal isAmount isText
      isDecimal plain read below
    have before : jsonCompare chrono (keys first) (keys second) = .lt := by
      apply compared.decides
      rw [isAmount, isText, jsonCompare_number_text chrono amount plain]
    have after : jsonCompare chrono (keys second) (keys third) = .lt := by
      apply compared.decides
      rw [isText, isDecimal, jsonCompare, (compareStrings_decimal_other chrono plain read).1]
      exact compare_lt_iff_lt.mpr below
    have whole := transitive.lt_of_lt_of_le reversible (keysIn first) (keysIn second) (keysIn third) before
      (by rw [after]; decide)
    have numeric : numericText (.string decimalText) = some decimal.value := by
      rw [numericText, read, Option.map_some]
    rcases lt_trichotomy amount.value decimal.value with less | equal | more
    · exact Or.inl less
    · exact Or.inr ⟨equal, whole⟩
    · have back : jsonCompare chrono (keys third) (keys first) = .lt := by
        apply compared.decides
        rw [isAmount, isDecimal, jsonCompare_numeric chrono numeric rfl, compare_lt_iff_lt]
        exact more
      rw [reversible.gt_of_lt back] at whole
      cases whole

/-! ## What the bookmark of a page rests on -/

/-- The comparison is a total preorder of the given values, and every page
whose keys are among them has a maximum that no key exceeds and that does
not depend on the order of its records. -/
structure OrdersValues (values : Set Value) : Prop where
  reversed : forall a, a ∈ values -> forall b, b ∈ values ->
    jsonCompare chrono a b = (jsonCompare chrono b a).swap
  transitive : forall a, a ∈ values -> forall b, b ∈ values -> forall c, c ∈ values ->
    jsonCompare chrono a b ≠ .gt -> jsonCompare chrono b c ≠ .gt -> jsonCompare chrono a c ≠ .gt
  undominated : forall (key : ReplicationKey) (records : List Value),
    (forall value, value ∈ records.filterMap key.resolvePresent -> value ∈ values) ->
    forall best, maxReplicationValuePath chrono records key = some best ->
    forall value, value ∈ records.filterMap key.resolvePresent -> jsonGt chrono value best = false
  orderFree : forall (key : ReplicationKey) (records reordered : List Value),
    (forall value, value ∈ records.filterMap key.resolvePresent -> value ∈ values) ->
    reordered.Perm records ->
    Option.Rel (fun other best => jsonCompare chrono other best = .eq)
      (maxReplicationValuePath chrono reordered key) (maxReplicationValuePath chrono records key)

theorem ordersValues_of_transOn {values : Set Value} (transitive : TransOn (jsonCompare chrono) values) :
    OrdersValues chrono values := by
  have reversible := jsonCompare_reversible chrono
  refine ⟨fun a _ b _ => reversible b a, transitive, ?_, ?_⟩
  · intro key records among best chosen value member
    have below := (maxBy_spec reversible _ (transitive.mono among) chosen).2 value member
    exact beq_eq_false_iff_ne.mpr below
  · intro key records reordered among perm
    have keys := perm.filterMap key.resolvePresent
    unfold maxReplicationValuePath
    cases chosen : maxBy (jsonCompare chrono) (records.filterMap key.resolvePresent) with
    | none =>
        have empty : records.filterMap key.resolvePresent = [] := by
          cases shape : records.filterMap key.resolvePresent with
          | nil => rfl
          | cons item rest => rw [shape] at chosen; cases chosen
        rw [empty] at keys
        rw [keys.eq_nil]
        exact Option.Rel.none
    | some best =>
        cases rechosen : maxBy (jsonCompare chrono) (reordered.filterMap key.resolvePresent) with
        | none =>
            have empty : reordered.filterMap key.resolvePresent = [] := by
              cases shape : reordered.filterMap key.resolvePresent with
              | nil => rfl
              | cons item rest => rw [shape] at rechosen; cases rechosen
            rw [empty] at keys
            rw [keys.symm.eq_nil] at chosen
            cases chosen
        | some other =>
            exact Option.Rel.some (maxBy_perm reversible (transitive.mono among) keys chosen rechosen)

/-- A calendar that reads no timestamp, as for the short texts below. -/
def noTimestamps : Chrono Int where
  parseFromRfc3339 := fun _ => none
  parseFromStr := fun _ => none
  rfc3339_colon := nofun
  str_colon := nofun

/-- Records with two decimal keys and one that only looks like a number. -/
def mixedPage : List Value :=
  [.object [("id", .string "9")], .object [("id", .string "10")], .object [("id", .string "1a")]]

end Replication
end FaucetStream
