import FaucetStream.Json.Value
import FaucetStream.Library.Fields

namespace FaucetStream
namespace Verify

open Json
open Library

/-!
# Rows as the verifier compares them

Two backends spell one value differently, so the verifier compares canonical
texts.  A row is fed to its fingerprint as the canonical texts of its compared
columns, each behind the name of the column; rows of the two sides are matched
by the canonical texts of their key columns; and a matched pair is compared
column by column.

A float is the decimal it prints as.  What the calendar library and the
arithmetic of floats answer is a parameter.
-/

/-- The readers and roundings the code takes from elsewhere. -/
structure Readers where
  /-- `DateTime::parse_from_rfc3339`, in microseconds. -/
  rfc3339 : List Char -> Option Int
  /-- `NaiveDateTime::parse_from_str` with `%Y-%m-%dT%H:%M:%S%.f`, as UTC. -/
  naiveDateTime : List Char -> Option Int
  /-- `NaiveDate::parse_from_str` with `%Y-%m-%d`, as midnight UTC. -/
  naiveDate : List Char -> Option Int
  /-- The float nearest to the number a text writes, if it is finite. -/
  nearest : List Char -> Option Decimal
  /-- The float nearest to an integer. -/
  ofInt : Int -> Decimal
  /-- `(f / tolerance).round() * tolerance`. -/
  rounded : Decimal -> Decimal -> Decimal
  /-- `(x - y).abs() <= tolerance`. -/
  closer : Decimal -> Decimal -> Decimal -> Bool

structure Normalizer where
  floatTolerance : Decimal
  timestamps : Bool
  numericStrings : Bool

/-! ## Canonical texts -/

/-- `str::len`, in bytes. -/
def byteLength (text : List Char) : Nat := (text.map Char.utf8Size).sum

def lengthPrefixed (text : List Char) : List Char := (toString (byteLength text)).toList ++ ':' :: text

/-- `replacen(' ', "T", 1)`. -/
def firstBlankToT : List Char -> List Char
  | [] => []
  | ' ' :: rest => 'T' :: rest
  | character :: rest => character :: firstBlankToT rest

/-- A year of four digits and a dash, the start of every timestamp. -/
def startsLikeDate (text : List Char) : Bool :=
  decide (10 ≤ byteLength text) && (text.take 4).all Char.isDigit && text[4]? == some '-'

def parseTimestampMicros (readers : Readers) (text : List Char) : Option Int :=
  let s := trim text
  if startsLikeDate s then
    let withSpace := firstBlankToT s
    (((readers.rfc3339 s).or (readers.rfc3339 withSpace)).or (readers.naiveDateTime withSpace)).or
      (readers.naiveDate s)
  else none

/-- A text without its sign. -/
def unsigned : List Char -> List Char
  | '-' :: rest => rest
  | '+' :: rest => rest
  | text => text

def isExponent (character : Char) : Bool := character == 'e' || character == 'E'

/-- Digits around an optional point. -/
def isMantissa (text : List Char) : Bool :=
  let (int, frac) := Decimal.splitPoint text
  !(int ++ frac).isEmpty && (int ++ frac).all Char.isDigit

/-- The texts `str::parse::<f64>` reads as a number: a sign, a mantissa and an
optional exponent. -/
def isFloatText (text : List Char) : Bool :=
  isMantissa ((unsigned text).takeWhile (fun character => !isExponent character)) &&
    match (unsigned text).dropWhile (fun character => !isExponent character) with
    | [] => true
    | _ :: exponent => !(unsigned exponent).isEmpty && (unsigned exponent).all Char.isDigit

/-- `str::parse::<f64>`, if the float is finite. -/
def parseF64 (readers : Readers) (text : List Char) : Option Decimal :=
  if isFloatText text then readers.nearest text else none

/-- The float nearest to a whole number below `2 ^ 64`: 53 bits are kept, half
way to even. -/
def nearestWhole (magnitude : Nat) : Nat :=
  let unit := 2 ^ (Nat.log2 magnitude - 52)
  let below := magnitude / unit
  let rest := magnitude % unit
  if 2 * rest < unit ∨ (2 * rest = unit ∧ below % 2 = 0) then below * unit else (below + 1) * unit

/-- The integer a float without a fraction is. -/
def wholeOf (float : Decimal) : Option Int :=
  if (float.digits.length : Int) ≤ float.exp ∨ float.digits = [] then
    let magnitude := nearestWhole (float.digits.foldl (fun total digit => total * 10 + digit) 0 *
      10 ^ (float.exp - float.digits.length).toNat)
    some (if float.negative then -(magnitude : Int) else magnitude)
  else none

/-- The text of a float in scientific form. -/
def exponentText (float : Decimal) : List Char :=
  let digits := float.digits.map Nat.digitChar
  let lead := if digits.length ≤ 1 then digits else digits.take 1 ++ ['.'] ++ digits.drop 1
  let body := if digits.isEmpty then ['0', 'e', '0'] else lead ++ ['e'] ++ (toString (float.exp - 1)).toList
  if float.negative then '-' :: body else body

namespace Normalizer

def forKey (norm : Normalizer) : Normalizer := { norm with numericStrings := true }

/-- A whole float is the integer it equals. -/
def canonicalFloat (readers : Readers) (norm : Normalizer) (float : Decimal) : List Char :=
  match (wholeOf float).filter (fun whole => decide (-2 ^ 63 ≤ whole ∧ whole < 2 ^ 64)) with
  | some whole => 'n' :: (toString whole).toList
  | none =>
      if 0 < norm.floatTolerance.signum then 'f' :: exponentText (readers.rounded float norm.floatTolerance)
      else 'f' :: exponentText float

def canonicalNumber (readers : Readers) (norm : Normalizer) : Number -> List Char
  | .int value => 'n' :: (toString value).toList
  | .float float => norm.canonicalFloat readers float

def canonicalString (readers : Readers) (norm : Normalizer) (text : List Char) : List Char :=
  match if norm.timestamps then parseTimestampMicros readers text else none with
  | some micros => 't' :: 's' :: (toString micros).toList
  | none =>
      if norm.numericStrings then
        match Decimal.parseI64 (trim text) with
        | some value => 'n' :: (toString value).toList
        | none =>
            match parseF64 readers (trim text) with
            | some float => norm.canonicalFloat readers float
            | none => 's' :: text
      else 's' :: text

def NULL_TEXT : List Char := [Char.ofNat 0, 'n', 'u', 'l', 'l']

mutual

def canonicalValue (readers : Readers) (norm : Normalizer) : Value -> List Char
  | .null => NULL_TEXT
  | .bool value => if value then ['t'] else ['f']
  | .number value => norm.canonicalNumber readers value
  | .string text => norm.canonicalString readers text.toList
  | .array items => '[' :: ((canonicalItems readers norm items).flatMap lengthPrefixed ++ [']'])
  | .object entries =>
      Char.ofNat 0x7b :: (((canonicalEntries readers norm entries).insertionSort
        (fun left right => left.1 ≤ right.1)).flatMap (fun entry =>
          lengthPrefixed entry.1.toList ++ lengthPrefixed entry.2) ++ [Char.ofNat 0x7d])

def canonicalItems (readers : Readers) (norm : Normalizer) : List Value -> List (List Char)
  | [] => []
  | item :: rest => canonicalValue readers norm item :: canonicalItems readers norm rest

def canonicalEntries (readers : Readers) (norm : Normalizer) : List (String × Value) -> List (String × List Char)
  | [] => []
  | (name, value) :: rest => (name, canonicalValue readers norm value) :: canonicalEntries readers norm rest

end

/-- The canonical text of a field.  A missing one is null. -/
def canonical (readers : Readers) (norm : Normalizer) : Option Value -> List Char
  | none => NULL_TEXT
  | some value => norm.canonicalValue readers value

/-- A key column compares under the key normalizer. -/
def canonicalColumn (readers : Readers) (norm : Normalizer) (name : String) (key : List String)
    (value : Option Value) : List Char :=
  if key.contains name then norm.forKey.canonical readers value else norm.canonical readers value

def numberOf (readers : Readers) (norm : Normalizer) : Option Value -> Option Decimal
  | some (.number (.int value)) => some (readers.ofInt value)
  | some (.number (.float float)) => some float
  | some (.string text) => if norm.numericStrings then parseF64 readers (trim text.toList) else none
  | _ => none

def withinTolerance (readers : Readers) (norm : Normalizer) (left right : Option Value) : Bool :=
  if norm.floatTolerance.signum ≤ 0 then false
  else
    match norm.numberOf readers left, norm.numberOf readers right with
    | some x, some y => readers.closer x y norm.floatTolerance
    | _, _ => false

end Normalizer

/-! ## Columns and texts of a row -/

/-- An exact name, or a prefix in front of a star. -/
def isExcluded (name : String) (exclude : List String) : Bool :=
  exclude.any (fun entry =>
    if entry.toList.getLast? = some '*' then entry.toList.dropLast.isPrefixOf name.toList else entry == name)

/-- What a comparison of rows is about. -/
structure RowSpec where
  key : List String
  columns : Option (List String)
  exclude : List String
  norm : Normalizer

def entriesOf : Value -> List (String × Value)
  | .object entries => entries
  | _ => []

/-- `Vec::dedup`: repeats next to each other. -/
def dedup : List String -> List String
  | [] => []
  | [name] => [name]
  | name :: next :: rest => if name = next then dedup (next :: rest) else name :: dedup (next :: rest)

namespace RowSpec

/-- The columns a fingerprint covers, in order of their names. -/
def names (spec : RowSpec) (record : Value) : List String :=
  let named := match spec.columns with
    | some columns => columns
    | none => ((entriesOf record).filter (fun entry => !entry.2.isNull)).map Prod.fst
  let keyed := spec.key.foldl (fun names column =>
    if names.contains column then names else names ++ [column]) named
  dedup ((keyed.filter (fun name => !isExcluded name spec.exclude)).insertionSort (· ≤ ·))

def column (readers : Readers) (spec : RowSpec) (record : Value) (name : String) : List Char :=
  spec.norm.canonicalColumn readers name spec.key (record.get name)

/-- The separator of fields, U+001F. -/
def UNIT_SEPARATOR : Char := Char.ofNat 0x1f

/-- The text `row_hash` feeds to its hashes. -/
def rowText (readers : Readers) (spec : RowSpec) (record : Value) : List Char :=
  fieldsText '=' UNIT_SEPARATOR
    ((spec.names record).map (fun name => (name.toList, spec.column readers record name)))

/-- The text rows are matched by. -/
def keyText (readers : Readers) (spec : RowSpec) (record : Value) : List Char :=
  fieldsText '=' ';'
    (spec.key.map (fun name => (name.toList, spec.norm.forKey.canonical readers (record.get name))))

/-- The columns a pair is compared by. -/
def pairNames (spec : RowSpec) (left right : Value) : List String :=
  match spec.columns with
  | some columns => columns
  | none => [left, right].foldl (fun names side =>
      ((entriesOf side).map Prod.fst).foldl (fun names column =>
        if names.contains column then names else names ++ [column]) names) []

def changedColumns (readers : Readers) (spec : RowSpec) (left right : Value) : List String :=
  (((spec.pairNames left right).filter (fun name => !isExcluded name spec.exclude)).filter (fun name =>
    spec.column readers left name != spec.column readers right name &&
      !spec.norm.withinTolerance readers (left.get name) (right.get name))).insertionSort (· ≤ ·)

end RowSpec

end Verify
end FaucetStream
