import FaucetStream.Json.Decimal
import Mathlib.Data.List.Sort
import Mathlib.Data.String.Basic

namespace FaucetStream
namespace Json

/-!
# JSON values

The source passes records, bookmarks and shard descriptors around as
`serde_json::Value`.  A number is either an exact integer (the source's
`u64` and `i64` forms) or a float, which is kept as the decimal it prints
as.  An object is the list of its entries in map order.
-/

/-- A JSON number.  An integer and a float of the same value are different
numbers, as they are in the source. -/
inductive Number where
  | int (value : Int)
  | float (value : Decimal)
  deriving DecidableEq

inductive Value where
  | null
  | bool (value : Bool)
  | number (value : Number)
  | string (value : String)
  | array (items : List Value)
  | object (entries : List (String × Value))

namespace Value

mutual

def decEq : (left right : Value) -> Decidable (left = right)
  | .null, .null => isTrue rfl
  | .bool left, .bool right =>
      if same : left = right then isTrue (by rw [same])
      else isFalse (fun equal => same (Value.bool.inj equal))
  | .number left, .number right =>
      if same : left = right then isTrue (by rw [same])
      else isFalse (fun equal => same (Value.number.inj equal))
  | .string left, .string right =>
      if same : left = right then isTrue (by rw [same])
      else isFalse (fun equal => same (Value.string.inj equal))
  | .array left, .array right =>
      match decEqItems left right with
      | isTrue same => isTrue (by rw [same])
      | isFalse different => isFalse (fun equal => different (Value.array.inj equal))
  | .object left, .object right =>
      match decEqEntries left right with
      | isTrue same => isTrue (by rw [same])
      | isFalse different => isFalse (fun equal => different (Value.object.inj equal))
  | .null, .bool _ | .null, .number _ | .null, .string _ | .null, .array _ | .null, .object _
  | .bool _, .null | .bool _, .number _ | .bool _, .string _ | .bool _, .array _ | .bool _, .object _
  | .number _, .null | .number _, .bool _ | .number _, .string _ | .number _, .array _
  | .number _, .object _ | .string _, .null | .string _, .bool _ | .string _, .number _
  | .string _, .array _ | .string _, .object _ | .array _, .null | .array _, .bool _
  | .array _, .number _ | .array _, .string _ | .array _, .object _ | .object _, .null
  | .object _, .bool _ | .object _, .number _ | .object _, .string _ | .object _, .array _ =>
      isFalse (by intro impossible; cases impossible)

def decEqItems : (left right : List Value) -> Decidable (left = right)
  | [], [] => isTrue rfl
  | [], _ :: _ | _ :: _, [] => isFalse (by intro impossible; cases impossible)
  | left :: lefts, right :: rights =>
      match decEq left right, decEqItems lefts rights with
      | isTrue head, isTrue tail => isTrue (by rw [head, tail])
      | isFalse head, _ => isFalse (fun equal => head (List.cons.inj equal).1)
      | _, isFalse tail => isFalse (fun equal => tail (List.cons.inj equal).2)

def decEqEntries : (left right : List (String × Value)) -> Decidable (left = right)
  | [], [] => isTrue rfl
  | [], _ :: _ | _ :: _, [] => isFalse (by intro impossible; cases impossible)
  | (leftKey, left) :: lefts, (rightKey, right) :: rights =>
      if key : leftKey = rightKey then
        match decEq left right, decEqEntries lefts rights with
        | isTrue head, isTrue tail => isTrue (by rw [key, head, tail])
        | isFalse head, _ => isFalse (fun equal => head (Prod.mk.inj (List.cons.inj equal).1).2)
        | _, isFalse tail => isFalse (fun equal => tail (List.cons.inj equal).2)
      else isFalse (fun equal => key (Prod.mk.inj (List.cons.inj equal).1).1)

end

instance : DecidableEq Value := decEq

instance : Inhabited Value := ⟨.null⟩

/-! ## Reading a value -/

/-- The entry of an object under a key.  A value of any other kind has no
entries. -/
def get (value : Value) (key : String) : Option Value :=
  match value with
  | .object entries => entries.lookup key
  | _ => none

def isNull : Value -> Bool
  | .null => true
  | _ => false

def asStr : Value -> Option String
  | .string text => some text
  | _ => none

def asBool : Value -> Option Bool
  | .bool value => some value
  | _ => none

/-- `as_u64`: a nonnegative integer.  A float is never one. -/
def asU64 : Value -> Option Nat
  | .number (.int value) => if 0 ≤ value ∧ value < 2 ^ 64 then some value.toNat else none
  | _ => none

def asI64 : Value -> Option Int
  | .number (.int value) => if InI64 value then some value else none
  | _ => none

/-- `Map::remove`, on the entries. -/
def removeKey (entries : List (String × Value)) (key : String) : List (String × Value) :=
  entries.filter (fun entry => entry.1 != key)

theorem lookup_removeKey_of_ne (entries : List (String × Value)) {key other : String}
    (different : other ≠ key) : (removeKey entries key).lookup other = entries.lookup other := by
  induction entries with
  | nil => rfl
  | cons entry rest ih =>
      rcases entry with ⟨name, value⟩
      by_cases same : name = key
      · subst same
        have skipped : (other == name) = false := beq_eq_false_iff_ne.mpr different
        simp only [removeKey, List.filter_cons, bne_self_eq_false, Bool.false_eq_true, if_false,
          List.lookup_cons, skipped]
        exact ih
      · have kept : (name != key) = true := bne_iff_ne.mpr same
        simp only [removeKey, List.filter_cons, kept, if_true, List.lookup_cons]
        cases other == name with
        | true => rfl
        | false => exact ih

theorem lookup_removeKey_self (entries : List (String × Value)) (key : String) :
    (removeKey entries key).lookup key = none := by
  rw [List.lookup_eq_none_iff]
  intro entry member
  have kept := (List.mem_filter.mp member).2
  rw [bne_iff_ne] at kept
  exact bne_iff_ne.mpr (Ne.symm kept)

/-! ## Text forms -/

private def hexDigit (digit : Nat) : Char := Nat.digitChar digit

/-- One character inside a JSON string, escaped as `serde_json` does. -/
def escapeChar (character : Char) : List Char :=
  if character = '"' then ['\\', '"']
  else if character = '\\' then ['\\', '\\']
  else if character = '\n' then ['\\', 'n']
  else if character = '\r' then ['\\', 'r']
  else if character = '\t' then ['\\', 't']
  else if character.toNat = 8 then ['\\', 'b']
  else if character.toNat = 12 then ['\\', 'f']
  else if character.toNat < 32 then
    ['\\', 'u', '0', '0', hexDigit (character.toNat / 16), hexDigit (character.toNat % 16)]
  else [character]

def quote (text : String) : String :=
  "\"" ++ String.ofList (text.toList.flatMap escapeChar) ++ "\""

end Value

/-- The shortest decimal form of a float: positional between `1e-5` and
`1e16`, scientific outside. -/
def Decimal.text (decimal : Decimal) : String :=
  let digit := fun value : Nat => Nat.digitChar value
  let digits := decimal.digits.map digit
  let count : Int := digits.length
  let zeros := fun amount : Int => List.replicate amount.toNat '0'
  let body : List Char :=
    if digits.isEmpty then ['0', '.', '0']
    else if count ≤ decimal.exp ∧ decimal.exp ≤ 16 then
      digits ++ zeros (decimal.exp - count) ++ ['.', '0']
    else if 0 < decimal.exp ∧ decimal.exp ≤ 16 then
      digits.take decimal.exp.toNat ++ ['.'] ++ digits.drop decimal.exp.toNat
    else if -5 < decimal.exp ∧ decimal.exp ≤ 0 then
      ['0', '.'] ++ zeros (-decimal.exp) ++ digits
    else
      let lead := if count = 1 then digits else digits.take 1 ++ ['.'] ++ digits.drop 1
      lead ++ ['e'] ++ (toString (decimal.exp - 1)).toList
  String.ofList (if decimal.negative then '-' :: body else body)

namespace Number

/-- `Number::to_string`. -/
def text : Number -> String
  | .int value => toString value
  | .float value => value.text

/-- The exact value of a number. -/
def value : Number -> ℚ
  | .int value => value
  | .float value => value.value

end Number

namespace Value

mutual

/-- The compact serialisation of a value, object entries in map order. -/
def text : Value -> String
  | .null => "null"
  | .bool true => "true"
  | .bool false => "false"
  | .number amount => amount.text
  | .string content => quote content
  | .array items => "[" ++ String.intercalate "," (itemTexts items) ++ "]"
  | .object entries => "\x7b" ++ String.intercalate "," (entryTexts entries) ++ "\x7d"

def itemTexts : List Value -> List String
  | [] => []
  | item :: rest => text item :: itemTexts rest

def entryTexts : List (String × Value) -> List String
  | [] => []
  | (key, value) :: rest => (quote key ++ ":" ++ text value) :: entryTexts rest

end

mutual

/-- Sort the entries of every object, at every depth, by key. -/
def sortEntries : Value -> Value
  | .array items => .array (sortItems items)
  | .object entries =>
      .object ((sortFields entries).insertionSort (fun left right => left.1 ≤ right.1))
  | scalar => scalar

def sortItems : List Value -> List Value
  | [] => []
  | item :: rest => sortEntries item :: sortItems rest

def sortFields : List (String × Value) -> List (String × Value)
  | [] => []
  | (key, value) :: rest => (key, sortEntries value) :: sortFields rest

end

/-- `canonical_json`: the serialisation with the keys of every object in
order, so that equal values have one text whatever their map order. -/
def canonicalJson (value : Value) : String := (sortEntries value).text

end Value
end Json
end FaucetStream
