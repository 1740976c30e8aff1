import FaucetStream.Json.Value
import FaucetStream.Error
import FaucetStream.Library.Comparison

namespace FaucetStream
namespace Replication

open Json
open Library

/-!
# The order of replication values

A page's bookmark is the largest value of its replication key.  Two values
are ordered by what they hold: numbers and decimal texts by the number, two
timestamps with an offset or two without one by the instant, other texts by
their characters, and values of different JSON types by the type.  Which
order answers therefore depends on both operands.

Timestamps are read by a calendar library.  It enters as a structure: two
readers into one linearly ordered type, which only accept a text that writes
the time of day with colons.
-/

/-! ## The replication key of a record -/

inductive KeyForm where
  | topLevel
  | dotPath (segments : List String)
  | pointer
  deriving DecidableEq

structure ReplicationKey where
  raw : String
  form : KeyForm
  deriving DecidableEq

namespace ReplicationKey

/-- `str::parse::<usize>`. -/
def parseIndex (text : String) : Option Nat :=
  let body := match text.toList with
    | '+' :: rest => rest
    | plain => plain
  if body.isEmpty || !body.all Char.isDigit then none
  else
    let value := body.foldl (fun value digit => value * 10 + (digit.toNat - 48)) 0
    if value < 2 ^ 64 then some value else none

/-- One step of a path: a field of an object or an index into an array. -/
def descend (index : String -> Option Nat) (current : Value) (segment : String) : Option Value :=
  match current with
  | .object entries => entries.lookup segment
  | .array items => (index segment).bind (fun place => items[place]?)
  | _ => none

/-- The array index a JSON Pointer token writes: no sign, no leading zero. -/
def pointerIndex (token : String) : Option Nat :=
  if token.startsWith "+" || (token.startsWith "0" && token.length != 1) then none else parseIndex token

/-- `Value::pointer`. -/
def pointerGet (record : Value) (pointer : String) : Option Value :=
  if pointer.isEmpty then some record
  else if !pointer.startsWith "/" then none
  else
    (((pointer.splitOn "/").drop 1).map (fun token => (token.replace "~1" "/").replace "~0" "~")).foldlM
      (descend pointerIndex) record

/-- The value a record holds under the key. -/
def resolve (key : ReplicationKey) (record : Value) : Option Value :=
  match key.form with
  | .topLevel => record.get key.raw
  | .pointer => pointerGet record key.raw
  | .dotPath segments =>
      match record.get key.raw with
      | some value => some value
      | none => segments.foldlM (descend parseIndex) record

def resolvePresent (key : ReplicationKey) (record : Value) : Option Value :=
  (key.resolve record).filter (fun value => !value.isNull)

end ReplicationKey

/-! ## Timestamps -/

/-- The readers of the calendar library, over its ordered type of instants. -/
structure Chrono (Moment : Type) where
  /-- `DateTime::parse_from_rfc3339`, as an instant in UTC. -/
  parseFromRfc3339 : String -> Option Moment
  /-- `NaiveDateTime::parse_from_str` with `%Y-%m-%dT%H:%M:%S%.f`. -/
  parseFromStr : String -> Option Moment
  rfc3339_colon : forall text, (parseFromRfc3339 text).isSome = true -> ':' ∈ text.toList
  str_colon : forall text, (parseFromStr text).isSome = true -> ':' ∈ text.toList

inductive Instant (Moment : Type) where
  | zoned (moment : Moment)
  | naive (moment : Moment)

/-- A blank at a byte offset becomes a `T`.  An offset inside a longer
character is no blank. -/
def blankToT : (offset : Nat) -> List Char -> List Char
  | _, [] => []
  | 0, character :: rest => (if character = ' ' then 'T' else character) :: rest
  | offset + 1, character :: rest =>
      if character.utf8Size ≤ offset + 1 then
        character :: blankToT (offset + 1 - character.utf8Size) rest
      else character :: rest

section Order

variable {Moment : Type} [LinearOrder Moment] (chrono : Chrono Moment)

def Instant.parse (text : String) : Option (Instant Moment) :=
  let s := trim text.toList
  if (s.map Char.utf8Size).sum < 19 || !(s.take 4).all Char.isDigit then none
  else
    let normalized := String.ofList (blankToT 10 s)
    match chrono.parseFromRfc3339 normalized with
    | some moment => some (.zoned moment)
    | none => (chrono.parseFromStr normalized).map Instant.naive

/-! ## The comparison -/

/-- Two decimals numerically, two instants of the same kind chronologically,
anything else lexicographically. -/
def compareStrings (x y : String) : Ordering :=
  match Decimal.parse x, Decimal.parse y with
  | some a, some b => a.cmp b
  | _, _ =>
      match Instant.parse chrono x, Instant.parse chrono y with
      | some (.zoned a), some (.zoned b) => compare a b
      | some (.naive a), some (.naive b) => compare a b
      | _, _ => compare x y

def typeRank : Value -> Nat
  | .null => 0
  | .bool _ => 1
  | .number _ => 2
  | .string _ => 3
  | .array _ => 4
  | .object _ => 5

/-- The number a JSON number or a decimal string writes.  The source compares
the decimal texts, in the order of the numbers they denote
(`Decimal.cmp_eq_compare_value`); a JSON number prints its exact value. -/
def numericText : Value -> Option ℚ
  | .number amount => some amount.value
  | .string text => (Decimal.parse text).map Decimal.value
  | _ => none

/-- Two integers exactly, otherwise by the numbers the floats stand for. -/
def compareNumbers : Number -> Number -> Ordering
  | .int left, .int right => compare left right
  | left, right => compare left.value right.value

def byTypeRank (a b : Value) : Ordering := compare (typeRank a) (typeRank b)

/-- A number against a string, in either order. -/
def compareNumeric (a b : Value) : Ordering :=
  match numericText a, numericText b with
  | some x, some y => compare x y
  | _, _ => byTypeRank a b

mutual

def jsonCompare : Value -> Value -> Ordering
  | .number a, .string b => compareNumeric (.number a) (.string b)
  | .string a, .number b => compareNumeric (.string a) (.number b)
  | .number a, .number b => compareNumbers a b
  | .string a, .string b => compareStrings chrono a b
  | .bool a, .bool b => compare a b
  | .null, .null => .eq
  | .array a, .array b => jsonCompareItems a b
  | .object a, .object b => compare (Value.object a).text (Value.object b).text
  | a, b => byTypeRank a b

/-- The entries two arrays share, then their lengths. -/
def jsonCompareItems : List Value -> List Value -> Ordering
  | a :: as, b :: bs => (jsonCompare a b).then (jsonCompareItems as bs)
  | as, bs => compare as.length bs.length

end

def jsonGt (a b : Value) : Bool := jsonCompare chrono a b == .gt

/-! ## The largest value of a page -/

def maxReplicationValuePath (records : List Value) (key : ReplicationKey) : Option Value :=
  maxBy (jsonCompare chrono) (records.filterMap key.resolvePresent)

def maxReplicationValue (records : List Value) (key : String) : Option Value :=
  maxBy (jsonCompare chrono)
    (records.filterMap (fun record => (record.get key).filter (fun value => !value.isNull)))

end Order

end Replication
end FaucetStream
