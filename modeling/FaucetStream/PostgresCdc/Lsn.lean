import FaucetStream.Error
import FaucetStream.Json.Value
import FaucetStream.Library.Hex

namespace FaucetStream
namespace PostgresCdc

open Json Library

/-!
# Log sequence numbers and bookmarks

An LSN is a 64-bit number, written as two hexadecimal halves with a slash
between them.  A bookmark is an object with one such text.
-/

def formatLsn (lsn : Nat) : String :=
  String.ofList (hexText 8 (lsn / 2 ^ 32 % 2 ^ 32) ++ '/' :: hexText 8 (lsn % 2 ^ 32))

/-- `split_once('/')`. -/
def splitLsn (text : List Char) : Option (List Char × List Char) :=
  match text.dropWhile (· != '/') with
  | [] => none
  | _ :: low => some (text.takeWhile (· != '/'), low)

/-- `u32::from_str_radix(_, 16)`, which takes a sign before the digits. -/
def halfOf (digits : List Char) : Except String Nat :=
  match digits with
  | [] => .error "cannot parse integer from empty string"
  | ['+'] => .error "invalid digit found in string"
  | '+' :: rest => readHex (2 ^ 32) rest
  | digits => readHex (2 ^ 32) digits

def parseHalf (name : String) (digits : List Char) : Except FaucetError Nat :=
  match halfOf digits with
  | .ok half => .ok half
  | .error why => .error (.state ("postgres-cdc LSN " ++ name ++ " half '" ++ String.ofList digits ++ "': " ++ why))

def parseLsn (text : String) : Except FaucetError Nat :=
  match splitLsn text.toList with
  | none => .error (.state ("postgres-cdc invalid LSN '" ++ text ++ "': missing '/'"))
  | some (high, low) =>
      if high.isEmpty || low.isEmpty || low.contains '/' then
        .error (.state ("postgres-cdc invalid LSN '" ++ text ++ "'"))
      else do
        let high <- parseHalf "high" high
        let low <- parseHalf "low" low
        .ok (high * 2 ^ 32 + low)

structure Bookmark where
  lastLsn : String

namespace Bookmark

def fromU64 (lsn : Nat) : Bookmark := ⟨formatLsn lsn⟩

def toValue (bookmark : Bookmark) : Value := .object [("last_lsn", .string bookmark.lastLsn)]

def asU64 (bookmark : Bookmark) : Except FaucetError Nat := parseLsn bookmark.lastLsn

/-- The fields of a bookmark, from an object or from a sequence of them.  What
is wrong with another value is not kept by the callers below. -/
def fields : Value -> Option Bookmark
  | .object entries => ((entries.lookup "last_lsn").bind Value.asStr).map Bookmark.mk
  | .array [.string lastLsn] => some ⟨lastLsn⟩
  | _ => none

def fromValue (value : Value) : Option Bookmark := do
  let bookmark <- fields value
  let _ <- (parseLsn bookmark.lastLsn).toOption
  some bookmark

end Bookmark

def lsnOf (position : Value) : Option Nat := do
  let bookmark <- Bookmark.fromValue position
  bookmark.asU64.toOption

def positionLe (left right : Value) : Option Bool := do
  let left <- lsnOf left
  let right <- lsnOf right
  some (decide (left ≤ right))

/-- A position is a commit's end: every later commit lies at or past it. -/
def recordCovered (record position : Value) : Option Bool := do
  let text <- (record.get "lsn").bind Value.asStr
  let commit <- (parseLsn text).toOption
  let position <- lsnOf position
  some (decide (commit < position))

/-! ## Texts are read back -/

private theorem slash_not_digit : hexDigitValue '/' = none := by decide

private theorem plus_not_digit : hexDigitValue '+' = none := by decide

theorem parseHalf_hexText (name : String) {half : Nat} (small : half < 2 ^ 32) :
    parseHalf name (hexText 8 half) = .ok half := by
  have read : readHex (2 ^ 32) (hexText 8 half) = .ok half := by
    refine readHex_hexText small ?_ (by decide)
    exact Nat.lt_of_lt_of_eq small (by decide)
  have whole : halfOf (hexText 8 half) = .ok half := by
    unfold halfOf
    split
    · next none => exact absurd none (hexText_ne_nil (by decide))
    · next plus =>
      have member : '+' ∈ hexText 8 half := plus ▸ List.mem_cons_self
      exact absurd member (not_mem_hexText plus_not_digit)
    · next plus =>
      have member : '+' ∈ hexText 8 half := plus ▸ List.mem_cons_self
      exact absurd member (not_mem_hexText plus_not_digit)
    · exact read
  rw [parseHalf, whole]

theorem splitLsn_slash {high low : List Char} (plain : '/' ∉ high) :
    splitLsn (high ++ '/' :: low) = some (high, low) := by
  have passes : forall character, character ∈ high -> (character != '/') = true := by
    intro character member
    exact bne_iff_ne.mpr (fun same => plain (same ▸ member))
  rw [splitLsn, List.dropWhile_append_of_pos passes, List.takeWhile_append_of_pos passes]
  simp

theorem parseLsn_formatLsn {lsn : Nat} (small : lsn < 2 ^ 64) : parseLsn (formatLsn lsn) = .ok lsn := by
  have highSmall : lsn / 2 ^ 32 % 2 ^ 32 < 2 ^ 32 := Nat.mod_lt _ (by decide)
  have lowSmall : lsn % 2 ^ 32 < 2 ^ 32 := Nat.mod_lt _ (by decide)
  have whole : lsn / 2 ^ 32 % 2 ^ 32 * 2 ^ 32 + lsn % 2 ^ 32 = lsn := by
    rw [Nat.mod_eq_of_lt (Nat.div_lt_of_lt_mul (Nat.lt_of_lt_of_eq small (by decide)))]
    exact Nat.div_add_mod' lsn (2 ^ 32)
  have wellFormed : ((hexText 8 (lsn / 2 ^ 32 % 2 ^ 32)).isEmpty || (hexText 8 (lsn % 2 ^ 32)).isEmpty ||
      (hexText 8 (lsn % 2 ^ 32)).contains '/') = false := by
    have lowPlain : '/' ∉ hexText 8 (lsn % 2 ^ 32) := not_mem_hexText slash_not_digit
    rw [List.isEmpty_eq_false_iff.mpr (hexText_ne_nil (by decide)),
      List.isEmpty_eq_false_iff.mpr (hexText_ne_nil (by decide)), List.contains_eq_mem, decide_eq_false lowPlain]
    rfl
  rw [parseLsn, formatLsn, String.toList_ofList, splitLsn_slash (not_mem_hexText slash_not_digit)]
  dsimp only
  rw [wellFormed, if_neg Bool.false_ne_true, parseHalf_hexText "high" highSmall, parseHalf_hexText "low" lowSmall]
  exact congrArg Except.ok whole

theorem lsnOf_bookmark {lsn : Nat} (small : lsn < 2 ^ 64) : lsnOf (Bookmark.fromU64 lsn).toValue = some lsn := by
  have read := parseLsn_formatLsn small
  simp only [lsnOf, Bookmark.fromValue, Bookmark.fields, Bookmark.toValue, Bookmark.fromU64, List.lookup_cons,
    beq_self_eq_true, Option.bind_some, Value.asStr, Option.map_some, read, Bookmark.asU64, Except.toOption,
    bind]

/-- A record is covered by a bookmark when its commit lies below it. -/
theorem recordCovered_eq {record : Value} {commit position : Nat} (commitSmall : commit < 2 ^ 64)
    (positionSmall : position < 2 ^ 64) (stamped : record.get "lsn" = some (.string (formatLsn commit))) :
    recordCovered record (Bookmark.fromU64 position).toValue = some (decide (commit < position)) := by
  rw [recordCovered, stamped, lsnOf_bookmark positionSmall]
  simp only [Option.bind_some, Value.asStr, parseLsn_formatLsn commitSmall, Except.toOption, bind]

end PostgresCdc
end FaucetStream
