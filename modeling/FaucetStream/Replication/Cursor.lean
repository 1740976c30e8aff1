import FaucetStream.Json.Value
import Mathlib.Data.Multiset.Filter
import Mathlib.Data.Multiset.Sort
import Mathlib.Data.Multiset.UnionInter

namespace FaucetStream
namespace Replication

open Json

/-!
# Cursor bookmarks

A query source reads its rows in cursor order from `cursor >= bookmark`.  The
bookmark holds the last cursor value and one fingerprint per row emitted at
that value.  A tracker refuses a copy of every such row when the value is read
again, and counts the rows emitted at the value it stands at.

The count maps of the source are multisets of fingerprints: the multiplicity
of a fingerprint is its count.
-/

/-- The most fingerprints a bookmark keeps for its boundary value. -/
def MAX_BOUNDARY_ROWS : Nat := 10000

structure CursorBookmark where
  value : Value
  /-- The rows emitted at `value`; `none` after an overflow. -/
  boundary : Option (List String)
  deriving DecidableEq

namespace CursorBookmark

/-- A starting position with nothing emitted yet. -/
def initial (value : Value) : CursorBookmark := ⟨value, some []⟩

/-- The fingerprints of a stored boundary. -/
def boundaryTexts : List Value -> Except String (List String)
  | [] => .ok []
  | .string text :: rest =>
      match boundaryTexts rest with
      | .error message => .error message
      | .ok texts => .ok (text :: texts)
  | other :: _ =>
      .error ("cursor bookmark: boundary entries must be strings, found " ++ other.text)

/-- The structured part of `from_state`: an object that holds `value` and at
most `boundary` beside it. -/
def fromEntries (entries : List (String × Value)) : Except String CursorBookmark :=
  let value := (entries.lookup "value").getD .null
  let boundary : Except String (Option (List String)) :=
    match entries.lookup "boundary" with
    | none => .ok (some [])
    | some .null => .ok none
    | some (.array items) =>
        match boundaryTexts items with
        | .error message => .error message
        | .ok texts => .ok (some texts)
    | some other =>
        .error ("cursor bookmark: `boundary` must be an array or null, found " ++ other.text)
  match boundary with
  | .error message => .error message
  | .ok boundary =>
      if value.isNull then .error "cursor bookmark: `value` must not be null"
      else .ok ⟨value, boundary⟩

/-- Read a stored bookmark: the structured form, or a bare value. -/
def fromState (state : Value) : Except String CursorBookmark :=
  match state with
  | .object entries =>
      if (entries.lookup "value").isSome &&
          entries.all (fun entry => entry.1 == "value" || entry.1 == "boundary") then
        fromEntries entries
      else .ok (initial state)
  | other => .ok (initial other)

/-- The stored form. -/
def toValue (bookmark : CursorBookmark) : Value :=
  .object
    [("value", bookmark.value),
     ("boundary", match bookmark.boundary with
        | some texts => .array (texts.map Value.string)
        | none => .null)]

theorem boundaryTexts_map_string (texts : List String) :
    boundaryTexts (texts.map Value.string) = .ok texts := by
  induction texts with
  | nil => rfl
  | cons text rest ih =>
      simp only [List.map_cons, boundaryTexts, ih]

/-- A stored bookmark is read back as it was. -/
theorem fromState_toValue (bookmark : CursorBookmark) (present : bookmark.value.isNull = false) :
    fromState bookmark.toValue = .ok bookmark := by
  rcases bookmark with ⟨value, boundary⟩
  have structured : forall stored : Value, fromState (.object [("value", value), ("boundary", stored)]) =
      fromEntries [("value", value), ("boundary", stored)] := fun stored => rfl
  cases boundary with
  | none =>
      change fromState (.object [("value", value), ("boundary", .null)]) = _
      rw [structured]
      change (if value.isNull then _ else _) = _
      rw [present]
      rfl
  | some texts =>
      change fromState (.object [("value", value), ("boundary", .array (texts.map Value.string))]) = _
      rw [structured]
      have read : fromEntries [("value", value), ("boundary", .array (texts.map Value.string))] =
          match (match boundaryTexts (texts.map Value.string) with
            | .error message => .error message
            | .ok texts => .ok (some texts) : Except String (Option (List String))) with
          | .error message => .error message
          | .ok boundary =>
              if value.isNull then .error "cursor bookmark: `value` must not be null"
              else .ok ⟨value, boundary⟩ := rfl
      rw [read, boundaryTexts_map_string, present]
      rfl

end CursorBookmark

/-! ## Row fingerprints -/

/-- FNV-1a over bytes with a chosen offset basis. -/
def fnv1a64 (bytes : List UInt8) (basis : UInt64) : UInt64 :=
  bytes.foldl (fun hash byte => (hash ^^^ byte.toUInt64) * 0x100000001b3) basis

def FNV_BASIS_A : UInt64 := 0xcbf29ce484222325

def FNV_BASIS_B : UInt64 := 0x84222325cbf29ce4

/-- Sixteen lower-case hexadecimal digits. -/
def hex16 (value : UInt64) : List Char := (Nat.toDigits 16 value.toNat).leftpad 16 '0'

/-- A 128-bit fingerprint of a whole row, independent of field order. -/
def rowFingerprint (row : Value) : String :=
  let bytes := row.canonicalJson.toUTF8.data.toList
  String.ofList (hex16 (fnv1a64 bytes FNV_BASIS_A) ++ hex16 (fnv1a64 bytes FNV_BASIS_B))

/-! ## The tracker -/

structure CursorTracker where
  column : String
  start : Value
  /-- Copies of each row still to refuse at the starting value. -/
  startBoundary : Option (Multiset String)
  value : Value
  boundary : Option (Multiset String)
  boundaryRows : Nat
  missing : Nat
  overflowWarned : Bool

/-- The cursor of a row, when it has one. -/
def cursorOf (column : String) (row : Value) : Option Value :=
  (row.get column).filter (fun value => !value.isNull)

namespace CursorTracker

/-- Track a column from a bookmark. -/
def new (column : String) (start : CursorBookmark) : CursorTracker :=
  let startBoundary := start.boundary.map Multiset.ofList
  { column := column
    start := start.value
    startBoundary := startBoundary
    value := start.value
    boundary := startBoundary
    boundaryRows := match startBoundary with
      | some fingerprints => Multiset.card fingerprints
      | none => 0
    missing := 0
    overflowWarned := false }

/-- Count a row emitted at the current value; too many of them drop the
boundary. -/
def countRow (tracker : CursorTracker) (fingerprint : String) : CursorTracker :=
  match tracker.boundary with
  | none => tracker
  | some fingerprints =>
      if MAX_BOUNDARY_ROWS < tracker.boundaryRows + 1 then
        { tracker with
          boundary := none, boundaryRows := tracker.boundaryRows + 1, overflowWarned := true }
      else
        { tracker with
          boundary := some (fingerprint ::ₘ fingerprints), boundaryRows := tracker.boundaryRows + 1 }

/-- Whether a row is new, with the tracker after it. -/
def admitRow (tracker : CursorTracker) (row : Value) : Bool × CursorTracker :=
  match cursorOf tracker.column row with
  | none => (true, { tracker with missing := tracker.missing + 1 })
  | some value =>
      let fingerprint := rowFingerprint row
      match (if value = tracker.start then tracker.startBoundary.filter (fun left => fingerprint ∈ left)
        else none) with
      | some left => (false, { tracker with startBoundary := some (left.erase fingerprint) })
      | none =>
          if value = tracker.value then (true, tracker.countRow fingerprint)
          else
            (true, { tracker with value := value, boundary := some {fingerprint}, boundaryRows := 1 })

/-- The position after every row admitted so far. -/
def bookmark (tracker : CursorTracker) : CursorBookmark where
  value := tracker.value
  boundary := tracker.boundary.map (fun fingerprints => fingerprints.sort)

/-- Read rows in order: the rows admitted and the tracker after them. -/
def read (tracker : CursorTracker) (rows : List Value) : List Value × CursorTracker :=
  rows.foldl (fun state row =>
    let (isNew, next) := state.2.admitRow row
    (if isNew then state.1 ++ [row] else state.1, next)) ([], tracker)

end CursorTracker

end Replication
end FaucetStream
