import FaucetStream.Json.Value
import FaucetStream.Library.Hex
import Mathlib.Data.List.Infix

namespace FaucetStream
namespace Keys

open Json
open Library

/-!
# State keys

Every key a pipeline reads or writes in its state store is built from its
components and rendered one way: the tenant, the pipeline, the row, a component
for a child invocation, a shard and a marker, with `::` between them.

A child invocation is named by the value of its parent's key, which comes from
record data.  The value is tagged by its JSON type unless it is a string; a
string is tagged when it starts like a tag or is the name of a marker.  The
component is kept verbatim when it is made of key characters only, and is a
readable prefix with a hash otherwise.
-/

def KEY_SCHEME_VERSION : Nat := 4

def KEY_SEPARATOR : String := "::"

/-- The longest component kept verbatim, in bytes. -/
def COMPONENT_MAX : Nat := 64

def push (out segment : String) : String := if out.isEmpty then segment else out ++ KEY_SEPARATOR ++ segment

/-! ## Markers -/

/-- What a key holds besides a plain resume position. -/
inductive KeySuffix where
  | sla
  | profiling
  | rollbackIndex
  | rollbackRun (run : String)
  | status
  | lease
  | replication
  | backfill (rangeHash : String)
  | serveBackfill (rangeHash : String)

def KeySuffix.marker : KeySuffix -> String
  | .sla => "__sla__"
  | .profiling => "__profiling__"
  | .rollbackIndex => "__rollback__"
  | .rollbackRun _ => "__rollback__"
  | .status => "__status__"
  | .lease => "__lease__"
  | .replication => "__replication__"
  | .backfill _ => "__backfill__"
  | .serveBackfill _ => "__serve_backfill__"

def KeySuffix.tail : KeySuffix -> Option String
  | .rollbackRun run => some run
  | .backfill rangeHash => some rangeHash
  | .serveBackfill rangeHash => some rangeHash
  | _ => none

/-- Whether the suffix hangs off the pipeline, not off an invocation. -/
def KeySuffix.isPipelineLevel : KeySuffix -> Bool
  | .replication => true
  | .backfill _ => true
  | .serveBackfill _ => true
  | _ => false

def KeySuffix.renderInto (suffix : KeySuffix) (out : String) : String :=
  match suffix.tail with
  | some tail => push (push out suffix.marker) tail
  | none => push out suffix.marker

def MARKER_NAMES : List String :=
  ["__sla__", "__profiling__", "__status__", "__lease__", "__rollback__", "__replication__", "__backfill__",
    "__serve_backfill__"]

def isMarkerName (raw : String) : Bool := MARKER_NAMES.contains raw

/-! ## Components -/

def isPlain (character : Char) : Bool :=
  character.isAlphanum || character == '_' || character == '-' || character == '.'

def isLegal (allowSeparators : Bool) (character : Char) : Bool :=
  isPlain character || (allowSeparators && (character == ':' || character == '/'))

/-- Whether a component is kept as it is. -/
def isVerbatim (raw : String) (allowSeparators : Bool) : Bool :=
  !raw.toList.isEmpty && decide (raw.utf8ByteSize ≤ COMPONENT_MAX) &&
    raw.toList.all (isLegal allowSeparators) && !decide (KEY_SEPARATOR.toList <:+: raw.toList) &&
    raw.toList.head? != some ':' && raw.toList.getLast? != some ':' &&
    (!raw.toList.contains '/' ||
      (raw.toList.splitOn '/').all (fun segment => !segment.isEmpty && segment.head? != some '.'))

/-- The 64-bit FNV-1a hash of a text's bytes. -/
def fnv1a (raw : String) : UInt64 :=
  raw.toUTF8.data.toList.foldl (fun hash byte => (hash ^^^ byte.toUInt64) * 0x100000001b3) 0xcbf29ce484222325

/-- The first plain characters of a text, and its hash. -/
def hashedName (raw : String) : String :=
  String.ofList ((raw.toList.filter isPlain).take 32 ++ ['.', 'h'] ++ hexDigits 16 (fnv1a raw).toNat)

def encodeComponent (raw : String) (allowSeparators : Bool) : String :=
  if isVerbatim raw allowSeparators then raw else hashedName raw

def TYPE_TAGS : List Char := ['s', 'n', 'b', 'z', 'a', 'o']

/-- Whether a text starts like a type tag. -/
def tagLike (raw : String) : Bool :=
  match raw.toList with
  | '_' :: tag :: '.' :: _ => TYPE_TAGS.contains tag
  | _ => false

def typedString (raw : String) : String :=
  if tagLike raw then encodeComponent ("_s." ++ raw) true else encodeComponent raw true

/-! ## Keys -/

inductive Sub where
  /-- A parent key's value, as text. -/
  | parent (raw : String)
  /-- A component in key form. -/
  | encoded (component : String)
  /-- A parent key's value with its JSON type: its rendering, and the text
  earlier schemes rendered it from. -/
  | typed (typed text : String) (isString : Bool)

def renderSub (sub : Sub) (version : Nat) : String :=
  match sub with
  | .parent raw =>
      if 4 ≤ version && isMarkerName raw then encodeComponent ("_s." ++ raw) true
      else if 3 ≤ version then typedString raw
      else if 2 ≤ version then encodeComponent raw true
      else raw
  | .typed typed text isString =>
      if isString && decide (4 ≤ version) && isMarkerName text then encodeComponent ("_s." ++ text) true
      else if 3 ≤ version then typed
      else if 2 ≤ version then encodeComponent text true
      else text
  | .encoded component => component

inductive Head where
  | parts (tenant : Option String) (pipeline : String) (row : Option String) (sub : Option Sub)
  /-- An invocation key rendered earlier. -/
  | rendered (base : String)

structure StateKey where
  head : Head
  shard : Option String
  suffix : Option KeySuffix

namespace StateKey

def pipeline (pipeline : String) : StateKey := ⟨.parts none pipeline none none, none, none⟩

def withTenant (key : StateKey) (tenant : Option String) : StateKey :=
  match key.head with
  | .parts _ pipeline row sub => { key with head := .parts tenant pipeline row sub }
  | .rendered _ => key

def withRow (key : StateKey) (row : String) : StateKey :=
  match key.head with
  | .parts tenant pipeline _ sub => { key with head := .parts tenant pipeline (some row) sub }
  | .rendered _ => key

def invocation (pipeline row : String) : StateKey := (StateKey.pipeline pipeline).withRow row

/-- A parent key's value, as text. -/
def withParentKey (key : StateKey) (raw : String) : StateKey :=
  match key.head with
  | .parts tenant pipeline row _ => { key with head := .parts tenant pipeline row (some (.parent raw)) }
  | .rendered _ => key

/-- A component already in key form. -/
def withSub (key : StateKey) (encoded : String) : StateKey :=
  match key.head with
  | .parts tenant pipeline row _ => { key with head := .parts tenant pipeline row (some (.encoded encoded)) }
  | .rendered _ => key

/-- The letter a JSON type is tagged with. -/
def typeTag : Value -> Char
  | .string _ => 's'
  | .number _ => 'n'
  | .bool _ => 'b'
  | .null => 'z'
  | .array _ => 'a'
  | .object _ => 'o'

/-- The text of a parent value: a string as it is, anything else as JSON. -/
def parentText : Value -> String
  | .string text => text
  | other => other.text

def typedSub (value : Value) : Sub :=
  match value with
  | .string text => .typed (typedString text) text true
  | other =>
      .typed (encodeComponent (String.ofList ['_', typeTag other, '.'] ++ other.text) true) other.text false

def withParentValue (key : StateKey) (value : Value) : StateKey :=
  match key.head with
  | .parts tenant pipeline row _ => { key with head := .parts tenant pipeline row (some (typedSub value)) }
  | .rendered _ => key

def withSuffix (key : StateKey) (suffix : KeySuffix) : StateKey := { key with suffix := some suffix }

/-- The first segments of every key of the pipeline. -/
def keyNamespace (key : StateKey) : String :=
  match key.head with
  | .parts tenant pipeline _ _ => push (tenant.elim "" (push "")) pipeline
  | .rendered base => base

def renderScheme (key : StateKey) (version : Nat) : String :=
  let head := match key.head with
    | .parts _ _ row sub =>
        let named := row.elim key.keyNamespace (push key.keyNamespace)
        sub.elim named (fun sub => push named (renderSub sub version))
    | .rendered base => base
  let sharded := key.shard.elim head (push head)
  key.suffix.elim sharded (fun suffix => suffix.renderInto sharded)

/-- The key under the current scheme. -/
def render (key : StateKey) : String := key.renderScheme KEY_SCHEME_VERSION

end StateKey

end Keys
end FaucetStream
