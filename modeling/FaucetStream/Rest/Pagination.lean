import FaucetStream.Replication.Compare
import FaucetStream.Replication.Cursor
import Mathlib.Data.Finset.Insert

namespace FaucetStream
namespace Rest

open Json
open Replication

/-!
# Pagination styles

A REST source asks for one page after another.  What it asks for next, and
whether it asks again, follows from the page it was given and from the state
of the walk: the tokens and page contents it has met, the offset, or the
largest value of a record field.

JSONPath queries, URLs, the standard hasher and the debug form of a text come
from libraries and enter as a structure.
-/

/-- What pagination takes from libraries. -/
structure Libraries where
  Url : Type
  parseUrl : String -> Except String Url
  join : Url -> String -> Except String Url
  urlText : Url -> String
  query : Value -> String -> Except String (List Value)
  hash : List String -> UInt64
  debug : String -> String

/-- A query that finds the entry a path names. -/
def entryLibraries : Libraries where
  Url := String
  parseUrl text := .ok text
  join _ text := .ok text
  urlText text := text
  query body path := .ok ((body.get (String.ofList (path.toList.drop 2))).toList)
  hash _ := 0
  debug text := text

/-- What pagination reads of the response headers: the texts of the `link`
fields, and the URL of the request where the transport recorded it. -/
structure Headers where
  link : List String
  requestUrl : Option String

inductive RecordCursorAgg where
  | max
  | min
  deriving DecidableEq

/-- The options that decide how a walk goes on.  Where a value is sent is left
out. -/
inductive PaginationStyle where
  | none
  | cursor (nextTokenPath : String)
  | cursorInBody (nextTokenPath : String)
  | linkHeader
  | nextLinkInBody (nextLinkPath : String)
  | pageNumber
  | offset (limit : Nat) (totalPath rowsPath : Option String) (stopWhenShort : Bool)
  | offsetInBody (limit : Nat) (stopWhenShort : Bool) (rowsPath totalPath : Option String)
  | recordFieldCursor (field : String) (agg : RecordCursorAgg) (stopWhenShort : Bool) (pageSize : Nat)
      (inclusive : Bool)

structure PaginationState where
  page : Nat
  nextToken : Option String
  offset : Nat
  nextLink : Option String
  previousToken : Option String
  previousPageFingerprint : Option UInt64
  currentPageIsDuplicate : Bool
  recordFieldCursor : Option Value
  currentRecordsFingerprint : Option UInt64
  seenTokens : Finset String
  seenPageFingerprints : Finset UInt64
  /-- How many copies of each record were emitted at the cursor value. -/
  recordCursorBoundary : Multiset String
  allowRepeatedPages : Bool

namespace PaginationState

/-- The state a walk starts in.  A resumed walk starts with a token. -/
def start (seed : Option String) (allowRepeatedPages : Bool) : PaginationState :=
  ⟨0, seed, 0, .none, .none, .none, false, .none, .none, ∅, ∅, 0, allowRepeatedPages⟩

/-- Whether a token was followed before, and the state that remembers it. -/
def tokenRepeats (state : PaginationState) (token : Option String) : Bool × PaginationState :=
  match token with
  | some token =>
      if some token = state.previousToken ∨ token ∈ state.seenTokens then (true, state)
      else (false, { state with seenTokens := insert token state.seenTokens })
  | none => (false, state)

def noteRequestUrl (state : PaginationState) (headers : Headers) : PaginationState :=
  match headers.requestUrl with
  | some url => { state with seenTokens := insert url state.seenTokens }
  | none => state

def pageRepeats (state : PaginationState) (fingerprint : UInt64) (style : String) :
    Except FaucetError (Bool × PaginationState) :=
  if state.previousPageFingerprint = some fingerprint then .ok (true, state)
  else if fingerprint ∉ state.seenPageFingerprints ∨ state.allowRepeatedPages = true then
    .ok (false, { state with seenPageFingerprints := insert fingerprint state.seenPageFingerprints })
  else
    .error (.source ("rest: " ++ style ++ " pagination returned a page identical to an earlier, non-adjacent " ++
      "page of this pass; the server is cycling pages (or two pages carry identical " ++
      "records), so rows may be unread. Check the paging parameters (an `Offset` " ++
      "`total_path` ends paging on the server's own count); if pages can legitimately " ++
      "repeat, set `allow_repeated_pages: true` together with `max_pages`"))

end PaginationState

/-! ## Links -/

/-- A header text cut at the commas that stand outside brackets. -/
def linkSegments : Int -> List Char -> List Char -> List (List Char)
  | _, current, [] => [current]
  | depth, current, character :: rest =>
      if character = '<' then linkSegments (depth + 1) (current ++ [character]) rest
      else if character = '>' then linkSegments (depth - 1) (current ++ [character]) rest
      else if character = ',' ∧ depth ≤ 0 then current :: linkSegments depth [] rest
      else linkSegments depth (current ++ [character]) rest

/-- `split_once`. -/
def splitOnce (separator : Char) : List Char -> Option (List Char × List Char)
  | [] => none
  | character :: rest =>
      if character = separator then some ([], rest)
      else (splitOnce separator rest).map (fun parts => (character :: parts.1, parts.2))

def eqIgnoreAsciiCase (left right : List Char) : Bool :=
  left.map Char.toLower == right.map Char.toLower

def trimQuotes (text : List Char) : List Char :=
  (text.dropWhile (fun character => character == '"')).rdropWhile (fun character => character == '"')

/-- The first `rel` parameter of a link. -/
def relOf (params : List Char) : List Char :=
  let named := (params.splitOn ';').filterMap (splitOnce '=')
  match named.find? (fun param => eqIgnoreAsciiCase (trim param.1) ['r', 'e', 'l']) with
  | some param => trimQuotes (trim param.2)
  | none => []

def parseLinkHeader (header : List Char) : List (List Char × List Char) :=
  (linkSegments 0 [] header).filterMap (fun segment =>
    match splitOnce '<' (trim segment) with
    | some (_, bracketed) =>
        (splitOnce '>' bracketed).map (fun parts => (trim parts.1, relOf parts.2))
    | none => none)

def isNext (rel : List Char) : Bool :=
  (rel.splitOnP isWhitespace).any (fun word => eqIgnoreAsciiCase word ['n', 'e', 'x', 't'])

def extractNextLink (headers : Headers) : Option String :=
  (headers.link.flatMap (fun field => parseLinkHeader field.toList)).findSome? (fun link =>
    if isNext link.2 then some (String.ofList link.1) else none)

section Walk

variable (libs : Libraries)

def resolveLinkStr (base link : String) : Except FaucetError String :=
  match libs.parseUrl base with
  | .error message => .error (.source ("invalid base URL '" ++ base ++ "': " ++ message))
  | .ok url =>
      match libs.join url (String.ofList (trim link.toList)) with
      | .error message =>
          .error (.source ("cannot resolve link '" ++ link ++ "' against '" ++ libs.urlText url ++ "': " ++ message))
      | .ok resolved => .ok (libs.urlText resolved)

def resolveAgainstRequest (headers : Headers) (link : String) : Except FaucetError String :=
  match headers.requestUrl with
  | some base => resolveLinkStr libs base link
  | none => .ok link

/-! ## What a page holds -/

def recordsFingerprint (records : List Value) : UInt64 := libs.hash (records.map Value.text)

def bodyFingerprint (body : Value) : UInt64 := libs.hash [body.text]

/-- The token at a path.  None ends the walk. -/
def nextTokenAt (body : Value) (path : String) : Except FaucetError (Option String) :=
  let nonScalar (kind : String) : FaucetError :=
    .jsonPath ("cursor path '" ++ path ++ "' resolved to a non-scalar value (" ++ kind ++ "); a pagination " ++
      "cursor must be a string, number, or boolean")
  match libs.query body path with
  | .error message => .error (.jsonPath message)
  | .ok results =>
      match results.head? with
      | none => .ok none
      | some .null => .ok none
      | some (.string text) => .ok (if text.isEmpty then none else some text)
      | some (.array _) => .error (nonScalar "array")
      | some (.object _) => .error (nonScalar "object")
      | some scalar => .ok (some scalar.text)

/-- The link at a path.  None ends the walk. -/
def nextLinkAt (body : Value) (path : String) : Except FaucetError (Option String) :=
  match libs.query body path with
  | .error message => .error (.jsonPath message)
  | .ok results =>
      match results.head? with
      | none => .ok none
      | some .null => .ok none
      | some (.string text) => .ok (if text.isEmpty then none else some text)
      | some _ =>
          .error (.jsonPath ("next-link path '" ++ path ++ "' resolved to a non-string value; the " ++
            "next-page link must be a URL string"))

def countRows (body : Value) (path : String) : Except FaucetError Nat :=
  match libs.query body path with
  | .error message => .error (.jsonPath ("rows_path '" ++ path ++ "': " ++ message))
  | .ok [] => .ok 0
  | .ok [.array items] => .ok items.length
  | .ok hits => .ok (hits.countP (fun hit => !hit.isNull))

/-- The rows a page counts for. -/
def countOf (body : Value) (rowsPath : Option String) (recordCount : Nat) : Except FaucetError Nat :=
  match rowsPath with
  | some path => countRows libs body path
  | none => .ok recordCount

/-- `read_total`: an integer, or a text that writes one. -/
def readTotal (body : Value) (path : String) : Except FaucetError (Option Nat) :=
  match libs.query body path with
  | .error message => .error (.jsonPath ("total_path '" ++ path ++ "': " ++ message))
  | .ok hits =>
      .ok (hits.head?.bind (fun total =>
        match total.asU64 with
        | some count => some count
        | none =>
            total.asStr.bind (fun text => ReplicationKey.parseIndex (String.ofList (trim text.toList)))))

/-! ## Advancing -/

/-- A token that leads on is followed once. -/
def followToken (token : String) (state : PaginationState) : Bool × PaginationState :=
  match state.tokenRepeats (some token) with
  | (true, state) => (false, state)
  | (false, state) => (true, { state with previousToken := some token })

def advanceCursor (body : Value) (nextTokenPath : String) (state : PaginationState) :
    Except FaucetError (Bool × PaginationState) :=
  match nextTokenAt libs body nextTokenPath with
  | .error error => .error error
  | .ok none => .ok (false, { state with nextToken := none })
  | .ok (some token) => .ok (followToken token { state with nextToken := some token })

def advanceLinkHeader (headers : Headers) (state : PaginationState) : Except FaucetError (Bool × PaginationState) :=
  match extractNextLink headers with
  | none => .ok (false, { state with nextLink := none })
  | some link =>
      match resolveAgainstRequest libs headers link with
      | .error error => .error error
      | .ok link =>
          match followToken link (state.noteRequestUrl headers) with
          | (false, state) => .ok (false, { state with nextLink := none })
          | (true, state) => .ok (true, { state with nextLink := some link })

def advanceNextLink (body : Value) (headers : Headers) (nextLinkPath : String) (state : PaginationState) :
    Except FaucetError (Bool × PaginationState) :=
  match nextLinkAt libs body nextLinkPath with
  | .error error => .error error
  | .ok none => .ok (false, { state with nextLink := none })
  | .ok (some raw) =>
      match resolveAgainstRequest libs headers raw with
      | .error error =>
          .error (.source ("next-link path '" ++ nextLinkPath ++ "' returned '" ++ raw ++ "': " ++ error.text))
      | .ok link => .ok (followToken link ({ state with nextLink := some link }.noteRequestUrl headers))

/-- The guard against a page that was returned before. -/
def guardPage (style : String) (body : Value) (state : PaginationState) :
    Except FaucetError (Bool × PaginationState) :=
  let fingerprint := state.currentRecordsFingerprint.getD (bodyFingerprint libs body)
  match { state with currentRecordsFingerprint := none }.pageRepeats fingerprint style with
  | .error error => .error error
  | .ok (true, state) => .ok (false, { state with currentPageIsDuplicate := true })
  | .ok (false, state) => .ok (true, { state with previousPageFingerprint := some fingerprint })

def advancePageNumber (body : Value) (state : PaginationState) (recordCount : Nat) :
    Except FaucetError (Bool × PaginationState) :=
  let turned := { state with page := state.page + 1 }
  if recordCount = 0 then .ok (false, turned) else guardPage libs "PageNumber" body turned

/-- `offset::advance`: whether rows are left, and the offset after the page. -/
def offsetAdvance (body : Value) (offset recordCount : Nat) (totalPath : Option String) :
    Except FaucetError (Bool × Nat) :=
  if recordCount = 0 then .ok (false, offset)
  else
    match totalPath with
    | none => .ok (true, offset + recordCount)
    | some path =>
        match libs.query body path with
        | .error message => .error (.jsonPath message)
        | .ok results =>
            match results.head?.bind Value.asU64 with
            | some total => .ok (decide (offset + recordCount < total), offset + recordCount)
            | none => .ok (true, offset + recordCount)

/-- A total that the offset is compared with. -/
def totalReadable (body : Value) (totalPath : Option String) : Bool :=
  match totalPath with
  | none => false
  | some path =>
      match libs.query body path with
      | .error _ => false
      | .ok results => (results.head?.bind Value.asU64).isSome

def stopsShort (stopWhenShort : Bool) (recordCount limit : Nat) (body : Value) (totalPath : Option String) : Bool :=
  stopWhenShort && decide (recordCount < limit) && !totalReadable libs body totalPath

def advanceOffset (limit : Nat) (totalPath rowsPath : Option String) (stopWhenShort : Bool) (body : Value)
    (state : PaginationState) (recordCount : Nat) : Except FaucetError (Bool × PaginationState) :=
  match countOf libs body rowsPath recordCount with
  | .error error => .error error
  | .ok count =>
      match offsetAdvance libs body state.offset count totalPath with
      | .error error => .error error
      | .ok (more, offset) =>
          let moved := { state with offset := offset }
          if more && !stopsShort libs stopWhenShort count limit body totalPath then
            -- A total is taken to end the walk, so its pages are not compared.
            match totalPath with
            | none => guardPage libs "Offset" body moved
            | some _ => .ok (true, moved)
          else .ok (false, moved)

def advanceOffsetInBody (limit : Nat) (stopWhenShort : Bool) (rowsPath totalPath : Option String) (body : Value)
    (state : PaginationState) (recordCount : Nat) : Except FaucetError (Bool × PaginationState) :=
  match countOf libs body rowsPath recordCount with
  | .error error => .error error
  | .ok count =>
      if count = 0 then .ok (false, state)
      else
        let moved := { state with offset := state.offset + count }
        match (match totalPath with
          | some path => readTotal libs body path
          | none => .ok none : Except FaucetError (Option Nat)) with
        | .error error => .error error
        | .ok (some total) =>
            if total ≤ moved.offset then .ok (false, moved) else guardPage libs "OffsetInBody" body moved
        | .ok none =>
            if stopWhenShort && decide (count < limit) then .ok (false, moved)
            else guardPage libs "OffsetInBody" body moved

/-- `value_to_param_string`. -/
def valueToParamString : Value -> String
  | .string text => text
  | other => other.text

def advanceRecordCursor (stopWhenShort : Bool) (pageSize : Nat) (state : PaginationState) (recordCount : Nat) :
    Except FaucetError (Bool × PaginationState) :=
  if recordCount = 0 then .ok (false, state)
  else if stopWhenShort && decide (recordCount < pageSize) then .ok (false, state)
  else
    match state.recordFieldCursor.map valueToParamString with
    | some cursor =>
        if state.previousToken = some cursor then
          if pageSize ≤ recordCount then
            .error (.source ("rest: RecordFieldCursor did not advance past Some(" ++ libs.debug cursor ++
              ") on a full page — more than a page of rows share that value, or the feed is " ++
              "not ordered by the cursor field; stopping here would silently skip the rest"))
          else .ok (false, state)
        else .ok (true, { state with previousToken := some cursor })
    | none => .ok (true, { state with previousToken := none })

def PaginationStyle.advance (style : PaginationStyle) (body : Value) (headers : Headers) (state : PaginationState)
    (recordCount : Nat) : Except FaucetError (Bool × PaginationState) :=
  match style with
  | .none => .ok (false, state)
  | .cursor path => advanceCursor libs body path state
  | .cursorInBody path => advanceCursor libs body path state
  | .linkHeader => advanceLinkHeader libs headers state
  | .nextLinkInBody path => advanceNextLink libs body headers path state
  | .pageNumber => advancePageNumber libs body state recordCount
  | .offset limit totalPath rowsPath stopWhenShort =>
      advanceOffset libs limit totalPath rowsPath stopWhenShort body state recordCount
  | .offsetInBody limit stopWhenShort rowsPath totalPath =>
      advanceOffsetInBody libs limit stopWhenShort rowsPath totalPath body state recordCount
  | .recordFieldCursor _ _ stopWhenShort pageSize _ =>
      advanceRecordCursor libs stopWhenShort pageSize state recordCount

end Walk

/-! ## The keyset cursor -/

section Keyset

variable {Moment : Type} [LinearOrder Moment] (chrono : Chrono Moment)

/-- Whether a value takes the place of the cursor. -/
def wins (agg : RecordCursorAgg) (candidate current : Value) : Bool :=
  match agg with
  | .max => jsonGt chrono candidate current
  | .min => jsonGt chrono current candidate

def pickCursor (agg : RecordCursorAgg) (current candidate : Value) : Value :=
  if wins chrono agg candidate current then candidate else current

/-- The largest or smallest value of the field on a page. -/
def pageAggregate (field : String) (agg : RecordCursorAgg) (records : List Value) : Option Value :=
  match records.filterMap (fun record => record.get field) with
  | [] => none
  | first :: rest => some (rest.foldl (pickCursor chrono agg) first)

def updateRecordCursor (field : String) (agg : RecordCursorAgg) (records : List Value)
    (cursor : Option Value) : Option Value :=
  match pageAggregate chrono field agg records, cursor with
  | none, cursor => cursor
  | some page, some previous => some (pickCursor chrono agg previous page)
  | some page, none => some page

/-- Drop the copies of the records that were emitted at the boundary value. -/
def dropEmitted (field : String) (boundary : Value) : List Value -> Multiset String -> List Value × Multiset String
  | [], emitted => ([], emitted)
  | record :: rest, emitted =>
      if record.get field = some boundary ∧ rowFingerprint record ∈ emitted then
        dropEmitted field boundary rest (emitted.erase (rowFingerprint record))
      else
        let later := dropEmitted field boundary rest emitted
        (record :: later.1, later.2)

/-- The records of a page that stand at a value, as they are counted. -/
def atCursor (field : String) (cursor : Value) (records : List Value) : Multiset String :=
  ((records.filter (fun record => record.get field == some cursor)).map rowFingerprint : List String)

/-- The records to emit, and the state after the page. -/
def PaginationStyle.keysetPage (style : PaginationStyle) (records : List Value) (state : PaginationState) :
    List Value × PaginationState :=
  match style with
  | .recordFieldCursor field agg _ _ inclusive =>
      let before := state.recordFieldCursor
      let (kept, emitted) :=
        match inclusive, before with
        | true, some boundary => dropEmitted field boundary records state.recordCursorBoundary
        | _, _ => (records, state.recordCursorBoundary)
      let after := updateRecordCursor chrono field agg kept before
      match inclusive, after with
      | true, some reached =>
          let counted := if before = some reached then emitted else 0
          (kept, { state with
            recordFieldCursor := after
            recordCursorBoundary := counted + atCursor field reached kept })
      | _, _ => (kept, { state with recordFieldCursor := after, recordCursorBoundary := emitted })
  | _ => (records, state)

end Keyset

end Rest
end FaucetStream
