import FaucetStream.Delivery.Token
import FaucetStream.Keys.StateKey
import FaucetStream.Pipeline.Engine

namespace FaucetStream
namespace Topology

open Json
open Delivery

/-!
# Where a graph resumes

A graph has one source and many sinks, and every sink has its own position.
The source resumes where the sink behind all the others needs it to, and a sink
that is ahead leaves out what it has already committed.  It does so by the
position, since a replay need not cut its pages where the run before did.
-/

/-- What the graph asks of its source. -/
structure PositionSource where
  connectorName : String
  stateSchema : Nat
  migrateState : Nat -> Value -> Except FaucetError Value
  replayGuarantee : ReplayGuarantee
  positionLe : Value -> Value -> Option Bool
  positionMin : List Value -> Option Value
  recordCovered : Value -> Value -> Option Bool

/-- What it asks of a sink before the run. -/
structure TopologySink where
  supportsIdempotentWrites : Bool
  lastCommittedToken : String -> Except FaucetError (Option String)

structure SinkResume where
  /-- The sequence number the next page follows. -/
  startSeq : Nat
  /-- Changes up to here are left out. -/
  skipThrough : Option Value
  deriving DecidableEq

structure ResumePlan where
  start : Option Value
  sinks : List (String × SinkResume)
  deriving DecidableEq

/-- The key a sink node stores its position under. -/
def stateKeyOf (pipeline sink : String) : String := (Keys.StateKey.invocation pipeline sink).render

/-! ## The plan -/

/-- Without exactly-once delivery the sinks have to agree. -/
def startBookmark (sinkBookmarks : List Value) (sourceCount : Nat) : Option Value :=
  match sinkBookmarks with
  | [] => none
  | first :: rest =>
      if sourceCount ≠ 1 then none
      else if (first :: rest).any (fun bookmark => bookmark != first) then none
      else some first

def refusal (positions : List (String × Option Value × Nat)) (source : Option PositionSource) (pipeline : String) :
    FaucetError :=
  let committed := positions.map (fun (id, bookmark, seq) =>
    match bookmark with
    | some bookmark => "'" ++ id ++ "' at seq " ++ toString seq ++ " (" ++ bookmark.text ++ ")"
    | none => "'" ++ id ++ "' with no committed position")
  let keys := positions.map (fun (id, _, _) => "'" ++ stateKeyOf pipeline id ++ "'")
  .state ("topology exactly-once: the sink nodes committed different positions (" ++
    String.intercalate ", " committed ++ "), and the source '" ++
    (source.elim "unknown" PositionSource.connectorName) ++
    "' cannot order its positions (Source::position_le), so no resume point avoids both lost and duplicated " ++
    "records; resuming by page count is unsafe because a replay need not produce the same pages. To recover, " ++
    "either delete every sink node's state (" ++ String.intercalate ", " keys ++ ") and its commit-token " ++
    "watermark row under the same scope, then rerun to replay from the start (each sink re-writes what it " ++
    "already holds), or reset only the sinks that are ahead to the furthest-behind sink's position and accept " ++
    "duplicates in between; a source that implements Source::position_le resumes automatically. See the " ++
    "topology cookbook, \"Exactly-once delivery\"")

/-- What each sink resumes with. -/
def resumes (positions : List (String × Option Value × Nat)) (skip : Option Value -> Option Value) :
    List (String × SinkResume) :=
  positions.map (fun (id, bookmark, seq) => (id, ⟨seq, skip bookmark⟩))

/-- The positions differ: a source that orders them starts from the least, or
from its beginning when a sink has none. -/
def planOrdered (positions : List (String × Option Value × Nat)) (known : List Value) (source : PositionSource) :
    Option ResumePlan :=
  if known.head?.any (fun bookmark => (source.positionLe bookmark bookmark).isSome) then
    let allKnown := known.length == positions.length
    let start := if allKnown then source.positionMin known else none
    if start.isSome || !allKnown then
      some ⟨start, resumes positions (fun bookmark => bookmark.filter (fun bookmark => some bookmark != start))⟩
    else none
  else none

/-- The plan from each sink's position and sequence number. -/
def planExactlyOnce (positions : List (String × Option Value × Nat)) (sourceCount : Nat)
    (source : Option PositionSource) (pipeline : String) : Except FaucetError ResumePlan :=
  if sourceCount ≠ 1 then .ok ⟨none, resumes positions (fun _ => none)⟩
  else
    let known := positions.filterMap (fun position => position.2.1)
    if known.length == positions.length && known.all (fun bookmark => some bookmark == known.head?) then
      .ok ⟨known.head?, resumes positions (fun _ => none)⟩
    else
      match source.bind (planOrdered positions known) with
      | some plan => .ok plan
      | none =>
          if positions.all (fun (_, bookmark, seq) => bookmark.isNone && seq == 0) then
            .ok ⟨none, resumes positions (fun _ => none)⟩
          else .error (refusal positions source pipeline)

/-- A stored position, at the shape the source expects. -/
def storedPosition (get : String -> Except FaucetError (Option Value)) (source : Option PositionSource)
    (key : String) : Except FaucetError (Option Value) := do
  let stored <- get key
  match stored, source with
  | none, _ => pure none
  | some stored, some source => do
      let data <- resolveWith key stored source.connectorName source.stateSchema source.migrateState
      pure (some data)
  | some stored, none => pure (some (peelVersioned stored))

/-- The position a sink's token carries, when it is ahead of the stored one. -/
def anchoredAt (fromStr : String -> Option Value) (bookmark : Option Value) (seq : Nat) (token : Option String) :
    Option Value × Nat :=
  match token.bind (parseTokenParts fromStr) with
  | some (tokenSeq, some tokenBookmark) =>
      if seq < tokenSeq then (some tokenBookmark, tokenSeq) else (bookmark, seq)
  | _ => (bookmark, seq)

/-- What a sink has committed, from the store and from the sink itself. -/
def committedPosition (fromStr : String -> Option Value) (source : Option PositionSource) (key : String)
    (sink : Option TopologySink) (stored : Option Value) : Except FaucetError (Option Value × Nat) :=
  let (bookmark, seq) := (stored.map unwrapState).getD (none, 0)
  match sink, source with
  | some sink, some source =>
      if sink.supportsIdempotentWrites && source.replayGuarantee == .deterministic then do
        let token <- sink.lastCommittedToken key
        pure (anchoredAt fromStr bookmark seq token)
      else pure (bookmark, seq)
  | _, _ => pure (bookmark, seq)

def storedPositions (get : String -> Except FaucetError (Option Value)) (source : Option PositionSource)
    (pipeline : String) : List (String × Option TopologySink) -> Except FaucetError (List (Option Value))
  | [] => pure []
  | (id, _) :: sinks => do
      let stored <- storedPosition get source (stateKeyOf pipeline id)
      let rest <- storedPositions get source pipeline sinks
      pure (stored :: rest)

def committedPositions (fromStr : String -> Option Value) (source : Option PositionSource) (pipeline : String) :
    List ((String × Option TopologySink) × Option Value) -> Except FaucetError (List (String × Option Value × Nat))
  | [] => pure []
  | ((id, sink), stored) :: sinks => do
      let position <- committedPosition fromStr source (stateKeyOf pipeline id) sink stored
      let rest <- committedPositions fromStr source pipeline sinks
      pure ((id, position) :: rest)

def computeResume (store : Option (String -> Except FaucetError (Option Value))) (fromStr : String -> Option Value)
    (pipeline : String) (sinks : List (String × Option TopologySink)) (sourceCount : Nat) (delivery : DeliveryMode)
    (source : Option PositionSource) : Except FaucetError ResumePlan :=
  match store with
  | none => .ok ⟨none, []⟩
  | some get =>
      if sinks.isEmpty then .ok ⟨none, []⟩
      else do
        let stored <- storedPositions get source pipeline sinks
        match delivery with
        | .atLeastOnce =>
            if stored.any Option.isNone then pure ⟨none, []⟩
            else pure ⟨startBookmark (stored.filterMap id) sourceCount, []⟩
        | .exactlyOnce => do
            let positions <- committedPositions fromStr source pipeline (sinks.zip stored)
            planExactlyOnce positions sourceCount source pipeline

/-! ## A sink's pages -/

/-- Where a replayed page stands to the position of a sink. -/
inductive PageCoverage where
  | committed
  | straddles
  | past
  deriving DecidableEq

def coveredPage (source : PositionSource) (page : Pipeline.StreamPage) (through : Value) : PageCoverage :=
  match page.bookmark with
  | none => .straddles
  | some bookmark =>
      if source.positionLe bookmark through = some true then .committed
      else if source.positionLe through bookmark = some true then .past
      else .straddles

/-- Leave out the records the sink has.  One the source cannot place is kept by
a sink that deduplicates by key, and refused by the others. -/
def trimCovered (records : List Value) (source : PositionSource) (through : Value) (keyed : Bool) (sink : String) :
    Except FaucetError (List Value) :=
  if records.any (fun record => (source.recordCovered record through).isNone) && !keyed then
    .error (.state ("topology exactly-once: a replayed page straddles the position sink '" ++ sink ++
      "' already committed, and source '" ++ source.connectorName ++ "' cannot tell from a record reaching it " ++
      "whether it was delivered — a transform removed the source's position fields (" ++
      "`topic` / `partition` / `offset` for kafka, `lsn` for postgres-cdc / mysql-cdc / mssql-cdc). Keep those " ++
      "fields until the sink, or write with `write_mode: upsert` + `key`"))
  else .ok (records.filter (fun record => !(source.recordCovered record through).getD false))

/-- What a sink node hands to its run, of the pages it receives.  `failure` is
the node that failed before it, with its error, when the input closes. -/
def sinkPages (source : Option PositionSource) (keyed : Bool) (sink : String) (failure : Option (String × String)) :
    Option Value -> List Pipeline.StreamPage -> List (Except FaucetError Pipeline.StreamPage)
  | _, [] =>
      match failure with
      | some (node, error) =>
          [.error (.source ("upstream node '" ++ node ++ "' failed, so sink '" ++ sink ++
            "' did not receive its complete input: " ++ error))]
      | none => []
  | skipThrough, page :: pages =>
      match skipThrough, source with
      | some through, some positions =>
          if coveredPage positions page through = .committed then
            sinkPages source keyed sink failure (some through) pages
          else
            match trimCovered page.records positions through keyed sink with
            | .error error => [.error error]
            | .ok records =>
                .ok ⟨records, page.bookmark⟩ :: sinkPages source keyed sink failure
                  (if coveredPage positions page through = .past then none else some through) pages
      | _, _ => .ok page :: sinkPages source keyed sink failure skipThrough pages

end Topology
end FaucetStream
