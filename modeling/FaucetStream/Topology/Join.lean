import Mathlib.Logic.Function.Basic
import FaucetStream.Error
import FaucetStream.KeyedWrites.Plan
import FaucetStream.Pipeline.Engine

namespace FaucetStream
namespace Topology

open Json
open KeyedWrites (keyScalarText)

/-!
# The hash join

A join node reads its build side to the end, into an index by key, and then
enriches the records of its probe side page by page with fields of the build
records under their key.
-/

/-- What becomes of a probe record without a match. -/
inductive JoinMode where
  | inner
  | left
  deriving DecidableEq

/-- Which of several matches count. -/
inductive OnDuplicate where
  | first
  | cartesian
  deriving DecidableEq

def OnDuplicate.taken (policy : OnDuplicate) (bucket : List Value) : List Value :=
  match policy with
  | .first => bucket.take 1
  | .cartesian => bucket

/-- What becomes of a projected name that the probe record has already. -/
inductive OnCollision where
  | overwrite
  | skip
  | error
  deriving DecidableEq

inductive KeyNormalize where
  | preserve
  | stringify
  deriving DecidableEq

/-- A path of the build record and the name it gets on the probe record. -/
structure Projection where
  path : String
  name : String

structure JoinConfig where
  mode : JoinMode
  buildKey : String
  probeKey : String
  projections : List Projection
  onMissing : Value
  onDuplicate : OnDuplicate
  onCollision : OnCollision
  keyNormalize : KeyNormalize
  maxBuildRecords : Nat

structure JoinStats where
  buildRecords : Nat := 0
  buildNulls : Nat := 0
  duplicates : Nat := 0
  probeRecords : Nat := 0
  matched : Nat := 0
  missed : Nat := 0
  projectMisses : Nat := 0
  deriving DecidableEq

structure HashJoin where
  config : JoinConfig
  /-- The build records under each key, in build order. -/
  index : String -> List Value
  stats : JoinStats

/-! ## Paths, fields and keys -/

def descend : Value -> List String -> Option Value
  | value, [] => some value
  | .object entries, segment :: rest => (entries.lookup segment).bind (fun inner => descend inner rest)
  | _, _ :: _ => none

/-- The value at a dotted path, through objects only. -/
def getPath (value : Value) (path : String) : Option Value :=
  if path.isEmpty then some value else descend value ((path.toList.splitOn '.').map String.ofList)

/-- `Map::insert`: in place, or behind the other entries. -/
def setEntry (entries : List (String × Value)) (name : String) (value : Value) : List (String × Value) :=
  if (entries.lookup name).isSome then
    entries.map (fun entry => if entry.1 = name then (name, value) else entry)
  else entries ++ [(name, value)]

def setField (left : Value) (name : String) (value : Value) (onCollision : OnCollision) :
    Except FaucetError Value :=
  match left with
  | .object entries =>
      if (entries.lookup name).isSome then
        match onCollision with
        | .overwrite => .ok (.object (setEntry entries name value))
        | .skip => .ok left
        | .error => .error (.transform ("join projection '" ++ name ++
            "' collides with an existing field (on_collision: error)"))
      else .ok (.object (setEntry entries name value))
  | _ => .error (.transform "join can only enrich object-shaped records")

/-- A scalar as a key of the index. -/
def canonicalKey (value : Value) (mode : KeyNormalize) : Option String :=
  match mode, value with
  | .preserve, .string text => some ("s:" ++ text)
  | .preserve, .number amount => some ("n:" ++ keyScalarText (.number amount))
  | .preserve, .bool flag => some ("b:" ++ (Value.bool flag).text)
  | .stringify, .string text => some text
  | .stringify, .number amount => some (keyScalarText (.number amount))
  | .stringify, .bool flag => some (Value.bool flag).text
  | _, _ => none

/-- The key of a record; a null or absent one is no key. -/
def keyAt (mode : KeyNormalize) (path : String) (record : Value) : Option String :=
  ((getPath record path).filter (fun key => !key.isNull)).bind (fun key => canonicalKey key mode)

/-- Copy the projected fields of a build record, or what stands for a missing
one, onto a probe record. -/
def applyProjection (config : JoinConfig) (right : Option Value) :
    List Projection -> JoinStats -> Value -> Except FaucetError (Value × JoinStats)
  | [], stats, left => .ok (left, stats)
  | projection :: rest, stats, left =>
      match right.elim (some config.onMissing) (fun right => getPath right projection.path) with
      | none => applyProjection config right rest { stats with projectMisses := stats.projectMisses + 1 } left
      | some value =>
          match setField left projection.name value config.onCollision with
          | .error error => .error error
          | .ok enriched => applyProjection config right rest stats enriched

/-! ## The two sides -/

def buildOverflow (config : JoinConfig) : FaucetError :=
  .transform ("join build side exceeded max_build_records (" ++ toString config.maxBuildRecords ++
    "); raise the limit or partition the join")

namespace HashJoin

def new (config : JoinConfig) : HashJoin := ⟨config, fun _ => [], {}⟩

def addBuildRecord (join : HashJoin) (record : Value) : Except FaucetError HashJoin :=
  let stats := { join.stats with buildRecords := join.stats.buildRecords + 1 }
  if join.config.maxBuildRecords < stats.buildRecords then .error (buildOverflow join.config)
  else
    match keyAt join.config.keyNormalize join.config.buildKey record with
    | none => .ok { join with stats := { stats with buildNulls := stats.buildNulls + 1 } }
    | some key =>
        let duplicates := if (join.index key).length = 1 then stats.duplicates + 1 else stats.duplicates
        .ok { join with
          index := Function.update join.index key (join.index key ++ [record])
          stats := { stats with duplicates := duplicates } }

def addBuildPage (join : HashJoin) (records : List Value) : Except FaucetError HashJoin :=
  records.foldlM addBuildRecord join

/-- Enrich one probe record with each of the matches taken. -/
def enrichAll (config : JoinConfig) (left : Value) : List Value -> JoinStats ->
    Except FaucetError (List Value × JoinStats)
  | [], stats => .ok ([], stats)
  | right :: rest, stats => do
      let (enriched, stats) <- applyProjection config (some right) config.projections stats left
      let (others, stats) <- enrichAll config left rest stats
      pure (enriched :: others, stats)

def probeRecord (join : HashJoin) (left : Value) : Except FaucetError (List Value × HashJoin) :=
  let stats := { join.stats with probeRecords := join.stats.probeRecords + 1 }
  let bucket := (keyAt join.config.keyNormalize join.config.probeKey left).elim [] join.index
  if bucket.isEmpty then
    let stats := { stats with missed := stats.missed + 1 }
    match join.config.mode with
    | .inner => .ok ([], { join with stats := stats })
    | .left => do
        let (enriched, stats) <- applyProjection join.config none join.config.projections stats left
        pure ([enriched], { join with stats := stats })
  else do
    let (enriched, stats) <- enrichAll join.config left (join.config.onDuplicate.taken bucket)
      { stats with matched := stats.matched + 1 }
    pure (enriched, { join with stats := stats })

def probePage (join : HashJoin) : List Value -> Except FaucetError (List Value × HashJoin)
  | [] => .ok ([], join)
  | left :: records => do
      let (enriched, join) <- probeRecord join left
      let (others, join) <- probePage join records
      pure (enriched ++ others, join)

/-- The pages of the probe side, one after the other, and the counters at the
end. -/
def probePages (join : HashJoin) : List Pipeline.StreamPage -> List Pipeline.StreamPage × Except FaucetError JoinStats
  | [] => ([], .ok join.stats)
  | page :: pages =>
      match join.probePage page.records with
      | .error error => ([], .error error)
      | .ok (records, join) =>
          let (rest, ending) := probePages join pages
          (⟨records, page.bookmark⟩ :: rest, ending)

end HashJoin

def buildSideFailed (node failed error : String) : FaucetError :=
  .source ("join '" ++ node ++ "': build-side node '" ++ failed ++
    "' failed, so its hash table is incomplete and nothing was probed: " ++ error)

/-- A join node: the pages it forwards and how it ends.  `failure` is the node
that failed before the build side was complete, with its error. -/
def joinNode (node : String) (config : JoinConfig) (buildPages : List (List Value))
    (failure : Option (String × String)) (cancelled : Bool) (probePages : List Pipeline.StreamPage) :
    List Pipeline.StreamPage × Except FaucetError (Option JoinStats) :=
  match buildPages.foldlM HashJoin.addBuildPage (HashJoin.new config) with
  | .error error => ([], .error error)
  | .ok join =>
      match failure with
      | some (failed, error) => ([], .error (buildSideFailed node failed error))
      | none =>
          if cancelled then ([], .ok none)
          else
            let (pages, ending) := join.probePages probePages
            (pages, ending.map some)

end Topology
end FaucetStream
