import FaucetStream.Keys.ParentValue
import FaucetStream.Library.Segments

namespace FaucetStream
namespace Keys

open Json
open Library

/-!
# Reading state keys

A key is read back under the namespace of its pipeline.  The segments behind
the namespace are cut at every separator, and a marker is found by its
position: the first segment for a marker of the pipeline, a later one for a
marker of an invocation.  The row stands in front.
-/

/-! ## The parser -/

/-- `str::split` on the separator. -/
def segments (text : String) : List String := (splitDouble ':' text.toList).map String.ofList

def join (segments : List String) : String := KEY_SEPARATOR.intercalate segments

/-- The marker a segment and the segments behind it spell. -/
def suffixAt (segment : String) (behind : List String) : Option KeySuffix :=
  if segment = "__sla__" ∧ behind = [] then some .sla
  else if segment = "__profiling__" ∧ behind = [] then some .profiling
  else if segment = "__status__" ∧ behind = [] then some .status
  else if segment = "__lease__" ∧ behind = [] then some .lease
  else if segment = "__rollback__" ∧ behind ≠ [] then some (.rollbackRun (join behind))
  else if segment = "__rollback__" then some .rollbackIndex
  else none

/-- The first marker among the segments from an index on. -/
def findMarker (index : Nat) : List String -> Option (Nat × KeySuffix)
  | [] => none
  | segment :: behind =>
      match suffixAt segment behind with
      | some suffix => some (index, suffix)
      | none => findMarker (index + 1) behind

namespace StateKey

/-- The key of an invocation, or one of its markers. -/
def parseInvocation (base : StateKey) (first : String) (later : List String) : StateKey :=
  let marker := findMarker 1 later
  let stop := marker.elim (later.length + 1) Prod.fst
  -- A backfill unit's row id has segments of its own.
  let rowEnd := if first = "backfill" ∧ 1 < stop then stop else 1
  let named := base.withRow (join ((first :: later).take rowEnd))
  let placed := if rowEnd < stop then named.withSub (join (((first :: later).take stop).drop rowEnd)) else named
  marker.elim placed (fun marker => placed.withSuffix marker.2)

def parseSegments (base : StateKey) (first : String) (later : List String) : StateKey :=
  if first = "__replication__" ∧ later = [] then base.withSuffix .replication
  else if first = "__backfill__" ∧ later ≠ [] then base.withSuffix (.backfill (join later))
  else if first = "__serve_backfill__" ∧ later ≠ [] then base.withSuffix (.serveBackfill (join later))
  else base.parseInvocation first later

/-- Decode a key under the namespace of a pipeline. -/
def parse (tenant : Option String) (pipeline key : String) : Option StateKey :=
  let base := (StateKey.pipeline pipeline).withTenant tenant
  match (key.toList.dropPrefix? base.keyNamespace.toList).bind (fun rest =>
      rest.dropPrefix? KEY_SEPARATOR.toList) with
  | none => none
  | some rest =>
      if rest.isEmpty then none
      else
        match segments (String.ofList rest) with
        | [] => none
        | first :: later => some (base.parseSegments first later)

end StateKey

/-! ## Valid rows -/

def RESERVED_IDS : List String :=
  ["env", "file", "secret", "matrix", "pipeline", "now", "backfill", "tenant", "param", "partition", "bookmark",
    "job_id", "window", "faucet"]

/-- Letters, digits, underscores and dashes. -/
def isRowId (id : String) : Bool :=
  !id.isEmpty && id.toList.all (fun character => character.isAlphanum || character == '_' || character == '-')

/-- The row ids a configuration may use. -/
def acceptsRowId (id : String) : Bool := !RESERVED_IDS.contains id && isRowId id

/-! ## Texts of segments -/

/-- The characters of segments, each behind a separator. -/
def spelled (segments : List String) : List Char := behindMarks ':' (segments.map String.toList)

theorem spelled_append (front back : List String) : spelled (front ++ back) = spelled front ++ spelled back := by
  rw [spelled, List.map_append, behindMarks_append]
  rfl

theorem spelled_singleton (segment : String) : spelled [segment] = ':' :: ':' :: segment.toList := by
  rw [spelled, List.map_singleton, behindMarks_cons]
  exact congrArg (fun rest => ':' :: ':' :: rest) (List.append_nil _)

theorem spelled_join {segments : List String} (nonempty : segments ≠ []) :
    ':' :: ':' :: (join segments).toList = spelled segments := by
  have filled : segments.map String.toList ≠ [] := fun empty => nonempty (List.map_eq_nil_iff.mp empty)
  rw [spelled, behindMarks_eq_intercalate ':' filled, join, String.toList_intercalate]
  rfl

theorem spelled_segments (text : String) : spelled (segments text) = ':' :: ':' :: text.toList := by
  have texts : (segments text).map String.toList = splitDouble ':' text.toList := by
    rw [segments, List.map_map]
    have same : String.toList ∘ String.ofList = id := funext (fun _ => String.toList_ofList)
    rw [same, List.map_id]
  rw [spelled, texts, behindMarks_splitDouble]

theorem segments_ne_nil (text : String) : segments text ≠ [] := by
  intro empty
  exact splitDouble_ne_nil ':' text.toList (List.map_eq_nil_iff.mp empty)

theorem join_segments (text : String) : join (segments text) = text := by
  have same := spelled_join (segments_ne_nil text)
  rw [spelled_segments] at same
  exact String.toList_inj.mp (List.cons.inj (List.cons.inj same).2).2

theorem toList_push {out : String} (filled : out ≠ "") (segment : String) :
    (push out segment).toList = out.toList ++ spelled [segment] := by
  have nonempty : ¬ out.isEmpty = true := fun empty => filled (String.isEmpty_iff.mp empty)
  rw [push, if_neg nonempty, String.toList_append, String.toList_append, List.append_assoc, spelled_singleton]
  rfl

theorem push_ne_empty {out : String} (filled : out ≠ "") (segment : String) : push out segment ≠ "" := by
  intro empty
  have texts := toList_push filled segment
  rw [empty, spelled_singleton] at texts
  exact List.append_ne_nil_of_right_ne_nil _ (List.cons_ne_nil _ _) texts.symm

/-! ## What a parsed key renders as -/

/-- The segments of a marker. -/
def KeySuffix.segments (suffix : KeySuffix) : List String := suffix.marker :: suffix.tail.toList

theorem toList_renderInto (suffix : KeySuffix) {out : String} (filled : out ≠ "") :
    (suffix.renderInto out).toList = out.toList ++ spelled suffix.segments := by
  unfold KeySuffix.renderInto KeySuffix.segments
  cases suffix.tail with
  | none => exact toList_push filled suffix.marker
  | some tail =>
      dsimp only
      rw [toList_push (push_ne_empty filled suffix.marker), toList_push filled, List.append_assoc, ← spelled_append]
      rfl

theorem suffixAt_spelled {segment : String} {behind : List String} {suffix : KeySuffix}
    (found : suffixAt segment behind = some suffix) :
    spelled suffix.segments = spelled (segment :: behind) ∧ suffix.isPipelineLevel = false := by
  unfold suffixAt at found
  split at found
  · rename_i here
    cases found
    rw [here.1, here.2]
    exact ⟨rfl, rfl⟩
  split at found
  · rename_i here
    cases found
    rw [here.1, here.2]
    exact ⟨rfl, rfl⟩
  split at found
  · rename_i here
    cases found
    rw [here.1, here.2]
    exact ⟨rfl, rfl⟩
  split at found
  · rename_i here
    cases found
    rw [here.1, here.2]
    exact ⟨rfl, rfl⟩
  split at found
  · rename_i here
    cases found
    refine ⟨?_, rfl⟩
    change spelled (["__rollback__"] ++ [join behind]) = spelled ([segment] ++ behind)
    rw [here.1, spelled_append, spelled_append, spelled_singleton (join behind), spelled_join here.2]
  split at found
  · rename_i several here
    cases found
    have nothing : behind = [] := by
      by_contra more
      exact several ⟨here, more⟩
    rw [here, nothing]
    exact ⟨rfl, rfl⟩
  · cases found

theorem findMarker_spelled {index place : Nat} {later : List String} {suffix : KeySuffix}
    (found : findMarker index later = some (place, suffix)) :
    exists skipped, place = index + skipped ∧ skipped < later.length ∧
      spelled suffix.segments = spelled (later.drop skipped) ∧ suffix.isPipelineLevel = false := by
  induction later generalizing index with
  | nil => cases found
  | cons segment behind ih =>
      unfold findMarker at found
      split at found
      · rename_i marker here
        cases found
        exact ⟨0, rfl, Nat.succ_pos _, suffixAt_spelled here⟩
      · rcases ih found with ⟨skipped, rfl, inside, same⟩
        exact ⟨skipped + 1, by omega, Nat.succ_lt_succ inside, same⟩

example : (StateKey.parse none "p" "p::r::a:b::__rollback__::x::y").map StateKey.render =
    some "p::r::a:b::__rollback__::x::y" := by decide +kernel

end Keys
end FaucetStream
