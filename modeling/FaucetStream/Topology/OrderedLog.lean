import FaucetStream.Topology.Resume
import Mathlib.Data.List.Basic

namespace FaucetStream
namespace Topology

open Json
open Delivery

/-!
# Replaying an ordered log

The source of a graph is a log with positions in a total order, and it says of
each record whether a position covers it.  The replay starts where the sink
behind all the others stands.  Behind its filter a sink node sees a replay from
its own position, whatever the pages of the replay are.

The order has to be total.  Where positions are a count for each partition, a
page may straddle the position of a sink, and its bookmark then covers less than
the sink has already committed.
-/

/-- A log whose positions are in a total order. -/
structure OrderedLog where
  log : List Value
  source : PositionSource
  /-- The bookmarks the source gives out. -/
  issued : Value -> Prop
  not_null : forall {bookmark}, issued bookmark -> bookmark.isNull = false
  total : forall {first second}, issued first -> issued second ->
    source.positionLe first second = some true ∨ source.positionLe second first = some true
  /-- A later position covers what an earlier one covers. -/
  monotone : forall {first second record}, issued first -> issued second ->
    source.positionLe first second = some true -> record ∈ log ->
    source.recordCovered record first = some true -> source.recordCovered record second = some true
  classified : forall {bookmark record}, issued bookmark -> record ∈ log ->
    (source.recordCovered record bookmark).isNone = false
  least : forall {positions}, positions ≠ [] -> (forall bookmark, bookmark ∈ positions -> issued bookmark) ->
    exists start, source.positionMin positions = some start ∧ issued start ∧
      forall bookmark, bookmark ∈ positions -> source.positionLe start bookmark = some true
  replays : source.replayGuarantee = .deterministic
  schema_small : source.stateSchema < 2 ^ 32

namespace OrderedLog

variable (origin : OrderedLog)

/-- Whether a position covers a record; no position covers nothing. -/
def covers (position : Option Value) (record : Value) : Bool :=
  position.elim false (fun bookmark => (origin.source.recordCovered record bookmark).getD false)

/-- The records a position covers. -/
def held (position : Option Value) : List Value := origin.log.filter (origin.covers position)

/-- What the source may yield from a position on, in pages cut anywhere that
each carry a bookmark. -/
inductive Replays : Option Value -> List Pipeline.StreamPage -> Prop
  | done (position : Option Value) : Replays position []
  | page {position : Option Value} {bookmark : Value} {records : List Value} {rest : List Pipeline.StreamPage}
      (issued : origin.issued bookmark)
      (adds : (origin.held position ++ records).Perm (origin.held (some bookmark)))
      (more : Replays (some bookmark) rest) : Replays position (⟨records, some bookmark⟩ :: rest)

/-- What a run is fed from a position on. -/
inductive Follows : Option Value -> List (Except FaucetError Pipeline.StreamPage) -> Prop
  | done (position : Option Value) : Follows position []
  | broken (position : Option Value) (error : FaucetError) (rest : List (Except FaucetError Pipeline.StreamPage)) :
      Follows position (.error error :: rest)
  | page {position : Option Value} {bookmark : Value} {records : List Value}
      {rest : List (Except FaucetError Pipeline.StreamPage)} (issued : origin.issued bookmark)
      (adds : (origin.held position ++ records).Perm (origin.held (some bookmark)))
      (more : Follows (some bookmark) rest) : Follows position (.ok ⟨records, some bookmark⟩ :: rest)

/-- A position is at or before another. -/
def Before (first : Option Value) (second : Value) : Prop :=
  forall record, record ∈ origin.log -> origin.covers first record = true -> origin.covers (some second) record = true

variable {origin} {position : Option Value} {bookmark through : Value} {records : List Value}
  {pages : List Pipeline.StreamPage} {keyed : Bool} {sink : String} {failure : Option (String × String)}

theorem covers_eq_true {record : Value} :
    origin.covers (some bookmark) record = true <-> origin.source.recordCovered record bookmark = some true := by
  unfold covers
  rw [Option.elim_some]
  cases origin.source.recordCovered record bookmark with
  | none => constructor <;> intro impossible <;> cases impossible
  | some covered => exact Option.some_inj.symm

theorem before_of_le (first : origin.issued bookmark) (second : origin.issued through)
    (le : origin.source.positionLe bookmark through = some true) : origin.Before (some bookmark) through := by
  intro record member covered
  rw [covers_eq_true] at covered ⊢
  exact origin.monotone first second le member covered

theorem before_none : origin.Before none through := nofun

/-! ## The filter of a node -/

/-- The input closes, or a node before this one has failed. -/
theorem follows_end (position skip : Option Value) :
    origin.Follows position (sinkPages (some origin.source) keyed sink failure skip []) := by
  unfold sinkPages
  cases failure with
  | none => exact .done position
  | some failed => exact .broken position _ []

/-- A node that leaves out nothing. -/
theorem follows_plain (replays : origin.Replays position pages) :
    origin.Follows position (sinkPages (some origin.source) keyed sink failure none pages) := by
  induction replays with
  | done position => exact follows_end position none
  | page issued adds more ih => exact .page issued adds ih

/-- The records of a page are in the log. -/
theorem mem_log_of_adds (adds : (origin.held position ++ records).Perm (origin.held (some bookmark)))
    {record : Value} (member : record ∈ records) : record ∈ origin.log :=
  List.mem_of_mem_filter (adds.subset (List.mem_append_right _ member))

theorem trimCovered_eq (issued : origin.issued through)
    (inside : forall record, record ∈ records -> record ∈ origin.log) :
    trimCovered records origin.source through keyed sink =
      .ok (records.filter (fun record => !origin.covers (some through) record)) := by
  have known : records.any (fun record => (origin.source.recordCovered record through).isNone) = false := by
    rw [List.any_eq_false]
    intro record member
    rw [origin.classified issued (inside record member)]
    exact Bool.false_ne_true
  unfold trimCovered
  rw [known]
  rfl

/-- Behind the position of the node, its records and the rest of the page are
what the page's bookmark covers. -/
theorem adds_trimmed (adds : (origin.held position ++ records).Perm (origin.held (some bookmark)))
    (behind : origin.Before position through) (ahead : origin.Before (some through) bookmark) :
    (origin.held (some through) ++ records.filter (fun record => !origin.covers (some through) record)).Perm
      (origin.held (some bookmark)) := by
  have split := List.filter_append_perm (origin.covers (some through)) (origin.held (some bookmark))
  have covered : (origin.held (some bookmark)).filter (origin.covers (some through)) = origin.held (some through) := by
    unfold held
    rw [List.filter_filter]
    refine List.filter_congr (fun record member => ?_)
    cases mark : origin.covers (some through) record with
    | false => exact Bool.false_and _
    | true =>
        rw [ahead record member mark]
        rfl
  have fresh : (origin.held position).filter (fun record => !origin.covers (some through) record) = [] := by
    refine List.filter_eq_nil_iff.mpr (fun record member => ?_)
    rw [behind record (List.mem_of_mem_filter member) (List.mem_filter.mp member).2]
    exact Bool.false_ne_true
  have rest := adds.filter (fun record => !origin.covers (some through) record)
  rw [List.filter_append, fresh, List.nil_append] at rest
  rw [covered] at split
  exact (rest.append_left _).trans split

/-- Behind its filter a node sees a replay from its own position. -/
theorem follows_skipping (replays : origin.Replays position pages) (issued : origin.issued through)
    (behind : origin.Before position through) :
    origin.Follows (some through) (sinkPages (some origin.source) keyed sink failure (some through) pages) := by
  induction replays with
  | done position => exact follows_end (some through) (some through)
  | @page position bookmark records rest given adds more ih =>
      unfold sinkPages
      dsimp only
      by_cases le : origin.source.positionLe bookmark through = some true
      · have committed : coveredPage origin.source ⟨records, some bookmark⟩ through = .committed := if_pos le
        rw [if_pos committed]
        exact ih (before_of_le given issued le)
      · have ge : origin.source.positionLe through bookmark = some true :=
          (origin.total given issued).resolve_left le
        have past : coveredPage origin.source ⟨records, some bookmark⟩ through = .past :=
          (if_neg le).trans (if_pos ge)
        rw [past, if_neg (by decide), trimCovered_eq issued (fun _ => mem_log_of_adds adds), if_pos rfl]
        exact .page given (adds_trimmed adds behind (before_of_le issued given ge)) (follows_plain more)

end OrderedLog

end Topology
end FaucetStream
