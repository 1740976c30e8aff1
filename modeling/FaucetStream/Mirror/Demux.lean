import Mathlib.Logic.Function.Basic
import FaucetStream.Error
import FaucetStream.Mirror.Router

namespace FaucetStream
namespace Mirror

/-!
# One change stream, many tables

The demultiplexer reads the shared stream once and hands each table its
records, with the stream's own bookmarks.  The stream resumes from the earliest
table; every table skips what it has already applied.  What the other tasks do
is given by a schedule: when the cycle is cancelled, what the clock shows, and
whether a table's pipeline still takes a page.
-/

universe u v

variable {Record : Type u} {Position : Type v}

structure StreamPage (Record : Type u) (Position : Type v) where
  records : List Record
  bookmark : Option Position

/-- What the demultiplexer asks of a source.  A stream is its pages and the
error it ends with, if any. -/
structure Source (Record : Type u) (Position : Type v) where
  connectorName : String
  recordTable : Record -> Option String
  positionLe : Position -> Position -> Option Bool
  recordCovered : Record -> Position -> Option Bool
  positionMin : List Position -> Option Position
  applyStartBookmark : Position -> Except FaucetError Unit
  streamPages : Option Position -> List (StreamPage Record Position) × Option FaucetError

/-- The default `position_min`: the position ordered at or before all the
others. -/
def defaultPositionMin [DecidableEq Position] (positionLe : Position -> Position -> Option Bool)
    (positions : List Position) : Option Position :=
  match positions with
  | [] => none
  | first :: rest =>
      if (first :: rest).all (fun other => other = first) then some first
      else (first :: rest).find? (fun candidate =>
        (first :: rest).all (fun other => positionLe candidate other == some true))

/-- How often an idle table is sent a bookmark-only page, in milliseconds. -/
def IDLE_FLUSH : Nat := 5000

/-- A table's feed: the position its pipeline reports once it has opened, or
`none` when it never opens or the cycle is cancelled before. -/
structure TableFeed (Position : Type v) where
  table : String
  ready : Option (Option Position)

structure TableLive where
  changes : Nat := 0
  lastAppliedAt : Option Nat := none

structure FeedState (Record : Type u) (Position : Type v) where
  table : String
  /-- The channel is still there. -/
  tx : Bool := true
  position : Option Position
  lastSent : Option Position := none
  lastSentAt : Nat
  live : TableLive := {}
  /-- The pages the table took. -/
  received : List (StreamPage Record Position) := []

structure Schedule where
  /-- The cycle is cancelled before the stream starts. -/
  cancelledEarly : Bool
  /-- The cycle is cancelled before this page is read. -/
  cancelled : Nat -> Bool
  openedAt : String -> Nat
  now : Nat -> String -> Nat
  /-- The table takes what it is sent with this page. -/
  takes : Nat -> String -> Bool

variable (source : Source Record Position)

/-- Where a record goes. -/
def Source.routeOf (router : Router) (record : Record) : Option Route :=
  (source.recordTable record).map router.route

namespace FeedState

/-- Hand a page to the table; a channel that does not take it is gone. -/
def send (state : FeedState Record Position) (page : StreamPage Record Position) (taken : Bool) (now : Nat) :
    FeedState Record Position :=
  if !state.tx then state
  else if !taken then { state with tx := false }
  else
    let sent := if page.bookmark.isSome then { state with lastSent := page.bookmark, lastSentAt := now } else state
    { sent with
      received := state.received ++ [page]
      live := {
        changes := state.live.changes + page.records.length
        lastAppliedAt := if sent.lastSent.isSome then some now else state.live.lastAppliedAt } }

/-- The table has already committed everything up to the bookmark. -/
def covers (state : FeedState Record Position) (bookmark : Option Position) : Bool :=
  match bookmark, state.position with
  | some bookmark, some position => source.positionLe bookmark position == some true
  | _, _ => false

/-- The records the table has not applied yet. -/
def retain (state : FeedState Record Position) (records : List Record) :
    List Record :=
  match state.position with
  | some position => records.filter (fun record => source.recordCovered record position != some true)
  | none => records

/-- One page of the stream, of which `records` are the table's. -/
def offer (state : FeedState Record Position) (page : StreamPage Record Position)
    (records : List Record) (taken : Bool) (now : Nat) : FeedState Record Position :=
  if state.covers source page.bookmark then state
  else
    let records := state.retain source records
    let due := page.bookmark.isSome && decide (IDLE_FLUSH ≤ now - state.lastSentAt)
    if records.isEmpty && !due then state
    else state.send ⟨records, page.bookmark⟩ taken now

/-- The last bookmark of the cycle, for a table that has not got it. -/
def finish [DecidableEq Position] (state : FeedState Record Position)
    (last : Position) (taken : Bool) (now : Nat) : FeedState Record Position :=
  if state.lastSent ≠ some last ∧ state.covers source (some last) = false then
    state.send ⟨[], some last⟩ taken now
  else state

end FeedState

/-- The local variables of the loop, with the pages read so far. -/
structure Cycle (Record : Type u) (Position : Type v) where
  states : List (FeedState Record Position)
  newTables : List String := []
  lastBookmark : Option Position := none
  read : List (StreamPage Record Position) := []

/-- The records of a page for a table. -/
def bucket (router : Router) (table : String) (records : List Record) :
    List Record :=
  records.filter (fun record => source.routeOf router record == some (.active table))

def announced (router : Router) (records : List Record) : List String :=
  records.filterMap (fun record =>
    match source.routeOf router record with
    | some (.new table) => some table
    | _ => none)

/-- The loop over the tables; a table takes its bucket with it. -/
def offerAll (source : Source Record Position) (schedule : Schedule) (index : Nat) (page : StreamPage Record Position) :
    (String -> List Record) -> List (FeedState Record Position) -> List (FeedState Record Position)
  | _, [] => []
  | buckets, state :: rest =>
      state.offer source page (buckets state.table) (schedule.takes index state.table)
          (schedule.now index state.table) ::
        offerAll source schedule index page (Function.update buckets state.table []) rest

namespace Cycle

def step (router : Router) (schedule : Schedule) (cycle : Cycle Record Position)
    (page : StreamPage Record Position) : Cycle Record Position where
  states := offerAll source schedule cycle.read.length page (fun table => bucket source router table page.records)
    cycle.states
  newTables := cycle.newTables ++ announced source router page.records
  lastBookmark := if page.bookmark.isSome then page.bookmark else cycle.lastBookmark
  read := cycle.read ++ [page]

/-- Read the stream until it ends, the cycle is cancelled or a new table shows
up. -/
def readPages (source : Source Record Position) (router : Router) (schedule : Schedule) :
    List (StreamPage Record Position) -> Cycle Record Position -> Cycle Record Position
  | [], cycle => cycle
  | page :: rest, cycle =>
      if schedule.cancelled cycle.read.length then cycle
      else
        let next := cycle.step source router schedule page
        if next.newTables.isEmpty then readPages source router schedule rest next else next

def finish [DecidableEq Position] (source : Source Record Position) (schedule : Schedule)
    (cycle : Cycle Record Position) : Cycle Record Position :=
  match cycle.lastBookmark with
  | none => cycle
  | some last =>
      { cycle with
        states := cycle.states.map (fun state =>
          state.finish source last (schedule.takes cycle.read.length state.table)
            (schedule.now cycle.read.length state.table)) }

end Cycle

/-- How a cycle ended. -/
structure Demux (Record : Type u) (Position : Type v) where
  states : List (FeedState Record Position)
  read : List (StreamPage Record Position) := []
  newTables : List String := []
  /-- Tables whose pipeline went away before or during the cycle. -/
  dead : List String
  startedAt : Option Position := none
  error : Option FaucetError := none

def openStates (schedule : Schedule) (feeds : List (TableFeed Position)) : List (FeedState Record Position) :=
  feeds.filterMap (fun feed =>
    feed.ready.map (fun position =>
      { table := feed.table, position := position, lastSentAt := schedule.openedAt feed.table }))

/-- The committed positions of the tables that did not open. -/
def heldBack (feeds : List (TableFeed Position)) (committed : List (String × Position)) : List Position :=
  feeds.filterMap (fun feed => if feed.ready.isNone then committed.lookup feed.table else none)

def unopened (feeds : List (TableFeed Position)) : List String :=
  (feeds.filter (fun feed => feed.ready.isNone)).map TableFeed.table

/-- Read the stream that resumes at `start`. -/
def stream [DecidableEq Position] (router : Router) (schedule : Schedule)
    (dead : List String) (states : List (FeedState Record Position)) (start : Option Position) :
    Demux Record Position :=
  let pages := source.streamPages start
  let cycle := Cycle.readPages source router schedule pages.1 { states := states }
  let finished := cycle.finish source schedule
  { states := finished.states
    read := finished.read
    newTables := finished.newTables
    dead := dead ++ (finished.states.filter (fun state => !state.tx)).map FeedState.table
    startedAt := start
    error := if cycle.read.length = pages.1.length ∧ schedule.cancelled cycle.read.length = false ∧
        cycle.newTables.isEmpty then pages.2 else none }

def runDemux [DecidableEq Position] (feeds : List (TableFeed Position))
    (router : Router) (floors : List Position) (committed : List (String × Position)) (schedule : Schedule) :
    Demux Record Position :=
  let states := openStates schedule feeds
  if states.isEmpty || schedule.cancelledEarly then { states := states, dead := unopened feeds }
  else
    let positions := states.filterMap FeedState.position ++ (floors ++ heldBack feeds committed)
    if positions.isEmpty then stream source router schedule (unopened feeds) states none
    else
      match source.positionMin positions with
      | none =>
          { states := states
            dead := unopened feeds
            error := some (.config ("mirror: '" ++ source.connectorName ++
              "' cannot order the tables' stream positions, so the shared stream has no safe resume point")) }
      | some start =>
          match source.applyStartBookmark start with
          | .error error => { states := states, dead := unopened feeds, error := some error }
          | .ok () => stream source router schedule (unopened feeds) states (some start)

end Mirror
end FaucetStream
