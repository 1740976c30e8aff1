import Mathlib.Data.List.Nodup
import FaucetStream.Library.WallClock

namespace FaucetStream
namespace Chunking

open Library

/-!
# Calendar windows

A range of time is cut into windows that are run and resumed one by one.  A
window of days or weeks ends where the wall clock of the range's timezone shows
the time it began with, that many days later.  Each boundary is computed from
the one before it.
-/

/-- `MAX_UNITS`. -/
def maxUnits : Nat := 10000

/-- The dates that can be represented, from the year -262143 to 262142. -/
def leastTime : Int := -8334601228800 * second

def greatestTime : Int := 8210266876800 * second - 1

def checkedTime (time : Int) : Option Int :=
  if leastTime ≤ time ∧ time ≤ greatestTime then some time else none

/-- A `DateTime` with a fixed offset. -/
structure Stamp where
  instant : Int
  offset : Int
  deriving DecidableEq

def inZone (zone : Zone) (instant : Int) : Stamp := ⟨instant, zone.offset instant⟩

structure TimeChunk where
  id : String
  start : Stamp
  finish : Stamp
  deriving DecidableEq

/-- How times are written: the id of a window (`%Y%m%dT%H%M%SZ`) and a bound of
the range. -/
structure TimeText where
  id : Int -> String
  bound : Stamp -> String

inductive WindowStep where
  | absolute (duration : Int)
  | days (count : Int)
  | weeks (count : Int)
  deriving DecidableEq

/-- `Duration::try_seconds`: a duration is a number of milliseconds of 64 bits. -/
def trySeconds (count : Int) : Option Int :=
  if -9223372036854775 ≤ count ∧ count ≤ 9223372036854775 then some (count * second) else none

def tryDays (count : Int) : Option Int := trySeconds (count * 86400)

def tryWeeks (count : Int) : Option Int := trySeconds (count * 604800)

namespace WindowStep

def nominal : WindowStep -> Option Int
  | .absolute duration => some duration
  | .days count => tryDays count
  | .weeks count => tryWeeks count

/-- `n.checked_mul(7)` for weeks. -/
def calendarDays : WindowStep -> Option Int
  | .absolute _ => none
  | .days count => some count
  | .weeks count => if -(2 ^ 63) ≤ count * 7 ∧ count * 7 < 2 ^ 63 then some (count * 7) else none

end WindowStep

inductive PlanFailure where
  | config (message : String)
  /-- The local time of an instant is not representable. -/
  | panicked
  deriving DecidableEq

/-- The loop over the extra hours. -/
def nudge (zone : Zone) (naive : Int) : List Nat -> Option Int
  | [] => none
  | extraHours :: rest =>
      match checkedTime (naive + extraHours * hour) with
      | none => none
      | some candidate =>
          match zone.earliest candidate with
          | some instant => some instant
          | none => nudge zone naive rest

def advanceCalendar (zone : Zone) (cursor days : Int) : Except PlanFailure (Option Int) :=
  match checkedTime (zone.shown cursor) with
  | none => .error .panicked
  | some naive =>
      .ok (do
        let duration ← tryDays days
        let ahead ← checkedTime (naive + duration)
        nudge zone ahead (List.range 4))

def nominalNext (step : WindowStep) (cursor finish : Int) : Int :=
  (step.nominal.bind (fun duration => checkedTime (cursor + duration))).getD finish

/-- Calendar steps keep the wall clock; absolute steps add elapsed time. -/
def steppedBoundary (zone : Zone) (step : WindowStep) (cursor finish : Int) : Except PlanFailure Int :=
  match step.calendarDays with
  | none => .ok (nominalNext step cursor finish)
  | some days => (advanceCalendar zone cursor days).map (fun advanced => advanced.getD (nominalNext step cursor finish))

/-- Where the window that begins at the cursor would end.  A boundary that is
not ahead of the cursor is replaced by the nominal one. -/
def nextBoundary (zone : Zone) (step : WindowStep) (cursor finish : Int) : Except PlanFailure Int :=
  (steppedBoundary zone step cursor finish).map
    (fun next => if cursor < next then next else nominalNext step cursor finish)

def tooManyUnits : String :=
  "the range would produce more than " ++ toString maxUnits ++
    " units with this --window — use a larger window"

/-- The loop over the windows, with the number of windows that are left. -/
def planFrom (text : TimeText) (zone : Zone) (step : WindowStep) (finish : Int) :
    Nat -> Int -> Except PlanFailure (List TimeChunk)
  | 0, cursor => if cursor < finish then .error (.config tooManyUnits) else .ok []
  | left + 1, cursor =>
      if cursor < finish then do
        let next ← nextBoundary zone step cursor finish
        let unitEnd := min next finish
        let rest ← planFrom text zone step finish left unitEnd
        pure (⟨text.id cursor, inZone zone cursor, inZone zone unitEnd⟩ :: rest)
      else .ok []

def planWindows (text : TimeText) (zone : Zone) (start finish : Stamp) (window : Option WindowStep) :
    Except PlanFailure (List TimeChunk) :=
  if finish.instant ≤ start.instant then
    .error (.config ("--from (" ++ text.bound start ++ ") must be before --to (" ++ text.bound finish ++ ")"))
  else
    planFrom text zone (window.getD (.absolute (finish.instant - start.instant))) finish.instant maxUnits start.instant

/-! ## Where a window ends -/

/-- How much local time a calendar window spans. -/
def WindowStep.calendarLength : WindowStep -> Option Int
  | .absolute _ => none
  | .days count => some (count * day)
  | .weeks count => some (count * 7 * day)

theorem checkedTime_eq_some {time : Int} (above : leastTime ≤ time) (below : time ≤ greatestTime) :
    checkedTime time = some time := if_pos ⟨above, below⟩

theorem checkedTime_eq_none {time : Int} (above : leastTime ≤ time) (none : checkedTime time = none) :
    greatestTime < time := by
  unfold checkedTime at none
  split at none
  case isTrue => cases none
  case isFalse outside => omega

theorem of_checkedTime_eq_some {time same : Int} (checked : checkedTime time = some same) :
    same = time ∧ leastTime ≤ time ∧ time ≤ greatestTime := by
  unfold checkedTime at checked
  split at checked
  case isTrue inside => exact ⟨(Option.some.inj checked).symm, inside⟩
  case isFalse => cases checked

theorem trySeconds_cases (count : Int) :
    trySeconds count = some (count * second) ∨ (trySeconds count = none ∧
      (count < -9223372036854775 ∨ 9223372036854775 < count)) := by
  unfold trySeconds
  split
  case isTrue => exact Or.inl rfl
  case isFalse outside => exact Or.inr ⟨rfl, by omega⟩

section Step

variable {step : WindowStep} {length : Int}

/-- The nominal duration is as long, unless it is longer than any date. -/
theorem nominal_cases (calendar : step.calendarLength = some length) (positive : 0 < length) :
    step.nominal = some length ∨ (step.nominal = none ∧ 9223372036854775 * second < length) := by
  cases step with
  | absolute duration => cases calendar
  | days count =>
      cases calendar
      change tryDays count = _ ∨ (tryDays count = _ ∧ _)
      unfold tryDays
      rcases trySeconds_cases (count * 86400) with fits | ⟨none, outside⟩
      · left
        rw [fits]
        congr 1
        unfold day hour second
        omega
      · right
        refine ⟨none, ?_⟩
        unfold day hour second at *
        omega
  | weeks count =>
      cases calendar
      change tryWeeks count = _ ∨ (tryWeeks count = _ ∧ _)
      unfold tryWeeks
      rcases trySeconds_cases (count * 604800) with fits | ⟨none, outside⟩
      · left
        rw [fits]
        congr 1
        unfold day hour second
        omega
      · right
        refine ⟨none, ?_⟩
        unfold day hour second at *
        omega

/-- So is the count of days, unless it is not a number of 64 bits. -/
theorem calendarDays_cases (calendar : step.calendarLength = some length) (positive : 0 < length) :
    (exists days, step.calendarDays = some days ∧ tryDays days = step.nominal) ∨
      (step.calendarDays = none ∧ step.nominal = none) := by
  cases step with
  | absolute duration => cases calendar
  | days count => exact Or.inl ⟨count, rfl, rfl⟩
  | weeks count =>
      cases calendar
      unfold WindowStep.calendarDays
      dsimp only
      split
      case isTrue =>
        left
        refine ⟨count * 7, rfl, ?_⟩
        change trySeconds (count * 7 * 86400) = trySeconds (count * 604800)
        congr 1
        omega
      case isFalse outside =>
        right
        refine ⟨rfl, ?_⟩
        change tryWeeks count = none
        unfold tryWeeks trySeconds
        rw [if_neg]
        unfold day hour second at positive
        omega

/-! ## Near the end of all dates -/

variable {zone : Zone} {cursor finish : Int}

/-- A boundary so late that some date near it is not representable. -/
def Late (zone : Zone) (length cursor : Int) : Prop := greatestTime < zone.shown cursor + length + 3 * hour

theorem late_of_long (above : leastTime ≤ cursor) (long : 9223372036854775 * second < length) :
    Late zone length cursor := by
  have near := zone.lt_shown cursor
  unfold Late greatestTime leastTime day hour second at *
  omega

theorem Late.finish_le_settle (late : Late zone length cursor) (room : finish + 27 * hour ≤ greatestTime) :
    finish ≤ zone.settle (zone.shown cursor + length) := by
  have ahead := zone.le_shown_settle (zone.shown cursor + length)
  have near := zone.shown_lt (zone.settle (zone.shown cursor + length))
  unfold Late at late
  unfold day at near
  omega

theorem Late.finish_le_nominalNext (late : Late zone length cursor) (room : finish + 27 * hour ≤ greatestTime)
    (calendar : step.calendarLength = some length) (positive : 0 < length) :
    finish ≤ nominalNext step cursor finish := by
  unfold nominalNext
  rcases nominal_cases calendar positive with same | ⟨none, _⟩
  · rw [same, Option.bind_some]
    cases checked : checkedTime (cursor + length) with
    | none => exact Int.le_refl _
    | some time =>
        rw [(of_checkedTime_eq_some checked).1, Option.getD_some]
        have near := zone.shown_lt cursor
        unfold Late at late
        unfold day at near
        omega
  · rw [none]
    exact Int.le_refl _

/-! ## One boundary -/

theorem nudge_eq_findSome {naive : Int} {list : List Nat}
    (fits : forall hours, hours ∈ list -> exists time, checkedTime (naive + hours * hour) = some time) :
    nudge zone naive list = list.findSome? (fun hours : Nat => zone.earliest (naive + hours * hour)) := by
  induction list with
  | nil => rfl
  | cons hours rest ih =>
      rcases fits hours List.mem_cons_self with ⟨time, checked⟩
      have same := (of_checkedTime_eq_some checked).1
      unfold nudge
      rw [checked, List.findSome?_cons, same]
      dsimp only
      cases zone.earliest (naive + hours * hour) with
      | some instant => rfl
      | none => exact ih (fun other among => fits other (List.mem_cons_of_mem hours among))

theorem nudge_cases (zone : Zone) (naive : Int) (list : List Nat) : nudge zone naive list = none ∨
    nudge zone naive list = list.findSome? (fun hours : Nat => zone.earliest (naive + hours * hour)) := by
  induction list with
  | nil => exact Or.inl rfl
  | cons hours rest ih =>
      unfold nudge
      cases checked : checkedTime (naive + hours * hour) with
      | none => exact Or.inl rfl
      | some time =>
          have same := (of_checkedTime_eq_some checked).1
          rw [List.findSome?_cons, same]
          dsimp only
          cases zone.earliest (naive + hours * hour) with
          | some instant => exact Or.inr rfl
          | none => exact ih

/-- The local time is settled, or some date on the way is not representable. -/
theorem nudge_range {naive : Int} (above : leastTime ≤ naive) :
    nudge zone naive (List.range 4) = some (zone.settle naive) ∨
      (nudge zone naive (List.range 4) = none ∧ greatestTime < naive + 3 * hour) := by
  by_cases fits : naive + 3 * hour ≤ greatestTime
  · left
    rw [nudge_eq_findSome, zone.findSome_settle]
    intro hours among
    have most := List.mem_range.mp among
    refine ⟨_, checkedTime_eq_some ?_ ?_⟩
    · unfold hour second at *
      omega
    · unfold hour second at *
      omega
  · rcases nudge_cases zone naive (List.range 4) with none | found
    · exact Or.inr ⟨none, by omega⟩
    · left
      rw [found, zone.findSome_settle]

/-- A calendar step that is not too late goes to the settled local time. -/
theorem advanceCalendar_cases (above : leastTime ≤ cursor) (calendar : step.calendarLength = some length)
    (positive : 0 < length) {days : Int} (counts : tryDays days = step.nominal) {advanced : Option Int}
    (ran : advanceCalendar zone cursor days = .ok advanced) :
    advanced = some (zone.settle (zone.shown cursor + length)) ∨ (advanced = none ∧ Late zone length cursor) := by
  unfold advanceCalendar at ran
  cases checked : checkedTime (zone.shown cursor) with
  | none =>
      rw [checked] at ran
      cases ran
  | some naive =>
      rw [checked] at ran
      rcases of_checkedTime_eq_some checked with ⟨same, inside, _⟩
      cases same
      cases ran
      rw [counts]
      rcases nominal_cases calendar positive with fits | ⟨none, long⟩
      · rw [fits]
        change (checkedTime (zone.shown cursor + length)).bind _ = _ ∨
          ((checkedTime (zone.shown cursor + length)).bind _ = _ ∧ _)
        cases ahead : checkedTime (zone.shown cursor + length) with
        | none =>
            right
            refine ⟨rfl, ?_⟩
            have outside := checkedTime_eq_none (by omega) ahead
            unfold Late hour second
            omega
        | some time =>
            rcases of_checkedTime_eq_some ahead with ⟨sameTime, insideTime, _⟩
            cases sameTime
            exact nudge_range insideTime
      · rw [none]
        exact Or.inr ⟨rfl, late_of_long above long⟩

theorem steppedBoundary_cases (above : leastTime ≤ cursor) (calendar : step.calendarLength = some length)
    (positive : 0 < length) {stepped : Int} (ran : steppedBoundary zone step cursor finish = .ok stepped) :
    stepped = zone.settle (zone.shown cursor + length) ∨
      (stepped = nominalNext step cursor finish ∧ Late zone length cursor) := by
  unfold steppedBoundary at ran
  rcases calendarDays_cases calendar positive with ⟨days, counts, same⟩ | ⟨none, unbounded⟩
  · rw [counts] at ran
    dsimp only at ran
    cases advances : advanceCalendar zone cursor days with
    | error failure =>
        rw [advances] at ran
        cases ran
    | ok advanced =>
        rw [advances] at ran
        cases ran
        rcases advanceCalendar_cases above calendar positive same advances with settled | ⟨stuck, late⟩
        · rw [settled]
          exact Or.inl rfl
        · rw [stuck]
          exact Or.inr ⟨rfl, late⟩
  · rw [none] at ran
    cases ran
    refine Or.inr ⟨rfl, ?_⟩
    rcases nominal_cases calendar positive with bounded | ⟨_, beyond⟩
    · rw [unbounded] at bounded
      cases bounded
    · exact late_of_long above beyond

/-- Up to the end of the range, the next boundary is the settled local time. -/
theorem nextBoundary_spec (above : leastTime ≤ cursor) (early : cursor < finish)
    (room : finish + 27 * hour ≤ greatestTime) (calendar : step.calendarLength = some length) (long : day ≤ length)
    {next : Int} (planned : nextBoundary zone step cursor finish = .ok next) :
    cursor < next ∧ min next finish = min (zone.settle (zone.shown cursor + length)) finish := by
  have positive : 0 < length := by
    unfold day hour second at long
    omega
  have ahead : cursor < zone.settle (zone.shown cursor + length) := by
    have later := zone.le_shown_settle (zone.shown cursor + length)
    have apart := Zone.second_le_of_day_le (Int.le_trans (Int.add_le_add_left long _) later)
    unfold second at apart
    omega
  unfold nextBoundary at planned
  cases ran : steppedBoundary zone step cursor finish with
  | error failure =>
      rw [ran] at planned
      cases planned
  | ok stepped =>
      rw [ran] at planned
      have isNext : (if cursor < stepped then stepped else nominalNext step cursor finish) = next :=
        Except.ok.inj planned
      rcases steppedBoundary_cases above calendar positive ran with settled | ⟨nominal, late⟩
      · rw [settled, if_pos ahead] at isNext
        rw [← isNext]
        exact ⟨ahead, rfl⟩
      · rw [nominal, ite_self] at isNext
        have far := late.finish_le_nominalNext room calendar positive
        rw [isNext] at far
        rw [Int.min_eq_right far, Int.min_eq_right (late.finish_le_settle room)]
        exact ⟨Int.lt_of_lt_of_le early far, rfl⟩

end Step

/-! ## A whole plan -/

/-- Consecutive half-open windows, none of them empty, that make up a range. -/
def Tiles (finish : Int) : Int -> List TimeChunk -> Prop
  | start, [] => start = finish
  | start, unit :: rest =>
      unit.start.instant = start ∧ start < unit.finish.instant ∧ Tiles finish unit.finish.instant rest

/-- Each window after the first begins at the earliest instant that shows the
local time of the range's start that many steps later, if any instant does. -/
def OnWallClock (zone : Zone) (start length : Int) (units : List TimeChunk) : Prop :=
  forall count, 1 ≤ count -> forall unit, units[count]? = some unit -> zone.Shows (zone.target start length count) ->
    zone.shown unit.start.instant = zone.target start length count ∧
      forall instant, zone.shown instant = zone.target start length count -> unit.start.instant ≤ instant

section Plan

variable {text : TimeText} {zone : Zone} {step : WindowStep} {start length finish : Int}

/-- The window between two boundaries of the walk. -/
def windowAt (text : TimeText) (zone : Zone) (start length finish : Int) (count : Nat) : TimeChunk :=
  ⟨text.id (zone.boundary start length count), inZone zone (zone.boundary start length count),
    inZone zone (min (zone.boundary start length (count + 1)) finish)⟩

/-- The windows between the boundaries of the walk, from one of them up to the
end of the range. -/
structure Planned (text : TimeText) (zone : Zone) (start length finish : Int) (count : Nat)
    (units : List TimeChunk) : Prop where
  windows : units = (List.range units.length).map (fun index => windowAt text zone start length finish (count + index))
  inside : forall index, index < units.length -> zone.boundary start length (count + index) < finish
  outside : finish ≤ zone.boundary start length (count + units.length)
  tiles : Tiles finish (min (zone.boundary start length count) finish) units

theorem Planned.nil {count : Nat} (late : finish ≤ zone.boundary start length count) :
    Planned text zone start length finish count [] where
  windows := rfl
  inside := fun _ impossible => absurd impossible (Nat.not_lt_zero _)
  outside := late
  tiles := Int.min_eq_right late

theorem Planned.cons {count : Nat} {rest : List TimeChunk} (long : day ≤ length)
    (early : zone.boundary start length count < finish)
    (planned : Planned text zone start length finish (count + 1) rest) :
    Planned text zone start length finish count (windowAt text zone start length finish count :: rest) where
  windows := by
    rw [List.length_cons, List.range_succ_eq_map, List.map_cons, List.map_map]
    congr 1
    rw [planned.windows, List.length_map, List.length_range]
    apply List.map_congr_left
    intro index _
    change windowAt text zone start length finish (count + 1 + index) =
      windowAt text zone start length finish (count + (index + 1))
    rw [Nat.add_assoc, Nat.add_comm 1 index]
  inside := by
    intro index within
    cases index with
    | zero => exact early
    | succ index =>
        rw [← Nat.add_assoc, Nat.add_right_comm]
        exact planned.inside index (Nat.lt_of_succ_lt_succ within)
  outside := by
    rw [List.length_cons, ← Nat.add_assoc, Nat.add_right_comm]
    exact planned.outside
  tiles := by
    rw [Int.min_eq_left (Int.le_of_lt early)]
    refine ⟨rfl, ?_, planned.tiles⟩
    have ahead := zone.boundary_lt_succ start long count
    change zone.boundary start length count < min (zone.boundary start length (count + 1)) finish
    unfold second at ahead
    exact lt_min (by omega) early

theorem planFrom_of_lt {left : Nat} {cursor : Int} {units : List TimeChunk} (early : cursor < finish)
    (planned : planFrom text zone step finish left cursor = .ok units) :
    exists less next rest, left = less + 1 ∧ nextBoundary zone step cursor finish = .ok next ∧
      planFrom text zone step finish less (min next finish) = .ok rest ∧
        units = ⟨text.id cursor, inZone zone cursor, inZone zone (min next finish)⟩ :: rest := by
  cases left with
  | zero =>
      unfold planFrom at planned
      rw [if_pos early] at planned
      cases planned
  | succ less =>
      unfold planFrom at planned
      rw [if_pos early] at planned
      cases stepped : nextBoundary zone step cursor finish with
      | error failure =>
          rw [stepped] at planned
          cases planned
      | ok next =>
          rw [stepped] at planned
          change (planFrom text zone step finish less (min next finish) >>= _) = _ at planned
          cases onward : planFrom text zone step finish less (min next finish) with
          | error failure =>
              rw [onward] at planned
              cases planned
          | ok rest =>
              rw [onward] at planned
              cases planned
              exact ⟨less, next, rest, rfl, rfl, onward, rfl⟩

theorem planFrom_of_le {left : Nat} {cursor : Int} (late : finish ≤ cursor) :
    planFrom text zone step finish left cursor = .ok [] := by
  cases left with
  | zero =>
      unfold planFrom
      rw [if_neg (Int.not_lt.mpr late)]
  | succ left =>
      unfold planFrom
      rw [if_neg (Int.not_lt.mpr late)]

/-- A plan is the windows between the boundaries of the walk. -/
theorem planFrom_planned (above : leastTime ≤ start) (room : finish + 27 * hour ≤ greatestTime)
    (calendar : step.calendarLength = some length) (long : day ≤ length) {left count : Nat} {units : List TimeChunk}
    (planned : planFrom text zone step finish left (min (zone.boundary start length count) finish) = .ok units) :
    Planned text zone start length finish count units := by
  induction left using Nat.strongRecOn generalizing count units with
  | ind left ih =>
      rcases Int.lt_or_le (zone.boundary start length count) finish with early | late
      · rw [Int.min_eq_left (Int.le_of_lt early)] at planned
        rcases planFrom_of_lt early planned with ⟨less, next, rest, isLess, stepped, onward, isUnits⟩
        have onwards : start ≤ zone.boundary start length count := by
          cases count with
          | zero => exact Int.le_refl _
          | succ count =>
              have ahead := zone.boundary_lt start long (Nat.succ_pos count)
              change start + second ≤ zone.boundary start length (count + 1) at ahead
              unfold second at ahead
              omega
        have settled := (nextBoundary_spec (Int.le_trans above onwards) early room calendar long stepped).2
        rw [← Zone.boundary_succ] at settled
        rw [settled] at onward isUnits
        rw [isUnits]
        exact (ih less (by omega) onward).cons long early
      · rw [Int.min_eq_right late, planFrom_of_le (Int.le_refl finish)] at planned
        cases planned
        exact .nil late

theorem planWindows_planned {first last : Stamp} {units : List TimeChunk} (above : leastTime ≤ first.instant)
    (room : last.instant + 27 * hour ≤ greatestTime) (calendar : step.calendarLength = some length)
    (long : day ≤ length) (planned : planWindows text zone first last (some step) = .ok units) :
    first.instant < last.instant ∧ Planned text zone first.instant length last.instant 0 units := by
  unfold planWindows at planned
  split at planned
  case isTrue => cases planned
  case isFalse apart =>
    have early : first.instant < last.instant := Int.not_le.mp apart
    have started : planFrom text zone step last.instant maxUnits
        (min (zone.boundary first.instant length 0) last.instant) = .ok units := by
      change planFrom text zone step last.instant maxUnits (min first.instant last.instant) = .ok units
      rw [Int.min_eq_left (Int.le_of_lt early)]
      exact planned
    exact ⟨early, planFrom_planned above room calendar long started⟩

/-! ## What the windows are -/

theorem Planned.get {units : List TimeChunk} (planned : Planned text zone start length finish 0 units) {count : Nat}
    {unit : TimeChunk} (found : units[count]? = some unit) :
    count < units.length ∧ unit = windowAt text zone start length finish count := by
  have within : count < units.length := (List.getElem?_eq_some_iff.mp found).1
  refine ⟨within, ?_⟩
  rw [planned.windows, List.getElem?_map, List.getElem?_range within, Option.map_some, Nat.zero_add] at found
  exact (Option.some.inj found).symm

/-- No two windows begin in one second. -/
theorem Planned.ids_nodup {units : List TimeChunk} (planned : Planned text zone start length finish 0 units)
    (long : day ≤ length) (distinct : forall one other, text.id one = text.id other -> one / second = other / second) :
    (units.map TimeChunk.id).Nodup := by
  rw [planned.windows, List.map_map]
  apply List.Nodup.map ?_ List.nodup_range
  intro one other same
  change text.id (zone.boundary start length (0 + one)) = text.id (zone.boundary start length (0 + other)) at same
  rw [Nat.zero_add, Nat.zero_add] at same
  have seconds := distinct _ _ same
  rcases Nat.lt_trichotomy one other with before | equal | after
  · have apart := zone.boundary_lt start long before
    unfold second at *
    omega
  · exact equal
  · have apart := zone.boundary_lt start long after
    unfold second at *
    omega

/-- A boundary that comes before the end of the range is a window's. -/
theorem Planned.lt_length {units : List TimeChunk} (planned : Planned text zone start length finish 0 units)
    (long : day ≤ length) {count : Nat} (early : zone.boundary start length count < finish) :
    count < units.length := by
  have outside := planned.outside
  rw [Nat.zero_add] at outside
  rcases Nat.lt_or_ge count units.length with within | beyond
  · exact within
  · rcases Nat.eq_or_lt_of_le beyond with same | after
    · rw [same] at outside
      omega
    · have apart := zone.boundary_lt start long after
      unfold second at apart
      omega

/-- The windows begin where they should unless a gap came before. -/
theorem Planned.onWallClock_iff {units : List TimeChunk} (planned : Planned text zone start length finish 0 units)
    (long : day ≤ length) :
    OnWallClock zone start length units <->
      forall hidden count, 1 ≤ hidden -> hidden < count -> ¬zone.Shows (zone.target start length hidden) ->
        zone.Shows (zone.target start length count) -> finish ≤ zone.boundary start length count := by
  constructor
  · intro clock hidden count first later absent shows
    by_contra early
    have within := planned.lt_length long (Int.not_le.mp early)
    have found : units[count]? = some units[count] := List.getElem?_eq_getElem within
    have same := (clock count (by omega) _ found shows).1
    rw [(planned.get found).2] at same
    exact absurd same.symm (Int.ne_of_lt (Zone.target_lt first (Nat.le_of_lt later) absent))
  · intro late count first unit found shows
    rcases planned.get found with ⟨within, isUnit⟩
    have early := planned.inside count within
    rw [Nat.zero_add] at early
    have all : forall earlier, 1 ≤ earlier -> earlier ≤ count -> zone.Shows (zone.target start length earlier) := by
      intro earlier one most
      rcases Nat.eq_or_lt_of_le most with same | before
      · rw [same]
        exact shows
      · by_contra absent
        exact absurd (late earlier count one before absent shows) (Int.not_le.mpr early)
    have onTarget : zone.shown (zone.boundary start length count) = zone.target start length count :=
      Zone.shown_boundary all
    rw [isUnit]
    refine ⟨onTarget, ?_⟩
    intro instant alsoShows
    cases count with
    | zero => exact absurd first (Nat.not_succ_le_zero 0)
    | succ count => exact Zone.boundary_le all alsoShows

/-- What a plan should be: windows that make up the range, under distinct ids,
each of which begins where the wall clock shows the time the range began with. -/
structure CalendarPlan (zone : Zone) (start length finish : Int) (units : List TimeChunk) : Prop where
  some : units ≠ []
  tiles : Tiles finish start units
  ids : (units.map TimeChunk.id).Nodup
  clock : OnWallClock zone start length units

/-- A plan is what it should be if and only if no boundary that falls in a gap
is followed, before the end of the range, by one whose local time is shown.  It
always makes up the range, under distinct ids. -/
theorem planWindows_calendar_iff {first last : Stamp} {units : List TimeChunk}
    (distinct : forall one other, text.id one = text.id other -> one / second = other / second)
    (above : leastTime ≤ first.instant) (room : last.instant + 27 * hour ≤ greatestTime)
    (calendar : step.calendarLength = some length) (positive : 0 < length)
    (planned : planWindows text zone first last (some step) = .ok units) :
    (units ≠ [] ∧ Tiles last.instant first.instant units ∧ (units.map TimeChunk.id).Nodup) ∧
      (CalendarPlan zone first.instant length last.instant units <->
        forall hidden count, 1 ≤ hidden -> hidden < count ->
          ¬zone.Shows (zone.target first.instant length hidden) ->
          zone.Shows (zone.target first.instant length count) ->
            last.instant ≤ zone.boundary first.instant length count) := by
  have long : day ≤ length := by
    cases step with
    | absolute duration => cases calendar
    | days count =>
        cases calendar
        unfold day hour second at *
        omega
    | weeks count =>
        cases calendar
        unfold day hour second at *
        omega
  rcases planWindows_planned above room calendar long planned with ⟨early, windows⟩
  have tiles : Tiles last.instant first.instant units := by
    have all := windows.tiles
    change Tiles last.instant (min first.instant last.instant) units at all
    rw [Int.min_eq_left (Int.le_of_lt early)] at all
    exact all
  have nonempty : units ≠ [] := by
    intro none
    rw [none] at tiles
    exact absurd tiles (Int.ne_of_lt early)
  have ids := windows.ids_nodup long distinct
  refine ⟨⟨nonempty, tiles, ids⟩, ?_⟩
  rw [← windows.onWallClock_iff long]
  constructor
  · intro plan
    exact plan.clock
  · intro clock
    exact ⟨nonempty, tiles, ids, clock⟩

end Plan

/-! ## The clock goes forward at midnight -/

/-- The instant at which the clocks of São Paulo went forward in 2018: midnight
of November 4 became one o'clock. -/
def forwardAt : Int := 1541300400 * second

/-- Three hours behind before that instant, and two hours after it. -/
def saoPaulo : Zone where
  offset := fun instant => if instant < forwardAt then -3 * hour else -2 * hour
  earliest := fun naive =>
    if naive < forwardAt - 3 * hour then some (naive + 3 * hour)
    else if naive < forwardAt - 2 * hour then none
    else some (naive + 2 * hour)
  bounded := by
    intro instant
    unfold day hour second
    split <;> omega
  earliest_some := by
    intro naive instant found
    unfold hour second at *
    split at found
    case isTrue before =>
      cases found
      refine ⟨by rw [if_pos (by omega)]; omega, ?_⟩
      intro other
      split <;> omega
    case isFalse late =>
      split at found
      case isTrue => cases found
      case isFalse after =>
        cases found
        refine ⟨by rw [if_neg (by omega)]; omega, ?_⟩
        intro other
        split <;> omega
  earliest_none := by
    intro naive found instant
    unfold hour second at *
    split at found
    case isTrue => cases found
    case isFalse late =>
      split at found
      case isTrue inside => split <;> omega
      case isFalse => cases found
  gaps := by
    intro naive
    unfold hour second
    by_cases before : naive < forwardAt - 3 * (3600 * 1000000000)
    · refine ⟨0, by omega, naive + 3 * (3600 * 1000000000), ?_⟩
      rw [if_pos (by omega)]
      omega
    · refine ⟨1, by omega, naive + 3 * (3600 * 1000000000), ?_⟩
      rw [if_neg (by omega)]
      omega
  repeats := by
    intro first later before
    unfold hour second
    split <;> split <;> omega
  leaps := by
    intro first later before soon
    unfold hour second at *
    split <;> split <;> omega

def otherText (seconds : Int) : List Char :=
  (if 0 ≤ seconds then 'p' else 'n') :: List.replicate seconds.natAbs 'x'

/-- The ids of the windows below; other instants are told apart by a text of
another kind. -/
def novemberText : TimeText where
  id := fun instant =>
    if instant / second = 1541214000 then "20181103T030000Z"
    else if instant / second = 1541300400 then "20181104T030000Z"
    else if instant / second = 1541386800 then "20181105T030000Z"
    else String.ofList (otherText (instant / second))
  bound := fun stamp => toString stamp.instant

def november (seconds offset : Int) : Stamp := ⟨seconds * second, offset * hour⟩

/-- Three windows of a day from November 3.  Midnight of the 4th does not
exist, so the second begins at one o'clock, and so does the third, although
midnight of the 5th exists. -/
theorem november_leaves_midnight :
    exists units third, planWindows novemberText saoPaulo (november 1541214000 (-3)) (november 1541469600 (-2))
        (some (.days 1)) = .ok units ∧
      units[2]? = some third ∧ third.start = november 1541386800 (-2) ∧
      saoPaulo.Shows (saoPaulo.target (1541214000 * second) day 2) ∧
      saoPaulo.shown third.start.instant = saoPaulo.target (1541214000 * second) day 2 + hour ∧
      ¬OnWallClock saoPaulo (1541214000 * second) day units := by
  have shows : saoPaulo.Shows (saoPaulo.target (1541214000 * second) day 2) := ⟨1541383200 * second, by decide⟩
  refine ⟨_, _, rfl, rfl, by decide, shows, by decide, ?_⟩
  intro clock
  exact absurd (clock 2 (by decide) _ rfl shows).1 (by decide)

/-- The second that an id tells. -/
def novemberSecond (id : String) : Int :=
  if id = "20181103T030000Z" then 1541214000
  else if id = "20181104T030000Z" then 1541300400
  else if id = "20181105T030000Z" then 1541386800
  else
    match id.toList with
    | 'p' :: rest => rest.length
    | _ :: rest => -rest.length
    | [] => 0

theorem otherText_ne {text : String} (seconds : Int) (year : text.toList.head? = some '2') :
    String.ofList (otherText seconds) ≠ text := by
  intro same
  rw [← same, String.toList_ofList] at year
  unfold otherText at year
  rw [List.head?_cons] at year
  split at year
  case isTrue => exact absurd year (by decide)
  case isFalse => exact absurd year (by decide)

theorem novemberSecond_other (seconds : Int) : novemberSecond (String.ofList (otherText seconds)) = seconds := by
  unfold novemberSecond
  rw [if_neg (otherText_ne _ (by decide)), if_neg (otherText_ne _ (by decide)),
    if_neg (otherText_ne _ (by decide)), String.toList_ofList]
  unfold otherText
  by_cases positive : 0 ≤ seconds
  · rw [if_pos positive]
    change ((List.replicate seconds.natAbs 'x').length : Int) = seconds
    rw [List.length_replicate]
    omega
  · rw [if_neg positive]
    change -((List.replicate seconds.natAbs 'x').length : Int) = seconds
    rw [List.length_replicate]
    omega

theorem novemberSecond_id (instant : Int) : novemberSecond (novemberText.id instant) = instant / second := by
  unfold novemberText
  dsimp only
  split
  case isTrue third =>
    rw [third]
    decide
  case isFalse =>
    split
    case isTrue fourth =>
      rw [fourth]
      decide
    case isFalse =>
      split
      case isTrue fifth =>
        rw [fifth]
        decide
      case isFalse => exact novemberSecond_other (instant / second)

theorem novemberText_distinct (one other : Int) (same : novemberText.id one = novemberText.id other) :
    one / second = other / second := by
  rw [← novemberSecond_id one, same, novemberSecond_id]

/-- From the 4th at one o'clock no boundary falls in a gap. -/
theorem planWindows_calendar_november :
    exists units, planWindows novemberText saoPaulo (november 1541300400 (-2)) (november 1541473200 (-2))
        (some (.days 1)) = .ok units ∧
      units.map TimeChunk.id = ["20181104T030000Z", "20181105T030000Z"] ∧
      CalendarPlan saoPaulo (1541300400 * second) day (1541473200 * second) units := by
  have planned : exists units, planWindows novemberText saoPaulo (november 1541300400 (-2))
      (november 1541473200 (-2)) (some (.days 1)) = .ok units ∧
        units.map TimeChunk.id = ["20181104T030000Z", "20181105T030000Z"] := ⟨_, rfl, by decide⟩
  rcases planned with ⟨units, planned, ids⟩
  refine ⟨units, planned, ids, ?_⟩
  refine (planWindows_calendar_iff novemberText_distinct (by decide) (by decide) rfl (by decide) planned).2.mpr ?_
  intro hidden count first later absent
  refine absurd ⟨1541300400 * second + hidden * day, ?_⟩ absent
  have most : (1 : Int) ≤ hidden := Int.ofNat_le.mpr first
  unfold Zone.shown Zone.target Zone.shown saoPaulo november forwardAt hour day hour second
  dsimp only
  rw [if_neg (by omega), if_neg (by omega)]
  omega

end Chunking
end FaucetStream
