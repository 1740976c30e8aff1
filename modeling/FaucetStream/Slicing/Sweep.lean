import FaucetStream.Slicing.Spec
import Mathlib.Order.Lattice
import Mathlib.Order.Monotone.Basic

namespace FaucetStream
namespace Slicing

/-!
# Sweeping the timeline

A run slices the timeline from its bookmark, less the lookback, up to now.  It
stops early once it has read as many windows as one run may, and the next run
starts from the end of the last one, again less the lookback.

Instants are nanoseconds from the epoch, within the range of `DateTime<Utc>`.
-/

/-- `DateTime::<Utc>::MIN_UTC`: the first instant of the year -262143. -/
def EARLIEST : Int := -8334601228800 * NANOS_PER_SECOND

/-- `DateTime::<Utc>::MAX_UTC`: the last instant of the year 262142. -/
def LATEST : Int := 8210266876799 * NANOS_PER_SECOND + 999999999

structure DateTime where
  nanos : Int
  earliest : EARLIEST ≤ nanos
  latest : nanos ≤ LATEST
  deriving DecidableEq

namespace DateTime

theorem nanos_injective : Function.Injective DateTime.nanos := by
  rintro ⟨left, _, _⟩ ⟨right, _, _⟩ same
  cases same
  rfl

instance : LinearOrder DateTime := LinearOrder.lift' DateTime.nanos nanos_injective

theorem lt_iff {left right : DateTime} : left < right <-> left.nanos < right.nanos := Iff.rfl

theorem le_iff {left right : DateTime} : left ≤ right <-> left.nanos ≤ right.nanos := Iff.rfl

theorem nanos_min (left right : DateTime) : (min left right).nanos = min left.nanos right.nanos := by
  rcases le_total left right with below | above
  · rw [min_eq_left below, min_eq_left (le_iff.mp below)]
  · rw [min_eq_right above, min_eq_right (le_iff.mp above)]

def minUtc : DateTime := ⟨EARLIEST, le_refl _, by decide⟩

def checkedAddSigned (instant : DateTime) (duration : Int) : Option DateTime :=
  if inside : EARLIEST ≤ instant.nanos + duration ∧ instant.nanos + duration ≤ LATEST then
    some ⟨instant.nanos + duration, inside.1, inside.2⟩
  else none

def checkedSubSigned (instant : DateTime) (duration : Int) : Option DateTime :=
  instant.checkedAddSigned (-duration)

end DateTime

/-- A slice of the timeline, without its end. -/
structure Window where
  start : DateTime
  stop : DateTime
  deriving DecidableEq

/-- Where a run starts: the lookback before its bookmark, or the earliest
instant. -/
def firstStart (start : DateTime) : Option Int -> DateTime
  | some lookback => (start.checkedSubSigned lookback).getD .minUtc
  | none => start

/-- The end of the window at `cur`. -/
def windowEnd (cur now : DateTime) (step : Int) : DateTime :=
  match cur.checkedAddSigned step with
  | some stop => min stop now
  | none => now

/-- The loop, with the number of windows the run may still read. -/
def windowsFrom (now : DateTime) (step : Int) : (left : Nat) -> DateTime -> List Window × Bool
  | left, cur =>
      if cur < now then
        match left with
        | 0 => ([], true)
        | left + 1 =>
            let stop := windowEnd cur now step
            if stop ≤ cur then ([], false)
            else
              let (windows, truncated) := windowsFrom now step left stop
              (⟨cur, stop⟩ :: windows, truncated)
      else ([], false)

def enumerateWindows (start now : DateTime) (step : Int) (lookback : Option Int) (maxWindows : Nat) :
    List Window × Bool :=
  windowsFrom now step maxWindows (firstStart start lookback)

/-! ## One run -/

/-- Windows that follow one another from an instant to another, none empty and
none wider than the step. -/
inductive Path (step : Int) : DateTime -> List Window -> DateTime -> Prop
  | done (instant : DateTime) : Path step instant [] instant
  | next {start stop last : DateTime} {windows : List Window} (forward : start < stop)
      (narrow : stop.nanos ≤ start.nanos + step) (rest : Path step stop windows last) :
      Path step start (⟨start, stop⟩ :: windows) last

/-- No instant between the two ends is left out. -/
theorem Path.covers {step : Int} {start last : DateTime} {windows : List Window}
    (path : Path step start windows last) {instant : DateTime} (after : start ≤ instant)
    (before : instant < last) : exists window, window ∈ windows ∧ window.start ≤ instant ∧ instant < window.stop := by
  induction path with
  | done instant => exact absurd before (not_lt.mpr after)
  | @next first stop _ windows _ _ _ ih =>
      by_cases inside : instant < stop
      · exact ⟨_, List.mem_cons_self, after, inside⟩
      · rcases ih (not_lt.mp inside) before with ⟨window, member, found⟩
        exact ⟨window, List.mem_cons_of_mem _ member, found⟩

/-- The last window ends where the path does. -/
theorem Path.getLast {step : Int} {start last : DateTime} {windows : List Window}
    (path : Path step start windows last) :
    (match windows.getLast? with | some window => window.stop | none => start) = last := by
  induction path with
  | done instant => rfl
  | @next first stop _ windows _ _ rest ih =>
      cases windows with
      | nil =>
          cases rest
          rfl
      | cons window others =>
          rw [List.getLast?_cons_cons]
          exact ih

section Loop

variable {now cur : DateTime} {step : Int}

/-- A window ends one step on, or now when that is sooner. -/
theorem windowEnd_nanos (cur now : DateTime) (step : Int) (positive : 0 < step) :
    (windowEnd cur now step).nanos = min (cur.nanos + step) now.nanos := by
  unfold windowEnd DateTime.checkedAddSigned
  split
  · rename_i stop added
    split at added
    · cases added
      rw [DateTime.nanos_min]
    · cases added
  · rename_i overflow
    split at overflow
    · cases overflow
    · rename_i outside
      have high : LATEST < cur.nanos + step := by
        by_contra low
        exact outside ⟨by linarith [cur.earliest], not_lt.mp low⟩
      rw [min_eq_right (le_of_lt (lt_of_le_of_lt now.latest high))]

theorem windowsFrom_reached (left : Nat) (reached : ¬ cur < now) : windowsFrom now step left cur = ([], false) := by
  unfold windowsFrom
  rw [if_neg reached]

/-- What the loop returns, by induction on the windows left. -/
theorem windowsFrom_spec (now : DateTime) {step : Int} (positive : 0 < step) (left : Nat) (cur : DateTime) :
    exists last, Path step cur (windowsFrom now step left cur).1 last ∧
      ((windowsFrom now step left cur).2 = true <-> cur.nanos + left * step < now.nanos) ∧
      (cur < now -> last.nanos = min (cur.nanos + left * step) now.nanos) ∧ (now ≤ cur -> last = cur) := by
  induction left generalizing cur with
  | zero =>
      refine ⟨cur, ?_, ?_, ?_, fun _ => rfl⟩
      · unfold windowsFrom
        split
        · exact .done cur
        · exact .done cur
      · unfold windowsFrom
        split
        · rename_i before
          simpa using DateTime.lt_iff.mp before
        · rename_i reached
          simpa using DateTime.le_iff.mp (not_lt.mp reached)
      · intro before
        rw [min_eq_left (by simpa using DateTime.le_iff.mp (le_of_lt before))]
        simp
  | succ left ih =>
      have grows : (left + 1 : Nat) * step = step + left * step := by
        push_cast
        ring
      have rest : 0 ≤ left * step := mul_nonneg (Int.natCast_nonneg left) (le_of_lt positive)
      by_cases before : cur < now
      · have forward : cur < windowEnd cur now step := by
          rw [DateTime.lt_iff, windowEnd_nanos cur now step positive]
          exact lt_min (by linarith) before
        rcases ih (windowEnd cur now step) with ⟨last, path, truncated, ends, reached⟩
        have unfolded : windowsFrom now step (left + 1) cur =
            (⟨cur, windowEnd cur now step⟩ :: (windowsFrom now step left (windowEnd cur now step)).1,
              (windowsFrom now step left (windowEnd cur now step)).2) := by
          rw [windowsFrom, if_pos before, if_neg (not_le.mpr forward)]
        have stop := windowEnd_nanos cur now step positive
        rw [unfolded]
        refine ⟨last, .next forward (by rw [stop]; exact min_le_left _ _) path, ?_, fun _ => ?_,
          fun impossible => absurd before (not_lt.mpr impossible)⟩
        · rw [truncated, stop, grows]
          constructor
          · intro below
            rcases min_choice (cur.nanos + step) now.nanos with same | same
            · rw [same] at below
              linarith
            · rw [same] at below
              linarith
          · intro below
            rw [min_eq_left (by linarith)]
            linarith
        · by_cases sooner : windowEnd cur now step < now
          · have full : cur.nanos + step < now.nanos := by
              rw [DateTime.lt_iff, stop] at sooner
              rcases min_lt_iff.mp sooner with short | impossible
              · exact short
              · exact absurd impossible (lt_irrefl _)
            rw [ends sooner, stop, min_eq_left (le_of_lt full), grows, add_assoc]
          · rw [reached (not_lt.mp sooner), stop, grows]
            have short : now.nanos ≤ cur.nanos + step := by
              rw [DateTime.lt_iff, stop] at sooner
              exact not_lt.mp (fun full => sooner (by rw [min_eq_left (le_of_lt full)]; exact full))
            rw [min_eq_right short, min_eq_right (by linarith)]
      · refine ⟨cur, ?_, ?_, fun impossible => absurd impossible before, fun _ => rfl⟩
        · rw [windowsFrom_reached _ before]
          exact .done cur
        · rw [windowsFrom_reached _ before, grows]
          have reached : now.nanos ≤ cur.nanos := not_lt.mp before
          constructor
          · intro impossible
            cases impossible
          · intro below
            linarith

end Loop

/-! ## Runs that resume each other -/

/-- What a specification says of the enumeration. -/
structure SliceRule where
  step : Int
  lookback : Option Int
  maxWindows : Nat

/-- A run from a bookmark up to now. -/
structure SweepRun where
  start : DateTime
  now : DateTime
  windows : List Window
  truncated : Bool

/-- The bookmark a run leaves: the end of its last window. -/
def SweepRun.bookmark (run : SweepRun) : DateTime :=
  match run.windows.getLast? with
  | some window => window.stop
  | none => run.start

namespace SliceRule

def run (rule : SliceRule) (start now : DateTime) : SweepRun where
  start := start
  now := now
  windows := (enumerateWindows start now rule.step rule.lookback rule.maxWindows).1
  truncated := (enumerateWindows start now rule.step rule.lookback rule.maxWindows).2

/-- The runs at the given times, as long as each one before was truncated. -/
def sweep (rule : SliceRule) : DateTime -> List DateTime -> List SweepRun
  | _, [] => []
  | start, now :: later =>
      rule.run start now ::
        (if (rule.run start now).truncated then rule.sweep (rule.run start now).bookmark later else [])

/-- What a sweep is for.  A run reads windows that follow one another from its
start to now, unless it was truncated; truncated runs that resume each other
move the bookmark forward until it is at now, and no instant is left out. -/
structure LeavesNoGap (rule : SliceRule) : Prop where
  consecutive : forall start now, exists last,
    Path rule.step (firstStart start rule.lookback) (rule.run start now).windows last ∧
      ((rule.run start now).truncated = false -> firstStart start rule.lookback < now -> last = now)
  increases : forall start now later, start < now -> (now :: later).Pairwise (· ≤ ·) ->
    List.IsChain (· < ·) (start :: (rule.sweep start (now :: later)).map SweepRun.bookmark)
  reaches : forall start now, start < now -> exists count,
    ((rule.sweep start (List.replicate count now)).map SweepRun.bookmark).getLast? = some now
  covers : forall start nows run instant, run ∈ rule.sweep start nows -> start ≤ instant ->
    instant < run.bookmark -> exists other window, other ∈ rule.sweep start nows ∧ window ∈ other.windows ∧
      window.start ≤ instant ∧ instant < window.stop

variable {rule : SliceRule}

theorem firstStart_nanos (start : DateTime) (lookback : Option Int) (nonnegative : 0 ≤ lookback.getD 0) :
    (firstStart start lookback).nanos = max EARLIEST (start.nanos - lookback.getD 0) := by
  cases lookback with
  | none =>
      simp only [firstStart, Option.getD_none, sub_zero]
      exact (max_eq_right start.earliest).symm
  | some lookback =>
      have backwards : 0 ≤ lookback := nonnegative
      simp only [firstStart, DateTime.checkedSubSigned, DateTime.checkedAddSigned, Option.getD_some]
      split
      · rename_i inside
        rw [Option.getD_some, max_eq_right (by linarith [inside.1])]
        exact (sub_eq_add_neg _ _).symm
      · rename_i outside
        have low : start.nanos - lookback < EARLIEST := by
          by_contra high
          exact outside ⟨by linarith [not_lt.mp high], by linarith [start.latest]⟩
        rw [Option.getD_none, max_eq_left (le_of_lt low)]
        rfl

theorem firstStart_le (start : DateTime) (lookback : Option Int) (nonnegative : 0 ≤ lookback.getD 0) :
    firstStart start lookback ≤ start := by
  rw [DateTime.le_iff, firstStart_nanos start lookback nonnegative]
  exact max_le start.earliest (by linarith)

/-- A rule a specification can give. -/
structure Admitted (rule : SliceRule) : Prop where
  step : 0 < rule.step
  lookback : 0 ≤ rule.lookback.getD 0
  windows : 0 < rule.maxWindows

/-- One run before now: its windows, whether it was truncated, and the bookmark
it leaves. -/
theorem Admitted.run_spec (admitted : rule.Admitted) (start now : DateTime)
    (before : firstStart start rule.lookback < now) :
    Path rule.step (firstStart start rule.lookback) (rule.run start now).windows (rule.run start now).bookmark ∧
      ((rule.run start now).truncated = true <->
        (firstStart start rule.lookback).nanos + rule.maxWindows * rule.step < now.nanos) ∧
      (rule.run start now).bookmark.nanos =
        min ((firstStart start rule.lookback).nanos + rule.maxWindows * rule.step) now.nanos := by
  rcases windowsFrom_spec now admitted.step rule.maxWindows (firstStart start rule.lookback) with
    ⟨last, path, truncated, ends, _⟩
  have moved : 0 < rule.maxWindows * rule.step :=
    mul_pos (Int.natCast_pos.mpr admitted.windows) admitted.step
  have forward : firstStart start rule.lookback < last := by
    rw [DateTime.lt_iff, ends before]
    exact lt_min (by linarith) before
  have bookmark : (rule.run start now).bookmark = last := by
    have stop := path.getLast
    change (match (windowsFrom now rule.step rule.maxWindows (firstStart start rule.lookback)).1.getLast? with
      | some window => window.stop
      | none => start) = last
    cases found : (windowsFrom now rule.step rule.maxWindows
        (firstStart start rule.lookback)).1.getLast? with
    | some window =>
        rw [found] at stop
        exact stop
    | none =>
        -- The run reads at least one window.
        rw [found] at stop
        exact absurd forward (by rw [show firstStart start rule.lookback = last from stop]; exact lt_irrefl _)
  rw [bookmark]
  exact ⟨path, truncated, ends before⟩

theorem Admitted.bookmark_of_truncated (admitted : rule.Admitted) {start now : DateTime}
    (truncated : (rule.run start now).truncated = true) :
    firstStart start rule.lookback < now ∧ (rule.run start now).bookmark < now ∧
      (rule.run start now).bookmark.nanos =
        (firstStart start rule.lookback).nanos + rule.maxWindows * rule.step := by
  have before : firstStart start rule.lookback < now := by
    by_contra reached
    have stopped : (rule.run start now).truncated = false := by
      change (windowsFrom now rule.step rule.maxWindows (firstStart start rule.lookback)).2 = false
      rw [windowsFrom_reached _ reached]
    rw [stopped] at truncated
    cases truncated
  rcases admitted.run_spec start now before with ⟨_, cut, ends⟩
  have short := cut.mp truncated
  rw [min_eq_left (le_of_lt short)] at ends
  refine ⟨before, ?_, ends⟩
  rw [DateTime.lt_iff, ends]
  exact short

/-- A run that was not truncated is at now. -/
theorem Admitted.bookmark_of_complete (admitted : rule.Admitted) {start now : DateTime}
    (before : firstStart start rule.lookback < now) (complete : (rule.run start now).truncated = false) :
    (rule.run start now).bookmark = now := by
  rcases admitted.run_spec start now before with ⟨_, cut, ends⟩
  have long : now.nanos ≤ (firstStart start rule.lookback).nanos + rule.maxWindows * rule.step := by
    by_contra short
    rw [cut.mpr (not_le.mp short)] at complete
    cases complete
  rw [min_eq_right long] at ends
  exact DateTime.nanos_injective ends

/-- A run before now moves its bookmark forward when its windows reach further
than its lookback. -/
theorem Admitted.bookmark_forward (admitted : rule.Admitted)
    (reach : rule.lookback.getD 0 < rule.maxWindows * rule.step) {start now : DateTime} (before : start < now) :
    start < (rule.run start now).bookmark := by
  have earlier := firstStart_le start rule.lookback admitted.lookback
  cases truncated : (rule.run start now).truncated with
  | true =>
      rw [DateTime.lt_iff, (admitted.bookmark_of_truncated truncated).2.2,
        firstStart_nanos start rule.lookback admitted.lookback]
      have back := le_max_right EARLIEST (start.nanos - rule.lookback.getD 0)
      linarith
  | false =>
      rw [admitted.bookmark_of_complete (lt_of_le_of_lt earlier before) truncated]
      exact before

theorem Admitted.sweep_increases (admitted : rule.Admitted)
    (reach : rule.lookback.getD 0 < rule.maxWindows * rule.step) (later : List DateTime) :
    forall start now, start < now -> (now :: later).Pairwise (· ≤ ·) ->
      List.IsChain (· < ·) (start :: (rule.sweep start (now :: later)).map SweepRun.bookmark) := by
  induction later with
  | nil =>
      intro start now before _
      have forward := admitted.bookmark_forward reach before
      simp only [sweep, ite_self, List.map_cons, List.map_nil]
      exact List.isChain_cons_cons.mpr ⟨forward, List.isChain_singleton _⟩
  | cons next later ih =>
      intro start now before ordered
      have forward := admitted.bookmark_forward reach before
      rw [sweep, List.map_cons]
      refine List.isChain_cons_cons.mpr ⟨forward, ?_⟩
      split
      · rename_i truncated
        rcases List.pairwise_cons.mp ordered with ⟨first, rest⟩
        have behind := (admitted.bookmark_of_truncated truncated).2.1
        exact ih _ next (lt_of_lt_of_le behind (first next List.mem_cons_self)) rest
      · exact List.isChain_singleton _

/-- The distance to now shrinks from run to run. -/
theorem Admitted.sweep_reaches (admitted : rule.Admitted)
    (reach : rule.lookback.getD 0 < rule.maxWindows * rule.step) (now : DateTime) (distance : Nat) :
    forall start, start < now -> now.nanos - start.nanos ≤ distance -> exists count,
      ((rule.sweep start (List.replicate count now)).map SweepRun.bookmark).getLast? = some now := by
  induction distance with
  | zero =>
      intro start before near
      rw [DateTime.lt_iff] at before
      omega
  | succ distance ih =>
      intro start before near
      have forward := admitted.bookmark_forward reach before
      cases truncated : (rule.run start now).truncated with
      | false =>
          refine ⟨1, ?_⟩
          have first := lt_of_le_of_lt (firstStart_le start rule.lookback admitted.lookback) before
          simp only [List.replicate_one, sweep, truncated, Bool.false_eq_true, if_false, List.map_cons,
            List.map_nil, List.getLast?_singleton, admitted.bookmark_of_complete first truncated]
      | true =>
          have behind := (admitted.bookmark_of_truncated truncated).2.1
          have nearer : now.nanos - (rule.run start now).bookmark.nanos ≤ distance := by
            rw [DateTime.lt_iff] at forward
            omega
          rcases ih (rule.run start now).bookmark behind nearer with ⟨count, reached⟩
          refine ⟨count + 1, ?_⟩
          rw [List.replicate_succ, sweep, truncated, if_pos rfl, List.map_cons, List.getLast?_cons, reached]
          rfl

theorem Admitted.sweep_covers (admitted : rule.Admitted) (nows : List DateTime) :
    forall start run instant, run ∈ rule.sweep start nows -> start ≤ instant -> instant < run.bookmark ->
      exists other window, other ∈ rule.sweep start nows ∧ window ∈ other.windows ∧
        window.start ≤ instant ∧ instant < window.stop := by
  induction nows with
  | nil =>
      intro start run instant member
      cases member
  | cons now later ih =>
      intro start run instant member after covered
      have earlier := firstStart_le start rule.lookback admitted.lookback
      by_cases own : instant < (rule.run start now).bookmark
      · -- The first run covers everything up to the bookmark it leaves.
        have before : firstStart start rule.lookback < now := by
          by_contra reached
          have none : (rule.run start now).windows = [] := by
            change (windowsFrom now rule.step rule.maxWindows (firstStart start rule.lookback)).1 = []
            rw [windowsFrom_reached _ reached]
          have unmoved : (rule.run start now).bookmark = start := by
            rw [SweepRun.bookmark, none]
            rfl
          rw [unmoved] at own
          exact absurd after (not_le.mpr own)
        rcases (admitted.run_spec start now before).1.covers (le_trans earlier after) own with
          ⟨window, found, inside⟩
        exact ⟨_, window, List.mem_cons_self, found, inside⟩
      · rw [sweep] at member ⊢
        rcases List.mem_cons.mp member with same | resumed
        · rw [same] at covered
          exact absurd covered own
        · split at resumed
          · rcases ih _ run instant resumed (not_lt.mp own) covered with
              ⟨other, window, listed, found⟩
            refine ⟨other, window, List.mem_cons_of_mem _ ?_, found⟩
            split
            · exact listed
            · contradiction
          · cases resumed

theorem Admitted.leavesNoGap (admitted : rule.Admitted)
    (reach : rule.lookback.getD 0 < rule.maxWindows * rule.step) : rule.LeavesNoGap where
  consecutive := fun start now => by
    rcases windowsFrom_spec now admitted.step rule.maxWindows (firstStart start rule.lookback) with
      ⟨last, path, truncated, ends, _⟩
    refine ⟨last, path, fun complete before => ?_⟩
    have long : now.nanos ≤ (firstStart start rule.lookback).nanos + rule.maxWindows * rule.step := by
      by_contra short
      rw [show (rule.run start now).truncated = true from truncated.mpr (not_le.mp short)] at complete
      cases complete
    have stop := ends before
    rw [min_eq_right long] at stop
    exact DateTime.nanos_injective stop
  increases := fun start now later => admitted.sweep_increases reach later start now
  reaches := fun start now before =>
    admitted.sweep_reaches reach now (now.nanos - start.nanos).toNat start before (Int.self_le_toNat _)
  covers := fun start nows => admitted.sweep_covers nows start

/-- The epoch and the instant after it. -/
def epoch : DateTime := ⟨0, by decide, by decide⟩

def afterEpoch : DateTime := ⟨1, by decide, by decide⟩

/-- With a lookback the windows of a run do not make up for, a run from the
epoch leaves its bookmark where it was or before. -/
theorem Admitted.reach_of_leavesNoGap (admitted : rule.Admitted)
    (bounded : rule.lookback.getD 0 ≤ MAX_DURATION_DAYS * 86400 * NANOS_PER_SECOND)
    (gapless : rule.LeavesNoGap) : rule.lookback.getD 0 < rule.maxWindows * rule.step := by
  by_contra short
  have behind : rule.maxWindows * rule.step ≤ rule.lookback.getD 0 := not_lt.mp short
  have inside : EARLIEST ≤ -rule.lookback.getD 0 := by
    have room : EARLIEST ≤ -(MAX_DURATION_DAYS * 86400 * NANOS_PER_SECOND) := by decide
    linarith
  have first : (firstStart epoch rule.lookback).nanos = -rule.lookback.getD 0 := by
    rw [firstStart_nanos epoch rule.lookback admitted.lookback]
    change max EARLIEST (0 - rule.lookback.getD 0) = _
    rw [zero_sub, max_eq_right inside]
  have before : firstStart epoch rule.lookback < afterEpoch := by
    rw [DateTime.lt_iff, first]
    change -rule.lookback.getD 0 < 1
    linarith [admitted.lookback]
  have forward : epoch < (rule.run epoch afterEpoch).bookmark := by
    have chain := gapless.increases epoch afterEpoch [] (by decide) (List.pairwise_singleton _ _)
    simp only [sweep, ite_self, List.map_cons, List.map_nil] at chain
    exact (List.isChain_cons_cons.mp chain).1
  rw [DateTime.lt_iff, (admitted.run_spec epoch afterEpoch before).2.2, first] at forward
  have stop := lt_of_lt_of_le forward (min_le_left _ _)
  change 0 < _ at stop
  linarith

end SliceRule

/-- A specification that validates sweeps the timeline without a gap exactly
when the windows of one run reach further than the lookback. -/
theorem leavesNoGap_iff_reach (spec : WindowSpec) (valid : spec.validate = .ok ()) (step : Int)
    (parsedStep : spec.stepDuration = .ok step) (lookback : Option Int)
    (parsedLookback : spec.lookbackDuration = .ok lookback) :
    (SliceRule.mk step lookback spec.maxWindows).LeavesNoGap <->
      lookback.getD 0 < spec.maxWindows * step := by
  have bounds := spec.lookbackDuration_bounds parsedLookback
  have admitted : (SliceRule.mk step lookback spec.maxWindows).Admitted :=
    ⟨(parseStep_bounds parsedStep).1, bounds.1, spec.maxWindows_pos valid⟩
  exact ⟨admitted.reach_of_leavesNoGap bounds.2, admitted.leavesNoGap⟩

/-- Windows of an hour with the given lookback, so many in a run. -/
def hourly (lookback : String) (maxWindows : Nat) : WindowSpec where
  step := "1h"
  lower := ⟨.query, "from", none, .string, WINDOW_PLACEHOLDER, .iso8601⟩
  upper := ⟨.query, "to", none, .string, WINDOW_PLACEHOLDER, .iso8601⟩
  granularity := none
  lookback := some lookback
  maxWindows := maxWindows

def anHour : Int := 3600 * NANOS_PER_SECOND

theorem leavesNoGap_iff_reach_hourly :
    (SliceRule.mk anHour (some (30 * 60 * NANOS_PER_SECOND)) 24).LeavesNoGap <->
      30 * 60 * NANOS_PER_SECOND < 24 * anHour :=
  leavesNoGap_iff_reach (hourly "30m" 24) (by decide +kernel) anHour (by decide +kernel)
    (some (30 * 60 * NANOS_PER_SECOND)) (by decide +kernel)

/-- Four windows of an hour in a run that looks back six: the run is truncated,
and its bookmark two hours before the one it started from. -/
theorem hourly_moves_backwards :
    (hourly "6h" 4).validate = .ok () ∧ (hourly "6h" 4).stepDuration = .ok anHour ∧
      (hourly "6h" 4).lookbackDuration = .ok (some (6 * anHour)) ∧
      ((SliceRule.mk anHour (some (6 * anHour)) 4).run SliceRule.epoch SliceRule.afterEpoch).truncated = true ∧
      ((SliceRule.mk anHour (some (6 * anHour)) 4).run SliceRule.epoch SliceRule.afterEpoch).bookmark.nanos =
        -(2 * anHour) ∧
      ¬ (SliceRule.mk anHour (some (6 * anHour)) 4).LeavesNoGap := by
  have back : ((SliceRule.mk anHour (some (6 * anHour)) 4).run SliceRule.epoch
      SliceRule.afterEpoch).bookmark.nanos = -(2 * anHour) := by decide +kernel
  refine ⟨by decide +kernel, by decide +kernel, by decide +kernel, by decide +kernel, back, fun gapless => ?_⟩
  have chain := gapless.increases SliceRule.epoch SliceRule.afterEpoch [] (by decide) (List.pairwise_singleton _ _)
  simp only [SliceRule.sweep, ite_self, List.map_cons, List.map_nil] at chain
  have forward := DateTime.lt_iff.mp (List.isChain_cons_cons.mp chain).1
  rw [back] at forward
  exact absurd forward (by decide)

end Slicing
end FaucetStream
