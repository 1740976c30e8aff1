import FaucetStream.Slicing.Sweep
import Mathlib.Data.Int.ModEq

namespace FaucetStream
namespace Slicing

/-!
# The end of a window as it is sent

A server whose upper bound is inclusive gets the end of a window less the
granularity.  Validation keeps the granularity within the step, so the bound of
a full window does not fall before its start.  The last window of a run that
reaches now is as short as what is left of the timeline, and nothing keeps it
as long as the granularity.
-/

namespace WindowSpec

def granularityDuration (spec : WindowSpec) : Except FaucetError (Option Int) :=
  match spec.granularity with
  | none => .ok none
  | some text => (parseStep text).map some

/-- The end of a window less the granularity.  The subtraction panics where
it leaves the range of an instant: there is no instant then. -/
def renderedEnd (spec : WindowSpec) (window : Window) : Except FaucetError (Option DateTime) := do
  match <- spec.granularityDuration with
  | some granularity => return window.stop.checkedSubSigned granularity
  | none => return some window.stop

/-- The bounds sent for a window are in order. -/
def RendersInOrder (spec : WindowSpec) (window : Window) : Prop :=
  exists stop, spec.renderedEnd window = .ok (some stop) ∧ window.start ≤ stop

theorem granularity_le_step {spec : WindowSpec} (valid : spec.validate = .ok ()) {granularity step : Int}
    (parsedGranularity : spec.granularityDuration = .ok (some granularity))
    (parsedStep : spec.stepDuration = .ok step) : granularity ≤ step := by
  rcases bind_eq_ok valid with ⟨_, _, afterStep⟩
  rcases bind_eq_ok afterStep with ⟨_, admitted, _⟩
  unfold granularityDuration at parsedGranularity
  cases given : spec.granularity with
  | none =>
      rw [given] at parsedGranularity
      cases parsedGranularity
  | some text =>
      simp only [given] at parsedGranularity
      simp only [validateGranularity, given] at admitted
      rcases bind_eq_ok admitted with ⟨first, readGranularity, rest⟩
      rcases bind_eq_ok rest with ⟨second, readStep, compared⟩
      rw [readGranularity] at parsedGranularity
      rw [stepDuration, readStep] at parsedStep
      cases parsedGranularity
      cases parsedStep
      split at compared
      · cases compared
      · rename_i notLonger
        exact not_lt.mp notLonger

/-- The bounds are in order when the window is at least as long as the
granularity. -/
theorem rendersInOrder_iff {spec : WindowSpec} {granularity : Int} (positive : 0 < granularity)
    (parsed : spec.granularityDuration = .ok (some granularity)) (window : Window) :
    spec.RendersInOrder window <-> window.start.nanos + granularity ≤ window.stop.nanos := by
  have rendered : spec.renderedEnd window = .ok (window.stop.checkedSubSigned granularity) := by
    simp only [renderedEnd, parsed]
    rfl
  unfold RendersInOrder
  rw [rendered]
  unfold DateTime.checkedSubSigned DateTime.checkedAddSigned
  constructor
  · rintro ⟨stop, answer, ordered⟩
    split at answer
    · cases answer
      have difference := DateTime.le_iff.mp ordered
      change window.start.nanos ≤ window.stop.nanos + -granularity at difference
      omega
    · cases answer
  · intro long
    have inside : EARLIEST ≤ window.stop.nanos + -granularity ∧ window.stop.nanos + -granularity ≤ LATEST := by
      have lower := window.start.earliest
      have upper := window.stop.latest
      constructor
      · omega
      · omega
    rw [dif_pos inside]
    refine ⟨_, rfl, ?_⟩
    rw [DateTime.le_iff]
    change window.start.nanos ≤ window.stop.nanos + -granularity
    omega

end WindowSpec

/-! ## Which windows a run yields -/

theorem windowsFrom_succ {now cur : DateTime} {step : Int} (positive : 0 < step) (left : Nat)
    (before : cur < now) :
    (windowsFrom now step (left + 1) cur).1 =
      ⟨cur, windowEnd cur now step⟩ :: (windowsFrom now step left (windowEnd cur now step)).1 := by
  have forward : cur < windowEnd cur now step := by
    rw [DateTime.lt_iff, windowEnd_nanos cur now step positive]
    exact lt_min (by omega) before
  rw [windowsFrom, if_pos before, if_neg (not_le.mpr forward)]

/-- The windows start one step after another, as many as the run may read and
as start before now. -/
theorem forall_mem_windowsFrom (now : DateTime) {step : Int} (positive : 0 < step) (left : Nat)
    (cur : DateTime) (holds : Int -> Int -> Prop) :
    (forall window, window ∈ (windowsFrom now step left cur).1 ->
        holds window.start.nanos window.stop.nanos) <->
      forall k : Nat, k < left -> cur.nanos + k * step < now.nanos ->
        holds (cur.nanos + k * step) (min (cur.nanos + k * step + step) now.nanos) := by
  induction left generalizing cur with
  | zero =>
      constructor
      · intro _ k impossible
        exact absurd impossible (Nat.not_lt_zero k)
      · intro _ window member
        unfold windowsFrom at member
        split at member
        · exact absurd member List.not_mem_nil
        · exact absurd member List.not_mem_nil
  | succ left ih =>
      by_cases before : cur < now
      · have stop := windowEnd_nanos cur now step positive
        rw [windowsFrom_succ positive left before, List.forall_mem_cons,
          ih (windowEnd cur now step)]
        simp only [stop]
        constructor
        · rintro ⟨first, rest⟩ k smaller early
          cases k with
          | zero =>
              rw [Nat.cast_zero, zero_mul, add_zero]
              exact first
          | succ k =>
              have shifted : cur.nanos + ((k + 1 : Nat) : Int) * step = cur.nanos + step + k * step := by
                push_cast
                ring
              have within : cur.nanos + step < now.nanos := by
                have others : 0 ≤ (k : Int) * step := mul_nonneg (Int.natCast_nonneg k) (le_of_lt positive)
                omega
              rw [shifted] at early ⊢
              have found := rest k (Nat.lt_of_succ_lt_succ smaller)
              rw [min_eq_left (le_of_lt within)] at found
              exact found early
        · intro every
          constructor
          · have first := every 0 (Nat.succ_pos left)
            rw [Nat.cast_zero, zero_mul, add_zero] at first
            exact first before
          · intro k smaller early
            have within : cur.nanos + step < now.nanos := by
              by_contra reached
              rw [min_eq_right (not_lt.mp reached)] at early
              have others : 0 ≤ (k : Int) * step := mul_nonneg (Int.natCast_nonneg k) (le_of_lt positive)
              omega
            rw [min_eq_left (le_of_lt within)] at early ⊢
            have shifted : cur.nanos + ((k + 1 : Nat) : Int) * step = cur.nanos + step + k * step := by
              push_cast
              ring
            have found := every (k + 1) (Nat.succ_lt_succ smaller)
            rw [shifted] at found
            exact found early
      · rw [windowsFrom_reached _ before]
        constructor
        · intro _ k _ early
          have reached : now.nanos ≤ cur.nanos := not_lt.mp before
          have others : 0 ≤ (k : Int) * step := mul_nonneg (Int.natCast_nonneg k) (le_of_lt positive)
          omega
        · intro _ window member
          exact absurd member List.not_mem_nil

/-- Every piece of a length cut in steps is at least as long as a bound within
the step, when no cut leaves a shorter remainder: the pieces stop before the
end, or the remainder is nothing or long enough. -/
theorem forall_remaining_iff {length step bound : Int} {count : Nat} (positive : 0 < step)
    (within : bound ≤ step) (nonnegative : 0 ≤ length) :
    (forall k : Nat, k < count -> k * step < length -> bound ≤ length - k * step) <->
      (count * step ≤ length ∨ length % step = 0 ∨ bound ≤ length % step) := by
  have whole : length = step * (length / step) + length % step := (Int.mul_ediv_add_emod length step).symm
  have remainder := Int.emod_nonneg length (ne_of_gt positive)
  have quotient : 0 ≤ length / step := Int.ediv_nonneg nonnegative (le_of_lt positive)
  have counted : ((length / step).toNat : Int) = length / step := Int.toNat_of_nonneg quotient
  constructor
  · intro every
    by_contra outside
    rw [not_or, not_or, not_le, not_le] at outside
    rcases outside with ⟨beyond, rest, short⟩
    have smaller : (length / step).toNat < count := by
      have product : step * (length / step) < step * count := by
        rw [mul_comm step (count : Int)]
        omega
      have less := lt_of_mul_lt_mul_left product (le_of_lt positive)
      omega
    have long := every (length / step).toNat smaller (by rw [counted, mul_comm]; omega)
    rw [counted, mul_comm] at long
    omega
  · intro condition k smaller early
    have upTo : (k : Int) ≤ length / step := by
      by_contra above
      have product : step * (length / step + 1) ≤ step * k :=
        mul_le_mul_of_nonneg_left (by omega) (le_of_lt positive)
      have rest := Int.emod_lt_of_pos length positive
      rw [mul_add, mul_one, mul_comm step (k : Int)] at product
      omega
    rcases lt_or_eq_of_le upTo with below | last
    · -- At least one whole step is left.
      have product : step * (k + 1) ≤ step * (length / step) :=
        mul_le_mul_of_nonneg_left (by omega) (le_of_lt positive)
      rw [mul_add, mul_one, mul_comm step (k : Int)] at product
      omega
    · rw [← last, mul_comm step (k : Int)] at whole
      rcases condition with stops | exact | long
      · have product : step * (k + 1) ≤ step * count :=
          mul_le_mul_of_nonneg_left (by omega) (le_of_lt positive)
        rw [mul_add, mul_one, mul_comm step (k : Int), mul_comm step (count : Int)] at product
        omega
      · omega
      · omega

/-- A run sends its bounds in order exactly when the windows it may read end
before now, or what is left of the timeline after the whole steps is nothing
or at least the granularity. -/
theorem rendersInOrder_windows_iff (spec : WindowSpec) (valid : spec.validate = .ok ()) (granularity : Int)
    (parsedGranularity : spec.granularityDuration = .ok (some granularity)) (step : Int)
    (parsedStep : spec.stepDuration = .ok step) (lookback : Option Int)
    (parsedLookback : spec.lookbackDuration = .ok lookback) (start now : DateTime) (before : start < now) :
    (forall window, window ∈ (enumerateWindows start now step lookback spec.maxWindows).1 ->
        spec.RendersInOrder window) <->
      (spec.maxWindows * step ≤ now.nanos - (firstStart start lookback).nanos ∨
        (now.nanos - (firstStart start lookback).nanos) % step = 0 ∨
        granularity ≤ (now.nanos - (firstStart start lookback).nanos) % step) := by
  have positive := (parseStep_bounds parsedStep).1
  have within := spec.granularity_le_step valid parsedGranularity parsedStep
  have granularityPositive : 0 < granularity := by
    unfold WindowSpec.granularityDuration at parsedGranularity
    split at parsedGranularity
    · cases parsedGranularity
    · rename_i text _
      cases read : parseStep text with
      | error error =>
          rw [read] at parsedGranularity
          cases parsedGranularity
      | ok value =>
          rw [read] at parsedGranularity
          cases parsedGranularity
          exact (parseStep_bounds read).1
  have started := DateTime.le_iff.mp
    (SliceRule.firstStart_le start lookback (spec.lookbackDuration_bounds parsedLookback).1)
  have length : 0 ≤ now.nanos - (firstStart start lookback).nanos := by
    have later := DateTime.lt_iff.mp before
    omega
  rw [← forall_remaining_iff positive within length]
  simp only [WindowSpec.rendersInOrder_iff granularityPositive parsedGranularity, enumerateWindows]
  rw [forall_mem_windowsFrom now positive spec.maxWindows (firstStart start lookback)
    (fun first last => first + granularity ≤ last)]
  constructor
  · intro every k smaller early
    have long := every k smaller (by omega)
    have shorter := le_trans long (min_le_right _ _)
    omega
  · intro every k smaller early
    have long := every k smaller (by omega)
    exact le_min (by omega) (by omega)

/-- Windows of an hour for a server that counts in seconds. -/
def bySecond : WindowSpec := { hourly "1h" 24 with granularity := some "1s", lookback := none }

def hourAfterEpoch : DateTime := ⟨anHour, by decide, by decide⟩

/-- One full hour is one window, sent in order. -/
theorem rendersInOrder_windows_full_hour :
    (enumerateWindows SliceRule.epoch hourAfterEpoch anHour none 24).1 = [⟨SliceRule.epoch, hourAfterEpoch⟩] ∧
      bySecond.RendersInOrder ⟨SliceRule.epoch, hourAfterEpoch⟩ := by
  have windows : (enumerateWindows SliceRule.epoch hourAfterEpoch anHour none 24).1 =
      [⟨SliceRule.epoch, hourAfterEpoch⟩] := by
    decide +kernel
  have every := (rendersInOrder_windows_iff bySecond (by decide +kernel) NANOS_PER_SECOND (by decide +kernel) anHour
    (by decide +kernel) none rfl SliceRule.epoch hourAfterEpoch (by decide)).mpr (by decide)
  have limit : bySecond.maxWindows = 24 := rfl
  rw [limit, windows] at every
  exact ⟨windows, every _ (List.mem_singleton.mpr rfl)⟩

/-- A run a moment after its bookmark: the one window is shorter than a
second, and its bounds are sent the other way round. -/
theorem bySecond_inverts_short_window :
    bySecond.validate = .ok () ∧ SliceRule.epoch < SliceRule.afterEpoch ∧
      (enumerateWindows SliceRule.epoch SliceRule.afterEpoch anHour none 24).1 =
        [⟨SliceRule.epoch, SliceRule.afterEpoch⟩] ∧
      (exists stop, bySecond.renderedEnd ⟨SliceRule.epoch, SliceRule.afterEpoch⟩ = .ok (some stop) ∧
        stop < SliceRule.epoch) ∧
      ¬ forall window, window ∈ (enumerateWindows SliceRule.epoch SliceRule.afterEpoch anHour none 24).1 ->
        bySecond.RendersInOrder window := by
  have windows : (enumerateWindows SliceRule.epoch SliceRule.afterEpoch anHour none 24).1 =
      [⟨SliceRule.epoch, SliceRule.afterEpoch⟩] := by decide +kernel
  refine ⟨by decide +kernel, by decide, windows,
    ⟨⟨1 - NANOS_PER_SECOND, by decide, by decide⟩, by decide +kernel, by decide⟩, ?_⟩
  intro every
  rw [windows] at every
  have ordered := every _ (List.mem_singleton.mpr rfl)
  rw [WindowSpec.rendersInOrder_iff (show (0 : Int) < NANOS_PER_SECOND by decide) (by decide +kernel)] at ordered
  exact absurd ordered (by decide)

end Slicing
end FaucetStream
