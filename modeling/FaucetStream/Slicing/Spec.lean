import FaucetStream.Error
import FaucetStream.Json.Decimal
import Mathlib.Data.List.Infix

namespace FaucetStream
namespace Slicing

open Json

/-!
# Window specifications

A windowed source bounds each of its requests to a slice of the replication
timeline.  The specification gives the width of a slice, how far before the
bookmark a run starts, how many slices one run reads, and where the two bounds
go in a request.  Durations are nanoseconds.

The rendering of bounds into requests is left out: only what `validate` asks of
the binds is here.
-/

inductive BindTarget where
  | query
  | header
  | body
  | path
  deriving DecidableEq

inductive BindValueType where
  | string
  | number
  deriving DecidableEq

inductive BindFormat where
  | raw
  | iso8601
  | epochS
  | epochMs
  | date
  deriving DecidableEq

def WINDOW_PLACEHOLDER : String := "$\x7bwindow\x7d"

def WINDOW_START_PLACEHOLDER : String := "$\x7bwindow.start\x7d"

def WINDOW_END_PLACEHOLDER : String := "$\x7bwindow.end\x7d"

def contains (text pattern : String) : Bool := decide (pattern.toList <:+: text.toList)

/-- Where a rendered bound goes in a request. -/
structure WindowBind where
  into : BindTarget
  name : String
  path : Option String
  valueType : BindValueType
  template : String
  format : BindFormat
  deriving DecidableEq

/-- A body bind needs exactly one of `name` and `path`; every other target
needs `name` and refuses `path`. -/
def validateBindPlacement (what : String) (into : BindTarget) (name : String) (path : Option String) :
    Except FaucetError Unit :=
  let hasName := !(trim name.toList).isEmpty
  match into, path with
  | .body, some pointer =>
      if hasName then
        .error (.config (what ++ ": set either `name` (top-level body field) or `path` (JSON Pointer), not both"))
      else if !pointer.toList.head?.any (· == '/') || decide (pointer.utf8ByteSize < 2) then
        .error (.config (what ++ ": `path` must be a JSON Pointer such as `/filters/0/value`, got '" ++
          pointer ++ "'"))
      else .ok ()
  | _, some _ => .error (.config (what ++ ": `path` applies only to `into: body`"))
  | .body, none =>
      if !hasName then
        .error (.config (what ++ ": `into: body` needs `name` (top-level field) or `path` (JSON Pointer)"))
      else .ok ()
  | _, none =>
      if !hasName then .error (.config (what ++ ": `name` must not be empty")) else .ok ()

namespace WindowBind

def default : WindowBind := ⟨.query, "", none, .string, WINDOW_PLACEHOLDER, .raw⟩

/-- Whether this bind is the one an omitted `upper` stands for. -/
def isUnset (bind : WindowBind) : Bool := decide (bind = default)

def validate (bind : WindowBind) (side : String) : Except FaucetError Unit := do
  validateBindPlacement ("window slicing `" ++ side ++ "`") bind.into bind.name bind.path
  if [WINDOW_PLACEHOLDER, WINDOW_START_PLACEHOLDER, WINDOW_END_PLACEHOLDER].any (contains bind.template) then
    .ok ()
  else
    .error (.config ("window slicing: `" ++ side ++ ".template` must contain a `" ++ WINDOW_PLACEHOLDER ++ "`, `" ++
      WINDOW_START_PLACEHOLDER ++ "` or `" ++ WINDOW_END_PLACEHOLDER ++ "` placeholder"))

end WindowBind

structure WindowSpec where
  step : String
  lower : WindowBind
  upper : WindowBind
  granularity : Option String
  lookback : Option String
  maxWindows : Nat

/-- The longest duration accepted, in days. -/
def MAX_DURATION_DAYS : Int := 36525

def NANOS_PER_SECOND : Int := 1000000000

/-- The seconds of a duration's unit. -/
def unitSeconds : List Char -> Option Int
  | ['s'] => some 1
  | ['m'] => some 60
  | ['h'] => some 3600
  | ['d'] => some 86400
  | _ => none

/-- A duration: an integer and its unit, seconds when there is none.  Where the
product leaves the range of a duration it is above the maximum too. -/
def parseStep (text : String) : Except FaucetError Int :=
  let s := trim text.toList
  let invalid : Except FaucetError Int := .error (.config ("window slicing: '" ++ String.ofList s ++
    "' is not a valid duration — use e.g. 45s, 30m, 6h, 30d"))
  match s.getLast? with
  | none => invalid
  | some last =>
      let (number, unit) := if last.isDigit then (s, ['s']) else (s.dropLast, [last])
      match Decimal.parseI64 number with
      | none => invalid
      | some n =>
          if n ≤ 0 then
            .error (.config ("window slicing: duration '" ++ String.ofList s ++ "' must be positive"))
          else
            match unitSeconds unit with
            | none => invalid
            | some seconds =>
                if n * seconds ≤ MAX_DURATION_DAYS * 86400 then .ok (n * seconds * NANOS_PER_SECOND)
                else
                  .error (.config ("window slicing: duration '" ++ String.ofList s ++ "' exceeds the " ++
                    toString MAX_DURATION_DAYS ++ "-day maximum"))

namespace WindowSpec

def stepDuration (spec : WindowSpec) : Except FaucetError Int := parseStep spec.step

def lookbackDuration (spec : WindowSpec) : Except FaucetError (Option Int) :=
  match spec.lookback with
  | none => .ok none
  | some text => (parseStep text).map some

def hasUpper (spec : WindowSpec) : Bool := !spec.upper.isUnset

/-- A granularity is no longer than the step. -/
def validateGranularity (spec : WindowSpec) : Except FaucetError Unit :=
  match spec.granularity with
  | none => .ok ()
  | some text => do
      let granularity <- parseStep text
      let step <- parseStep spec.step
      if step < granularity then
        .error (.config ("window slicing: `granularity` (" ++ text ++ ") must not be longer than `step` (" ++
          spec.step ++ "), or every window's upper bound would fall before its start"))
      else .ok ()

def validateBinds (spec : WindowSpec) : Except FaucetError Unit := do
  spec.lower.validate "lower"
  if spec.hasUpper then spec.upper.validate "upper"
  else if !contains spec.lower.template WINDOW_END_PLACEHOLDER then
    .error (.config ("window slicing: `upper` may be omitted only when `lower.template` renders the window end " ++
      "with `" ++ WINDOW_END_PLACEHOLDER ++ "`; otherwise the window is unbounded above"))
  else .ok ()

def validate (spec : WindowSpec) : Except FaucetError Unit := do
  let _ <- spec.stepDuration
  spec.validateGranularity
  let _ <- spec.lookbackDuration
  spec.validateBinds
  if spec.maxWindows = 0 then
    .error (.config "window slicing: `max_windows` must be greater than zero")
  else .ok ()

end WindowSpec

/-! ## What validation admits -/

theorem unitSeconds_pos {unit : List Char} {seconds : Int} (known : unitSeconds unit = some seconds) :
    0 < seconds := by
  unfold unitSeconds at known
  split at known
  · cases known
    decide
  · cases known
    decide
  · cases known
    decide
  · cases known
    decide
  · cases known

theorem parseStep_bounds {text : String} {duration : Int} (parsed : parseStep text = .ok duration) :
    0 < duration ∧ duration ≤ MAX_DURATION_DAYS * 86400 * NANOS_PER_SECOND := by
  unfold parseStep at parsed
  dsimp only at parsed
  split at parsed
  · cases parsed
  · split at parsed
    · cases parsed
    · split at parsed
      · cases parsed
      · rename_i positive
        split at parsed
        · cases parsed
        · rename_i unit seconds known
          split at parsed
          · rename_i short
            cases parsed
            exact ⟨mul_pos (mul_pos (not_le.mp positive) (unitSeconds_pos known)) (by decide),
              mul_le_mul_of_nonneg_right short (by decide)⟩
          · cases parsed

/-- A lookback is not negative and at most the maximum. -/
theorem WindowSpec.lookbackDuration_bounds {spec : WindowSpec} {lookback : Option Int}
    (parsed : spec.lookbackDuration = .ok lookback) :
    0 ≤ lookback.getD 0 ∧ lookback.getD 0 ≤ MAX_DURATION_DAYS * 86400 * NANOS_PER_SECOND := by
  unfold lookbackDuration at parsed
  cases given : spec.lookback with
  | none =>
      rw [given] at parsed
      cases parsed
      exact ⟨le_refl _, by decide⟩
  | some text =>
      simp only [given] at parsed
      cases duration : parseStep text with
      | error error =>
          rw [duration] at parsed
          cases parsed
      | ok value =>
          rw [duration] at parsed
          cases parsed
          exact ⟨le_of_lt (parseStep_bounds duration).1, (parseStep_bounds duration).2⟩

theorem WindowSpec.maxWindows_pos {spec : WindowSpec} (valid : spec.validate = .ok ()) : 0 < spec.maxWindows := by
  rcases bind_eq_ok valid with ⟨step, _, afterStep⟩
  rcases bind_eq_ok afterStep with ⟨_, _, afterGranularity⟩
  rcases bind_eq_ok afterGranularity with ⟨lookback, _, afterLookback⟩
  rcases bind_eq_ok afterLookback with ⟨_, _, counted⟩
  split at counted
  · cases counted
  · rename_i positive
    exact Nat.pos_of_ne_zero positive

end Slicing
end FaucetStream
