import Mathlib.Logic.Basic

namespace FaucetStream

/-!
# Errors

The error type every connector and every engine function shares, with the two
readings of it that the engine branches on: whether an error is transient, and
which retry class it belongs to.  Durations are milliseconds.  A transport
error of the HTTP client shows what the engine asks of it: whether it timed
out, its status and its text.
-/

inductive FaucetError where
  | http (isTimeout : Bool) (status : Option Nat) (message : String)
  | httpStatus (status : Nat) (url body : String)
  | json (message : String)
  | jsonPath (message : String)
  | auth (message : String)
  | rateLimited (retryAfter : Nat)
  | url (message : String)
  | transform (message : String)
  | config (message : String)
  | source (message : String)
  | sink (message : String)
  | qualityFailure (check message : String)
  | schemaDrift (columns : List String) (message : String)
  | policyViolation (rule column message : String)
  | budgetExceeded (budget : String) (limit actual : Nat)
  | rowsUnaccounted (offered accepted : Nat)
  | profileDrift (columns : List String) (message : String)
  | contractViolation (version message : String)
  | state (message : String)
  | stateIncompatible (key found expected : String)
  | circuitOpen (failures cooldown : Nat)
  | timeout (operation : String) (after : Nat)
  | cancelled (operation : String)
  | custom (message : String)
  deriving DecidableEq

/-- The class of a transient failure. -/
inductive RetryClass where
  | http5xx
  | rateLimited
  | connection
  | timeout
  deriving DecidableEq

namespace FaucetError

def classifyTransport (isTimeout : Bool) (status : Option Nat) : Option RetryClass :=
  if isTimeout then some .timeout
  else
    match status with
    | some status =>
        if 500 ≤ status then some .http5xx
        else if status = 429 then some .rateLimited
        else none
    | none => some .connection

/-- The retry class of an error, when it is transient. -/
def classify : FaucetError -> Option RetryClass
  | .httpStatus status _ _ =>
      if status = 429 then some .rateLimited
      else if 500 ≤ status then some .http5xx
      else none
  | .rateLimited _ => some .rateLimited
  | .timeout _ _ => some .timeout
  | .http isTimeout status _ => classifyTransport isTimeout status
  | _ => none

/-! ## Texts -/

/-- The debug form of a duration: whole seconds with up to three decimals, or
milliseconds. -/
def durationText (milliseconds : Nat) : String :=
  if milliseconds = 0 then "0ns"
  else if milliseconds < 1000 then toString milliseconds ++ "ms"
  else
    let rest := milliseconds % 1000
    let digits := (toString (1000 + rest)).toList.drop 1
    let kept := (digits.reverse.dropWhile (· == '0')).reverse
    let fraction := if kept.isEmpty then "" else "." ++ String.ofList kept
    toString (milliseconds / 1000) ++ fraction ++ "s"

/-- The debug form of a list of names. -/
def namesText (names : List String) : String :=
  "[" ++ String.intercalate ", " (names.map (fun name => "\"" ++ name ++ "\"")) ++ "]"

/-- The text of an error, as it is put into envelopes and other errors. -/
def text : FaucetError -> String
  | .http _ _ message => "HTTP error: " ++ message
  | .httpStatus status address body => "HTTP " ++ toString status ++ " from " ++ address ++ ": " ++ body
  | .json message => "JSON error: " ++ message
  | .jsonPath message => "JSONPath error: " ++ message
  | .auth message => "Auth error: " ++ message
  | .rateLimited retryAfter => "Rate limited: retry after " ++ durationText retryAfter
  | .url message => "URL error: " ++ message
  | .transform message => "Transform error: " ++ message
  | .config message => "Config error: " ++ message
  | .source message => "Source error: " ++ message
  | .sink message => "Sink error: " ++ message
  | .qualityFailure check message => "Quality check '" ++ check ++ "' failed: " ++ message
  | .schemaDrift columns message => "Schema drift on columns " ++ namesText columns ++ ": " ++ message
  | .policyViolation rule column message =>
      "Policy `" ++ rule ++ "` violated on column `" ++ column ++ "`: " ++ message
  | .budgetExceeded budget limit actual =>
      "Budget `" ++ budget ++ "` exceeded: limit " ++ toString limit ++ ", actual " ++ toString actual
  | .rowsUnaccounted offered accepted =>
      "Rows unaccounted: the sink accepted " ++ toString accepted ++ " of " ++ toString offered ++
        " offered rows and reported no per-row failure or coalescing for the rest"
  | .profileDrift columns message => "Profile drift on columns " ++ namesText columns ++ ": " ++ message
  | .contractViolation version message => "Contract v" ++ version ++ " violated: " ++ message
  | .state message => "State error: " ++ message
  | .stateIncompatible key found expected =>
      "state '" ++ key ++ "' is incompatible: found " ++ found ++ ", expected " ++ expected ++
        " — it was written by a newer faucet or by a different source; run the release that wrote it, " ++
        "or reset the row (`faucet state reset`) after confirming where it should resume"
  | .circuitOpen failures cooldown =>
      "Circuit open after " ++ toString failures ++ " consecutive failures; cooldown " ++ durationText cooldown
  | .timeout operation after => operation ++ " timed out after " ++ durationText after
  | .cancelled operation => operation ++ " cancelled"
  | .custom message => "Connector error: " ++ message

end FaucetError
/-- A sequence that succeeds did so in both its parts. -/
theorem bind_eq_ok {E A B : Type} {first : Except E A} {rest : A -> Except E B} {result : B}
    (run : (first >>= rest) = .ok result) : exists middle, first = .ok middle ∧ rest middle = .ok result := by
  cases first with
  | error error => cases run
  | ok middle => exact ⟨middle, rfl, run⟩

end FaucetStream
