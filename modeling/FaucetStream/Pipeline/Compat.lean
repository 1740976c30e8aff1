import Mathlib.Logic.Basic

namespace FaucetStream
namespace Pipeline

/-!
# Which path a run may take

The table of what each feature of a pipeline means on each path a run can
write through: it holds, it rules the path out in favour of a slower one, or
the combination is refused.  A pair that is not listed is supported.

The rows about a sink's capabilities are read when a configuration is loaded,
not when a run picks its path, and are left out.
-/

inductive Feature where
  | transforms
  | masking
  | maskingRetypesByValue
  | quality
  | contract
  | schemaDrift
  | schemaDriftFail
  | schemaDriftEvolve
  | dlqPropagate
  | dlqAll
  | exactlyOnce
  | keyedWrites
  | overwrite
  | groupedOverwrite
  | adaptive
  | resilience
  | cleanup
  | policyQuarantine
  | policy
  | budget
  | profiling
  | metadataColumns
  | dlqPerRowSink
  deriving DecidableEq

namespace Compat

inductive WritePath where
  | native
  | columnar
  | row
  | watermark
  | overwriteStaging
  deriving DecidableEq

inductive Verdict where
  | supported
  | disablesPath
  | refuse (reason : String)
  deriving DecidableEq

structure Rule where
  feature : Feature
  target : WritePath
  verdict : Verdict

def EO_WITH_DLQ : String :=
  "delivery: exactly_once (atomic watermark) is not compatible with a DLQ in this version"

def EO_WITH_OVERWRITE : String :=
  "delivery: exactly_once (atomic watermark) is not compatible with write_mode: overwrite"

def EO_WITH_POLICY_QUARANTINE : String :=
  "a policy rule with on_runtime: quarantine is not compatible with delivery: exactly_once " ++
    "(atomic watermark): a quarantined row would fail the whole page's atomic commit instead of reaching the " ++
    "DLQ (only a rule whose `when` can match the row's sink kind and attributes counts)"

def OVERWRITE_WITH_CLEANUP : String :=
  "write_mode: overwrite replaces the whole destination, so scoped cleanup has nothing to do"

def OVERWRITE_WITH_EVOLVE : String :=
  "write_mode: overwrite stages into a copy of the destination taken before the run, so " ++
    "schema.on_drift: evolve cannot apply to it"

def RULES : List Rule :=
  [ -- Native byte passthrough: nothing may need to see a record.
    ⟨.transforms, .native, .disablesPath⟩,
    ⟨.masking, .native, .disablesPath⟩,
    ⟨.maskingRetypesByValue, .native, .disablesPath⟩,
    ⟨.quality, .native, .disablesPath⟩,
    ⟨.contract, .native, .disablesPath⟩,
    ⟨.schemaDrift, .native, .disablesPath⟩,
    ⟨.schemaDriftFail, .native, .disablesPath⟩,
    ⟨.schemaDriftEvolve, .native, .disablesPath⟩,
    ⟨.dlqPropagate, .native, .disablesPath⟩,
    ⟨.dlqAll, .native, .disablesPath⟩,
    ⟨.exactlyOnce, .native, .disablesPath⟩,
    ⟨.keyedWrites, .native, .disablesPath⟩,
    ⟨.groupedOverwrite, .native, .disablesPath⟩,
    ⟨.adaptive, .native, .disablesPath⟩,
    ⟨.resilience, .native, .disablesPath⟩,
    ⟨.cleanup, .native, .disablesPath⟩,
    ⟨.policyQuarantine, .native, .disablesPath⟩,
    ⟨.policy, .native, .disablesPath⟩,
    ⟨.budget, .native, .disablesPath⟩,
    ⟨.profiling, .native, .disablesPath⟩,
    ⟨.metadataColumns, .native, .disablesPath⟩,
    -- Columnar: governance runs inside the loop; per-row outcomes do not.
    ⟨.maskingRetypesByValue, .columnar, .disablesPath⟩,
    ⟨.dlqAll, .columnar, .disablesPath⟩,
    ⟨.dlqPerRowSink, .columnar, .disablesPath⟩,
    ⟨.exactlyOnce, .columnar, .disablesPath⟩,
    ⟨.overwrite, .columnar, .disablesPath⟩,
    ⟨.groupedOverwrite, .columnar, .disablesPath⟩,
    ⟨.adaptive, .columnar, .disablesPath⟩,
    ⟨.resilience, .columnar, .disablesPath⟩,
    ⟨.cleanup, .columnar, .disablesPath⟩,
    ⟨.policyQuarantine, .columnar, .disablesPath⟩,
    ⟨.metadataColumns, .columnar, .disablesPath⟩,
    -- The exactly-once watermark commits a whole page atomically.
    ⟨.dlqPropagate, .watermark, .refuse EO_WITH_DLQ⟩,
    ⟨.dlqAll, .watermark, .refuse EO_WITH_DLQ⟩,
    ⟨.overwrite, .watermark, .refuse EO_WITH_OVERWRITE⟩,
    ⟨.groupedOverwrite, .watermark, .refuse EO_WITH_OVERWRITE⟩,
    ⟨.policyQuarantine, .watermark, .refuse EO_WITH_POLICY_QUARANTINE⟩,
    -- The staged overwrite swaps a pre-run copy in whole.
    ⟨.cleanup, .overwriteStaging, .refuse OVERWRITE_WITH_CLEANUP⟩,
    ⟨.schemaDriftEvolve, .overwriteStaging, .refuse OVERWRITE_WITH_EVOLVE⟩ ]

def verdict (feature : Feature) (target : WritePath) : Verdict :=
  ((RULES.find? (fun rule => rule.feature == feature && rule.target == target)).map Rule.verdict).getD .supported

/-- Whether a run with these features may take a path: none of them disables
or refuses it. -/
def pathAllowed (path : WritePath) (features : List Feature) : Bool :=
  features.all (fun feature => verdict feature path == .supported)

/-- One feature against a path is enough. -/
theorem pathAllowed_eq_false {path : WritePath} {features : List Feature} {feature : Feature}
    (member : feature ∈ features) (against : verdict feature path ≠ .supported) :
    pathAllowed path features = false := by
  apply List.all_eq_false.mpr
  refine ⟨feature, member, ?_⟩
  intro supported
  exact against (beq_iff_eq.mp supported)

end Compat
end Pipeline
end FaucetStream
