import FaucetStream.Governance.Passes

namespace FaucetStream
namespace Governance

open Json
open Library

/-!
# Governing a page

A page goes through masking, quality, the contract and schema drift, in this
order.  The quality, contract and drift passes may each set records aside, and
each of them counts positions in what the pass before left over.  The list of
page positions that travels with the records translates those counts back, so
that an envelope always names the position of its record in the page.
-/

/-! ## Schema drift -/

structure ColumnChange where
  name : String
  /-- The destination's type; `none` for a column it does not have. -/
  fromType : Option Value
  toType : Value

structure SchemaDiff where
  additions : List ColumnChange
  widenings : List ColumnChange
  incompatible : List ColumnChange
  droppableRequired : List String

namespace SchemaDiff

def isEmpty (diff : SchemaDiff) : Bool :=
  diff.additions.isEmpty && diff.widenings.isEmpty && diff.incompatible.isEmpty &&
    diff.droppableRequired.isEmpty

def changedColumns (diff : SchemaDiff) : List String :=
  (diff.additions ++ diff.widenings ++ diff.incompatible).map ColumnChange.name ++ diff.droppableRequired

end SchemaDiff

/-- The part of a diff a sink is asked to apply. -/
structure SchemaEvolution where
  additions : List ColumnChange
  widenings : List ColumnChange
  relaxNullability : List String

def SchemaEvolution.isEmpty (evolution : SchemaEvolution) : Bool :=
  evolution.additions.isEmpty && evolution.widenings.isEmpty && evolution.relaxNullability.isEmpty

inductive OnDrift where
  | warn
  | ignore
  | quarantine
  | fail
  | evolve
  deriving DecidableEq

inductive OnIncompatible where
  | fail
  | quarantine
  deriving DecidableEq

structure SchemaDriftPolicy where
  onDrift : OnDrift
  allowWidening : Bool
  onIncompatible : OnIncompatible
  relaxNullabilityOnMissing : Bool

def SchemaDriftPolicy.requiresDlq (policy : SchemaDriftPolicy) : Bool :=
  policy.onDrift == .quarantine || (policy.onDrift == .evolve && policy.onIncompatible == .quarantine)

/-- How schemas and values are compared. -/
structure TypeRules where
  inferPageSchema : Value -> List Value -> Value
  diffSchema : Value -> Value -> Bool -> SchemaDiff
  valueFits : Value -> String -> Value -> Bool
  baseWidened : Value -> Value -> Bool
  addsNull : Value -> Value -> Bool

/-- What the sink answers about its schema while a page is governed: the
schema, the outcome of an evolution, and the schema after it. -/
structure SinkSchema where
  currentSchema : Except FaucetError (Option Value)
  evolveSchema : SchemaEvolution -> Except FaucetError Unit
  evolvedSchema : Except FaucetError (Option Value)

/-- A record exhibits drift: it has a column the destination lacks, a value
that does not fit its column, or lacks a required column. -/
def exhibitsDrift (rules : TypeRules) (diff : SchemaDiff) (record : Value) : Bool :=
  match record with
  | .object entries =>
      entries.any (fun entry => diff.additions.any (fun change => change.name == entry.1)) ||
        (diff.widenings ++ diff.incompatible).any (fun change =>
          match change.fromType, entries.lookup change.name with
          | some dest, some value => !rules.valueFits dest change.name value
          | _, _ => false) ||
        diff.droppableRequired.any (fun column => (entries.lookup column).isNone)
  | _ => false

def driftEnvelope (diff : SchemaDiff) (pageIndices : List Nat) (labels : Labels) (row : Value × Nat) :
    Envelope :=
  buildEnvelope row.1
    (.schemaDrift diff.changedColumns "row exhibits schema drift (on_drift=quarantine)")
    .schemaDrift labels (pageIndices.getD row.2 row.2)

/-- Keep the records that show no drift and wrap the others. -/
def quarantineDriftRows (rules : TypeRules) (diff : SchemaDiff) (records : List Value)
    (pageIndices : List Nat) (labels : Labels) : List Value × List Envelope :=
  let rows := records.zipIdx
  ((rows.filter (fun row => !exhibitsDrift rules diff row.1)).map Prod.fst,
    (rows.filter (fun row => exhibitsDrift rules diff row.1)).map (driftEnvelope diff pageIndices labels))

/-- The columns of an object schema. -/
def schemaColumns (dest : Value) : List String :=
  match dest.get "properties" with
  | some (.object entries) => entries.map Prod.fst
  | _ => []

/-- Drop the fields a destination does not have. -/
def dropUnknown (dest record : Value) : Value :=
  match record with
  | .object entries => .object (entries.filter (fun entry => (schemaColumns dest).contains entry.1))
  | other => other

def evolutionOf (rules : TypeRules) (policy : SchemaDriftPolicy) (diff : SchemaDiff) : SchemaEvolution where
  additions := diff.additions
  widenings := diff.widenings.filter (fun change =>
    match change.fromType with
    | some dest => rules.baseWidened dest change.toType
    | none => false)
  relaxNullability :=
    diff.droppableRequired.filter (fun _ => policy.relaxNullabilityOnMissing) ++
      (diff.widenings.filter (fun change =>
        match change.fromType with
        | some dest => rules.addsNull dest change.toType
        | none => false)).map ColumnChange.name

/-- What the drift policy leaves of a page. -/
structure DriftOutcome where
  records : List Value
  abort : Option FaucetError
  envelopes : List Envelope
  destSchemaCache : Option (Option Value)
  warnedDrift : Bool

/-- Ask the sink to evolve, and read its schema again. -/
def evolveDestination (sink : SinkSchema) (evolution : SchemaEvolution) (cache : Option (Option Value)) :
    Except FaucetError (Option (Option Value)) :=
  if evolution.isEmpty then .ok cache
  else do
    sink.evolveSchema evolution
    let refreshed ← sink.evolvedSchema
    return some refreshed

/-- After an evolution: what becomes of the columns that cannot evolve. -/
def incompatibleResidue (rules : TypeRules) (policy : SchemaDriftPolicy) (diff : SchemaDiff)
    (records : List Value) (pageIndices : List Nat) (labels : Labels) (cache : Option (Option Value))
    (warned : Bool) : DriftOutcome :=
  if diff.incompatible.isEmpty then ⟨records, none, [], cache, warned⟩
  else
    match policy.onIncompatible with
    | .fail =>
        ⟨records,
          some (.schemaDrift (diff.incompatible.map ColumnChange.name)
            "incompatible type change cannot be auto-evolved (on_incompatible=fail)"),
          [], cache, warned⟩
    | .quarantine =>
        let (kept, envelopes) :=
          quarantineDriftRows rules ⟨[], [], diff.incompatible, []⟩ records pageIndices labels
        ⟨kept, none, envelopes, cache, warned⟩

def applyDriftPolicy (rules : TypeRules) (policy : SchemaDriftPolicy) (diff : SchemaDiff) (dest : Value)
    (records : List Value) (pageIndices : List Nat) (sink : SinkSchema) (labels : Labels)
    (cache : Option (Option Value)) (warned : Bool) : Except FaucetError DriftOutcome :=
  match policy.onDrift with
  | .warn => .ok ⟨records, none, [], cache, true⟩
  | .fail =>
      .ok ⟨records,
        some (.schemaDrift diff.changedColumns "schema drift detected (on_drift=fail)"), [], cache, warned⟩
  | .ignore => .ok ⟨records.map (dropUnknown dest), none, [], cache, warned⟩
  | .quarantine =>
      let (kept, envelopes) := quarantineDriftRows rules diff records pageIndices labels
      .ok ⟨kept, none, envelopes, cache, warned⟩
  | .evolve => do
      let cache ← evolveDestination sink (evolutionOf rules policy diff) cache
      return incompatibleResidue rules policy diff records pageIndices labels cache warned

/-! ## The whole of governance -/

structure GovernanceSpecs where
  /-- The record a masking policy makes of a record. -/
  masking : Option (Value -> Value)
  quality : Option CompiledQuality
  contract : Option CompiledContract
  schemaDrift : Option SchemaDriftPolicy
  rules : TypeRules
  labels : Labels
  hasDlq : Bool

/-- What governance carries from page to page. -/
structure GovernanceState where
  destSchemaCache : Option (Option Value)
  warnedDriftInert : Bool
  warnedDrift : Bool
  warnedContractBreach : Bool

structure GovernanceOutcome where
  records : List Value
  envelopes : List Envelope
  deferredAbort : Option FaucetError

/-- Records on their way through the passes, with their page positions and
the envelopes built so far. -/
structure Flow where
  records : List Value
  pageIndices : List Nat
  envelopes : List Envelope

variable (specs : GovernanceSpecs)

def GovernanceSpecs.masked (page : List Value) : List Value :=
  match specs.masking with
  | some mask => page.map mask
  | none => page

def qualityEnvelope (labels : Labels) (quarantined : QuarantinedRecord) : Envelope :=
  buildEnvelope quarantined.record (.qualityFailure quarantined.check quarantined.message) .quality labels
    quarantined.pageIndex

def qualityPass (records : List Value) : Except FaucetError Flow :=
  match specs.quality with
  | none => .ok ⟨records, List.range records.length, []⟩
  | some quality => do
      let outcome ← applyQuality records quality
      let quarantinedIdx := outcome.quarantined.map QuarantinedRecord.pageIndex
      return ⟨outcome.survivors,
        (List.range records.length).filter (fun index => !quarantinedIdx.contains index),
        outcome.quarantined.map (qualityEnvelope specs.labels)⟩

def contractEnvelope (version : String) (pageIndices : List Nat) (labels : Labels)
    (violating : ViolatingRecord) : Envelope :=
  buildEnvelope violating.record (.contractViolation version violating.violation.describe) .contract labels
    (pageIndices.getD violating.violation.pageIndex violating.violation.pageIndex)

def contractPass (flow : Flow) (warned : Bool) : Except FaucetError (Flow × Bool) :=
  match specs.contract with
  | none => .ok (flow, warned)
  | some contract => do
      let outcome ← applyContract flow.records contract
      let quarantined := outcome.quarantined.map (fun violating => violating.violation.pageIndex)
      return (⟨outcome.survivors,
        (flow.pageIndices.zipIdx.filter (fun entry => !quarantined.contains entry.2)).map Prod.fst,
        flow.envelopes ++ outcome.quarantined.map
          (contractEnvelope contract.version flow.pageIndices specs.labels)⟩,
        warned || !outcome.warned.isEmpty)

/-- Drift against the schema the sink reports; inert while it reports none. -/
def driftAgainst (policy : SchemaDriftPolicy) (state : GovernanceState)
    (sink : SinkSchema) (flow : Flow) (schema : Option Value) : Except FaucetError (DriftOutcome × Bool) :=
  match schema with
  | none => .ok (⟨flow.records, none, [], some none, state.warnedDrift⟩, true)
  | some dest =>
      let inferred := specs.rules.inferPageSchema dest flow.records
      let diff := specs.rules.diffSchema dest inferred policy.allowWidening
      if diff.isEmpty then
        .ok (⟨flow.records, none, [], some (some dest), state.warnedDrift⟩, state.warnedDriftInert)
      else do
        let outcome ← applyDriftPolicy specs.rules policy diff dest flow.records flow.pageIndices sink
          specs.labels (some (some dest)) state.warnedDrift
        return (outcome, state.warnedDriftInert)

/-- The drift pass.  The sink is asked for its schema until it reports one. -/
def driftPass (state : GovernanceState) (sink : SinkSchema) (flow : Flow) :
    Except FaucetError (DriftOutcome × Bool) :=
  match specs.schemaDrift with
  | none => .ok (⟨flow.records, none, [], state.destSchemaCache, state.warnedDrift⟩, state.warnedDriftInert)
  | some policy =>
      if flow.records.isEmpty then
        .ok (⟨flow.records, none, [], state.destSchemaCache, state.warnedDrift⟩, state.warnedDriftInert)
      else
        match state.destSchemaCache with
        | some (some dest) => driftAgainst specs policy state sink flow (some dest)
        | _ => sink.currentSchema >>= driftAgainst specs policy state sink flow

/-- Without a dead-letter queue no envelope can be stranded, so a drift abort
is raised at once. -/
def deferAbort (hasDlq : Bool) (abort : Option FaucetError) : Except FaucetError (Option FaucetError) :=
  match abort with
  | some error => if hasDlq then .ok (some error) else .error error
  | none => .ok none

def applyGovernance (state : GovernanceState) (sink : SinkSchema)
    (page : List Value) : Except FaucetError (GovernanceOutcome × GovernanceState) := do
  let quality ← qualityPass specs (specs.masked page)
  let (contract, warnedContractBreach) ← contractPass specs quality state.warnedContractBreach
  let (drift, warnedDriftInert) ← driftPass specs state sink contract
  let deferredAbort ← deferAbort specs.hasDlq drift.abort
  return (⟨drift.records, contract.envelopes ++ drift.envelopes, deferredAbort⟩,
    ⟨drift.destSchemaCache, warnedDriftInert, drift.warnedDrift, warnedContractBreach⟩)

/-! ## Governance splits the page -/

/-- The records in flow stand beside their page positions, and with the
envelopes they make up the masked page. -/
structure Flow.Holds (masked : List Value) (flow : Flow) : Prop where
  lockstep : flow.records.length = flow.pageIndices.length
  split : Split masked.zipIdx (flow.records.zip flow.pageIndices) (flow.envelopes.map Envelope.placed)

/-- Among the positions of a list, the kept ones are those not set aside. -/
theorem split_positions {rows : List Value} {kept removed : List (Value × Nat)}
    (split : Split rows.zipIdx kept removed) :
    kept.map Prod.snd =
      (List.range rows.length).filter (fun index => !(removed.map Prod.snd).contains index) := by
  have positions := split.map Prod.snd
  rw [List.zipIdx_map_snd, ← List.range_eq_range'] at positions
  exact positions.kept_eq_filter List.nodup_range

theorem qualityPass_holds (records : List Value) (flow : Flow)
    (passed : qualityPass specs records = .ok flow) : flow.Holds records := by
  unfold qualityPass at passed
  cases rules : specs.quality with
  | none =>
      simp only [rules] at passed
      cases passed
      refine ⟨List.length_range.symm, ?_⟩
      rw [List.range_eq_range', ← List.zipIdx_eq_zip_range']
      exact Split.refl _
  | some quality =>
      simp only [rules, applyQuality] at passed
      cases ran : runQuality quality records with
      | error error =>
          rw [ran] at passed
          cases passed
      | ok state =>
          rw [ran] at passed
          cases passed
          have holds := runQuality_holds quality records state ran
          have positions := split_positions holds.split
          rw [List.map_snd_zip (Nat.le_of_eq holds.lockstep.symm), List.map_map] at positions
          change state.survivorIdx = (List.range records.length).filter (fun index =>
            !(state.quarantined.map QuarantinedRecord.pageIndex).contains index) at positions
          refine ⟨?_, ?_⟩
          · rw [← positions]
            exact holds.lockstep
          · rw [← positions, List.map_map]
            exact holds.split

theorem zipIdx_filter_map_fst (positions : List Nat) (keep : Nat -> Bool) :
    (positions.zipIdx.filter (fun entry => keep entry.2)).map Prod.fst =
      ((List.range positions.length).filter keep).map (fun index => positions.getD index index) := by
  have indexed : positions.zipIdx =
      (List.range positions.length).map (fun index => (positions.getD index index, index)) := by
    apply List.ext_getElem
    · rw [List.length_zipIdx, List.length_map, List.length_range]
    · intro index left right
      rw [List.length_zipIdx] at left
      simp only [List.getElem_zipIdx, Nat.zero_add, List.getElem_map, List.getElem_range, List.getD,
        List.getElem?_eq_getElem left, Option.getD_some]
  rw [indexed, List.filter_map, List.map_map]
  rfl

theorem contractPass_holds (masked : List Value) (flow next : Flow) (warned warned' : Bool) (holds : flow.Holds masked)
    (passed : contractPass specs flow warned = .ok (next, warned')) : next.Holds masked := by
  unfold contractPass at passed
  cases rules : specs.contract with
  | none =>
      simp only [rules] at passed
      cases passed
      exact holds
  | some contract =>
      simp only [rules] at passed
      cases ran : applyContract flow.records contract with
      | error error =>
          rw [ran] at passed
          cases passed
      | ok outcome =>
          rw [ran] at passed
          cases passed
          rcases applyContract_holds contract flow.records outcome ran with ⟨kept, local'⟩
          -- The pass counted in its own input; the page positions translate.
          have translated := local'.split.map (fun row => (row.1, flow.pageIndices.getD row.2 row.2))
          rw [zipIdx_map_getD _ _ (fun index => index) holds.lockstep] at translated
          have positions := split_positions local'.split
          rw [List.map_map] at positions
          have indices : (flow.pageIndices.zipIdx.filter (fun entry =>
              !(outcome.quarantined.map (fun violating => violating.violation.pageIndex)).contains entry.2)).map
                Prod.fst = kept.map (fun row => flow.pageIndices.getD row.2 row.2) := by
            rw [zipIdx_filter_map_fst flow.pageIndices (fun index =>
              !(outcome.quarantined.map (fun violating => violating.violation.pageIndex)).contains index),
              ← holds.lockstep]
            change ((List.range flow.records.length).filter (fun index =>
              !(outcome.quarantined.map (Prod.snd ∘ ViolatingRecord.placed)).contains index)).map _ = _
            rw [← positions, List.map_map]
            rfl
          refine ⟨?_, ?_⟩
          · rw [indices, local'.survivors, List.length_map, List.length_map]
          · rw [indices, local'.survivors, List.zip_map', List.map_append, List.map_map]
            have joined := holds.split.trans translated
            rw [List.map_map] at joined
            exact joined

theorem quarantineDriftRows_split (rules : TypeRules) (diff : SchemaDiff) (records : List Value)
    (pageIndices : List Nat) (labels : Labels) (lockstep : records.length = pageIndices.length) :
    exists kept, (quarantineDriftRows rules diff records pageIndices labels).1 = kept.map Prod.fst ∧
      Split (records.zip pageIndices) kept
        ((quarantineDriftRows rules diff records pageIndices labels).2.map Envelope.placed) := by
  have parted := (Split.filter records.zipIdx (fun row => exhibitsDrift rules diff row.1)).map
    (fun row => (row.1, pageIndices.getD row.2 row.2))
  rw [zipIdx_map_getD _ _ (fun index => index) lockstep] at parted
  refine ⟨(records.zipIdx.filter (fun row => !exhibitsDrift rules diff row.1)).map
    (fun row => (row.1, pageIndices.getD row.2 row.2)), ?_, ?_⟩
  · unfold quarantineDriftRows
    rw [List.map_map]
    rfl
  · unfold quarantineDriftRows
    rw [List.map_map]
    exact parted

/-- What the drift pass may do to a record it keeps: nothing, or drop the
columns the destination lacks. -/
inductive Kept (policy : Option SchemaDriftPolicy) : (Value -> Value) -> Prop
  | unchanged : Kept policy id
  | trimmed (spec : SchemaDriftPolicy) (dest : Value) (configured : policy = some spec)
      (ignoring : spec.onDrift = .ignore) : Kept policy (dropUnknown dest)

/-- The drift pass splits the records in flow. -/
structure DriftOutcome.Holds (policy : Option SchemaDriftPolicy) (rows : List (Value × Nat))
    (outcome : DriftOutcome) (kept : List (Value × Nat)) (form : Value -> Value) : Prop where
  kind : Kept policy form
  records : outcome.records = kept.map (fun row => form row.1)
  split : Split rows kept (outcome.envelopes.map Envelope.placed)

theorem DriftOutcome.untouched (policy : Option SchemaDriftPolicy) (flow : Flow)
    (lockstep : flow.records.length = flow.pageIndices.length) (abort : Option FaucetError)
    (cache : Option (Option Value)) (warned : Bool) :
    DriftOutcome.Holds policy (flow.records.zip flow.pageIndices) ⟨flow.records, abort, [], cache, warned⟩
      (flow.records.zip flow.pageIndices) id := by
  refine ⟨Kept.unchanged, ?_, Split.refl _⟩
  exact (List.map_fst_zip (Nat.le_of_eq lockstep)).symm

theorem DriftOutcome.quarantined (policy : Option SchemaDriftPolicy) (rules : TypeRules) (diff : SchemaDiff)
    (flow : Flow) (labels : Labels) (lockstep : flow.records.length = flow.pageIndices.length)
    (cache : Option (Option Value)) (warned : Bool) :
    exists kept, DriftOutcome.Holds policy (flow.records.zip flow.pageIndices)
      ⟨(quarantineDriftRows rules diff flow.records flow.pageIndices labels).1, none,
        (quarantineDriftRows rules diff flow.records flow.pageIndices labels).2, cache, warned⟩ kept id := by
  rcases quarantineDriftRows_split rules diff flow.records flow.pageIndices labels lockstep with
    ⟨kept, records, split⟩
  exact ⟨kept, Kept.unchanged, records, split⟩

theorem incompatibleResidue_holds (rules : TypeRules) (policy : SchemaDriftPolicy) (diff : SchemaDiff)
    (flow : Flow) (labels : Labels) (cache : Option (Option Value)) (warned : Bool)
    (lockstep : flow.records.length = flow.pageIndices.length) :
    exists kept form, (incompatibleResidue rules policy diff flow.records flow.pageIndices labels cache
      warned).Holds (some policy) (flow.records.zip flow.pageIndices) kept form := by
  have untouched := DriftOutcome.untouched (some policy) flow lockstep
  unfold incompatibleResidue
  by_cases clean : diff.incompatible.isEmpty = true
  · rw [if_pos clean]
    exact ⟨_, _, untouched none cache warned⟩
  · rw [if_neg clean]
    cases policy.onIncompatible with
    | fail => exact ⟨_, _, untouched _ cache warned⟩
    | quarantine =>
        rcases DriftOutcome.quarantined (some policy) rules ⟨[], [], diff.incompatible, []⟩ flow labels
          lockstep cache warned with ⟨kept, holds⟩
        exact ⟨kept, id, holds⟩

theorem applyDriftPolicy_holds (rules : TypeRules) (policy : SchemaDriftPolicy) (diff : SchemaDiff)
    (dest : Value) (flow : Flow) (sink : SinkSchema) (labels : Labels) (cache : Option (Option Value))
    (warned : Bool) (outcome : DriftOutcome)
    (lockstep : flow.records.length = flow.pageIndices.length)
    (applied : applyDriftPolicy rules policy diff dest flow.records flow.pageIndices sink labels cache warned =
      .ok outcome) :
    exists kept form, outcome.Holds (some policy) (flow.records.zip flow.pageIndices) kept form := by
  have untouched := DriftOutcome.untouched (some policy) flow lockstep
  cases mode : policy.onDrift with
  | warn =>
      simp only [applyDriftPolicy, mode, Except.ok.injEq] at applied
      subst applied
      exact ⟨_, _, untouched none cache true⟩
  | fail =>
      simp only [applyDriftPolicy, mode, Except.ok.injEq] at applied
      subst applied
      exact ⟨_, _, untouched _ cache warned⟩
  | ignore =>
      simp only [applyDriftPolicy, mode, Except.ok.injEq] at applied
      subst applied
      refine ⟨flow.records.zip flow.pageIndices, dropUnknown dest,
        Kept.trimmed policy dest rfl mode, ?_, Split.refl _⟩
      change flow.records.map (dropUnknown dest) = (flow.records.zip flow.pageIndices).map (dropUnknown dest ∘ Prod.fst)
      rw [← List.map_map, List.map_fst_zip (Nat.le_of_eq lockstep)]
  | quarantine =>
      simp only [applyDriftPolicy, mode, Except.ok.injEq] at applied
      subst applied
      rcases DriftOutcome.quarantined (some policy) rules diff flow labels lockstep cache warned with ⟨kept, holds⟩
      exact ⟨kept, id, holds⟩
  | evolve =>
      simp only [applyDriftPolicy, mode] at applied
      rcases bind_eq_ok applied with ⟨refreshed, _, returned⟩
      cases returned
      exact incompatibleResidue_holds rules policy diff flow labels refreshed warned lockstep

theorem driftAgainst_holds (policy : SchemaDriftPolicy) (state : GovernanceState)
    (sink : SinkSchema) (flow : Flow) (schema : Option Value) (outcome : DriftOutcome) (inert : Bool)
    (lockstep : flow.records.length = flow.pageIndices.length)
    (passed : driftAgainst specs policy state sink flow schema = .ok (outcome, inert)) :
    exists kept form, outcome.Holds (some policy) (flow.records.zip flow.pageIndices) kept form := by
  have untouched := DriftOutcome.untouched (some policy) flow lockstep none
  cases schema with
  | none =>
      cases passed
      exact ⟨_, _, untouched _ _⟩
  | some dest =>
      simp only [driftAgainst] at passed
      split at passed
      · cases passed
        exact ⟨_, _, untouched _ _⟩
      · rcases bind_eq_ok passed with ⟨drifted, applied, rest⟩
        cases rest
        exact applyDriftPolicy_holds _ _ _ _ _ _ _ _ _ _ lockstep applied

theorem driftPass_holds (state : GovernanceState) (sink : SinkSchema) (flow : Flow)
    (outcome : DriftOutcome) (inert : Bool) (lockstep : flow.records.length = flow.pageIndices.length)
    (passed : driftPass specs state sink flow = .ok (outcome, inert)) :
    exists kept form, outcome.Holds specs.schemaDrift (flow.records.zip flow.pageIndices) kept form := by
  have untouched := DriftOutcome.untouched specs.schemaDrift flow lockstep none
  unfold driftPass at passed
  cases configured : specs.schemaDrift with
  | none =>
      simp only [configured, Except.ok.injEq, Prod.mk.injEq] at passed
      rw [configured] at untouched
      rw [← passed.1]
      exact ⟨_, _, untouched _ _⟩
  | some policy =>
      rw [configured] at untouched
      simp only [configured] at passed
      by_cases empty : flow.records.isEmpty = true
      · rw [if_pos empty] at passed
        cases passed
        exact ⟨_, _, untouched _ _⟩
      · rw [if_neg empty] at passed
        split at passed
        · exact driftAgainst_holds specs policy state sink flow _ outcome inert lockstep passed
        · rcases bind_eq_ok passed with ⟨schema, _, rest⟩
          exact driftAgainst_holds specs policy state sink flow schema outcome inert lockstep rest

/-- What governance returns is a split of the masked page. -/
theorem applyGovernance_split (state : GovernanceState) (sink : SinkSchema)
    (page : List Value) (outcome : GovernanceOutcome) (next : GovernanceState)
    (governed : applyGovernance specs state sink page = .ok (outcome, next)) :
    exists kept form, Kept specs.schemaDrift form ∧ outcome.records = kept.map (fun row => form row.1) ∧
      Split (specs.masked page).zipIdx kept (outcome.envelopes.map Envelope.placed) := by
  rcases bind_eq_ok governed with ⟨quality, qualityPassed, afterQuality⟩
  rcases bind_eq_ok afterQuality with ⟨⟨contract, warned⟩, contractPassed, afterContract⟩
  rcases bind_eq_ok afterContract with ⟨⟨drift, inert⟩, driftPassed, afterDrift⟩
  rcases bind_eq_ok afterDrift with ⟨abort, _, returned⟩
  cases returned
  have qualityHolds := qualityPass_holds specs _ quality qualityPassed
  have contractHolds := contractPass_holds specs _ quality contract _ warned qualityHolds contractPassed
  rcases driftPass_holds specs state sink contract drift inert contractHolds.lockstep driftPassed with
    ⟨kept, form, driftHolds⟩
  refine ⟨kept, form, driftHolds.kind, driftHolds.records, ?_⟩
  rw [List.map_append]
  exact contractHolds.split.trans driftHolds.split

theorem length_masked (page : List Value) :
    (specs.masked page).length = page.length := by
  unfold GovernanceSpecs.masked
  cases specs.masking with
  | none => rfl
  | some mask => exact List.length_map _

/-- For every page and every combination of passes that returns: each position
of the page occurs exactly once, as a survivor in page order or as the record
index of one envelope; a survivor is the masked record at its position, up to
the columns an ignoring drift policy drops; and the payload of an envelope is
the masked record at its position. -/
theorem applyGovernance_partition (state : GovernanceState) (sink : SinkSchema)
    (page : List Value) (outcome : GovernanceOutcome) (next : GovernanceState)
    (governed : applyGovernance specs state sink page = .ok (outcome, next)) :
    exists (positions : List Nat) (form : Value -> Value), Kept specs.schemaDrift form ∧
      positions.Pairwise (· < ·) ∧
      (positions ++ outcome.envelopes.map Envelope.recordIndex).Perm (List.range page.length) ∧
      outcome.records.map some = positions.map (fun position => ((specs.masked page)[position]?).map form) ∧
      forall envelope, envelope ∈ outcome.envelopes ->
        (specs.masked page)[envelope.recordIndex]? = some envelope.payload := by
  rcases applyGovernance_split specs state sink page outcome next governed with ⟨kept, form, kind, records, split⟩
  have positions := split.map Prod.snd
  rw [List.zipIdx_map_snd, ← List.range_eq_range', length_masked, List.map_map] at positions
  refine ⟨kept.map Prod.snd, form, kind, ?_, positions.whole, ?_, ?_⟩
  · exact List.pairwise_lt_range.sublist positions.order
  · rw [records, List.map_map, List.map_map]
    refine List.map_congr_left (fun row member => ?_)
    have found := List.mem_zipIdx_iff_getElem?.mp (split.order.subset member)
    simp only [Function.comp_apply, found, Option.map_some]
  · intro envelope member
    have placed := split.mem_removed (List.mem_map_of_mem member)
    exact List.mem_zipIdx_iff_getElem?.mp placed

/-! ### A page that three checks take rows from -/

private def sampleRow (id : Value) (k : String) : Value := .object [("id", id), ("k", .string k)]

def samplePage : List Value :=
  [sampleRow (.number (.int 1)) "a", sampleRow .null "b", sampleRow (.number (.int 3)) "a",
    sampleRow (.number (.int 4)) "c", sampleRow (.number (.int 5)) "d"]

/-- A null check, a uniqueness check over what it leaves, and a contract over
what both leave. -/
def sampleSpecs : GovernanceSpecs where
  masking := none
  quality := some
    { record := [⟨"not_null", some "id", .quarantine, fun record =>
        if record.get "id" = some .null then .error "is null" else .ok ()⟩]
      batch := [⟨"unique", none, .quarantine, .unique (fun record =>
        ((record.get "k").getD .null).text)⟩]
      record_onFailure := by
        intro check member
        rw [List.mem_singleton.mp member]
        decide }
  contract := some ⟨"1", .quarantine, fun record =>
    if record.get "k" = some (.string "c") then some ⟨"enum", some "k", "not allowed"⟩ else none⟩
  schemaDrift := none
  rules := ⟨fun dest _ => dest, fun _ _ _ => ⟨[], [], [], []⟩, fun _ _ _ => true, fun _ _ => false,
    fun _ _ => false⟩
  labels := ⟨"sink", "pipeline", "row"⟩
  hasDlq := true

def sampleState : GovernanceState := ⟨none, false, false, false⟩

def sampleSink : SinkSchema := ⟨.ok none, fun _ => .ok (), .ok none⟩

theorem applyGovernance_partition_samplePage :
    exists outcome next, applyGovernance sampleSpecs sampleState sampleSink samplePage = .ok (outcome, next) ∧
      outcome.envelopes.map Envelope.recordIndex = [1, 2, 3] ∧
      forall envelope, envelope ∈ outcome.envelopes ->
        samplePage[envelope.recordIndex]? = some envelope.payload := by
  refine ⟨_, _, rfl, by decide, ?_⟩
  rcases applyGovernance_partition sampleSpecs sampleState sampleSink samplePage _ _ rfl with
    ⟨_, _, _, _, _, _, payloads⟩
  exact payloads

/-! ## Envelopes need a dead-letter queue -/

theorem firstFailure_mem {checks : List RecordCheck} {record : Value} {check : RecordCheck} {message : String}
    (failed : firstFailure checks record = some (check, message)) : check ∈ checks := by
  induction checks with
  | nil => cases failed
  | cons first rest ih =>
      unfold firstFailure at failed
      split at failed
      · exact List.mem_cons_of_mem first (ih failed)
      · cases failed
        exact List.mem_cons_self

/-- Rules that need no dead-letter queue abort at the first failure. -/
theorem CompiledQuality.aborts (quality : CompiledQuality) (keeps : quality.requiresDlq = false) :
    (forall check, check ∈ quality.record -> check.onFailure = .abort) ∧
      forall check, check ∈ quality.batch -> check.onFailure = .abort := by
  unfold requiresDlq at keeps
  rw [Bool.or_eq_false_iff, List.any_eq_false, List.any_eq_false] at keeps
  constructor
  · intro check member
    have kept := keeps.1 check member
    have notBatch := quality.record_onFailure check member
    cases failure : check.onFailure with
    | abort => rfl
    | quarantine => rw [failure] at kept; exact absurd rfl kept
    | quarantineBatch => exact absurd failure notBatch
  · intro check member
    have kept := keeps.2 check member
    cases failure : check.onFailure with
    | abort => rfl
    | quarantine | quarantineBatch => rw [failure] at kept; exact absurd rfl kept

theorem runQuality_clean {quality : CompiledQuality} {records : List Value} {state : QualityState}
    (keeps : quality.requiresDlq = false) (run : runQuality quality records = .ok state) :
    state.quarantined = [] := by
  have aborts := quality.aborts keeps
  rcases bind_eq_ok run with ⟨middle, first, rest⟩
  have afterRecords : middle.quarantined = [] := by
    refine foldlM_invariant (qualityRow quality.record) (fun _ state => state.quarantined = []) ?_
      records.zipIdx [] _ middle rfl first
    intro passed state row next clean stepped
    unfold qualityRow at stepped
    split at stepped
    · cases stepped
      exact clean
    · next check message failed =>
      rw [aborts.1 check (firstFailure_mem failed)] at stepped
      cases stepped
  refine foldlM_invariant batchCheck (fun passed state => (forall check, check ∈ passed -> check.onFailure = .abort) ->
    state.quarantined = []) ?_ quality.batch [] middle state (fun _ => afterRecords) rest aborts.2
  intro passed state check next clean stepped abort
  have before := clean (fun other member => abort other (List.mem_append_left _ member))
  unfold batchCheck at stepped
  simp only [abort check (List.mem_append_right _ List.mem_cons_self)] at stepped
  split at stepped <;> split at stepped <;> cases stepped <;> exact before

theorem applyContract_clean {contract : CompiledContract} {records : List Value} {outcome : ContractOutcome}
    (keeps : contract.requiresDlq = false) (run : applyContract records contract = .ok outcome) :
    outcome.quarantined = [] := by
  refine foldlM_invariant (contractRow contract) (fun _ outcome => outcome.quarantined = []) ?_
    records.zipIdx [] _ outcome rfl run
  intro passed outcome row next clean stepped
  unfold contractRow at stepped
  split at stepped
  · cases stepped
    exact clean
  · cases policy : contract.onBreach <;> simp only [policy, reduceCtorEq] at stepped
    · rw [CompiledContract.requiresDlq, policy] at keeps
      cases keeps
    · cases stepped
      exact clean

theorem applyDriftPolicy_clean {rules : TypeRules} {policy : SchemaDriftPolicy} {diff : SchemaDiff} {dest : Value}
    {records : List Value} {pageIndices : List Nat} {sink : SinkSchema} {labels : Labels}
    {cache : Option (Option Value)} {warned : Bool} {outcome : DriftOutcome} (keeps : policy.requiresDlq = false)
    (applied : applyDriftPolicy rules policy diff dest records pageIndices sink labels cache warned = .ok outcome) :
    outcome.envelopes = [] := by
  unfold SchemaDriftPolicy.requiresDlq at keeps
  cases mode : policy.onDrift with
  | quarantine =>
      rw [mode] at keeps
      cases keeps
  | evolve =>
      simp only [applyDriftPolicy, mode] at applied
      rcases bind_eq_ok applied with ⟨refreshed, _, returned⟩
      cases returned
      unfold incompatibleResidue
      cases incompatible : policy.onIncompatible with
      | fail => split <;> rfl
      | quarantine =>
          rw [mode, incompatible] at keeps
          cases keeps
  | warn | fail | ignore =>
      simp only [applyDriftPolicy, mode] at applied
      cases applied
      rfl

theorem driftPass_clean {specs : GovernanceSpecs} {state : GovernanceState} {sink : SinkSchema} {flow : Flow}
    {outcome : DriftOutcome} {inert : Bool} (keeps : specs.schemaDrift.any SchemaDriftPolicy.requiresDlq = false)
    (passed : driftPass specs state sink flow = .ok (outcome, inert)) : outcome.envelopes = [] := by
  unfold driftPass at passed
  cases configured : specs.schemaDrift with
  | none =>
      simp only [configured] at passed
      cases passed
      rfl
  | some policy =>
      rw [configured] at keeps
      have against (schema : Option Value)
          (run : driftAgainst specs policy state sink flow schema = .ok (outcome, inert)) :
          outcome.envelopes = [] := by
        unfold driftAgainst at run
        split at run
        · cases run
          rfl
        · dsimp only at run
          split at run
          · cases run
            rfl
          · rcases bind_eq_ok run with ⟨drifted, applied, returned⟩
            cases returned
            exact applyDriftPolicy_clean keeps applied
      simp only [configured] at passed
      split at passed
      · cases passed
        rfl
      · split at passed
        · exact against _ passed
        · rcases bind_eq_ok passed with ⟨schema, _, rest⟩
          exact against schema rest

/-- A specification that may run without a dead-letter queue makes no
envelopes. -/
theorem applyGovernance_clean {specs : GovernanceSpecs} {state : GovernanceState} {sink : SinkSchema}
    {page : List Value} {outcome : GovernanceOutcome} {next : GovernanceState}
    (quality : specs.quality.any CompiledQuality.requiresDlq = false)
    (contract : specs.contract.any CompiledContract.requiresDlq = false)
    (drift : specs.schemaDrift.any SchemaDriftPolicy.requiresDlq = false)
    (governed : applyGovernance specs state sink page = .ok (outcome, next)) : outcome.envelopes = [] := by
  rcases bind_eq_ok governed with ⟨checked, qualityPassed, afterQuality⟩
  rcases bind_eq_ok afterQuality with ⟨⟨agreed, warned⟩, contractPassed, afterContract⟩
  rcases bind_eq_ok afterContract with ⟨⟨drifted, inert⟩, driftPassed, afterDrift⟩
  rcases bind_eq_ok afterDrift with ⟨abort, _, returned⟩
  cases returned
  have checkedClean : checked.envelopes = [] := by
    unfold qualityPass applyQuality at qualityPassed
    split at qualityPassed
    · cases qualityPassed
      rfl
    · next compiled rules =>
      rw [rules] at quality
      rcases bind_eq_ok qualityPassed with ⟨applied, ran, rest⟩
      rcases bind_eq_ok ran with ⟨final, run, shaped⟩
      cases shaped
      cases rest
      simp only [runQuality_clean quality run, List.map_nil]
  have agreedClean : agreed.envelopes = [] := by
    unfold contractPass at contractPassed
    split at contractPassed
    · cases contractPassed
      exact checkedClean
    · next compiled rules =>
      rw [rules] at contract
      rcases bind_eq_ok contractPassed with ⟨applied, run, rest⟩
      cases rest
      simp only [applyContract_clean contract run, checkedClean, List.map_nil, List.append_nil]
  change agreed.envelopes ++ drifted.envelopes = []
  rw [agreedClean, driftPass_clean drift driftPassed, List.append_nil]

end Governance
end FaucetStream
