import FaucetStream.Error
import FaucetStream.Json.Value
import FaucetStream.Library.Split

namespace FaucetStream
namespace Governance

open Json
open Library

/-!
# The passes of page governance

Quality checks, the data contract and the drift quarantine each look at a
list of records, keep some and set others aside with a position.  Every pass
counts positions in the list it is given.  What a single check, contract rule
or type comparison says about a record is a parameter here; what the passes
do with the answers is the source's code.
-/

/-! ## Envelopes -/

/-- The stage that set a record aside. -/
inductive DlqReason where
  | partialWrite
  | dlqAll
  | quality
  | schemaDrift
  | contract
  deriving DecidableEq

/-- A dead-letter envelope.  The source writes the kind and the redacted text
of `error`, and the time. -/
structure Envelope where
  payload : Value
  error : FaucetError
  reason : DlqReason
  sink : String
  pipeline : String
  row : String
  recordIndex : Nat
  deriving DecidableEq

/-- The names an envelope carries beside its record. -/
structure Labels where
  sink : String
  pipeline : String
  row : String

def buildEnvelope (payload : Value) (error : FaucetError) (reason : DlqReason) (labels : Labels)
    (recordIndex : Nat) : Envelope :=
  ⟨payload, error, reason, labels.sink, labels.pipeline, labels.row, recordIndex⟩

/-- The record an envelope carries, with the position it claims. -/
def Envelope.placed (envelope : Envelope) : Value × Nat := (envelope.payload, envelope.recordIndex)

/-! ## Quality -/

inductive OnFailure where
  | abort
  | quarantine
  | quarantineBatch
  deriving DecidableEq

structure RecordCheck where
  name : String
  field : Option String
  onFailure : OnFailure
  evaluate : Value -> Except String Unit

/-- A check over the surviving records: duplicates of a key, or one verdict for
all of them. -/
inductive BatchKind where
  | unique (key : Value -> String)
  | aggregate (evaluate : List Value -> Except String Unit)

structure BatchCheck where
  name : String
  field : Option String
  onFailure : OnFailure
  kind : BatchKind

/-- Compiled quality rules.  Compilation refuses `quarantine_batch` on a record
check. -/
structure CompiledQuality where
  record : List RecordCheck
  batch : List BatchCheck
  record_onFailure : forall check, check ∈ record -> check.onFailure ≠ .quarantineBatch

def CompiledQuality.requiresDlq (quality : CompiledQuality) : Bool :=
  quality.record.any (fun check => check.onFailure == .quarantine) ||
    quality.batch.any (fun check => check.onFailure == .quarantine || check.onFailure == .quarantineBatch)

structure QuarantinedRecord where
  record : Value
  check : String
  field : Option String
  message : String
  pageIndex : Nat

def QuarantinedRecord.placed (quarantined : QuarantinedRecord) : Value × Nat :=
  (quarantined.record, quarantined.pageIndex)

structure QualityOutcome where
  survivors : List Value
  quarantined : List QuarantinedRecord

/-- The loop state of the quality pass: the outcome so far and the page
positions of its survivors. -/
structure QualityState where
  survivors : List Value
  survivorIdx : List Nat
  quarantined : List QuarantinedRecord

def fieldMsg (field : Option String) (message : String) : String :=
  match field with
  | some name => "field '" ++ name ++ "': " ++ message
  | none => message

/-- The first check a record fails, with what it says. -/
def firstFailure : List RecordCheck -> Value -> Option (RecordCheck × String)
  | [], _ => none
  | check :: rest, record =>
      match check.evaluate record with
      | .ok () => firstFailure rest record
      | .error message => some (check, message)

def qualityRow (checks : List RecordCheck) (state : QualityState) (row : Value × Nat) :
    Except FaucetError QualityState :=
  match firstFailure checks row.1 with
  | none =>
      .ok { state with survivors := state.survivors ++ [row.1], survivorIdx := state.survivorIdx ++ [row.2] }
  | some (check, message) =>
      match check.onFailure with
      | .abort => .error (.qualityFailure check.name (fieldMsg check.field message))
      | .quarantine | .quarantineBatch =>
          .ok { state with quarantined := state.quarantined ++
            [⟨row.1, check.name, check.field, fieldMsg check.field message, row.2⟩] }

/-- The positions of the records whose key was seen before. -/
def evaluateUniqueCheck (key : Value -> String) (survivors : List Value) : List Nat :=
  (survivors.zipIdx.foldl (fun (state : List String × List Nat) row =>
    if state.1.contains (key row.1) then (state.1, state.2 ++ [row.2])
    else (key row.1 :: state.1, state.2)) ([], [])).2

/-- A survivor set aside by a batch check, under the position it had in the
page. -/
def setAside (check : BatchCheck) (message : String) (survivorIdx : List Nat) (row : Value × Nat) :
    QuarantinedRecord :=
  ⟨row.1, check.name, check.field, fieldMsg check.field message, survivorIdx.getD row.2 0⟩

def batchCheck (state : QualityState) (check : BatchCheck) : Except FaucetError QualityState :=
  match check.kind with
  | .unique key =>
      let dups := evaluateUniqueCheck key state.survivors
      if dups.isEmpty then .ok state
      else
        match check.onFailure with
        | .abort =>
            .error (.qualityFailure check.name (toString dups.length ++ " duplicate row(s)"))
        | .quarantine | .quarantineBatch =>
            let rows := state.survivors.zipIdx
            let kept := rows.filter (fun row => !dups.contains row.2)
            .ok {
              survivors := kept.map Prod.fst
              survivorIdx := kept.map (fun row => state.survivorIdx.getD row.2 0)
              quarantined := state.quarantined ++
                (rows.filter (fun row => dups.contains row.2)).map
                  (setAside check "duplicate key" state.survivorIdx) }
  | .aggregate evaluate =>
      match evaluate state.survivors with
      | .ok () => .ok state
      | .error message =>
          match check.onFailure with
          | .abort => .error (.qualityFailure check.name (fieldMsg check.field message))
          | .quarantine | .quarantineBatch =>
              .ok {
                survivors := []
                survivorIdx := []
                quarantined := state.quarantined ++
                  (state.survivors.zip state.survivorIdx).map (fun row =>
                    ⟨row.1, check.name, check.field, fieldMsg check.field message, row.2⟩) }

/-- The quality pass of one page: record checks, first failure wins, then
batch checks over the survivors. -/
def runQuality (quality : CompiledQuality) (records : List Value) : Except FaucetError QualityState := do
  let state ← records.zipIdx.foldlM (qualityRow quality.record) ⟨[], [], []⟩
  quality.batch.foldlM batchCheck state

def applyQuality (records : List Value) (quality : CompiledQuality) :
    Except FaucetError QualityOutcome := do
  let state ← runQuality quality records
  return ⟨state.survivors, state.quarantined⟩

/-! ## Contract -/

inductive OnBreach where
  | fail
  | quarantine
  | warn
  deriving DecidableEq

/-- What a record breaches: the rule, the field and the message. -/
structure Breach where
  rule : String
  field : Option String
  message : String

structure CompiledContract where
  version : String
  onBreach : OnBreach
  evaluate : Value -> Option Breach

def CompiledContract.requiresDlq (contract : CompiledContract) : Bool := contract.onBreach == .quarantine

structure ContractViolation where
  rule : String
  field : Option String
  message : String
  pageIndex : Nat

def ContractViolation.describe (violation : ContractViolation) : String :=
  match violation.field with
  | some field => "field '" ++ field ++ "': " ++ violation.message ++ " (" ++ violation.rule ++ ")"
  | none => violation.message ++ " (" ++ violation.rule ++ ")"

structure ViolatingRecord where
  record : Value
  violation : ContractViolation

def ViolatingRecord.placed (violating : ViolatingRecord) : Value × Nat :=
  (violating.record, violating.violation.pageIndex)

structure ContractOutcome where
  survivors : List Value
  quarantined : List ViolatingRecord
  warned : List ContractViolation

def evaluateRecord (record : Value) (contract : CompiledContract) (pageIndex : Nat) :
    Option ContractViolation :=
  (contract.evaluate record).map (fun breach => ⟨breach.rule, breach.field, breach.message, pageIndex⟩)

def contractRow (contract : CompiledContract) (outcome : ContractOutcome) (row : Value × Nat) :
    Except FaucetError ContractOutcome :=
  match evaluateRecord row.1 contract row.2 with
  | none => .ok { outcome with survivors := outcome.survivors ++ [row.1] }
  | some violation =>
      match contract.onBreach with
      | .fail => .error (.contractViolation contract.version violation.describe)
      | .quarantine => .ok { outcome with quarantined := outcome.quarantined ++ [⟨row.1, violation⟩] }
      | .warn =>
          .ok { outcome with
            warned := outcome.warned ++ [violation], survivors := outcome.survivors ++ [row.1] }

def applyContract (records : List Value) (contract : CompiledContract) :
    Except FaucetError ContractOutcome :=
  records.zipIdx.foldlM (contractRow contract) ⟨[], [], []⟩

/-! ## What the passes keep -/

/-- A step that may fail keeps an invariant over the rows it has passed, so the
whole loop does. -/
theorem foldlM_invariant {S R : Type} (step : S -> R -> Except FaucetError S)
    (Holds : List R -> S -> Prop)
    (keeps : forall passed state row next, Holds passed state -> step state row = .ok next ->
      Holds (passed ++ [row]) next)
    (rows passed : List R) (state final : S) (holds : Holds passed state)
    (run : rows.foldlM step state = .ok final) : Holds (passed ++ rows) final := by
  induction rows generalizing passed state with
  | nil =>
      rw [List.foldlM_nil] at run
      cases run
      rw [List.append_nil]
      exact holds
  | cons row rest ih =>
      rw [List.foldlM_cons] at run
      rcases bind_eq_ok run with ⟨next, stepped, rest'⟩
      have tail := ih (passed ++ [row]) next (keeps passed state row next holds stepped) rest'
      rw [List.append_assoc, List.singleton_append] at tail
      exact tail

/-- Survivors and their positions run in step, and together with the
quarantined records they are the rows passed so far. -/
structure QualityState.Holds (rows : List (Value × Nat)) (state : QualityState) : Prop where
  lockstep : state.survivors.length = state.survivorIdx.length
  split : Split rows (state.survivors.zip state.survivorIdx)
    (state.quarantined.map QuarantinedRecord.placed)

theorem qualityRow_holds (checks : List RecordCheck) (passed : List (Value × Nat)) (state : QualityState)
    (row : Value × Nat) (next : QualityState) (holds : state.Holds passed)
    (stepped : qualityRow checks state row = .ok next) : next.Holds (passed ++ [row]) := by
  unfold qualityRow at stepped
  split at stepped
  · cases stepped
    refine ⟨?_, ?_⟩
    · simp only [List.length_append, holds.lockstep, List.length_singleton]
    · rw [List.zip_append holds.lockstep]
      exact holds.split.concat_kept row
  · split at stepped
    · cases stepped
    all_goals
      cases stepped
      refine ⟨holds.lockstep, ?_⟩
      rw [List.map_append]
      exact holds.split.concat_removed row

/-- Positions looked up by index are the positions in step. -/
theorem zipIdx_map_getD (records : List Value) (positions : List Nat) (fallback : Nat -> Nat)
    (lockstep : records.length = positions.length) :
    records.zipIdx.map (fun row => (row.1, positions.getD row.2 (fallback row.2))) =
      records.zip positions := by
  apply List.ext_getElem
  · rw [List.length_map, List.length_zipIdx, List.length_zip, lockstep, Nat.min_self]
  · intro index left right
    rw [List.length_map, List.length_zipIdx] at left
    have bound : index < positions.length := lockstep ▸ left
    simp only [List.getElem_map, List.getElem_zipIdx, Nat.zero_add, List.getElem_zip, List.getD,
      List.getElem?_eq_getElem bound, Option.getD_some]

theorem batchCheck_holds (rows : List (Value × Nat)) (state : QualityState) (check : BatchCheck)
    (next : QualityState) (holds : state.Holds rows) (stepped : batchCheck state check = .ok next) :
    next.Holds rows := by
  have unique (dups : List Nat) :
      QualityState.Holds rows
        { survivors := (state.survivors.zipIdx.filter (fun row => !dups.contains row.2)).map Prod.fst
          survivorIdx := (state.survivors.zipIdx.filter (fun row => !dups.contains row.2)).map
            (fun row => state.survivorIdx.getD row.2 0)
          quarantined := state.quarantined ++
            (state.survivors.zipIdx.filter (fun row => dups.contains row.2)).map
              (setAside check "duplicate key" state.survivorIdx) } := by
    refine ⟨by rw [List.length_map, List.length_map], ?_⟩
    have parted := (Split.filter state.survivors.zipIdx (fun row => dups.contains row.2)).map
      (fun row => (row.1, state.survivorIdx.getD row.2 0))
    rw [zipIdx_map_getD _ _ (fun _ => 0) holds.lockstep] at parted
    simp only [List.zip_map', List.map_append, List.map_map]
    exact holds.split.trans parted
  have aggregate (message : String) :
      QualityState.Holds rows
        { survivors := [], survivorIdx := []
          quarantined := state.quarantined ++ (state.survivors.zip state.survivorIdx).map (fun row =>
            ⟨row.1, check.name, check.field, fieldMsg check.field message, row.2⟩) } := by
    refine ⟨rfl, ?_⟩
    rw [List.map_append, List.map_map]
    have placed : (QuarantinedRecord.placed ∘ fun row : Value × Nat =>
        (⟨row.1, check.name, check.field, fieldMsg check.field message, row.2⟩ : QuarantinedRecord)) = id := rfl
    rw [placed, List.map_id]
    exact holds.split.trans (Split.all _)
  cases kind : check.kind with
  | unique key =>
      simp only [batchCheck, kind] at stepped
      by_cases clean : (evaluateUniqueCheck key state.survivors).isEmpty = true
      · rw [if_pos clean] at stepped
        cases stepped
        exact holds
      · rw [if_neg clean] at stepped
        cases failure : check.onFailure <;> simp only [failure, reduceCtorEq] at stepped
        all_goals
          cases stepped
          exact unique (evaluateUniqueCheck key state.survivors)
  | aggregate evaluate =>
      simp only [batchCheck, kind] at stepped
      cases verdict : evaluate state.survivors with
      | ok _ =>
          rw [verdict] at stepped
          cases stepped
          exact holds
      | error message =>
          rw [verdict] at stepped
          cases failure : check.onFailure <;> simp only [failure, reduceCtorEq] at stepped
          all_goals
            cases stepped
            exact aggregate message

/-- The quality pass splits the page. -/
theorem runQuality_holds (quality : CompiledQuality) (records : List Value) (state : QualityState)
    (run : runQuality quality records = .ok state) : state.Holds records.zipIdx := by
  rcases bind_eq_ok run with ⟨middle, first, rest⟩
  have recordsPassed : middle.Holds records.zipIdx := by
    have start : QualityState.Holds [] ⟨[], [], []⟩ := ⟨rfl, Split.refl []⟩
    have whole := foldlM_invariant (qualityRow quality.record) QualityState.Holds
      (fun passed state row next => qualityRow_holds quality.record passed state row next)
      records.zipIdx [] _ middle start first
    rw [List.nil_append] at whole
    exact whole
  exact foldlM_invariant batchCheck (fun _ state => state.Holds records.zipIdx)
    (fun _ state check next => batchCheck_holds records.zipIdx state check next)
    quality.batch [] middle state recordsPassed rest

/-- The contract pass splits the records it is given, by their position in
that list. -/
structure ContractOutcome.Holds (rows : List (Value × Nat)) (outcome : ContractOutcome)
    (kept : List (Value × Nat)) : Prop where
  survivors : outcome.survivors = kept.map Prod.fst
  split : Split rows kept (outcome.quarantined.map ViolatingRecord.placed)

theorem contractRow_holds (contract : CompiledContract) (passed : List (Value × Nat))
    (outcome : ContractOutcome) (row : Value × Nat) (next : ContractOutcome)
    (holds : exists kept, outcome.Holds passed kept) (stepped : contractRow contract outcome row = .ok next) :
    exists kept, next.Holds (passed ++ [row]) kept := by
  rcases holds with ⟨kept, holds⟩
  have keeping : (outcome.survivors ++ [row.1]) = (kept ++ [row]).map Prod.fst := by
    rw [List.map_append, holds.survivors]
    rfl
  unfold contractRow at stepped
  split at stepped
  · cases stepped
    exact ⟨kept ++ [row], keeping, holds.split.concat_kept row⟩
  · next violation breached =>
    have position : violation.pageIndex = row.2 := by
      rcases Option.map_eq_some_iff.mp breached with ⟨breach, _, shape⟩
      rw [← shape]
    split at stepped
    · cases stepped
    · cases stepped
      refine ⟨kept, holds.survivors, ?_⟩
      rw [List.map_append]
      have placed : [(⟨row.1, violation⟩ : ViolatingRecord)].map ViolatingRecord.placed = [row] := by
        simp only [List.map_cons, List.map_nil, ViolatingRecord.placed, position]
      rw [placed]
      exact holds.split.concat_removed row
    · cases stepped
      exact ⟨kept ++ [row], keeping, holds.split.concat_kept row⟩

theorem applyContract_holds (contract : CompiledContract) (records : List Value) (outcome : ContractOutcome)
    (run : applyContract records contract = .ok outcome) :
    exists kept, outcome.Holds records.zipIdx kept := by
  have start : exists kept, ContractOutcome.Holds [] ⟨[], [], []⟩ kept := ⟨[], rfl, Split.refl []⟩
  have whole := foldlM_invariant (contractRow contract) (fun rows outcome => exists kept, outcome.Holds rows kept)
    (fun passed outcome row next => contractRow_holds contract passed outcome row next)
    records.zipIdx [] _ outcome start run
  rw [List.nil_append] at whole
  exact whole

end Governance
end FaucetStream
