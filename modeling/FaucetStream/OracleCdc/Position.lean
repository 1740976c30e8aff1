import FaucetStream.Error
import FaucetStream.Json.Value

namespace FaucetStream
namespace OracleCdc

open Json

/-!
# The bookmark of an Oracle capture

A position says up to which SCN every committed transaction was emitted, which
transactions that commit at that very SCN were, and from which SCN on redo has
to be mined again so that no open transaction loses its beginning.

SCNs are natural numbers; where the source adds one and stops at the largest
`u64`, so does the model.
-/

structure Position where
  commitScn : Nat
  restartScn : Nat
  committedXids : List String
  /-- The database incarnation the position belongs to. -/
  resetlogsScn : Option Nat
  /-- The pluggable database's, when there is one. -/
  pdbIncarnationScn : Option Nat
  deriving DecidableEq

def saturatingSucc (scn : Nat) : Nat := min (scn + 1) (2 ^ 64 - 1)

namespace Position

/-- A position with nothing emitted at its SCN. -/
def atScn (scn restart : Nat) : Position := ⟨scn, min restart (saturatingSucc scn), [], none, none⟩

variable (position : Position)

def bindIncarnation (current : Nat) : Except FaucetError Position :=
  match position.resetlogsScn with
  | some recorded =>
      if recorded ≠ current then
        .error (.source ("oracle-cdc: the bookmark was taken in the database incarnation that began at SCN " ++
          toString recorded ++ ", but the database was opened with RESETLOGS at SCN " ++ toString current ++
          "; its changes after the branch point may no longer exist. Re-snapshot the tables and reset the bookmark"))
      else .ok { position with resetlogsScn := some current }
  | none => .ok { position with resetlogsScn := some current }

def bindPdbIncarnation : Option Nat -> Except FaucetError Position
  | none => .ok position
  | some current =>
      match position.pdbIncarnationScn with
      | some recorded =>
          if recorded ≠ current then
            .error (.source ("oracle-cdc: the bookmark was taken in the pluggable database incarnation that began " ++
              "at SCN " ++ toString recorded ++ ", but the PDB's current incarnation began at SCN " ++
              toString current ++ " (a point-in-time recovery or flashback); its changes after the branch point " ++
              "may no longer exist. Re-snapshot the tables and reset the bookmark"))
          else .ok position
      | none => .ok { position with pdbIncarnationScn := some current }

/-- Where a fresh capture starts: at the current SCN, reaching back to the
start of the oldest open transaction.  A start of 0 is none. -/
def resumeFrom (currentScn : Nat) (oldestOpenStart : Option Nat) : Position :=
  atScn currentScn
    (match oldestOpenStart.filter (fun start => decide (0 < start)) with
    | some start => min start (currentScn + 1)
    | none => currentScn + 1)

def alreadyEmitted (commitScn : Nat) (xid : String) : Bool :=
  decide (commitScn < position.commitScn) ||
    (commitScn == position.commitScn && position.committedXids.contains xid)

/-- A transaction was emitted, with the oldest of those still open. -/
def recordCommit (commitScn : Nat) (xid : String) (oldestOpen : Option Nat) : Position :=
  let moved := if position.commitScn < commitScn then { position with commitScn := commitScn, committedXids := [] }
    else position
  let recorded := if commitScn == moved.commitScn && !moved.committedXids.contains xid then
      { moved with committedXids := moved.committedXids ++ [xid] }
    else moved
  { recorded with
    restartScn := match oldestOpen with
      | some first => min first recorded.commitScn
      | none => recorded.commitScn }

/-- A window was mined to its end. -/
def advanceTo (endScn : Nat) (oldestOpen : Option Nat) : Position :=
  let moved := if position.commitScn < endScn then { position with commitScn := endScn, committedXids := [] }
    else position
  { moved with
    restartScn := match oldestOpen with
      | some first => min first (saturatingSucc moved.commitScn)
      | none => saturatingSucc moved.commitScn }

/-! ## Stored positions -/

def scnValue (scn : Nat) : Value := .number (.int scn)

def optionalEntry (key : String) (scn : Option Nat) : List (String × Value) :=
  match scn with
  | some scn => [(key, scnValue scn)]
  | none => []

def toValue : Value :=
  .object ([("commit_scn", scnValue position.commitScn),
    ("committed_xids", .array (position.committedXids.map Value.string))] ++
    optionalEntry "pdb_incarnation_scn" position.pdbIncarnationScn ++
    optionalEntry "resetlogs_scn" position.resetlogsScn ++
    [("restart_scn", scnValue position.restartScn)])

def bad (stored : Value) (what : String) : FaucetError :=
  .state ("oracle-cdc bookmark: " ++ what ++ " (got " ++ stored.text ++ ")")

def readScn (stored : Value) (key : String) : Except FaucetError Nat :=
  match (stored.get key).bind Value.asU64 with
  | some scn => .ok scn
  | none => .error (bad stored ("`" ++ key ++ "` must be a non-negative integer"))

def readOptionalScn (stored : Value) (key : String) : Except FaucetError (Option Nat) :=
  match stored.get key with
  | none => .ok none
  | some .null => .ok none
  | some _ => (readScn stored key).map some

def readXids (stored : Value) : Except FaucetError (List String) :=
  match stored.get "committed_xids" with
  | none => .ok []
  | some .null => .ok []
  | some (.array items) => items.mapM (fun item =>
      match item.asStr with
      | some xid => .ok xid
      | none => .error (bad stored "xids must be strings"))
  | some _ => .error (bad stored "`committed_xids` must be an array")

def fromValue (stored : Value) : Except FaucetError Position :=
  match stored with
  | .object _ => do
      let xids <- readXids stored
      let resetlogs <- readOptionalScn stored "resetlogs_scn"
      let pdbIncarnation <- readOptionalScn stored "pdb_incarnation_scn"
      let commitScn <- readScn stored "commit_scn"
      let restartScn <- readScn stored "restart_scn"
      .ok ⟨commitScn, restartScn, xids, resetlogs, pdbIncarnation⟩
  | _ => .error (bad stored "expected an object")

private theorem asU64_scnValue {scn read : Nat} (taken : (scnValue scn).asU64 = some read) : read = scn := by
  simp only [scnValue, Value.asU64] at taken
  split at taken
  · exact (Option.some.inj taken).symm
  · cases taken

private theorem readScn_eq {stored : Value} {key : String} {scn read : Nat}
    (entry : stored.get key = some (scnValue scn)) (taken : readScn stored key = .ok read) : read = scn := by
  rw [readScn, entry, Option.bind_some] at taken
  split at taken
  · next value found =>
    have same := Except.ok.inj taken
    exact same ▸ asU64_scnValue found
  · cases taken

private theorem readOptionalScn_eq {stored : Value} {key : String} {scn read : Option Nat}
    (entry : stored.get key = scn.map scnValue) (taken : readOptionalScn stored key = .ok read) : read = scn := by
  cases scn with
  | none =>
      rw [readOptionalScn, entry] at taken
      exact (Except.ok.inj taken).symm
  | some scn =>
      have present : stored.get key = some (scnValue scn) := entry
      rw [readOptionalScn, present] at taken
      simp only [scnValue] at taken
      cases number : readScn stored key with
      | error error =>
          rw [number] at taken
          cases taken
      | ok value =>
          rw [number] at taken
          have same : some value = read := Except.ok.inj taken
          rw [← same, readScn_eq present number]

private theorem mapM_string {xids read : List String} {stored : Value}
    (taken : (xids.map Value.string).mapM (fun item =>
      match item.asStr with
      | some xid => Except.ok xid
      | none => .error (bad stored "xids must be strings")) = .ok read) : read = xids := by
  induction xids generalizing read with
  | nil => exact (Except.ok.inj taken).symm
  | cons xid rest ih =>
      rw [List.map_cons, List.mapM_cons] at taken
      rcases bind_eq_ok taken with ⟨first, firstRead, taken⟩
      rcases bind_eq_ok taken with ⟨others, othersRead, taken⟩
      have head : xid = first := Except.ok.inj firstRead
      have whole : first :: others = read := Except.ok.inj taken
      rw [← whole, ih othersRead, head]

/-- What is read back of a stored position is that position. -/
theorem fromValue_toValue {position read : Position} (taken : fromValue position.toValue = .ok read) :
    read = position := by
  rcases position with ⟨commitScn, restartScn, committedXids, resetlogsScn, pdbIncarnationScn⟩
  rcases bind_eq_ok taken with ⟨xids, xidsRead, taken⟩
  rcases bind_eq_ok taken with ⟨resetlogs, resetlogsRead, taken⟩
  rcases bind_eq_ok taken with ⟨pdb, pdbRead, taken⟩
  rcases bind_eq_ok taken with ⟨commit, commitRead, taken⟩
  rcases bind_eq_ok taken with ⟨restart, restartRead, taken⟩
  have whole : (⟨commit, restart, xids, resetlogs, pdb⟩ : Position) = read := Except.ok.inj taken
  have xidsSame : xids = committedXids := mapM_string xidsRead
  have commitSame : commit = commitScn := readScn_eq rfl commitRead
  have restartSame : restart = restartScn := by
    refine readScn_eq ?_ restartRead
    cases resetlogsScn <;> cases pdbIncarnationScn <;> rfl
  have resetlogsSame : resetlogs = resetlogsScn := by
    refine readOptionalScn_eq ?_ resetlogsRead
    cases resetlogsScn <;> cases pdbIncarnationScn <;> rfl
  have pdbSame : pdb = pdbIncarnationScn := by
    refine readOptionalScn_eq ?_ pdbRead
    cases resetlogsScn <;> cases pdbIncarnationScn <;> rfl
  rw [← whole, xidsSame, commitSame, restartSame, resetlogsSame, pdbSame]

/-! ## What a position remembers -/

theorem alreadyEmitted_iff (commitScn : Nat) (xid : String) :
    position.alreadyEmitted commitScn xid = true ↔
      commitScn < position.commitScn ∨ (commitScn = position.commitScn ∧ xid ∈ position.committedXids) := by
  simp only [alreadyEmitted, Bool.or_eq_true, decide_eq_true_eq, Bool.and_eq_true, beq_iff_eq,
    List.contains_iff_mem]

theorem recordCommit_commitScn {commitScn : Nat} (xid : String) (oldestOpen : Option Nat)
    (reached : position.commitScn ≤ commitScn) :
    (position.recordCommit commitScn xid oldestOpen).commitScn = commitScn := by
  simp only [recordCommit]
  by_cases moved : position.commitScn < commitScn
  · simp only [moved, if_true]
    split <;> rfl
  · simp only [moved, if_false]
    split <;> exact Nat.le_antisymm reached (Nat.le_of_not_lt moved)

theorem recordCommit_restartScn {commitScn : Nat} (xid : String) (oldestOpen : Option Nat)
    (reached : position.commitScn ≤ commitScn) :
    (position.recordCommit commitScn xid oldestOpen).restartScn = oldestOpen.elim commitScn (min · commitScn) := by
  have moved := recordCommit_commitScn position xid oldestOpen reached
  simp only [recordCommit] at moved ⊢
  cases oldestOpen with
  | none => exact moved
  | some first => exact congrArg (min first) moved

theorem advanceTo_commitScn (endScn : Nat) (oldestOpen : Option Nat) :
    (position.advanceTo endScn oldestOpen).commitScn = max position.commitScn endScn := by
  simp only [advanceTo]
  by_cases moved : position.commitScn < endScn
  · simp only [moved, if_true]
    omega
  · simp only [moved, if_false]
    omega

theorem advanceTo_restartScn (endScn : Nat) (oldestOpen : Option Nat) :
    (position.advanceTo endScn oldestOpen).restartScn =
      oldestOpen.elim (saturatingSucc (max position.commitScn endScn))
        (min · (saturatingSucc (max position.commitScn endScn))) := by
  have moved := advanceTo_commitScn position endScn oldestOpen
  simp only [advanceTo] at moved ⊢
  rw [moved]
  cases oldestOpen <;> rfl

/-- Recording a commit at or after the position adds everything below it and
the transaction itself. -/
theorem alreadyEmitted_recordCommit {commitScn : Nat} (xid : String) (oldestOpen : Option Nat)
    (reached : position.commitScn ≤ commitScn) (otherScn : Nat) (other : String) :
    (position.recordCommit commitScn xid oldestOpen).alreadyEmitted otherScn other = true ↔
      position.alreadyEmitted otherScn other = true ∨ otherScn < commitScn ∨ (otherScn = commitScn ∧ other = xid) := by
  rw [alreadyEmitted_iff, alreadyEmitted_iff, recordCommit_commitScn position xid oldestOpen reached]
  have recorded : otherScn = commitScn -> (other ∈ (position.recordCommit commitScn xid oldestOpen).committedXids ↔
      (position.commitScn = commitScn ∧ other ∈ position.committedXids) ∨ other = xid) := by
    intro _
    simp only [recordCommit]
    by_cases moved : position.commitScn < commitScn
    · have apart : position.commitScn ≠ commitScn := Nat.ne_of_lt moved
      simp [moved, apart]
    · have same : commitScn = position.commitScn := by omega
      subst same
      by_cases present : xid ∈ position.committedXids
      · simp only [lt_self_iff_false, if_false, beq_self_eq_true, List.contains_iff_mem.mpr present, Bool.not_true,
          Bool.and_false, Bool.false_eq_true, true_and]
        constructor
        · exact .inl
        · rintro (member | same)
          · exact member
          · exact same ▸ present
      · simp [present]
  constructor
  · rintro (below | ⟨same, member⟩)
    · exact .inr (.inl below)
    · rcases (recorded same).mp member with ⟨still, old⟩ | new
      · exact .inl (.inr ⟨same.trans still.symm, old⟩)
      · exact .inr (.inr ⟨same, new⟩)
  · rintro ((below | ⟨same, member⟩) | below | ⟨same, new⟩)
    · exact .inl (by omega)
    · by_cases moved : position.commitScn < commitScn
      · exact .inl (by omega)
      · have still : position.commitScn = commitScn := by omega
        have there : otherScn = commitScn := same.trans still
        exact .inr ⟨there, (recorded there).mpr (.inl ⟨still, member⟩)⟩
    · exact .inl below
    · exact .inr ⟨same, (recorded same).mpr (.inr new)⟩

/-- The end of a window adds everything below it. -/
theorem alreadyEmitted_advanceTo (endScn : Nat) (oldestOpen : Option Nat) (otherScn : Nat) (other : String) :
    (position.advanceTo endScn oldestOpen).alreadyEmitted otherScn other = true ↔
      position.alreadyEmitted otherScn other = true ∨ otherScn < endScn := by
  rw [alreadyEmitted_iff, alreadyEmitted_iff, advanceTo_commitScn]
  by_cases moved : position.commitScn < endScn
  · have cleared : (position.advanceTo endScn oldestOpen).committedXids = [] := by
      simp only [advanceTo, moved, if_true]
    rw [cleared]
    simp only [List.not_mem_nil, and_false, or_false]
    constructor
    · intro below
      exact .inr (by omega)
    · rintro ((below | ⟨same, _⟩) | below) <;> omega
  · have kept : (position.advanceTo endScn oldestOpen).committedXids = position.committedXids := by
      simp only [advanceTo, moved, if_false]
    have highest : max position.commitScn endScn = position.commitScn := by omega
    rw [kept, highest]
    constructor
    · exact .inl
    · rintro (old | below)
      · exact old
      · exact .inl (by omega)

end Position

end OracleCdc
end FaucetStream
