import FaucetStream.OracleCdc.Savepoint

namespace FaucetStream
namespace OracleCdc

open Library

/-!
# Rows decoded in their own transaction

The miner in full is the miner that leaves data rows to a decoder, for the
decoder that runs it on the transaction of the row.  Other transactions reach a
decoder through the counter of ids only.
-/

/-- Data rows run through the miner, without its other transactions. -/
def RedoMiner.decoder (alphanumeric : Alphanumeric) (explain : MineError -> FaucetError) (miner : RedoMiner) :
    Decoder Staged Event where
  fresh := Staged.empty
  change buffer row :=
    let lone := { miner with opened := (buffer.map (fun staged => (row.xid, Txn.mk row.scn staged))).toList }
    match lone.apply alphanumeric row with
    | .error error => .error (explain error)
    | .ok (next, _) => .ok ((next.slot row.xid).map Txn.buffer)
  settleLobs staged :=
    match staged.lobs.foldlM miner.settleLob staged.events with
    | .error error => .error (explain error)
    | .ok events => .ok { staged with events := events, lobs := [] }
  events := Staged.events

/-- A miner and one with the transaction of the row only, while they take the
row in. -/
structure Beside (row : LogRow) (start full lone : RedoMiner) : Prop where
  policy : lone.onUnsupported = full.onUnsupported
  limit : lone.maxStaged = full.maxStaged
  counter : lone.nextId = full.nextId
  others : forall other, other ≠ row.xid -> full.slot other = start.slot other
  opened : (start.slot row.xid = none ∧ full.slot row.xid = none ∧ lone.slot row.xid = none) ∨
    exists first own buffer, full.slot row.xid = some ⟨first, buffer⟩ ∧ lone.slot row.xid = some ⟨own, buffer⟩ ∧
      first = ((start.slot row.xid).map Txn.firstScn).getD row.scn

namespace Beside

variable {row : LogRow} {start full lone next : RedoMiner}

theorem staged (beside : Beside row start full lone) : lone.staged row.xid = full.staged row.xid := by
  unfold RedoMiner.staged
  rcases beside.opened with ⟨_, absent, alone⟩ | ⟨_, _, _, found, alone, _⟩
  · rw [absent, alone]
  · rw [found, alone]
    rfl

theorem update (beside : Beside row start full lone) (change : Staged -> Staged) :
    Beside row start (full.update row.xid row.scn change) (lone.update row.xid row.scn change) := by
  refine ⟨beside.policy, beside.limit, beside.counter, ?_, .inr ⟨_, (lone.txn row.xid row.scn).firstScn, _,
    RedoMiner.slot_update full row.xid row.scn change, ?_, ?_⟩⟩
  · intro other different
    refine Eq.trans ?_ (beside.others other different)
    unfold RedoMiner.update RedoMiner.slot
    rw [lookup_assign, if_neg different]
  · rw [RedoMiner.slot_update, beside.staged]
  · unfold RedoMiner.txn
    rcases beside.opened with ⟨before, absent, _⟩ | ⟨_, _, _, found, _, first⟩
    · rw [absent, before]
      rfl
    · rw [found]
      exact first

/-- Both draw an id. -/
theorem draw (beside : Beside row start full lone) (seen ownSeen : List (String × String)) :
    Beside row start { full.drawn with ddlSeen := seen } { lone.drawn with ddlSeen := ownSeen } :=
  ⟨beside.policy, beside.limit, congrArg (· + 1) beside.counter, beside.others, beside.opened⟩

theorem unsupported (beside : Beside row start full lone) : lone.unsupported = full.unsupported := by
  funext row reason
  unfold RedoMiner.unsupported
  rw [beside.policy]

theorem checkStaged (beside : Beside row start full lone) : lone.checkStaged row.xid = full.checkStaged row.xid := by
  unfold RedoMiner.checkStaged
  rw [beside.limit]
  rcases beside.opened with ⟨_, absent, alone⟩ | ⟨_, _, _, found, alone, _⟩
  · rw [absent, alone]
  · rw [found, alone]
    cases full.maxStaged <;> rfl

/-- Both fail alike, or both end beside one another. -/
inductive Both (row : LogRow) (start : RedoMiner) : Except MineError RedoMiner -> Except MineError RedoMiner -> Prop
  | fail (error : MineError) : Both row start (.error error) (.error error)
  | ok {full lone : RedoMiner} (beside : Beside row start full lone) : Both row start (.ok full) (.ok lone)

theorem Both.bind {whole own : Except MineError RedoMiner} {rest after : RedoMiner -> Except MineError RedoMiner}
    (both : Both row start whole own)
    (follows : forall {full lone}, Beside row start full lone -> Both row start (rest full) (after lone)) :
    Both row start (whole >>= rest) (own >>= after) := by
  cases both with
  | fail error => exact .fail error
  | ok beside => exact follows beside

/-- A check before the end. -/
theorem checked {check own : Except MineError Unit} (beside : Beside row start full lone) (same : own = check) :
    Both row start (check >>= fun _ => .ok full) (own >>= fun _ => .ok lone) := by
  rw [same]
  cases check with
  | error error => exact .fail error
  | ok value => exact .ok beside

theorem settleLobs (beside : Beside row start full lone) :
    Both row start (full.settleLobs row.xid) (lone.settleLobs row.xid) := by
  unfold RedoMiner.settleLobs
  rcases beside.opened with ⟨_, absent, alone⟩ | ⟨first, own, buffer, found, alone, _⟩
  · rw [absent, alone]
    exact .ok beside
  · rw [found, alone]
    have settles : lone.settleLob = full.settleLob := by
      funext events pending
      unfold RedoMiner.settleLob
      rw [beside.unsupported]
    dsimp only
    rw [settles]
    cases buffer.lobs.foldlM full.settleLob buffer.events with
    | error error => exact .fail error
    | ok events =>
        have updated := beside.update (fun _ => { buffer with events := events, lobs := [] })
        unfold RedoMiner.update RedoMiner.txn at updated
        rw [found, alone] at updated
        exact .ok updated

variable {alphanumeric : Alphanumeric}

theorem dml (beside : Beside row start full lone) :
    Both row start (full.dml alphanumeric row) (lone.dml alphanumeric row) := by
  refine beside.settleLobs.bind ?_
  intro full lone beside
  split
  · cases validRowId row.rowId with
    | none => exact .ok beside
    | some rid => exact .ok (beside.update _)
  · cases decodeDml alphanumeric row with
    | error reason => exact beside.checked (by rw [beside.unsupported])
    | ok dml =>
        have drawn : Beside row start full.drawn lone.drawn := beside.draw full.ddlSeen lone.ddlSeen
        dsimp only
        rw [RedoMiner.txn_buffer, RedoMiner.txn_buffer, drawn.staged, drawn.counter]
        split
        · exact .ok (drawn.update _)
        · exact (drawn.update _).checked (drawn.update _).checkStaged

theorem ddl (beside : Beside row start full lone) : Both row start (full.ddl row) (lone.ddl row) := by
  rcases full with ⟨opened, policy, limit, seen, count⟩
  rcases lone with ⟨alone, ownPolicy, ownLimit, ownSeen, ownCount⟩
  have same : ownCount = count := beside.counter
  subst same
  have recorded := fun change => (beside.draw (seen ++ [(row.owner.getD "", row.table.getD "")])
    (ownSeen ++ [(row.owner.getD "", row.table.getD "")])).update change
  exact (recorded _).checked (recorded _).checkStaged

theorem lobChange (beside : Beside row start full lone) :
    Both row start (full.lobChange alphanumeric row) (lone.lobChange alphanumeric row) := by
  unfold RedoMiner.lobChange
  cases parseLobChange alphanumeric row.redo.toList with
  | error cause => exact beside.checked (by rw [beside.unsupported])
  | ok change =>
      have drawn : Beside row start full.drawn lone.drawn := beside.draw full.ddlSeen lone.ddlSeen
      dsimp only
      split
      · exact beside.checked (by rw [beside.unsupported])
      · rw [drawn.counter]
        exact (drawn.update _).checked (drawn.update _).checkStaged

end Beside

/-- A step that depends on the row's own transaction and releases nothing. -/
def Inside (row : LogRow) (step : RedoMiner -> Except MineError (RedoMiner × Option (Committed Event))) : Prop :=
  exists change : RedoMiner -> Except MineError RedoMiner,
    (forall miner, step miner = change miner >>= fun next => .ok (next, none)) ∧
      forall {start full lone}, Beside row start full lone -> Beside.Both row start (change full) (change lone)

theorem inside_unsupported (row : LogRow) (reason : Reason) :
    Inside row (fun miner => do miner.unsupported row reason; .ok (miner, none)) := by
  refine ⟨fun miner => miner.unsupported row reason >>= fun _ => .ok miner, fun miner => ?_, fun beside => ?_⟩
  · dsimp only
    cases miner.unsupported row reason <;> rfl
  · exact beside.checked (by rw [beside.unsupported])

theorem inside_apply (alphanumeric : Alphanumeric) {row : LogRow}
    (inside : row.op ≠ Op.START ∧ row.op ≠ Op.COMMIT ∧ row.op ≠ Op.ROLLBACK) :
    Inside row (fun miner => miner.apply alphanumeric row) := by
  simp only [RedoMiner.apply, if_neg inside.1, if_neg inside.2.1, if_neg inside.2.2]
  split
  · exact ⟨(·.dml alphanumeric row), fun _ => rfl, Beside.dml⟩
  split
  · exact ⟨(·.ddl row), fun _ => rfl, Beside.ddl⟩
  split
  · exact ⟨(·.lobChange alphanumeric row), fun _ => rfl, Beside.lobChange⟩
  split
  · exact inside_unsupported row .binaryXml
  split
  · exact inside_unsupported row _
  · exact ⟨.ok, fun _ => rfl, .ok⟩

/-- Each step of the miner in full is a step of the miner over its decoder. -/
theorem RedoMiner.apply_decoded {alphanumeric : Alphanumeric} (explain : MineError -> FaucetError)
    {miner next : RedoMiner} {shadow : Miner Staged} {row : LogRow} {released : Option (Committed Event)}
    (same : forall xid, shadow.slot xid = miner.slot xid)
    (done : miner.apply alphanumeric row = .ok (next, released)) :
    exists after, shadow.apply (miner.decoder alphanumeric explain) row = .ok (after, released) ∧
      forall xid, after.slot xid = next.slot xid := by
  suffices step : (forall xid, xid ≠ row.xid -> next.slot xid = miner.slot xid) ∧
      exists after, shadow.apply (miner.decoder alphanumeric explain) row = .ok (after, released) ∧
        after.slot row.xid = next.slot row.xid by
    rcases step with ⟨others, after, applied, here⟩
    refine ⟨after, applied, fun xid => ?_⟩
    by_cases equal : xid = row.xid
    · rw [equal, here]
    · rw [(Miner.apply_ok applied).2.1 xid equal, same, others xid equal]
  have dropped : forall opened : List (String × Txn Staged), (unassign opened row.xid).lookup row.xid = none :=
    fun opened => (lookup_unassign opened row.xid row.xid).trans (if_pos rfl)
  rw [Miner.apply]
  by_cases start : row.op = Op.START
  · rw [RedoMiner.apply, if_pos start] at done
    cases Except.ok.inj done
    rw [if_pos start]
    refine ⟨fun xid different => ?_, _, rfl, ?_⟩
    · unfold RedoMiner.update RedoMiner.slot
      rw [lookup_assign, if_neg different]
    · rw [RedoMiner.slot_update, Miner.slot, lookup_assign, if_pos rfl, same]
      unfold RedoMiner.txn RedoMiner.staged
      cases miner.slot row.xid <;> rfl
  rw [if_neg start]
  by_cases commit : row.op = Op.COMMIT
  · rw [RedoMiner.apply, if_neg start, if_pos commit] at done
    rw [if_pos commit, same]
    rcases bind_eq_ok done with ⟨settled, settles, done⟩
    cases Except.ok.inj done
    unfold RedoMiner.settleLobs at settles
    cases found : miner.slot row.xid with
    | none =>
        rw [found] at settles
        cases Except.ok.inj settles
        rw [found]
        refine ⟨fun xid different => ?_, shadow, rfl, (same row.xid).trans (found.trans (dropped _).symm)⟩
        rw [RedoMiner.slot, lookup_unassign, if_neg different, RedoMiner.slot]
    | some txn =>
        rw [found] at settles
        rcases bind_eq_ok settles with ⟨events, settle, settles⟩
        cases Except.ok.inj settles
        refine ⟨fun xid different => ?_, ⟨unassign shadow.opened row.xid⟩, ?_, (dropped _).trans (dropped _).symm⟩
        · rw [RedoMiner.slot, lookup_unassign, if_neg different, lookup_assign, if_neg different, RedoMiner.slot]
        · dsimp only [decoder]
          rw [settle, RedoMiner.slot, lookup_assign, if_pos rfl]
          rfl
  rw [if_neg commit]
  by_cases rolledBack : row.op = Op.ROLLBACK
  · rw [RedoMiner.apply, if_neg start, if_neg commit, if_pos rolledBack] at done
    cases Except.ok.inj done
    rw [if_pos rolledBack]
    refine ⟨fun xid different => ?_, _, rfl, (dropped _).trans (dropped _).symm⟩
    rw [RedoMiner.slot, lookup_unassign, if_neg different, RedoMiner.slot]
  rw [if_neg rolledBack, same]
  rcases inside_apply alphanumeric ⟨start, commit, rolledBack⟩ with ⟨change, changes, alike⟩
  dsimp only at changes
  rw [changes] at done
  dsimp only [decoder]
  rw [changes]
  rcases bind_eq_ok done with ⟨middle, did, done⟩
  cases Except.ok.inj done
  have both : Beside.Both row miner (change miner) (change { miner with opened :=
      (((miner.slot row.xid).map Txn.buffer).map (fun staged => (row.xid, Txn.mk row.scn staged))).toList }) := by
    refine alike ⟨rfl, rfl, rfl, fun _ _ => rfl, ?_⟩
    cases found : miner.slot row.xid with
    | none => exact .inl ⟨rfl, rfl, rfl⟩
    | some txn => exact .inr ⟨txn.firstScn, row.scn, txn.buffer, rfl, by simp [RedoMiner.slot], rfl⟩
  rw [did] at both
  revert both
  generalize change { miner with opened := _ } = decoded
  intro both
  cases both with
  | ok beside =>
      refine ⟨beside.others, ?_⟩
      dsimp only [bind, Except.bind]
      rcases beside.opened with ⟨before, after, alone⟩ | ⟨first, _, buffer, found, alone, rfl⟩
      · rw [alone]
        exact ⟨shadow, rfl, (same row.xid).trans (before.trans after.symm)⟩
      · rw [alone, found]
        exact ⟨_, rfl, (lookup_assign _ _ _ _).trans (if_pos rfl)⟩

end OracleCdc
end FaucetStream
