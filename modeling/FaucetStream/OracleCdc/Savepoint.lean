import FaucetStream.OracleCdc.RedoRendering
import FaucetStream.OracleCdc.Transaction

namespace FaucetStream
namespace OracleCdc

open Library

/-!
# Rolling back to a savepoint

A rollback to a savepoint undoes the latest changes that are in force, one row
for each and the last change first.  The changes in force therefore form a
stack, and the pieces of the transaction are that stack: the row that undoes a
change finds the piece of it on top.

A change that is skipped has no piece, but the row that undoes it comes all the
same.  It is only without effect as long as no change of the same kind to the
same row is in force.
-/

/-- An event but for its id. -/
def Event.erased (event : Event) : Event := { event with id := 0 }

/-- The code of a row that changes a table. -/
def kindOp : DmlKind -> Int
  | .insert => Op.INSERT
  | .update => Op.UPDATE
  | .delete => Op.DELETE

/-- The kind of the row that undoes a change. -/
def inverseKind : DmlKind -> DmlKind
  | .insert => .delete
  | .update => .update
  | .delete => .insert

section Rows

variable (alphanumeric : Alphanumeric) (xid : String)

def Decodes (row : LogRow) : Prop := exists dml, decodeDml alphanumeric row = .ok dml

/-- A row that changes a row of a table, with a valid ROW_ID and a statement of
its own kind. -/
structure IsChange (row : LogRow) : Prop where
  ofXid : row.xid = xid
  forward : row.rollback = false
  located : exists rid, validRowId row.rowId = some rid
  ofKind : exists kind, row.op = kindOp kind ∧ forall dml, decodeDml alphanumeric row = .ok dml -> dml.kind = kind

/-- A row that undoes a change. -/
structure Undoes (row change : LogRow) : Prop where
  ofXid : row.xid = xid
  backward : row.rollback = true
  sameRow : row.rowId = change.rowId
  inverse : forall kind, change.op = kindOp kind -> row.op = kindOp (inverseKind kind)

/-- The rows of a transaction so far and the changes in force, the latest
first.  Only the latest can be undone. -/
inductive Rolled : List LogRow -> List LogRow -> Prop where
  | start : Rolled [] []
  | change {rows stack : List LogRow} {row : LogRow} (before : Rolled rows stack)
      (isChange : IsChange alphanumeric xid row) : Rolled (rows ++ [row]) (row :: stack)
  | undo {rows stack : List LogRow} {row change : LogRow} (before : Rolled rows (change :: stack))
      (undoes : Undoes xid row change) : Rolled (rows ++ [row]) stack

/-- A change can be told from the changes below it when it is undone. -/
def Undoable (policy : OnUnsupported) (stack : List LogRow) (change : LogRow) : Prop :=
  Decodes alphanumeric change ∨
    (policy = .skip ∧ forall earlier, earlier ∈ stack -> Decodes alphanumeric earlier ->
      earlier.rowId = change.rowId -> earlier.op ≠ change.op)

/-! ## What is released without ids -/

/-- What one change makes of the events. -/
def plainStep (policy : OnUnsupported) (events : List Event) (row : LogRow) : Except MineError (List Event) :=
  match decodeDml alphanumeric row with
  | .ok dml => .ok ((⟨events, [], []⟩ : Staged).record 0 row.scn (validRowId row.rowId) dml).events
  | .error reason =>
      match policy with
      | .fail => .error (.undecodable row.scn (row.owner.getD "?") (row.table.getD "?") reason)
      | .skip => .ok events

/-- The events of changes of which none is undone. -/
def plainEvents (policy : OnUnsupported) (changes : List LogRow) : Except MineError (List Event) :=
  changes.foldlM (plainStep alphanumeric policy) []

/-- No skipped change is mistaken for another when it is undone, and the limit
of buffered events is not exceeded. -/
structure Orderly (policy : OnUnsupported) (limit : Option Nat) (rows : List LogRow) : Prop where
  undoable : forall front stack change undo, front ++ [undo] <+: rows ->
    Rolled alphanumeric xid front (change :: stack) -> Undoes xid undo change ->
      Undoable alphanumeric policy stack change
  within : forall bound, limit = some bound -> forall front stack events, front <+: rows ->
    Rolled alphanumeric xid front stack -> plainEvents alphanumeric policy stack.reverse = .ok events ->
      events.length ≤ bound

end Rows

/-- The events a COMMIT releases after some rows. -/
def RedoMiner.released (alphanumeric : Alphanumeric) (miner : RedoMiner) (rows : List LogRow) (commit : LogRow) :
    Except MineError (List Event) := do
  let miner ← miner.feed alphanumeric rows
  let (_, committed) ← miner.apply alphanumeric commit
  .ok ((committed.map Committed.events).getD [])

variable {alphanumeric : Alphanumeric} {xid : String}

/-! ## Undoing what was recorded -/

/-- A buffer whose ids go up to a bound, all of whose events have a ROW_ID. -/
structure Staged.Sound (staged : Staged) (bound : Nat) : Prop where
  settled : staged.lobs = []
  distinct : (staged.events.map Event.id).Nodup
  bounded : forall event, event ∈ staged.events -> event.id ≤ bound
  piecesBounded : forall piece, piece ∈ staged.pieces -> piece.eventId ≤ bound
  sameRows : forall piece, piece ∈ staged.pieces -> forall event, event ∈ staged.events ->
    event.id = piece.eventId -> event.rowId = piece.rowId
  located : forall event, event ∈ staged.events -> event.rowId.isSome = true
  filled : forall event, event ∈ staged.events -> isUpsert event.op = true -> event.after.isSome = true

theorem Staged.Sound.empty (bound : Nat) : Staged.empty.Sound bound :=
  ⟨rfl, List.nodup_nil, nofun,
    nofun, nofun,
    nofun, nofun⟩

theorem Staged.Sound.mono {staged : Staged} {bound higher : Nat} (sound : staged.Sound bound) (below : bound ≤ higher) :
    staged.Sound higher :=
  { sound with
    bounded := fun event member => le_trans (sound.bounded event member) below
    piecesBounded := fun piece member => le_trans (sound.piecesBounded piece member) below }

/-- The two ways a change is recorded. -/
theorem Staged.record_cases (staged : Staged) (id scn : Nat) (rowId : Option String) (dml : Dml) :
    (exists front prev back, dml.kind = .update ∧ staged.events = front ++ prev :: back ∧
      prev.takes rowId dml = true ∧
      staged.folded rowId dml = some (prev, front ++ prev.fold rowId dml :: back) ∧
      staged.record id scn rowId dml =
        { staged with
          events := front ++ prev.fold rowId dml :: back
          pieces := staged.pieces ++ [⟨prev.id, rowId, .folded (prev.after.getD [])⟩] }) ∨
      (staged.folded rowId dml = none ∧
        staged.record id scn rowId dml =
          { staged with
            events := staged.events ++ [newEvent id scn rowId dml]
            pieces := staged.pieces ++ [⟨id, rowId, .created dml.kind⟩] }) := by
  cases folds : staged.folded rowId dml with
  | none =>
      refine Or.inr ⟨rfl, ?_⟩
      unfold Staged.record
      rw [folds]
  | some found =>
      rcases found with ⟨prev, events⟩
      have shape := folds
      unfold Staged.folded at shape
      split at shape
      · next update =>
          rcases modifyLast_eq_some shape with ⟨front, back, split, rfl, passes, _⟩
          refine Or.inl ⟨front, prev, back, update, split, passes, rfl, ?_⟩
          unfold Staged.record
          rw [folds]
      · cases shape

@[simp] theorem newEvent_id (id scn : Nat) (rowId : Option String) (dml : Dml) :
    (newEvent id scn rowId dml).id = id := by
  unfold newEvent
  split <;> rfl

@[simp] theorem newEvent_rowId (id scn : Nat) (rowId : Option String) (dml : Dml) :
    (newEvent id scn rowId dml).rowId = rowId := by
  unfold newEvent
  split <;> rfl

theorem newEvent_filled (id scn : Nat) (rowId : Option String) (dml : Dml)
    (upsert : isUpsert (newEvent id scn rowId dml).op = true) : (newEvent id scn rowId dml).after.isSome = true := by
  unfold newEvent at upsert ⊢
  split
  · rfl
  · rfl
  · next deletes =>
      rw [deletes] at upsert
      cases upsert

theorem modifyEvent_append {front : List Event} {id : Nat} (absent : forall event, event ∈ front -> event.id ≠ id)
    (change : Event -> Event) {event : Event} (here : event.id = id) (back : List Event) :
    modifyEvent (front ++ event :: back) id change = front ++ change event :: back := by
  induction front with
  | nil => rw [List.nil_append, modifyEvent, if_pos here, List.nil_append]
  | cons first front ih =>
      rw [List.cons_append, modifyEvent, if_neg (absent first List.mem_cons_self),
        ih (fun other member => absent other (List.mem_cons_of_mem _ member)), List.cons_append]

theorem mem_map_id {events : List Event} {event : Event} (member : event ∈ events) : event.id ∈ events.map Event.id :=
  List.mem_map_of_mem member

/-- The event changed by a fold keeps what it is known by. -/
theorem map_id_fold (rowId : Option String) (dml : Dml) (front back : List Event) (prev : Event) :
    (front ++ prev.fold rowId dml :: back).map Event.id = (front ++ prev :: back).map Event.id := by
  rw [List.map_append, List.map_append]
  rfl

theorem Event.rowId_fold {event : Event} (located : event.rowId.isSome = true) (rowId : Option String) (dml : Dml) :
    (event.fold rowId dml).rowId = event.rowId := by
  cases known : event.rowId with
  | none =>
      rw [known] at located
      cases located
  | some rid =>
      change (event.rowId <|> rowId) = some rid
      rw [known]
      rfl

/-- An update with a ROW_ID is folded into an event that has the same. -/
theorem Event.rowId_of_takes {event : Event} (located : event.rowId.isSome = true) {rid : String} {dml : Dml}
    (takes : event.takes (some rid) dml = true) : event.rowId = some rid := by
  unfold Event.takes at takes
  rw [Bool.and_eq_true] at takes
  have same := takes.2
  unfold OracleCdc.sameRow at same
  cases known : event.rowId with
  | none =>
      rw [known] at located
      cases located
  | some first =>
      rw [known] at same
      rw [beq_iff_eq.mp same]

theorem Event.isUpsert_of_takes {event : Event} {rowId : Option String} {dml : Dml}
    (takes : event.takes rowId dml = true) : isUpsert event.op = true := by
  unfold Event.takes at takes
  rw [Bool.and_eq_true, Bool.and_eq_true, Bool.and_eq_true] at takes
  exact takes.1.1.1

theorem Staged.Sound.fold {staged : Staged} {bound : Nat} (sound : staged.Sound bound) {front back : List Event}
    {prev : Event} (split : staged.events = front ++ prev :: back) {rid : String} {dml : Dml}
    (takes : prev.takes (some rid) dml = true) :
    ({ staged with
        events := front ++ prev.fold (some rid) dml :: back
        pieces := staged.pieces ++ [⟨prev.id, some rid, .folded (prev.after.getD [])⟩] } : Staged).Sound bound := by
  have prevIn : prev ∈ staged.events := by
    rw [split]
    exact List.mem_append_right _ List.mem_cons_self
  have located := sound.located prev prevIn
  -- every event of the new list has the id, the row and the kind of one before
  have known : forall event, event ∈ front ++ prev.fold (some rid) dml :: back ->
      exists earlier, earlier ∈ staged.events ∧ event.id = earlier.id ∧ event.rowId = earlier.rowId ∧
        (isUpsert event.op = true -> event.after.isSome = true) := by
    intro event member
    rcases List.mem_append.mp member with before | behind
    · have inside : event ∈ staged.events := by
        rw [split]
        exact List.mem_append_left _ before
      exact ⟨event, inside, rfl, rfl, sound.filled event inside⟩
    · rcases List.mem_cons.mp behind with rfl | later
      · exact ⟨prev, prevIn, rfl, prev.rowId_fold located _ _, fun _ => rfl⟩
      · have inside : event ∈ staged.events := by
          rw [split]
          exact List.mem_append_right _ (List.mem_cons_of_mem _ later)
        exact ⟨event, inside, rfl, rfl, sound.filled event inside⟩
  refine ⟨sound.settled, ?_, ?_, ?_, ?_, ?_, ?_⟩
  · change ((front ++ prev.fold (some rid) dml :: back).map Event.id).Nodup
    rw [map_id_fold, ← split]
    exact sound.distinct
  · intro event member
    rcases known event member with ⟨earlier, inside, sameId, _, _⟩
    rw [sameId]
    exact sound.bounded earlier inside
  · intro piece member
    rcases List.mem_append.mp member with before | last
    · exact sound.piecesBounded piece before
    · rw [List.mem_singleton.mp last]
      exact sound.bounded prev prevIn
  · intro piece member event inside same
    rcases known event inside with ⟨earlier, earlierIn, sameId, sameRow, _⟩
    rw [sameRow]
    rcases List.mem_append.mp member with before | last
    · exact sound.sameRows piece before earlier earlierIn (sameId.symm.trans same)
    · rw [List.mem_singleton.mp last] at same ⊢
      have equal : earlier = prev :=
        List.inj_on_of_nodup_map sound.distinct earlierIn prevIn (sameId.symm.trans same)
      rw [equal]
      exact Event.rowId_of_takes located takes
  · intro event member
    rcases known event member with ⟨earlier, inside, _, sameRow, _⟩
    rw [sameRow]
    exact sound.located earlier inside
  · intro event member
    rcases known event member with ⟨_, _, _, _, filled⟩
    exact filled

theorem Staged.Sound.create {staged : Staged} {bound id : Nat} (sound : staged.Sound bound) (above : bound < id)
    (scn : Nat) (rid : String) (dml : Dml) :
    ({ staged with
        events := staged.events ++ [newEvent id scn (some rid) dml]
        pieces := staged.pieces ++ [⟨id, some rid, .created dml.kind⟩] } : Staged).Sound id := by
  refine ⟨sound.settled, ?_, ?_, ?_, ?_, ?_, ?_⟩
  · change ((staged.events ++ [newEvent id scn (some rid) dml]).map Event.id).Nodup
    rw [List.map_append, List.map_singleton, newEvent_id, List.nodup_append]
    refine ⟨sound.distinct, List.nodup_singleton _, ?_⟩
    intro known member fresh inside
    rcases List.mem_map.mp member with ⟨event, eventIn, rfl⟩
    have bounded := sound.bounded event eventIn
    rw [List.mem_singleton.mp inside]
    omega
  · intro event member
    rcases List.mem_append.mp member with before | last
    · have bounded := sound.bounded event before
      omega
    · rw [List.mem_singleton.mp last, newEvent_id]
  · intro piece member
    rcases List.mem_append.mp member with before | last
    · have bounded := sound.piecesBounded piece before
      omega
    · rw [List.mem_singleton.mp last]
  · intro piece member event inside same
    rcases List.mem_append.mp member with before | last
    · have pieceBounded := sound.piecesBounded piece before
      rcases List.mem_append.mp inside with earlier | added
      · exact sound.sameRows piece before event earlier same
      · rw [List.mem_singleton.mp added, newEvent_id] at same
        omega
    · rw [List.mem_singleton.mp last] at same ⊢
      rcases List.mem_append.mp inside with earlier | added
      · have bounded := sound.bounded event earlier
        change event.id = id at same
        omega
      · rw [List.mem_singleton.mp added, newEvent_rowId]
  · intro event member
    rcases List.mem_append.mp member with before | last
    · exact sound.located event before
    · rw [List.mem_singleton.mp last, newEvent_rowId]
      rfl
  · intro event member
    rcases List.mem_append.mp member with before | last
    · exact sound.filled event before
    · rw [List.mem_singleton.mp last]
      exact newEvent_filled id scn (some rid) dml

theorem Staged.Sound.record {staged : Staged} {bound id higher : Nat} (sound : staged.Sound bound) (above : bound < id)
    (below : id ≤ higher) (scn : Nat) (rid : String) (dml : Dml) :
    (staged.record id scn (some rid) dml).Sound higher := by
  rcases staged.record_cases id scn (some rid) dml with
    ⟨front, prev, back, _, split, takes, _, recorded⟩ | ⟨_, recorded⟩
  · rw [recorded]
    exact (sound.fold split takes).mono (le_trans (le_of_lt above) below)
  · rw [recorded]
    exact (sound.create above scn rid dml).mono below

/-- Undoing the change recorded last restores the buffer. -/
theorem Staged.Sound.undo_record {staged : Staged} {bound id : Nat} (sound : staged.Sound bound) (above : bound < id)
    (scn : Nat) (rid : String) (dml : Dml) :
    (staged.record id scn (some rid) dml).undo rid dml.kind = staged := by
  rcases staged.record_cases id scn (some rid) dml with
    ⟨front, prev, back, update, split, takes, _, recorded⟩ | ⟨_, recorded⟩
  · have prevIn : prev ∈ staged.events := by
      rw [split]
      exact List.mem_append_right _ List.mem_cons_self
    rw [recorded, update]
    unfold Staged.undo
    dsimp only
    rw [takeLast_concat]
    · dsimp only
      have absent : forall event, event ∈ front -> event.id ≠ prev.id := by
        intro event member
        have distinct := sound.distinct
        rw [split, List.map_append, List.map_cons, List.nodup_append] at distinct
        exact distinct.2.2 event.id (mem_map_id member) prev.id List.mem_cons_self
      have restored : ({ prev.fold (some rid) dml with after := some (prev.after.getD []) } : Event) = prev := by
        rcases Option.isSome_iff_exists.mp (sound.filled prev prevIn (Event.isUpsert_of_takes takes)) with
          ⟨after, found⟩
        have sameRow := prev.rowId_fold (sound.located prev prevIn) (some rid) dml
        rcases prev with ⟨prevId, op, owner, table, before, prevAfter, rowId, prevScn, sql⟩
        cases found
        change (⟨prevId, op, owner, table, before, some after, (rowId <|> some rid), prevScn, sql⟩ : Event) = _
        change (rowId <|> some rid) = rowId at sameRow
        rw [sameRow]
      have same : (prev.fold (some rid) dml).id = prev.id := rfl
      rw [modifyEvent_append absent _ same, restored, ← split]
    · rw [Bool.and_eq_true]
      refine ⟨?_, rfl⟩
      unfold Piece.targetsRow
      rw [Bool.or_eq_true]
      exact Or.inl (beq_self_eq_true _)
  · rw [recorded]
    unfold Staged.undo
    dsimp only
    rw [takeLast_concat]
    · dsimp only
      have events : (staged.events ++ [newEvent id scn (some rid) dml]).filter (fun event => event.id != id) =
          staged.events := by
        rw [List.filter_append, List.filter_cons_of_neg (by rw [newEvent_id]; simp), List.filter_nil, List.append_nil,
          List.filter_eq_self]
        intro event member
        have bounded := sound.bounded event member
        rw [bne_iff_ne]
        omega
      have pieces : staged.pieces.filter (fun other => other.eventId != id) = staged.pieces := by
        rw [List.filter_eq_self]
        intro piece member
        have bounded := sound.piecesBounded piece member
        rw [bne_iff_ne]
        omega
      rw [events, pieces]
    · rw [Bool.and_eq_true]
      refine ⟨?_, beq_self_eq_true _⟩
      unfold Piece.targetsRow
      rw [Bool.or_eq_true]
      exact Or.inl (beq_self_eq_true _)

/-! ## The stack of changes in force -/

/-- A buffer made by recording the changes in force, with ids that ascend up to
a bound. -/
inductive Replay (alphanumeric : Alphanumeric) : List LogRow -> Staged -> Nat -> Prop where
  | start (bound : Nat) : Replay alphanumeric [] Staged.empty bound
  | skipped {stack : List LogRow} {staged : Staged} {bound : Nat} {row : LogRow} {reason : Reason}
      (before : Replay alphanumeric stack staged bound) (undecoded : decodeDml alphanumeric row = .error reason) :
      Replay alphanumeric (row :: stack) staged bound
  | recorded {stack : List LogRow} {staged : Staged} {bound id higher : Nat} {row : LogRow} {rid : String} {dml : Dml}
      (before : Replay alphanumeric stack staged bound) (decoded : decodeDml alphanumeric row = .ok dml)
      (located : validRowId row.rowId = some rid) (above : bound < id) (below : id ≤ higher) :
      Replay alphanumeric (row :: stack) (staged.record id row.scn (some rid) dml) higher

theorem Replay.sound {stack : List LogRow} {staged : Staged} {bound : Nat}
    (replay : Replay alphanumeric stack staged bound) : staged.Sound bound := by
  induction replay with
  | start bound => exact Staged.Sound.empty bound
  | skipped before undecoded ih => exact ih
  | recorded before decoded located above below ih => exact ih.record above below _ _ _

theorem Replay.mono {stack : List LogRow} {staged : Staged} {bound : Nat}
    (replay : Replay alphanumeric stack staged bound) {higher : Nat} (below : bound ≤ higher) :
    Replay alphanumeric stack staged higher := by
  induction replay generalizing higher with
  | start bound => exact .start higher
  | skipped before undecoded ih => exact .skipped (ih below) undecoded
  | recorded before decoded located above up _ => exact .recorded before decoded located above (le_trans up below)

theorem plainEvents_cons (policy : OnUnsupported) (row : LogRow) (stack : List LogRow) :
    plainEvents alphanumeric policy (row :: stack).reverse =
      (plainEvents alphanumeric policy stack.reverse >>= fun events => plainStep alphanumeric policy events row) := by
  unfold plainEvents
  rw [List.reverse_cons, List.foldlM_append]
  apply congrArg
  funext events
  change (plainStep alphanumeric policy events row >>= pure) = _
  cases plainStep alphanumeric policy events row <;> rfl

theorem Event.takes_erased (rowId : Option String) (dml : Dml) (event : Event) :
    event.erased.takes rowId dml = event.takes rowId dml := rfl

theorem Event.fold_erased (rowId : Option String) (dml : Dml) (event : Event) :
    event.erased.fold rowId dml = (event.fold rowId dml).erased := rfl

theorem newEvent_erased (id scn : Nat) (rowId : Option String) (dml : Dml) :
    (newEvent id scn rowId dml).erased = newEvent 0 scn rowId dml := by
  unfold newEvent
  split <;> rfl

/-- What is recorded does not depend on ids. -/
theorem record_erased (staged : Staged) (id scn : Nat) (rowId : Option String) (dml : Dml) :
    (staged.record id scn rowId dml).events.map Event.erased =
      ((⟨staged.events.map Event.erased, [], []⟩ : Staged).record 0 scn rowId dml).events := by
  have folds : (⟨staged.events.map Event.erased, [], []⟩ : Staged).folded rowId dml =
      (staged.folded rowId dml).map (Prod.map Event.erased (List.map Event.erased)) := by
    unfold Staged.folded
    split
    · exact modifyLast_map (Event.takes_erased rowId dml) (Event.fold_erased rowId dml) staged.events
    · rfl
  unfold Staged.record
  rw [folds]
  cases staged.folded rowId dml with
  | some found => rfl
  | none =>
      dsimp only [Option.map_none]
      rw [List.map_append, List.map_singleton, newEvent_erased]

variable {policy : OnUnsupported}

theorem Replay.events {stack : List LogRow} {staged : Staged} {bound : Nat}
    (replay : Replay alphanumeric stack staged bound) {events : List Event}
    (plain : plainEvents alphanumeric policy stack.reverse = .ok events) :
    staged.events.map Event.erased = events := by
  induction replay generalizing events with
  | start bound => exact Except.ok.inj plain
  | skipped before undecoded ih =>
      rw [plainEvents_cons] at plain
      rcases bind_eq_ok plain with ⟨earlier, plainBefore, step⟩
      unfold plainStep at step
      rw [undecoded] at step
      cases policy with
      | fail => cases step
      | skip =>
          cases step
          exact ih plainBefore
  | recorded before decoded located above below ih =>
      rw [plainEvents_cons] at plain
      rcases bind_eq_ok plain with ⟨earlier, plainBefore, step⟩
      unfold plainStep at step
      rw [decoded, located] at step
      cases step
      rw [record_erased, ih plainBefore]

/-- Every piece is that of a change in force, to the same row and of the same
kind. -/
theorem Replay.pieces {stack : List LogRow} {staged : Staged} {bound : Nat}
    (replay : Replay alphanumeric stack staged bound) {piece : Piece} (member : piece ∈ staged.pieces) :
    exists row dml, row ∈ stack ∧ decodeDml alphanumeric row = .ok dml ∧ piece.rowId = validRowId row.rowId ∧
      forall kind, piece.compatible kind = true -> dml.kind = kind := by
  induction replay with
  | start bound => cases member
  | skipped before undecoded ih =>
      rcases ih member with ⟨row, dml, inside, found⟩
      exact ⟨row, dml, List.mem_cons_of_mem _ inside, found⟩
  | @recorded stack staged bound id higher row rid dml before decoded located above below ih =>
      have earlier : piece ∈ staged.pieces -> exists other dml, other ∈ row :: stack ∧
          decodeDml alphanumeric other = .ok dml ∧ piece.rowId = validRowId other.rowId ∧
            forall kind, piece.compatible kind = true -> dml.kind = kind := by
        intro inside
        rcases ih inside with ⟨other, found, listed, rest⟩
        exact ⟨other, found, List.mem_cons_of_mem _ listed, rest⟩
      rcases staged.record_cases id row.scn (some rid) dml with
        ⟨front, prev, back, update, _, _, _, recorded⟩ | ⟨_, recorded⟩
      · rw [recorded] at member
        rcases List.mem_append.mp member with inside | last
        · exact earlier inside
        · rw [List.mem_singleton.mp last]
          refine ⟨row, dml, List.mem_cons_self, decoded, located.symm, ?_⟩
          intro kind compatible
          rw [update]
          exact (beq_iff_eq.mp compatible).symm
      · rw [recorded] at member
        rcases List.mem_append.mp member with inside | last
        · exact earlier inside
        · rw [List.mem_singleton.mp last]
          refine ⟨row, dml, List.mem_cons_self, decoded, located.symm, ?_⟩
          intro kind compatible
          exact beq_iff_eq.mp compatible

theorem kindOp_cases (kind : DmlKind) :
    kindOp kind = Op.INSERT ∨ kindOp kind = Op.DELETE ∨ kindOp kind = Op.UPDATE := by
  cases kind with
  | insert => exact Or.inl rfl
  | update => exact Or.inr (Or.inr rfl)
  | delete => exact Or.inr (Or.inl rfl)

theorem undoneKind_inverse (kind : DmlKind) : undoneKind (kindOp (inverseKind kind)) = kind := by
  cases kind <;> rfl

theorem validRowId_eq_some {rowId : Option String} {rid : String} (valid : validRowId rowId = some rid) :
    rowId = some rid := by
  unfold validRowId at valid
  exact (Option.filter_eq_some_iff.mp valid).1

/-- A row that undoes a skipped change finds nothing to undo. -/
theorem Replay.undo_skipped {stack : List LogRow} {staged : Staged} {bound : Nat}
    (replay : Replay alphanumeric stack staged bound)
    (changes : forall row, row ∈ stack -> IsChange alphanumeric xid row) {change : LogRow} {rid : String}
    {kind : DmlKind} (located : validRowId change.rowId = some rid) (ofKind : change.op = kindOp kind)
    (apart : forall earlier, earlier ∈ stack -> Decodes alphanumeric earlier -> earlier.rowId = change.rowId ->
      earlier.op ≠ change.op) : staged.undo rid kind = staged := by
  have nothing : takeLast (fun piece => piece.targetsRow staged.events rid && piece.compatible kind) staged.pieces =
      none := by
    rw [takeLast_eq_none]
    intro piece member
    rw [Bool.eq_false_iff]
    intro fits
    rw [Bool.and_eq_true] at fits
    rcases fits with ⟨targets, compatible⟩
    have onRow : piece.rowId = some rid := by
      unfold Piece.targetsRow at targets
      rw [Bool.or_eq_true, beq_iff_eq] at targets
      rcases targets with own | ofEvent
      · exact own
      · rcases List.any_eq_true.mp ofEvent with ⟨event, inside, both⟩
        rw [Bool.and_eq_true, beq_iff_eq, beq_iff_eq] at both
        rw [← replay.sound.sameRows piece member event inside both.1]
        exact both.2
    rcases replay.pieces member with ⟨row, dml, inside, decoded, sameRow, sameKind⟩
    rcases (changes row inside).ofKind with ⟨rowKind, opKind, kinds⟩
    have equal : rowKind = kind := (kinds dml decoded).symm.trans (sameKind kind compatible)
    rw [equal] at opKind
    apply apart row inside ⟨dml, decoded⟩ _ (opKind.trans ofKind.symm)
    rw [validRowId_eq_some (sameRow.symm.trans onRow), validRowId_eq_some located]
  unfold Staged.undo
  rw [nothing]

variable {rows stack : List LogRow}

theorem Rolled.isChange (rolled : Rolled alphanumeric xid rows stack) :
    forall row, row ∈ stack -> IsChange alphanumeric xid row := by
  induction rolled with
  | start =>
      intro row impossible
      cases impossible
  | change before isChange ih =>
      intro row member
      rcases List.mem_cons.mp member with rfl | inside
      · exact isChange
      · exact ih row inside
  | undo before undoes ih =>
      intro row member
      exact ih row (List.mem_cons_of_mem _ member)

/-! ## The miner's steps -/

/-- What a transaction has buffered, nothing if it is not opened. -/
def RedoMiner.staged (miner : RedoMiner) (xid : String) : Staged :=
  ((miner.slot xid).map Txn.buffer).getD Staged.empty

theorem RedoMiner.txn_buffer (miner : RedoMiner) (xid : String) (scn : Nat) :
    (miner.txn xid scn).buffer = miner.staged xid := by
  unfold RedoMiner.txn RedoMiner.staged
  cases miner.slot xid <;> rfl

theorem RedoMiner.slot_update (miner : RedoMiner) (xid : String) (scn : Nat) (change : Staged -> Staged) :
    (miner.update xid scn change).slot xid = some ⟨(miner.txn xid scn).firstScn, change (miner.staged xid)⟩ := by
  unfold RedoMiner.update RedoMiner.slot
  rw [lookup_assign, if_pos rfl, ← RedoMiner.txn_buffer miner xid scn]

theorem RedoMiner.staged_update (miner : RedoMiner) (xid : String) (scn : Nat) (change : Staged -> Staged) :
    (miner.update xid scn change).staged xid = change (miner.staged xid) := by
  rw [RedoMiner.staged, RedoMiner.slot_update]
  rfl

/-- Without waiting writes nothing is settled. -/
theorem RedoMiner.settleLobs_of_nil {miner : RedoMiner} {xid : String} (settled : (miner.staged xid).lobs = []) :
    exists next, miner.settleLobs xid = .ok next ∧ next.staged xid = miner.staged xid ∧
      next.onUnsupported = miner.onUnsupported ∧ next.maxStaged = miner.maxStaged ∧ next.nextId = miner.nextId ∧
      (miner.slot xid = none -> next.slot xid = none) := by
  unfold RedoMiner.settleLobs
  cases found : miner.slot xid with
  | none => exact ⟨miner, rfl, rfl, rfl, rfl, rfl, fun _ => found⟩
  | some txn =>
      have same : miner.staged xid = txn.buffer := by
        unfold RedoMiner.staged
        rw [found]
        rfl
      rw [same] at settled
      dsimp only
      rw [settled]
      refine ⟨_, rfl, ?_, rfl, rfl, rfl, fun impossible => absurd impossible (by simp)⟩
      rw [same]
      unfold RedoMiner.staged RedoMiner.slot
      rw [lookup_assign, if_pos rfl]
      change ({ txn.buffer with events := txn.buffer.events, lobs := [] } : Staged) = txn.buffer
      rw [← settled]

theorem RedoMiner.apply_of_kind {miner : RedoMiner} {row : LogRow} {kind : DmlKind} (ofKind : row.op = kindOp kind) :
    miner.apply alphanumeric row = (miner.dml alphanumeric row >>= fun miner => .ok (miner, none)) := by
  have other : row.op ≠ Op.START ∧ row.op ≠ Op.COMMIT ∧ row.op ≠ Op.ROLLBACK := by
    rw [ofKind]
    cases kind <;> decide
  unfold RedoMiner.apply
  rw [if_neg other.1, if_neg other.2.1, if_neg other.2.2, if_pos (ofKind ▸ kindOp_cases kind)]

theorem RedoMiner.feed_concat {miner : RedoMiner} {rows : List LogRow} {row : LogRow} :
    miner.feed alphanumeric (rows ++ [row]) =
      (miner.feed alphanumeric rows >>= fun middle => (middle.apply alphanumeric row).map Prod.fst) := by
  unfold RedoMiner.feed
  rw [List.foldlM_append]
  apply congrArg
  funext middle
  change ((middle.apply alphanumeric row).map Prod.fst >>= pure) = _
  cases middle.apply alphanumeric row <;> rfl

theorem RedoMiner.feed_kind {miner middle : RedoMiner} {rows : List LogRow} {row : LogRow} {kind : DmlKind}
    (fed : miner.feed alphanumeric rows = .ok middle) (ofKind : row.op = kindOp kind) :
    miner.feed alphanumeric (rows ++ [row]) = middle.dml alphanumeric row := by
  rw [RedoMiner.feed_concat, fed]
  change (middle.apply alphanumeric row).map Prod.fst = _
  rw [RedoMiner.apply_of_kind ofKind]
  cases middle.dml alphanumeric row <;> rfl

/-- The miner holds the changes in force of a transaction. -/
structure RedoMiner.Holds (alphanumeric : Alphanumeric) (miner : RedoMiner) (policy : OnUnsupported)
    (limit : Option Nat) (xid : String) (stack : List LogRow) : Prop where
  policy : miner.onUnsupported = policy
  limit : miner.maxStaged = limit
  replay : Replay alphanumeric stack (miner.staged xid) miner.nextId

/-- The miner after a change is recorded, ids apart from the row. -/
def RedoMiner.recorded (miner : RedoMiner) (row : LogRow) (dml : Dml) : RedoMiner :=
  miner.drawn.update row.xid row.scn (fun staged =>
    staged.record (miner.nextId + 1) row.scn (validRowId row.rowId) dml)

theorem RedoMiner.dml_undecoded {miner settled : RedoMiner} {row : LogRow} {reason : Reason}
    (settles : miner.settleLobs row.xid = .ok settled) (forward : row.rollback = false)
    (undecoded : decodeDml alphanumeric row = .error reason) :
    miner.dml alphanumeric row = (settled.unsupported row reason >>= fun _ => .ok settled) := by
  unfold RedoMiner.dml
  rw [settles]
  change (if row.rollback then _ else _) = _
  rw [forward, if_neg Bool.false_ne_true, undecoded]

theorem RedoMiner.dml_decoded {miner settled : RedoMiner} {row : LogRow} {dml : Dml}
    (settles : miner.settleLobs row.xid = .ok settled) (forward : row.rollback = false)
    (decoded : decodeDml alphanumeric row = .ok dml) :
    miner.dml alphanumeric row =
      if ((settled.drawn.txn row.xid row.scn).buffer.folded (validRowId row.rowId) dml).isSome then
        .ok (settled.recorded row dml)
      else ((settled.recorded row dml).checkStaged row.xid >>= fun _ => .ok (settled.recorded row dml)) := by
  unfold RedoMiner.dml
  rw [settles]
  change (if row.rollback then _ else _) = _
  rw [forward, if_neg Bool.false_ne_true, decoded]
  rfl

theorem RedoMiner.dml_undo {miner settled : RedoMiner} {row : LogRow} {rid : String}
    (settles : miner.settleLobs row.xid = .ok settled) (backward : row.rollback = true)
    (located : validRowId row.rowId = some rid) :
    miner.dml alphanumeric row =
      .ok (settled.update row.xid row.scn (fun staged => staged.undo rid (undoneKind row.op))) := by
  unfold RedoMiner.dml
  rw [settles]
  change (if row.rollback then _ else _) = _
  rw [backward, if_pos rfl, located]

theorem RedoMiner.staged_recorded (miner : RedoMiner) (row : LogRow) (dml : Dml) :
    (miner.recorded row dml).staged row.xid =
      (miner.staged row.xid).record (miner.nextId + 1) row.scn (validRowId row.rowId) dml := by
  unfold RedoMiner.recorded
  rw [RedoMiner.staged_update]
  rfl

/-- One change that is decoded, within the limit. -/
theorem RedoMiner.dml_recorded {miner settled : RedoMiner} {row : LogRow} {dml : Dml}
    (settles : miner.settleLobs row.xid = .ok settled) (forward : row.rollback = false)
    (decoded : decodeDml alphanumeric row = .ok dml)
    (within : forall bound, settled.maxStaged = some bound ->
      ((settled.recorded row dml).staged row.xid).events.length ≤ bound) :
    miner.dml alphanumeric row = .ok (settled.recorded row dml) := by
  rw [RedoMiner.dml_decoded settles forward decoded]
  split
  · rfl
  · have passes : (settled.recorded row dml).checkStaged row.xid = .ok () := by
      unfold RedoMiner.checkStaged
      split
      · next bound txn limited found =>
          have bounded := within bound limited
          unfold RedoMiner.staged at bounded
          rw [found] at bounded
          exact if_neg (not_lt.mpr bounded)
      · rfl
    rw [passes]
    rfl

/-- One change. -/
theorem RedoMiner.Holds.change {miner : RedoMiner} {limit : Option Nat} {stack : List LogRow}
    (holds : miner.Holds alphanumeric policy limit xid stack) {row : LogRow} (isChange : IsChange alphanumeric xid row)
    {before : List Event} (plain : plainEvents alphanumeric policy stack.reverse = .ok before)
    (within : forall bound, limit = some bound -> forall events,
      plainEvents alphanumeric policy (row :: stack).reverse = .ok events -> events.length ≤ bound) :
    (exists next events, miner.dml alphanumeric row = .ok next ∧
      next.Holds alphanumeric policy limit xid (row :: stack) ∧
      plainEvents alphanumeric policy (row :: stack).reverse = .ok events) ∨
      exists cause, miner.dml alphanumeric row = .error cause ∧
        plainEvents alphanumeric policy (row :: stack).reverse = .error cause := by
  rcases isChange.located with ⟨rid, located⟩
  rcases isChange.ofXid with rfl
  rcases RedoMiner.settleLobs_of_nil holds.replay.sound.settled with
    ⟨settled, settles, same, samePolicy, sameLimit, sameId, _⟩
  have stepped : plainEvents alphanumeric policy (row :: stack).reverse = plainStep alphanumeric policy before row := by
    rw [plainEvents_cons, plain]
    rfl
  have replay : Replay alphanumeric stack (settled.staged row.xid) settled.nextId := by
    rw [same, sameId]
    exact holds.replay
  rw [stepped] at within ⊢
  cases decoded : decodeDml alphanumeric row with
  | error reason =>
      rw [RedoMiner.dml_undecoded settles isChange.forward decoded]
      unfold plainStep RedoMiner.unsupported
      rw [decoded, samePolicy, holds.policy]
      cases policy with
      | fail => exact Or.inr ⟨_, rfl, rfl⟩
      | skip =>
          refine Or.inl ⟨settled, before, rfl, ⟨samePolicy.trans holds.policy, sameLimit.trans holds.limit, ?_⟩, rfl⟩
          exact .skipped replay decoded
  | ok dml =>
      have plainly : plainStep alphanumeric policy before row =
          .ok (((settled.recorded row dml).staged row.xid).events.map Event.erased) := by
        unfold plainStep
        rw [decoded, RedoMiner.staged_recorded, record_erased, replay.events plain]
      have fits : forall bound, settled.maxStaged = some bound ->
          ((settled.recorded row dml).staged row.xid).events.length ≤ bound := by
        intro bound limited
        have bounded := within bound (holds.limit.symm.trans (sameLimit.symm.trans limited)) _ plainly
        rw [List.length_map] at bounded
        exact bounded
      refine Or.inl ⟨settled.recorded row dml, _, RedoMiner.dml_recorded settles isChange.forward decoded fits, ?_,
        plainly⟩
      refine ⟨samePolicy.trans holds.policy, sameLimit.trans holds.limit, ?_⟩
      rw [RedoMiner.staged_recorded, located]
      exact .recorded replay decoded located (Nat.lt_succ_self _) le_rfl

/-- One change undone. -/
theorem RedoMiner.Holds.undo {miner : RedoMiner} {limit : Option Nat} {stack : List LogRow}
    {change : LogRow} (holds : miner.Holds alphanumeric policy limit xid (change :: stack)) {row : LogRow}
    (changes : forall row, row ∈ change :: stack -> IsChange alphanumeric xid row) (undoes : Undoes xid row change)
    (undoable : Undoable alphanumeric policy stack change) :
    exists next, miner.dml alphanumeric row = .ok next ∧ next.Holds alphanumeric policy limit xid stack := by
  have isChange := changes change List.mem_cons_self
  rcases isChange.located with ⟨rid, located⟩
  rcases isChange.ofKind with ⟨kind, ofKind, kinds⟩
  rcases undoes.ofXid with rfl
  rcases RedoMiner.settleLobs_of_nil holds.replay.sound.settled with
    ⟨settled, settles, same, samePolicy, sameLimit, sameId, _⟩
  have rowLocated : validRowId row.rowId = some rid := by
    rw [undoes.sameRow]
    exact located
  refine ⟨_, RedoMiner.dml_undo settles undoes.backward rowLocated, samePolicy.trans holds.policy,
    sameLimit.trans holds.limit, ?_⟩
  rw [RedoMiner.staged_update, undoes.inverse kind ofKind, undoneKind_inverse, same]
  change Replay alphanumeric stack ((miner.staged row.xid).undo rid kind) settled.nextId
  rw [sameId]
  generalize buffered : miner.staged row.xid = staged
  have replay := holds.replay
  rw [buffered] at replay
  cases replay with
  | skipped before undecoded =>
      rcases undoable with ⟨dml, decoded⟩ | ⟨_, apart⟩
      · rw [undecoded] at decoded
        cases decoded
      · rw [before.undo_skipped (fun row member => changes row (List.mem_cons_of_mem _ member)) located ofKind apart]
        exact before
  | @recorded _ earlier bound id _ _ found dml before decoded foundLocated above below =>
      have sameRid : found = rid := Option.some.inj (foundLocated.symm.trans located)
      rw [sameRid, ← kinds dml decoded, before.sound.undo_record above]
      exact before.mono (le_trans (le_of_lt above) below)

/-! ## Whole transactions -/

theorem Orderly.left {limit : Option Nat} {rows more : List LogRow}
    (orderly : Orderly alphanumeric xid policy limit (rows ++ more)) : Orderly alphanumeric xid policy limit rows where
  undoable := fun front stack change undo before =>
    orderly.undoable front stack change undo (before.trans (List.prefix_append rows more))
  within := fun bound limited front stack events before =>
    orderly.within bound limited front stack events (before.trans (List.prefix_append rows more))

/-- Feeding the rows of a transaction ends as recording the changes in force
does. -/
theorem Rolled.feed {limit : Option Nat} {miner : RedoMiner} (fresh : miner.Holds alphanumeric policy limit xid [])
    (rolled : Rolled alphanumeric xid rows stack) (orderly : Orderly alphanumeric xid policy limit rows) :
    (exists next events, miner.feed alphanumeric rows = .ok next ∧ next.Holds alphanumeric policy limit xid stack ∧
      plainEvents alphanumeric policy stack.reverse = .ok events) ∨
      exists cause, miner.feed alphanumeric rows = .error cause ∧
        plainEvents alphanumeric policy stack.reverse = .error cause := by
  induction rolled with
  | start => exact Or.inl ⟨miner, [], rfl, fresh, rfl⟩
  | @change rows stack row before isChange ih =>
      rcases ih orderly.left with ⟨middle, events, fed, holds, plain⟩ | ⟨cause, failed, plain⟩
      · rcases isChange.ofKind with ⟨kind, ofKind, _⟩
        rw [RedoMiner.feed_kind fed ofKind]
        apply holds.change isChange plain
        intro bound limited events found
        exact orderly.within bound limited _ _ events (List.prefix_refl _) (.change before isChange) found
      · refine Or.inr ⟨cause, ?_, ?_⟩
        · rw [RedoMiner.feed_concat, failed]
          rfl
        · rw [plainEvents_cons, plain]
          rfl
  | @undo rows stack row change before undoes ih =>
      have undoable := orderly.undoable _ stack change row (List.prefix_refl _) before undoes
      rcases ih orderly.left with ⟨middle, events, fed, holds, plain⟩ | ⟨cause, failed, plain⟩
      · rcases (before.isChange change List.mem_cons_self).ofKind with ⟨kind, ofKind, _⟩
        rcases holds.undo before.isChange undoes undoable with ⟨next, stepped, nextHolds⟩
        rw [plainEvents_cons] at plain
        rcases bind_eq_ok plain with ⟨earlier, plainBefore, _⟩
        refine Or.inl ⟨next, earlier, ?_, nextHolds, plainBefore⟩
        rw [RedoMiner.feed_kind fed (undoes.inverse kind ofKind)]
        exact stepped
      · refine Or.inr ⟨cause, ?_, ?_⟩
        · rw [RedoMiner.feed_concat, failed]
          rfl
        · rw [plainEvents_cons] at plain
          cases earlier : plainEvents alphanumeric policy stack.reverse with
          | error other =>
              rw [earlier] at plain
              exact plain
          | ok events =>
              -- the change itself does not stop the miner
              rw [earlier] at plain
              change plainStep alphanumeric policy events change = _ at plain
              unfold plainStep at plain
              rcases undoable with ⟨dml, decoded⟩ | ⟨rfl, _⟩
              · rw [decoded] at plain
                cases plain
              · split at plain <;> cases plain

/-- The changes in force by themselves. -/
theorem Rolled.inForce (rolled : Rolled alphanumeric xid rows stack) :
    Rolled alphanumeric xid stack.reverse stack := by
  have changes := rolled.isChange
  clear rolled
  induction stack with
  | nil => exact .start
  | cons row stack ih =>
      rw [List.reverse_cons]
      apply Rolled.change
      · exact ih (fun row member => changes row (List.mem_cons_of_mem _ member))
      · exact changes row List.mem_cons_self

/-- Every lower part of the stack was the whole stack once. -/
theorem Rolled.exists_front (rolled : Rolled alphanumeric xid rows stack)
    {lower : List LogRow} (suffix : lower <:+ stack) :
    exists front, front <+: rows ∧ Rolled alphanumeric xid front lower := by
  induction rolled generalizing lower with
  | start =>
      rw [List.suffix_nil.mp suffix]
      exact ⟨[], List.prefix_refl _, .start⟩
  | @change rows stack row before isChange ih =>
      rcases List.suffix_cons_iff.mp suffix with rfl | below
      · exact ⟨rows ++ [row], List.prefix_refl _, .change before isChange⟩
      · rcases ih below with ⟨front, earlier, found⟩
        exact ⟨front, earlier.trans (List.prefix_append _ _), found⟩
  | undo before undoes ih =>
      rcases ih (suffix.trans (List.suffix_cons _ _)) with ⟨front, earlier, found⟩
      exact ⟨front, earlier.trans (List.prefix_append _ _), found⟩

theorem Rolled.eq_reverse (rolled : Rolled alphanumeric xid rows stack)
    (forward : forall row, row ∈ rows -> row.rollback = false) : stack = rows.reverse := by
  induction rolled with
  | start => rfl
  | change before isChange ih =>
      rw [List.reverse_append, ih (fun row member => forward row (List.mem_append_left _ member))]
      rfl
  | @undo rows stack row change before undoes ih =>
      have undone := forward row (List.mem_append_right _ List.mem_cons_self)
      rw [undoes.backward] at undone
      cases undone

theorem Orderly.inForce {limit : Option Nat}
    (orderly : Orderly alphanumeric xid policy limit rows) (rolled : Rolled alphanumeric xid rows stack) :
    Orderly alphanumeric xid policy limit stack.reverse := by
  have forward : forall row, row ∈ stack.reverse -> row.rollback = false :=
    fun row member => (rolled.isChange row (List.mem_reverse.mp member)).forward
  constructor
  · intro front below change undo before _ undoes
    have undone := forward undo (before.subset (List.mem_append_right _ List.mem_cons_self))
    rw [undoes.backward] at undone
    cases undone
  · intro bound limited front lower events before lowerRolled plain
    have same := lowerRolled.eq_reverse (fun row member => forward row (before.subset member))
    have suffix : lower <:+ stack := by
      rw [same, ← List.reverse_prefix, List.reverse_reverse]
      exact before
    rcases rolled.exists_front suffix with ⟨earlier, passed, found⟩
    exact orderly.within bound limited earlier lower events passed found plain

/-- A COMMIT releases what is buffered. -/
theorem RedoMiner.apply_commit {miner : RedoMiner} (settled : (miner.staged xid).lobs = []) {commit : LogRow}
    (commits : commit.op = Op.COMMIT) (ofXid : commit.xid = xid) :
    exists next committed, miner.apply alphanumeric commit = .ok (next, committed) ∧
      (committed.map Committed.events).getD [] = (miner.staged xid).events := by
  rcases ofXid with rfl
  rcases RedoMiner.settleLobs_of_nil settled with ⟨settled, settles, same, _⟩
  have other : commit.op ≠ Op.START := by
    rw [commits]
    decide
  unfold RedoMiner.apply
  rw [if_neg other, if_pos commits, settles]
  refine ⟨_, _, rfl, ?_⟩
  rw [← same]
  unfold RedoMiner.staged
  cases settled.slot commit.xid <;> rfl

theorem Rolled.released {miner : RedoMiner} (fresh : miner.staged xid = Staged.empty)
    (rolled : Rolled alphanumeric xid rows stack)
    (orderly : Orderly alphanumeric xid miner.onUnsupported miner.maxStaged rows) {commit : LogRow}
    (commits : commit.op = Op.COMMIT) (ofXid : commit.xid = xid) :
    (miner.released alphanumeric rows commit).map (List.map Event.erased) =
      plainEvents alphanumeric miner.onUnsupported stack.reverse := by
  have starts : miner.Holds alphanumeric miner.onUnsupported miner.maxStaged xid [] := by
    refine ⟨rfl, rfl, ?_⟩
    rw [fresh]
    exact .start _
  unfold RedoMiner.released
  rcases rolled.feed starts orderly with ⟨next, events, fed, holds, plain⟩ | ⟨cause, failed, plain⟩
  · rcases RedoMiner.apply_commit holds.replay.sound.settled commits ofXid with ⟨final, committed, applied, released⟩
    rw [fed, plain]
    change ((next.apply alphanumeric commit >>= _).map _) = _
    rw [applied]
    change Except.ok (((committed.map Committed.events).getD []).map Event.erased) = _
    rw [released, holds.replay.events plain]
  · rw [failed, plain]
    rfl

/-- A transaction that is rolled back to savepoints releases what the changes in
force release by themselves, ids apart, as long as no change that was skipped is
mistaken for another when it is undone. -/
theorem Rolled.released_eq {miner : RedoMiner} (fresh : miner.staged xid = Staged.empty)
    (rolled : Rolled alphanumeric xid rows stack)
    (orderly : Orderly alphanumeric xid miner.onUnsupported miner.maxStaged rows) {commit : LogRow}
    (commits : commit.op = Op.COMMIT) (ofXid : commit.xid = xid) :
    (miner.released alphanumeric rows commit).map (List.map Event.erased) =
      (miner.released alphanumeric stack.reverse commit).map (List.map Event.erased) := by
  rw [rolled.released fresh orderly commits ofXid]
  exact (rolled.inForce.released fresh (orderly.inForce rolled) commits ofXid).symm

/-! ## Where every change is decoded, and where one is skipped -/

theorem Rolled.mem_rows (rolled : Rolled alphanumeric xid rows stack) :
    forall row, row ∈ stack -> row ∈ rows := by
  induction rolled with
  | start =>
      intro row impossible
      cases impossible
  | change before isChange ih =>
      intro row member
      rcases List.mem_cons.mp member with rfl | inside
      · exact List.mem_append_right _ List.mem_cons_self
      · exact List.mem_append_left _ (ih row inside)
  | undo before undoes ih =>
      intro row member
      exact List.mem_append_left _ (ih row (List.mem_cons_of_mem _ member))

/-- Without a limit it is enough that every change which is undone is decoded. -/
theorem Orderly.of_decodes {rows : List LogRow}
    (decodes : forall row, row ∈ rows -> row.rollback = false -> Decodes alphanumeric row) :
    Orderly alphanumeric xid policy none rows where
  undoable := by
    intro front stack change undo before rolled _
    have inside := before.subset (List.mem_append_left _ (rolled.mem_rows change List.mem_cons_self))
    exact Or.inl (decodes change inside (rolled.isChange change List.mem_cons_self).forward)
  within := fun _ limited => nomatch limited

/-- Nor is there anything to ask for as long as nothing is undone. -/
theorem Orderly.of_forward {rows : List LogRow}
    (forward : forall row, row ∈ rows -> row.rollback = false) : Orderly alphanumeric xid policy none rows where
  undoable := by
    intro front stack change undo before _ undoes
    have undone := forward undo (before.subset (List.mem_append_right _ List.mem_cons_self))
    rw [undoes.backward] at undone
    cases undone
  within := fun _ limited => nomatch limited

theorem plainEvents_skip (changes : List LogRow) :
    exists events, plainEvents alphanumeric .skip changes = .ok events := by
  have steps : forall before row, exists events, plainStep alphanumeric .skip before row = .ok events := by
    intro before row
    unfold plainStep
    cases decodeDml alphanumeric row with
    | error reason => exact ⟨before, rfl⟩
    | ok dml => exact ⟨_, rfl⟩
  unfold plainEvents
  generalize ([] : List Event) = before
  induction changes generalizing before with
  | nil => exact ⟨before, rfl⟩
  | cons row changes ih =>
      rcases steps before row with ⟨events, stepped⟩
      rw [List.foldlM_cons, stepped]
      exact ih events

/-- An update of one column. -/
def setValue (old new : String) : Statement :=
  .update "APP".toList "T".toList ("V".toList, .quoted new.toList) []
    [("ID".toList, .quoted "1".toList), ("V".toList, .quoted old.toList)]

def updateRow (scn : Nat) (old new : String) (info : Option String) : LogRow :=
  { scn, op := Op.UPDATE, xid := "X", redo := String.ofList (setValue old new).text, rowId := some "R1", info }

def undoRow (scn : Nat) : LogRow := { scn, op := Op.UPDATE, xid := "X", rowId := some "R1", rollback := true }

def commitRow (scn : Nat) : LogRow := { scn, op := Op.COMMIT, xid := "X" }

theorem decodeDml_updateRow (scn : Nat) (old new : String) :
    decodeDml alphanumeric (updateRow scn old new none) = .ok (setValue old new).dml := by
  have clean : forall name, name ∈ (setValue old new).names -> '"' ∉ name := by
    change forall name, name ∈ ["APP".toList, "T".toList, "V".toList, "ID".toList, "V".toList] -> '"' ∉ name
    decide
  have parsed : parseDml alphanumeric (String.ofList (setValue old new).text).toList = .ok (setValue old new).dml := by
    rw [String.toList_ofList]
    exact Statement.parseDml_text clean
  exact decodeDml_of_parsed rfl parsed (fun keyless => List.cons_ne_nil _ _ keyless.2)

theorem isChange_updateRow (scn : Nat) (old new : String) (info : Option String)
    (kinds : forall dml, decodeDml alphanumeric (updateRow scn old new info) = .ok dml -> dml.kind = .update) :
    IsChange alphanumeric "X" (updateRow scn old new info) :=
  ⟨rfl, rfl, ⟨"R1", rfl⟩, .update, rfl, kinds⟩

theorem decodeDml_lost (scn : Nat) (old new : String) :
    decodeDml alphanumeric (updateRow scn old new (some "Dictionary Mismatch")) = .error .mismatch :=
  decodeDml_mismatch rfl

theorem undoes_undoRow (scn changed : Nat) (old new : String) (info : Option String) :
    Undoes "X" (undoRow scn) (updateRow changed old new info) := by
  refine ⟨rfl, rfl, rfl, ?_⟩
  intro kind ofKind
  cases kind with
  | insert => exact absurd ofKind (show Op.UPDATE ≠ Op.INSERT by decide)
  | update => rfl
  | delete => exact absurd ofKind (show Op.UPDATE ≠ Op.DELETE by decide)

theorem kinds_updateRow (scn : Nat) (old new : String) :
    forall dml, decodeDml alphanumeric (updateRow scn old new none) = .ok dml -> dml.kind = .update := by
  intro dml decoded
  rw [decodeDml_updateRow] at decoded
  cases decoded
  rfl

/-- The second of two updates is undone. -/
theorem Rolled.released_eq_second :
    ((RedoMiner.new .fail none).released asciiAlphanumeric
        [updateRow 1 "a" "b" none, updateRow 2 "b" "c" none, undoRow 3] (commitRow 4)).map (List.map Event.erased) =
      ((RedoMiner.new .fail none).released asciiAlphanumeric [updateRow 1 "a" "b" none] (commitRow 4)).map
        (List.map Event.erased) := by
  have rolled : Rolled asciiAlphanumeric "X" [updateRow 1 "a" "b" none, updateRow 2 "b" "c" none, undoRow 3]
      [updateRow 1 "a" "b" none] := by
    have first : Rolled asciiAlphanumeric "X" ([] ++ [updateRow 1 "a" "b" none]) [updateRow 1 "a" "b" none] :=
      .change .start (isChange_updateRow _ _ _ _ (kinds_updateRow _ _ _))
    exact .undo (.change first (isChange_updateRow _ _ _ _ (kinds_updateRow _ _ _))) (undoes_undoRow _ _ _ _ _)
  refine rolled.released_eq rfl (Orderly.of_decodes ?_) rfl rfl
  intro row member forward
  rcases List.mem_cons.mp member with rfl | later
  · exact ⟨_, decodeDml_updateRow _ _ _⟩
  · rcases List.mem_cons.mp later with rfl | last
    · exact ⟨_, decodeDml_updateRow _ _ _⟩
    · rw [List.mem_singleton.mp last] at forward
      cases forward

/-- The buffer holds the piece of the first update alone. -/
theorem undo_lost {staged : Staged} {bound : Nat}
    (replay : Replay alphanumeric
      [updateRow 2 "b" "c" (some "Dictionary Mismatch"), updateRow 1 "a" "b" none] staged bound) :
    staged.undo "R1" .update = Staged.empty := by
  cases replay with
  | recorded _ decoded =>
      rw [decodeDml_lost] at decoded
      cases decoded
  | skipped before _ =>
      cases before with
      | skipped _ undecoded =>
          rw [decodeDml_updateRow] at undecoded
          cases undecoded
      | recorded before decoded located above _ =>
          cases before
          cases located
          rw [decodeDml_updateRow] at decoded
          cases decoded
          exact (Staged.Sound.empty _).undo_record above _ _ _

theorem rolled_lost :
    Rolled alphanumeric "X" ([updateRow 1 "a" "b" none] ++ [updateRow 2 "b" "c" (some "Dictionary Mismatch")])
      [updateRow 2 "b" "c" (some "Dictionary Mismatch"), updateRow 1 "a" "b" none] := by
  have first : Rolled alphanumeric "X" ([] ++ [updateRow 1 "a" "b" none]) [updateRow 1 "a" "b" none] :=
    .change .start (isChange_updateRow _ _ _ _ (kinds_updateRow _ _ _))
  refine .change first (isChange_updateRow _ _ _ _ ?_)
  intro dml decoded
  rw [decodeDml_lost] at decoded
  cases decoded

theorem released_lost :
    (RedoMiner.new .skip none).released asciiAlphanumeric
        [updateRow 1 "a" "b" none, updateRow 2 "b" "c" (some "Dictionary Mismatch"), undoRow 3] (commitRow 4) =
      .ok [] := by
  have starts : (RedoMiner.new .skip none).Holds asciiAlphanumeric .skip none "X" [] := ⟨rfl, rfl, .start _⟩
  rcases rolled_lost.feed starts (Orderly.of_forward (by decide)) with ⟨middle, _, fed, holds, _⟩ | ⟨cause, _, plain⟩
  · rcases RedoMiner.settleLobs_of_nil holds.replay.sound.settled with
      ⟨settled, settles, same, samePolicy, sameLimit, _⟩
    have undone : (settled.staged "X").undo "R1" .update = Staged.empty := by
      rw [same]
      exact undo_lost holds.replay
    have next : (settled.update "X" 3 (fun staged => staged.undo "R1" .update)).Holds asciiAlphanumeric .skip none "X"
        [] := by
      refine ⟨samePolicy.trans holds.policy, sameLimit.trans holds.limit, ?_⟩
      rw [RedoMiner.staged_update, undone]
      exact .start _
    have commits : (commitRow 4).op = Op.COMMIT := rfl
    have updates : (undoRow 3).op = kindOp .update := rfl
    rcases RedoMiner.apply_commit next.replay.sound.settled commits rfl with ⟨final, committed, applied, released⟩
    have fedAll := RedoMiner.feed_kind fed updates
    rw [RedoMiner.dml_undo settles rfl rfl] at fedAll
    unfold RedoMiner.released
    change (RedoMiner.feed asciiAlphanumeric (RedoMiner.new .skip none) ([updateRow 1 "a" "b" none] ++
      [updateRow 2 "b" "c" (some "Dictionary Mismatch")] ++ [undoRow 3]) >>= _) = _
    rw [fedAll]
    change ((settled.update "X" 3 (fun staged => staged.undo "R1" .update)).apply asciiAlphanumeric (commitRow 4) >>=
      _) = _
    rw [applied]
    change Except.ok ((committed.map Committed.events).getD []) = _
    rw [released, RedoMiner.staged_update, undone]
    rfl
  · rcases plainEvents_skip [updateRow 2 "b" "c" (some "Dictionary Mismatch"), updateRow 1 "a" "b" none].reverse with
      ⟨events, found⟩
    rw [found] at plain
    cases plain

/-- The second of two updates cannot be decoded.  It is skipped, and the row that
undoes it takes the first one away. -/
theorem skippedUndo_takes_other :
    Rolled asciiAlphanumeric "X"
        [updateRow 1 "a" "b" none, updateRow 2 "b" "c" (some "Dictionary Mismatch"), undoRow 3]
        [updateRow 1 "a" "b" none] ∧
      (RedoMiner.new .skip none).released asciiAlphanumeric
        [updateRow 1 "a" "b" none, updateRow 2 "b" "c" (some "Dictionary Mismatch"), undoRow 3] (commitRow 4) =
          .ok [] ∧
      ((RedoMiner.new .skip none).released asciiAlphanumeric [updateRow 1 "a" "b" none] (commitRow 4)).map
          (List.map Event.erased) ≠ .ok [] := by
  have first : Rolled asciiAlphanumeric "X" ([] ++ [updateRow 1 "a" "b" none]) [updateRow 1 "a" "b" none] :=
    .change .start (isChange_updateRow _ _ _ _ (kinds_updateRow _ _ _))
  refine ⟨.undo rolled_lost (undoes_undoRow _ _ _ _ _), released_lost, ?_⟩
  · have plain : plainEvents asciiAlphanumeric .skip [updateRow 1 "a" "b" none] =
        .ok [newEvent 0 1 (some "R1") (setValue "a" "b").dml] := by
      change (plainStep asciiAlphanumeric .skip [] (updateRow 1 "a" "b" none) >>= pure) = _
      unfold plainStep
      rw [decodeDml_updateRow]
      rfl
    have released : ((RedoMiner.new .skip none).released asciiAlphanumeric [updateRow 1 "a" "b" none]
        (commitRow 4)).map (List.map Event.erased) = plainEvents asciiAlphanumeric .skip [updateRow 1 "a" "b" none] :=
      first.released rfl (Orderly.of_forward (by decide)) rfl rfl
    intro empty
    rw [released] at empty
    have impossible := plain.symm.trans empty
    cases impossible

end OracleCdc
end FaucetStream
