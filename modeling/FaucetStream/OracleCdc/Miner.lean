import FaucetStream.Error
import FaucetStream.Library.Slots

namespace FaucetStream
namespace OracleCdc

open Library

/-!
# Assembling transactions from redo

Redo rows of all transactions arrive mixed, in SCN order.  The miner buffers
each transaction until its COMMIT releases it or its ROLLBACK discards it.

What a data row adds to its transaction is left to a decoder: parsing the redo
text, folding the rows of a large object, undoing to a savepoint.  It sees the
transaction's own buffer only, so that a transaction is assembled from its own
rows whatever stands between them.  This is the main lemma here.  The miner of
the source is one over `RedoMiner.decoder`.
-/

/-- A row of `V$LOGMNR_CONTENTS`, its continuation rows joined. -/
structure LogRow where
  scn : Nat
  op : Int
  xid : String
  owner : Option String := none
  table : Option String := none
  redo : String := ""
  rowId : Option String := none
  /-- The row undoes an earlier one. -/
  rollback : Bool := false
  timestamp : Option String := none
  info : Option String := none
  deriving DecidableEq

namespace Op

def START : Int := 6
def COMMIT : Int := 7
def ROLLBACK : Int := 36

end Op

/-- What the rows between START and the end do to a transaction's buffer.
`change` answers `none` when the row leaves the miner as it is. -/
structure Decoder (Buffer Event : Type) where
  fresh : Buffer
  change : Option Buffer -> LogRow -> Except FaucetError (Option Buffer)
  settleLobs : Buffer -> Except FaucetError Buffer
  events : Buffer -> List Event

structure Txn (Buffer : Type) where
  firstScn : Nat
  buffer : Buffer

structure Committed (Event : Type) where
  xid : String
  commitScn : Nat
  timestamp : Option String
  events : List Event
  deriving DecidableEq

structure Miner (Buffer : Type) where
  opened : List (String × Txn Buffer)

variable {Buffer Event : Type}

namespace Miner

def new : Miner Buffer := ⟨[]⟩

/-- The first SCN of the oldest transaction still buffered. -/
def oldestOpen (miner : Miner Buffer) : Option Nat :=
  (miner.opened.map (fun entry => entry.2.firstScn)).min?

def slot (miner : Miner Buffer) (xid : String) : Option (Txn Buffer) := miner.opened.lookup xid

def apply (decoder : Decoder Buffer Event) (miner : Miner Buffer) (row : LogRow) :
    Except FaucetError (Miner Buffer × Option (Committed Event)) :=
  if row.op = Op.START then
    let txn := (miner.slot row.xid).getD ⟨row.scn, decoder.fresh⟩
    .ok (⟨assign miner.opened row.xid txn⟩, none)
  else if row.op = Op.COMMIT then
    match miner.slot row.xid with
    | none => .ok (miner, none)
    | some txn => do
        let settled <- decoder.settleLobs txn.buffer
        .ok (⟨unassign miner.opened row.xid⟩, some ⟨row.xid, row.scn, row.timestamp, decoder.events settled⟩)
  else if row.op = Op.ROLLBACK then .ok (⟨unassign miner.opened row.xid⟩, none)
  else do
    let changed <- decoder.change ((miner.slot row.xid).map Txn.buffer) row
    match changed with
    | none => .ok (miner, none)
    | some buffer =>
        let firstScn := ((miner.slot row.xid).map Txn.firstScn).getD row.scn
        .ok (⟨assign miner.opened row.xid ⟨firstScn, buffer⟩⟩, none)

end Miner

/-! ## One transaction by itself -/

/-- What a row makes of its own transaction's slot. -/
def advance (decoder : Decoder Buffer Event) (slot : Option (Txn Buffer)) (row : LogRow) :
    Except FaucetError (Option (Txn Buffer)) :=
  if row.op = Op.START then .ok (some (slot.getD ⟨row.scn, decoder.fresh⟩))
  else if row.op = Op.COMMIT then .ok none
  else if row.op = Op.ROLLBACK then .ok none
  else do
    let changed <- decoder.change (slot.map Txn.buffer) row
    match changed with
    | none => .ok slot
    | some buffer => .ok (some ⟨(slot.map Txn.firstScn).getD row.scn, buffer⟩)

/-- What the rows of one transaction leave in its slot. -/
def assemble (decoder : Decoder Buffer Event) (rows : List LogRow) : Except FaucetError (Option (Txn Buffer)) :=
  rows.foldlM (advance decoder) none

/-- What a COMMIT row releases of a slot. -/
def release (decoder : Decoder Buffer Event) (slot : Option (Txn Buffer)) (row : LogRow) :
    Except FaucetError (Option (Committed Event)) :=
  match slot with
  | none => .ok none
  | some txn => do
      let settled <- decoder.settleLobs txn.buffer
      .ok (some ⟨row.xid, row.scn, row.timestamp, decoder.events settled⟩)

/-- A row that ends its transaction. -/
def LogRow.Ends (row : LogRow) : Prop := row.op = Op.COMMIT ∨ row.op = Op.ROLLBACK

instance (row : LogRow) : Decidable row.Ends := inferInstanceAs (Decidable (_ ∨ _))

def rowsOf (rows : List LogRow) (xid : String) : List LogRow := rows.filter (fun row => row.xid == xid)

theorem rowsOf_append (first second : List LogRow) (xid : String) :
    rowsOf (first ++ second) xid = rowsOf first xid ++ rowsOf second xid :=
  List.filter_append first second

theorem mem_rowsOf {rows : List LogRow} {xid : String} {row : LogRow} :
    row ∈ rowsOf rows xid ↔ row ∈ rows ∧ row.xid = xid := by
  simp only [rowsOf, List.mem_filter, beq_iff_eq]

theorem rowsOf_singleton_self (row : LogRow) : rowsOf [row] row.xid = [row] := by
  simp only [rowsOf, List.filter_cons, beq_self_eq_true, if_true, List.filter_nil]

theorem rowsOf_singleton_of_ne {row : LogRow} {xid : String} (different : xid ≠ row.xid) :
    rowsOf [row] xid = [] := by
  simp only [rowsOf, List.filter_cons, beq_eq_false_iff_ne.mpr (Ne.symm different), Bool.false_eq_true, if_false,
    List.filter_nil]

variable {decoder : Decoder Buffer Event}

theorem assemble_append {first second : List LogRow} {slot : Option (Txn Buffer)}
    (done : assemble decoder (first ++ second) = .ok slot) :
    exists middle, assemble decoder first = .ok middle ∧ second.foldlM (advance decoder) middle = .ok slot := by
  rw [assemble, List.foldlM_append] at done
  exact bind_eq_ok done

theorem assemble_concat {rows : List LogRow} {row : LogRow} {slot : Option (Txn Buffer)}
    (done : assemble decoder (rows ++ [row]) = .ok slot) :
    exists middle, assemble decoder rows = .ok middle ∧ advance decoder middle row = .ok slot := by
  rcases assemble_append done with ⟨middle, first, last⟩
  rw [List.foldlM_cons] at last
  rcases bind_eq_ok last with ⟨final, step, same⟩
  have reached : final = slot := Except.ok.inj same
  exact ⟨middle, first, reached ▸ step⟩

theorem assemble_concat_of {rows : List LogRow} {row : LogRow} {middle slot : Option (Txn Buffer)}
    (first : assemble decoder rows = .ok middle) (step : advance decoder middle row = .ok slot) :
    assemble decoder (rows ++ [row]) = .ok slot := by
  rw [assemble] at first ⊢
  rw [List.foldlM_append, first]
  change List.foldlM (advance decoder) middle [row] = _
  rw [List.foldlM_cons, step]
  rfl

/-- A row that does not end its transaction keeps the slot's first SCN, or
opens the slot at its own. -/
theorem advance_of_not_ends {slot next : Option (Txn Buffer)} {row : LogRow} (running : ¬ row.Ends)
    (done : advance decoder slot row = .ok next) :
    (slot = none ∧ next = none) ∨
      exists txn, next = some txn ∧ txn.firstScn = (slot.map Txn.firstScn).getD row.scn := by
  rw [LogRow.Ends, not_or] at running
  rw [advance, if_neg running.1, if_neg running.2] at done
  split at done
  · have same := Except.ok.inj done
    refine .inr ⟨_, same.symm, ?_⟩
    cases slot <;> rfl
  · rcases bind_eq_ok done with ⟨changed, _, done⟩
    cases changed with
    | some buffer => exact .inr ⟨_, (Except.ok.inj done).symm, rfl⟩
    | none =>
        have same : slot = next := Except.ok.inj done
        subst same
        cases slot with
        | none => exact .inl ⟨rfl, rfl⟩
        | some txn => exact .inr ⟨txn, rfl, rfl⟩

/-- The first SCN of a slot is that of one of its rows. -/
theorem firstScn_of_assemble {rows : List LogRow} (running : forall row, row ∈ rows -> ¬ row.Ends) {txn : Txn Buffer}
    (done : assemble decoder rows = .ok (some txn)) : exists row, row ∈ rows ∧ row.scn = txn.firstScn := by
  induction rows using List.reverseRecOn generalizing txn with
  | nil => cases done
  | append_singleton rows row ih =>
      rcases assemble_concat done with ⟨middle, first, step⟩
      have inside : row ∈ rows ++ [row] := List.mem_append_right rows List.mem_cons_self
      rcases advance_of_not_ends (running row inside) step with ⟨_, none⟩ | ⟨found, same, firstScn⟩
      · cases none
      · cases Option.some.inj same
        cases middle with
        | none => exact ⟨row, inside, firstScn.symm⟩
        | some earlier =>
            rcases ih (fun row member => running row (List.mem_append_left _ member)) first
              with ⟨opening, member, scn⟩
            exact ⟨opening, List.mem_append_left _ member, scn.trans firstScn.symm⟩

/-- Below the first SCN of its slot a transaction has left nothing. -/
theorem assemble_below {rows : List LogRow} (sorted : rows.Pairwise (fun first second => first.scn ≤ second.scn))
    (running : forall row, row ∈ rows -> ¬ row.Ends) {slot : Option (Txn Buffer)} {scn : Nat}
    (done : assemble decoder rows = .ok slot) (later : forall txn, slot = some txn -> scn ≤ txn.firstScn) :
    assemble decoder (rows.filter (fun row => decide (row.scn < scn))) = .ok none := by
  induction rows using List.reverseRecOn generalizing slot with
  | nil => rfl
  | append_singleton rows row ih =>
      rcases List.pairwise_append.mp sorted with ⟨sortedRows, _, before⟩
      have runningRows : forall row, row ∈ rows -> ¬ row.Ends :=
        fun row member => running row (List.mem_append_left _ member)
      rcases assemble_concat done with ⟨middle, first, step⟩
      have kept : forall txn, middle = some txn -> scn ≤ txn.firstScn := by
        intro txn same
        subst same
        rcases advance_of_not_ends (running row (List.mem_append_right rows List.mem_cons_self)) step
          with ⟨none, _⟩ | ⟨found, same, firstScn⟩
        · cases none
        · exact Nat.le_trans (later found same) (Nat.le_of_eq firstScn)
      have below := ih sortedRows runningRows first kept
      rw [List.filter_append]
      by_cases early : row.scn < scn
      · rw [List.filter_cons_of_pos (by rw [decide_eq_true_eq]; exact early), List.filter_nil]
        refine assemble_concat_of below ?_
        -- The slot is still empty before this row, so the row cannot open it either.
        cases middle with
        | some txn =>
            rcases firstScn_of_assemble runningRows first with ⟨opening, member, same⟩
            have order := before opening member row List.mem_cons_self
            have bound := kept txn rfl
            omega
        | none =>
            rcases advance_of_not_ends (running row (List.mem_append_right rows List.mem_cons_self)) step
              with ⟨_, none⟩ | ⟨found, same, firstScn⟩
            · exact none ▸ step
            · have bound := later found same
              rw [firstScn] at bound
              exact absurd bound (Nat.not_le.mpr early)
      · rw [List.filter_cons_of_neg (by rw [decide_eq_true_eq]; exact early), List.filter_nil, List.append_nil]
        exact below

/-! ## The miner assembles every transaction by itself -/

namespace Miner

/-- A row moves the slot of its own transaction and no other, and what it
releases is what that slot releases. -/
theorem apply_ok {miner next : Miner Buffer} {row : LogRow} {released : Option (Committed Event)}
    (done : apply decoder miner row = .ok (next, released)) :
    advance decoder (miner.slot row.xid) row = .ok (next.slot row.xid) ∧
      (forall other, other ≠ row.xid -> next.slot other = miner.slot other) ∧
      (row.op = Op.COMMIT -> release decoder (miner.slot row.xid) row = .ok released) ∧
      (row.op ≠ Op.COMMIT -> released = none) := by
  have assigned : forall txn, (⟨assign miner.opened row.xid txn⟩ : Miner Buffer).slot row.xid = some txn := by
    intro txn
    rw [slot, lookup_assign, if_pos rfl]
  have assignedOther : forall txn other, other ≠ row.xid ->
      (⟨assign miner.opened row.xid txn⟩ : Miner Buffer).slot other = miner.slot other := by
    intro txn other different
    rw [slot, lookup_assign, if_neg different, slot]
  have dropped : (⟨unassign miner.opened row.xid⟩ : Miner Buffer).slot row.xid = none := by
    rw [slot, lookup_unassign, if_pos rfl]
  have droppedOther : forall other, other ≠ row.xid ->
      (⟨unassign miner.opened row.xid⟩ : Miner Buffer).slot other = miner.slot other := by
    intro other different
    rw [slot, lookup_unassign, if_neg different, slot]
  rw [apply] at done
  rw [advance]
  by_cases start : row.op = Op.START
  · have notCommit : row.op ≠ Op.COMMIT := by rw [start]; decide
    rw [if_pos start] at done
    cases Except.ok.inj done
    rw [if_pos start]
    exact ⟨congrArg Except.ok (assigned _).symm, assignedOther _, fun commit => absurd commit notCommit, fun _ => rfl⟩
  rw [if_neg start] at done
  rw [if_neg start]
  by_cases commit : row.op = Op.COMMIT
  · rw [if_pos commit] at done
    rw [if_pos commit]
    cases found : miner.slot row.xid with
    | none =>
        rw [found] at done
        cases Except.ok.inj done
        exact ⟨congrArg Except.ok found.symm, fun _ _ => rfl, fun _ => rfl, fun other => absurd commit other⟩
    | some txn =>
        rw [found] at done
        rcases bind_eq_ok done with ⟨settled, settles, done⟩
        cases Except.ok.inj done
        refine ⟨congrArg Except.ok dropped.symm, droppedOther, fun _ => ?_, fun other => absurd commit other⟩
        rw [release]
        rw [settles]
        rfl
  rw [if_neg commit] at done
  rw [if_neg commit]
  by_cases rolledBack : row.op = Op.ROLLBACK
  · rw [if_pos rolledBack] at done
    cases Except.ok.inj done
    rw [if_pos rolledBack]
    exact ⟨congrArg Except.ok dropped.symm, droppedOther, fun other => absurd other commit, fun _ => rfl⟩
  rw [if_neg rolledBack] at done
  rw [if_neg rolledBack]
  rcases bind_eq_ok done with ⟨changed, changes, done⟩
  rw [changes]
  cases changed with
  | none =>
      cases Except.ok.inj done
      exact ⟨rfl, fun _ _ => rfl, fun other => absurd other commit, fun _ => rfl⟩
  | some buffer =>
      cases Except.ok.inj done
      exact ⟨congrArg Except.ok (assigned _).symm, assignedOther _, fun other => absurd other commit, fun _ => rfl⟩

/-- Every buffered transaction keeps its first SCN or takes the row's. -/
theorem firstScn_of_apply {miner next : Miner Buffer} {row : LogRow} {released : Option (Committed Event)}
    (done : apply decoder miner row = .ok (next, released)) {entry : String × Txn Buffer}
    (member : entry ∈ next.opened) :
    entry.2.firstScn = row.scn ∨ exists old, old ∈ miner.opened ∧ entry.2.firstScn = old.2.firstScn := by
  have looked : forall txn, miner.slot row.xid = some txn -> (row.xid, txn) ∈ miner.opened := by
    intro txn found
    rcases List.lookup_eq_some_iff.mp found with ⟨before, after, split, _⟩
    rw [split]
    exact List.mem_append_right before List.mem_cons_self
  have assigned : forall txn : Txn Buffer, txn.firstScn = ((miner.slot row.xid).map Txn.firstScn).getD row.scn ->
      entry ∈ assign miner.opened row.xid txn ->
      entry.2.firstScn = row.scn ∨ exists old, old ∈ miner.opened ∧ entry.2.firstScn = old.2.firstScn := by
    intro txn firstScn member
    rcases mem_assign member with same | old
    · subst same
      cases found : miner.slot row.xid with
      | none =>
          rw [found] at firstScn
          exact .inl firstScn
      | some old =>
          rw [found] at firstScn
          exact .inr ⟨_, looked old found, firstScn⟩
    · exact .inr ⟨entry, old, rfl⟩
  have unchanged : entry ∈ miner.opened ->
      entry.2.firstScn = row.scn ∨ exists old, old ∈ miner.opened ∧ entry.2.firstScn = old.2.firstScn :=
    fun member => .inr ⟨entry, member, rfl⟩
  rw [apply] at done
  split at done
  · cases Except.ok.inj done
    refine assigned _ ?_ member
    cases miner.slot row.xid <;> rfl
  · split at done
    · split at done
      · cases Except.ok.inj done
        exact unchanged member
      · rcases bind_eq_ok done with ⟨settled, _, done⟩
        cases Except.ok.inj done
        exact unchanged (List.mem_filter.mp member).1
    · split at done
      · cases Except.ok.inj done
        exact unchanged (List.mem_filter.mp member).1
      · rcases bind_eq_ok done with ⟨changed, _, done⟩
        cases changed with
        | none =>
            cases Except.ok.inj done
            exact unchanged member
        | some buffer =>
            cases Except.ok.inj done
            exact assigned _ rfl member

theorem oldestOpen_le {miner : Miner Buffer} {xid : String} {txn : Txn Buffer} (found : miner.slot xid = some txn) :
    exists oldest, miner.oldestOpen = some oldest ∧ oldest ≤ txn.firstScn := by
  rcases List.lookup_eq_some_iff.mp found with ⟨before, after, split, _⟩
  have member : txn.firstScn ∈ miner.opened.map (fun entry => entry.2.firstScn) := by
    rw [split]
    exact List.mem_map_of_mem (List.mem_append_right before List.mem_cons_self)
  cases oldest : miner.oldestOpen with
  | none =>
      rw [oldestOpen, List.min?_eq_none_iff] at oldest
      rw [oldest] at member
      cases member
  | some oldest' => exact ⟨oldest', rfl, (List.min?_eq_some_iff.mp oldest).2 _ member⟩

theorem oldestOpen_mem {miner : Miner Buffer} {oldest : Nat} (found : miner.oldestOpen = some oldest) :
    exists entry, entry ∈ miner.opened ∧ entry.2.firstScn = oldest := by
  rcases List.mem_map.mp (List.min?_eq_some_iff.mp found).1 with ⟨entry, member, same⟩
  exact ⟨entry, member, same⟩

end Miner

end OracleCdc
end FaucetStream
