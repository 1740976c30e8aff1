import FaucetStream.Library.Sorted
import FaucetStream.OracleCdc.Capture

namespace FaucetStream
namespace OracleCdc

open Json Library

/-!
# Bookmarks that lose no transaction

A bookmark is safe when mining from its restart SCN on leaves no transaction
out: each one that commits is either done with, or has left nothing in redo
below the restart SCN.  Every page of a run carries a safe bookmark, as long
as no window ends below the bookmark's commit SCN while no transaction is
open.  There `advance_to` puts the restart SCN behind redo that this run has
not mined.
-/

variable {Buffer Event : Type} (decoder : Decoder Buffer Event) (history : History) (current : Nat)

/-- All rows of the transaction that ends at `row` together make no change. -/
def Barren (row : LogRow) : Prop :=
  exists before after released, history.rows = before ++ row :: after ∧
    outcome decoder (rowsOf before row.xid) row = .ok released ∧
    forall committed, released = some committed -> committed.events = []

/-- A transaction that makes no change makes none either when it is mined
from a later row on. -/
def Tidy : Prop :=
  forall before row after, history.rows = before ++ row :: after -> row.op = Op.COMMIT -> Barren decoder history row ->
    forall early late, rowsOf before row.xid = early ++ late ->
      forall committed, outcome decoder late row = .ok (some committed) -> committed.events = []

/-- No transaction that begins before `restart` commits at exactly `current`,
when `current` is mined again. -/
def Apart (restart : Nat) : Prop :=
  forall last, last ∈ history.rows -> last.op = Op.COMMIT -> last.scn = current -> restart ≤ current ->
    forall row, row ∈ history.rows -> row.xid = last.xid -> restart ≤ row.scn

/-- A window ends at or after the bookmark's commit SCN, or a transaction is
open. -/
def WithinReach (run : Run Buffer Event) (endScn : Nat) : Prop :=
  run.position.commitScn ≤ endScn ∨ run.miner.opened ≠ []

structure Safe (position : Position) : Prop where
  positive : 0 < position.restartScn
  anchored : current ≤ position.commitScn
  fate : forall row, row ∈ history.rows -> row.op = Op.COMMIT ->
    (position.alreadyEmitted row.scn row.xid = true ∨ Barren decoder history row) ∨
      (row.scn ≤ current ∧ row.scn < position.restartScn) ∨
      (position.restartScn ≤ row.scn ∧
        assemble decoder ((rowsOf history.rows row.xid).filter (fun other =>
          decide (other.scn < position.restartScn))) =
          .ok none)

/-- What is kept up to a bookmark. -/
structure Settled (kept : List (Committed Event)) (position : Position) : Prop where
  safe : Safe decoder history current position
  whole : forall committed, committed ∈ kept -> Whole decoder history committed ∧ committed.events ≠ []
  nodup : (kept.map Committed.xid).Nodup
  recorded : forall committed, committed ∈ kept -> position.alreadyEmitted committed.commitScn committed.xid = true
  complete : forall committed, Whole decoder history committed -> committed.events ≠ [] ->
    current < committed.commitScn -> position.alreadyEmitted committed.commitScn committed.xid = true ->
    committed ∈ kept

variable {decoder history current}

/-! ## Transactions of the history -/

namespace History

theorem split_unique (history : History) {before before' after after' : List LogRow} {row row' : LogRow}
    (first : history.rows = before ++ row :: after) (second : history.rows = before' ++ row' :: after')
    (ends : row.Ends) (ends' : row'.Ends) (same : row.xid = row'.xid) :
    before = before' ∧ row = row' ∧ after = after' := by
  have apart : forall {left right : LogRow} {start middle rest : List LogRow}, left.Ends ->
      history.rows = start ++ left :: (middle ++ right :: rest) -> left.xid ≠ right.xid := by
    intro left right start middle rest ended split
    have ordered := history.closed
    rw [split] at ordered
    have inside := (List.pairwise_append.mp ordered).2.1
    exact (List.pairwise_cons.mp inside).1 right (List.mem_append_right middle List.mem_cons_self) ended
  rcases List.append_eq_append_iff.mp (first.symm.trans second) with ⟨between, prefixSame, rest⟩
    | ⟨between, prefixSame, rest⟩
  · cases between with
    | nil =>
        rw [List.append_nil] at prefixSame
        rw [List.nil_append] at rest
        exact ⟨prefixSame.symm, List.cons.inj rest⟩
    | cons head between =>
        rcases List.cons.inj rest with ⟨sameHead, sameRest⟩
        rw [sameRest] at first
        exact absurd same (apart ends first)
  · cases between with
    | nil =>
        rw [List.append_nil] at prefixSame
        rw [List.nil_append] at rest
        rcases List.cons.inj rest with ⟨sameHead, sameRest⟩
        exact ⟨prefixSame, sameHead.symm, sameRest.symm⟩
    | cons head between =>
        rcases List.cons.inj rest with ⟨sameHead, sameRest⟩
        rw [sameRest] at second
        exact absurd same.symm (apart ends' second)

/-- The rows of a transaction before its end do not end it. -/
theorem running_before (history : History) {before after : List LogRow} {row : LogRow}
    (split : history.rows = before ++ row :: after) {other : LogRow} (member : other ∈ rowsOf before row.xid) :
    ¬ other.Ends := by
  intro ends
  have ordered := history.closed
  rw [split] at ordered
  rcases mem_rowsOf.mp member with ⟨inside, same⟩
  exact (List.pairwise_append.mp ordered).2.2 other inside row List.mem_cons_self ends same

end History

variable {committed : Committed Event}

theorem release_fields {slot : Option (Txn Buffer)} {row : LogRow}
    (released : release decoder slot row = .ok (some committed)) :
    committed.xid = row.xid ∧ committed.commitScn = row.scn := by
  cases slot with
  | none => cases released
  | some txn =>
      rcases bind_eq_ok released with ⟨settled, _, done⟩
      cases Except.ok.inj done
      exact ⟨rfl, rfl⟩

theorem outcome_fields {rows : List LogRow} {row : LogRow}
    (released : outcome decoder rows row = .ok (some committed)) :
    committed.xid = row.xid ∧ committed.commitScn = row.scn := by
  rcases bind_eq_ok released with ⟨slot, _, done⟩
  exact release_fields done

theorem Whole.row (whole : Whole decoder history committed) :
    exists row, row ∈ history.rows ∧ row.op = Op.COMMIT ∧ row.xid = committed.xid ∧ row.scn = committed.commitScn := by
  rcases whole with ⟨before, row, after, split, commit, released⟩
  rcases outcome_fields released with ⟨xid, scn⟩
  refine ⟨row, ?_, commit, xid.symm, scn.symm⟩
  rw [split]
  exact List.mem_append_right before List.mem_cons_self

theorem Whole.unique {first second : Committed Event} (left : Whole decoder history first)
    (right : Whole decoder history second) (same : first.xid = second.xid) : first = second := by
  rcases left with ⟨before, row, after, split, commit, released⟩
  rcases right with ⟨before', row', after', split', commit', released'⟩
  have sameXid : row.xid = row'.xid := by
    rw [← (outcome_fields released).1, ← (outcome_fields released').1, same]
  rcases history.split_unique split split' (.inl commit) (.inl commit') sameXid with ⟨rfl, rfl, _⟩
  exact Option.some.inj (Except.ok.inj (released.symm.trans released'))

theorem Whole.not_barren (whole : Whole decoder history committed)
    (changes : committed.events ≠ []) {row : LogRow} (commit : row.op = Op.COMMIT) (same : row.xid = committed.xid) :
    ¬ Barren decoder history row := by
  rintro ⟨before, after, released, split, done, empty⟩
  rcases whole with ⟨before', row', after', split', commit', released'⟩
  have sameXid : row.xid = row'.xid := by rw [← (outcome_fields released').1, same]
  rcases history.split_unique split split' (.inl commit) (.inl commit') sameXid with ⟨rfl, rfl, _⟩
  exact changes (empty committed (Except.ok.inj (done.symm.trans released')))

/-- What lies below the restart SCN of a safe bookmark, or is emitted by it,
and commits after `current`, is kept. -/
theorem Settled.mem_of_behind {kept : List (Committed Event)} {position : Position}
    (settled : Settled decoder history current kept position)
    (whole : Whole decoder history committed) (changes : committed.events ≠ []) (after : current < committed.commitScn)
    (behind : position.alreadyEmitted committed.commitScn committed.xid = true ∨
      committed.commitScn < position.restartScn) : committed ∈ kept := by
  rcases behind with emitted | below
  · exact settled.complete committed whole changes after emitted
  · rcases whole.row with ⟨row, member, commit, xid, scn⟩
    rcases settled.safe.fate row member commit with (emitted | barren) | ⟨early, _⟩ | ⟨late, _⟩
    · exact settled.complete committed whole changes after (scn ▸ xid ▸ emitted)
    · exact absurd barren (whole.not_barren changes commit xid)
    · omega
    · omega

/-! ## A run in progress -/

def Phase.pending : Phase -> List LogRow
  | .mining _ _ pending => pending
  | _ => []

/-- The SCN up to which the run has taken rows out of the redo. -/
def Run.limit (run : Run Buffer Event) : Nat :=
  match run.phase with
  | .mining endScn _ _ => endScn
  | _ => run.fromScn

variable (decoder history current)

/-- A run that began at the restart SCN `begun` has left `skipped` aside and
applied `mined`; `later` lies after its windows. -/
structure Mining (begun : Nat) (skipped mined later : List LogRow) (run : Run Buffer Event) : Prop where
  rows : history.rows = (skipped ++ mined) ++ (run.phase.pending ++ later)
  positive : 0 < begun
  since : begun ≤ run.fromScn + 1
  forward : run.fromScn ≤ run.limit
  early : forall row, row ∈ skipped -> row.scn < begun
  inside : forall row, row ∈ mined ++ run.phase.pending -> begun ≤ row.scn
  past : forall row, row ∈ (skipped ++ mined) ++ run.phase.pending -> row.scn ≤ run.limit
  ahead : forall row, row ∈ later -> run.limit < row.scn
  slots : forall xid, assemble decoder (rowsOf mined xid) = .ok (run.miner.slot xid)
  openings : forall entry, entry ∈ run.miner.opened -> exists row, row ∈ mined ∧ row.scn = entry.2.firstScn
  fate : forall row, row ∈ history.rows -> row.op = Op.COMMIT ->
    (run.position.alreadyEmitted row.scn row.xid = true ∨ Barren decoder history row) ∨
      (row.scn ≤ current ∧ row.scn < begun) ∨
      (row ∈ run.phase.pending ++ later ∧ assemble decoder (rowsOf skipped row.xid) = .ok none)

variable {decoder history current} {begun : Nat} {skipped mined later : List LogRow} {run : Run Buffer Event}

/-- The slot of a transaction that left nothing among the skipped rows is the
one all its rows so far make. -/
theorem assemble_of_skipped {xid : String} {slot : Option (Txn Buffer)}
    (none : assemble decoder (rowsOf skipped xid) = .ok none) (rest : assemble decoder (rowsOf mined xid) = .ok slot) :
    assemble decoder (rowsOf (skipped ++ mined) xid) = .ok slot := by
  rw [rowsOf_append, assemble, List.foldlM_append]
  rw [assemble] at none
  rw [none]
  exact rest

namespace Mining

/-- The bookmark of a run is safe once its restart SCN lies at or before the
first SCN of every open transaction and before all that is not mined. -/
theorem safe (mining : Mining decoder history current begun skipped mined later run) {position : Position}
    (anchored : current ≤ position.commitScn)
    (fate : forall row, row ∈ history.rows -> row.op = Op.COMMIT ->
      (position.alreadyEmitted row.scn row.xid = true ∨ Barren decoder history row) ∨
        (row.scn ≤ current ∧ row.scn < begun) ∨
        (row ∈ run.phase.pending ++ later ∧ assemble decoder (rowsOf skipped row.xid) = .ok none))
    (passed : forall scn, scn ≤ current -> scn < begun -> scn < position.restartScn)
    (unmined : forall row, row ∈ run.phase.pending ++ later -> position.restartScn ≤ row.scn)
    (openOnes : forall xid txn, run.miner.slot xid = some txn -> position.restartScn ≤ txn.firstScn) :
    Safe decoder history current position := by
  refine ⟨passed 0 (Nat.zero_le current) mining.positive, anchored, fun row member commit => ?_⟩
  rcases fate row member commit with done | ⟨early, below⟩ | ⟨waits, fresh⟩
  · exact .inl done
  · exact .inr (.inl ⟨early, passed row.scn early below⟩)
  refine .inr (.inr ⟨unmined row waits, ?_⟩)
  have above : (rowsOf (run.phase.pending ++ later) row.xid).filter
      (fun other => decide (other.scn < position.restartScn)) = [] := by
    refine List.filter_eq_nil_iff.mpr (fun other found => ?_)
    rw [decide_eq_true_eq]
    exact Nat.not_lt.mpr (unmined other (mem_rowsOf.mp found).1)
  rw [mining.rows, rowsOf_append, List.filter_append, above, List.append_nil]
  have ordered := history.sorted
  rw [mining.rows] at ordered
  refine assemble_below (((List.pairwise_append.mp ordered).1).filter _) ?_
    (assemble_of_skipped fresh (mining.slots row.xid)) (openOnes row.xid)
  -- The transaction still has its COMMIT ahead, so none of these rows ends it.
  intro other found
  rcases List.append_of_mem waits with ⟨before, after, split⟩
  have whole : history.rows = ((skipped ++ mined) ++ before) ++ row :: after := by
    rw [mining.rows, split, List.append_assoc (skipped ++ mined)]
  refine history.running_before whole ?_
  rw [rowsOf_append]
  exact List.mem_append_left _ found

theorem of_safe {position : Position} (safe : Safe decoder history current position) (perTxn : Bool)
    (pages : List (Page Event)) :
    Mining decoder history current position.restartScn
      (history.rows.filter (fun row => decide (row.scn < position.restartScn))) []
      (history.rows.filter (fun row => decide (position.restartScn ≤ row.scn)))
      (Run.start perTxn position pages : Run Buffer Event) := by
  have positive := safe.positive
  have split := filter_lt_append_filter_le LogRow.scn position.restartScn history.sorted
  have begins : position.restartScn = position.restartScn - 1 + 1 := (Nat.sub_add_cancel positive).symm
  have below : forall row, row ∈ history.rows.filter (fun row => decide (row.scn < position.restartScn)) ->
      row.scn < position.restartScn := by
    intro row member
    exact of_decide_eq_true (List.mem_filter.mp member).2
  refine ⟨?_, positive, Nat.le_of_eq begins, Nat.le_refl _, below, ?_, ?_, ?_, fun _ => rfl, ?_, ?_⟩
  · rw [List.append_nil]
    exact split.symm
  · intro row member
    cases member
  · intro row member
    rw [List.append_nil] at member
    rcases List.mem_append.mp member with skipped | none
    · exact Nat.le_sub_one_of_lt (below row skipped)
    · cases none
  · intro row member
    have reached := of_decide_eq_true (List.mem_filter.mp member).2
    change position.restartScn - 1 < row.scn
    omega
  · intro entry member
    cases member
  · intro row member commit
    rcases safe.fate row member commit with done | passed | ⟨reached, fresh⟩
    · exact .inl done
    · exact .inr (.inl passed)
    · refine .inr (.inr ⟨List.mem_filter.mpr ⟨member, decide_eq_true reached⟩, ?_⟩)
      rw [rowsOf, List.filter_filter]
      rw [rowsOf, List.filter_filter] at fresh
      simp only [Bool.and_comm] at fresh ⊢
      exact fresh

variable (mining : Mining decoder history current begun skipped mined later run)

include mining

/-- One row applied, at a position that forgets nothing. -/
theorem apply_row {next : Run Buffer Event}
    {endScn : Nat} {before : Position} {row : LogRow} {pending : List LogRow} {released : Option (Committed Event)}
    (mines : run.phase = .mining endScn before (row :: pending))
    (applied : run.miner.apply decoder row = .ok (next.miner, released)) (sameFrom : next.fromScn = run.fromScn)
    (phase : next.phase = .mining endScn before pending)
    (remembers : forall scn xid, run.position.alreadyEmitted scn xid = true ->
      next.position.alreadyEmitted scn xid = true)
    (own : row.op = Op.COMMIT -> assemble decoder (rowsOf skipped row.xid) = .ok none ->
      next.position.alreadyEmitted row.scn row.xid = true ∨ Barren decoder history row) :
    Mining decoder history current begun skipped (mined ++ [row]) later next := by
  have pendingOld : run.phase.pending = row :: pending := by rw [mines]; rfl
  have pendingNew : next.phase.pending = pending := by rw [phase]; rfl
  have limitOld : run.limit = endScn := by simp only [Run.limit, mines]
  have limitNew : next.limit = endScn := by simp only [Run.limit, phase]
  rcases Miner.apply_ok applied with ⟨advanced, others, _, _⟩
  have moved : (mined ++ [row]) ++ pending = mined ++ (row :: pending) := by
    rw [List.append_assoc, List.singleton_append]
  refine ⟨?_, mining.positive, sameFrom ▸ mining.since, ?_, mining.early, ?_, ?_, ?_, ?_, ?_, ?_⟩
  · rw [mining.rows, pendingOld, pendingNew, ← List.append_assoc skipped, List.append_assoc (skipped ++ mined) [row]]
    rfl
  · rw [sameFrom, limitNew, ← limitOld]
    exact mining.forward
  · have inside := mining.inside
    rw [pendingOld] at inside
    rw [pendingNew, moved]
    exact inside
  · have past := mining.past
    rw [pendingOld, limitOld, List.append_assoc] at past
    rw [pendingNew, limitNew, List.append_assoc, moved]
    exact past
  · have ahead := mining.ahead
    rw [limitOld] at ahead
    rw [limitNew]
    exact ahead
  · intro xid
    rw [rowsOf_append]
    by_cases same : xid = row.xid
    · subst same
      rw [rowsOf_singleton_self]
      exact assemble_concat_of (mining.slots row.xid) advanced
    · rw [rowsOf_singleton_of_ne same, List.append_nil, others xid same]
      exact mining.slots xid
  · intro entry member
    rcases Miner.firstScn_of_apply applied member with same | ⟨old, found, same⟩
    · exact ⟨row, List.mem_append_right mined List.mem_cons_self, same.symm⟩
    · rcases mining.openings old found with ⟨opening, inside, scn⟩
      exact ⟨opening, List.mem_append_left _ inside, scn.trans same.symm⟩
  · intro other member commit
    rcases mining.fate other member commit with (emitted | barren) | passed | ⟨waits, fresh⟩
    · exact .inl (.inl (remembers _ _ emitted))
    · exact .inl (.inr barren)
    · exact .inr (.inl passed)
    · rw [pendingOld, List.cons_append] at waits
      rcases List.mem_cons.mp waits with same | still
      · subst same
        exact .inl (own commit fresh)
      · rw [pendingNew]
        exact .inr (.inr ⟨still, fresh⟩)

theorem openWindow (waits : run.phase = .waiting)
    {endScn : Nat} (ahead : run.fromScn < endScn) :
    Mining decoder history current begun skipped mined (later.filter (fun row => decide (endScn + 1 ≤ row.scn)))
      (run.openWindow history endScn) := by
  have pendingOld : run.phase.pending = [] := by rw [waits]; rfl
  have limitOld : run.limit = run.fromScn := by simp only [Run.limit, waits]
  have rows := mining.rows
  rw [pendingOld, List.nil_append] at rows
  have past := mining.past
  rw [pendingOld, List.append_nil, limitOld] at past
  have further := mining.ahead
  rw [limitOld] at further
  have ordered := history.sorted
  rw [rows] at ordered
  have split := filter_lt_append_filter_le LogRow.scn (endScn + 1) (List.pairwise_append.mp ordered).2.1
  have pendingNew : (run.openWindow history endScn).phase.pending =
      later.filter (fun row => decide (row.scn < endScn + 1)) := by
    change history.rows.filter _ = _
    rw [rows, List.filter_append]
    have none : (skipped ++ mined).filter (fun row => decide (run.fromScn < row.scn ∧ row.scn ≤ endScn)) = [] := by
      refine List.filter_eq_nil_iff.mpr (fun row member => ?_)
      have bound := past row member
      rw [decide_eq_true_eq]
      omega
    rw [none, List.nil_append]
    refine List.filter_congr (fun row member => ?_)
    have bound := further row member
    rw [decide_eq_decide]
    omega
  have inWindow : forall row, row ∈ later.filter (fun row => decide (row.scn < endScn + 1)) ->
      run.fromScn < row.scn ∧ row.scn ≤ endScn := by
    intro row member
    rcases List.mem_filter.mp member with ⟨found, below⟩
    exact ⟨further row found, Nat.lt_succ_iff.mp (of_decide_eq_true below)⟩
  refine ⟨?_, mining.positive, mining.since, Nat.le_of_lt ahead, mining.early, ?_, ?_, ?_, mining.slots,
    mining.openings, ?_⟩
  · rw [pendingNew, split]
    exact rows
  · intro row member
    rw [pendingNew] at member
    rcases List.mem_append.mp member with old | new
    · exact mining.inside row (List.mem_append_left _ old)
    · have bound := (inWindow row new).1
      have since := mining.since
      omega
  · intro row member
    rw [pendingNew] at member
    change row.scn ≤ endScn
    rcases List.mem_append.mp member with old | new
    · exact Nat.le_trans (past row old) (Nat.le_of_lt ahead)
    · exact (inWindow row new).2
  · intro row member
    change endScn < row.scn
    exact of_decide_eq_true (List.mem_filter.mp member).2
  · intro row member commit
    rw [pendingNew, split]
    have fate := mining.fate row member commit
    rw [pendingOld, List.nil_append] at fate
    exact fate

theorem waiting_at_end {next : Run Buffer Event}
    {endScn : Nat} {before : Position} (mines : run.phase = .mining endScn before [])
    (sameMiner : next.miner = run.miner)
    (fromEnd : next.fromScn = endScn) (phase : next.phase = .waiting)
    (remembers : forall scn xid, run.position.alreadyEmitted scn xid = true ->
      next.position.alreadyEmitted scn xid = true) :
    Mining decoder history current begun skipped mined later next := by
  have pendingOld : run.phase.pending = [] := by rw [mines]; rfl
  have pendingNew : next.phase.pending = [] := by rw [phase]; rfl
  have limitOld : run.limit = endScn := by simp only [Run.limit, mines]
  have limitNew : next.limit = endScn := by simp only [Run.limit, phase, fromEnd]
  have forward := mining.forward
  rw [limitOld] at forward
  refine ⟨?_, mining.positive, ?_, ?_, mining.early, ?_, ?_, ?_, sameMiner ▸ mining.slots, sameMiner ▸ mining.openings,
    ?_⟩
  · rw [mining.rows, pendingOld, pendingNew]
  · have since := mining.since
    omega
  · rw [fromEnd, limitNew]
  · rw [pendingNew, ← pendingOld]
    exact mining.inside
  · rw [pendingNew, limitNew, ← pendingOld, ← limitOld]
    exact mining.past
  · rw [limitNew, ← limitOld]
    exact mining.ahead
  · intro row member commit
    rw [pendingNew, ← pendingOld]
    exact (mining.fate row member commit).imp_left (fun done => done.imp_left (remembers _ _))

/-- A COMMIT row releases what all rows of its transaction make, when it left
nothing among the skipped ones. -/
theorem outcome_whole {row : LogRow}
    {miner : Miner Buffer} {released : Option (Committed Event)}
    (applied : run.miner.apply decoder row = .ok (miner, released)) (commit : row.op = Op.COMMIT)
    (fresh : assemble decoder (rowsOf skipped row.xid) = .ok none) :
    outcome decoder (rowsOf (skipped ++ mined) row.xid) row = .ok released := by
  rw [outcome, assemble_of_skipped fresh (mining.slots row.xid)]
  exact (Miner.apply_ok applied).2.2.1 commit

theorem outcome_mined {row : LogRow}
    {miner : Miner Buffer} {released : Option (Committed Event)}
    (applied : run.miner.apply decoder row = .ok (miner, released)) (commit : row.op = Op.COMMIT) :
    outcome decoder (rowsOf mined row.xid) row = .ok released := by
  rw [outcome, mining.slots row.xid]
  exact (Miner.apply_ok applied).2.2.1 commit

theorem split_at_row {endScn : Nat}
    {before : Position} {row : LogRow} {pending : List LogRow}
    (mines : run.phase = .mining endScn before (row :: pending)) :
    history.rows = (skipped ++ mined) ++ row :: (pending ++ later) := by
  rw [mining.rows, mines]
  rfl

/-- Rows not mined yet have an SCN of at least the next row's. -/
theorem le_unmined {endScn : Nat}
    {before : Position} {row : LogRow} {pending : List LogRow}
    (mines : run.phase = .mining endScn before (row :: pending)) {other : LogRow}
    (member : other ∈ row :: (pending ++ later)) :
    row.scn ≤ other.scn := by
  have ordered := history.sorted
  rw [mining.split_at_row mines] at ordered
  rcases List.mem_cons.mp member with same | found
  · exact same ▸ Nat.le_refl _
  · exact (List.pairwise_cons.mp (List.pairwise_append.mp ordered).2.1).1 other found

/-- What a run emits is whole, provided it was not emitted and is tidy. -/
theorem whole_of_emitted
    (tidy : Tidy decoder history) {endScn : Nat} {before : Position} {row : LogRow} {pending : List LogRow}
    {miner : Miner Buffer} (mines : run.phase = .mining endScn before (row :: pending))
    (applied : run.miner.apply decoder row = .ok (miner, some committed)) (changes : committed.events ≠ [])
    (missing : ¬ run.position.alreadyEmitted committed.commitScn committed.xid = true) :
    row.op = Op.COMMIT ∧ committed.xid = row.xid ∧ committed.commitScn = row.scn ∧
      Whole decoder history committed := by
  have commit : row.op = Op.COMMIT := by
    by_contra other
    cases (Miner.apply_ok applied).2.2.2 other
  have split := mining.split_at_row mines
  have late := mining.outcome_mined applied commit
  rcases outcome_fields late with ⟨xid, scn⟩
  refine ⟨commit, xid, scn, ?_⟩
  have member : row ∈ history.rows := by
    rw [split]
    exact List.mem_append_right _ List.mem_cons_self
  rcases mining.fate row member commit with (emitted | barren) | ⟨_, below⟩ | ⟨_, fresh⟩
  · rw [xid, scn] at missing
    exact absurd emitted missing
  · exact absurd (tidy _ row _ split commit barren _ _ (rowsOf_append skipped mined row.xid) committed late) changes
  · have inside := mining.inside row (by rw [mines]; exact List.mem_append_right mined List.mem_cons_self)
    omega
  · exact ⟨_, row, _, split, commit, mining.outcome_whole applied commit fresh⟩

end Mining

/-! ## What is kept at the pages of a run -/

namespace Settled

variable {kept : List (Committed Event)} {position : Position}

/-- A safe position that remembers the old one and only covers what was
emitted. -/
theorem moved (settled : Settled decoder history current kept position) {next : Position}
    (safe : Safe decoder history current next)
    (remembers : forall scn xid, position.alreadyEmitted scn xid = true -> next.alreadyEmitted scn xid = true)
    (covers : forall committed, Whole decoder history committed -> committed.events ≠ [] ->
      current < committed.commitScn -> next.alreadyEmitted committed.commitScn committed.xid = true ->
      position.alreadyEmitted committed.commitScn committed.xid = true) :
    Settled decoder history current kept next := by
  refine ⟨safe, settled.whole, settled.nodup, ?_, ?_⟩
  · intro committed member
    exact remembers _ _ (settled.recorded committed member)
  · intro committed whole changes after emitted
    exact settled.complete committed whole changes after (covers committed whole changes after emitted)

/-- One more transaction, whole and not emitted before. -/
theorem concat (settled : Settled decoder history current kept position) {next : Position}
    (safe : Safe decoder history current next)
    (remembers : forall scn xid, position.alreadyEmitted scn xid = true -> next.alreadyEmitted scn xid = true)
    (whole : Whole decoder history committed) (changes : committed.events ≠ [])
    (missing : ¬ position.alreadyEmitted committed.commitScn committed.xid = true)
    (recorded : next.alreadyEmitted committed.commitScn committed.xid = true)
    (covers : forall other, Whole decoder history other -> other.events ≠ [] -> current < other.commitScn ->
      next.alreadyEmitted other.commitScn other.xid = true ->
      position.alreadyEmitted other.commitScn other.xid = true ∨ other.xid = committed.xid) :
    Settled decoder history current (kept ++ [committed]) next := by
  refine ⟨safe, ?_, ?_, ?_, ?_⟩
  · intro other member
    rcases List.mem_append.mp member with old | new
    · exact settled.whole other old
    · rw [List.mem_singleton.mp new]
      exact ⟨whole, changes⟩
  · rw [List.map_append, List.nodup_append]
    refine ⟨settled.nodup, List.nodup_singleton _, ?_⟩
    intro xid old other new same
    rcases List.mem_map.mp old with ⟨earlier, member, xidOf⟩
    have sameXid : earlier.xid = committed.xid := by
      rw [xidOf, same, List.mem_singleton.mp new]
    have identical := Whole.unique (settled.whole earlier member).1 whole sameXid
    exact missing (identical ▸ settled.recorded earlier member)
  · intro other member
    rcases List.mem_append.mp member with old | new
    · exact remembers _ _ (settled.recorded other old)
    · rw [List.mem_singleton.mp new]
      exact recorded
  · intro other otherWhole otherChanges after emitted
    rcases covers other otherWhole otherChanges after emitted with before | same
    · exact List.mem_append_left _ (settled.complete other otherWhole otherChanges after before)
    · rw [Whole.unique otherWhole whole same]
      exact List.mem_append_right _ (List.mem_singleton.mpr rfl)

end Settled

namespace Mining

variable (mining : Mining decoder history current begun skipped mined later run)

include mining

theorem oldest_mem {oldest : Nat}
    (found : run.miner.oldestOpen = some oldest) : exists row, row ∈ mined ∧ row.scn = oldest := by
  rcases Miner.oldestOpen_mem found with ⟨entry, member, same⟩
  rcases mining.openings entry member with ⟨row, inside, scn⟩
  exact ⟨row, inside, scn.trans same⟩

/-- A transaction that commits after `current` and at a row behind the run was
emitted. -/
theorem emitted_of_whole
    (whole : Whole decoder history committed) (changes : committed.events ≠ [])
    (after : current < committed.commitScn)
    (behind : forall row, row ∈ run.phase.pending ++ later -> row.scn ≠ committed.commitScn) :
    run.position.alreadyEmitted committed.commitScn committed.xid = true := by
  rcases whole.row with ⟨row, member, commit, xid, scn⟩
  rcases mining.fate row member commit with (emitted | barren) | ⟨early, _⟩ | ⟨waits, _⟩
  · exact scn ▸ xid ▸ emitted
  · exact absurd barren (whole.not_barren changes commit xid)
  · omega
  · exact absurd scn (behind row waits)

theorem emit (tidy : Tidy decoder history)
    {kept : List (Committed Event)} (settled : Settled decoder history current kept run.position) {endScn : Nat}
    {before : Position} {row : LogRow} {pending : List LogRow} {next : Run Buffer Event}
    (mines : run.phase = .mining endScn before (row :: pending))
    (applied : run.miner.apply decoder row = .ok (next.miner, some committed)) (changes : committed.events ≠ [])
    (missing : ¬ run.position.alreadyEmitted committed.commitScn committed.xid = true)
    (sameFrom : next.fromScn = run.fromScn) (phase : next.phase = .mining endScn before pending)
    (moved : next.position = run.position.recordCommit committed.commitScn committed.xid next.miner.oldestOpen) :
    Mining decoder history current begun skipped (mined ++ [row]) later next ∧
      Settled decoder history current (kept ++ [committed]) next.position := by
  rcases mining.whole_of_emitted tidy mines applied changes missing with ⟨commit, xid, scn, whole⟩
  have reached : run.position.commitScn ≤ committed.commitScn := by
    by_contra below
    exact missing ((Position.alreadyEmitted_iff _ _ _).mpr (.inl (Nat.not_le.mp below)))
  have covers := Position.alreadyEmitted_recordCommit run.position committed.xid next.miner.oldestOpen reached
  have remembers : forall scn xid, run.position.alreadyEmitted scn xid = true ->
      next.position.alreadyEmitted scn xid = true := by
    intro scn xid emitted
    rw [moved]
    exact (covers scn xid).mpr (.inl emitted)
  have recorded : next.position.alreadyEmitted committed.commitScn committed.xid = true := by
    rw [moved]
    exact (covers _ _).mpr (.inr (.inr ⟨rfl, rfl⟩))
  have nextMining := mining.apply_row mines applied sameFrom phase remembers
    (fun _ _ => .inl (scn ▸ xid ▸ recorded))
  have restart : next.position.restartScn = next.miner.oldestOpen.elim row.scn (min · row.scn) := by
    rw [moved, Position.recordCommit_restartScn _ _ _ reached, scn]
  have pendingNew : next.phase.pending = pending := by rw [phase]; rfl
  have safe : Safe decoder history current next.position := by
    refine nextMining.safe ?_ nextMining.fate ?_ ?_ ?_
    · rw [moved, Position.recordCommit_commitScn _ _ _ reached]
      exact Nat.le_trans settled.safe.anchored reached
    · intro earlier _ below
      have own := nextMining.inside row
        (List.mem_append_left _ (List.mem_append_right mined (List.mem_singleton.mpr rfl)))
      rw [restart]
      cases oldest : next.miner.oldestOpen with
      | none => exact Nat.lt_of_lt_of_le below own
      | some oldest =>
          rcases nextMining.oldest_mem ‹_› with ⟨opening, member, same⟩
          have inside := nextMining.inside opening (List.mem_append_left _ member)
          exact Nat.lt_min.mpr ⟨by omega, by omega⟩
    · intro other member
      rw [pendingNew] at member
      refine Nat.le_trans ?_ (mining.le_unmined mines (List.mem_cons_of_mem row member))
      rw [restart]
      cases next.miner.oldestOpen with
      | none => exact Nat.le_refl _
      | some oldest => exact Nat.min_le_right _ _
    · intro xid txn found
      rcases Miner.oldestOpen_le found with ⟨oldest, same, least⟩
      rw [restart, same]
      exact Nat.le_trans (Nat.min_le_left _ _) least
  refine ⟨nextMining, settled.concat safe remembers whole changes missing recorded ?_⟩
  intro other otherWhole otherChanges after emitted
  rw [moved] at emitted
  rcases (covers _ _).mp emitted with old | below | ⟨_, same⟩
  · exact .inl old
  · refine .inl (mining.emitted_of_whole otherWhole otherChanges after ?_)
    intro unmined member same
    rw [mines] at member
    have order := mining.le_unmined mines member
    omega
  · exact .inr same

/-- The end of a window, with a transaction open or at or after the commit SCN
of the position. -/
theorem close (scnBound : current + 1 < 2 ^ 64)
    {kept : List (Committed Event)} (settled : Settled decoder history current kept run.position) {endScn : Nat}
    {before : Position} (mines : run.phase = .mining endScn before []) (reach : WithinReach run endScn) :
    Mining decoder history current begun skipped mined later (run.closeWindow endScn before) ∧
      Settled decoder history current kept (run.closeWindow endScn before).position := by
  have covers := Position.alreadyEmitted_advanceTo run.position endScn run.miner.oldestOpen
  have remembers : forall scn xid, run.position.alreadyEmitted scn xid = true ->
      (run.position.advanceTo endScn run.miner.oldestOpen).alreadyEmitted scn xid = true :=
    fun scn xid emitted => (covers scn xid).mpr (.inl emitted)
  have nextMining : Mining decoder history current begun skipped mined later (run.closeWindow endScn before) :=
    mining.waiting_at_end mines rfl rfl rfl remembers
  have pendingOld : run.phase.pending = [] := by rw [mines]; rfl
  have limit : run.limit = endScn := by simp only [Run.limit, mines]
  have unmined : forall row, row ∈ later -> endScn < row.scn := by
    have ahead := mining.ahead
    rw [limit] at ahead
    exact ahead
  have restart := Position.advanceTo_restartScn run.position endScn run.miner.oldestOpen
  have anchored := settled.safe.anchored
  have begunBefore : begun ≤ endScn + 1 := by
    have since := mining.since
    have forward := mining.forward
    omega
  have safe : Safe decoder history current (run.closeWindow endScn before).position := by
    refine nextMining.safe ?_ nextMining.fate ?_ ?_ ?_
    · change current ≤ (run.position.advanceTo endScn run.miner.oldestOpen).commitScn
      rw [Position.advanceTo_commitScn]
      omega
    · intro earlier notAfter below
      change earlier < (run.position.advanceTo endScn run.miner.oldestOpen).restartScn
      rw [restart]
      have belowNext : earlier < saturatingSucc (max run.position.commitScn endScn) := by
        rw [saturatingSucc]
        omega
      cases oldest : run.miner.oldestOpen with
      | none => exact belowNext
      | some oldest =>
          rcases mining.oldest_mem ‹_› with ⟨opening, member, same⟩
          have inside := mining.inside opening (List.mem_append_left _ member)
          exact Nat.lt_min.mpr ⟨by omega, belowNext⟩
    · intro other member
      have beyond := unmined other member
      change (run.position.advanceTo endScn run.miner.oldestOpen).restartScn ≤ other.scn
      rw [restart]
      cases oldest : run.miner.oldestOpen with
      | some oldest =>
          -- The oldest open transaction begins in this run, hence before all that is not mined.
          rcases mining.oldest_mem ‹_› with ⟨opening, member, same⟩
          have past := mining.past opening (List.mem_append_left _ (List.mem_append_right skipped member))
          rw [limit] at past
          exact Nat.le_trans (Nat.min_le_left _ _) (by omega)
      | none =>
          have none : run.miner.opened = [] := by
            rw [Miner.oldestOpen, List.min?_eq_none_iff, List.map_eq_nil_iff] at oldest
            exact oldest
          rcases reach with reached | some
          · change saturatingSucc _ ≤ _
            rw [saturatingSucc]
            omega
          · exact absurd none some
    · intro xid txn found
      change (run.position.advanceTo endScn run.miner.oldestOpen).restartScn ≤ txn.firstScn
      rcases Miner.oldestOpen_le found with ⟨oldest, same, least⟩
      have same : run.miner.oldestOpen = some oldest := same
      rw [restart, same]
      exact Nat.le_trans (Nat.min_le_left _ _) least
  refine ⟨nextMining, settled.moved safe remembers ?_⟩
  intro committed whole changes after emitted
  rcases (covers _ _).mp emitted with old | below
  · exact old
  · refine mining.emitted_of_whole whole changes after ?_
    intro row member same
    rw [pendingOld] at member
    have beyond := unmined row member
    omega

end Mining

end OracleCdc
end FaucetStream
