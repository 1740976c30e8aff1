import FaucetStream.Logship.Pending

namespace FaucetStream
namespace Logship

/-!
# What a pass does to the lines of a run

The size bound, the age bound and the exporter each move some leading pending
lines to the handled ones and count every one of them as delivered or dropped.
-/

variable {host : Host} {segment : Option Bytes} {offset : Nat}

theorem removeSegment_of_closed {run : Run} (closed : run.writer = none) :
    run.removeSegment = { run with segment := none } := by
  simp [Run.removeSegment, closed]

/-- Where the first `count` of the lines read end. -/
theorem ends_getD {pending : List ShipLine} {count max : Nat} (positive : 0 < count) (inside : count ≤ pending.length)
    (within : count ≤ max) (default : Nat) :
    ((ends host offset pending).take max).getD (count - 1) default =
      offset + (host.encodeLines (pending.take count)).length := by
  have found := ends_getElem host offset pending (show count - 1 < pending.length by omega)
  rw [Nat.sub_add_cancel positive] at found
  rw [List.getD_eq_getElem?_getD, List.getElem?_take_of_lt (by omega), found]
  rfl

/-- Advancing to the end of the last of some leading lines leaves the lines
after it. -/
theorem Holds.advance_read {pending : List ShipLine} (holds : Holds host segment offset pending)
    (faithful : forall line, line ∈ pending -> host.Faithful line) {max : Nat} {old : List (ShipLine × Nat)}
    (leading : old <+: readLines host segment offset max) {line : ShipLine} {stop : Nat}
    (last : old.getLast? = some (line, stop)) :
    exists rest, old.map Prod.fst ++ rest = pending ∧ Holds host segment stop rest := by
  rw [readLines_eq holds faithful max] at leading
  have whole := List.prefix_iff_eq_take.mp (leading.trans (List.take_prefix max _))
  have lines : old.map Prod.fst = pending.take old.length := by
    conv_lhs => rw [whole]
    rw [List.map_take, List.map_fst_zip (Nat.le_of_eq (ends_length host offset pending).symm)]
  have positive : 0 < old.length := by
    cases old with
    | nil => cases last
    | cons => exact Nat.succ_pos _
  have inside : old.length ≤ pending.length := by
    have length := congrArg List.length lines
    rw [List.length_map, List.length_take] at length
    omega
  refine ⟨pending.drop old.length, ?_, ?_⟩
  · rw [lines, List.take_append_drop]
  · have position : stop = offset + (host.encodeLines (pending.take old.length)).length := by
      rw [List.getLast?_eq_getElem?, whole, List.length_take, List.length_zip, ends_length] at last
      rw [List.getElem?_take_of_lt (by omega)] at last
      have index : min old.length (min pending.length pending.length) - 1 = old.length - 1 := by omega
      rw [index, List.getElem?_zip_eq_some] at last
      have found := ends_getElem host offset pending (show old.length - 1 < pending.length by omega)
      rw [last.2, Nat.sub_add_cancel positive] at found
      exact Option.some.inj found
    have split : Holds host segment offset (pending.take old.length ++ pending.drop old.length) := by
      rw [List.take_append_drop]
      exact holds
    rw [position]
    exact split.advance

namespace Accounted

variable {work : Shipping}

theorem dropBytes (accounted : Accounted host work.run work.cursor) {ended : Bool} {bytesDrop : Option Bool}
    (closed : ended = true -> work.run.writer = none)
    (careful : bytesDrop = some true ->
      work.run.writer = none ∧ countFrom work.run.segment work.cursor.offset = 0) :
    Accounted host (work.dropBytes host ended bytesDrop).run (work.dropBytes host ended bytesDrop).cursor ∧
      ((work.run.writer = none) -> (work.dropBytes host ended bytesDrop).run.writer = none) := by
  rcases accounted.split with ⟨pending, holds, whole⟩
  have faithful := accounted.faithful_pending whole
  cases bytesDrop with
  | none => exact ⟨accounted, id⟩
  | some settled =>
      cases settled with
      | true =>
          rcases careful rfl with ⟨notOpen, nothing⟩
          rw [holds.countFrom_eq faithful] at nothing
          have empty : pending = [] := List.length_eq_zero_iff.mp nothing
          rw [Shipping.dropBytes, removeSegment_of_closed notOpen]
          refine ⟨?_, fun _ => notOpen⟩
          refine accounted.reshape (show Holds host none work.cursor.offset [] from rfl) ?_ accounted.counted ?_
          · rw [← empty]
            exact whole
          · intro opened
            rw [notOpen] at opened
            cases opened
      | false =>
          have lines := holds.linesAfter_eq faithful
          have counted : work.cursor.deliveredLines + (work.cursor.dropped + pending.length) =
              (work.run.handled ++ pending).length := by
            rw [← Nat.add_assoc, accounted.counted, List.length_append]
          have rest : Holds host work.run.segment
              (work.cursor.offset + (pending.map host.encodeLine).flatten.length) [] :=
            Holds.advance (by rw [List.append_nil]; exact holds)
          rw [Shipping.dropBytes, scanFrom, lines, map_readLine faithful, List.length_map]
          dsimp only
          split
          · next finished =>
            have notOpen := closed finished
            rw [removeSegment_of_closed (by exact notOpen)]
            refine ⟨?_, fun _ => notOpen⟩
            refine accounted.reshape (show Holds host none 0 [] from rfl) ((List.append_nil _).trans whole) counted ?_
            intro opened
            rw [notOpen] at opened
            cases opened
          · refine ⟨?_, id⟩
            exact accounted.reshape rest ((List.append_nil _).trans whole) counted (fun _ => rfl)

/-- One round of the age bound. -/
theorem age (accounted : Accounted host work.run work.cursor) {max : Nat} {old : List (ShipLine × Nat)}
    (leading : old <+: readLines host work.run.segment work.cursor.offset max) {line : ShipLine} {stop : Nat}
    (last : old.getLast? = some (line, stop)) :
    Accounted host { work.run with handled := work.run.handled ++ old.map Prod.fst }
      { work.cursor with offset := stop, dropped := work.cursor.dropped + old.length } := by
  rcases accounted.split with ⟨pending, holds, whole⟩
  rcases holds.advance_read (accounted.faithful_pending whole) leading last with ⟨rest, same, after⟩
  refine accounted.reshape (show Holds host work.run.segment stop rest from after) ?_ ?_ (fun _ => rfl)
  · rw [List.append_assoc, same, whole]
  · rw [List.length_append, List.length_map, ← accounted.counted]
    exact (Nat.add_assoc _ _ _).symm

theorem ageOut (accounted : Accounted host work.run work.cursor) (cutoff : Int) :
    Accounted host (work.ageOut host cutoff).run (work.ageOut host cutoff).cursor ∧
      (work.ageOut host cutoff).run.writer = work.run.writer := by
  fun_induction Shipping.ageOut host cutoff work with
  | case1 work lines old last => exact ⟨accounted, rfl⟩
  | case2 work lines old line stop last next short =>
      exact ⟨accounted.age (List.takeWhile_prefix _) last, rfl⟩
  | case3 work lines old line stop last next full ih =>
      exact ih (accounted.age (List.takeWhile_prefix _) last)

end Accounted

/-- The first `consumed` of the lines read have been exported. -/
structure Progress (host : Host) (run : Run) (pending : List ShipLine) (consumed : Nat) (work : Shipping) : Prop where
  frame : work.run = { run with handled := run.handled ++ pending.take consumed }
  holds : Holds host run.segment work.cursor.offset (pending.drop consumed)
  counted : work.cursor.deliveredLines + work.cursor.dropped = run.handled.length + consumed
  reached : consumed ≤ pending.length

variable {run : Run} {pending : List ShipLine} {consumed : Nat} {work : Shipping}

/-- The lines exported after some more of the next batch. -/
theorem take_next {limit count : Nat} {batch rest : List ShipLine}
    (next : pending.take limit = pending.take consumed ++ (batch ++ rest)) (reached : consumed ≤ pending.length)
    (few : count ≤ batch.length) : pending.take (consumed + count) = pending.take consumed ++ batch.take count := by
  have lengths := congrArg List.length next
  rw [List.length_append, List.length_append, List.length_take, List.length_take] at lengths
  have within : min (consumed + count) limit = consumed + count := by omega
  have start : (pending.take consumed).length = consumed := by rw [List.length_take]; omega
  calc pending.take (consumed + count) = (pending.take limit).take (consumed + count) := by
        rw [List.take_take, within]
    _ = pending.take consumed ++ (batch ++ rest).take count := by
        rw [next, List.take_append, List.take_of_length_le (by omega), start, Nat.add_sub_cancel_left]
    _ = pending.take consumed ++ batch.take count := by
        rw [List.take_append_of_le_length few]

theorem Progress.exportBatch (progress : Progress host run pending consumed work)
    (holds : Holds host run.segment offset pending) {batch rest : List ShipLine}
    (next : pending.take MAX_LINES_PER_PASS = pending.take consumed ++ (batch ++ rest))
    {outcome : ExportOutcome} (sound : Sound outcome batch.length) (now : Int) :
    Progress host run pending (consumed + outcome.handled)
      (work.exportBatch host now ((ends host offset pending).take MAX_LINES_PER_PASS) consumed batch outcome) := by
  have bound := sound.handled
  have reached := progress.reached
  have fewer := sound.dropped
  have lengths := congrArg List.length next
  rw [List.length_append, List.length_append, List.length_take, List.length_take] at lengths
  have inside : consumed + outcome.handled ≤ pending.length := by omega
  have within : consumed + outcome.handled ≤ MAX_LINES_PER_PASS := by omega
  have taken := take_next next reached bound
  have moved : 0 < outcome.handled -> Holds host run.segment
      (((ends host offset pending).take MAX_LINES_PER_PASS).getD (consumed + outcome.handled - 1) work.cursor.offset)
      (pending.drop (consumed + outcome.handled)) := by
    intro positive
    rw [ends_getD (by omega) inside within]
    have split : Holds host run.segment offset
        (pending.take (consumed + outcome.handled) ++ pending.drop (consumed + outcome.handled)) := by
      rw [List.take_append_drop]
      exact holds
    exact split.advance
  unfold Shipping.exportBatch
  dsimp only
  rcases Nat.eq_zero_or_pos outcome.handled with none | positive
  · rw [none, if_neg (Nat.lt_irrefl 0)]
    cases outcome.error with
    | none => exact ⟨progress.frame, progress.holds, progress.counted, reached⟩
    | some error => exact ⟨progress.frame, progress.holds, progress.counted, reached⟩
  · rw [if_pos positive]
    have handled : work.run.handled ++ batch.take outcome.handled =
        run.handled ++ pending.take (consumed + outcome.handled) := by
      rw [progress.frame, taken]
      exact List.append_assoc _ _ _
    have counted : work.cursor.deliveredLines + (outcome.handled - outcome.dropped) +
        (work.cursor.dropped + outcome.dropped) = run.handled.length + (consumed + outcome.handled) := by
      have before := progress.counted
      omega
    have same : { work.run with handled := work.run.handled ++ batch.take outcome.handled } =
        { run with handled := run.handled ++ pending.take (consumed + outcome.handled) } := by
      rw [handled, progress.frame]
    cases outcome.error with
    | none => exact ⟨same, moved positive, counted, inside⟩
    | some error => exact ⟨same, moved positive, counted, inside⟩

theorem Progress.exportBatches (progress : Progress host run pending consumed work)
    (holds : Holds host run.segment offset pending) {queue : List (List ShipLine)}
    (next : pending.take MAX_LINES_PER_PASS = pending.take consumed ++ queue.flatten)
    (now : Int) (exporter : Nat -> Collector) :
    exists total, Progress host run pending total
      (Shipping.exportBatches host now ((ends host offset pending).take MAX_LINES_PER_PASS) exporter consumed work
        queue) := by
  induction queue generalizing consumed work with
  | nil => exact ⟨consumed, progress⟩
  | cons batch rest ih =>
      rw [List.flatten_cons] at next
      have sound := exportIsolating_sound (exporter consumed) batch
      have stepped := progress.exportBatch holds next sound now
      rw [Shipping.exportBatches]
      split
      · exact ⟨_, stepped⟩
      · next fine =>
        have all := sound.complete (by simpa using fine)
        have taken := take_next next progress.reached (Nat.le_refl batch.length)
        rw [List.take_length] at taken
        refine ih stepped ?_
        rw [all, next, taken, List.append_assoc]

namespace Accounted

theorem exportPending (accounted : Accounted host work.run work.cursor) (now : Int)
    (exporter : Option (Nat -> Collector)) :
    Accounted host (work.exportPending host now exporter).run (work.exportPending host now exporter).cursor ∧
      (work.exportPending host now exporter).run.writer = work.run.writer := by
  cases exporter with
  | none => exact ⟨accounted, rfl⟩
  | some exporter =>
      rcases accounted.split with ⟨pending, holds, whole⟩
      have faithful := accounted.faithful_pending whole
      have shorter : pending.length ≤ (ends host work.cursor.offset pending).length :=
        Nat.le_of_eq (ends_length host work.cursor.offset pending).symm
      have longer : (ends host work.cursor.offset pending).length ≤ pending.length :=
        Nat.le_of_eq (ends_length host work.cursor.offset pending)
      have start : Progress host work.run pending 0 work := by
        refine ⟨?_, ?_, accounted.counted, Nat.zero_le _⟩
        · rw [List.take_zero, List.append_nil]
        · rw [List.drop_zero]
          exact holds
      have read : pending.take MAX_LINES_PER_PASS =
          pending.take 0 ++ (batches (pending.take MAX_LINES_PER_PASS)).flatten := by
        rw [batches_flatten, List.take_zero, List.nil_append]
      rcases start.exportBatches holds read now exporter with ⟨total, progress⟩
      rw [Shipping.exportPending, readLines_eq holds faithful, List.map_take, List.map_take, List.map_fst_zip shorter,
        List.map_snd_zip longer]
      refine ⟨?_, by rw [progress.frame]⟩
      rw [progress.frame]
      refine accounted.reshape progress.holds ?_ ?_ (fun _ => rfl)
      · rw [List.append_assoc, List.take_append_drop, whole]
      · rw [progress.counted, List.length_append, List.length_take, Nat.min_eq_left progress.reached]

theorem settle (accounted : Accounted host work.run work.cursor) {metadata : RunMeta}
    (closed : metadata.endedAt.isSome = true -> work.run.writer = none) (id : String) (opts : ShipOptions) (now : Int) :
    Accounted host (work.settle id opts now metadata).1 (work.settle id opts now metadata).1.readCursor := by
  unfold Shipping.settle
  dsimp only
  cases removed : work.retired metadata opts now with
  | true =>
      have ended : metadata.endedAt.isSome = true := by
        by_contra running
        rw [Bool.not_eq_true] at running
        simp [Shipping.retired, Shipping.settledAt, running] at removed
      have fresh : work.run.removeRun = {} := by
        simp [Run.removeRun, Run.removeSegment, closed ended]
      rw [if_pos rfl, fresh]
      exact initial host
  | false =>
      rw [if_neg Bool.false_ne_true]
      exact ⟨accounted.split, accounted.counted, accounted.faithful, accounted.numbered, accounted.attached⟩

end Accounted

/-- What the size bound may remove as settled without losing a line. -/
def Droppable (run : Run) : Prop := run.writer = none ∧ countFrom run.segment run.readCursor.offset = 0

/-- A run counts as ended in a pass only when nobody writes it. -/
theorem closeAbandoned_closed {id : String} {now : Int} (accounted : Accounted host run run.readCursor)
    (ended : (run.closeAbandoned id now).1.endedAt.isSome = true) : run.writer = none := by
  cases found : run.writer with
  | none => rfl
  | some writer =>
      rcases (accounted.attached writer found).unfinished with ⟨metadata, known, unfinished⟩
      simp [Run.closeAbandoned, found, known, unfinished] at ended

theorem closeAbandoned_frame (run : Run) (id : String) (now : Int) :
    (run.closeAbandoned id now).2.readCursor = run.readCursor ∧ (run.closeAbandoned id now).2.writer = run.writer ∧
      (run.closeAbandoned id now).2.segment = run.segment := by
  unfold Run.closeAbandoned
  dsimp only
  split
  · exact ⟨rfl, rfl, rfl⟩
  · exact ⟨rfl, rfl, rfl⟩

theorem closeAbandoned_accounted (accounted : Accounted host run run.readCursor) (id : String) (now : Int) :
    Accounted host (run.closeAbandoned id now).2 run.readCursor := by
  unfold Run.closeAbandoned
  dsimp only
  split
  · next abandoned =>
    rw [Bool.and_eq_true, Bool.not_eq_true', Option.isSome_eq_false_iff, Option.isNone_iff_eq_none] at abandoned
    have closed := abandoned.1
    have numbered := accounted.numbered
    rw [Run.lastSeq, closed] at numbered
    refine ⟨accounted.split, accounted.counted, accounted.faithful, ?_, ?_⟩
    · refine ⟨numbered.increasing, fun line member => ?_⟩
      have bounded := numbered.bounded line member
      rw [Run.lastSeq]
      dsimp only
      rw [closed]
      cases known : run.metadata with
      | none =>
          rw [known] at bounded
          exact bounded
      | some metadata =>
          rw [known] at bounded
          exact bounded
    · intro writer found
      rw [show run.writer = some writer from found] at closed
      cases closed
  · exact accounted

theorem processRun_accounted {id : String} {bytesDrop : Option Bool} (accounted : Accounted host run run.readCursor)
    (careful : bytesDrop = some true -> Droppable run) (exporter : Option (Nat -> Collector)) (opts : ShipOptions)
    (now : Int) (report : PassReport) :
    Accounted host (processRun host id run exporter opts now bytesDrop report).1
      (processRun host id run exporter opts now bytesDrop report).1.readCursor := by
  have closed := @closeAbandoned_closed host run id now accounted
  have closing := closeAbandoned_accounted accounted id now
  rcases closeAbandoned_frame run id now with ⟨cursor, writer, segment⟩
  unfold processRun
  generalize run.closeAbandoned id now = result at closed closing cursor writer segment ⊢
  rcases result with ⟨metadata, next⟩
  dsimp only at closed closing cursor writer segment ⊢
  rw [← cursor] at closing
  have notWritten : metadata.endedAt.isSome = true -> next.writer = none := fun ended => writer.trans (closed ended)
  have droppable : bytesDrop = some true ->
      next.writer = none ∧ countFrom next.segment next.readCursor.offset = 0 := by
    intro settled
    rw [writer, segment, cursor]
    exact careful settled
  have dropped := @Accounted.dropBytes host { run := next, cursor := next.readCursor } closing _ _ notWritten droppable
  have aged := dropped.1.ageOut (now - fromStd opts.maxAge)
  have exported := aged.1.exportPending now exporter
  refine exported.1.settle ?_ id opts now
  intro ended
  rw [exported.2, aged.2]
  exact dropped.2 (notWritten ended)

theorem shipRuns_accounted {exporter : Option (String -> Nat -> Collector)} {opts : ShipOptions} {now : Int}
    {plan : List (String × Bool)} {ids : List String} (nodup : ids.Nodup) {spool : Spool}
    (accounted : forall id, Accounted host (spool id) (spool id).readCursor)
    (careful : forall id, id ∈ ids -> plan.lookup id = some true -> Droppable (spool id)) (report : PassReport)
    (id : String) :
    Accounted host ((shipRuns host exporter opts now plan ids spool report).1 id)
      ((shipRuns host exporter opts now plan ids spool report).1 id).readCursor := by
  induction ids generalizing spool report with
  | nil => exact accounted id
  | cons first rest ih =>
      rcases List.nodup_cons.mp nodup with ⟨fresh, restNodup⟩
      rw [shipRuns]
      refine ih restNodup ?_ ?_ _
      · intro other
        by_cases same : other = first
        · subst same
          rw [Function.update_self]
          exact processRun_accounted (accounted other) (careful other List.mem_cons_self) _ opts now report
        · rw [Function.update_of_ne same]
          exact accounted other
      · intro other member settled
        have different : other ≠ first := fun same => fresh (same ▸ member)
        rw [Function.update_of_ne different]
        exact careful other (List.mem_cons_of_mem first member) settled

end Logship
end FaucetStream
