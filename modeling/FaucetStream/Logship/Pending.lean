import FaucetStream.Logship.Spool

namespace FaucetStream
namespace Logship

open Library

/-!
# Pending lines

The bytes of a segment past the cursor's offset are the encodings of the
pending lines, and the lines flushed to the spool are the handled ones followed
by the pending ones.  The writer only adds to the pending lines.
-/

variable {host : Host} {segment : Option Bytes} {offset : Nat}

/-- The segment holds exactly `pending` past the offset. -/
def Holds (host : Host) (segment : Option Bytes) (offset : Nat) (pending : List ShipLine) : Prop :=
  match segment with
  | none => pending = []
  | some bytes => exists done, bytes = done ++ host.encodeLines pending ∧ done.length = offset

theorem encodeLines_append (host : Host) (first second : List ShipLine) :
    host.encodeLines (first ++ second) = host.encodeLines first ++ host.encodeLines second := by
  rw [Host.encodeLines, List.map_append, List.flatten_append]
  rfl

theorem encodeLines_cons (host : Host) (line : ShipLine) (rest : List ShipLine) :
    host.encodeLines (line :: rest) = host.encodeLine line ++ host.encodeLines rest := by
  rw [Host.encodeLines, List.map_cons, List.flatten_cons]
  rfl

namespace Holds

theorem advance {first second : List ShipLine} (holds : Holds host segment offset (first ++ second)) :
    Holds host segment (offset + (host.encodeLines first).length) second := by
  cases segment with
  | none => exact (List.append_eq_nil_iff.mp holds).2
  | some bytes =>
      rcases holds with ⟨done, same, length⟩
      refine ⟨done ++ host.encodeLines first, ?_, ?_⟩
      · rw [same, encodeLines_append, List.append_assoc]
      · rw [List.length_append, length]

theorem append {bytes : Bytes} {pending : List ShipLine} (holds : Holds host (some bytes) offset pending)
    (lines : List ShipLine) : Holds host (some (bytes ++ host.encodeLines lines)) offset (pending ++ lines) := by
  rcases holds with ⟨done, same, length⟩
  exact ⟨done, by rw [same, encodeLines_append, List.append_assoc], length⟩

theorem linesAfter_eq {pending : List ShipLine} (holds : Holds host segment offset pending)
    (faithful : forall line, line ∈ pending -> host.Faithful line) :
    linesAfter segment offset = pending.map host.encodeLine := by
  cases segment with
  | none =>
      rw [show pending = [] from holds]
      rfl
  | some bytes =>
      rcases holds with ⟨done, same, length⟩
      have rest : bytes.drop offset = ((pending.map host.encode).map (fun line => line ++ [newline])).flatten := by
        rw [same, ← length, List.drop_left, List.map_map]
        rfl
      have clean : forall line, line ∈ pending.map host.encode -> newline ∉ line := by
        intro line member
        rcases List.mem_map.mp member with ⟨source, found, rfl⟩
        exact (faithful source found).clean
      rw [linesAfter, rest, completeLines_flatten clean, List.map_map]
      rfl

theorem countFrom_eq {pending : List ShipLine} (holds : Holds host segment offset pending)
    (faithful : forall line, line ∈ pending -> host.Faithful line) : countFrom segment offset = pending.length := by
  rw [countFrom, scanFrom, linesAfter_eq holds faithful, List.length_map]

end Holds

theorem readLine_encodeLine {line : ShipLine} (faithful : host.Faithful line) :
    host.readLine (host.encodeLine line) = line := by
  rw [Host.readLine, Host.encodeLine, faithful.readable]

theorem map_readLine {pending : List ShipLine} (faithful : forall line, line ∈ pending -> host.Faithful line) :
    (pending.map host.encodeLine).map host.readLine = pending := by
  rw [List.map_map]
  refine (List.map_congr_left (fun line member => ?_)).trans (List.map_id pending)
  exact readLine_encodeLine (faithful line member)

/-- Where each of the lines ends. -/
def ends (host : Host) (offset : Nat) (pending : List ShipLine) : List Nat :=
  (host.withEnds offset (pending.map host.encodeLine)).map Prod.snd

theorem withEnds_eq {pending : List ShipLine} (faithful : forall line, line ∈ pending -> host.Faithful line)
    (offset : Nat) :
    host.withEnds offset (pending.map host.encodeLine) = pending.zip (ends host offset pending) := by
  induction pending generalizing offset with
  | nil => rfl
  | cons line rest ih =>
      rw [List.map_cons, Host.withEnds, readLine_encodeLine (faithful line List.mem_cons_self),
        ih (fun other member => faithful other (List.mem_cons_of_mem line member))]
      rfl

theorem ends_length (host : Host) (offset : Nat) (pending : List ShipLine) :
    (ends host offset pending).length = pending.length := by
  induction pending generalizing offset with
  | nil => rfl
  | cons line rest ih =>
      have tail := ih (offset + (host.encodeLine line).length)
      rw [ends, List.length_map] at tail
      rw [ends, List.map_cons, Host.withEnds, List.map_cons, List.length_cons, List.length_map, tail]
      rfl

/-- A line ends where the encodings of the lines up to it end. -/
theorem ends_getElem (host : Host) (offset : Nat) (pending : List ShipLine) {index : Nat}
    (inside : index < pending.length) :
    (ends host offset pending)[index]? = some (offset + (host.encodeLines (pending.take (index + 1))).length) := by
  induction pending generalizing offset index with
  | nil => cases inside
  | cons line rest ih =>
      rw [List.take_succ_cons, encodeLines_cons, List.length_append]
      cases index with
      | zero =>
          rw [List.take_zero]
          rfl
      | succ index =>
          have tail := ih (offset + (host.encodeLine line).length) (Nat.lt_of_succ_lt_succ inside)
          rw [← Nat.add_assoc, ← tail]
          rfl

/-- What a pass reads of the pending lines. -/
theorem readLines_eq {pending : List ShipLine} (holds : Holds host segment offset pending)
    (faithful : forall line, line ∈ pending -> host.Faithful line) (max : Nat) :
    readLines host segment offset max = (pending.zip (ends host offset pending)).take max := by
  rw [readLines, holds.linesAfter_eq faithful, withEnds_eq faithful]

/-! ## The invariant of a run -/

/-- Sequence numbers go up, to at most `last`. -/
structure Numbered (lines : List ShipLine) (last : Nat) : Prop where
  increasing : lines.Pairwise (fun first second => first.seq < second.seq)
  bounded : forall line, line ∈ lines -> line.seq ≤ last

theorem Numbered.concat {lines : List ShipLine} {last : Nat} (numbered : Numbered lines last) (line : ShipLine) :
    Numbered (lines ++ [{ line with seq := last + 1 }]) (last + 1) := by
  constructor
  · refine List.pairwise_append.mpr ⟨numbered.increasing, List.pairwise_singleton _ _, ?_⟩
    intro first member second found
    rw [List.mem_singleton.mp found]
    exact Nat.lt_succ_of_le (numbered.bounded first member)
  · intro other member
    rcases List.mem_append.mp member with early | late
    · exact Nat.le_succ_of_le (numbered.bounded other early)
    · exact Nat.le_of_eq (congrArg ShipLine.seq (List.mem_singleton.mp late))

/-- The lines a writer still holds. -/
def Run.buffered (run : Run) : List ShipLine := run.writer.elim [] OpenRun.buffer

def Run.lastSeq (run : Run) : Nat :=
  run.writer.elim (run.metadata.elim 0 RunMeta.lastSeq) (fun writer => writer.metadata.lastSeq)

/-- The writer of a run has its segment open, and the metadata says so. -/
structure Attached (segment : Option Bytes) (metadata : Option RunMeta) (writer : OpenRun) : Prop where
  present : segment.isSome = true
  linked : writer.linked = true
  started : writer.metadata.endedAt = none
  unfinished : exists current, metadata = some current ∧ current.endedAt = none

/-- A run with its cursor: each flushed line is handled and counted, or still
pending. -/
structure Accounted (host : Host) (run : Run) (cursor : Cursor) : Prop where
  split : exists pending, Holds host run.segment cursor.offset pending ∧ run.handled ++ pending = run.flushed
  counted : cursor.deliveredLines + cursor.dropped = run.handled.length
  faithful : forall line, line ∈ run.flushed ++ run.buffered -> host.Faithful line
  numbered : Numbered (run.flushed ++ run.buffered) run.lastSeq
  attached : forall writer, run.writer = some writer -> Attached run.segment run.metadata writer

namespace Accounted

variable {run : Run} {cursor : Cursor}

theorem initial (host : Host) : Accounted host {} {} := by
  refine ⟨⟨[], rfl, rfl⟩, rfl, ?_, ⟨List.Pairwise.nil, ?_⟩, ?_⟩
  · intro line member
    cases member
  · intro line member
    cases member
  · intro writer found
    cases found

/-- The part of the invariant that only concerns the lines past the cursor. -/
theorem reshape (accounted : Accounted host run cursor) {handled pending : List ShipLine} {segment : Option Bytes}
    {next : Cursor} (holds : Holds host segment next.offset pending) (whole : handled ++ pending = run.flushed)
    (counted : next.deliveredLines + next.dropped = handled.length)
    (kept : run.writer.isSome = true -> segment = run.segment) :
    Accounted host { run with segment := segment, handled := handled } next := by
  refine ⟨⟨pending, holds, whole⟩, counted, accounted.faithful, accounted.numbered, ?_⟩
  intro writer found
  have attached := accounted.attached writer found
  have opened : run.writer.isSome = true := by
    rw [show run.writer = some writer from found]
    rfl
  exact ⟨by rw [kept opened]; exact attached.present, attached.linked, attached.started, attached.unfinished⟩

theorem faithful_pending (accounted : Accounted host run cursor) {handled pending : List ShipLine}
    (whole : handled ++ pending = run.flushed) : forall line, line ∈ pending -> host.Faithful line := by
  intro line member
  refine accounted.faithful line (List.mem_append_left _ ?_)
  rw [← whole]
  exact List.mem_append_right handled member

theorem pending_length (accounted : Accounted host run cursor) :
    run.flushed.length = cursor.deliveredLines + cursor.dropped + countFrom run.segment cursor.offset := by
  rcases accounted.split with ⟨pending, holds, whole⟩
  rw [holds.countFrom_eq (accounted.faithful_pending whole), accounted.counted, ← whole, List.length_append]

end Accounted

/-! ## The writer -/

theorem encodeLines_eq_nil {lines : List ShipLine} (empty : (host.encodeLines lines).length = 0) : lines = [] := by
  cases lines with
  | nil => rfl
  | cons line rest =>
      rw [encodeLines_cons, Host.encodeLine] at empty
      simp at empty

/-- A buffered write keeps the lines in order. -/
theorem writeAll_eq (host : Host) (buffer : List ShipLine) (line : ShipLine) :
    (writeAll host buffer line).2 ++ (writeAll host buffer line).1 = buffer ++ [line] := by
  unfold writeAll
  dsimp only
  by_cases fits : (host.encodeLine line).length < BUFFER_BYTES - (host.encodeLines buffer).length
  · rw [if_pos fits]
    rfl
  · rw [if_neg fits]
    by_cases larger : BUFFER_BYTES - (host.encodeLines buffer).length < (host.encodeLine line).length
    · rw [if_pos larger]
      split
      · exact List.append_nil _
      · rfl
    · rw [if_neg larger]
      split
      · next direct =>
        have empty : buffer = [] := by
          refine @encodeLines_eq_nil host buffer ?_
          have positive : 0 < BUFFER_BYTES := by decide
          omega
        rw [empty]
        rfl
      · rfl

namespace Accounted

variable {run : Run} {cursor : Cursor} {writer : OpenRun}

/-- Lines that go out of the buffer, or come straight from the caller, join the
pending ones. -/
theorem spill (accounted : Accounted host run cursor) (found : run.writer = some writer) {out lines : List ShipLine}
    {metadata : Option RunMeta} {next : Option OpenRun}
    (moved : run.flushed ++ out ++ next.elim [] OpenRun.buffer = lines)
    (faithful : forall line, line ∈ lines -> host.Faithful line)
    (numbered : Numbered lines
      (next.elim (metadata.elim 0 RunMeta.lastSeq) (fun writer => writer.metadata.lastSeq)))
    (stays : forall writer', next = some writer' -> writer'.linked = writer.linked ∧
      writer'.metadata.endedAt = none ∧ exists metadata', metadata = some metadata' ∧ metadata'.endedAt = none) :
    Accounted host { run.spill host writer.linked out with metadata := metadata, writer := next } cursor := by
  have attached := accounted.attached writer found
  rcases accounted.split with ⟨pending, holds, whole⟩
  rcases Option.isSome_iff_exists.mp attached.present with ⟨bytes, present⟩
  have written : (run.spill host writer.linked out).segment = some (bytes ++ host.encodeLines out) := by
    rw [Run.spill, attached.linked, if_pos rfl, present]
    rfl
  rw [present] at holds
  constructor
  · refine ⟨pending ++ out, ?_, ?_⟩
    · change Holds host (run.spill host writer.linked out).segment cursor.offset (pending ++ out)
      rw [written]
      exact holds.append out
    · change run.handled ++ (pending ++ out) = run.flushed ++ out
      rw [← List.append_assoc, whole]
  · exact accounted.counted
  · change forall line, line ∈ run.flushed ++ out ++ next.elim [] OpenRun.buffer -> host.Faithful line
    rw [moved]
    exact faithful
  · change Numbered (run.flushed ++ out ++ next.elim [] OpenRun.buffer) _
    rw [moved]
    exact numbered
  · intro writer' same
    rcases stays writer' same with ⟨linked, started, unfinished⟩
    refine ⟨?_, linked.trans attached.linked, started, unfinished⟩
    change (run.spill host writer.linked out).segment.isSome = true
    rw [written]
    rfl

theorem begin {metadata : RunMeta} (accounted : Accounted host run cursor) (maxLines : Nat)
    (fresh : metadata.endedAt = none)
    (rewound : run.writer = none -> run.segment = none -> cursor.offset = 0) :
    Accounted host (run.begin metadata maxLines) cursor := by
  unfold Run.begin
  cases found : run.writer with
  | some writer => exact accounted
  | none =>
      simp only [Option.isSome_none, Bool.false_eq_true, if_false]
      have empty : run.buffered = [] := by rw [Run.buffered, found]; rfl
      have last : run.lastSeq = run.metadata.elim 0 RunMeta.lastSeq := by rw [Run.lastSeq, found]; rfl
      have faithful := accounted.faithful
      have numbered := accounted.numbered
      rw [empty, List.append_nil] at faithful numbered
      rw [last] at numbered
      rcases accounted.split with ⟨pending, holds, whole⟩
      have held : Holds host (some (run.segment.getD [])) cursor.offset pending := by
        cases present : run.segment with
        | some bytes =>
            rw [present] at holds
            exact holds
        | none =>
            rw [present] at holds
            rw [show pending = [] from holds, rewound found present]
            exact ⟨[], rfl, rfl⟩
      cases known : run.metadata with
      | none =>
          rw [known] at numbered
          refine ⟨⟨pending, held, whole⟩, accounted.counted, ?_, ?_, ?_⟩
          · rw [Run.buffered]
            simpa using faithful
          · rw [Run.buffered, Run.lastSeq]
            simp only [Option.elim_some, List.append_nil]
            exact ⟨numbered.increasing, fun line member =>
              Nat.le_trans (numbered.bounded line member) (Nat.zero_le _)⟩
          · intro writer same
            rw [← Option.some.inj same]
            exact ⟨rfl, rfl, fresh, metadata, rfl, fresh⟩
      | some previous =>
          rw [known] at numbered
          refine ⟨⟨pending, held, whole⟩, accounted.counted, ?_, ?_, ?_⟩
          · rw [Run.buffered]
            simpa using faithful
          · rw [Run.buffered, Run.lastSeq]
            simp only [Option.elim_some, List.append_nil]
            exact numbered
          · intro writer same
            rw [← Option.some.inj same]
            exact ⟨rfl, rfl, rfl, _, rfl, rfl⟩

theorem append (accounted : Accounted host run cursor) {line : ShipLine}
    (faithful : forall writer, run.writer = some writer ->
      host.Faithful { line with seq := writer.metadata.lastSeq + 1 }) :
    Accounted host (run.append host line) cursor := by
  unfold Run.append
  cases found : run.writer with
  | none => exact accounted
  | some writer =>
      have attached := accounted.attached writer found
      have old := accounted.faithful
      have numbered := accounted.numbered
      rw [Run.buffered, found, Option.elim_some] at old numbered
      rw [Run.lastSeq, found, Option.elim_some] at numbered
      simp only
      split
      · refine ⟨accounted.split, accounted.counted, old, numbered, ?_⟩
        intro writer' same
        rw [← Option.some.inj same]
        exact ⟨attached.present, attached.linked, attached.started, attached.unfinished⟩
      · have order := writeAll_eq host writer.buffer { line with seq := writer.metadata.lastSeq + 1 }
        generalize writeAll host writer.buffer { line with seq := writer.metadata.lastSeq + 1 } = result at order ⊢
        rcases result with ⟨buffer, out⟩
        dsimp only at order ⊢
        have whole : run.flushed ++ out ++ buffer =
            run.flushed ++ writer.buffer ++ [{ line with seq := writer.metadata.lastSeq + 1 }] := by
          rw [List.append_assoc, order, List.append_assoc]
        have allFaithful : forall other, other ∈ run.flushed ++ out ++ buffer -> host.Faithful other := by
          intro other member
          rw [whole] at member
          rcases List.mem_append.mp member with early | late
          · exact old other early
          · rw [List.mem_singleton.mp late]
            exact faithful writer found
        have allNumbered : Numbered (run.flushed ++ out ++ buffer) (writer.metadata.lastSeq + 1) := by
          rw [whole]
          exact numbered.concat line
        split
        · have moved : run.flushed ++ (out ++ buffer) ++ [] = run.flushed ++ out ++ buffer := by
            rw [List.append_nil, List.append_assoc]
          refine accounted.spill found moved allFaithful allNumbered ?_
          intro writer' same
          rw [← Option.some.inj same]
          exact ⟨rfl, attached.started, attached.unfinished⟩
        · refine accounted.spill found rfl allFaithful allNumbered ?_
          intro writer' same
          rw [← Option.some.inj same]
          exact ⟨rfl, attached.started, attached.unfinished⟩

theorem addQueueDropped (accounted : Accounted host run cursor) (count : Nat) :
    Accounted host (run.addQueueDropped count) cursor := by
  unfold Run.addQueueDropped
  cases found : run.writer with
  | none => exact accounted
  | some writer =>
      have attached := accounted.attached writer found
      have faithful := accounted.faithful
      have numbered := accounted.numbered
      rw [Run.buffered, found] at faithful numbered
      rw [Run.lastSeq, found] at numbered
      refine ⟨accounted.split, accounted.counted, faithful, numbered, ?_⟩
      intro writer' same
      rw [← Option.some.inj same]
      exact ⟨attached.present, attached.linked, attached.started, attached.unfinished⟩

theorem flush (accounted : Accounted host run cursor) : Accounted host (run.flush host) cursor := by
  unfold Run.flush
  cases found : run.writer with
  | none => exact accounted
  | some writer =>
      have attached := accounted.attached writer found
      have faithful := accounted.faithful
      have numbered := accounted.numbered
      rw [Run.buffered, found, Option.elim_some] at faithful numbered
      rw [Run.lastSeq, found, Option.elim_some] at numbered
      refine accounted.spill found (List.append_nil _) faithful numbered ?_
      intro writer' same
      rw [← Option.some.inj same]
      refine ⟨rfl, attached.started, ?_⟩
      split
      · exact ⟨writer.metadata, rfl, attached.started⟩
      · exact attached.unfinished

theorem «end» (accounted : Accounted host run cursor) (now : Int) : Accounted host (run.end host now) cursor := by
  unfold Run.end
  cases found : run.writer with
  | none => exact accounted
  | some writer =>
      have faithful := accounted.faithful
      have numbered := accounted.numbered
      rw [Run.buffered, found, Option.elim_some] at faithful numbered
      rw [Run.lastSeq, found, Option.elim_some] at numbered
      refine accounted.spill found (List.append_nil _) faithful numbered ?_
      intro writer' same
      cases same

end Accounted

end Logship
end FaucetStream
