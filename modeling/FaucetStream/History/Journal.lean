import FaucetStream.Json.Value
import FaucetStream.Library.Utf8

namespace FaucetStream
namespace History

open Json
open Library

/-!
# The history journal

While the run-history backend cannot be reached, the records a server must not
lose are appended to a local file, one JSON line each, and replayed into the
backend when it answers again.  The file is only ever appended to, and emptied
after a replay.  A write may break off anywhere, so what it left becomes the
beginning of the next line.
-/

/-! ## Records -/

inductive RunStatus where
  | queued
  | pending
  | running
  | sharded
  | completed
  | failed
  | cancelled
  deriving DecidableEq

def RunStatus.isTerminal : RunStatus -> Bool
  | .completed | .failed | .cancelled => true
  | _ => false

/-- A run record.  The fields that no write looks at are kept as one JSON
value. -/
structure RunRecord where
  runId : String
  status : RunStatus
  finishedAt : Option Nat
  submittedBy : Option String
  labels : List (String × String)
  fields : Value
  deriving DecidableEq

structure RunLogLine where
  seq : Nat
  ts : String
  level : String
  line : String
  attrs : List (String × Value)
  deriving DecidableEq

structure AuditEntry where
  id : String
  tenant : Option String
  fields : Value
  deriving DecidableEq

structure UsageRecord where
  runId : String
  row : String
  fields : Value
  deriving DecidableEq

/-- One journaled record. -/
inductive Entry where
  | run (record : RunRecord)
  | log (runId : String) (lines : List RunLogLine)
  | audit (entry : AuditEntry)
  | usage (record : UsageRecord)
  deriving DecidableEq

inductive Kind where
  | run
  | log
  | audit
  | usage
  deriving DecidableEq

def Entry.kind : Entry -> Kind
  | .run _ => .run
  | .log _ _ => .log
  | .audit _ => .audit
  | .usage _ => .usage

/-- How entries are written as JSON and read back.  Serialisation may fail;
what it writes is one object on one line, and reads back as the entry, which
leaves out entries with floats that `serde_json` does not read back to the last
bit. -/
structure EntryFormat where
  toText : Entry -> Option (List Char)
  fromText : List Char -> Option Entry
  reads_back : forall entry text, toText entry = some text -> fromText text = some entry
  opens : forall entry text, toText entry = some text -> text.head? = some '\x7b'
  escaped : forall entry text, toText entry = some text -> forall character, character ∈ text -> 32 ≤ character.toNat

/-! ## Reading the file -/

/-- A line without the newline that ends it, or the carriage return before
it. -/
def withoutLineEnd (line : List Char) : List Char :=
  if line.getLast? = some '\n' then
    if line.dropLast.getLast? = some '\r' then line.dropLast.dropLast else line.dropLast
  else line

variable (format : EntryFormat)

/-- The entry of a line.  Blank and unreadable lines have none. -/
def lineEntry (line : List Char) : Option Entry :=
  if (withoutLineEnd line).all isWhitespace then none else format.fromText (withoutLineEnd line)

/-- Reading stops with an error at the first line that is not a text. -/
def readLines (format : EntryFormat) : List (List UInt8) -> Except String (List Entry)
  | [] => .ok []
  | raw :: rest =>
      match decodeUtf8 raw with
      | none => .error "stream did not contain valid UTF-8"
      | some line =>
          match readLines format rest with
          | .error error => .error error
          | .ok entries =>
              match lineEntry format line with
              | some entry => .ok (entry :: entries)
              | none => .ok entries

def readEntries (file : List UInt8) : Except String (List Entry) :=
  readLines format (everyLine newlineByte file)

/-- A file that is a text is read line by line. -/
theorem readEntries_encodeUtf8 (text : List Char) :
    readEntries format (encodeUtf8 text) = .ok ((everyLine '\n' text).filterMap (lineEntry format)) := by
  have split : everyLine newlineByte (encodeUtf8 text) = (everyLine '\n' text).map encodeUtf8 :=
    everyFrom_encodeUtf8 [] text
  rw [readEntries, split]
  induction everyLine '\n' text with
  | nil => rfl
  | cons line rest ih =>
      rw [List.map_cons, readLines, decodeUtf8_encodeUtf8]
      simp only [ih]
      cases found : lineEntry format line with
      | none => rw [List.filterMap_cons_none found]
      | some entry => rw [List.filterMap_cons_some found]

/-! ## The journal -/

/-- What a process keeps of an open journal. -/
structure Inner where
  bytes : Nat
  counts : Kind -> Nat

/-- The journal file, and the journal a process has open on it. -/
structure Journal where
  file : List UInt8
  inner : Option Inner

def countKinds (entries : List Entry) (kind : Kind) : Nat :=
  entries.countP (fun entry => entry.kind == kind)

/-- How far a write came. -/
inductive Write where
  | synced
  /-- It failed, or the process stopped, after so many bytes. -/
  | cut (count : Nat)
  deriving DecidableEq

inductive ReplayOutcome where
  | applyFailed
  /-- Emptying the file failed, before or after it was emptied. -/
  | truncateFailed (emptied : Bool)
  | done
  deriving DecidableEq

inductive Operation where
  | openJournal
  | appendIf (still : Bool) (entry : Entry) (write : Write)
  | replay (outcome : ReplayOutcome)

inductive Answer where
  | opened
  | openFailed
  | appended (entry : Entry)
  | recovered
  | appendFailed
  /-- The entries were handed to `apply`. -/
  | replayed (handed : List Entry) (outcome : ReplayOutcome)
  | unreadable
  /-- No journal is open. -/
  | closed

namespace Journal

/-- `Journal::open`: count what an earlier process left. -/
def openJournal (journal : Journal) : Journal × Answer :=
  match readEntries format journal.file with
  | .error _ => (⟨journal.file, none⟩, .openFailed)
  | .ok entries => (⟨journal.file, some ⟨journal.file.length, countKinds entries⟩⟩, .opened)

/-- `append_if`, on an open journal. -/
def appendIf (journal : Journal) (inner : Inner) (still : Bool) (entry : Entry) (write : Write) : Journal × Answer :=
  if !still then (journal, .recovered)
  else
    match format.toText entry with
    | none => (journal, .appendFailed)
    | some text =>
        let line := encodeUtf8 (text ++ ['\n'])
        match write with
        | .cut count => (⟨journal.file ++ line.take count, some inner⟩, .appendFailed)
        | .synced =>
            (⟨journal.file ++ line,
              some ⟨inner.bytes + line.length,
                fun kind => inner.counts kind + if entry.kind = kind then 1 else 0⟩⟩,
              .appended entry)

/-- `replay`, on an open journal.  A replay that fails keeps the file, unless
it fails after emptying it. -/
def replay (journal : Journal) (inner : Inner) (outcome : ReplayOutcome) :
    Journal × Answer :=
  match readEntries format journal.file with
  | .error _ => (journal, .unreadable)
  | .ok entries =>
      match outcome with
      | .applyFailed | .truncateFailed false => (⟨journal.file, some inner⟩, .replayed entries outcome)
      | .truncateFailed true => (⟨[], some inner⟩, .replayed entries outcome)
      | .done => (⟨[], some ⟨0, fun _ => 0⟩⟩, .replayed entries outcome)

def step (journal : Journal) (operation : Operation) : Journal × Answer :=
  match operation, journal.inner with
  | .openJournal, _ => journal.openJournal format
  | .appendIf still entry write, some inner => journal.appendIf format inner still entry write
  | .replay outcome, some inner => journal.replay format inner outcome
  | _, none => (journal, .closed)

/-- A whole history of one directory, with what each operation answered. -/
def run (format : EntryFormat) (journal : Journal) : List Operation -> Journal × List Answer
  | [] => (journal, [])
  | operation :: rest =>
      let (next, answer) := journal.step format operation
      let (last, answers) := next.run format rest
      (last, answer :: answers)

end Journal

/-- Entries acknowledged and not yet handed to an `apply` that went through
before the file was emptied. -/
def unsettled (pending : List Entry) : List Answer -> List Entry
  | [] => pending
  | .appended entry :: rest => unsettled (pending ++ [entry]) rest
  | .replayed _ .done :: rest | .replayed _ (.truncateFailed true) :: rest => unsettled [] rest
  | _ :: rest => unsettled pending rest

/-! ## Nothing acknowledged is lost -/

/-- The file holds no bytes after its last newline. -/
def EndsWhole (file : List UInt8) : Prop := file = [] ∨ file.getLast? = some newlineByte

/-- A step that keeps the file a text, and acknowledges an entry only on a
line of its own. -/
def Undisturbed (journal : Journal) : Operation -> Prop
  | .appendIf true entry .synced => journal.inner.isSome = true -> (format.toText entry).isSome = true ->
      EndsWhole journal.file
  | .appendIf true entry (.cut count) => journal.inner.isSome = true -> forall text, format.toText entry = some text ->
      (decodeUtf8 ((encodeUtf8 (text ++ ['\n'])).take count)).isSome = true
  | _ => True

/-- Every step of a history is undisturbed, in the state it is taken in. -/
def AllUndisturbed (format : EntryFormat) (journal : Journal) : List Operation -> Prop
  | [] => True
  | operation :: rest =>
      Undisturbed format journal operation ∧ AllUndisturbed format (journal.step format operation).1 rest

/-- The file is a text, and its complete lines hold the unsettled entries. -/
def Keeps (file : List UInt8) (pending : List Entry) : Prop :=
  exists text, file = encodeUtf8 text ∧
    pending.Sublist ((completeLines '\n' text).filterMap (lineEntry format))

theorem keeps_empty : Keeps format [] [] := ⟨[], rfl, List.Sublist.refl []⟩

/-- What is kept is read back. -/
theorem Keeps.readEntries {format : EntryFormat} {file : List UInt8} {pending : List Entry}
    (keeps : Keeps format file pending) :
    exists entries, readEntries format file = .ok entries ∧ pending.Sublist entries := by
  rcases keeps with ⟨text, rfl, held⟩
  refine ⟨_, readEntries_encodeUtf8 format text, ?_⟩
  have complete : completeLines '\n' text <+: everyLine '\n' text := linesFrom_prefix_everyFrom [] text
  exact held.trans (complete.sublist.filterMap (lineEntry format))

theorem Keeps.append {format : EntryFormat} {file : List UInt8} {pending : List Entry}
    (keeps : Keeps format file pending) (more : List Char) : Keeps format (file ++ encodeUtf8 more) pending := by
  rcases keeps with ⟨text, rfl, held⟩
  refine ⟨text ++ more, (encodeUtf8_append text more).symm, held.trans ?_⟩
  have longer : completeLines '\n' text <+: completeLines '\n' (text ++ more) :=
    linesFrom_prefix_append [] text more
  exact longer.sublist.filterMap (lineEntry format)

theorem not_newline_of_escaped {character : Char} (printable : 32 ≤ character.toNat) :
    character ≠ '\n' ∧ character ≠ '\r' := by
  constructor
  · rintro rfl
    exact absurd printable (by decide)
  · rintro rfl
    exact absurd printable (by decide)

/-- A line that was written whole is read as its entry. -/
theorem lineEntry_toText {format : EntryFormat} {entry : Entry} {text : List Char}
    (written : format.toText entry = some text) : lineEntry format (text ++ ['\n']) = some entry := by
  have bare : withoutLineEnd (text ++ ['\n']) = text := by
    unfold withoutLineEnd
    rw [List.getLast?_concat, if_pos rfl, List.dropLast_concat, if_neg]
    intro last
    exact (not_newline_of_escaped (format.escaped entry text written '\r' (List.mem_of_getLast? last))).2 rfl
  have visible : text.all isWhitespace = false := by
    cases text with
    | nil => exact absurd (format.opens entry [] written) (by decide)
    | cons character rest =>
        have brace : some character = some '\x7b' := format.opens entry _ written
        cases brace
        rfl
  unfold lineEntry
  rw [bare, visible, if_neg Bool.false_ne_true]
  exact format.reads_back entry text written

theorem getLast_encodeUtf8 {text : List Char} (whole : (encodeUtf8 text).getLast? = some newlineByte) :
    exists before, text = before ++ ['\n'] := by
  rcases List.eq_nil_or_concat text with rfl | ⟨before, last, rfl⟩
  · cases whole
  · rw [List.concat_eq_append] at whole ⊢
    rw [encodeUtf8_append, encodeUtf8_singleton] at whole
    by_cases newline : last = '\n'
    · exact ⟨before, by rw [newline]⟩
    · have inside : newlineByte ∈ String.utf8EncodeChar last := by
        rw [List.getLast?_append_of_ne_nil _ String.utf8EncodeChar_ne_nil] at whole
        exact List.mem_of_getLast? whole
      exact absurd inside (newlineByte_not_mem newline)

/-- An entry appended to a file that ends whole is on a line of its own. -/
theorem Keeps.acknowledge {format : EntryFormat} {file : List UInt8} {pending : List Entry} {entry : Entry}
    {text : List Char} (keeps : Keeps format file pending) (written : format.toText entry = some text)
    (whole : EndsWhole file) : Keeps format (file ++ encodeUtf8 (text ++ ['\n'])) (pending ++ [entry]) := by
  rcases keeps with ⟨before, rfl, held⟩
  have clean : '\n' ∉ text := by
    intro inside
    exact (not_newline_of_escaped (format.escaped entry text written '\n' inside)).1 rfl
  have own : completeLines '\n' (text ++ ['\n']) = [text ++ ['\n']] := by
    rw [completeLines, linesFrom_terminated clean]
    rfl
  have lines : completeLines '\n' (before ++ (text ++ ['\n'])) =
      completeLines '\n' before ++ [text ++ ['\n']] := by
    rw [← own]
    rcases whole with empty | terminated
    · have nothing : before = [] := by
        have decoded := decodeUtf8_encodeUtf8 before
        rw [empty] at decoded
        exact (Option.some.inj ((decodeUtf8_encodeUtf8 []).symm.trans decoded)).symm
      rw [nothing]
      rfl
    · rcases getLast_encodeUtf8 terminated with ⟨first, rfl⟩
      rw [List.append_assoc, List.singleton_append]
      exact linesFrom_append_of_terminated [] first (text ++ ['\n'])
  refine ⟨before ++ (text ++ ['\n']), (encodeUtf8_append _ _).symm, ?_⟩
  rw [lines, List.filterMap_append, List.filterMap_cons_some (lineEntry_toText written), List.filterMap_nil]
  exact held.append (List.Sublist.refl [entry])

/-- What an operation's answer must be for nothing to be lost. -/
def Faithful (pending : List Entry) : Answer -> Prop
  | .openFailed => False
  | .unreadable => False
  | .replayed handed _ => pending.Sublist handed
  | _ => True

/-- One undisturbed step keeps the unsettled entries and answers faithfully. -/
theorem step_keeps {format : EntryFormat} {journal : Journal} {pending : List Entry} {operation : Operation}
    (keeps : Keeps format journal.file pending) (undisturbed : Undisturbed format journal operation) :
    Keeps format (journal.step format operation).1.file (unsettled pending [(journal.step format operation).2]) ∧
      Faithful pending (journal.step format operation).2 := by
  rcases keeps.readEntries with ⟨entries, read, held⟩
  rcases journal with ⟨file, inner⟩
  cases operation with
  | openJournal =>
      simp only [Journal.step, Journal.openJournal, read]
      exact ⟨keeps, trivial⟩
  | appendIf still entry write =>
      cases inner with
      | none => exact ⟨keeps, trivial⟩
      | some inner =>
          cases still with
          | false => exact ⟨keeps, trivial⟩
          | true =>
              cases written : format.toText entry with
              | none =>
                  simp only [Journal.step, Journal.appendIf, Bool.not_true, Bool.false_eq_true, if_false, written]
                  exact ⟨keeps, trivial⟩
              | some text =>
                  cases write with
                  | synced =>
                      simp only [Journal.step, Journal.appendIf, Bool.not_true, Bool.false_eq_true, if_false, written]
                      exact ⟨keeps.acknowledge written (undisturbed rfl (by rw [written]; rfl)), trivial⟩
                  | cut count =>
                      simp only [Journal.step, Journal.appendIf, Bool.not_true, Bool.false_eq_true, if_false, written]
                      refine ⟨?_, trivial⟩
                      rcases Option.isSome_iff_exists.mp (undisturbed rfl text written) with ⟨left, decoded⟩
                      rw [eq_encodeUtf8_of_decodeUtf8 decoded]
                      exact keeps.append left
  | replay outcome =>
      cases inner with
      | none => exact ⟨keeps, trivial⟩
      | some inner =>
          simp only [Journal.step, Journal.replay, read]
          cases outcome with
          | applyFailed => exact ⟨keeps, held⟩
          | truncateFailed emptied =>
              cases emptied with
              | false => exact ⟨keeps, held⟩
              | true => exact ⟨keeps_empty format, held⟩
          | done => exact ⟨keeps_empty format, held⟩

theorem unsettled_cons (pending : List Entry) (answer : Answer) (rest : List Answer) :
    unsettled pending (answer :: rest) = unsettled (unsettled pending [answer]) rest := by
  cases answer with
  | replayed handed outcome =>
      cases outcome with
      | truncateFailed emptied => cases emptied <;> rfl
      | applyFailed => rfl
      | done => rfl
  | opened => rfl
  | openFailed => rfl
  | appended entry => rfl
  | recovered => rfl
  | appendFailed => rfl
  | unreadable => rfl
  | closed => rfl

/-- A whole history of undisturbed steps, from a file that keeps its entries. -/
theorem run_keeps {format : EntryFormat} {journal : Journal} {pending : List Entry} {operations : List Operation}
    (keeps : Keeps format journal.file pending) (undisturbed : AllUndisturbed format journal operations) :
    Keeps format (journal.run format operations).1.file (unsettled pending (journal.run format operations).2) ∧
      forall before answer after, (journal.run format operations).2 = before ++ answer :: after ->
        Faithful (unsettled pending before) answer := by
  induction operations generalizing journal pending with
  | nil =>
      refine ⟨keeps, ?_⟩
      intro before answer after split
      exact absurd split (List.append_ne_nil_of_right_ne_nil before (List.cons_ne_nil answer after)).symm
  | cons operation rest ih =>
      rcases step_keeps keeps undisturbed.1 with ⟨kept, faithful⟩
      rcases ih kept undisturbed.2 with ⟨held, later⟩
      simp only [Journal.run]
      refine ⟨?_, ?_⟩
      · rw [unsettled_cons]
        exact held
      · intro before answer after split
        cases before with
        | nil =>
            rw [List.nil_append] at split
            rw [← (List.cons.inj split).1]
            exact faithful
        | cons first more =>
            rw [List.cons_append] at split
            rcases List.cons.inj split with ⟨same, tail⟩
            rw [unsettled_cons, ← same]
            exact later more answer after tail

/-- The directory of a server that never journaled. -/
def Journal.fresh : Journal := ⟨[], none⟩

/-- Nothing acknowledged is lost in any history in which no append is
acknowledged behind the remains of another and no write breaks off inside a
character: what is unsettled is read back, every replay is handed it, and
neither a replay nor an open fails on the bytes of the file. -/
theorem acknowledged_kept (operations : List Operation) (undisturbed : AllUndisturbed format Journal.fresh operations) :
    (exists entries, readEntries format (Journal.fresh.run format operations).1.file = .ok entries ∧
      (unsettled [] (Journal.fresh.run format operations).2).Sublist entries) ∧
    forall before answer after, (Journal.fresh.run format operations).2 = before ++ answer :: after ->
      Faithful (unsettled [] before) answer := by
  rcases run_keeps (keeps_empty format) undisturbed with ⟨kept, faithful⟩
  exact ⟨kept.readEntries, faithful⟩

/-! ## An entry behind the remains of another -/

/-- The JSON line of a log entry without lines. -/
def emptyLogText (runId : String) : List Char :=
  ("\x7b\"kind\":\"log\",\"record\":\x7b\"run_id\":\"" ++ runId ++ "\",\"lines\":[]\x7d\x7d").toList

theorem printable_of_all {text : List Char} (checked : text.all (fun character => 32 ≤ character.toNat) = true) :
    forall character, character ∈ text -> 32 ≤ character.toNat := by
  intro character present
  exact of_decide_eq_true (List.all_eq_true.mp checked character present)

def sampleFormat : EntryFormat where
  toText
    | .log "a" [] => some (emptyLogText "a")
    | .log "b" [] => some (emptyLogText "b")
    | _ => none
  fromText text :=
    if text = emptyLogText "a" then some (.log "a" [])
    else if text = emptyLogText "b" then some (.log "b" []) else none
  reads_back := by
    intro entry text written
    split at written
    · cases written
      rw [if_pos rfl]
    · cases written
      rw [if_neg (by decide), if_pos rfl]
    · cases written
  opens := by
    intro entry text written
    split at written
    · cases written
      decide
    · cases written
      decide
    · cases written
  escaped := by
    intro entry text written
    split at written
    · cases written
      exact printable_of_all (by decide)
    · cases written
      exact printable_of_all (by decide)
    · cases written

theorem acknowledged_kept_torn :
    let operations : List Operation :=
      [.openJournal, .appendIf true (.log "a" []) .synced, .appendIf true (.log "b" []) (.cut 8), .openJournal,
        .replay .applyFailed]
    unsettled [] (Journal.fresh.run sampleFormat operations).2 = [.log "a" []] ∧
      exists entries, readEntries sampleFormat (Journal.fresh.run sampleFormat operations).1.file = .ok entries ∧
        [Entry.log "a" []].Sublist entries := by
  have torn : (encodeUtf8 (emptyLogText "b" ++ ['\n'])).take 8 = encodeUtf8 ((emptyLogText "b").take 8) := by
    decide
  have undisturbed : AllUndisturbed sampleFormat Journal.fresh
      [.openJournal, .appendIf true (.log "a" []) .synced, .appendIf true (.log "b" []) (.cut 8), .openJournal,
        .replay .applyFailed] := by
    refine ⟨trivial, ?_, ?_, trivial, trivial, trivial⟩
    · intro _ _
      exact Or.inl rfl
    · intro _ text written
      cases written
      rw [torn, decodeUtf8_encodeUtf8]
      rfl
  exact ⟨rfl, (acknowledged_kept sampleFormat _ undisturbed).1⟩

/-- A write that breaks off after eight bytes, and an append after it that is
acknowledged: the two share one line, which is not an entry. -/
theorem acknowledged_entry_lost :
    let operations : List Operation :=
      [.openJournal, .appendIf true (.log "a" []) (.cut 8), .appendIf true (.log "b" []) .synced]
    unsettled [] (Journal.fresh.run sampleFormat operations).2 = [.log "b" []] ∧
      readEntries sampleFormat (Journal.fresh.run sampleFormat operations).1.file = .ok [] := by
  constructor
  · rfl
  · have file : (Journal.fresh.run sampleFormat
        [.openJournal, .appendIf true (.log "a" []) (.cut 8), .appendIf true (.log "b" []) .synced]).1.file =
          encodeUtf8 ((emptyLogText "a").take 8 ++ emptyLogText "b" ++ ['\n']) := by
      decide
    rw [file, readEntries_encodeUtf8]
    rfl

end History
end FaucetStream
