import Mathlib.Algebra.Ring.Nat
import Mathlib.Data.List.Infix

namespace FaucetStream
namespace FileFormat

/-!
# The cap on the length of a line

`LineCapped` counts the bytes since the last newline and looks at the count at
the end of every read.  A line that passes the cap and ends within one read is
counted no longer when the read ends.
-/

def newline : UInt8 := 10

/-- The largest `u64`. -/
def U64_MAX : Nat := 2 ^ 64 - 1

def saturatingAdd (first second : Nat) : Nat := min (first + second) U64_MAX

/-- The last position of an item that passes. -/
def rposition {A : Type} (holds : A -> Bool) : List A -> Option Nat
  | [] => none
  | item :: rest =>
      match rposition holds rest with
      | some index => some (index + 1)
      | none => if holds item then some 0 else none

/-- What one read adds to a buffer. -/
structure Chunk where
  bytes : List UInt8
  /-- A slice has a `usize` length. -/
  sized : bytes.length ≤ U64_MAX

/-- A reader whose lines are bounded. -/
structure LineCapped where
  sinceNewline : Nat
  max : UInt64

structure LineTooLong where
  max : UInt64
  deriving DecidableEq

def lineCapped (max : UInt64) : LineCapped := ⟨0, max⟩

namespace LineCapped

/-- One read of the inner reader that is ready. -/
def pollRead (reader : LineCapped) (fresh : Chunk) : Except LineTooLong LineCapped :=
  let since := match rposition (· == newline) fresh.bytes with
    | some index => fresh.bytes.length - index - 1
    | none => saturatingAdd reader.sinceNewline fresh.bytes.length
  if reader.max.toNat < since then .error ⟨reader.max⟩ else .ok { reader with sinceNewline := since }

def readToEnd (reader : LineCapped) (chunks : List Chunk) : Except LineTooLong LineCapped :=
  chunks.foldlM pollRead reader

end LineCapped

/-! ## Bytes since a newline -/

/-- The bytes of a stream that arrives in chunks. -/
def streamBytes (chunks : List Chunk) : List UInt8 := (chunks.map Chunk.bytes).flatten

def afterByte (count : Nat) (byte : UInt8) : Nat := if byte = newline then 0 else count + 1

/-- The bytes since the last newline after some more bytes. -/
def bytesSince (count : Nat) (bytes : List UInt8) : Nat := bytes.foldl afterByte count

/-- A line, its newline excluded, is longer than the cap. -/
def HasLongLine (max : UInt64) (bytes : List UInt8) : Prop :=
  exists line, line ∈ bytes.splitOn newline ∧ max.toNat < line.length

/-- A read ends further into a line than the cap. -/
def EndsInLongLine (max : UInt64) (chunks : List Chunk) : Prop :=
  exists front, front <+: chunks ∧ max.toNat < bytesSince 0 (streamBytes front)

/-- Reading to the end fails. -/
def Fails (max : UInt64) (chunks : List Chunk) : Prop := (lineCapped max).readToEnd chunks = .error ⟨max⟩

theorem bytesSince_append (count : Nat) (first second : List UInt8) :
    bytesSince count (first ++ second) = bytesSince (bytesSince count first) second := List.foldl_append

theorem streamBytes_append (first second : List Chunk) :
    streamBytes (first ++ second) = streamBytes first ++ streamBytes second := by
  unfold streamBytes
  rw [List.map_append, List.flatten_append]

theorem streamBytes_singleton (chunk : Chunk) : streamBytes [chunk] = chunk.bytes := by
  unfold streamBytes
  rw [List.map_singleton, List.flatten_singleton]

/-- What the last position says about the count. -/
theorem bytesSince_rposition (bytes : List UInt8) (count : Nat) :
    (forall index, rposition (· == newline) bytes = some index ->
      index < bytes.length ∧ bytesSince count bytes = bytes.length - index - 1) ∧
      (rposition (· == newline) bytes = none -> bytesSince count bytes = count + bytes.length) := by
  induction bytes generalizing count with
  | nil =>
      refine ⟨?_, fun _ => rfl⟩
      intro index impossible
      cases impossible
  | cons byte rest ih =>
      have later := ih (afterByte count byte)
      change _ ∧ (_ -> bytesSince (afterByte count byte) rest = _)
      rw [rposition]
      cases found : rposition (· == newline) rest with
      | some deeper =>
          rcases later.1 deeper found with ⟨inside, counted⟩
          refine ⟨?_, fun impossible => nomatch impossible⟩
          intro index same
          cases same
          rw [List.length_cons]
          refine ⟨Nat.succ_lt_succ inside, ?_⟩
          change bytesSince (afterByte count byte) rest = _
          rw [counted]
          omega
      | none =>
          have counted := later.2 found
          dsimp only
          by_cases ends : byte = newline
          · have passes : (byte == newline) = true := beq_iff_eq.mpr ends
            rw [if_pos passes]
            refine ⟨?_, fun impossible => nomatch impossible⟩
            intro index same
            cases same
            refine ⟨Nat.succ_pos _, ?_⟩
            change bytesSince (afterByte count byte) rest = _
            rw [counted, afterByte, if_pos ends, List.length_cons]
            omega
          · have other : ¬(byte == newline) = true := fun same => ends (beq_iff_eq.mp same)
            rw [if_neg other]
            refine ⟨(fun index impossible => nomatch impossible), fun _ => ?_⟩
            rw [counted, afterByte, if_neg ends, List.length_cons]
            omega

theorem bytesSince_le_of_rposition {bytes : List UInt8} {index : Nat}
    (found : rposition (· == newline) bytes = some index) (count : Nat) : bytesSince count bytes ≤ bytes.length := by
  rcases (bytesSince_rposition bytes count).1 index found with ⟨_, counted⟩
  omega

/-! ## Reading to the end -/

/-- The reader after some bytes. -/
def LineCapped.after (max : UInt64) (bytes : List UInt8) : LineCapped := ⟨min (bytesSince 0 bytes) U64_MAX, max⟩

theorem LineCapped.pollRead_after (max : UInt64) (bytes : List UInt8) (chunk : Chunk) :
    (LineCapped.after max bytes).pollRead chunk =
      if max.toNat < min (bytesSince 0 (bytes ++ chunk.bytes)) U64_MAX then .error ⟨max⟩
      else .ok (LineCapped.after max (bytes ++ chunk.bytes)) := by
  have counted := bytesSince_rposition chunk.bytes (bytesSince 0 bytes)
  unfold LineCapped.pollRead LineCapped.after
  rw [bytesSince_append]
  cases found : rposition (· == newline) chunk.bytes with
  | some index =>
      have short := le_trans (bytesSince_le_of_rposition found (bytesSince 0 bytes)) chunk.sized
      rw [min_eq_left short, (counted.1 index found).2]
  | none =>
      have since : saturatingAdd (min (bytesSince 0 bytes) U64_MAX) chunk.bytes.length =
          min (bytesSince (bytesSince 0 bytes) chunk.bytes) U64_MAX := by
        rw [counted.2 found]
        unfold saturatingAdd
        omega
      dsimp only
      rw [since]

theorem LineCapped.readToEnd_cons (reader : LineCapped) (chunk : Chunk) (chunks : List Chunk) :
    reader.readToEnd (chunk :: chunks) = (reader.pollRead chunk >>= fun next => next.readToEnd chunks) :=
  List.foldlM_cons

/-- Reading on fails when a read ends too far into a line. -/
theorem LineCapped.readToEnd_after (max : UInt64) (bytes : List UInt8) (chunks : List Chunk) :
    (LineCapped.after max bytes).readToEnd chunks = .error ⟨max⟩ <->
      exists front, front <+: chunks ∧ front ≠ [] ∧
        max.toNat < min (bytesSince 0 (bytes ++ streamBytes front)) U64_MAX := by
  induction chunks generalizing bytes with
  | nil =>
      constructor
      · intro impossible
        cases impossible
      · rintro ⟨front, before, nonempty, _⟩
        exact absurd (List.prefix_nil.mp before) nonempty
  | cons chunk chunks ih =>
      rw [LineCapped.readToEnd_cons, LineCapped.pollRead_after]
      have onward : forall front, streamBytes (chunk :: front) = chunk.bytes ++ streamBytes front := fun front => rfl
      split
      · next passed =>
          refine ⟨fun _ => ⟨[chunk], ?_, List.cons_ne_nil _ _, ?_⟩, fun _ => rfl⟩
          · exact List.prefix_append [chunk] chunks
          · rw [streamBytes_singleton]
            exact passed
      · next within =>
          change (LineCapped.after max (bytes ++ chunk.bytes)).readToEnd chunks = _ <-> _
          rw [ih]
          constructor
          · rintro ⟨front, before, _, passed⟩
            refine ⟨chunk :: front, List.cons_prefix_cons.mpr ⟨rfl, before⟩, List.cons_ne_nil _ _, ?_⟩
            rw [onward, ← List.append_assoc]
            exact passed
          · rintro ⟨front, before, nonempty, passed⟩
            rcases List.exists_cons_of_ne_nil nonempty with ⟨first, rest, rfl⟩
            rcases List.cons_prefix_cons.mp before with ⟨rfl, restBefore⟩
            rw [onward, ← List.append_assoc] at passed
            refine ⟨rest, restBefore, ?_, passed⟩
            rintro rfl
            rw [streamBytes, List.map_nil, List.flatten_nil, List.append_nil] at passed
            exact within passed

theorem fails_iff (max : UInt64) (chunks : List Chunk) :
    Fails max chunks <-> max.toNat < U64_MAX ∧ EndsInLongLine max chunks := by
  have starts : lineCapped max = LineCapped.after max [] := rfl
  unfold Fails
  rw [starts, LineCapped.readToEnd_after]
  constructor
  · rintro ⟨front, before, _, passed⟩
    rw [List.nil_append] at passed
    exact ⟨lt_of_lt_of_le passed (min_le_right _ _), front, before, lt_of_lt_of_le passed (min_le_left _ _)⟩
  · rintro ⟨counts, front, before, passed⟩
    refine ⟨front, before, ?_, ?_⟩
    · rintro rfl
      exact absurd passed (Nat.not_lt_zero _)
    · rw [List.nil_append]
      exact lt_min passed counts

/-! ## Long lines -/

/-- One of the lines is longer than a bound, the first together with the bytes
counted before it. -/
def LongAfter (bound count : Nat) : List (List UInt8) -> Prop
  | [] => False
  | first :: others => bound < count + first.length ∨ exists line, line ∈ others ∧ bound < line.length

theorem longAfter_zero_iff (bound : Nat) (lines : List (List UInt8)) :
    LongAfter bound 0 lines <-> exists line, line ∈ lines ∧ bound < line.length := by
  cases lines with
  | nil =>
      constructor
      · exact False.elim
      · rintro ⟨line, impossible, _⟩
        cases impossible
  | cons first others => simp [LongAfter]

/-- Some of the bytes end too far into a line just when a line is too long. -/
theorem exists_prefix_bytesSince_iff (bound count : Nat) (bytes : List UInt8) :
    (exists front, front <+: bytes ∧ bound < bytesSince count front) <->
      LongAfter bound count (bytes.splitOn newline) := by
  induction bytes generalizing count with
  | nil =>
      rw [List.splitOn_nil]
      constructor
      · rintro ⟨front, before, passed⟩
        rw [List.prefix_nil.mp before] at passed
        exact Or.inl passed
      · rintro (passed | ⟨line, impossible, _⟩)
        · exact ⟨[], List.prefix_refl _, passed⟩
        · cases impossible
  | cons byte rest ih =>
      have fronts : (exists front, front <+: byte :: rest ∧ bound < bytesSince count front) <->
          bound < count ∨ exists front, front <+: rest ∧ bound < bytesSince (afterByte count byte) front := by
        constructor
        · rintro ⟨front, before, passed⟩
          cases front with
          | nil => exact Or.inl passed
          | cons other front =>
              rcases List.cons_prefix_cons.mp before with ⟨rfl, restBefore⟩
              exact Or.inr ⟨front, restBefore, passed⟩
        · rintro (already | ⟨front, before, passed⟩)
          · exact ⟨[], List.nil_prefix, already⟩
          · exact ⟨byte :: front, List.cons_prefix_cons.mpr ⟨rfl, before⟩, passed⟩
      rw [fronts, ih, List.splitOn_cons_eq_if_modifyHead]
      unfold afterByte
      by_cases ends : byte = newline
      · rw [if_pos (beq_iff_eq.mpr ends), if_pos ends, longAfter_zero_iff]
        rfl
      · rw [if_neg (fun same => ends (beq_iff_eq.mp same)), if_neg ends]
        rcases List.exists_cons_of_ne_nil (List.splitOn_ne_nil newline rest) with ⟨first, others, split⟩
        rw [split]
        change bound < count ∨ (bound < count + 1 + first.length ∨ _) <->
          bound < count + (byte :: first).length ∨ _
        rw [List.length_cons, ← or_assoc]
        apply or_congr_left
        omega

theorem hasLongLine_iff (max : UInt64) (bytes : List UInt8) :
    HasLongLine max bytes <-> exists front, front <+: bytes ∧ max.toNat < bytesSince 0 front := by
  rw [exists_prefix_bytesSince_iff, longAfter_zero_iff]
  rfl

theorem hasLongLine_of_ends {max : UInt64} {chunks : List Chunk} (ends : EndsInLongLine max chunks) :
    HasLongLine max (streamBytes chunks) := by
  rcases ends with ⟨front, ⟨back, rfl⟩, passed⟩
  rw [hasLongLine_iff]
  refine ⟨streamBytes front, ?_, passed⟩
  rw [streamBytes_append]
  exact List.prefix_append _ _

/-- Two ways of reading a stream agree, with its long lines, just when a long line
is there at the end of a read in both, and the count can pass the cap. -/
theorem lineCapped_agrees_iff (max : UInt64) {first second : List Chunk}
    (same : streamBytes first = streamBytes second) :
    ((Fails max first <-> Fails max second) ∧ (Fails max first <-> HasLongLine max (streamBytes first))) <->
      (HasLongLine max (streamBytes first) ->
        max.toNat < U64_MAX ∧ EndsInLongLine max first ∧ EndsInLongLine max second) := by
  rw [fails_iff, fails_iff]
  constructor
  · rintro ⟨both, lines⟩ long
    have one := lines.mpr long
    exact ⟨one.1, one.2, (both.mp one).2⟩
  · intro shown
    have back : EndsInLongLine max second -> HasLongLine max (streamBytes first) := by
      intro ends
      rw [same]
      exact hasLongLine_of_ends ends
    refine ⟨⟨?_, ?_⟩, ⟨?_, ?_⟩⟩
    · rintro ⟨counts, ends⟩
      exact ⟨counts, (shown (hasLongLine_of_ends ends)).2.2⟩
    · rintro ⟨counts, ends⟩
      exact ⟨counts, (shown (back ends)).2.1⟩
    · rintro ⟨_, ends⟩
      exact hasLongLine_of_ends ends
    · intro long
      exact ⟨(shown long).1, (shown long).2.1⟩

def letters (count : Fin 5) (ended : Bool) : Chunk where
  bytes := List.replicate count.val 120 ++ (if ended then [newline] else [])
  sized := by
    revert count ended
    decide

/-- A line of four bytes is read past a cap of three both ways. -/
theorem lineCapped_agrees_iff_cut :
    (Fails 3 [letters 4 false, letters 0 true] <-> Fails 3 [letters 3 false, letters 1 false, letters 0 true]) ∧
      (Fails 3 [letters 4 false, letters 0 true] <->
        HasLongLine 3 (streamBytes [letters 4 false, letters 0 true])) := by
  have same : streamBytes [letters 4 false, letters 0 true] =
      streamBytes [letters 3 false, letters 1 false, letters 0 true] := by
    decide
  refine (lineCapped_agrees_iff 3 same).mpr (fun _ => ⟨by decide, ?_, ?_⟩)
  · exact ⟨[letters 4 false], List.prefix_append _ [letters 0 true], by decide⟩
  · exact ⟨[letters 3 false, letters 1 false], List.prefix_append _ [letters 0 true], by decide⟩

/-- The same line is not noticed when it is read with its newline. -/
theorem wholeLine_passes :
    streamBytes [letters 4 true] = streamBytes [letters 4 false, letters 0 true] ∧
      HasLongLine 3 (streamBytes [letters 4 true]) ∧ ¬Fails 3 [letters 4 true] ∧
      Fails 3 [letters 4 false, letters 0 true] := by
  have same : streamBytes [letters 4 true] = streamBytes [letters 4 false, letters 0 true] := by
    decide
  have ends : EndsInLongLine 3 [letters 4 false, letters 0 true] :=
    ⟨[letters 4 false], List.prefix_append _ [letters 0 true], by decide⟩
  refine ⟨same, ?_, ?_, ?_⟩
  · rw [same]
    exact hasLongLine_of_ends ends
  · intro fails
    cases fails
  · exact (fails_iff 3 _).mpr ⟨by decide, ends⟩

end FileFormat
end FaucetStream
