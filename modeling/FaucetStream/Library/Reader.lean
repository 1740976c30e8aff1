import Mathlib.Algebra.Ring.Nat
import Mathlib.Data.List.Basic

namespace FaucetStream
namespace Library

/-!
# Readers of a sequence

A reader takes what it needs from the front of its input and hands on the rest,
or it fails.  It reads a piece of input as a value when it takes exactly that
piece, whatever follows, and fails when the piece breaks off early.  Readers
that do so one after the other do so together.
-/

/-- Readers of symbols that fail with errors. -/
abbrev Reader (symbol error : Type) := StateT (List symbol) (Except error)

variable {symbol error : Type} {first second : Type}

/-- A reader takes exactly a piece and reads it as a value.  Of a piece that
breaks off it makes nothing. -/
structure Reads (reader : Reader symbol error first) (piece : List symbol) (value : first) : Prop where
  whole : forall trailing, reader (piece ++ trailing) = .ok (value, trailing)
  broken : forall front back, piece = front ++ back -> back ≠ [] -> exists cause, reader front = .error cause

namespace Reads

variable {reader : Reader symbol error first} {next : first -> Reader symbol error second}
variable {piece left right : List symbol} {value : first} {result : second}

protected theorem pure (value : first) : Reads (pure value : Reader symbol error first) [] value := by
  constructor
  · intro trailing
    rfl
  · intro front back split nonempty
    exact absurd (List.append_eq_nil_iff.mp split.symm).2 nonempty

theorem bind_whole (reads : Reads reader piece value) (trailing : List symbol) :
    (reader >>= next) (piece ++ trailing) = next value trailing := by
  change (reader (piece ++ trailing) >>= fun pair => next pair.1 pair.2) = _
  rw [reads.whole]
  rfl

theorem bind_broken {front : List symbol} {cause : error} (failed : reader front = .error cause) :
    (reader >>= next) front = .error cause := by
  change (reader front >>= fun pair => next pair.1 pair.2) = _
  rw [failed]
  rfl

/-- One piece after the other. -/
protected theorem bind (reads : Reads reader left value) (continues : Reads (next value) right result) :
    Reads (reader >>= next) (left ++ right) result := by
  constructor
  · intro trailing
    rw [List.append_assoc, reads.bind_whole, continues.whole]
  · intro front back split nonempty
    -- the input ends inside the second piece, or inside the first one
    rcases List.append_eq_append_iff.mp split with ⟨more, rfl, rfl⟩ | ⟨more, rfl, rfl⟩
    · rw [reads.bind_whole]
      exact continues.broken more back rfl nonempty
    · by_cases finished : more = []
      · subst finished
        have ended : (reader >>= next) (front ++ [] ++ []) = next value [] := reads.bind_whole []
        rw [List.append_nil, List.append_nil] at ended
        rw [ended]
        exact continues.broken [] right rfl nonempty
      · rcases reads.broken front more rfl finished with ⟨cause, failed⟩
        exact ⟨cause, bind_broken failed⟩

/-- A last step that reads nothing. -/
theorem finish (reads : Reads reader piece value) (finishes : Reads (next value) [] result) :
    Reads (reader >>= next) piece result := by
  rw [← List.append_nil piece]
  exact reads.bind finishes

theorem then_pure {last : first -> second} (reads : Reads reader piece value) :
    Reads (reader >>= fun value => pure (last value)) piece (last value) :=
  reads.finish (Reads.pure (last value))

theorem map {convert : first -> second} (reads : Reads reader piece value) :
    Reads (convert <$> reader) piece (convert value) := by
  have mapped : Reads (reader >>= fun value => pure (convert value)) piece (convert value) := reads.then_pure
  rw [bind_pure_comp] at mapped
  exact mapped

theorem lift_ok (value : first) : Reads (StateT.lift (.ok value) : Reader symbol error first) [] value :=
  Reads.pure value

end Reads

namespace Reader

/-- The next symbols, of which there must be as many as asked for. -/
def exactly (count : Nat) (cause : error) : Reader symbol error (List symbol) := fun input =>
  if input.length < count then .error cause
  else .ok (input.take count, input.drop count)

/-- The symbols up to a stop, which is taken too. -/
def untilStop [BEq symbol] (stop : symbol) (cause : error) (taken : List symbol) :
    List symbol -> Except error (List symbol × List symbol)
  | [] => .error cause
  | next :: rest =>
      if next == stop then .ok (taken, rest)
      else untilStop stop cause (taken ++ [next]) rest

/-- How much there is left to read. -/
def remaining : Reader symbol error Nat := fun input => .ok (input.length, input)

/-- The same reader a number of times. -/
def times (reader : Reader symbol error first) : Nat -> Reader symbol error (List first)
  | 0 => pure []
  | count + 1 => do
      let value ← reader
      let values ← times reader count
      pure (value :: values)

end Reader

namespace Reads

theorem exactly (piece : List symbol) (cause : error) : Reads (Reader.exactly piece.length cause) piece piece := by
  constructor
  · intro trailing
    unfold Reader.exactly
    rw [List.length_append, if_neg (by omega), List.take_left, List.drop_left]
  · rintro front back rfl nonempty
    refine ⟨cause, ?_⟩
    have positive := List.length_pos_iff.mpr nonempty
    unfold Reader.exactly
    rw [List.length_append, if_pos (by omega)]

theorem untilStop_append [BEq symbol] [LawfulBEq symbol] {stop : symbol} {piece : List symbol}
    (absent : stop ∉ piece) (cause : error) (taken trailing : List symbol) :
    Reader.untilStop stop cause taken (piece ++ trailing) = Reader.untilStop stop cause (taken ++ piece) trailing := by
  induction piece generalizing taken with
  | nil => rw [List.nil_append, List.append_nil]
  | cons next rest ih =>
      have other : ¬(next == stop) = true := by
        intro same
        exact absent (eq_of_beq same ▸ List.mem_cons_self)
      rw [List.cons_append, Reader.untilStop, if_neg other,
        ih (fun member => absent (List.mem_cons_of_mem next member)), List.append_assoc,
        List.singleton_append]

theorem untilStop [BEq symbol] [LawfulBEq symbol] {stop : symbol} {piece : List symbol} (absent : stop ∉ piece)
    (cause : error) : Reads (Reader.untilStop stop cause []) (piece ++ [stop]) piece := by
  constructor
  · intro trailing
    rw [List.append_assoc, untilStop_append absent, List.singleton_append, Reader.untilStop, if_pos (BEq.rfl),
      List.nil_append]
  · intro front back split nonempty
    refine ⟨cause, ?_⟩
    -- what is left of the piece does not reach the stop
    have inside : exists more, piece = front ++ more := by
      rcases List.append_eq_append_iff.mp split with ⟨more, rfl, ending⟩ | ⟨more, rfl, _⟩
      · rcases List.append_eq_singleton_iff.mp ending.symm with ⟨rfl, rfl⟩ | ⟨rfl, rfl⟩
        · exact ⟨[], by rw [List.append_nil, List.append_nil]⟩
        · exact absurd rfl nonempty
      · exact ⟨more, rfl⟩
    rcases inside with ⟨more, rfl⟩
    have clean : stop ∉ front := fun member => absent (List.mem_append_left more member)
    have ended := untilStop_append clean cause [] []
    rw [List.append_nil] at ended
    rw [ended]
    rfl

/-- A bound on what is left changes nothing where it holds of the piece. -/
theorem limited {reader : Reader symbol error first} {piece : List symbol} {value : first} {need : Nat}
    {cause : Nat -> error} (reads : Reads reader piece value) (fits : need ≤ piece.length) :
    Reads (do
      let left ← Reader.remaining
      if need > left then throw (cause left) else reader) piece value := by
  have unfolded : forall input, (do
      let left ← Reader.remaining
      if need > left then throw (cause left) else reader : Reader symbol error first) input =
        if need > input.length then .error (cause input.length) else reader input := by
    intro input
    change (if need > input.length then throw (cause input.length) else reader : Reader symbol error first) input = _
    split
    · rfl
    · rfl
  constructor
  · intro trailing
    rw [unfolded, List.length_append, if_neg (by omega), reads.whole]
  · intro front back split nonempty
    rw [unfolded]
    by_cases short : need > front.length
    · exact ⟨_, if_pos short⟩
    · rw [if_neg short]
      exact reads.broken front back split nonempty

/-- As many pieces as the reader is asked for. -/
theorem times {reader : Reader symbol error first} {encode : first -> List symbol} {values : List first}
    (reads : forall value, value ∈ values -> Reads reader (encode value) value) :
    Reads (reader.times values.length) (values.flatMap encode) values := by
  induction values with
  | nil => exact Reads.pure []
  | cons value rest ih =>
      have tail := ih (fun other member => reads other (List.mem_cons_of_mem value member))
      rw [List.flatMap_cons]
      exact (reads value List.mem_cons_self).bind tail.then_pure

end Reads

/-! ## Numbers as bytes, the greatest first -/

def bigEndian : Nat -> Nat -> List UInt8
  | 0, _ => []
  | width + 1, value => bigEndian width (value / 256) ++ [UInt8.ofNat value]

def fromBigEndian (bytes : List UInt8) : Nat := bytes.foldl (fun total byte => total * 256 + byte.toNat) 0

@[simp]
theorem length_bigEndian (width value : Nat) : (bigEndian width value).length = width := by
  induction width generalizing value with
  | zero => rfl
  | succ width ih => rw [bigEndian, List.length_append, ih, List.length_singleton]

theorem fromBigEndian_append (bytes : List UInt8) (last : UInt8) :
    fromBigEndian (bytes ++ [last]) = fromBigEndian bytes * 256 + last.toNat := by
  unfold fromBigEndian
  rw [List.foldl_append]
  rfl

theorem fromBigEndian_bigEndian {width value : Nat} (fits : value < 256 ^ width) :
    fromBigEndian (bigEndian width value) = value := by
  induction width generalizing value with
  | zero =>
      have zero : value = 0 := Nat.lt_one_iff.mp fits
      rw [zero]
      rfl
  | succ width ih =>
      have smaller : value / 256 < 256 ^ width := Nat.div_lt_of_lt_mul (by rw [Nat.pow_succ'] at fits; exact fits)
      rw [bigEndian, fromBigEndian_append, ih smaller, UInt8.toNat_ofNat']
      exact Nat.div_add_mod' value 256

end Library
end FaucetStream
