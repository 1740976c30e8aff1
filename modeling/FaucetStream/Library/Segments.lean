import Mathlib.Data.List.Infix

namespace FaucetStream
namespace Library

/-!
# Segments between doubled marks

A text is cut at every two marks in a row, the leftmost first.  Whatever the
text, its segments behind their marks give it back.  A segment without two
marks in a row and without a mark at its end is found again in front of the
marks that follow it; a mark at its end would be taken for the first of them.
-/

variable {Symbol : Type} [DecidableEq Symbol] (mark : Symbol)

/-- One more symbol at the start of the first segment. -/
def prependFirst (symbol : Symbol) : List (List Symbol) -> List (List Symbol)
  | [] => [[symbol]]
  | segment :: others => (symbol :: segment) :: others

def splitDouble : List Symbol -> List (List Symbol)
  | [] => [[]]
  | [symbol] => [[symbol]]
  | first :: second :: rest =>
      if first = mark ∧ second = mark then [] :: splitDouble rest
      else prependFirst first (splitDouble (second :: rest))

/-- Every segment behind two marks. -/
def behindMarks (segments : List (List Symbol)) : List Symbol :=
  segments.flatMap (fun segment => mark :: mark :: segment)

omit [DecidableEq Symbol] in
theorem behindMarks_cons (segment : List Symbol) (rest : List (List Symbol)) :
    behindMarks mark (segment :: rest) = mark :: mark :: (segment ++ behindMarks mark rest) := by
  simp only [behindMarks, List.flatMap_cons, List.cons_append]

omit [DecidableEq Symbol] in
theorem behindMarks_append (front back : List (List Symbol)) :
    behindMarks mark (front ++ back) = behindMarks mark front ++ behindMarks mark back := by
  simp only [behindMarks, List.flatMap_append]

omit [DecidableEq Symbol] in
/-- The segments joined, behind two more marks. -/
theorem behindMarks_eq_intercalate {segments : List (List Symbol)} (nonempty : segments ≠ []) :
    behindMarks mark segments = mark :: mark :: [mark, mark].intercalate segments := by
  induction segments with
  | nil => exact absurd rfl nonempty
  | cons segment others ih =>
      cases others with
      | nil =>
          rw [behindMarks_cons, List.intercalate_singleton]
          exact congrArg (fun rest => mark :: mark :: rest) (List.append_nil _)
      | cons next tail =>
          rw [behindMarks_cons, ih (List.cons_ne_nil _ _), List.intercalate_cons_cons]
          simp only [List.append_assoc, List.cons_append, List.nil_append]

omit [DecidableEq Symbol] in
theorem behindMarks_prependFirst (symbol : Symbol) {segments : List (List Symbol)} {text : List Symbol}
    (given : behindMarks mark segments = mark :: mark :: text) :
    behindMarks mark (prependFirst symbol segments) = mark :: mark :: symbol :: text := by
  cases segments with
  | nil => cases given
  | cons segment others =>
      rw [behindMarks_cons] at given
      rw [prependFirst, behindMarks_cons, List.cons_append]
      have same : segment ++ behindMarks mark others = text := (List.cons.inj (List.cons.inj given).2).2
      rw [same]

/-- The segments give the text back. -/
theorem behindMarks_splitDouble (text : List Symbol) :
    behindMarks mark (splitDouble mark text) = mark :: mark :: text := by
  induction text using splitDouble.induct mark with
  | case1 => rfl
  | case2 symbol => rfl
  | case3 first second rest marks ih =>
      rw [splitDouble, if_pos marks, behindMarks_cons, ih, marks.1, marks.2]
      rfl
  | case4 first second rest noMarks ih =>
      rw [splitDouble, if_neg noMarks]
      exact behindMarks_prependFirst mark first ih

theorem splitDouble_ne_nil (text : List Symbol) : splitDouble mark text ≠ [] := by
  intro empty
  have whole := behindMarks_splitDouble mark text
  rw [empty] at whole
  cases whole

/-- No two marks in a row and no mark at the end. -/
def Closed (segment : List Symbol) : Prop :=
  ¬ [mark, mark] <:+: segment ∧ segment.getLast? ≠ some mark

omit [DecidableEq Symbol] in
theorem closed_of_not_mem {segment : List Symbol} (absent : mark ∉ segment) : Closed mark segment := by
  constructor
  · intro inside
    exact absent (inside.subset List.mem_cons_self)
  · intro last
    exact absent (List.mem_of_getLast? last)

variable {mark}

omit [DecidableEq Symbol] in
theorem Closed.tail {first second : Symbol} {rest : List Symbol} (closed : Closed mark (first :: second :: rest)) :
    Closed mark (second :: rest) ∧ ¬ (first = mark ∧ second = mark) := by
  refine ⟨⟨?_, ?_⟩, ?_⟩
  · intro inside
    exact closed.1 (inside.trans (List.suffix_cons first _).isInfix)
  · intro last
    apply closed.2
    rw [List.getLast?_cons_cons]
    exact last
  · rintro ⟨firstMark, secondMark⟩
    rw [firstMark, secondMark] at closed
    exact closed.1 (List.prefix_append [mark, mark] rest).isInfix

/-- A closed segment in front of two marks. -/
theorem splitDouble_append {segment : List Symbol} (closed : Closed mark segment) (rest : List Symbol) :
    splitDouble mark (segment ++ mark :: mark :: rest) = segment :: splitDouble mark rest := by
  induction segment with
  | nil =>
      rw [List.nil_append, splitDouble, if_pos ⟨rfl, rfl⟩]
  | cons first others ih =>
      cases others with
      | nil =>
          have noMark : first ≠ mark := fun same => closed.2 (by rw [same]; rfl)
          rw [List.singleton_append, splitDouble, if_neg (fun marks => noMark marks.1), splitDouble, if_pos ⟨rfl, rfl⟩,
            prependFirst]
      | cons second tail =>
          rcases closed.tail with ⟨shorter, noMarks⟩
          have next := ih shorter
          rw [List.cons_append] at next
          rw [List.cons_append, List.cons_append, splitDouble, if_neg noMarks, next, prependFirst]

/-- A closed segment alone. -/
theorem splitDouble_closed {segment : List Symbol} (closed : Closed mark segment) :
    splitDouble mark segment = [segment] := by
  induction segment with
  | nil => rfl
  | cons first others ih =>
      cases others with
      | nil => rfl
      | cons second tail =>
          rcases closed.tail with ⟨shorter, noMarks⟩
          rw [splitDouble, if_neg noMarks, ih shorter, prependFirst]

/-- Closed segments in front of a text. -/
theorem splitDouble_behindMarks {front : List (List Symbol)}
    (closed : forall segment, segment ∈ front -> Closed mark segment)
    {last text : List Symbol} (spelled : behindMarks mark front ++ mark :: mark :: last = mark :: mark :: text) :
    splitDouble mark text = front ++ splitDouble mark last := by
  induction front generalizing text with
  | nil => rw [(List.cons.inj (List.cons.inj spelled).2).2, List.nil_append]
  | cons segment others ih =>
      rw [behindMarks_cons, List.cons_append, List.cons_append, List.append_assoc] at spelled
      have text_eq := (List.cons.inj (List.cons.inj spelled).2).2
      have later : exists remaining, behindMarks mark others ++ mark :: mark :: last = mark :: mark :: remaining := by
        cases others with
        | nil => exact ⟨last, rfl⟩
        | cons next tail => exact ⟨_, by rw [behindMarks_cons]; rfl⟩
      rcases later with ⟨remaining, shape⟩
      have tail := ih (fun other member => closed other (List.mem_cons_of_mem _ member)) shape
      rw [← text_eq, shape, splitDouble_append (closed segment List.mem_cons_self), tail, List.cons_append]

end Library
end FaucetStream
