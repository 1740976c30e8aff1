import Mathlib.Data.List.Basic
import Mathlib.Tactic.Common

namespace FaucetStream
namespace Library

/-!
# Files of terminated lines

A file is a list of bytes; its complete lines are those that end in the
separator.  A writer may be in the middle of the last line, which is then left
out.  Reading on from the end of a line gives the lines after it.
-/

universe u

variable {A : Type u} [DecidableEq A] {separator : A}

/-- The complete lines, each with its separator, after what was already read of
the first. -/
def linesFrom (separator : A) (current : List A) : List A -> List (List A)
  | [] => []
  | byte :: rest =>
      if byte = separator then (current ++ [byte]) :: linesFrom separator [] rest
      else linesFrom separator (current ++ [byte]) rest

def completeLines (separator : A) (bytes : List A) : List (List A) := linesFrom separator [] bytes

theorem linesFrom_terminated {line : List A} (clean : separator ∉ line) (current rest : List A) :
    linesFrom separator current (line ++ separator :: rest) =
      (current ++ line ++ [separator]) :: linesFrom separator [] rest := by
  induction line generalizing current with
  | nil =>
      rw [List.nil_append, linesFrom, if_pos rfl, List.append_nil]
  | cons byte line ih =>
      rw [List.mem_cons, not_or] at clean
      rw [List.cons_append, linesFrom, if_neg (fun same => clean.1 same.symm), ih clean.2]
      simp

/-- Whole lines one after the other read back as they were written. -/
theorem completeLines_flatten {lines : List (List A)} (clean : forall line, line ∈ lines -> separator ∉ line) :
    completeLines separator (lines.map (fun line => line ++ [separator])).flatten =
      lines.map (fun line => line ++ [separator]) := by
  rw [completeLines]
  induction lines with
  | nil => rfl
  | cons line lines ih =>
      rw [List.map_cons, List.flatten_cons, List.append_assoc, List.singleton_append,
        linesFrom_terminated (clean line List.mem_cons_self),
        ih (fun other member => clean other (List.mem_cons_of_mem line member))]
      rfl

theorem linesFrom_length_le (current bytes : List A) :
    (linesFrom separator current bytes).flatten.length ≤ current.length + bytes.length := by
  induction bytes generalizing current with
  | nil => exact Nat.zero_le _
  | cons byte rest ih =>
      rw [linesFrom]
      split
      · have shorter := ih []
        rw [List.flatten_cons, List.length_append, List.length_append, List.length_cons, List.length_cons,
          List.length_nil]
        rw [List.length_nil] at shorter
        omega
      · have shorter := ih (current ++ [byte])
        rw [List.length_append, List.length_singleton] at shorter
        rw [List.length_cons]
        omega

theorem completeLines_length_le (bytes : List A) :
    (completeLines separator bytes).flatten.length ≤ bytes.length := by
  have shorter : (linesFrom separator [] bytes).flatten.length ≤ [].length + bytes.length :=
    linesFrom_length_le [] bytes
  rw [List.length_nil, Nat.zero_add] at shorter
  exact shorter

theorem linesFrom_ne_nil {current bytes line : List A} (member : line ∈ linesFrom separator current bytes) :
    line ≠ [] := by
  induction bytes generalizing current with
  | nil => cases member
  | cons byte rest ih =>
      rw [linesFrom] at member
      split at member
      · rcases List.mem_cons.mp member with rfl | later
        · simp
        · exact ih later
      · exact ih member

/-! ## An unterminated last line -/

/-- Every line, the last one also when it has no separator yet. -/
def everyFrom (separator : A) (current : List A) : List A -> List (List A)
  | [] => if current = [] then [] else [current]
  | byte :: rest =>
      if byte = separator then (current ++ [byte]) :: everyFrom separator [] rest
      else everyFrom separator (current ++ [byte]) rest

def everyLine (separator : A) (bytes : List A) : List (List A) := everyFrom separator [] bytes

theorem everyFrom_separator (separator : A) (current rest : List A) :
    everyFrom separator current (separator :: rest) = (current ++ [separator]) :: everyFrom separator [] rest := by
  rw [everyFrom, if_pos rfl]

theorem everyFrom_append_clean {line : List A} (clean : separator ∉ line) (current rest : List A) :
    everyFrom separator current (line ++ rest) = everyFrom separator (current ++ line) rest := by
  induction line generalizing current with
  | nil => rw [List.nil_append, List.append_nil]
  | cons byte line ih =>
      rw [List.mem_cons, not_or] at clean
      rw [List.cons_append, everyFrom, if_neg (fun same => clean.1 same.symm), ih clean.2,
        List.append_assoc, List.singleton_append]

/-- The lines of a file are the file. -/
theorem everyFrom_flatten (current bytes : List A) :
    (everyFrom separator current bytes).flatten = current ++ bytes := by
  induction bytes generalizing current with
  | nil =>
      rw [everyFrom]
      split
      · next empty =>
        rw [empty]
        rfl
      · rw [List.flatten_singleton, List.append_nil]
  | cons byte rest ih =>
      rw [everyFrom]
      split
      · rw [List.flatten_cons, ih, List.append_assoc, List.singleton_append, List.nil_append]
      · rw [ih, List.append_assoc, List.singleton_append]

/-- The complete lines come first. -/
theorem linesFrom_prefix_everyFrom (current bytes : List A) :
    linesFrom separator current bytes <+: everyFrom separator current bytes := by
  induction bytes generalizing current with
  | nil => exact List.nil_prefix
  | cons byte rest ih =>
      rw [linesFrom, everyFrom]
      split
      · exact (List.prefix_cons_inj _).mpr (ih [])
      · exact ih (current ++ [byte])

/-- Complete lines stay when more is written. -/
theorem linesFrom_prefix_append (current bytes more : List A) :
    linesFrom separator current bytes <+: linesFrom separator current (bytes ++ more) := by
  induction bytes generalizing current with
  | nil => exact List.nil_prefix
  | cons byte rest ih =>
      rw [List.cons_append, linesFrom, linesFrom]
      split
      · exact (List.prefix_cons_inj _).mpr (ih [])
      · exact ih (current ++ [byte])

/-- After a separator reading starts afresh. -/
theorem linesFrom_append_of_terminated (current bytes more : List A) :
    linesFrom separator current (bytes ++ separator :: more) =
      linesFrom separator current (bytes ++ [separator]) ++ linesFrom separator [] more := by
  induction bytes generalizing current with
  | nil =>
      rw [List.nil_append, List.nil_append, linesFrom, if_pos rfl, linesFrom, if_pos rfl, linesFrom,
        List.singleton_append]
  | cons byte rest ih =>
      rw [List.cons_append, List.cons_append, linesFrom, linesFrom]
      split
      · rw [ih [], List.cons_append]
      · exact ih (current ++ [byte])

end Library
end FaucetStream
