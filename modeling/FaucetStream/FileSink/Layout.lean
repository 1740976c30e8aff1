import Mathlib.Algebra.Ring.Nat
import Mathlib.Data.Char
import Mathlib.Data.List.Basic
import Mathlib.Data.List.Lex
import Mathlib.Tactic.Common

namespace FaucetStream
namespace FileSink

/-!
# File names of an output

An output is one file, or a set of files numbered where its template says
`{part}`.  A file that carries a number in that place belongs to the template,
however many digits the number has.
-/

def PART_TOKEN : List Char := ['\x7b', 'p', 'a', 'r', 't', '\x7d']

def PART_WIDTH : Nat := 5

/-- A configuration whose path has the token twice is refused. -/
structure NameTemplate where
  name : List Char
  single : forall pre post, name.dropInfix? PART_TOKEN = some (pre, post) -> post.dropInfix? PART_TOKEN = none

namespace NameTemplate

def numbered (template : NameTemplate) : Bool := (template.name.dropInfix? PART_TOKEN).isSome

/-- A part number of five digits, or more where it takes more. -/
def partDigits (part : Nat) : List Char := (Nat.toDigits 10 part).leftpad PART_WIDTH '0'

def fileName (template : NameTemplate) (part : Nat) : List Char :=
  match template.name.dropInfix? PART_TOKEN with
  | none => template.name
  | some (pre, post) => pre ++ (partDigits part ++ post)

/-- The number between what the template has before and after it. -/
def partOf (template : NameTemplate) (name : List Char) : Option Nat :=
  match template.name.dropInfix? PART_TOKEN with
  | none => if name = template.name then some 1 else none
  | some (pre, post) =>
      match (name.dropPrefix? pre).bind (fun rest => rest.dropSuffix? post) with
      | none => none
      | some digits =>
          if digits.isEmpty || !digits.all Char.isDigit then none
          else
            let part := Nat.ofDigitChars 10 digits 0
            if part < 2 ^ 64 then some part else none

/-- Part and name of the files that belong to the template, by part. -/
def select (template : NameTemplate) (names : List (List Char)) : List (Nat × List Char) :=
  (names.filterMap (fun name => (template.partOf name).map (fun part => (part, name)))).mergeSort
    (fun first second => first.1 < second.1 || (first.1 == second.1 && decide (first.2 ≤ second.2)))

theorem mem_select {template : NameTemplate} {names : List (List Char)} {part : Nat} {name : List Char} :
    (part, name) ∈ template.select names <-> name ∈ names ∧ template.partOf name = some part := by
  rw [select, List.mem_mergeSort, List.mem_filterMap]
  constructor
  · rintro ⟨found, among, selected⟩
    rcases Option.map_eq_some_iff.mp selected with ⟨number, carried, same⟩
    cases same
    exact ⟨among, carried⟩
  · rintro ⟨among, carried⟩
    exact ⟨name, among, by rw [carried]; rfl⟩

theorem isDigit_of_mem_partDigits {part : Nat} {character : Char} (member : character ∈ partDigits part) :
    character.isDigit = true := by
  rw [partDigits, List.leftpad, List.mem_append] at member
  rcases member with padding | digit
  · rw [List.eq_of_mem_replicate padding]
    rfl
  · exact Nat.isDigit_of_mem_toDigits (by decide) (by decide) digit

theorem partDigits_ne_nil (part : Nat) : partDigits part ≠ [] := by
  intro empty
  rw [partDigits, List.leftpad, List.append_eq_nil_iff] at empty
  exact Nat.toDigits_ne_nil empty.2

theorem ofDigitChars_partDigits (part : Nat) : Nat.ofDigitChars 10 (partDigits part) 0 = part := by
  rw [partDigits, List.leftpad, Nat.ofDigitChars_append, Nat.ofDigitChars_replicate_zero, Nat.mul_zero,
    Nat.ofDigitChars_ten_toDigits]

/-- The part a file carries under the template it was named by. -/
theorem partOf_fileName (template : NameTemplate) {part : Nat} (small : part < 2 ^ 64) :
    template.partOf (template.fileName part) = some (if template.numbered then part else 1) := by
  unfold partOf fileName numbered
  cases split : template.name.dropInfix? PART_TOKEN with
  | none => exact if_pos rfl
  | some parts =>
      rcases parts with ⟨pre, post⟩
      dsimp only
      have front : (pre ++ (partDigits part ++ post)).dropPrefix? pre = some (partDigits part ++ post) :=
        List.dropPrefix?_eq_some_iff.mpr ⟨pre, rfl, beq_self_eq_true pre⟩
      have back : (partDigits part ++ post).dropSuffix? post = some (partDigits part) :=
        List.dropSuffix?_eq_some_iff.mpr ⟨post, rfl, beq_self_eq_true post⟩
      have digits : (partDigits part).all Char.isDigit = true :=
        List.all_eq_true.mpr (fun _ member => isDigit_of_mem_partDigits member)
      have present : (partDigits part).isEmpty = false := by
        rw [List.isEmpty_eq_false_iff]
        exact partDigits_ne_nil part
      rw [front, Option.bind_some, back]
      dsimp only
      rw [digits, present, ofDigitChars_partDigits, if_pos small]
      rfl

end NameTemplate

end FileSink
end FaucetStream
