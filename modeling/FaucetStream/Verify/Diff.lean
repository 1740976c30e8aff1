import FaucetStream.Library.Slots
import FaucetStream.Library.Tally
import FaucetStream.Verify.RowText

namespace FaucetStream
namespace Verify

open Json
open Library

/-!
# Differences of two ranges

Rows of the two sides are matched by the text of their key.  A key that a side
holds more than once is reported and not matched.  What is reported for a key
depends on the rows with that key alone: the bookkeeping of the loop comes down
to one verdict for each key text.

The text of a composite key is not escaped.  Rows of different keys can share
it, and are then matched with each other or reported as duplicates.
-/

inductive Side where
  | source
  | destination
  deriving DecidableEq

inductive DifferenceKind where
  | missingInDest
  | extraInDest
  | changed (columns : List String)
  | duplicate (side : Side) (count : Nat)
  deriving DecidableEq

structure Difference where
  key : Value
  kind : DifferenceKind
  deriving DecidableEq

/-- The state of the loop over the source. -/
structure Diffing where
  /-- The destination rows by key, less those that were looked up. -/
  byKey : List (List Char × Nat × Value)
  reported : List (List Char)
  out : List (List Char × Difference)

namespace RowSpec

variable (readers : Readers) (spec : RowSpec)

def keyObject (record : Value) : Value :=
  .object (assignAll [] (spec.key.map (fun column => (column, (record.get column).getD .null))))

/-- How many rows a table counts under a key. -/
def countOf (table : List (List Char × Nat × Value)) (text : List Char) : Nat :=
  ((table.lookup text).map Prod.fst).getD 0

/-- `HashMap::remove`, without what it returns. -/
def removeText (table : List (List Char × Nat × Value)) (text : List Char) : List (List Char × Nat × Value) :=
  table.filter (fun entry => entry.1 != text)

/-- One row of the source. -/
def diffSource (counts : List (List Char × Nat × Value)) (state : Diffing) (row : Value) : Diffing :=
  let text := spec.keyText readers row
  let count := countOf counts text
  let report := fun kind => state.out ++ [(text, ⟨spec.keyObject row, kind⟩)]
  if 1 < count then
    if text ∈ state.reported then state
    else ⟨removeText state.byKey text, text :: state.reported, report (.duplicate .source count)⟩
  else
    let byKey := removeText state.byKey text
    match state.byKey.lookup text with
    | none => ⟨byKey, state.reported, report .missingInDest⟩
    | some (count, other) =>
        if 1 < count then ⟨byKey, state.reported, report (.duplicate .destination count)⟩
        else
          let columns := spec.changedColumns readers row other
          if columns.isEmpty then ⟨byKey, state.reported, state.out⟩
          else ⟨byKey, state.reported, report (.changed columns)⟩

/-- A destination row the source did not claim. -/
def leftover (entry : List Char × Nat × Value) : List Char × Difference :=
  (entry.1, ⟨spec.keyObject entry.2.2,
    if 1 < entry.2.1 then .duplicate .destination entry.2.1 else .extraInDest⟩)

def diffTexts (source dest : List Value) : List (List Char × Difference) :=
  let counts := tallyAll (spec.keyText readers) source
  let looped := source.foldl (spec.diffSource readers counts) ⟨tallyAll (spec.keyText readers) dest, [], []⟩
  looped.out ++ looped.byKey.map spec.leftover

def diffRows (source dest : List Value) : List Difference :=
  ((spec.diffTexts readers source dest).insertionSort (fun left right => left.1 ≤ right.1)).map Prod.snd

/-! ## One verdict for each key -/

/-- What is reported for a key, from the rows of the two sides that have
it. -/
def verdict : (sources dests : List Value) -> Option Difference
  | [], [] => none
  | [], first :: others =>
      some ⟨spec.keyObject first, if others.isEmpty then .extraInDest else .duplicate .destination (others.length + 1)⟩
  | [row], [] => some ⟨spec.keyObject row, .missingInDest⟩
  | [row], [other] =>
      if (spec.changedColumns readers row other).isEmpty then none
      else some ⟨spec.keyObject row, .changed (spec.changedColumns readers row other)⟩
  | [row], _ :: others => some ⟨spec.keyObject row, .duplicate .destination (others.length + 1)⟩
  | first :: others, _ => some ⟨spec.keyObject first, .duplicate .source (others.length + 1)⟩

/-- The rows with a key text. -/
def under (rows : List Value) (text : List Char) : List Value :=
  rows.filter (fun row => spec.keyText readers row = text)

theorem mem_under {rows : List Value} {text : List Char} {row : Value} :
    row ∈ spec.under readers rows text <-> row ∈ rows ∧ spec.keyText readers row = text := by
  rw [under, List.mem_filter, decide_eq_true_iff]

theorem under_eq_nil_iff (rows : List Value) (text : List Char) :
    spec.under readers rows text = [] <-> text ∉ rows.map (spec.keyText readers) := by
  rw [under, List.filter_eq_nil_iff, List.mem_map]
  constructor
  · rintro absent ⟨row, member, same⟩
    exact absent row member (decide_eq_true same)
  · intro absent row member same
    exact absent ⟨row, member, of_decide_eq_true same⟩

theorem lookup_tally_under (rows : List Value) (text : List Char) :
    (tallyAll (spec.keyText readers) rows).lookup text = summary (spec.under readers rows text) :=
  lookup_tallyAll (spec.keyText readers) rows text

theorem countOf_tally (rows : List Value) (text : List Char) :
    countOf (tallyAll (spec.keyText readers) rows) text = (spec.under readers rows text).length := by
  rw [countOf, lookup_tally_under]
  cases spec.under readers rows text with
  | nil => rfl
  | cons first others => rfl

/-! ## The loop over the source -/

theorem lookup_filter (table : List (List Char × Nat × Value)) (keeps : List Char -> Bool) (text : List Char) :
    (table.filter (fun entry => keeps entry.1)).lookup text =
      if keeps text then table.lookup text else none := by
  induction table with
  | nil => simp only [List.filter_nil, List.lookup_nil, ite_self]
  | cons entry rest ih =>
      rcases entry with ⟨name, count, row⟩
      rw [List.filter_cons]
      by_cases same : text = name
      · subst same
        cases kept : keeps text with
        | true => simp only [if_true, List.lookup_cons, beq_self_eq_true]
        | false =>
            rw [kept] at ih
            simpa using ih
      · have skipped : (text == name) = false := beq_eq_false_iff_ne.mpr same
        cases keeps name with
        | true => simp only [if_true, List.lookup_cons, skipped, ih]
        | false => simp only [Bool.false_eq_true, if_false, List.lookup_cons, skipped, ih]

/-- One more key settled: what its verdict reports joins the list. -/
theorem mem_append_verdict {out : List (List Char × Difference)} {settled : List (List Char)}
    {judge : List Char -> Option Difference}
    (kept : forall text difference, (text, difference) ∈ out <-> text ∈ settled ∧ judge text = some difference)
    (current : List Char) (text : List Char) (difference : Difference) :
    (text, difference) ∈ out ++ ((judge current).map (fun found => (current, found))).toList <->
      text ∈ settled ++ [current] ∧ judge text = some difference := by
  rw [List.mem_append, kept, List.mem_append, List.mem_singleton, or_and_right, Option.mem_toList,
    Option.map_eq_some_iff]
  apply or_congr Iff.rfl
  constructor
  · rintro ⟨found, judged, same⟩
    cases same
    exact ⟨rfl, judged⟩
  · rintro ⟨rfl, judged⟩
    exact ⟨difference, judged, rfl⟩

/-- The state of the loop once part of the source is done: the destination
rows no row has claimed, the repeated keys met so far, and the verdicts of the
keys met so far. -/
structure Diffed (source dest settled : List Value) (state : Diffing) : Prop where
  byKey : state.byKey = (tallyAll (spec.keyText readers) dest).filter (fun entry =>
    decide (entry.1 ∉ settled.map (spec.keyText readers)))
  reported : forall text, text ∈ state.reported <->
    text ∈ settled.map (spec.keyText readers) ∧ 1 < (spec.under readers source text).length
  out : forall text difference, (text, difference) ∈ state.out <->
    text ∈ settled.map (spec.keyText readers) ∧
      spec.verdict readers (spec.under readers source text) (spec.under readers dest text) = some difference

section Step

variable {source dest settled rest : List Value} {row : Value}

theorem under_of_new (split : source = settled ++ row :: rest)
    (new : spec.keyText readers row ∉ settled.map (spec.keyText readers)) :
    spec.under readers source (spec.keyText readers row) =
      row :: spec.under readers rest (spec.keyText readers row) := by
  have before : spec.under readers settled (spec.keyText readers row) = [] :=
    (spec.under_eq_nil_iff readers settled _).mpr new
  unfold under at before ⊢
  rw [split, List.filter_append, before, List.nil_append, List.filter_cons, if_pos (decide_eq_true rfl)]

theorem two_under_of_old (split : source = settled ++ row :: rest)
    (old : spec.keyText readers row ∈ settled.map (spec.keyText readers)) :
    1 < (spec.under readers source (spec.keyText readers row)).length := by
  have before : spec.under readers settled (spec.keyText readers row) ≠ [] := by
    intro empty
    exact (spec.under_eq_nil_iff readers settled _).mp empty old
  have positive := List.length_pos_of_ne_nil before
  unfold under at positive ⊢
  rw [split, List.filter_append, List.filter_cons, if_pos (decide_eq_true rfl), List.length_append, List.length_cons]
  omega

/-- The table less one more key. -/
theorem removeText_byKey {state : Diffing} (diffed : spec.Diffed readers source dest settled state) (row : Value) :
    removeText state.byKey (spec.keyText readers row) =
      (tallyAll (spec.keyText readers) dest).filter (fun entry =>
        decide (entry.1 ∉ (settled ++ [row]).map (spec.keyText readers))) := by
  rw [removeText, diffed.byKey, List.filter_filter]
  apply List.filter_congr
  intro entry _
  rw [List.map_append, List.map_singleton, Bool.eq_iff_iff, Bool.and_eq_true, bne_iff_ne, decide_eq_true_iff,
    decide_eq_true_iff, List.mem_append, List.mem_singleton, not_or, and_comm]

theorem diffed_step {state : Diffing} (split : source = settled ++ row :: rest)
    (diffed : spec.Diffed readers source dest settled state) :
    spec.Diffed readers source dest (settled ++ [row])
      (spec.diffSource readers (tallyAll (spec.keyText readers) source) state row) := by
  have texts : (settled ++ [row]).map (spec.keyText readers) =
      settled.map (spec.keyText readers) ++ [spec.keyText readers row] := by
    rw [List.map_append, List.map_singleton]
  have removed := spec.removeText_byKey readers diffed row
  unfold diffSource
  simp only [countOf_tally]
  by_cases repeated : 1 < (spec.under readers source (spec.keyText readers row)).length
  · rw [if_pos repeated]
    by_cases known : spec.keyText readers row ∈ state.reported
    · -- A repeat of a key that is reported already changes nothing.
      rw [if_pos known]
      have old := ((diffed.reported _).mp known).1
      have same : forall text, text ∈ (settled ++ [row]).map (spec.keyText readers) <->
          text ∈ settled.map (spec.keyText readers) := by
        intro text
        rw [texts, List.mem_append, List.mem_singleton]
        exact ⟨fun place => place.elim id (fun here => here ▸ old), Or.inl⟩
      refine ⟨?_, ?_, ?_⟩
      · rw [diffed.byKey]
        apply List.filter_congr
        intro entry _
        rw [decide_eq_decide, same]
      · intro text
        rw [same, diffed.reported]
      · intro text difference
        rw [same, diffed.out]
    · rw [if_neg known]
      have new : spec.keyText readers row ∉ settled.map (spec.keyText readers) := by
        intro old
        exact known ((diffed.reported _).mpr ⟨old, repeated⟩)
      have rows := spec.under_of_new readers split new
      have judged : spec.verdict readers (spec.under readers source (spec.keyText readers row))
          (spec.under readers dest (spec.keyText readers row)) = some ⟨spec.keyObject row,
            .duplicate .source (spec.under readers source (spec.keyText readers row)).length⟩ := by
        rw [rows] at repeated ⊢
        cases others : spec.under readers rest (spec.keyText readers row) with
        | nil =>
            rw [others] at repeated
            exact absurd repeated (Nat.lt_irrefl 1)
        | cons second more => rfl
      refine ⟨removed, ?_, ?_⟩
      · intro text
        rw [List.mem_cons, diffed.reported, texts, List.mem_append, List.mem_singleton]
        constructor
        · rintro (here | ⟨old, several⟩)
          · exact ⟨Or.inr here, here ▸ repeated⟩
          · exact ⟨Or.inl old, several⟩
        · rintro ⟨old | here, several⟩
          · exact Or.inr ⟨old, several⟩
          · exact Or.inl here
      · intro text difference
        have joined := mem_append_verdict diffed.out (spec.keyText readers row) text difference
        rw [judged] at joined
        rw [texts]
        exact joined
  · rw [if_neg repeated]
    have new : spec.keyText readers row ∉ settled.map (spec.keyText readers) := by
      intro old
      exact repeated (spec.two_under_of_old readers split old)
    have single : spec.under readers source (spec.keyText readers row) = [row] := by
      have rows := spec.under_of_new readers split new
      rw [rows] at repeated ⊢
      cases others : spec.under readers rest (spec.keyText readers row) with
      | nil => rfl
      | cons second more =>
          rw [others] at repeated
          exact absurd (Nat.succ_lt_succ (Nat.succ_pos more.length)) repeated
    have found : state.byKey.lookup (spec.keyText readers row) =
        summary (spec.under readers dest (spec.keyText readers row)) := by
      rw [diffed.byKey, lookup_filter _ (fun text => decide (text ∉ settled.map (spec.keyText readers))),
        if_pos (decide_eq_true new), lookup_tally_under]
    have reported : forall text, text ∈ state.reported <->
        text ∈ (settled ++ [row]).map (spec.keyText readers) ∧ 1 < (spec.under readers source text).length := by
      intro text
      rw [diffed.reported, texts, List.mem_append, List.mem_singleton]
      constructor
      · rintro ⟨old, several⟩
        exact ⟨Or.inl old, several⟩
      · rintro ⟨old | here, several⟩
        · exact ⟨old, several⟩
        · exact absurd (here ▸ several) repeated
    have joined := mem_append_verdict diffed.out (spec.keyText readers row)
    rw [← texts] at joined
    simp only [single] at joined
    rw [found]
    cases matches_ : spec.under readers dest (spec.keyText readers row) with
    | nil =>
        rw [matches_] at joined
        exact ⟨removed, reported, joined⟩
    | cons other others =>
        rw [matches_] at joined
        cases others with
        | nil =>
            simp only [summary, List.length_nil]
            simp only [verdict] at joined
            by_cases unchanged : (spec.changedColumns readers row other).isEmpty = true
            · rw [if_pos unchanged] at joined
              simp only [Option.map_none, Option.toList_none, List.append_nil] at joined
              rw [if_neg (by decide), if_pos unchanged]
              exact ⟨removed, reported, joined⟩
            · rw [if_neg unchanged] at joined
              rw [if_neg (by decide), if_neg unchanged]
              exact ⟨removed, reported, joined⟩
        | cons third more =>
            simp only [summary, List.length_cons]
            rw [if_pos (by omega)]
            exact ⟨removed, reported, joined⟩

end Step

theorem diffed_foldl {source dest settled rest : List Value} {state : Diffing} (split : source = settled ++ rest)
    (diffed : spec.Diffed readers source dest settled state) :
    spec.Diffed readers source dest source
      (rest.foldl (spec.diffSource readers (tallyAll (spec.keyText readers) source)) state) := by
  induction rest generalizing settled state with
  | nil =>
      rw [List.append_nil] at split
      rw [split] at diffed ⊢
      exact diffed
  | cons row others ih =>
      refine ih ?_ (spec.diffed_step readers split diffed)
      rw [split, List.append_assoc, List.singleton_append]

/-- Rows no source row claimed are judged by themselves. -/
theorem verdict_leftover {dests : List Value} {count : Nat} {first : Value}
    (summed : summary dests = some (count, first)) (text : List Char) :
    spec.verdict readers [] dests = some (spec.leftover (text, count, first)).2 := by
  cases dests with
  | nil => cases summed
  | cons row others =>
      cases summed
      cases others with
      | nil => rfl
      | cons second more =>
          rw [verdict, leftover]
          simp only [List.isEmpty_cons, Bool.false_eq_true, if_false, List.length_cons]
          rw [if_pos (by omega)]

/-- What is reported for a key is its verdict. -/
theorem mem_diffTexts_iff (source dest : List Value) (text : List Char) (difference : Difference) :
    (text, difference) ∈ spec.diffTexts readers source dest <->
      spec.verdict readers (spec.under readers source text) (spec.under readers dest text) = some difference := by
  have start : spec.Diffed readers source dest [] ⟨tallyAll (spec.keyText readers) dest, [], []⟩ := by
    refine ⟨?_, ?_, ?_⟩
    · symm
      rw [List.filter_eq_self]
      intro entry _
      exact decide_eq_true List.not_mem_nil
    · intro text
      simp only [List.map_nil, List.not_mem_nil, false_and]
    · intro text difference
      simp only [List.map_nil, List.not_mem_nil, false_and]
  have looped := spec.diffed_foldl readers (List.nil_append source).symm start
  unfold diffTexts
  rw [List.mem_append, looped.out, looped.byKey]
  by_cases claimed : text ∈ source.map (spec.keyText readers)
  · constructor
    · rintro (⟨_, judged⟩ | leftover)
      · exact judged
      · rcases List.mem_map.mp leftover with ⟨entry, member, same⟩
        have unclaimed := of_decide_eq_true (List.mem_filter.mp member).2
        cases same
        exact absurd claimed unclaimed
    · intro judged
      exact Or.inl ⟨claimed, judged⟩
  · have nothing := (spec.under_eq_nil_iff readers source text).mpr claimed
    rw [nothing]
    constructor
    · rintro (⟨impossible, _⟩ | leftover)
      · exact absurd impossible claimed
      · rcases List.mem_map.mp leftover with ⟨⟨name, count, first⟩, member, same⟩
        have summed : summary (spec.under readers dest name) = some (count, first) :=
          mem_tallyAll_iff.mp (List.mem_filter.mp member).1
        have judged := spec.verdict_leftover readers summed name
        rw [same] at judged
        cases same
        exact judged
    · intro judged
      refine Or.inr (List.mem_map.mpr ?_)
      cases rows : spec.under readers dest text with
      | nil =>
          rw [rows] at judged
          cases judged
      | cons first others =>
          have summed : summary (spec.under readers dest text) = some (others.length + 1, first) := by
            rw [rows]
            rfl
          have same := spec.verdict_leftover readers summed text
          rw [judged] at same
          refine ⟨(text, others.length + 1, first), List.mem_filter.mpr ⟨mem_tallyAll_iff.mpr summed, ?_⟩, ?_⟩
          · exact decide_eq_true claimed
          · exact Prod.ext rfl (Option.some.inj same).symm

theorem mem_diffRows_iff (source dest : List Value) (difference : Difference) :
    difference ∈ spec.diffRows readers source dest <->
      exists text, spec.verdict readers (spec.under readers source text) (spec.under readers dest text) =
        some difference := by
  unfold diffRows
  rw [List.mem_map]
  constructor
  · rintro ⟨⟨text, found⟩, member, rfl⟩
    rw [List.mem_insertionSort] at member
    exact ⟨text, (spec.mem_diffTexts_iff readers source dest text found).mp member⟩
  · rintro ⟨text, judged⟩
    refine ⟨(text, difference), ?_, rfl⟩
    rw [List.mem_insertionSort]
    exact (spec.mem_diffTexts_iff readers source dest text difference).mpr judged

end RowSpec

end Verify
end FaucetStream
