import FaucetStream.Verify.Rows

namespace FaucetStream
namespace Verify

open Json
open Library

/-!
# The text of a row

A range is pruned when its rows have the same fingerprints on both sides, so
equal texts must mean that a comparison column by column would find nothing.
The fields of the text are not escaped.  Values without the separator are read
back from it, and so are the names of the columns when they hold no equals
sign; a value that spells out the fields behind it passes for them.
-/

/-! ## The columns of a fingerprint -/

theorem mem_dedup (names : List String) (name : String) : name ∈ dedup names <-> name ∈ names := by
  induction names with
  | nil => exact Iff.rfl
  | cons first rest ih =>
      cases rest with
      | nil => exact Iff.rfl
      | cons second others =>
          unfold dedup
          split
          · rename_i same
            rw [ih, same]
            constructor
            · exact List.mem_cons_of_mem second
            · intro member
              rcases List.mem_cons.mp member with here | later
              · rw [here]
                exact List.mem_cons_self
              · exact later
          · rw [List.mem_cons, ih]
            exact List.mem_cons.symm

theorem dedup_nodup {names : List String} (sorted : names.Pairwise (· ≤ ·)) : (dedup names).Nodup := by
  induction names with
  | nil => exact List.nodup_nil
  | cons first rest ih =>
      have tail := ih (List.pairwise_cons.mp sorted).2
      cases rest with
      | nil => exact List.nodup_singleton first
      | cons second others =>
          unfold dedup
          split
          · exact tail
          · rename_i different
            refine List.nodup_cons.mpr ⟨?_, tail⟩
            rw [mem_dedup]
            intro member
            have first_le := (List.pairwise_cons.mp sorted).1 second List.mem_cons_self
            rcases List.mem_cons.mp member with here | later
            · exact different here
            · have second_le := (List.pairwise_cons.mp (List.pairwise_cons.mp sorted).2).1 first later
              exact different (le_antisymm first_le second_le)

/-- Columns pushed behind a list unless it has them. -/
theorem mem_foldl_push (columns : List String) (names : List String) (name : String) :
    name ∈ columns.foldl (fun names column => if names.contains column then names else names ++ [column]) names <->
      name ∈ names ∨ name ∈ columns := by
  induction columns generalizing names with
  | nil => simp only [List.foldl_nil, List.not_mem_nil, or_false]
  | cons column rest ih =>
      rw [List.foldl_cons, ih, List.mem_cons]
      by_cases known : column ∈ names
      · rw [if_pos (List.contains_iff_mem.mpr known)]
        constructor
        · rintro (old | later)
          · exact Or.inl old
          · exact Or.inr (Or.inr later)
        · rintro (old | here | later)
          · exact Or.inl old
          · exact Or.inl (here ▸ known)
          · exact Or.inr later
      · rw [if_neg (fun contained => known (List.contains_iff_mem.mp contained)), List.mem_append,
          List.mem_singleton, or_assoc]

namespace RowSpec

variable (readers : Readers) (spec : RowSpec)

/-- The columns a record brings to its fingerprint, beside the key. -/
def named (record : Value) : List String :=
  match spec.columns with
  | some columns => columns
  | none => ((entriesOf record).filter (fun entry => !entry.2.isNull)).map Prod.fst

theorem mem_names_iff (record : Value) (name : String) :
    name ∈ spec.names record <->
      isExcluded name spec.exclude = false ∧ (name ∈ spec.named record ∨ name ∈ spec.key) := by
  unfold names
  rw [mem_dedup, List.mem_insertionSort, List.mem_filter, mem_foldl_push, Bool.not_eq_true', and_comm]
  rfl

theorem names_nodup (record : Value) : (spec.names record).Nodup :=
  dedup_nodup (List.pairwise_insertionSort (· ≤ ·) _)

/-- Records that bring the same columns have the same fingerprint columns. -/
theorem names_congr {left right : Value} (same : spec.named left = spec.named right) :
    spec.names left = spec.names right := by
  unfold names
  change dedup ((List.filter _ (spec.key.foldl _ (spec.named left))).insertionSort _) =
    dedup ((List.filter _ (spec.key.foldl _ (spec.named right))).insertionSort _)
  rw [same]

theorem mem_pairNames_iff (left right : Value) (name : String) :
    name ∈ spec.pairNames left right <->
      match spec.columns with
      | some columns => name ∈ columns
      | none => name ∈ (entriesOf left).map Prod.fst ∨ name ∈ (entriesOf right).map Prod.fst := by
  unfold pairNames
  cases spec.columns with
  | some columns => exact Iff.rfl
  | none =>
      simp only [List.foldl_cons, List.foldl_nil, mem_foldl_push, List.not_mem_nil, false_or]

/-- Nothing has changed when the reported columns read alike. -/
theorem changedColumns_eq_nil_of {left right : Value}
    (alike : forall name, name ∈ spec.pairNames left right -> isExcluded name spec.exclude = false ->
      spec.column readers left name = spec.column readers right name) :
    spec.changedColumns readers left right = [] := by
  have nothing : ((spec.pairNames left right).filter (fun name => !isExcluded name spec.exclude)).filter
      (fun name => spec.column readers left name != spec.column readers right name &&
        !spec.norm.withinTolerance readers (left.get name) (right.get name)) = [] := by
    rw [List.filter_eq_nil_iff]
    intro name member
    rcases List.mem_filter.mp member with ⟨listed, kept⟩
    rw [alike name listed (by simpa using kept), bne_self_eq_false, Bool.false_and]
    exact Bool.false_ne_true
  unfold changedColumns
  rw [nothing]
  rfl

/-- A column that a record without a column list leaves out is null. -/
theorem column_of_not_mem {record : Value} {name : String} (unlisted : spec.columns = none)
    (included : isExcluded name spec.exclude = false) (absent : name ∉ spec.names record) :
    spec.column readers record name = Normalizer.NULL_TEXT := by
  have unnamed : name ∉ spec.named record := by
    intro member
    exact absent ((spec.mem_names_iff record name).mpr ⟨included, Or.inl member⟩)
  have blank : record.get name = none ∨ record.get name = some .null := by
    cases record with
    | object entries =>
        cases found : (Value.object entries).get name with
        | none => exact Or.inl rfl
        | some value =>
            refine Or.inr ?_
            rcases List.lookup_eq_some_iff.mp found with ⟨before, after, split, _⟩
            by_contra filled
            have notNull : value.isNull = false := by
              cases value with
              | null => exact absurd rfl filled
              | _ => rfl
            apply unnamed
            unfold named
            rw [unlisted]
            refine List.mem_map.mpr ⟨(name, value), List.mem_filter.mpr ⟨?_, by rw [notNull]; rfl⟩, rfl⟩
            change (name, value) ∈ entries
            rw [split]
            exact List.mem_append_right _ List.mem_cons_self
    | _ => exact Or.inl rfl
  unfold column Normalizer.canonicalColumn
  rcases blank with none | null
  · rw [none]
    split
    · rfl
    · rfl
  · rw [null]
    split
    · rw [Normalizer.canonical, Normalizer.canonicalValue]
    · rw [Normalizer.canonical, Normalizer.canonicalValue]

/-! ## Rows without separators -/

/-- The fields of a row can be told apart in its text: no value in front of
the last holds the separator, or, where the names are read from the text too,
no value does and no name holds an equals sign. -/
def Separated (record : Value) : Prop :=
  match spec.columns with
  | some _ => forall name, name ∈ (spec.names record).dropLast -> UNIT_SEPARATOR ∉ spec.column readers record name
  | none => forall name, name ∈ spec.names record ->
      '=' ∉ name.toList ∧ UNIT_SEPARATOR ∉ spec.column readers record name

/-- Under a column list the names are known. -/
theorem columns_eq_of_rowText {left right : Value} (names : spec.names left = spec.names right)
    (free : forall name, name ∈ (spec.names left).dropLast -> UNIT_SEPARATOR ∉ spec.column readers left name ∧
      UNIT_SEPARATOR ∉ spec.column readers right name)
    (same : spec.rowText readers left = spec.rowText readers right) :
    forall name, name ∈ spec.names left -> spec.column readers left name = spec.column readers right name := by
  unfold rowText at same
  rw [← names] at same
  exact values_eq_of_fieldsText String.toList (spec.names left) (spec.column readers left)
    (spec.column readers right) free same

/-- Rows that can be read back and have one text show no difference. -/
theorem changedColumns_eq_nil_of_separated {left right : Value} (leftSeparated : spec.Separated readers left)
    (rightSeparated : spec.Separated readers right)
    (same : spec.rowText readers left = spec.rowText readers right) :
    spec.changedColumns readers left right = [] := by
  apply changedColumns_eq_nil_of
  intro name listed included
  rw [mem_pairNames_iff] at listed
  unfold Separated at leftSeparated rightSeparated
  cases given : spec.columns with
  | some columns =>
      rw [given] at listed leftSeparated rightSeparated
      have names : spec.names left = spec.names right := by
        apply names_congr
        unfold named
        rw [given]
      apply columns_eq_of_rowText readers spec names
      · intro field member
        exact ⟨leftSeparated field member, rightSeparated field (names ▸ member)⟩
      · exact same
      · refine (spec.mem_names_iff left name).mpr ⟨included, Or.inl ?_⟩
        unfold named
        rw [given]
        exact listed
  | none =>
      rw [given] at leftSeparated rightSeparated
      have fields := fieldsText_injective
        (fun field member => by
          rcases List.mem_map.mp member with ⟨label, present, rfl⟩
          exact leftSeparated label present)
        (fun field member => by
          rcases List.mem_map.mp member with ⟨label, present, rfl⟩
          exact rightSeparated label present) same
      have texts : (spec.names left).map String.toList = (spec.names right).map String.toList := by
        have labels := congrArg (List.map Prod.fst) fields
        rw [List.map_map, List.map_map] at labels
        exact labels
      have names : spec.names left = spec.names right :=
        List.map_injective_iff.mpr (fun _ _ equal => String.toList_inj.mp equal) texts
      by_cases inside : name ∈ spec.names left
      · rw [← names] at fields
        exact (Prod.mk.inj (List.map_inj_left.mp fields name inside)).2
      · rw [spec.column_of_not_mem readers given included inside,
          spec.column_of_not_mem readers given included (names ▸ inside)]

/-! ## Rows that pass for each other -/

/-- A column that some fingerprint covers, and one that a comparison
reports. -/
def Compared (name : String) : Prop :=
  isExcluded name spec.exclude = false ∧
    forall columns, spec.columns = some columns -> name ∈ columns ∨ name ∈ spec.key

def Reported (name : String) : Prop :=
  isExcluded name spec.exclude = false ∧ forall columns, spec.columns = some columns -> name ∈ columns

/-- No two columns are compared of which one is reported. -/
def Narrow : Prop :=
  forall first second, spec.Compared first -> spec.Compared second ->
    spec.Reported first ∨ spec.Reported second -> first = second

theorem compared_of_mem_names {record : Value} {name : String} (member : name ∈ spec.names record) :
    spec.Compared name := by
  rcases (spec.mem_names_iff record name).mp member with ⟨included, source⟩
  refine ⟨included, ?_⟩
  intro columns given
  unfold named at source
  rw [given] at source
  exact source

theorem rowText_eq_nil_iff (record : Value) : spec.rowText readers record = [] <-> spec.names record = [] := by
  unfold rowText
  cases spec.names record with
  | nil => exact ⟨fun _ => rfl, fun _ => rfl⟩
  | cons name rest =>
      constructor
      · intro empty
        rw [List.map_cons, fieldsText_cons] at empty
        exact absurd empty (List.append_ne_nil_of_right_ne_nil _ (List.cons_ne_nil _ _))
      · intro impossible
        cases impossible

/-- A list without repeats in which nothing but one entry occurs. -/
theorem eq_nil_or_singleton {names : List String} (distinct : names.Nodup) {name : String}
    (only : forall other, other ∈ names -> other = name) : names = [] ∨ names = [name] := by
  cases names with
  | nil => exact Or.inl rfl
  | cons first rest =>
      refine Or.inr ?_
      have head := only first List.mem_cons_self
      cases rest with
      | nil => rw [head]
      | cons second others =>
          have next := only second (List.mem_cons_of_mem _ List.mem_cons_self)
          rw [head, next] at distinct
          exact absurd List.mem_cons_self (List.nodup_cons.mp distinct).1

/-- One field alone is read back whatever it holds. -/
theorem changedColumns_eq_nil_of_narrow (narrow : spec.Narrow) {left right : Value}
    (same : spec.rowText readers left = spec.rowText readers right) :
    spec.changedColumns readers left right = [] := by
  apply changedColumns_eq_nil_of
  intro name listed included
  rw [mem_pairNames_iff] at listed
  have reported : spec.Reported name := by
    refine ⟨included, ?_⟩
    intro columns given
    rw [given] at listed
    exact listed
  have compared : spec.Compared name := ⟨included, fun columns given => Or.inl (reported.2 columns given)⟩
  have only : forall record other, other ∈ spec.names record -> other = name := by
    intro record other member
    exact narrow other name (spec.compared_of_mem_names member) compared (Or.inr reported)
  rcases eq_nil_or_singleton (spec.names_nodup left) (only left) with leftNames | leftNames
  · -- Neither record has the column, so it is null in both.
    have rightNames : spec.names right = [] := by
      rw [← spec.rowText_eq_nil_iff readers, ← same, spec.rowText_eq_nil_iff readers]
      exact leftNames
    have unlisted : spec.columns = none := by
      cases given : spec.columns with
      | none => rfl
      | some columns =>
          have member : name ∈ spec.names left := by
            refine (spec.mem_names_iff left name).mpr ⟨included, Or.inl ?_⟩
            unfold named
            rw [given]
            exact reported.2 columns given
          rw [leftNames] at member
          exact absurd member List.not_mem_nil
    rw [spec.column_of_not_mem readers unlisted included (leftNames ▸ List.not_mem_nil),
      spec.column_of_not_mem readers unlisted included (rightNames ▸ List.not_mem_nil)]
  · have rightNames : spec.names right = [name] := by
      rcases eq_nil_or_singleton (spec.names_nodup right) (only right) with empty | one
      · rw [← spec.rowText_eq_nil_iff readers, ← same, spec.rowText_eq_nil_iff readers, leftNames] at empty
        cases empty
      · exact one
    apply columns_eq_of_rowText readers spec (leftNames.trans rightNames.symm)
    · intro field member
      rw [leftNames] at member
      exact absurd member List.not_mem_nil
    · exact same
    · rw [leftNames]
      exact List.mem_singleton.mpr rfl

/-- A text behind a letter is neither blank in front nor a number or a
timestamp. -/
theorem trim_letter (rest : List Char) : exists remaining, trim ('x' :: rest) = 'x' :: remaining := by
  have front : ('x' :: rest).dropWhile isWhitespace = 'x' :: rest := rfl
  unfold trim
  rw [front]
  rcases List.rdropWhile_prefix isWhitespace ('x' :: rest) with ⟨suffix, whole⟩
  cases shape : ('x' :: rest).rdropWhile isWhitespace with
  | nil =>
      have blank := List.rdropWhile_eq_nil_iff.mp shape 'x' List.mem_cons_self
      exact absurd blank (by decide)
  | cons character remaining =>
      rw [shape, List.cons_append] at whole
      exact ⟨remaining, by rw [(List.cons.inj whole).1]⟩

theorem parseF64_letter (rest : List Char) : parseF64 readers (trim ('x' :: rest)) = none := by
  rcases trim_letter rest with ⟨remaining, trimmed⟩
  have mantissa : isMantissa ('x' :: remaining.takeWhile (fun character => !isExponent character)) = false := rfl
  have other : isFloatText ('x' :: remaining) = false := by
    unfold isFloatText
    change (isMantissa ('x' :: remaining.takeWhile (fun character => !isExponent character)) && _) = false
    rw [mantissa, Bool.false_and]
  unfold parseF64
  rw [trimmed, other]
  rfl

theorem canonicalString_letter (norm : Normalizer) (rest : List Char) :
    norm.canonicalString readers ('x' :: rest) = 's' :: 'x' :: rest := by
  rcases trim_letter rest with ⟨remaining, trimmed⟩
  have noDate : parseTimestampMicros readers ('x' :: rest) = none := by
    have other : startsLikeDate ('x' :: remaining) = false := by
      unfold startsLikeDate
      rw [List.take_succ_cons, List.all_cons]
      simp only [show Char.isDigit 'x' = false by decide, Bool.false_and, Bool.and_false]
    unfold parseTimestampMicros
    rw [trimmed]
    simp only [other, Bool.false_eq_true, if_false]
  have noInteger : Decimal.parseI64 ('x' :: remaining) = none := rfl
  unfold Normalizer.canonicalString
  rw [noDate, ite_self]
  dsimp only
  split
  · rw [trimmed, noInteger, ← trimmed, parseF64_letter]
  · rfl

/-- A record of two texts behind a letter. -/
def textRecord (first second : String) (rest : String -> List Char) : Value :=
  .object [(first, .string (String.ofList ('x' :: rest first))),
    (second, .string (String.ofList ('x' :: rest second)))]

section TextRecord

variable {first second : String} (rest : String -> List Char)

theorem get_textRecord {name : String} (either : name = first ∨ name = second) :
    (textRecord first second rest).get name = some (.string (String.ofList ('x' :: rest name))) := by
  by_cases isFirst : name = first
  · subst isFirst
    simp only [textRecord, Value.get, List.lookup_cons, beq_self_eq_true]
  · have isSecond := either.resolve_left isFirst
    subst isSecond
    simp only [textRecord, Value.get, List.lookup_cons, beq_eq_false_iff_ne.mpr isFirst, beq_self_eq_true]

theorem get_textRecord_of_ne {name : String} (notFirst : name ≠ first) (notSecond : name ≠ second) :
    (textRecord first second rest).get name = none := by
  simp only [textRecord, Value.get, List.lookup_cons, beq_eq_false_iff_ne.mpr notFirst,
    beq_eq_false_iff_ne.mpr notSecond, List.lookup_nil]

theorem column_textRecord {name : String} (either : name = first ∨ name = second) :
    spec.column readers (textRecord first second rest) name = 's' :: 'x' :: rest name := by
  unfold column Normalizer.canonicalColumn
  rw [get_textRecord rest either]
  split
  · rw [Normalizer.canonical, Normalizer.canonicalValue, String.toList_ofList, canonicalString_letter]
  · rw [Normalizer.canonical, Normalizer.canonicalValue, String.toList_ofList, canonicalString_letter]

theorem column_textRecord_of_ne {name : String} (notFirst : name ≠ first) (notSecond : name ≠ second) :
    spec.column readers (textRecord first second rest) name = Normalizer.NULL_TEXT := by
  unfold column Normalizer.canonicalColumn
  rw [get_textRecord_of_ne rest notFirst notSecond]
  split
  · rfl
  · rfl

/-- Which columns a fingerprint covers does not depend on the texts. -/
theorem names_textRecord (other : String -> List Char) :
    spec.names (textRecord first second rest) = spec.names (textRecord first second other) := by
  apply names_congr
  unfold named
  cases spec.columns with
  | some columns => rfl
  | none => rfl

theorem mem_names_textRecord {name : String} (compared : spec.Compared name)
    (either : name = first ∨ name = second) : name ∈ spec.names (textRecord first second rest) := by
  refine (spec.mem_names_iff _ name).mpr ⟨compared.1, ?_⟩
  unfold named
  cases given : spec.columns with
  | some columns => exact compared.2 columns given
  | none =>
      refine Or.inl ?_
      rcases either with rfl | rfl
      · exact List.mem_cons_self
      · exact List.mem_cons_of_mem _ List.mem_cons_self

/-- Two reported texts that differ are a change. -/
theorem rest_eq_of_unchanged (other : String -> List Char)
    (unchanged : spec.changedColumns readers (textRecord first second rest) (textRecord first second other) = [])
    {name : String} (either : name = first ∨ name = second) (reported : spec.Reported name) :
    rest name = other name := by
  by_contra different
  have listed : name ∈ spec.pairNames (textRecord first second rest) (textRecord first second other) := by
    rw [mem_pairNames_iff]
    cases given : spec.columns with
    | some columns => exact reported.2 columns given
    | none =>
        refine Or.inl ?_
        rcases either with rfl | rfl
        · exact List.mem_cons_self
        · exact List.mem_cons_of_mem _ List.mem_cons_self
  have apart : spec.norm.withinTolerance readers ((textRecord first second rest).get name)
      ((textRecord first second other).get name) = false := by
    rw [get_textRecord rest either, get_textRecord other either]
    simp only [Normalizer.withinTolerance, Normalizer.numberOf, String.toList_ofList, parseF64_letter, ite_self]
  have member : name ∈ spec.changedColumns readers (textRecord first second rest)
      (textRecord first second other) := by
    unfold changedColumns
    rw [List.mem_insertionSort, List.mem_filter, List.mem_filter, apart,
      column_textRecord readers spec rest either, column_textRecord readers spec other either]
    refine ⟨⟨listed, by rw [reported.1]; rfl⟩, ?_⟩
    rw [Bool.not_false, Bool.and_true, bne_iff_ne]
    intro same
    exact different (List.cons.inj (List.cons.inj same).2).2
  rw [unchanged] at member
  exact absurd member List.not_mem_nil

end TextRecord

/-- Two entries of a list stand one after the other. -/
theorem exists_in_order {names : List String} {first second : String} (hasFirst : first ∈ names)
    (hasSecond : second ∈ names) (different : first ≠ second) :
    exists earlier later before between after, names = before ++ earlier :: (between ++ later :: after) ∧
      ((earlier = first ∧ later = second) ∨ (earlier = second ∧ later = first)) := by
  rcases List.append_of_mem hasFirst with ⟨front, back, split⟩
  rw [split] at hasSecond
  rcases List.mem_append.mp hasSecond with inFront | rest
  · rcases List.append_of_mem inFront with ⟨before, between, inner⟩
    refine ⟨second, first, before, between, back, ?_, Or.inr ⟨rfl, rfl⟩⟩
    rw [split, inner, List.append_assoc, List.cons_append]
  · rcases List.mem_cons.mp rest with here | inBack
    · exact absurd here.symm different
    · rcases List.append_of_mem inBack with ⟨between, after, inner⟩
      exact ⟨first, second, front, between, after, by rw [split, inner], Or.inl ⟨rfl, rfl⟩⟩

/-- The fields of columns that are null. -/
def nullFields (names : List String) : List (List Char × List Char) :=
  names.map (fun name => (name.toList, Normalizer.NULL_TEXT))

/-- The text of a record of two texts, field by field. -/
theorem rowText_textRecord {first second earlier later : String} {before between after : List String}
    (rest : String -> List Char)
    (split : spec.names (textRecord first second rest) = before ++ earlier :: (between ++ later :: after))
    (pair : (earlier = first ∧ later = second) ∨ (earlier = second ∧ later = first)) :
    spec.rowText readers (textRecord first second rest) =
      fieldsText '=' UNIT_SEPARATOR (nullFields before ++ (earlier.toList, 's' :: 'x' :: rest earlier) ::
        (nullFields between ++ (later.toList, 's' :: 'x' :: rest later) :: nullFields after)) := by
  have distinct := spec.names_nodup (textRecord first second rest)
  rw [split] at distinct
  have outside : forall name, name ∈ before ∨ name ∈ between ∨ name ∈ after -> name ≠ earlier ∧ name ≠ later := by
    intro name place
    simp only [List.nodup_append, List.nodup_cons, List.mem_append, List.mem_cons, not_or] at distinct
    rcases place with inBefore | inBetween | inAfter
    · have apart := distinct.2.2 name inBefore
      exact ⟨apart earlier (Or.inl rfl), apart later (Or.inr (Or.inr (Or.inl rfl)))⟩
    · have apart := distinct.2.1.2.2.2 name inBetween
      exact ⟨fun same => distinct.2.1.1.1 (same ▸ inBetween), apart later (Or.inl rfl)⟩
    · exact ⟨fun same => distinct.2.1.1.2.2 (same ▸ inAfter), fun same => distinct.2.1.2.2.1.1 (same ▸ inAfter)⟩
  have nulls : forall names, (forall name, name ∈ names -> name ∈ before ∨ name ∈ between ∨ name ∈ after) ->
      names.map (fun name => (name.toList, spec.column readers (textRecord first second rest) name)) =
        nullFields names := by
    intro names placed
    apply List.map_congr_left
    intro name member
    rcases outside name (placed name member) with ⟨notEarlier, notLater⟩
    rcases pair with ⟨rfl, rfl⟩ | ⟨rfl, rfl⟩
    · rw [column_textRecord_of_ne readers spec rest notEarlier notLater]
    · rw [column_textRecord_of_ne readers spec rest notLater notEarlier]
  have earlierText : spec.column readers (textRecord first second rest) earlier = 's' :: 'x' :: rest earlier := by
    apply column_textRecord
    rcases pair with ⟨same, _⟩ | ⟨same, _⟩
    · exact Or.inl same
    · exact Or.inr same
  have laterText : spec.column readers (textRecord first second rest) later = 's' :: 'x' :: rest later := by
    apply column_textRecord
    rcases pair with ⟨_, same⟩ | ⟨_, same⟩
    · exact Or.inr same
    · exact Or.inl same
  unfold rowText
  rw [split, List.map_append, List.map_cons, List.map_append, List.map_cons, earlierText, laterText,
    nulls before (fun name member => Or.inl member), nulls between (fun name member => Or.inr (Or.inl member)),
    nulls after (fun name member => Or.inr (Or.inr member))]

/-- Where two columns are compared, two records exchange a text and its long
spelling, and the text of the row stays. -/
theorem narrow_of_decides
    (decides : forall left right : List (String × Value),
      spec.rowText readers (.object left) = spec.rowText readers (.object right) ->
        spec.changedColumns readers (.object left) (.object right) = []) : spec.Narrow := by
  intro first second firstCompared secondCompared reported
  by_contra different
  rcases exists_in_order (spec.mem_names_textRecord (fun _ => []) firstCompared (Or.inl rfl))
    (spec.mem_names_textRecord (fun _ => []) secondCompared (Or.inr rfl)) different with
    ⟨earlier, later, before, between, after, split, pair⟩
  have apart : earlier ≠ later := by
    rcases pair with ⟨rfl, rfl⟩ | ⟨rfl, rfl⟩
    · exact different
    · exact Ne.symm different
  -- What the earlier field spells out behind its letter.
  let long : List Char := UNIT_SEPARATOR ::
    (fieldsText '=' UNIT_SEPARATOR (nullFields between) ++ later.toList ++ '=' :: ['s', 'x'])
  let left : String -> List Char := fun name => if name = earlier then [] else long
  let right : String -> List Char := fun name => if name = earlier then long else []
  have same : spec.rowText readers (textRecord first second left) =
      spec.rowText readers (textRecord first second right) := by
    rw [rowText_textRecord readers spec left (spec.names_textRecord left (fun _ => []) ▸ split) pair,
      rowText_textRecord readers spec right (spec.names_textRecord right (fun _ => []) ▸ split) pair]
    simp only [left, right, if_true, if_neg (Ne.symm apart)]
    exact fieldsText_exchange (nullFields before) (nullFields between) (nullFields after) earlier.toList
      later.toList ['s', 'x']
  have unchanged := decides _ _ same
  have differ : forall name, left name ≠ right name := by
    intro name
    simp only [left, right]
    by_cases here : name = earlier
    · rw [if_pos here, if_pos here]
      exact (List.cons_ne_nil _ _).symm
    · rw [if_neg here, if_neg here]
      exact List.cons_ne_nil _ _
  rcases reported with isReported | isReported
  · exact differ first (spec.rest_eq_of_unchanged readers left right unchanged (Or.inl rfl) isReported)
  · exact differ second (spec.rest_eq_of_unchanged readers left right unchanged (Or.inr rfl) isReported)

/-- Equal texts mean that nothing has changed for all rows whose fields can be
told apart, and for all rows exactly when no two columns are compared. -/
theorem rowText_decides_iff :
    (forall left right, spec.Separated readers left -> spec.Separated readers right ->
      spec.rowText readers left = spec.rowText readers right -> spec.changedColumns readers left right = []) ∧
    ((forall left right : List (String × Value),
        spec.rowText readers (.object left) = spec.rowText readers (.object right) ->
          spec.changedColumns readers (.object left) (.object right) = []) <-> spec.Narrow) := by
  constructor
  · intro left right leftSeparated rightSeparated same
    exact spec.changedColumns_eq_nil_of_separated readers leftSeparated rightSeparated same
  · constructor
    · intro decides
      exact spec.narrow_of_decides readers decides
    · intro narrow left right same
      exact spec.changedColumns_eq_nil_of_narrow readers narrow same

end RowSpec

/-! ## A text that holds a separator -/

/-- Readers that read nothing. -/
def noReaders : Readers where
  rfc3339 := fun _ => none
  naiveDateTime := fun _ => none
  naiveDate := fun _ => none
  nearest := fun _ => none
  ofInt := fun _ => Decimal.normal false [] 0 nofun
  rounded := fun float _ => float
  closer := fun _ _ _ => false

/-- The default normalizer, every column compared. -/
def plainSpec (key : List String) : RowSpec where
  key := key
  columns := none
  exclude := []
  norm := ⟨Decimal.normal false [] 0 nofun, true, false⟩

def oneFieldRow : Value :=
  .object [("id", .number (.int 1)), ("x", .string (String.ofList ['1', Char.ofNat 0x1f, 'y', '=', 's', '2']))]

def twoFieldRow : Value :=
  .object [("id", .number (.int 1)), ("x", .string "1"), ("y", .string "2")]

/-- One text with a separator in it, and two texts. -/
theorem oneFieldRow_passes_for_twoFieldRow :
    (plainSpec ["id"]).rowText noReaders oneFieldRow = (plainSpec ["id"]).rowText noReaders twoFieldRow ∧
      (plainSpec ["id"]).changedColumns noReaders oneFieldRow twoFieldRow = ["x", "y"] := by
  decide +kernel

end Verify
end FaucetStream
