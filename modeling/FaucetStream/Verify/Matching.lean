import FaucetStream.Verify.Diff

namespace FaucetStream
namespace Verify

open Json
open Library

/-!
# Rows matched by their key

Two ranges show no difference when no key repeats on a side, both sides have
the same keys and matched rows are alike.  With the text of a key in place of
the key this always holds.  The text stands for the key as long as it can be
told apart, which a key of one column always can, and a composite one when no
value in front of its last holds a semicolon.
-/

/-- Rows of two sides that match one to one under a key. -/
structure MatchedBy {K : Type} (key : Value -> K) (alike : Value -> Value -> Prop) (source dest : List Value) :
    Prop where
  sourceOnce : (source.map key).Nodup
  destOnce : (dest.map key).Nodup
  sameKeys : forall name, name ∈ source.map key <-> name ∈ dest.map key
  unchanged : forall row, row ∈ source -> forall other, other ∈ dest -> key row = key other -> alike row other

/-- A key that tells the rows apart in the same way matches them in the same
way. -/
theorem MatchedBy.congr {K L : Type} {key : Value -> K} {name : Value -> L} {alike : Value -> Value -> Prop}
    {source dest : List Value}
    (same : forall row, row ∈ source ++ dest -> forall other, other ∈ source ++ dest ->
      (key row = key other <-> name row = name other))
    (matched : MatchedBy key alike source dest) : MatchedBy name alike source dest := by
  have fromSource : forall row, row ∈ source -> row ∈ source ++ dest := fun _ => List.mem_append_left dest
  have fromDest : forall row, row ∈ dest -> row ∈ source ++ dest := fun _ => List.mem_append_right source
  refine ⟨?_, ?_, ?_, ?_⟩
  · refine List.pairwise_map.mpr ((List.pairwise_map.mp matched.sourceOnce).imp_of_mem ?_)
    intro row other rowMember otherMember apart equal
    exact apart ((same row (fromSource row rowMember) other (fromSource other otherMember)).mpr equal)
  · refine List.pairwise_map.mpr ((List.pairwise_map.mp matched.destOnce).imp_of_mem ?_)
    intro row other rowMember otherMember apart equal
    exact apart ((same row (fromDest row rowMember) other (fromDest other otherMember)).mpr equal)
  · intro value
    constructor
    · intro member
      rcases List.mem_map.mp member with ⟨row, listed, rfl⟩
      rcases List.mem_map.mp ((matched.sameKeys _).mp (List.mem_map_of_mem listed)) with ⟨other, found, equal⟩
      exact List.mem_map.mpr ⟨other, found,
        (same other (fromDest other found) row (fromSource row listed)).mp equal⟩
    · intro member
      rcases List.mem_map.mp member with ⟨row, listed, rfl⟩
      rcases List.mem_map.mp ((matched.sameKeys _).mpr (List.mem_map_of_mem listed)) with ⟨other, found, equal⟩
      exact List.mem_map.mpr ⟨other, found,
        (same other (fromSource other found) row (fromDest row listed)).mp equal⟩
  · intro row rowMember other otherMember equal
    exact matched.unchanged row rowMember other otherMember
      ((same row (fromSource row rowMember) other (fromDest other otherMember)).mpr equal)

namespace RowSpec

variable (readers : Readers) (spec : RowSpec)

/-- The canonical texts of the key columns. -/
def keyTuple (record : Value) : List (List Char) :=
  spec.key.map (fun name => spec.norm.forKey.canonical readers (record.get name))

/-- A matched pair shows no change. -/
def Alike (row other : Value) : Prop := spec.changedColumns readers row other = []

/-! ## Matching by text -/

theorem verdict_eq_none_iff (sources dests : List Value) :
    spec.verdict readers sources dests = none <->
      (sources = [] ∧ dests = []) ∨
        exists row other, sources = [row] ∧ dests = [other] ∧ spec.Alike readers row other := by
  rcases sources with _ | ⟨row, _ | ⟨second, more⟩⟩
  · rcases dests with _ | ⟨other, others⟩
    · exact ⟨fun _ => Or.inl ⟨rfl, rfl⟩, fun _ => rfl⟩
    · simp [verdict]
  · rcases dests with _ | ⟨other, _ | ⟨third, others⟩⟩
    · simp [verdict]
    · unfold Alike
      rw [verdict]
      by_cases unchanged : spec.changedColumns readers row other = []
      · rw [unchanged]
        exact ⟨fun _ => Or.inr ⟨row, other, rfl, rfl, unchanged⟩, fun _ => rfl⟩
      · have filled : ¬ (spec.changedColumns readers row other).isEmpty = true :=
          fun empty => unchanged (List.isEmpty_iff.mp empty)
        rw [if_neg filled]
        simp [unchanged]
    · simp [verdict]
  · simp [verdict]

/-- A key repeats nowhere when no two rows have its text. -/
theorem nodup_texts_iff (rows : List Value) :
    (rows.map (spec.keyText readers)).Nodup <-> forall text, (spec.under readers rows text).length ≤ 1 := by
  rw [List.nodup_iff_count_le_one]
  apply forall_congr'
  intro text
  rw [List.count, List.countP_map, List.countP_eq_length_filter, under]
  have same : ((fun name => name == text) ∘ spec.keyText readers) =
      fun row => decide (spec.keyText readers row = text) := by
    funext row
    rw [Function.comp_apply, Bool.eq_iff_iff, beq_iff_eq, decide_eq_true_iff]
  rw [same]

/-- Nothing is reported exactly when the rows match by their texts. -/
theorem diffRows_eq_nil_iff (source dest : List Value) :
    spec.diffRows readers source dest = [] <->
      MatchedBy (spec.keyText readers) (spec.Alike readers) source dest := by
  have quiet : spec.diffRows readers source dest = [] <-> forall text,
      spec.verdict readers (spec.under readers source text) (spec.under readers dest text) = none := by
    rw [List.eq_nil_iff_forall_not_mem]
    simp only [mem_diffRows_iff, not_exists]
    constructor
    · intro silent text
      rw [Option.eq_none_iff_forall_ne_some]
      intro difference
      exact silent difference text
    · intro silent difference text judged
      rw [silent text] at judged
      cases judged
  rw [quiet]
  simp only [verdict_eq_none_iff]
  constructor
  · intro settled
    refine ⟨?_, ?_, ?_, ?_⟩
    · rw [nodup_texts_iff]
      intro text
      rcases settled text with ⟨empty, _⟩ | ⟨row, other, single, _, _⟩
      · rw [empty]
        exact Nat.zero_le 1
      · rw [single]
        exact le_refl 1
    · rw [nodup_texts_iff]
      intro text
      rcases settled text with ⟨_, empty⟩ | ⟨row, other, _, single, _⟩
      · rw [empty]
        exact Nat.zero_le 1
      · rw [single]
        exact le_refl 1
    · intro text
      rw [← not_iff_not, ← under_eq_nil_iff, ← under_eq_nil_iff]
      rcases settled text with ⟨empty, none⟩ | ⟨row, other, single, one, _⟩
      · rw [empty, none]
      · rw [single, one]
        simp
    · intro row rowMember other otherMember same
      have inSource : row ∈ spec.under readers source (spec.keyText readers row) :=
        (spec.mem_under readers).mpr ⟨rowMember, rfl⟩
      have inDest : other ∈ spec.under readers dest (spec.keyText readers row) :=
        (spec.mem_under readers).mpr ⟨otherMember, same.symm⟩
      rcases settled (spec.keyText readers row) with ⟨empty, _⟩ | ⟨only, match_, single, one, alike⟩
      · rw [empty] at inSource
        exact absurd inSource List.not_mem_nil
      · rw [single] at inSource
        rw [one] at inDest
        rw [List.mem_singleton.mp inSource, List.mem_singleton.mp inDest]
        exact alike
  · intro matched text
    have sourceShort := (spec.nodup_texts_iff readers source).mp matched.sourceOnce text
    have destShort := (spec.nodup_texts_iff readers dest).mp matched.destOnce text
    have together := matched.sameKeys text
    rw [← not_iff_not, ← under_eq_nil_iff, ← under_eq_nil_iff] at together
    cases sources : spec.under readers source text with
    | nil =>
        rw [sources] at together
        exact Or.inl ⟨rfl, together.mp rfl⟩
    | cons row others =>
        cases dests : spec.under readers dest text with
        | nil =>
            rw [sources, dests] at together
            cases together.mpr rfl
        | cons other more =>
            rw [sources] at sourceShort
            rw [dests] at destShort
            have noOthers : others = [] := List.length_eq_zero_iff.mp (by simpa using sourceShort)
            have noMore : more = [] := List.length_eq_zero_iff.mp (by simpa using destShort)
            rw [noOthers, noMore]
            refine Or.inr ⟨row, other, rfl, rfl, ?_⟩
            have inSource := (spec.mem_under readers).mp (sources ▸ List.mem_cons_self)
            have inDest := (spec.mem_under readers).mp (dests ▸ List.mem_cons_self)
            exact matched.unchanged row inSource.1 other inDest.1 (inSource.2.trans inDest.2.symm)

/-! ## Texts that stand for their keys -/

/-- The columns of a key can be told apart in its text. -/
def KeySeparated (record : Value) : Prop :=
  forall name, name ∈ spec.key.dropLast -> ';' ∉ spec.norm.forKey.canonical readers (record.get name)

theorem keyText_eq_of_keyTuple {left right : Value}
    (same : spec.keyTuple readers left = spec.keyTuple readers right) :
    spec.keyText readers left = spec.keyText readers right := by
  have columns := List.map_inj_left.mp same
  unfold keyText
  congr 1
  apply List.map_congr_left
  intro name member
  rw [columns name member]

theorem keyTuple_eq_of_keyText {left right : Value} (leftSeparated : spec.KeySeparated readers left)
    (rightSeparated : spec.KeySeparated readers right)
    (same : spec.keyText readers left = spec.keyText readers right) :
    spec.keyTuple readers left = spec.keyTuple readers right := by
  apply List.map_congr_left
  exact values_eq_of_fieldsText String.toList spec.key
    (fun name => spec.norm.forKey.canonical readers (left.get name))
    (fun name => spec.norm.forKey.canonical readers (right.get name))
    (fun name member => ⟨leftSeparated name member, rightSeparated name member⟩) same

/-- Rows whose keys can be told apart are matched by their keys. -/
theorem diffRows_eq_nil_iff_of_separated {source dest : List Value}
    (separated : forall row, row ∈ source ++ dest -> spec.KeySeparated readers row) :
    spec.diffRows readers source dest = [] <->
      MatchedBy (spec.keyTuple readers) (spec.Alike readers) source dest := by
  have same : forall row, row ∈ source ++ dest -> forall other, other ∈ source ++ dest ->
      (spec.keyText readers row = spec.keyText readers other <->
        spec.keyTuple readers row = spec.keyTuple readers other) := by
    intro row rowMember other otherMember
    exact ⟨spec.keyTuple_eq_of_keyText readers (separated row rowMember) (separated other otherMember),
      spec.keyText_eq_of_keyTuple readers⟩
  rw [diffRows_eq_nil_iff]
  constructor
  · exact MatchedBy.congr same
  · exact MatchedBy.congr (fun row rowMember other otherMember => (same row rowMember other otherMember).symm)

theorem keySeparated_of_length_le (short : spec.key.length ≤ 1) (record : Value) :
    spec.KeySeparated readers record := by
  have none : spec.key.dropLast = [] := by
    rw [← List.length_eq_zero_iff, List.length_dropLast]
    omega
  intro name member
  rw [none] at member
  exact absurd member List.not_mem_nil

/-! ## Keys that share a text -/

theorem alike_refl (row : Value) : spec.Alike readers row row :=
  spec.changedColumns_eq_nil_of readers (fun _ _ _ => rfl)

/-- A key column is compared by its key text. -/
theorem canonical_of_mem_key {name : String} (keyed : name ∈ spec.key) (record : Value) :
    spec.norm.forKey.canonical readers (record.get name) = spec.column readers record name := by
  unfold column Normalizer.canonicalColumn
  rw [if_pos (List.contains_iff_mem.mpr keyed)]

section Composite

variable {first second : String} {others : List String}

theorem keyText_textRecord (composite : spec.key = first :: second :: others) (distinct : spec.key.Nodup)
    (texts : String -> List Char) :
    spec.keyText readers (textRecord first second texts) =
      fieldsText '=' ';' ((first.toList, 's' :: 'x' :: texts first) ::
        (second.toList, 's' :: 'x' :: texts second) :: nullFields others) := by
  have columns : spec.keyText readers (textRecord first second texts) = fieldsText '=' ';'
      (spec.key.map (fun name => (name.toList, spec.column readers (textRecord first second texts) name))) := by
    unfold keyText
    congr 1
    apply List.map_congr_left
    intro name keyed
    rw [spec.canonical_of_mem_key readers keyed]
  have nulls : others.map (fun name => (name.toList, spec.column readers (textRecord first second texts) name)) =
      nullFields others := by
    rw [composite, List.nodup_cons, List.nodup_cons, List.mem_cons, not_or] at distinct
    apply List.map_congr_left
    intro name member
    have notFirst : name ≠ first := fun same => distinct.1.2 (same ▸ member)
    have notSecond : name ≠ second := fun same => distinct.2.1 (same ▸ member)
    rw [column_textRecord_of_ne readers spec texts notFirst notSecond]
  rw [columns, composite, List.map_cons, List.map_cons, nulls,
    column_textRecord readers spec texts (Or.inl rfl), column_textRecord readers spec texts (Or.inr rfl)]

/-- Two records exchange a text and its long spelling in the first two columns
of their keys. -/
theorem exists_shared_keyText (composite : spec.key = first :: second :: others) (distinct : spec.key.Nodup) :
    exists left right, spec.keyText readers left = spec.keyText readers right ∧
      spec.keyTuple readers left ≠ spec.keyTuple readers right := by
  have apart : second ≠ first := by
    rw [composite, List.nodup_cons, List.mem_cons, not_or] at distinct
    exact Ne.symm distinct.1.1
  let long : List Char := ';' :: (second.toList ++ '=' :: ['s', 'x'])
  let left : String -> List Char := fun name => if name = first then [] else long
  let right : String -> List Char := fun name => if name = first then long else []
  refine ⟨textRecord first second left, textRecord first second right, ?_, ?_⟩
  · rw [spec.keyText_textRecord readers composite distinct, spec.keyText_textRecord readers composite distinct]
    simp only [left, right, if_true, if_neg apart]
    exact fieldsText_exchange [] [] (nullFields others) first.toList second.toList ['s', 'x']
  · intro same
    have keyed : first ∈ spec.key := by
      rw [composite]
      exact List.mem_cons_self
    have texts := List.map_inj_left.mp same first keyed
    rw [spec.canonical_of_mem_key readers keyed, spec.canonical_of_mem_key readers keyed,
      column_textRecord readers spec left (Or.inl rfl), column_textRecord readers spec right (Or.inl rfl)] at texts
    simp only [left, right, if_true] at texts
    exact List.cons_ne_nil _ _ (List.cons.inj (List.cons.inj texts).2).2.symm

end Composite

/-- Both rows on both sides match, and their shared text is reported as a
repeat. -/
theorem diffRows_ne_nil_of_shared {left right : Value}
    (shared : spec.keyText readers left = spec.keyText readers right)
    (different : spec.keyTuple readers left ≠ spec.keyTuple readers right) :
    MatchedBy (spec.keyTuple readers) (spec.Alike readers) [left, right] [left, right] ∧
      spec.diffRows readers [left, right] [left, right] ≠ [] := by
  have once : ([left, right].map (spec.keyTuple readers)).Nodup := by simpa using different
  constructor
  · refine ⟨once, once, fun _ => Iff.rfl, ?_⟩
    intro row rowMember other otherMember same
    rw [List.inj_on_of_nodup_map once rowMember otherMember same]
    exact spec.alike_refl readers other
  · rw [Ne, diffRows_eq_nil_iff]
    intro matched
    have texts := matched.sourceOnce
    simp only [List.map_cons, List.map_nil, shared] at texts
    exact (List.nodup_cons.mp texts).1 (List.mem_singleton.mpr rfl)

/-- Rows are matched by their keys wherever the keys can be told apart in
their texts, and for all rows exactly when the key is a single column. -/
theorem keyText_matches_iff (distinct : spec.key.Nodup) :
    (forall left right, spec.KeySeparated readers left -> spec.KeySeparated readers right ->
      spec.keyText readers left = spec.keyText readers right ->
        spec.keyTuple readers left = spec.keyTuple readers right) ∧
    (forall source dest, (forall row, row ∈ source ++ dest -> spec.KeySeparated readers row) ->
      (spec.diffRows readers source dest = [] <->
        MatchedBy (spec.keyTuple readers) (spec.Alike readers) source dest)) ∧
    ((forall left right, spec.keyText readers left = spec.keyText readers right ->
      spec.keyTuple readers left = spec.keyTuple readers right) <-> spec.key.length ≤ 1) ∧
    ((forall source dest, spec.diffRows readers source dest = [] <->
      MatchedBy (spec.keyTuple readers) (spec.Alike readers) source dest) <-> spec.key.length ≤ 1) := by
  have composite : ¬ spec.key.length ≤ 1 -> exists left right,
      spec.keyText readers left = spec.keyText readers right ∧
        spec.keyTuple readers left ≠ spec.keyTuple readers right := by
    intro long
    cases columns : spec.key with
    | nil =>
        rw [columns] at long
        exact absurd (Nat.zero_le 1) long
    | cons first rest =>
        cases rest with
        | nil =>
            rw [columns] at long
            exact absurd (le_refl 1) long
        | cons second others => exact spec.exists_shared_keyText readers columns distinct
  refine ⟨?_, ?_, ?_, ?_⟩
  · intro left right leftSeparated rightSeparated same
    exact spec.keyTuple_eq_of_keyText readers leftSeparated rightSeparated same
  · intro source dest separated
    exact spec.diffRows_eq_nil_iff_of_separated readers separated
  · constructor
    · intro exactly
      by_contra long
      rcases composite long with ⟨left, right, shared, different⟩
      exact different (exactly left right shared)
    · intro short left right same
      exact spec.keyTuple_eq_of_keyText readers (spec.keySeparated_of_length_le readers short left)
        (spec.keySeparated_of_length_le readers short right) same
  · constructor
    · intro exactly
      by_contra long
      rcases composite long with ⟨left, right, shared, different⟩
      rcases spec.diffRows_ne_nil_of_shared readers shared different with ⟨matched, reported⟩
      exact reported ((exactly [left, right] [left, right]).mpr matched)
    · intro short source dest
      exact spec.diffRows_eq_nil_iff_of_separated readers
        (fun row _ => spec.keySeparated_of_length_le readers short row)

end RowSpec

def orderLine : Value := .object [("order", .number (.int 7)), ("line", .string "2"), ("note", .string "a;b")]

/-- A semicolon outside the key does no harm. -/
theorem orderLine_matches_itself :
    (plainSpec ["order", "line"]).key.Nodup ∧
      MatchedBy ((plainSpec ["order", "line"]).keyTuple noReaders) ((plainSpec ["order", "line"]).Alike noReaders)
        [orderLine] [orderLine] := by
  have distinct : (plainSpec ["order", "line"]).key.Nodup := by decide
  refine ⟨distinct, ((plainSpec ["order", "line"]).keyText_matches_iff noReaders distinct).2.1 _ _ ?_ |>.mp ?_⟩
  · intro row member name front
    have listed : row ∈ [orderLine] := (List.mem_append.mp member).elim id id
    rw [List.mem_singleton.mp listed, List.mem_singleton.mp front]
    decide +kernel
  · decide +kernel

def semicolonFirst : Value := .object [("a", .string "x;b=sy"), ("b", .string "z")]

def semicolonSecond : Value := .object [("a", .string "x"), ("b", .string "y;b=sz")]

/-- Two rows under different keys, the same on both sides, and a repeat is
reported. -/
theorem semicolonKeys_reported_as_duplicate :
    (plainSpec ["a", "b"]).keyText noReaders semicolonFirst =
        (plainSpec ["a", "b"]).keyText noReaders semicolonSecond ∧
      (plainSpec ["a", "b"]).keyTuple noReaders semicolonFirst ≠
        (plainSpec ["a", "b"]).keyTuple noReaders semicolonSecond ∧
      ((plainSpec ["a", "b"]).diffRows noReaders [semicolonFirst, semicolonSecond]
        [semicolonFirst, semicolonSecond]).length = 1 := by
  decide +kernel

end Verify
end FaucetStream
