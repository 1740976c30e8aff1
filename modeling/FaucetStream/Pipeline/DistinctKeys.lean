import Mathlib.Data.Finset.Card
import Mathlib.Data.Finset.Insert
import FaucetStream.Json.ObjectText
import FaucetStream.Pipeline.Cleanup

namespace FaucetStream
namespace Pipeline

open Json
open KeyedWrites

/-!
# The keys that were seen are the keys that were written

Two key tuples are the same key when their columns have the same canonical
JSON.  The recorder compares one text for each tuple, the JSON array of these
texts, and no two different lists of texts have the same array.
-/

/-! ## The text of a list of texts -/

/-- The texts as a JSON array, after its opening bracket. -/
def textsChars : List String -> List Char
  | [] => [']']
  | [text] => (Value.quote text).toList ++ [']']
  | text :: next :: rest => (Value.quote text).toList ++ ',' :: textsChars (next :: rest)

theorem array_text_toList (texts : List String) :
    (Value.array (texts.map Value.string)).text.toList = '[' :: textsChars texts := by
  have items : Value.itemTexts (texts.map Value.string) = texts.map Value.quote := by
    induction texts with
    | nil => rfl
    | cons text rest ih =>
        rw [List.map_cons, Value.itemTexts, ih, Value.text, List.map_cons]
  have body : (String.intercalate "," (texts.map Value.quote) ++ "]").toList = textsChars texts := by
    clear items
    induction texts with
    | nil => rfl
    | cons text rest ih =>
        cases rest with
        | nil =>
            rw [List.map_singleton, String.intercalate_singleton, String.toList_append]
            rfl
        | cons next rest =>
            rw [List.map_cons, List.map_cons, String.intercalate_cons_cons, String.append_assoc, String.toList_append,
              String.toList_append, ← List.map_cons, ih, List.append_assoc]
            rfl
  rw [Value.text, items, String.append_assoc, String.toList_append, body]
  rfl

/-- A quoted text ends where it ends, whatever follows. -/
theorem quote_append_inj {first second : String} {front back : List Char}
    (same : (Value.quote first).toList ++ front = (Value.quote second).toList ++ back) :
    first = second ∧ front = back := by
  rw [quote_toList, quote_toList] at same
  simp only [List.cons_append, List.append_assoc, List.nil_append, List.cons.injEq, true_and] at same
  have read := congrArg readString same
  rw [readString_escaped, readString_escaped] at read
  have parts := Prod.mk.inj (Option.some.inj read)
  exact ⟨String.toList_injective parts.1, parts.2⟩

theorem quote_head (text : String) : exists rest, (Value.quote text).toList = '"' :: rest :=
  ⟨_, quote_toList text⟩

theorem textsChars_inj {first second : List String} (same : textsChars first = textsChars second) : first = second := by
  induction first generalizing second with
  | nil =>
      cases second with
      | nil => rfl
      | cons text rest =>
          rcases quote_head text with ⟨tail, quoted⟩
          cases rest with
          | nil =>
              rw [textsChars, textsChars, quoted] at same
              cases same
          | cons next rest =>
              rw [textsChars, textsChars, quoted] at same
              cases same
  | cons text rest ih =>
      rcases quote_head text with ⟨tail, quoted⟩
      cases second with
      | nil =>
          cases rest with
          | nil =>
              rw [textsChars, textsChars, quoted] at same
              cases same
          | cons next rest =>
              rw [textsChars, textsChars, quoted] at same
              cases same
      | cons other others =>
          cases rest with
          | nil =>
              cases others with
              | nil =>
                  rw [textsChars, textsChars] at same
                  rw [(quote_append_inj same).1]
              | cons next others =>
                  rw [textsChars, textsChars] at same
                  cases (quote_append_inj same).2
          | cons next rest =>
              cases others with
              | nil =>
                  rw [textsChars, textsChars] at same
                  cases (quote_append_inj same).2
              | cons second others =>
                  rw [textsChars, textsChars] at same
                  rcases quote_append_inj same with ⟨rfl, later⟩
                  rw [ih (List.cons.inj later).2]

/-! ## Keys by their canonical JSON -/

/-- The canonical JSON of the columns of a key. -/
def canonicalColumns (tuple : KeyTuple) : List String := tuple.columns.map (fun column => column.2.canonicalJson)

theorem canonicalKeyText_eq_iff (first second : KeyTuple) :
    canonicalKeyText first = canonicalKeyText second <-> canonicalColumns first = canonicalColumns second := by
  have spelled : forall tuple,
      canonicalKeyText tuple = (Value.array ((canonicalColumns tuple).map Value.string)).text := by
    intro tuple
    rw [canonicalKeyText, canonicalColumns, List.map_map]
    rfl
  rw [spelled, spelled]
  constructor
  · intro same
    have chars := congrArg String.toList same
    rw [array_text_toList, array_text_toList] at chars
    exact textsChars_inj (List.cons.inj chars).2
  · intro same
    rw [same]

/-- The complete keys of the rows, one for each row that has one. -/
def writtenKeys (key : List String) (rows : List Value) : List KeyTuple :=
  rows.filterMap (fun row => recordKey row key)

/-- How many different keys the rows have. -/
def distinctKeys (key : List String) (rows : List Value) : Nat :=
  ((writtenKeys key rows).map canonicalColumns).toFinset.card

namespace SeenKeys

variable {key : List String} {maxKeys : Nat}

def recordPages (key : List String) (maxKeys : Nat) (pages : List (List Value)) : SeenKeys :=
  pages.foldl (recordPage key maxKeys) new

theorem recordPage_append (tracked : SeenKeys) (front back : List Value) :
    recordPage key maxKeys tracked (front ++ back) =
      recordPage key maxKeys (recordPage key maxKeys tracked front) back := by
  induction front generalizing tracked with
  | nil => rfl
  | cons record rest ih =>
      rw [List.cons_append, recordPage, recordPage]
      split
      · next overflowed => exact (recordPage_of_overflowed overflowed back).symm
      · cases recordKey record key with
        | none => exact ih tracked
        | some tuple =>
            dsimp only
            split
            · exact ih tracked
            · split
              · exact (recordPage_of_overflowed rfl back).symm
              · exact ih _

theorem recordPages_eq (pages : List (List Value)) :
    recordPages key maxKeys pages = recordPage key maxKeys new pages.flatten := by
  unfold recordPages
  generalize new = tracked
  induction pages generalizing tracked with
  | nil => rfl
  | cons page rest ih =>
      rw [List.foldl_cons, List.flatten_cons, recordPage_append, ih]

/-- The recorder holds each of the written keys once, and its texts are those of
its keys. -/
structure Exact (key : List String) (rows : List Value) (tracked : SeenKeys) : Prop where
  within : tracked.overflowed = false
  texts : tracked.seen = (tracked.keys.map canonicalKeyText).reverse
  once : (tracked.keys.map canonicalColumns).Nodup
  all : forall columns, columns ∈ tracked.keys.map canonicalColumns <->
    columns ∈ (writtenKeys key rows).map canonicalColumns
  written : tracked.keys.Sublist (writtenKeys key rows)

theorem Exact.length {rows : List Value} {tracked : SeenKeys} (held : Exact key rows tracked) :
    tracked.keys.length = distinctKeys key rows := by
  have same : (tracked.keys.map canonicalColumns).toFinset =
      ((writtenKeys key rows).map canonicalColumns).toFinset := by
    ext columns
    rw [List.mem_toFinset, List.mem_toFinset]
    exact held.all columns
  rw [distinctKeys, ← same, List.toFinset_card_of_nodup held.once, List.length_map]

theorem writtenKeys_concat (rows : List Value) (row : Value) :
    writtenKeys key (rows ++ [row]) = writtenKeys key rows ++ (recordKey row key).toList := by
  unfold writtenKeys
  rw [List.filterMap_append, List.filterMap_cons, List.filterMap_nil]
  cases recordKey row key with
  | none => rfl
  | some tuple => rfl

/-- A key the rows already have adds nothing to count. -/
theorem distinctKeys_concat_known {rows : List Value} {row : Value}
    (known : forall tuple, recordKey row key = some tuple ->
      canonicalColumns tuple ∈ (writtenKeys key rows).map canonicalColumns) :
    distinctKeys key (rows ++ [row]) = distinctKeys key rows := by
  unfold distinctKeys
  congr 1
  ext columns
  rw [writtenKeys_concat, List.mem_toFinset, List.mem_toFinset, List.map_append, List.mem_append]
  constructor
  · rintro (before | added)
    · exact before
    · rcases List.mem_map.mp added with ⟨tuple, found, rfl⟩
      exact known tuple (Option.mem_toList.mp found)
  · exact Or.inl

theorem distinctKeys_concat_new {rows : List Value} {row : Value} {tuple : KeyTuple}
    (read : recordKey row key = some tuple)
    (fresh : canonicalColumns tuple ∉ (writtenKeys key rows).map canonicalColumns) :
    distinctKeys key (rows ++ [row]) = distinctKeys key rows + 1 := by
  unfold distinctKeys
  have added : ((writtenKeys key (rows ++ [row])).map canonicalColumns).toFinset =
      insert (canonicalColumns tuple) ((writtenKeys key rows).map canonicalColumns).toFinset := by
    ext columns
    rw [writtenKeys_concat, read, Option.toList_some, List.map_append, List.map_singleton, List.mem_toFinset,
      List.mem_append, List.mem_singleton, Finset.mem_insert, List.mem_toFinset]
    exact Or.comm
  rw [added, Finset.card_insert_of_notMem]
  rw [List.mem_toFinset]
  exact fresh

theorem distinctKeys_le_concat (rows : List Value) (row : Value) :
    distinctKeys key rows ≤ distinctKeys key (rows ++ [row]) := by
  apply Finset.card_le_card
  intro columns member
  rw [List.mem_toFinset] at member ⊢
  rw [writtenKeys_concat, List.map_append]
  exact List.mem_append_left _ member

/-- One more row, while the ceiling has not been passed. -/
theorem Exact.step {rows : List Value} {tracked : SeenKeys} (held : Exact key rows tracked) (row : Value) :
    (maxKeys < distinctKeys key (rows ++ [row]) ∧ (recordPage key maxKeys tracked [row]).overflowed = true) ∨
      ((distinctKeys key rows ≤ maxKeys -> distinctKeys key (rows ++ [row]) ≤ maxKeys) ∧
        Exact key (rows ++ [row]) (recordPage key maxKeys tracked [row])) := by
  have within : ¬ tracked.overflowed = true := by
    rw [held.within]
    decide
  rw [recordPage, if_neg within]
  cases read : recordKey row key with
  | none =>
      right
      have silent : writtenKeys key (rows ++ [row]) = writtenKeys key rows := by
        rw [writtenKeys_concat, read, Option.toList_none, List.append_nil]
      refine ⟨?_, ?_⟩
      · rw [distinctKeys, distinctKeys, silent]
        exact id
      · rw [recordPage]
        exact ⟨held.within, held.texts, held.once, by rw [silent]; exact held.all,
          by rw [silent]; exact held.written⟩
  | some tuple =>
      have member : canonicalKeyText tuple ∈ tracked.seen <->
          canonicalColumns tuple ∈ (writtenKeys key rows).map canonicalColumns := by
        rw [held.texts, List.mem_reverse, ← held.all, List.mem_map, List.mem_map]
        simp only [canonicalKeyText_eq_iff]
      have grown : writtenKeys key (rows ++ [row]) = writtenKeys key rows ++ [tuple] := by
        rw [writtenKeys_concat, read, Option.toList_some]
      dsimp only
      by_cases known : canonicalColumns tuple ∈ (writtenKeys key rows).map canonicalColumns
      · right
        rw [if_pos (List.contains_iff_mem.mpr (member.mpr known)), recordPage]
        refine ⟨?_, held.within, held.texts, held.once, ?_, ?_⟩
        · intro few
          rw [distinctKeys_concat_known]
          · exact few
          · intro other found
            rw [read] at found
            cases found
            exact known
        · intro columns
          rw [held.all, grown, List.map_append, List.mem_append, List.map_singleton, List.mem_singleton]
          exact ⟨Or.inl, fun either => either.elim id (fun same => same ▸ known)⟩
        · rw [grown]
          exact held.written.trans (List.sublist_append_left _ _)
      · have unseen : ¬ tracked.seen.contains (canonicalKeyText tuple) = true := fun seen =>
          known (member.mp (List.contains_iff_mem.mp seen))
        rw [if_neg unseen, held.length]
        by_cases full : maxKeys ≤ distinctKeys key rows
        · left
          rw [if_pos full, distinctKeys_concat_new read known]
          exact ⟨Nat.lt_succ_of_le full, rfl⟩
        · right
          rw [if_neg full, recordPage]
          refine ⟨?_, rfl, ?_, ?_, ?_, ?_⟩
          · intro _
            rw [distinctKeys_concat_new read known]
            omega
          · rw [held.texts, List.map_append, List.reverse_append]
            rfl
          · rw [List.map_append, List.map_singleton]
            apply List.Nodup.append held.once (List.nodup_singleton _)
            intro columns before added
            rw [List.mem_singleton] at added
            subst added
            exact known ((held.all _).mp before)
          · intro columns
            rw [grown, List.map_append, List.map_append, List.mem_append, List.mem_append, held.all]
          · rw [grown]
            exact held.written.append (List.Sublist.refl _)

theorem recordPage_exact (key : List String) (maxKeys : Nat) (rows : List Value) :
    (maxKeys < distinctKeys key rows ∧ (recordPage key maxKeys new rows).overflowed = true) ∨
      (distinctKeys key rows ≤ maxKeys ∧ Exact key rows (recordPage key maxKeys new rows)) := by
  induction rows using List.reverseRecOn with
  | nil =>
      right
      exact ⟨Nat.zero_le _, rfl, rfl, List.nodup_nil, fun _ => Iff.rfl, List.Sublist.refl _⟩
  | append_singleton rows row ih =>
      rw [recordPage_append]
      rcases ih with ⟨many, overflowed⟩ | ⟨few, held⟩
      · left
        rw [recordPage_of_overflowed overflowed]
        exact ⟨lt_of_lt_of_le many (distinctKeys_le_concat rows row), overflowed⟩
      · rcases held.step row with overflowed | ⟨still, after⟩
        · exact Or.inl overflowed
        · exact Or.inr ⟨still few, after⟩

/-- Past the ceiling the recorder says so, after these pages and after any
more.  Up to it, it holds every key that was written, once. -/
theorem recordPages_exact (key : List String) (maxKeys : Nat) (pages : List (List Value)) :
    (maxKeys < distinctKeys key pages.flatten ->
        forall more, (recordPages key maxKeys (pages ++ more)).overflowed = true) ∧
      (distinctKeys key pages.flatten ≤ maxKeys ->
        (recordPages key maxKeys pages).overflowed = false ∧
          ((recordPages key maxKeys pages).keys.map canonicalColumns).Nodup ∧
          (forall columns, columns ∈ (recordPages key maxKeys pages).keys.map canonicalColumns <->
            columns ∈ (writtenKeys key pages.flatten).map canonicalColumns) ∧
          (recordPages key maxKeys pages).keys.Sublist (writtenKeys key pages.flatten)) := by
  constructor
  · intro many more
    rcases recordPage_exact key maxKeys pages.flatten with ⟨_, overflowed⟩ | ⟨few, _⟩
    · rw [recordPages_eq, List.flatten_append, recordPage_append, recordPage_of_overflowed overflowed]
      exact overflowed
    · exact absurd many (Nat.not_lt_of_le few)
  · intro few
    rw [recordPages_eq]
    rcases recordPage_exact key maxKeys pages.flatten with ⟨many, _⟩ | ⟨_, held⟩
    · exact absurd many (Nat.not_lt_of_le few)
    · exact ⟨held.within, held.once, held.all, held.written⟩

end SeenKeys

end Pipeline
end FaucetStream
