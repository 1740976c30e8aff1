import FaucetStream.Governance.Apply
import FaucetStream.Governance.Schema

namespace FaucetStream
namespace Governance

open Json

/-!
# Schema drift

A page drifts when its inferred shape does not fit the destination.  The diff
is made once for the page, and quarantine then asks of each record whether it
shows the drift the page was found to have.  A record can therefore misfit
without showing any drift: what the page as a whole was not found to do is
not looked for in its records.
-/

/-! ## Comparing fragments -/

/-- The types of a fragment without null, and whether null is among them. -/
def typeSet (fragment : Value) : List String × Bool :=
  (((collectTypes fragment).filter (fun name => name != "null")).insertionSort
      (fun left right => left ≤ right),
    (collectTypes fragment).contains "null")

/-- `DRIFT_ALSO_ACCEPTS`. -/
def driftAlsoAccepts : String := "x-faucet-also-accepts"

variable (dest : Value)

def alsoAccepts : List String :=
  match dest.get driftAlsoAccepts with
  | some (.array names) => names.filterMap Value.asStr
  | _ => []

/-- A destination column takes a type: it declares it, stores it faithfully
all the same, or is a number column and the type is integer. -/
def accepts (name : String) : Bool :=
  (typeSet dest).1.contains name || (alsoAccepts dest).contains name ||
    (name == "integer" && (typeSet dest).1.contains "number")

def fits (dest page : Value) : Bool :=
  if (typeSet page).2 && !(typeSet dest).2 then false
  else (typeSet page).1.all (accepts dest)

/-- One type stands alone, and several stand as a list. -/
def typeValue : List Value -> Value
  | [name] => name
  | names => .array names

/-- The types of a fragment, put in its `type` entry. -/
def withTypes (fragment : Value) (names : List String) (nullable : Bool) : Value :=
  match fragment with
  | .object entries =>
      .object (insertType entries
        (typeValue (names.map Value.string ++ if nullable then [.string "null"] else [])))
  | other => other

/-- The page fragment without the types the destination only also accepts. -/
def withoutAlsoAccepted (dest page : Value) : Value :=
  if (alsoAccepts dest).isEmpty then page
  else
    withTypes page
      ((typeSet page).1.filter (fun name =>
        (typeSet dest).1.contains name || !(alsoAccepts dest).contains name))
      (typeSet page).2

/-- The family of types of a column: integer gives way to number. -/
def typeFamily (names : List String) : List String :=
  let merged := sortedTypes names
  if merged.contains "number" then merged.filter (fun name => name != "integer") else merged

def evolvable (dest page : Value) : Bool :=
  (typeFamily ((typeSet dest).1 ++ (typeSet page).1)).length == 1

def baseWidened (before after : Value) : Bool :=
  typeFamily ((typeSet before).1 ++ (typeSet after).1) != typeFamily (typeSet before).1

def addsNull (before after : Value) : Bool := (typeSet after).2 && !(typeSet before).2

/-! ## Numeric texts -/

/-- Skip digits, of which there must be one. -/
def skipDigits : List Char -> Option (List Char)
  | character :: rest => if character.isDigit then some (rest.dropWhile Char.isDigit) else none
  | [] => none

def skipSign : List Char -> List Char
  | '-' :: rest => rest
  | text => text

def skipFraction : List Char -> Option (List Char)
  | '.' :: rest => skipDigits rest
  | text => some text

def skipExponent : List Char -> Option (List Char)
  | 'e' :: '+' :: rest | 'e' :: '-' :: rest | 'E' :: '+' :: rest | 'E' :: '-' :: rest => skipDigits rest
  | 'e' :: rest | 'E' :: rest => skipDigits rest
  | text => some text

/-- The exact text of a JSON number. -/
def isNumericText (text : String) : Bool :=
  (skipDigits (skipSign text.toList) >>= skipFraction >>= skipExponent) == some []

/-! ## The diff of a page -/

/-- Numeric texts count as numbers in a number column. -/
def retypedNames (names : List String) : List String :=
  let renamed := names.map (fun name => if name = "string" then "number" else name)
  sortedTypes
    (if renamed.contains "number" then renamed.filter (fun name => name != "integer") else renamed)

/-- Every string a page holds under a name is a numeric text. -/
def allNumeric (records : List Value) (name : String) : Bool :=
  (records.filterMap (fun record => record.get name)).all (fun value =>
    match value.asStr with
    | some text => isNumericText text
    | none => true)

/-- A number column whose strings on this page are all numeric texts is typed
as number. -/
def retypedFragment (records : List Value) (name : String) (fragment : Value) : Value :=
  if !(typeSet dest).1.contains "number" || !(typeSet fragment).1.contains "string" then fragment
  else if !allNumeric records name then fragment
  else withTypes fragment (retypedNames (typeSet fragment).1) (typeSet fragment).2

/-- The shape of a page.  A destination without fields retypes nothing. -/
def inferPageSchema (destination : Value) (records : List Value) : Value :=
  objectSchema ((extractProperties (inferSchema records)).map (fun entry =>
    match (extractProperties destination).lookup entry.1 with
    | some dest => (entry.1, retypedFragment dest records entry.1 entry.2)
    | none => entry))

/-- One record's own value fits the destination column. -/
def valueFits (name : String) (value : Value) : Bool :=
  let destination := objectSchema [(name, dest)]
  let page := inferPageSchema destination [.object [(name, value)]]
  match (extractProperties page).lookup name with
  | some fragment => fits dest fragment
  | none => false

/-- The bucket a page column falls in, if it drifts. -/
inductive Drift where
  | addition (change : ColumnChange)
  | widening (change : ColumnChange)
  | incompatible (change : ColumnChange)

/-- How one column of the page drifts. -/
def columnDrift (destination : Value) (allowWidening : Bool) (column : String × Value) : Option Drift :=
  match (extractProperties destination).lookup column.1 with
  | none => some (.addition ⟨column.1, none, column.2⟩)
  | some dest =>
      if fits dest column.2 then none
      else
        let page := withoutAlsoAccepted dest column.2
        let change : ColumnChange := ⟨column.1, some dest, page⟩
        if allowWidening && evolvable dest page then some (.widening change) else some (.incompatible change)

def sortChanges (changes : List ColumnChange) : List ColumnChange :=
  changes.insertionSort (fun left right => left.name ≤ right.name)

def diffSchema (destination page : Value) (allowWidening : Bool) : SchemaDiff :=
  let drifts := (extractProperties page).filterMap (columnDrift destination allowWidening)
  { additions := sortChanges (drifts.filterMap (fun drift =>
      match drift with
      | .addition change => some change
      | _ => none)),
    widenings := sortChanges (drifts.filterMap (fun drift =>
      match drift with
      | .widening change => some change
      | _ => none)),
    incompatible := sortChanges (drifts.filterMap (fun drift =>
      match drift with
      | .incompatible change => some change
      | _ => none)),
    droppableRequired := (((extractProperties destination).filter (fun column =>
      ((extractProperties page).lookup column.1).isNone && !(typeSet column.2).2)).map Prod.fst).insertionSort
        (fun left right => left ≤ right) }

/-- The rules the drift pass is run with. -/
def typeRules : TypeRules where
  inferPageSchema := inferPageSchema
  diffSchema := diffSchema
  valueFits := valueFits
  baseWidened := baseWidened
  addsNull := addsNull

/-! ## Fitting a column -/

theorem mem_typeSet {fragment : Value} {name : String} :
    name ∈ (typeSet fragment).1 <-> name ∈ collectTypes fragment ∧ name ≠ "null" := by
  unfold typeSet
  rw [List.mem_insertionSort, List.mem_filter, bne_iff_ne]

theorem typeSet_nullable {fragment : Value} :
    (typeSet fragment).2 = true <-> "null" ∈ collectTypes fragment :=
  List.contains_iff_mem

theorem fits_iff {dest page : Value} :
    fits dest page = true <->
      ("null" ∈ collectTypes page -> (typeSet dest).2 = true) ∧
        forall name, name ∈ collectTypes page -> name ≠ "null" -> accepts dest name = true := by
  have typesAccepted : (typeSet page).1.all (accepts dest) = true <->
      forall name, name ∈ collectTypes page -> name ≠ "null" -> accepts dest name = true := by
    rw [List.all_eq_true]
    constructor
    · intro every name listed proper
      exact every name (mem_typeSet.mpr ⟨listed, proper⟩)
    · intro every name listed
      rcases mem_typeSet.mp listed with ⟨member, proper⟩
      exact every name member proper
  unfold fits
  rw [← typeSet_nullable]
  cases (typeSet page).2 with
  | false =>
      simp only [Bool.false_and, Bool.false_eq_true, if_false, false_implies, true_and]
      exact typesAccepted
  | true =>
      cases (typeSet dest).2 with
      | false => simp only [Bool.not_false, Bool.and_self, if_true, Bool.false_eq_true, true_implies, false_and]
      | true =>
          simp only [Bool.not_true, Bool.and_false, Bool.false_eq_true, if_false, true_implies, true_and]
          exact typesAccepted

/-- The type a value has for a column: a numeric text is a number in a number
column. -/
def fitType (dest value : Value) : String :=
  match value with
  | .string text =>
      if (typeSet dest).1.contains "number" && isNumericText text then "number" else "string"
  | other => typeName other

/-- A value fits a column by itself. -/
def FitsAlone (dest value : Value) : Prop :=
  if fitType dest value = "null" then (typeSet dest).2 = true else accepts dest (fitType dest value) = true

theorem fitType_of_not_string {dest value : Value} (other : typeName value ≠ "string") :
    fitType dest value = typeName value := by
  cases value with
  | string text => exact absurd rfl other
  | null => rfl
  | bool _ => rfl
  | number _ => rfl
  | array _ => rfl
  | object _ => rfl

theorem fitType_string (text : String) :
    fitType dest (.string text) = "number" ∨ fitType dest (.string text) = "string" := by
  unfold fitType
  by_cases numeric : ((typeSet dest).1.contains "number" && isNumericText text) = true
  · exact Or.inl (if_pos numeric)
  · exact Or.inr (if_neg numeric)

theorem typeName_number (amount : Number) :
    typeName (.number amount) = "integer" ∨ typeName (.number amount) = "number" := by
  by_cases whole : ((Value.asI64 (.number amount)).isSome || (Value.asU64 (.number amount)).isSome) = true
  · exact Or.inl (if_pos whole)
  · exact Or.inr (if_neg whole)

theorem eq_string_of_typeName {value : Value} (named : typeName value = "string") :
    exists text, value = .string text := by
  cases value with
  | string text => exact ⟨text, rfl⟩
  | null => exact absurd named (by decide)
  | bool _ => exact absurd (show "boolean" = "string" from named) (by decide)
  | array _ => exact absurd (show "array" = "string" from named) (by decide)
  | object _ => exact absurd (show "object" = "string" from named) (by decide)
  | number amount =>
      rcases typeName_number amount with whole | fractional
      · exact absurd (whole.symm.trans named) (by decide)
      · exact absurd (fractional.symm.trans named) (by decide)

theorem accepts_number_column {dest : Value} (number : (typeSet dest).1.contains "number" = true) :
    accepts dest "number" = true ∧ accepts dest "integer" = true := by
  unfold accepts
  rw [number]
  simp only [Bool.true_or, Bool.and_true, beq_self_eq_true, Bool.or_true, and_self]

/-- The values a page holds under a name. -/
def columnValues (objects : List (List (String × Value))) (name : String) : List Value :=
  objects.filterMap (fun entries => entries.lookup name)

theorem mem_columnValues {objects : List (List (String × Value))} {name : String} {value : Value} :
    value ∈ columnValues objects name <-> exists entries, entries ∈ objects ∧ entries.lookup name = some value :=
  List.mem_filterMap

theorem columnValues_short_iff {objects : List (List (String × Value))} {name : String} :
    (columnValues objects name).length < objects.length <->
      exists entries, entries ∈ objects ∧ entries.lookup name = none := by
  unfold columnValues
  induction objects with
  | nil => simp only [List.filterMap_nil, List.length_nil, Nat.lt_irrefl, List.not_mem_nil, false_and, exists_false]
  | cons entries rest ih =>
      have bound : (rest.filterMap (fun entries => entries.lookup name)).length ≤ rest.length :=
        List.length_filterMap_le _ rest
      cases found : entries.lookup name with
      | none =>
          rw [List.filterMap_cons_none found, List.length_cons]
          constructor
          · intro
            exact ⟨entries, List.mem_cons_self, found⟩
          · intro
            exact Nat.lt_succ_of_le bound
      | some value =>
          rw [List.filterMap_cons_some found, List.length_cons, List.length_cons, Nat.add_lt_add_iff_right,
            ih]
          constructor
          · rintro ⟨other, member, missing⟩
            exact ⟨other, List.mem_cons_of_mem entries member, missing⟩
          · rintro ⟨other, member, missing⟩
            rcases List.mem_cons.mp member with rfl | later
            · rw [found] at missing
              cases missing
            · exact ⟨other, later, missing⟩

/-- The types of a field of a page that carries it. -/
theorem mem_collectTypes_fieldSchema {objects : List (List (String × Value))} {key : String}
    (carried : columnValues objects key ≠ []) (name : String) :
    name ∈ collectTypes (fieldSchema objects key) <->
      ((exists value, value ∈ columnValues objects key ∧ typeName value = name) ∧
        (name = "integer" -> forall value, value ∈ columnValues objects key -> typeName value ≠ "number")) ∨
      (name = "null" ∧ exists entries, entries ∈ objects ∧ entries.lookup key = none) := by
  have described := describes_reduceSchemas carried name
  change name ∈ collectTypes (if (columnValues objects key).length < objects.length then
      addNullType ((reduceSchemas ((columnValues objects key).map inferValueSchema)).getD (.object []))
    else (reduceSchemas ((columnValues objects key).map inferValueSchema)).getD (.object [])) <-> _
  rw [← columnValues_short_iff]
  by_cases short : (columnValues objects key).length < objects.length
  · rw [if_pos short, mem_collectTypes_addNullType, described]
    rw [and_iff_left short]
  · rw [if_neg short, described, or_iff_left (fun both => short both.2)]

/-! ## The fragment of a page column -/

theorem collectTypes_withTypes (entries : List (String × Value)) (names : List String) (nullable : Bool)
    (name : String) :
    name ∈ collectTypes (withTypes (.object entries) names nullable) <->
      name ∈ names ∨ (name = "null" ∧ nullable = true) := by
  have listed : (names.map Value.string ++ if nullable then [Value.string "null"] else []) =
      (names ++ if nullable then ["null"] else []).map Value.string := by
    cases nullable with
    | false => rw [List.map_append]; rfl
    | true => rw [List.map_append]; rfl
  have named : collectTypes (withTypes (.object entries) names nullable) =
      names ++ if nullable then ["null"] else [] := by
    change collectTypes (.object (("type", typeValue _) :: _)) = _
    rw [listed]
    rcases (names ++ if nullable = true then ["null"] else []) with _ | ⟨first, _ | ⟨second, more⟩⟩
    · rfl
    · rfl
    · exact filterMap_asStr (first :: second :: more)
  rw [named, List.mem_append]
  cases nullable with
  | false => simp only [Bool.false_eq_true, if_false, List.not_mem_nil, and_false]
  | true => simp only [if_true, List.mem_singleton, and_true]

theorem mem_retypedNames {names : List String} (texts : "string" ∈ names) (name : String) :
    name ∈ retypedNames names <-> name = "number" ∨ (name ∈ names ∧ name ≠ "string" ∧ name ≠ "integer") := by
  have renamed : "number" ∈ names.map (fun name => if name = "string" then "number" else name) :=
    List.mem_map.mpr ⟨"string", texts, if_pos rfl⟩
  unfold retypedNames
  simp only
  rw [mem_sortedTypes, if_pos (List.contains_iff_mem.mpr renamed), List.mem_filter, List.mem_map, bne_iff_ne]
  constructor
  · rintro ⟨⟨original, member, rfl⟩, proper⟩
    by_cases text : original = "string"
    · exact Or.inl (if_pos text)
    · rw [if_neg text] at proper ⊢
      exact Or.inr ⟨member, text, proper⟩
  · rintro (rfl | ⟨member, other, proper⟩)
    · exact ⟨⟨"string", texts, if_pos rfl⟩, by decide⟩
    · exact ⟨⟨name, member, if_neg other⟩, proper⟩

/-- A page column is retyped: it is a number column in the destination and
its strings, of which there are some, are all numeric texts. -/
def Retyped (values : List Value) : Prop :=
  (typeSet dest).1.contains "number" = true ∧ (exists value, value ∈ values ∧ typeName value = "string") ∧
    forall text, Value.string text ∈ values -> isNumericText text = true

theorem allNumeric_iff (objects : List (List (String × Value))) (key : String) :
    allNumeric (objects.map Value.object) key = true <->
      forall text, Value.string text ∈ columnValues objects key -> isNumericText text = true := by
  have held : (objects.map Value.object).filterMap (fun record => record.get key) = columnValues objects key := by
    rw [List.filterMap_map]
    rfl
  unfold allNumeric
  rw [held, List.all_eq_true]
  constructor
  · intro every text member
    exact every (.string text) member
  · intro every value member
    cases value with
    | string text => exact every text member
    | null => rfl
    | bool _ => rfl
    | number _ => rfl
    | array _ => rfl
    | object _ => rfl

theorem null_not_retyped (dest value : Value) (null : typeName value = "null") : fitType dest value = "null" := by
  rw [fitType_of_not_string (by rw [null]; decide), null]

/-- The types of a page column as the destination sees them. -/
theorem mem_collectTypes_retypedFragment {dest : Value} {objects : List (List (String × Value))} {key : String}
    (carried : columnValues objects key ≠ []) (name : String) :
    name ∈ collectTypes (retypedFragment dest (objects.map Value.object) key (fieldSchema objects key)) <->
      (Retyped dest (columnValues objects key) ∧
        (name = "number" ∨
          (name ∈ collectTypes (fieldSchema objects key) ∧ name ≠ "string" ∧ name ≠ "integer"))) ∨
      (¬Retyped dest (columnValues objects key) ∧ name ∈ collectTypes (fieldSchema objects key)) := by
  have texts : (typeSet (fieldSchema objects key)).1.contains "string" = true <->
      exists value, value ∈ columnValues objects key ∧ typeName value = "string" := by
    rw [List.contains_iff_mem, mem_typeSet, mem_collectTypes_fieldSchema carried]
    constructor
    · rintro ⟨⟨held, -⟩ | ⟨impossible, -⟩, -⟩
      · exact held
      · exact absurd impossible (by decide)
    · intro held
      exact ⟨Or.inl ⟨held, fun impossible => absurd impossible (by decide)⟩, by decide⟩
  have retyped : Retyped dest (columnValues objects key) <->
      (typeSet dest).1.contains "number" = true ∧
        (typeSet (fieldSchema objects key)).1.contains "string" = true ∧
          allNumeric (objects.map Value.object) key = true := by
    rw [texts, allNumeric_iff]
    rfl
  unfold retypedFragment
  by_cases applies : Retyped dest (columnValues objects key)
  · rcases retyped.mp applies with ⟨number, string, numeric⟩
    rcases fieldSchema_object objects key with ⟨entries, object⟩
    simp only [number, string, numeric, Bool.not_true, Bool.or_false, Bool.false_eq_true, if_false, applies,
      true_and, not_true_eq_false, false_and, or_false]
    rw [object, collectTypes_withTypes, ← object, mem_retypedNames (List.contains_iff_mem.mp string), mem_typeSet,
      typeSet_nullable]
    constructor
    · rintro ((rfl | ⟨⟨listed, -⟩, other⟩) | ⟨rfl, listed⟩)
      · exact Or.inl rfl
      · exact Or.inr ⟨listed, other⟩
      · exact Or.inr ⟨listed, by decide, by decide⟩
    · rintro (rfl | ⟨listed, other⟩)
      · exact Or.inl (Or.inl rfl)
      · by_cases null : name = "null"
        · exact Or.inr ⟨null, by rw [← null]; exact listed⟩
        · exact Or.inl (Or.inr ⟨⟨listed, null⟩, other⟩)
  · have kept : (if (!(typeSet dest).1.contains "number" ||
          !(typeSet (fieldSchema objects key)).1.contains "string") = true then fieldSchema objects key
        else if (!allNumeric (objects.map Value.object) key) = true then fieldSchema objects key
        else withTypes (fieldSchema objects key) (retypedNames (typeSet (fieldSchema objects key)).1)
          (typeSet (fieldSchema objects key)).2) = fieldSchema objects key := by
      rw [retyped] at applies
      by_cases number : (typeSet dest).1.contains "number" = true
      · by_cases string : (typeSet (fieldSchema objects key)).1.contains "string" = true
        · have numeric : allNumeric (objects.map Value.object) key = false :=
            Bool.eq_false_iff.mpr (fun every => applies ⟨number, string, every⟩)
          rw [numeric, if_pos (show (!false) = true from rfl), ite_self]
        · rw [Bool.eq_false_iff.mpr string, Bool.not_false, Bool.or_true, if_pos rfl]
      · rw [Bool.eq_false_iff.mpr number, Bool.not_false, Bool.true_or, if_pos rfl]
    rw [kept]
    simp only [applies, false_and, not_false_eq_true, true_and, false_or]

/-- A value that a float of the same column hides: integers are not among the
types of a column that holds floats. -/
def BesideFloat (values : List Value) (value : Value) : Prop :=
  typeName value = "integer" ∧ exists other, other ∈ values ∧ typeName other = "number"

theorem fitsAlone_iff_accepts {dest value : Value} {name : String} (own : fitType dest value = name)
    (proper : name ≠ "null") : FitsAlone dest value <-> accepts dest name = true := by
  unfold FitsAlone
  rw [own, if_neg proper]

theorem fitsAlone_null {dest value : Value} (null : typeName value = "null") :
    FitsAlone dest value <-> (typeSet dest).2 = true := by
  unfold FitsAlone
  rw [null_not_retyped dest value null, if_pos rfl]

theorem fitType_text (text : String) (plain : fitType dest (.string text) ≠ "string") :
    (typeSet dest).1.contains "number" = true ∧ isNumericText text = true := by
  unfold fitType at plain
  by_cases numeric : ((typeSet dest).1.contains "number" && isNumericText text) = true
  · rw [Bool.and_eq_true] at numeric
    exact numeric
  · exact absurd (if_neg numeric) plain

section Column

variable {dest : Value} {objects : List (List (String × Value))} {key : String}

/-- A type of the column, as the destination sees it, when integers are not
in question. -/
theorem mem_retypedFragment_of_value (carried : columnValues objects key ≠ []) {value : Value}
    (held : value ∈ columnValues objects key) (wholeAlone : typeName value ≠ "integer")
    (plain : typeName value = "string" -> ¬Retyped dest (columnValues objects key)) :
    typeName value ∈
      collectTypes (retypedFragment dest (objects.map Value.object) key (fieldSchema objects key)) := by
  have listed : typeName value ∈ collectTypes (fieldSchema objects key) := by
    rw [mem_collectTypes_fieldSchema carried]
    exact Or.inl ⟨⟨value, held, rfl⟩, fun whole => absurd whole wholeAlone⟩
  rw [mem_collectTypes_retypedFragment carried]
  by_cases retyped : Retyped dest (columnValues objects key)
  · exact Or.inl ⟨retyped, Or.inr ⟨listed, fun text => plain text retyped, wholeAlone⟩⟩
  · exact Or.inr ⟨retyped, listed⟩

/-- A page column that fits leaves every value of it fitting, but for an
integer beside a float. -/
theorem fitsAlone_of_fits (carried : columnValues objects key ≠ [])
    (fitting : fits dest (retypedFragment dest (objects.map Value.object) key (fieldSchema objects key)) = true)
    {value : Value} (held : value ∈ columnValues objects key) :
    FitsAlone dest value ∨ BesideFloat (columnValues objects key) value := by
  rcases fits_iff.mp fitting with ⟨nullable, every⟩
  by_cases text : typeName value = "string"
  · rcases eq_string_of_typeName text with ⟨content, rfl⟩
    left
    by_cases plain : fitType dest (.string content) = "string"
    · have notRetyped : ¬Retyped dest (columnValues objects key) := by
        rintro ⟨number, -, numeric⟩
        have isNumber : fitType dest (.string content) = "number" := by
          unfold fitType
          exact if_pos (by rw [number, numeric content held]; rfl)
        exact absurd (isNumber.symm.trans plain) (by decide)
      have listed := mem_retypedFragment_of_value carried held (by rw [text]; decide) (fun _ => notRetyped)
      rw [fitsAlone_iff_accepts plain (by decide)]
      exact every "string" listed (by decide)
    · rcases fitType_string dest content with number | string
      · rw [fitsAlone_iff_accepts number (by decide)]
        exact (accepts_number_column (fitType_text dest content plain).1).1
      · exact absurd string plain
  · have own : fitType dest value = typeName value := fitType_of_not_string text
    by_cases whole : typeName value = "integer"
    · by_cases floats : exists other, other ∈ columnValues objects key ∧ typeName other = "number"
      · exact Or.inr ⟨whole, floats⟩
      · left
        rw [fitsAlone_iff_accepts (own.trans whole) (by decide)]
        by_cases retyped : Retyped dest (columnValues objects key)
        · exact (accepts_number_column retyped.1).2
        · apply every "integer" _ (by decide)
          rw [mem_collectTypes_retypedFragment carried, mem_collectTypes_fieldSchema carried]
          refine Or.inr ⟨retyped, Or.inl ⟨⟨value, held, whole⟩, ?_⟩⟩
          intro _ other member number
          exact floats ⟨other, member, number⟩
    · have listed : typeName value ∈ collectTypes
          (retypedFragment dest (objects.map Value.object) key (fieldSchema objects key)) :=
        mem_retypedFragment_of_value carried held whole (fun same => absurd same text)
      left
      by_cases null : typeName value = "null"
      · rw [fitsAlone_null null]
        rw [null] at listed
        exact nullable listed
      · rw [fitsAlone_iff_accepts own null]
        exact every _ listed null

/-- The other way round: a type of the column is accepted because a value of
that type fits. -/
theorem accepts_of_fitsAlone (carried : columnValues objects key ≠ [])
    (each : forall value, value ∈ columnValues objects key ->
      FitsAlone dest value ∨ BesideFloat (columnValues objects key) value)
    {name : String} (proper : name ≠ "null")
    (listed : name ∈
      collectTypes (retypedFragment dest (objects.map Value.object) key (fieldSchema objects key))) :
    accepts dest name = true := by
  rw [mem_collectTypes_retypedFragment carried, mem_collectTypes_fieldSchema carried] at listed
  have fitting : forall value, value ∈ columnValues objects key -> typeName value ≠ "integer" ->
      FitsAlone dest value := by
    intro value held other
    rcases each value held with alone | beside
    · exact alone
    · exact absurd beside.1 other
  have ordinary : forall value, value ∈ columnValues objects key -> typeName value ≠ "integer" ->
      typeName value ≠ "string" -> typeName value ≠ "null" -> accepts dest (typeName value) = true := by
    intro value held whole text null
    exact (fitsAlone_iff_accepts (fitType_of_not_string text) null).mp (fitting value held whole)
  rcases listed with
    ⟨retyped, rfl | ⟨⟨⟨value, held, rfl⟩, -⟩ | ⟨null, -⟩, text, whole⟩⟩ |
    ⟨notRetyped, ⟨⟨value, held, rfl⟩, alone⟩ | ⟨null, -⟩⟩
  · exact (accepts_number_column retyped.1).1
  · exact ordinary value held whole text proper
  · exact absurd null proper
  · by_cases whole : typeName value = "integer"
    · rcases each value held with fitted | ⟨-, other, member, number⟩
      · exact (fitsAlone_iff_accepts (fitType_of_not_string (by rw [whole]; decide)) proper).mp fitted
      · exact absurd number (alone whole other member)
    · by_cases text : typeName value = "string"
      · rw [text]
        -- A text that is no number stands in the column, or it were retyped.
        by_cases plain : exists content, Value.string content ∈ columnValues objects key ∧
            fitType dest (.string content) = "string"
        · rcases plain with ⟨content, member, string⟩
          exact (fitsAlone_iff_accepts string (by decide)).mp
            (fitting _ member (show "string" ≠ "integer" by decide))
        · exfalso
          have numeric : forall content, Value.string content ∈ columnValues objects key ->
              (typeSet dest).1.contains "number" = true ∧ isNumericText content = true := by
            intro content member
            exact fitType_text dest content (fun string => plain ⟨content, member, string⟩)
          rcases eq_string_of_typeName text with ⟨content, rfl⟩
          exact notRetyped ⟨(numeric content held).1, ⟨_, held, text⟩, fun other member => (numeric other member).2⟩
      · exact ordinary value held whole text proper
  · exact absurd null proper

/-- When a page column fits the destination.  Records without the column
count as null, and each value must fit by itself, except an integer beside a
float. -/
theorem fits_retypedFragment_iff (carried : columnValues objects key ≠ []) :
    fits dest (retypedFragment dest (objects.map Value.object) key (fieldSchema objects key)) = true <->
      (forall entries, entries ∈ objects -> entries.lookup key = none -> (typeSet dest).2 = true) ∧
        forall value, value ∈ columnValues objects key ->
          FitsAlone dest value ∨ BesideFloat (columnValues objects key) value := by
  have nulls : "null" ∈
      collectTypes (retypedFragment dest (objects.map Value.object) key (fieldSchema objects key)) <->
        (exists value, value ∈ columnValues objects key ∧ typeName value = "null") ∨
          exists entries, entries ∈ objects ∧ entries.lookup key = none := by
    rw [mem_collectTypes_retypedFragment carried, mem_collectTypes_fieldSchema carried]
    by_cases retyped : Retyped dest (columnValues objects key) <;> simp [retyped]
  constructor
  · intro fitting
    constructor
    · intro entries member missing
      exact (fits_iff.mp fitting).1 (nulls.mpr (Or.inr ⟨entries, member, missing⟩))
    · intro value held
      exact fitsAlone_of_fits carried fitting held
  · rintro ⟨missing, each⟩
    rw [fits_iff]
    constructor
    · intro null
      rcases nulls.mp null with ⟨value, held, named⟩ | ⟨entries, member, absent⟩
      · rcases each value held with alone | beside
        · exact (fitsAlone_null named).mp alone
        · exact absurd (named.symm.trans beside.1) (by decide)
      · exact missing entries member absent
    · intro name listed proper
      exact accepts_of_fitsAlone carried each proper listed

end Column

/-- The fragment of one column of a page. -/
def pageFragment (destination : Value) (objects : List (List (String × Value))) (name : String) : Value :=
  match (extractProperties destination).lookup name with
  | some dest => retypedFragment dest (objects.map Value.object) name (fieldSchema objects name)
  | none => fieldSchema objects name

theorem extractProperties_inferPageSchema (destination : Value) (objects : List (List (String × Value))) :
    extractProperties (inferPageSchema destination (objects.map Value.object)) =
      (allKeys objects).map (fun name => (name, pageFragment destination objects name)) := by
  have listed : extractProperties (inferPageSchema destination (objects.map Value.object)) =
      (extractProperties (inferSchema (objects.map Value.object))).map (fun entry =>
        match (extractProperties destination).lookup entry.1 with
        | some dest => (entry.1, retypedFragment dest (objects.map Value.object) entry.1 entry.2)
        | none => entry) := rfl
  rw [listed, extractProperties_inferSchema, filterMap_asObject, List.map_map]
  apply List.map_congr_left
  intro name _
  unfold pageFragment
  simp only [Function.comp_apply]
  cases (extractProperties destination).lookup name with
  | none => rfl
  | some dest => rfl

theorem lookup_inferPageSchema (destination : Value) (objects : List (List (String × Value))) (name : String) :
    (extractProperties (inferPageSchema destination (objects.map Value.object))).lookup name =
      if name ∈ allKeys objects then some (pageFragment destination objects name) else none := by
  rw [extractProperties_inferPageSchema, lookup_map_key]

/-- A value fits its column exactly when it does so by itself. -/
theorem valueFits_iff (name : String) (value : Value) :
    valueFits dest name value = true <-> FitsAlone dest value := by
  have found : ([(name, value)] : List (String × Value)).lookup name = some value := by
    rw [List.lookup_cons, beq_self_eq_true]
  have column : (extractProperties (objectSchema [(name, dest)])).lookup name = some dest := by
    change ([(name, dest)] : List (String × Value)).lookup name = some dest
    rw [List.lookup_cons, beq_self_eq_true]
  have held : columnValues [[(name, value)]] name = [value] := by
    unfold columnValues
    rw [List.filterMap_cons_some found, List.filterMap_nil]
  have carried : columnValues [[(name, value)]] name ≠ [] := by
    rw [held]
    exact List.cons_ne_nil value []
  have listed : name ∈ allKeys [[(name, value)]] := by
    rw [mem_allKeys]
    exact ⟨_, List.mem_singleton_self _, by rw [found]; rfl⟩
  have shape := lookup_inferPageSchema (objectSchema [(name, dest)]) [[(name, value)]] name
  rw [if_pos listed, pageFragment, column] at shape
  unfold valueFits
  simp only
  rw [show [Value.object [(name, value)]] = [[(name, value)]].map Value.object from rfl, shape]
  simp only
  rw [fits_retypedFragment_iff carried]
  constructor
  · rintro ⟨-, each⟩
    rcases each value (by rw [held]; exact List.mem_singleton_self value) with alone | ⟨whole, other, member, number⟩
    · exact alone
    · rw [held, List.mem_singleton] at member
      rw [member, whole] at number
      exact absurd number (by decide)
  · intro alone
    constructor
    · intro entries member missing
      rw [List.mem_singleton.mp member, found] at missing
      cases missing
    · intro other member
      rw [held, List.mem_singleton] at member
      rw [member]
      exact Or.inl alone

/-! ## What quarantine looks for -/

/-- The columns of a destination. -/
abbrev columns : List (String × Value) := extractProperties dest

/-- A record that the destination takes: it has no column of its own, each
value fits its column, and no column that is never null is missing. -/
structure FitsDestination (entries : List (String × Value)) : Prop where
  known : forall name value, entries.lookup name = some value -> ((columns dest).lookup name).isSome = true
  fitting : forall name value column, entries.lookup name = some value -> (columns dest).lookup name = some column ->
    valueFits column name value = true
  complete : forall column, column ∈ columns dest -> (typeSet column.2).2 = false ->
    (entries.lookup column.1).isSome = true

/-- The record lacks a column that is never null and that another record of
the page carries. -/
def LacksCarried (page : List (List (String × Value))) (entries : List (String × Value)) : Prop :=
  exists column, column ∈ columns dest ∧ (typeSet column.2).2 = false ∧ entries.lookup column.1 = none ∧
    exists other, other ∈ page ∧ (other.lookup column.1).isSome = true

/-- An integer that does not fit its column, on a page whose floats do: the
column takes floats without being a number column, and apart from integers
nothing in it is out of place. -/
def ShadowedInteger (page : List (List (String × Value))) (name : String) (column value : Value) : Prop :=
  typeName value = "integer" ∧ valueFits column name value = false ∧
    (exists other float, other ∈ page ∧ other.lookup name = some float ∧ typeName float = "number") ∧
      forall other, other ∈ page ->
        match other.lookup name with
        | some held => valueFits column name held = true ∨ typeName held = "integer"
        | none => (typeSet column).2 = true

def HoldsShadowed (page : List (List (String × Value))) (entries : List (String × Value)) : Prop :=
  exists name value column, entries.lookup name = some value ∧ (columns dest).lookup name = some column ∧
    ShadowedInteger page name column value

/-- Drift that stands out on the page: a column the destination lacks, a
value that does not fit and is not shadowed, or a required column that no
record of the page carries. -/
inductive ShowsDrift (page : List (List (String × Value))) (entries : List (String × Value)) :
    Prop where
  | unknown (name : String) (value : Value) (held : entries.lookup name = some value)
      (missing : (columns dest).lookup name = none)
  | misfit (name : String) (value column : Value) (held : entries.lookup name = some value)
      (known : (columns dest).lookup name = some column) (wrong : valueFits column name value = false)
      (plain : ¬ShadowedInteger page name column value)
  | absent (column : String × Value) (known : column ∈ columns dest) (required : (typeSet column.2).2 = false)
      (nowhere : forall other, other ∈ page -> other.lookup column.1 = none)

/-! ## The buckets of the diff -/

section Buckets

variable (dest : Value) (page : List (List (String × Value))) (allowWidening : Bool)

/-- The diff of a page of objects. -/
def pageDiff : SchemaDiff :=
  diffSchema dest (inferPageSchema dest (page.map Value.object)) allowWidening

theorem mem_sortChanges {changes : List ColumnChange} {change : ColumnChange} :
    change ∈ sortChanges changes <-> change ∈ changes :=
  List.mem_insertionSort _

theorem additions_iff (name : String) :
    (pageDiff dest page allowWidening).additions.any (fun change => change.name == name) = true <->
      name ∈ allKeys page ∧ (columns dest).lookup name = none := by
  rw [List.any_eq_true]
  unfold pageDiff diffSchema
  simp only [mem_sortChanges, List.mem_filterMap, extractProperties_inferPageSchema, List.mem_map, beq_iff_eq]
  constructor
  · rintro ⟨change, ⟨drift, ⟨column, ⟨key, listed, rfl⟩, drifts⟩, picked⟩, rfl⟩
    unfold columnDrift at drifts
    simp only at drifts
    cases known : (extractProperties dest).lookup key with
    | none =>
        rw [known] at drifts
        cases drifts
        cases picked
        exact ⟨listed, known⟩
    | some column =>
        rw [known] at drifts
        simp only at drifts
        split at drifts
        · cases drifts
        · split at drifts <;> cases drifts <;> cases picked
  · rintro ⟨listed, missing⟩
    refine ⟨⟨name, none, pageFragment dest page name⟩,
      ⟨.addition ⟨name, none, pageFragment dest page name⟩, ⟨_, ⟨name, listed, rfl⟩, ?_⟩, rfl⟩, rfl⟩
    unfold columnDrift
    simp only
    rw [missing]

/-- A column among the widenings or the incompatible changes. -/
theorem typedColumn_iff (name : String) (column : Value) :
    (exists change, change ∈ (pageDiff dest page allowWidening).widenings ++
        (pageDiff dest page allowWidening).incompatible ∧ change.name = name ∧ change.fromType = some column) <->
      name ∈ allKeys page ∧ (columns dest).lookup name = some column ∧
        fits column (pageFragment dest page name) = false := by
  unfold pageDiff diffSchema
  simp only [List.mem_append, mem_sortChanges, List.mem_filterMap, extractProperties_inferPageSchema, List.mem_map]
  constructor
  · have drifted : forall key drift, key ∈ allKeys page ->
        columnDrift dest allowWidening (key, pageFragment dest page key) = some drift ->
        forall change, (drift = .widening change ∨ drift = .incompatible change) ->
          change.name = name -> change.fromType = some column ->
            name ∈ allKeys page ∧ (columns dest).lookup name = some column ∧
              fits column (pageFragment dest page name) = false := by
      intro key drift listed drifts change which named typed
      unfold columnDrift at drifts
      simp only at drifts
      cases known : (extractProperties dest).lookup key with
      | none =>
          rw [known] at drifts
          cases drifts
          rcases which with impossible | impossible <;> cases impossible
      | some dest' =>
          rw [known] at drifts
          simp only at drifts
          by_cases fitting : fits dest' (pageFragment dest page key) = true
          · rw [if_pos fitting] at drifts
            cases drifts
          · rw [if_neg fitting] at drifts
            have change_eq : change.name = key ∧ change.fromType = some dest' := by
              split at drifts <;> cases drifts <;> rcases which with same | same <;> cases same <;> exact ⟨rfl, rfl⟩
            rcases change_eq with ⟨nameIs, typeIs⟩
            rw [nameIs] at named
            rw [typeIs] at typed
            subst named
            cases typed
            exact ⟨listed, known, Bool.eq_false_iff.mpr fitting⟩
    rintro ⟨change, ⟨drift, ⟨_, ⟨key, listed, rfl⟩, drifts⟩, picked⟩ |
        ⟨drift, ⟨_, ⟨key, listed, rfl⟩, drifts⟩, picked⟩, named, typed⟩
    · refine drifted key drift listed drifts change (Or.inl ?_) named typed
      cases drift <;> cases picked
      rfl
    · refine drifted key drift listed drifts change (Or.inr ?_) named typed
      cases drift <;> cases picked
      rfl
  · rintro ⟨listed, known, misfit⟩
    have drifts : columnDrift dest allowWidening (name, pageFragment dest page name) =
        if allowWidening && evolvable column (withoutAlsoAccepted column (pageFragment dest page name)) then
          some (.widening ⟨name, some column, withoutAlsoAccepted column (pageFragment dest page name)⟩)
        else some (.incompatible ⟨name, some column, withoutAlsoAccepted column (pageFragment dest page name)⟩) := by
      unfold columnDrift
      simp only
      rw [known]
      simp only
      rw [misfit, if_neg Bool.false_ne_true]
    refine ⟨⟨name, some column, withoutAlsoAccepted column (pageFragment dest page name)⟩, ?_, rfl, rfl⟩
    split at drifts
    · exact Or.inl ⟨_, ⟨_, ⟨name, listed, rfl⟩, drifts⟩, rfl⟩
    · exact Or.inr ⟨_, ⟨_, ⟨name, listed, rfl⟩, drifts⟩, rfl⟩

theorem mem_droppableRequired {name : String} :
    name ∈ (pageDiff dest page allowWidening).droppableRequired <->
      exists column, column ∈ columns dest ∧ column.1 = name ∧ name ∉ allKeys page ∧
        (typeSet column.2).2 = false := by
  unfold pageDiff diffSchema
  simp only [List.mem_insertionSort, List.mem_map, List.mem_filter, Bool.and_eq_true, Bool.not_eq_true',
    lookup_inferPageSchema]
  constructor
  · rintro ⟨column, ⟨known, absent, required⟩, rfl⟩
    refine ⟨column, known, rfl, ?_, required⟩
    intro listed
    rw [if_pos listed] at absent
    cases absent
  · rintro ⟨column, known, rfl, missing, required⟩
    refine ⟨column, ⟨known, ?_, required⟩, rfl⟩
    rw [if_neg missing]
    rfl

end Buckets

/-! ## The records that are kept -/

section Kept

variable {dest : Value} {page : List (List (String × Value))} {entries : List (String × Value)}

theorem mem_allKeys_of_lookup {name : String} {value : Value} (member : entries ∈ page)
    (held : entries.lookup name = some value) : name ∈ allKeys page := by
  rw [mem_allKeys]
  exact ⟨entries, member, by rw [held]; rfl⟩

theorem not_mem_allKeys {name : String} :
    name ∉ allKeys page <-> forall other, other ∈ page -> other.lookup name = none := by
  rw [mem_allKeys]
  constructor
  · intro nobody other member
    rw [← Option.not_isSome_iff_eq_none]
    intro found
    exact nobody ⟨other, member, found⟩
  · rintro nowhere ⟨other, member, found⟩
    rw [nowhere other member] at found
    cases found

/-- The page fits a column that one of its values does not fit exactly when
the value is a shadowed integer. -/
theorem fits_pageFragment_iff_shadowed {name : String} {value column : Value} (member : entries ∈ page)
    (held : entries.lookup name = some value) (known : (columns dest).lookup name = some column)
    (wrong : valueFits column name value = false) :
    fits column (pageFragment dest page name) = true <-> ShadowedInteger page name column value := by
  have inColumn : value ∈ columnValues page name := mem_columnValues.mpr ⟨entries, member, held⟩
  have carried : columnValues page name ≠ [] := List.ne_nil_of_mem inColumn
  have alone : forall other, FitsAlone column other <-> valueFits column name other = true :=
    fun other => (valueFits_iff column name other).symm
  have fragment : pageFragment dest page name =
      retypedFragment column (page.map Value.object) name (fieldSchema page name) := by
    unfold pageFragment
    rw [known]
  rw [fragment, fits_retypedFragment_iff carried]
  constructor
  · rintro ⟨missing, each⟩
    rcases each value inColumn with fitting | ⟨whole, float, floatHeld, number⟩
    · rw [alone, wrong] at fitting
      cases fitting
    · rcases mem_columnValues.mp floatHeld with ⟨other, otherMember, floatLookup⟩
      refine ⟨whole, wrong, ⟨other, float, otherMember, floatLookup, number⟩, ?_⟩
      intro another anotherMember
      cases found : another.lookup name with
      | none => exact missing another anotherMember found
      | some third =>
          rcases each third (mem_columnValues.mpr ⟨another, anotherMember, found⟩) with fitting | beside
          · exact Or.inl ((alone third).mp fitting)
          · exact Or.inr beside.1
  · rintro ⟨whole, -, ⟨other, float, otherMember, floatLookup, number⟩, rest⟩
    constructor
    · intro another anotherMember missing
      have nullable := rest another anotherMember
      rw [missing] at nullable
      exact nullable
    · intro third thirdHeld
      rcases mem_columnValues.mp thirdHeld with ⟨another, anotherMember, found⟩
      have fitting := rest another anotherMember
      rw [found] at fitting
      rcases fitting with fits | integer
      · exact Or.inl ((alone third).mpr fits)
      · exact Or.inr ⟨integer, float, mem_columnValues.mpr ⟨other, otherMember, floatLookup⟩, number⟩

/-- Quarantine takes out the records that show drift on their page. -/
theorem exhibitsDrift_iff (allowWidening : Bool) (member : entries ∈ page) :
    exhibitsDrift typeRules (pageDiff dest page allowWidening) (.object entries) = true <->
      ShowsDrift dest page entries := by
  unfold exhibitsDrift
  simp only [Bool.or_eq_true]
  rw [List.any_eq_true, List.any_eq_true, List.any_eq_true]
  constructor
  · rintro ((⟨entry, listed, added⟩ | ⟨change, listed, misfit⟩) | ⟨name, listed, absent⟩)
    · rcases (additions_iff dest page allowWidening entry.1).mp added with ⟨-, missing⟩
      rcases Option.isSome_iff_exists.mp (lookup_isSome_iff.mpr (List.mem_map_of_mem listed)) with ⟨value, held⟩
      exact .unknown entry.1 value held missing
    · cases typed : change.fromType with
      | none =>
          rw [typed] at misfit
          cases misfit
      | some column =>
          cases held : entries.lookup change.name with
          | none =>
              rw [typed, held] at misfit
              cases misfit
          | some value =>
              rw [typed, held] at misfit
              have wrong : valueFits column change.name value = false := Bool.not_eq_true' _ |>.mp misfit
              rcases (typedColumn_iff dest page allowWidening change.name column).mp
                ⟨change, listed, rfl, typed⟩ with ⟨-, known, unfit⟩
              refine .misfit change.name value column held known wrong ?_
              rw [← fits_pageFragment_iff_shadowed member held known wrong, unfit]
              exact Bool.false_ne_true
    · rcases (mem_droppableRequired dest page allowWidening).mp listed with ⟨column, known, rfl, nowhere, required⟩
      exact .absent column known required (not_mem_allKeys.mp nowhere)
  · intro shows
    cases shows with
    | unknown name value held missing =>
        left
        left
        have carried : name ∈ entries.map Prod.fst := lookup_isSome_iff.mp (by rw [held]; rfl)
        rcases List.mem_map.mp carried with ⟨entry, listed, rfl⟩
        exact ⟨entry, listed,
          (additions_iff dest page allowWidening entry.1).mpr ⟨mem_allKeys_of_lookup member held, missing⟩⟩
    | misfit name value column held known wrong plain =>
        left
        right
        rw [← fits_pageFragment_iff_shadowed member held known wrong, Bool.not_eq_true] at plain
        rcases (typedColumn_iff dest page allowWidening name column).mpr
          ⟨mem_allKeys_of_lookup member held, known, plain⟩ with ⟨change, listed, rfl, typed⟩
        refine ⟨change, listed, ?_⟩
        rw [typed, held]
        change (!valueFits column change.name value) = true
        rw [wrong]
        rfl
    | absent column known required nowhere =>
        right
        refine ⟨column.1, ?_, ?_⟩
        · rw [mem_droppableRequired]
          exact ⟨column, known, rfl, not_mem_allKeys.mpr nowhere, required⟩
        · rw [nowhere entries member]
          rfl

/-- A record that shows no drift fits unless its misfit is hidden by the rest
of the page. -/
theorem fitsDestination_iff_of_not_shows (quiet : ¬ShowsDrift dest page entries) :
    FitsDestination dest entries <-> ¬(LacksCarried dest page entries ∨ HoldsShadowed dest page entries) := by
  constructor
  · rintro fitting (⟨column, known, required, missing, -⟩ | ⟨name, value, column, held, known, shadowed⟩)
    · have carried := fitting.complete column known required
      rw [missing] at carried
      cases carried
    · have fits := fitting.fitting name value column held known
      rw [shadowed.2.1] at fits
      cases fits
  · intro hidden
    constructor
    · intro name value held
      rw [Option.isSome_iff_ne_none]
      intro missing
      exact quiet (.unknown name value held missing)
    · intro name value column held known
      by_contra wrong
      rw [Bool.not_eq_true] at wrong
      by_cases shadowed : ShadowedInteger page name column value
      · exact hidden (Or.inr ⟨name, value, column, held, known, shadowed⟩)
      · exact quiet (.misfit name value column held known wrong shadowed)
    · intro column known required
      rw [Option.isSome_iff_ne_none]
      intro missing
      by_cases somewhere : exists other, other ∈ page ∧ (other.lookup column.1).isSome = true
      · exact hidden (Or.inl ⟨column, known, required, missing, somewhere⟩)
      · apply quiet
        refine .absent column known required (not_mem_allKeys.mp ?_)
        rw [mem_allKeys]
        exact somewhere

end Kept

theorem mem_kept_iff (diff : SchemaDiff) (records : List Value) (pageIndices : List Nat) (labels : Labels)
    (record : Value) :
    record ∈ (quarantineDriftRows typeRules diff records pageIndices labels).1 <->
      record ∈ records ∧ exhibitsDrift typeRules diff record = false := by
  unfold quarantineDriftRows
  simp only [List.mem_map, List.mem_filter, Bool.not_eq_true']
  constructor
  · rintro ⟨row, ⟨placed, quiet⟩, rfl⟩
    exact ⟨List.fst_mem_of_mem_zipIdx placed, quiet⟩
  · rintro ⟨member, quiet⟩
    rcases List.mem_iff_getElem.mp member with ⟨index, bound, rfl⟩
    refine ⟨(records[index], index), ⟨?_, quiet⟩, rfl⟩
    rw [List.mem_zipIdx_iff_getElem?]
    exact List.getElem?_eq_getElem bound

/-- The records quarantine keeps of a page all fit the destination exactly
when each record with a hidden misfit also shows some drift. -/
theorem kept_records_fit_iff (page : List (List (String × Value))) (allowWidening : Bool)
    (pageIndices : List Nat) (labels : Labels) :
    (forall entries, Value.object entries ∈
        (quarantineDriftRows typeRules
          (diffSchema dest (inferPageSchema dest (page.map Value.object)) allowWidening)
          (page.map Value.object) pageIndices labels).1 -> FitsDestination dest entries) <->
      forall entries, entries ∈ page -> LacksCarried dest page entries ∨ HoldsShadowed dest page entries ->
        ShowsDrift dest page entries := by
  have kept : forall entries, Value.object entries ∈
      (quarantineDriftRows typeRules (pageDiff dest page allowWidening) (page.map Value.object)
        pageIndices labels).1 <-> entries ∈ page ∧ ¬ShowsDrift dest page entries := by
    intro entries
    rw [mem_kept_iff]
    have listed : Value.object entries ∈ page.map Value.object <-> entries ∈ page := by
      rw [List.mem_map]
      constructor
      · rintro ⟨other, member, same⟩
        cases same
        exact member
      · intro member
        exact ⟨entries, member, rfl⟩
    rw [listed]
    apply and_congr_right
    intro member
    rw [← exhibitsDrift_iff allowWidening member, Bool.not_eq_true]
  constructor
  · intro fitting entries member hidden
    by_contra quiet
    exact (fitsDestination_iff_of_not_shows quiet).mp
      (fitting entries ((kept entries).mpr ⟨member, quiet⟩)) hidden
  · intro shown entries keeps
    rcases (kept entries).mp keeps with ⟨member, quiet⟩
    rw [fitsDestination_iff_of_not_shows quiet]
    intro hidden
    exact quiet (shown entries member hidden)

/-- A page of two records, one without the required column of the other:
both are kept. -/
theorem lacking_record_kept :
    let dest := objectSchema [("id", typed "integer")]
    let page : List (List (String × Value)) := [[("id", .number (.int 1))], []]
    Value.object [] ∈ (quarantineDriftRows typeRules
      (diffSchema dest (inferPageSchema dest (page.map Value.object)) false) (page.map Value.object) [0, 1]
      ⟨"sink", "pipeline", ""⟩).1 ∧ ¬FitsDestination dest [] := by
  intro dest page
  constructor
  · decide
  · intro fitting
    exact absurd (fitting.complete ("id", typed "integer") List.mem_cons_self (by decide)) (by decide)

end Governance
end FaucetStream
