import FaucetStream.Governance.Schema

namespace FaucetStream
namespace Governance

open Json

/-!
# Inferred schemas accept what they were inferred from

A record validates against a fragment by the rules of JSON Schema: its type is
one the fragment names, each field the fragment describes validates against the
field's fragment, and each item of an array against the fragment of its items.
A fragment that says nothing accepts everything.

Merging is not sound for that reading: a fragment that says nothing loses what
it accepted once another fragment is merged into it.  What is carried through
the merges is stronger.  A fragment covers a value when it names its type and
has a fragment that covers it for each of its fields and items.
-/

/-! ## Validation -/

/-- A number without a fractional part; a float may be one. -/
def isIntegral : Value -> Bool
  | .number amount => amount.value.isInt
  | _ => false

/-- The type of a value in JSON Schema, where all numbers are of one type. -/
def jsonType : Value -> String
  | .null => "null"
  | .bool _ => "boolean"
  | .number _ => "number"
  | .string _ => "string"
  | .array _ => "array"
  | .object _ => "object"

def hasType (value : Value) (name : String) : Bool :=
  name == jsonType value || (name == "integer" && isIntegral value)

/-- The keyword `type`: a name, or a list of names of which one is enough. -/
def acceptsType (schema value : Value) : Bool :=
  match schema.get "type" with
  | none => true
  | some (.string name) => hasType value name
  | some (.array names) => (names.filterMap Value.asStr).any (hasType value)
  | some _ => false

/-- The keywords `type`, `properties` and `items`, at every depth. -/
inductive Validates : Value -> Value -> Prop
  | intro {entries : List (String × Value)} {value : Value}
      (typed : acceptsType (.object entries) value = true)
      (properties : forall key field schema, value.get key = some field ->
        (extractProperties (.object entries)).lookup key = some schema -> Validates schema field)
      (items : forall elements element schema, value = .array elements -> element ∈ elements ->
        Value.get (.object entries) "items" = some schema -> Validates schema element) :
      Validates (.object entries) value

/-! ## What a fragment covers -/

theorem sizeOf_element_lt {element : Value} {elements : List Value} (member : element ∈ elements) :
    sizeOf element < sizeOf (Value.array elements) := by
  have smaller := List.sizeOf_lt_of_mem member
  rw [Value.array.sizeOf_spec]
  omega

theorem sizeOf_field_lt {value field : Value} {key : String} (found : value.get key = some field) :
    sizeOf field < sizeOf value := by
  cases value with
  | object entries =>
      have member : (key, field) ∈ entries := by
        have listed : entries.lookup key = some field := found
        rw [List.lookup_eq_some_iff] at listed
        rcases listed with ⟨before, after, rfl, _⟩
        exact List.mem_append_right _ List.mem_cons_self
      have smaller := List.sizeOf_lt_of_mem member
      rw [Prod.mk.sizeOf_spec] at smaller
      rw [Value.object.sizeOf_spec]
      omega
  | _ => cases found

/-- A fragment names the type of a value and covers each of its fields and
items. -/
def Covers (schema value : Value) : Prop :=
  (exists name, name ∈ collectTypes schema ∧ hasType value name = true) ∧
    (forall key field, (found : value.get key = some field) ->
      exists part, (extractProperties schema).lookup key = some part ∧ Covers part field) ∧
    forall elements element, (shape : value = .array elements) -> (member : element ∈ elements) ->
      exists part, schema.get "items" = some part ∧ Covers part element
termination_by sizeOf value
decreasing_by
  · exact sizeOf_field_lt found
  · rw [shape]
    exact sizeOf_element_lt member

/-- Induction from the fields and items of a value. -/
theorem value_by_parts {motive : Value -> Prop}
    (step : forall value, (forall key field, value.get key = some field -> motive field) ->
      (forall elements element, value = .array elements -> element ∈ elements -> motive element) -> motive value)
    (value : Value) : motive value := by
  induction size : sizeOf value using Nat.strong_induction_on generalizing value with
  | _ size ih =>
      apply step
      · intro key field found
        exact ih (sizeOf field) (size ▸ sizeOf_field_lt found) field rfl
      · rintro elements element rfl member
        exact ih (sizeOf element) (size ▸ sizeOf_element_lt member) element rfl

theorem jsonType_of_fields {value field : Value} {key : String} (found : value.get key = some field) :
    jsonType value = "object" := by
  cases value with
  | object entries => rfl
  | _ => cases found

/-- Only an object has the type of objects, and only an array that of arrays. -/
theorem eq_of_hasType {value : Value} {name : String} (typed : hasType value name = true)
    (plain : isIntegral value = false) : name = jsonType value := by
  unfold hasType at typed
  rw [plain, Bool.and_false, Bool.or_false, beq_iff_eq] at typed
  exact typed

/-! ## Merged fragments -/

/-- The fragment of a field in a merge. -/
def mergedField : Option Value -> Option Value -> Option Value
  | some left, some right => some (mergeSchemas left right)
  | some left, none => some (addNullType left)
  | none, some right => some (addNullType right)
  | none, none => none

theorem lookup_addNullType (entries : List (String × Value)) (key : String) :
    (entries.map (fun entry => (entry.1, addNullType entry.2))).lookup key =
      mergedField none (entries.lookup key) := by
  induction entries with
  | nil => rfl
  | cons entry rest ih =>
      rw [List.map_cons, List.lookup_cons, List.lookup_cons]
      cases key == entry.1 with
      | true => rfl
      | false => exact ih

theorem lookup_sharedProperties (properties right : List (String × Value)) (key : String) :
    (sharedProperties properties right).lookup key =
      (properties.lookup key).bind (fun schema => mergedField (some schema) (right.lookup key)) := by
  induction properties with
  | nil => rfl
  | cons entry rest ih =>
      rcases entry with ⟨name, schema⟩
      rw [sharedProperties, List.lookup_cons, List.lookup_cons]
      cases same : key == name with
      | false => exact ih
      | true =>
          rw [beq_iff_eq.mp same]
          dsimp only
          cases right.lookup name with
          | none => rfl
          | some other => rfl

theorem lookup_filter_fresh (properties right : List (String × Value)) {key : String}
    (fresh : properties.lookup key = none) :
    (right.filter (fun entry => !(properties.map Prod.fst).contains entry.1)).lookup key = right.lookup key := by
  have absent : (properties.map Prod.fst).contains key = false := by
    rw [Bool.eq_false_iff, ne_eq, List.contains_iff_mem, ← lookup_isSome_iff, fresh]
    exact Bool.false_ne_true
  induction right with
  | nil => rfl
  | cons entry rest ih =>
      rw [List.filter_cons, List.lookup_cons]
      cases same : key == entry.1 with
      | true =>
          rw [← beq_iff_eq.mp same, absent]
          simp only [Bool.not_false, if_true]
          rw [List.lookup_cons, same]
      | false =>
          split
          · rw [List.lookup_cons, same]
            exact ih
          · exact ih

/-- The properties of a fragment that may not be an object. -/
def asProperties : Value -> List (String × Value)
  | .object properties => properties
  | _ => []

theorem lookup_mergeProperties (left : Value) (right : List (String × Value)) (key : String) :
    (mergeProperties left right).lookup key = mergedField ((asProperties left).lookup key) (right.lookup key) := by
  cases left with
  | object properties =>
      rw [mergeProperties, List.lookup_append, lookup_sharedProperties, lookup_addNullType]
      change _ = mergedField (properties.lookup key) (right.lookup key)
      cases found : properties.lookup key with
      | none =>
          rw [lookup_filter_fresh properties right found]
          rfl
      | some schema =>
          cases right.lookup key with
          | none => rfl
          | some other => rfl
  | _ => exact lookup_addNullType right key

theorem get_cons (name key : String) (schema : Value) (rest : List (String × Value)) :
    Value.get (.object ((name, schema) :: rest)) key =
      if name = key then some schema else Value.get (.object rest) key := by
  change ((name, schema) :: rest).lookup key = _
  rw [List.lookup_cons]
  by_cases same : name = key
  · rw [if_pos same, same, beq_self_eq_true]
  · rw [if_neg same, beq_eq_false_iff_ne.mpr (Ne.symm same)]
    rfl

theorem extractProperties_cons (name : String) (schema : Value) (rest : List (String × Value)) :
    extractProperties (.object ((name, schema) :: rest)) =
      if name = "properties" then asProperties schema else extractProperties (.object rest) := by
  unfold extractProperties
  rw [get_cons]
  by_cases same : name = "properties"
  · rw [if_pos same, if_pos same]
    cases schema <;> rfl
  · rw [if_neg same, if_neg same]

theorem lookup_mergedProperties (entries : List (String × Value)) (right : Value) (key : String) :
    (mergedProperties entries right).lookup key =
      mergedField ((extractProperties (.object entries)).lookup key) ((extractProperties right).lookup key) := by
  induction entries with
  | nil => exact lookup_addNullType _ key
  | cons entry rest ih =>
      rcases entry with ⟨name, schema⟩
      rw [mergedProperties, extractProperties_cons]
      split
      · exact lookup_mergeProperties schema _ key
      · exact ih

/-- The fragment of the items in a merge. -/
def mergedItem : Option Value -> Option Value -> Option Value
  | some left, some right => some (mergeSchemas left right)
  | some left, none => some left
  | none, right => right

theorem mergedItems_eq (entries : List (String × Value)) (right : Value) :
    mergedItems entries right = mergedItem (Value.get (.object entries) "items") (right.get "items") := by
  induction entries with
  | nil => rfl
  | cons entry rest ih =>
      rcases entry with ⟨name, schema⟩
      rw [mergedItems, get_cons]
      split
      · cases right.get "items" with
        | none => rfl
        | some other => rfl
      · exact ih

/-- What a merge is built from. -/
theorem mergeSchemas_eq (left right : Value) :
    exists properties, mergeSchemas left right =
        mergedSchema left right properties (mergedItem (left.get "items") (right.get "items")) ∧
      forall key, properties.lookup key =
        mergedField ((extractProperties left).lookup key) ((extractProperties right).lookup key) := by
  cases left with
  | object entries =>
      refine ⟨mergedProperties entries right, ?_, lookup_mergedProperties entries right⟩
      rw [mergeSchemas, mergedItems_eq]
  | _ =>
      refine ⟨(extractProperties right).map (fun entry => (entry.1, addNullType entry.2)), rfl, ?_⟩
      exact lookup_addNullType (extractProperties right)

theorem lookup_extractProperties_mergeSchemas {left right : Value}
    (object : "object" ∈ mergedTypes left right) (key : String) :
    (extractProperties (mergeSchemas left right)).lookup key =
      mergedField ((extractProperties left).lookup key) ((extractProperties right).lookup key) := by
  rcases mergeSchemas_eq left right with ⟨properties, shape, merged⟩
  rw [shape, ← merged key]
  unfold mergedSchema
  rw [if_neg (by rw [List.isEmpty_iff]; exact List.ne_nil_of_mem object)]
  rw [if_pos (List.contains_iff_mem.mpr object), extractProperties_cons, if_neg (by decide), List.cons_append,
    extractProperties_cons, if_pos rfl]
  rfl

theorem get_items_mergeSchemas {left right : Value} (array : "array" ∈ mergedTypes left right) {part : Value}
    (merged : mergedItem (left.get "items") (right.get "items") = some part)
    (known : isUnknownSchema part = false) : (mergeSchemas left right).get "items" = some part := by
  rcases mergeSchemas_eq left right with ⟨properties, shape, _⟩
  rw [shape, merged]
  unfold mergedSchema
  rw [if_neg (by rw [List.isEmpty_iff]; exact List.ne_nil_of_mem array)]
  simp only [List.contains_iff_mem.mpr array, if_true, known, Bool.false_eq_true, if_false]
  rw [get_cons, if_neg (by decide)]
  split
  · rw [List.cons_append, get_cons, if_neg (by decide), List.nil_append, get_cons, if_pos rfl]
  · rw [List.nil_append, get_cons, if_pos rfl]

/-! ## Merging keeps what either side covers -/

theorem known_of_covers {schema value : Value} (covers : Covers schema value) : isUnknownSchema schema = false := by
  rw [Covers] at covers
  rcases covers.1 with ⟨name, listed, _⟩
  cases schema with
  | object entries =>
      cases entries with
      | nil => cases listed
      | cons entry rest => rfl
  | null => cases listed
  | _ => rfl

theorem covers_addNullType {schema value : Value} (covers : Covers schema value) :
    Covers (addNullType schema) value := by
  rw [Covers] at covers ⊢
  rcases covers with ⟨⟨name, listed, typed⟩, fields, items⟩
  have kept : forall key, key ≠ "type" -> (addNullType schema).get key = schema.get key := by
    intro key other
    unfold addNullType
    split
    · rfl
    · cases schema with
      | object entries =>
          dsimp only
          unfold insertType
          rw [get_cons, if_neg (Ne.symm other)]
          exact Value.lookup_removeKey_of_ne entries other
      | _ => cases listed
  refine ⟨⟨name, (mem_collectTypes_addNullType schema name).mpr (Or.inl listed), typed⟩, ?_, ?_⟩
  · intro key field found
    unfold extractProperties
    rw [kept "properties" (by decide)]
    exact fields key field found
  · rw [kept "items" (by decide)]
    exact items

/-- A type that gives way in a merge gives way to one the value has too. -/
theorem mergedTypes_hasType {left right value : Value} {name : String}
    (listed : name ∈ collectTypes left ∨ name ∈ collectTypes right) (typed : hasType value name = true) :
    exists other, other ∈ mergedTypes left right ∧ hasType value other = true := by
  by_cases replaced : name = "integer" ∧ ("number" ∈ collectTypes left ∨ "number" ∈ collectTypes right)
  · refine ⟨"number", ?_, ?_⟩
    · rw [mem_mergedTypes]
      exact ⟨replaced.2, fun impossible => absurd impossible (by decide)⟩
    · rw [replaced.1] at typed
      cases value with
      | number amount => rfl
      | _ => cases typed
  · refine ⟨name, ?_, typed⟩
    rw [mem_mergedTypes]
    refine ⟨listed, fun integer => ?_⟩
    rw [← not_or]
    exact fun number => replaced ⟨integer, number⟩

theorem mem_mergedTypes_of_plain {left right value : Value}
    (typed : exists name, (name ∈ collectTypes left ∨ name ∈ collectTypes right) ∧ hasType value name = true)
    (plain : isIntegral value = false) : jsonType value ∈ mergedTypes left right := by
  rcases typed with ⟨name, listed, typed⟩
  rcases mergedTypes_hasType listed typed with ⟨other, merged, typed⟩
  rw [← eq_of_hasType typed plain]
  exact merged

/-- A merge covers what either of its sides covers. -/
theorem covers_mergeSchemas (value : Value) :
    forall left right, Covers left value ∨ Covers right value -> Covers (mergeSchemas left right) value := by
  induction value using value_by_parts with
  | step value fieldHypothesis itemHypothesis =>
      intro left right either
      have typed : exists name, (name ∈ collectTypes left ∨ name ∈ collectTypes right) ∧
          hasType value name = true := by
        rcases either with covers | covers
        · rw [Covers] at covers
          rcases covers.1 with ⟨name, listed, typed⟩
          exact ⟨name, Or.inl listed, typed⟩
        · rw [Covers] at covers
          rcases covers.1 with ⟨name, listed, typed⟩
          exact ⟨name, Or.inr listed, typed⟩
      rw [Covers]
      refine ⟨?_, ?_, ?_⟩
      · rcases typed with ⟨name, listed, typed⟩
        rcases mergedTypes_hasType listed typed with ⟨other, merged, typed⟩
        exact ⟨other, (mem_collectTypes_mergeSchemas left right other).mpr merged, typed⟩
      · intro key field found
        have plain : isIntegral value = false := by
          cases value with
          | object entries => rfl
          | _ => cases found
        have object : "object" ∈ mergedTypes left right := by
          rw [← jsonType_of_fields found]
          exact mem_mergedTypes_of_plain typed plain
        rw [lookup_extractProperties_mergeSchemas object]
        rcases either with covers | covers
        · rw [Covers] at covers
          rcases covers.2.1 key field found with ⟨part, listed, covered⟩
          rw [listed]
          cases (extractProperties right).lookup key with
          | none => exact ⟨_, rfl, covers_addNullType covered⟩
          | some other => exact ⟨_, rfl, fieldHypothesis key field found part other (Or.inl covered)⟩
        · rw [Covers] at covers
          rcases covers.2.1 key field found with ⟨part, listed, covered⟩
          rw [listed]
          cases (extractProperties left).lookup key with
          | none => exact ⟨_, rfl, covers_addNullType covered⟩
          | some other => exact ⟨_, rfl, fieldHypothesis key field found other part (Or.inr covered)⟩
      · intro elements element shape member
        have array : "array" ∈ mergedTypes left right := by
          have named : jsonType value = "array" := by rw [shape]; rfl
          rw [← named]
          refine mem_mergedTypes_of_plain typed ?_
          rw [shape]
          rfl
        have merged : exists part, mergedItem (left.get "items") (right.get "items") = some part ∧
            Covers part element := by
          rcases either with covers | covers
          · rw [Covers] at covers
            rcases covers.2.2 elements element shape member with ⟨part, listed, covered⟩
            rw [listed]
            cases right.get "items" with
            | none => exact ⟨part, rfl, covered⟩
            | some other => exact ⟨_, rfl, itemHypothesis elements element shape member part other (Or.inl covered)⟩
          · rw [Covers] at covers
            rcases covers.2.2 elements element shape member with ⟨part, listed, covered⟩
            rw [listed]
            cases left.get "items" with
            | none => exact ⟨part, rfl, covered⟩
            | some other => exact ⟨_, rfl, itemHypothesis elements element shape member other part (Or.inr covered)⟩
        rcases merged with ⟨part, shape, covered⟩
        exact ⟨part, get_items_mergeSchemas array shape (known_of_covers covered), covered⟩

theorem covers_foldl {schema value : Value} (covers : Covers schema value) (more : List Value) :
    Covers (more.foldl mergeSchemas schema) value := by
  induction more generalizing schema with
  | nil => exact covers
  | cons next rest ih =>
      exact ih (covers_mergeSchemas value schema next (Or.inl covers))

/-- The reduction of some fragments covers what one of them covers. -/
theorem covers_reduceSchemas {schemas : List Value} {schema value : Value} (member : schema ∈ schemas)
    (covers : Covers schema value) : Covers ((reduceSchemas schemas).getD (.object [])) value := by
  cases schemas with
  | nil => cases member
  | cons first rest =>
      change Covers (rest.foldl mergeSchemas first) value
      rcases List.mem_cons.mp member with rfl | later
      · exact covers_foldl covers rest
      · rcases List.append_of_mem later with ⟨before, after, rfl⟩
        rw [List.foldl_append, List.foldl_cons]
        exact covers_foldl (covers_mergeSchemas value _ schema (Or.inr covers)) after

/-! ## Inferred fragments -/

theorem hasType_typeName (value : Value) : hasType value (typeName value) = true := by
  cases value with
  | number amount =>
      cases amount with
      | float decimal => rfl
      | int amount =>
          have integral : isIntegral (.number (.int amount)) = true := rfl
          change hasType _ (if _ then "integer" else "number") = true
          split
          · unfold hasType
            rw [integral]
            rfl
          · rfl
  | _ => rfl

theorem inferItems_eq (elements : List Value) : inferItems elements = elements.map inferValueSchema := by
  induction elements with
  | nil => rfl
  | cons element rest ih => rw [inferItems, ih, List.map_cons]

theorem lookup_inferEntries (entries : List (String × Value)) (key : String) :
    (inferEntries entries).lookup key = (entries.lookup key).map inferValueSchema := by
  induction entries with
  | nil => rfl
  | cons entry rest ih =>
      rcases entry with ⟨name, value⟩
      rw [inferEntries, List.lookup_cons, List.lookup_cons]
      cases key == name with
      | true => rfl
      | false => exact ih

/-- The fragment inferred from a value covers it. -/
theorem covers_inferValueSchema (value : Value) : Covers (inferValueSchema value) value := by
  induction value using value_by_parts with
  | step value fieldHypothesis itemHypothesis =>
      rw [Covers]
      refine ⟨⟨typeName value, ?_, hasType_typeName value⟩, ?_, ?_⟩
      · rw [collectTypes_inferValueSchema]
        exact List.mem_singleton_self _
      · intro key field found
        refine ⟨inferValueSchema field, ?_, fieldHypothesis key field found⟩
        cases value with
        | object entries =>
            change (inferEntries entries).lookup key = _
            rw [lookup_inferEntries, show entries.lookup key = some field from found]
            rfl
        | _ => cases found
      · rintro elements element rfl member
        refine ⟨(reduceSchemas (inferItems elements)).getD (.object []), rfl, ?_⟩
        rw [inferItems_eq]
        exact covers_reduceSchemas (List.mem_map_of_mem member) (itemHypothesis elements element rfl member)

theorem covers_fieldSchema {objects : List (List (String × Value))} {entries : List (String × Value)}
    {key : String} {field : Value} (member : entries ∈ objects) (found : entries.lookup key = some field) :
    Covers (fieldSchema objects key) field := by
  have listed : field ∈ objects.filterMap (fun entries => entries.lookup key) :=
    List.mem_filterMap.mpr ⟨entries, member, found⟩
  have reduced := covers_reduceSchemas (List.mem_map_of_mem listed) (covers_inferValueSchema field)
  unfold fieldSchema
  dsimp only
  split
  · exact covers_addNullType reduced
  · exact reduced

theorem covers_inferSchema {records : List Value} {entries : List (String × Value)}
    (member : .object entries ∈ records) : Covers (inferSchema records) (.object entries) := by
  have listed : entries ∈ records.filterMap asObject := List.mem_filterMap.mpr ⟨.object entries, member, rfl⟩
  have inferred : inferSchema records = objectSchema ((allKeys (records.filterMap asObject)).map
      (fun key => (key, fieldSchema (records.filterMap asObject) key))) := by
    unfold inferSchema
    dsimp only
    rw [if_neg (by rw [List.isEmpty_iff]; exact List.ne_nil_of_mem listed)]
  rw [inferred, Covers]
  refine ⟨⟨"object", List.mem_singleton_self _, rfl⟩, ?_, ?_⟩
  · intro key field found
    refine ⟨fieldSchema (records.filterMap asObject) key, ?_, covers_fieldSchema listed found⟩
    change ((allKeys (records.filterMap asObject)).map
      (fun key => (key, fieldSchema (records.filterMap asObject) key))).lookup key = _
    rw [lookup_map_key, if_pos]
    refine mem_allKeys.mpr ⟨entries, listed, ?_⟩
    rw [show entries.lookup key = some field from found]
    rfl
  · rintro elements element shape
    cases shape

/-! ## From covering to validation -/

theorem acceptsType_of_mem {schema value : Value} {name : String} (listed : name ∈ collectTypes schema)
    (typed : hasType value name = true) : acceptsType schema value = true := by
  unfold collectTypes at listed
  unfold acceptsType
  split at listed
  · rename_i only shape
    rw [shape]
    dsimp only
    rw [← List.mem_singleton.mp listed]
    exact typed
  · rename_i names shape
    rw [shape]
    exact List.any_eq_true.mpr ⟨name, listed, typed⟩
  · cases listed

theorem validates_of_covers (value : Value) : forall schema, Covers schema value -> Validates schema value := by
  induction value using value_by_parts with
  | step value fieldHypothesis itemHypothesis =>
      intro schema covers
      rw [Covers] at covers
      rcases covers with ⟨⟨name, listed, typed⟩, fields, items⟩
      cases schema with
      | object entries =>
          constructor
          · exact acceptsType_of_mem listed typed
          · intro key field part found described
            rcases fields key field found with ⟨same, shape, covered⟩
            rw [shape] at described
            cases described
            exact fieldHypothesis key field found part covered
          · intro elements element part shape member described
            rcases items elements element shape member with ⟨same, found, covered⟩
            rw [found] at described
            cases described
            exact itemHypothesis elements element shape member part covered
      | _ => cases listed

/-- Every record that is an object validates against the schema inferred from
the records, at every depth. -/
theorem inferSchema_sound (records : List Value) (entries : List (String × Value))
    (member : .object entries ∈ records) : Validates (inferSchema records) (.object entries) :=
  validates_of_covers _ _ (covers_inferSchema member)

/-- The schema lists the fields that some record has, and no others. -/
theorem mem_properties_inferSchema {records : List Value} {key : String} :
    key ∈ (extractProperties (inferSchema records)).map Prod.fst <->
      exists entries, .object entries ∈ records ∧ (entries.lookup key).isSome = true := by
  have names : (extractProperties (inferSchema records)).map Prod.fst = allKeys (records.filterMap asObject) := by
    rw [extractProperties_inferSchema, List.map_map]
    exact List.map_id _
  rw [names, mem_allKeys]
  constructor
  · rintro ⟨entries, member, found⟩
    rcases List.mem_filterMap.mp member with ⟨record, listed, same⟩
    cases record with
    | object other =>
        cases same
        exact ⟨entries, listed, found⟩
    | null | bool _ | number _ | string _ | array _ => cases same
  · rintro ⟨entries, member, found⟩
    exact ⟨entries, List.mem_filterMap.mpr ⟨_, member, rfl⟩, found⟩

def sampleRecord : Value :=
  .object [("id", .number (.int 1)), ("tags", .array []), ("at", .object [("zone", .null)])]

/-- An empty list of tags beside a full one, a number beside a text and a field
that only one record has. -/
def sampleRecords : List Value :=
  [.object [("id", .string "a"), ("tags", .array [.object [("name", .bool true)], .null])], .null, sampleRecord]

theorem inferSchema_sound_sample :
    sampleRecord ∈ sampleRecords ∧ Validates (inferSchema sampleRecords) sampleRecord := by
  have member : sampleRecord ∈ sampleRecords := by
    unfold sampleRecords
    simp only [List.mem_cons, true_or, or_true]
  exact ⟨member, inferSchema_sound sampleRecords _ member⟩

end Governance
end FaucetStream
