import FaucetStream.Json.Value
import Mathlib.Data.List.Dedup

namespace FaucetStream
namespace Governance

open Json

/-!
# Inferring a schema

The schema of a page is inferred field by field: every value has a schema of
its own, and the schemas of one field are merged.  A field that some record
lacks is nullable, and a field that holds integers beside floats is a number.
The types a fragment names are what the rest of the development reads of it.
-/

/-- `collect_types`: the type names of a fragment. -/
def collectTypes (schema : Value) : List String :=
  match schema.get "type" with
  | some (.string name) => [name]
  | some (.array names) => names.filterMap Value.asStr
  | _ => []

/-- `sort` and then `dedup`. -/
def sortedTypes (types : List String) : List String :=
  (types.dedup).insertionSort (fun left right => left ≤ right)

/-- One type stands as a name and several as a list of names. -/
def makeTypeValue (types : List String) : Value :=
  match sortedTypes types with
  | [name] => .string name
  | names => .array (names.map Value.string)

/-- `Map::insert` of the type of a fragment. -/
def insertType (entries : List (String × Value)) (type : Value) : List (String × Value) :=
  ("type", type) :: Value.removeKey entries "type"

/-- Add null to the types of a fragment. -/
def addNullType (schema : Value) : Value :=
  if (collectTypes schema).contains "null" then schema
  else
    let newType := makeTypeValue ("null" :: collectTypes schema)
    match schema with
    | .object entries => .object (insertType entries newType)
    | _ => .object [("type", newType)]

def isUnknownSchema : Value -> Bool
  | .object entries => entries.isEmpty
  | .null => true
  | _ => false

def extractProperties (schema : Value) : List (String × Value) :=
  match schema.get "properties" with
  | some (.object entries) => entries
  | _ => []

/-- The types of a merged fragment.  Integer gives way to number. -/
def mergedTypes (left right : Value) : List String :=
  let types := collectTypes left ++ collectTypes right
  sortedTypes
    (if types.contains "integer" && types.contains "number" then types.filter (fun name => name != "integer")
    else types)

/-- The merged fragment, from its merged fields and items. -/
def mergedSchema (left right : Value) (properties : List (String × Value)) (items : Option Value) : Value :=
  let types := mergedTypes left right
  if types.isEmpty then .object []
  else
    .object (("type", makeTypeValue types) ::
      ((if types.contains "object" then [("properties", .object properties)] else []) ++
        (if types.contains "array" then
          match items with
          | some schema => if isUnknownSchema schema then [] else [("items", schema)]
          | none => []
        else [])))

mutual

/-- One schema that is valid for both. -/
def mergeSchemas : Value -> Value -> Value
  | .object entries, right =>
      mergedSchema (.object entries) right (mergedProperties entries right) (mergedItems entries right)
  | left, right =>
      mergedSchema left right
        ((extractProperties right).map (fun entry => (entry.1, addNullType entry.2))) (right.get "items")
termination_by structural left => left

/-- The merged fields, looked for among the entries of the left fragment. -/
def mergedProperties : List (String × Value) -> Value -> List (String × Value)
  | [], right => (extractProperties right).map (fun entry => (entry.1, addNullType entry.2))
  | (key, schema) :: rest, right =>
      if key = "properties" then mergeProperties schema (extractProperties right)
      else mergedProperties rest right
termination_by structural entries => entries

/-- `merge_properties`.  A field only one side has can be absent. -/
def mergeProperties : Value -> List (String × Value) -> List (String × Value)
  | .object properties, right =>
      sharedProperties properties right ++
        (right.filter (fun entry => !(properties.map Prod.fst).contains entry.1)).map
          (fun entry => (entry.1, addNullType entry.2))
  | _, right => right.map (fun entry => (entry.1, addNullType entry.2))
termination_by structural left => left

/-- The fields of the left fragment, merged with the right fragment's or
nullable where it has none. -/
def sharedProperties : List (String × Value) -> List (String × Value) -> List (String × Value)
  | [], _ => []
  | (key, schema) :: rest, right =>
      (key,
        match right.lookup key with
        | some other => mergeSchemas schema other
        | none => addNullType schema) :: sharedProperties rest right
termination_by structural entries => entries

def mergedItems : List (String × Value) -> Value -> Option Value
  | [], right => right.get "items"
  | (key, schema) :: rest, right =>
      if key = "items" then
        some (match right.get "items" with
          | some other => mergeSchemas schema other
          | none => schema)
      else mergedItems rest right
termination_by structural entries => entries

end

/-- `reduce` over the schemas of a field. -/
def reduceSchemas : List Value -> Option Value
  | [] => none
  | schema :: rest => some (rest.foldl mergeSchemas schema)

def typed (name : String) : Value := .object [("type", .string name)]

/-- The type name a value is given. -/
def typeName : Value -> String
  | .null => "null"
  | .bool _ => "boolean"
  | .number number =>
      if (Value.asI64 (.number number)).isSome || (Value.asU64 (.number number)).isSome then "integer"
      else "number"
  | .string _ => "string"
  | .array _ => "array"
  | .object _ => "object"

mutual

def inferValueSchema : Value -> Value
  | .array items =>
      .object [("type", .string "array"), ("items", (reduceSchemas (inferItems items)).getD (.object []))]
  | .object entries =>
      .object [("type", .string "object"), ("properties", .object (inferEntries entries))]
  | scalar => typed (typeName scalar)

def inferItems : List Value -> List Value
  | [] => []
  | item :: rest => inferValueSchema item :: inferItems rest

def inferEntries : List (String × Value) -> List (String × Value)
  | [] => []
  | (key, value) :: rest => (key, inferValueSchema value) :: inferEntries rest

end

/-- The entries of an object. -/
def asObject : Value -> Option (List (String × Value))
  | .object entries => some entries
  | _ => none

/-- The schema of one field, from the objects of a page. -/
def fieldSchema (objects : List (List (String × Value))) (key : String) : Value :=
  let values := objects.filterMap (fun entries => entries.lookup key)
  let schema := (reduceSchemas (values.map inferValueSchema)).getD (.object [])
  if values.length < objects.length then addNullType schema else schema

/-- The fields of a page.  The source collects them in a hash set; here they
stand in the order they appear. -/
def allKeys (objects : List (List (String × Value))) : List String :=
  (objects.flatMap (fun entries => entries.map Prod.fst)).dedup

def objectSchema (properties : List (String × Value)) : Value :=
  .object [("type", .string "object"), ("properties", .object properties)]

def inferSchema (records : List Value) : Value :=
  let objects := records.filterMap asObject
  if objects.isEmpty then objectSchema []
  else objectSchema ((allKeys objects).map (fun key => (key, fieldSchema objects key)))

/-! ## The types of an inferred fragment -/

theorem mem_sortedTypes {types : List String} {name : String} : name ∈ sortedTypes types <-> name ∈ types := by
  unfold sortedTypes
  rw [List.mem_insertionSort, List.mem_dedup]

theorem filterMap_asStr (names : List String) : (names.map Value.string).filterMap Value.asStr = names := by
  induction names with
  | nil => rfl
  | cons name rest ih =>
      rw [List.map_cons, List.filterMap_cons]
      exact congrArg (List.cons name) ih

/-- A fragment names the types it was built from. -/
theorem collectTypes_makeTypeValue (types : List String) (rest : List (String × Value)) :
    collectTypes (.object (("type", makeTypeValue types) :: rest)) = sortedTypes types := by
  have found : Value.get (.object (("type", makeTypeValue types) :: rest)) "type" =
      some (makeTypeValue types) := rfl
  unfold collectTypes
  rw [found]
  unfold makeTypeValue
  rcases sortedTypes types with _ | ⟨first, _ | ⟨second, more⟩⟩
  · rfl
  · rfl
  · exact filterMap_asStr (first :: second :: more)

theorem mem_collectTypes_makeTypeValue (types : List String) (rest : List (String × Value)) (name : String) :
    name ∈ collectTypes (.object (("type", makeTypeValue types) :: rest)) <-> name ∈ types := by
  rw [collectTypes_makeTypeValue, mem_sortedTypes]

theorem mem_collectTypes_addNullType (schema : Value) (name : String) :
    name ∈ collectTypes (addNullType schema) <-> name ∈ collectTypes schema ∨ name = "null" := by
  unfold addNullType
  by_cases already : (collectTypes schema).contains "null" = true
  · rw [if_pos already]
    rw [List.contains_iff_mem] at already
    constructor
    · exact Or.inl
    · rintro (listed | rfl)
      · exact listed
      · exact already
  · rw [if_neg already]
    have named : forall rest, name ∈ collectTypes
        (.object (("type", makeTypeValue ("null" :: collectTypes schema)) :: rest)) <->
          name ∈ collectTypes schema ∨ name = "null" := by
      intro rest
      rw [mem_collectTypes_makeTypeValue, List.mem_cons, or_comm]
    cases schema with
    | object entries => exact named _
    | null => exact named []
    | bool value => exact named []
    | number value => exact named []
    | string value => exact named []
    | array items => exact named []

theorem mem_mergedTypes (left right : Value) (name : String) :
    name ∈ mergedTypes left right <->
      (name ∈ collectTypes left ∨ name ∈ collectTypes right) ∧
        (name = "integer" -> "number" ∉ collectTypes left ∧ "number" ∉ collectTypes right) := by
  unfold mergedTypes
  rw [mem_sortedTypes]
  by_cases both : ((collectTypes left ++ collectTypes right).contains "integer" &&
      (collectTypes left ++ collectTypes right).contains "number") = true
  · rw [if_pos both, List.mem_filter, List.mem_append, bne_iff_ne]
    rw [Bool.and_eq_true, List.contains_iff_mem, List.contains_iff_mem, List.mem_append, List.mem_append] at both
    constructor
    · rintro ⟨listed, other⟩
      exact ⟨listed, fun same => absurd same other⟩
    · rintro ⟨listed, alone⟩
      refine ⟨listed, ?_⟩
      intro same
      rcases alone same with ⟨leftFree, rightFree⟩
      exact both.2.elim leftFree rightFree
  · rw [if_neg both, List.mem_append]
    constructor
    · intro listed
      refine ⟨listed, ?_⟩
      rintro rfl
      rw [← not_or, ← List.mem_append]
      intro numbers
      apply both
      rw [Bool.and_eq_true, List.contains_iff_mem, List.contains_iff_mem]
      exact ⟨List.mem_append.mpr listed, numbers⟩
    · exact And.left

theorem mem_collectTypes_mergedSchema (left right : Value) (properties : List (String × Value))
    (items : Option Value) (name : String) :
    name ∈ collectTypes (mergedSchema left right properties items) <-> name ∈ mergedTypes left right := by
  unfold mergedSchema
  by_cases untyped : (mergedTypes left right).isEmpty = true
  · rw [if_pos untyped, List.isEmpty_iff.mp untyped]
    rfl
  · rw [if_neg untyped, mem_collectTypes_makeTypeValue]

theorem mem_collectTypes_mergeSchemas (left right : Value) (name : String) :
    name ∈ collectTypes (mergeSchemas left right) <-> name ∈ mergedTypes left right := by
  cases left with
  | object entries => rw [mergeSchemas, mem_collectTypes_mergedSchema]
  | null => exact mem_collectTypes_mergedSchema _ _ _ _ _
  | bool value => exact mem_collectTypes_mergedSchema _ _ _ _ _
  | number value => exact mem_collectTypes_mergedSchema _ _ _ _ _
  | string value => exact mem_collectTypes_mergedSchema _ _ _ _ _
  | array items => exact mem_collectTypes_mergedSchema _ _ _ _ _

theorem collectTypes_inferValueSchema (value : Value) :
    collectTypes (inferValueSchema value) = [typeName value] := by
  cases value <;> rfl

/-- A fragment names the types of some values: each type that occurs, except
integer beside number. -/
def Describes (schema : Value) (values : List Value) : Prop :=
  forall name, name ∈ collectTypes schema <->
    (exists value, value ∈ values ∧ typeName value = name) ∧
      (name = "integer" -> forall value, value ∈ values -> typeName value ≠ "number")

theorem describes_inferValueSchema (value : Value) : Describes (inferValueSchema value) [value] := by
  intro name
  rw [collectTypes_inferValueSchema, List.mem_singleton]
  constructor
  · rintro rfl
    refine ⟨⟨value, List.mem_singleton_self value, rfl⟩, ?_⟩
    intro integer other member
    rw [List.mem_singleton.mp member, integer]
    decide
  · rintro ⟨⟨other, member, named⟩, -⟩
    rw [← named, List.mem_singleton.mp member]

/-- Merging one more value into a fragment. -/
theorem Describes.merge {schema : Value} {values : List Value} (described : Describes schema values)
    (value : Value) : Describes (mergeSchemas schema (inferValueSchema value)) (values ++ [value]) := by
  intro name
  rw [mem_collectTypes_mergeSchemas, mem_mergedTypes, described name, described "number",
    collectTypes_inferValueSchema, List.mem_singleton, List.mem_singleton]
  constructor
  · rintro ⟨listed, alone⟩
    constructor
    · rcases listed with ⟨⟨other, member, named⟩, -⟩ | rfl
      · exact ⟨other, List.mem_append_left _ member, named⟩
      · exact ⟨value, List.mem_append_right _ (List.mem_singleton_self value), rfl⟩
    · intro integer other member number
      rcases List.mem_append.mp member with earlier | last
      · exact (alone integer).1 ⟨⟨other, earlier, number⟩, fun impossible => absurd impossible (by decide)⟩
      · rw [List.mem_singleton.mp last] at number
        exact (alone integer).2 number.symm
  · rintro ⟨⟨other, member, named⟩, alone⟩
    constructor
    · rcases List.mem_append.mp member with earlier | last
      · refine Or.inl ⟨⟨other, earlier, named⟩, ?_⟩
        intro integer another held
        exact alone integer another (List.mem_append_left _ held)
      · exact Or.inr (by rw [← named, List.mem_singleton.mp last])
    · intro integer
      constructor
      · rintro ⟨⟨another, held, number⟩, -⟩
        exact alone integer another (List.mem_append_left _ held) number
      · intro number
        exact alone integer value (List.mem_append_right _ (List.mem_singleton_self value)) number.symm

theorem Describes.foldl {schema : Value} {values : List Value} (described : Describes schema values)
    (more : List Value) :
    Describes ((more.map inferValueSchema).foldl mergeSchemas schema) (values ++ more) := by
  induction more generalizing schema values with
  | nil =>
      rw [List.append_nil]
      exact described
  | cons value rest ih =>
      rw [List.map_cons, List.foldl_cons, List.append_cons]
      exact ih (described.merge value)

/-- The schema reduced from the values of a field describes them. -/
theorem describes_reduceSchemas {values : List Value} (held : values ≠ []) :
    Describes ((reduceSchemas (values.map inferValueSchema)).getD (.object [])) values := by
  cases values with
  | nil => exact absurd rfl held
  | cons value rest =>
      rw [List.map_cons, reduceSchemas, Option.getD_some]
      exact (describes_inferValueSchema value).foldl rest

/-! ## The fields of an inferred schema -/

theorem lookup_map_key (keys : List String) (schemaOf : String -> Value) (key : String) :
    (keys.map (fun name => (name, schemaOf name))).lookup key =
      if key ∈ keys then some (schemaOf key) else none := by
  induction keys with
  | nil => rfl
  | cons name rest ih =>
      rw [List.map_cons, List.lookup_cons]
      by_cases same : key = name
      · subst same
        rw [if_pos List.mem_cons_self, beq_self_eq_true]
      · rw [beq_eq_false_iff_ne.mpr same]
        change (rest.map (fun name => (name, schemaOf name))).lookup key = _
        rw [ih]
        apply ite_congr
        · rw [List.mem_cons, eq_false same, false_or]
        · intro
          rfl
        · intro
          rfl

theorem lookup_isSome_iff {entries : List (String × Value)} {key : String} :
    (entries.lookup key).isSome = true <-> key ∈ entries.map Prod.fst := by
  rw [Option.isSome_iff_ne_none, ne_eq, List.lookup_eq_none_iff]
  constructor
  · intro found
    by_contra missing
    apply found
    intro entry member
    rw [bne_iff_ne]
    rintro rfl
    exact missing (List.mem_map_of_mem member)
  · intro member missing
    rcases List.mem_map.mp member with ⟨entry, listed, rfl⟩
    exact absurd rfl (bne_iff_ne.mp (missing entry listed))

theorem mem_allKeys {objects : List (List (String × Value))} {key : String} :
    key ∈ allKeys objects <-> exists entries, entries ∈ objects ∧ (entries.lookup key).isSome = true := by
  unfold allKeys
  rw [List.mem_dedup, List.mem_flatMap]
  constructor
  · rintro ⟨entries, member, listed⟩
    exact ⟨entries, member, lookup_isSome_iff.mpr listed⟩
  · rintro ⟨entries, member, found⟩
    exact ⟨entries, member, lookup_isSome_iff.mp found⟩

theorem filterMap_asObject (objects : List (List (String × Value))) :
    (objects.map Value.object).filterMap asObject = objects := by
  induction objects with
  | nil => rfl
  | cons entries rest ih =>
      rw [List.map_cons, List.filterMap_cons]
      exact congrArg (List.cons entries) ih

/-- The fields of an inferred schema are those some object of the page has. -/
theorem extractProperties_inferSchema (records : List Value) :
    extractProperties (inferSchema records) = (allKeys (records.filterMap asObject)).map
      (fun key => (key, fieldSchema (records.filterMap asObject) key)) := by
  unfold inferSchema
  cases records.filterMap asObject with
  | nil => rfl
  | cons entries rest => rfl

/-- Every fragment that is inferred is an object. -/
theorem addNullType_object (schema : Value) (object : exists entries, schema = .object entries) :
    exists entries, addNullType schema = .object entries := by
  rcases object with ⟨entries, rfl⟩
  unfold addNullType
  split
  · exact ⟨entries, rfl⟩
  · exact ⟨_, rfl⟩

theorem mergeSchemas_object (left right : Value) : exists entries, mergeSchemas left right = .object entries := by
  have built : forall properties items, exists entries,
      mergedSchema left right properties items = .object entries := by
    intro properties items
    by_cases untyped : (mergedTypes left right).isEmpty = true
    · exact ⟨[], if_pos untyped⟩
    · exact ⟨_, if_neg untyped⟩
  cases left with
  | object entries => rw [mergeSchemas]; exact built _ _
  | null => exact built _ _
  | bool _ => exact built _ _
  | number _ => exact built _ _
  | string _ => exact built _ _
  | array _ => exact built _ _

theorem inferValueSchema_object (value : Value) : exists entries, inferValueSchema value = .object entries := by
  cases value <;> exact ⟨_, rfl⟩

theorem foldl_mergeSchemas_object (schema : Value) (more : List Value)
    (object : exists entries, schema = .object entries) :
    exists entries, more.foldl mergeSchemas schema = .object entries := by
  induction more generalizing schema with
  | nil => exact object
  | cons next rest ih => exact ih _ (mergeSchemas_object schema next)

theorem fieldSchema_object (objects : List (List (String × Value))) (key : String) :
    exists entries, fieldSchema objects key = .object entries := by
  have reduced : forall values : List Value,
      exists entries, (reduceSchemas (values.map inferValueSchema)).getD (.object []) = .object entries := by
    intro values
    cases values with
    | nil => exact ⟨[], rfl⟩
    | cons value rest => exact foldl_mergeSchemas_object _ _ (inferValueSchema_object value)
  unfold fieldSchema
  simp only
  split
  · exact addNullType_object _ (reduced _)
  · exact reduced _

end Governance
end FaucetStream
