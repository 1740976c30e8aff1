import FaucetStream.Keys.StateKey

namespace FaucetStream
namespace Keys

open Json
open Library

/-!
# Keys of child invocations

Two parent values give two keys unless one of them spells the name the other is
hashed to.  The tags keep the JSON types apart, the hashes keep the hashed
components apart, and neither a kept nor a hashed component is a marker.  What
is not kept apart is a hashed component and a kept one.
-/

/-! ## Hashed names -/

theorem isPlain_of_mem_hexDigits {width number : Nat} {character : Char}
    (member : character ∈ hexDigits width number) : isPlain character = true := by
  have digits : forall digit : Fin 16, isPlain (Nat.digitChar digit) = true := by decide
  rcases mem_hexDigits member with ⟨digit, small, rfl⟩
  exact digits ⟨digit, small⟩

theorem toList_hashedName (raw : String) : (hashedName raw).toList =
    (raw.toList.filter isPlain).take 32 ++ ['.', 'h'] ++ hexDigits 16 (fnv1a raw).toNat := by
  rw [hashedName, String.toList_ofList]

/-- A hashed name has plain characters only. -/
theorem isPlain_of_mem_hashedName {raw : String} {character : Char}
    (member : character ∈ (hashedName raw).toList) : isPlain character = true := by
  rw [toList_hashedName, List.mem_append, List.mem_append] at member
  rcases member with (readable | mark) | digit
  · exact (List.mem_filter.mp (List.mem_of_mem_take readable)).2
  · rcases List.mem_cons.mp mark with dot | letter
    · rw [dot]
      rfl
    · rw [List.mem_singleton.mp letter]
      rfl
  · exact isPlain_of_mem_hexDigits digit

theorem dot_mem_hashedName (raw : String) : '.' ∈ (hashedName raw).toList := by
  rw [toList_hashedName, List.append_assoc]
  exact List.mem_append_right _ List.mem_cons_self

/-- Hashed names differ when the hashes do. -/
theorem fnv1a_eq_of_hashedName {left right : String} (same : hashedName left = hashedName right) :
    fnv1a left = fnv1a right := by
  have texts := congrArg String.toList same
  rw [toList_hashedName, toList_hashedName] at texts
  have digits := List.append_inj_right' texts (by rw [length_hexDigits, length_hexDigits])
  exact UInt64.toNat_inj.mp (hexDigits_injective 16 (UInt64.toNat_lt _) (UInt64.toNat_lt _) digits)

/-! ## Components -/

/-- The text a parent value is encoded from. -/
def component (value : Value) : String :=
  match value with
  | .string text => if isMarkerName text || tagLike text then "_s." ++ text else text
  | other => String.ofList ['_', StateKey.typeTag other, '.'] ++ other.text

theorem typeTag_mem (value : Value) : StateKey.typeTag value ∈ TYPE_TAGS := by
  cases value with
  | _ => simp [StateKey.typeTag, TYPE_TAGS]

/-- A component is tagged with its type, or a string that needs no tag. -/
theorem component_cases (value : Value) :
    (component value).toList = '_' :: StateKey.typeTag value :: '.' :: (StateKey.parentText value).toList ∨
      StateKey.typeTag value = 's' ∧ component value = StateKey.parentText value ∧
        isMarkerName (StateKey.parentText value) = false ∧ tagLike (StateKey.parentText value) = false := by
  cases value with
  | string text =>
      by_cases needed : (isMarkerName text || tagLike text) = true
      · left
        simp only [component, needed, if_true, String.toList_append]
        rfl
      · right
        simp only [component, needed]
        rw [Bool.not_eq_true, Bool.or_eq_false_iff] at needed
        exact ⟨rfl, rfl, needed.1, needed.2⟩
  | null =>
      left
      simp only [component, String.toList_append, String.toList_ofList]
      rfl
  | bool value =>
      left
      simp only [component, String.toList_append, String.toList_ofList]
      rfl
  | number value =>
      left
      simp only [component, String.toList_append, String.toList_ofList]
      rfl
  | array items =>
      left
      simp only [component, String.toList_append, String.toList_ofList]
      rfl
  | object entries =>
      left
      simp only [component, String.toList_append, String.toList_ofList]
      rfl

theorem tagLike_of_toList {text : String} {tag : Char} {rest : List Char} (tagged : tag ∈ TYPE_TAGS)
    (shape : text.toList = '_' :: tag :: '.' :: rest) : tagLike text = true := by
  rw [tagLike, shape]
  exact List.contains_iff_mem.mpr tagged

/-- Values of one component have one type and one text. -/
theorem component_injective {left right : Value} (same : component left = component right) :
    StateKey.typeTag left = StateKey.typeTag right ∧ StateKey.parentText left = StateKey.parentText right := by
  rcases component_cases left with leftTagged | ⟨leftString, leftPlain, _, leftUntagged⟩
  · rcases component_cases right with rightTagged | ⟨_, rightPlain, _, rightUntagged⟩
    · rw [← same, leftTagged] at rightTagged
      simp only [List.cons.injEq, true_and] at rightTagged
      exact ⟨rightTagged.1, String.toList_inj.mp rightTagged.2⟩
    · rw [same, rightPlain] at leftTagged
      rw [tagLike_of_toList (typeTag_mem left) leftTagged] at rightUntagged
      cases rightUntagged
  · rcases component_cases right with rightTagged | ⟨rightString, rightPlain, _, _⟩
    · rw [← same, leftPlain] at rightTagged
      rw [tagLike_of_toList (typeTag_mem right) rightTagged] at leftUntagged
      cases leftUntagged
    · exact ⟨leftString.trans rightString.symm, leftPlain.symm.trans (same.trans rightPlain)⟩

/-! ## Renderings -/

theorem push_injective {base left right : String} (same : push base left = push base right) : left = right := by
  unfold push at same
  split at same
  · exact same
  · have texts := congrArg String.toList same
    simp only [String.toList_append] at texts
    exact String.toList_inj.mp (List.append_cancel_left texts)

theorem renderSub_typedSub (value : Value) :
    renderSub (StateKey.typedSub value) KEY_SCHEME_VERSION = encodeComponent (component value) true := by
  cases value with
  | string text =>
      simp only [StateKey.typedSub, renderSub, component, typedString, KEY_SCHEME_VERSION]
      cases isMarkerName text with
      | true => rfl
      | false =>
          cases tagLike text with
          | true => rfl
          | false => rfl
  | null => rfl
  | bool value => rfl
  | number value => rfl
  | array items => rfl
  | object entries => rfl

theorem render_withParentValue (pipeline row : String) (value : Value) :
    ((StateKey.invocation pipeline row).withParentValue value).render =
      push (push pipeline row) (encodeComponent (component value) true) := by
  rw [← renderSub_typedSub]
  rfl

theorem render_withSuffix (pipeline row : String) (suffix : KeySuffix) :
    ((StateKey.invocation pipeline row).withSuffix suffix).render =
      suffix.renderInto (push pipeline row) := rfl

/-- A kept component has no separator in it. -/
theorem not_infix_of_isVerbatim {raw : String} (kept : isVerbatim raw true = true) :
    ¬ KEY_SEPARATOR.toList <:+: raw.toList := by
  simp only [isVerbatim, Bool.and_eq_true, Bool.not_eq_true', decide_eq_false_iff_not] at kept
  exact kept.1.1.1.2

theorem encodeComponent_not_infix (raw : String) :
    ¬ KEY_SEPARATOR.toList <:+: (encodeComponent raw true).toList := by
  unfold encodeComponent
  split
  · rename_i kept
    exact not_infix_of_isVerbatim kept
  · intro separated
    have member : ':' ∈ (hashedName raw).toList :=
      separated.subset (List.mem_cons_self : ':' ∈ [':', ':'])
    exact absurd (isPlain_of_mem_hashedName member) (by decide)

theorem marker_mem (suffix : KeySuffix) : suffix.marker ∈ MARKER_NAMES := by
  cases suffix with
  | _ => simp [KeySuffix.marker, MARKER_NAMES]

/-- A marker is named by itself and has no dot. -/
theorem marker_facts (suffix : KeySuffix) :
    isMarkerName suffix.marker = true ∧ '.' ∉ suffix.marker.toList ∧ suffix.marker.isEmpty = false := by
  have facts : forall name, name ∈ MARKER_NAMES -> '.' ∉ name.toList ∧ name.isEmpty = false := by decide +kernel
  exact ⟨List.contains_iff_mem.mpr (marker_mem suffix), facts _ (marker_mem suffix)⟩

theorem push_push {base middle : String} (named : middle.isEmpty = false) (last : String) :
    push (push base middle) last = push base (push middle last) := by
  unfold push
  by_cases fresh : base.isEmpty = true
  · rw [if_pos fresh, if_pos fresh]
  · have longer : (base ++ KEY_SEPARATOR ++ middle).isEmpty = false := by
      simp_all
    simp only [fresh, longer, named, Bool.false_eq_true, if_false]
    simp only [String.append_assoc]

theorem dot_mem_of_tagged {value : Value}
    (tagged : (component value).toList =
      '_' :: StateKey.typeTag value :: '.' :: (StateKey.parentText value).toList) :
    '.' ∈ (component value).toList := by
  rw [tagged]
  exact List.mem_cons_of_mem _ (List.mem_cons_of_mem _ List.mem_cons_self)

/-- No component is a marker. -/
theorem encodeComponent_ne_marker (value : Value) (suffix : KeySuffix) :
    encodeComponent (component value) true ≠ suffix.marker := by
  rcases marker_facts suffix with ⟨named, undotted, _⟩
  intro same
  unfold encodeComponent at same
  split at same
  · rcases component_cases value with tagged | ⟨_, plain, unnamed, _⟩
    · have dot := dot_mem_of_tagged tagged
      rw [same] at dot
      exact undotted dot
    · rw [← plain, same, named] at unnamed
      cases unnamed
  · have dot := dot_mem_hashedName (component value)
    rw [same] at dot
    exact undotted dot

theorem render_ne_marker (pipeline row : String) (value : Value) (suffix : KeySuffix) :
    ((StateKey.invocation pipeline row).withParentValue value).render ≠
      ((StateKey.invocation pipeline row).withSuffix suffix).render := by
  rw [render_withParentValue, render_withSuffix]
  rcases marker_facts suffix with ⟨_, _, nonempty⟩
  unfold KeySuffix.renderInto
  split
  · rename_i tail _
    rw [push_push nonempty]
    intro same
    -- The marker and its tail have a separator between them, and no component has.
    apply encodeComponent_not_infix (component value)
    rw [push_injective same, push, if_neg (by rw [nonempty]; decide), String.toList_append, String.toList_append]
    exact List.infix_append _ _ _
  · intro same
    exact encodeComponent_ne_marker value suffix (push_injective same)

/-- A value kept as it is spells the name another one is hashed to. -/
def Mimics (value other : Value) : Prop :=
  isVerbatim (component value) true = true ∧ isVerbatim (component other) true = false ∧
    component value = hashedName (component other)

theorem encodeComponent_eq_iff {left right : Value} (different : component left ≠ component right)
    (hashes : fnv1a (component left) ≠ fnv1a (component right)) :
    encodeComponent (component left) true = encodeComponent (component right) true <->
      Mimics left right ∨ Mimics right left := by
  unfold encodeComponent Mimics
  cases leftKept : isVerbatim (component left) true with
  | true =>
      cases rightKept : isVerbatim (component right) true with
      | true => simp [different]
      | false => simp
  | false =>
      cases rightKept : isVerbatim (component right) true with
      | true => simp [eq_comm]
      | false =>
          simp only [Bool.false_eq_true, if_false, false_and, or_self, iff_false]
          exact fun same => hashes (fnv1a_eq_of_hashedName same)

/-- Values of different text or type, with different hashes, have different
keys, and none of them is a marker of the row, exactly when neither spells the
name the other is hashed to. -/
theorem render_distinct_iff (pipeline row : String) (value other : Value)
    (different : StateKey.typeTag value ≠ StateKey.typeTag other ∨
      StateKey.parentText value ≠ StateKey.parentText other)
    (hashes : fnv1a (component value) ≠ fnv1a (component other)) :
    (((StateKey.invocation pipeline row).withParentValue value).render ≠
        ((StateKey.invocation pipeline row).withParentValue other).render ∧
      forall suffix, ((StateKey.invocation pipeline row).withParentValue value).render ≠
        ((StateKey.invocation pipeline row).withSuffix suffix).render) <->
      ¬ Mimics value other ∧ ¬ Mimics other value := by
  have apart : component value ≠ component other := by
    intro same
    rcases component_injective same with ⟨type, text⟩
    rcases different with types | texts
    · exact types type
    · exact texts text
  have marked := render_ne_marker pipeline row value
  rw [render_withParentValue, render_withParentValue, ← not_or, ← encodeComponent_eq_iff apart hashes]
  constructor
  · rintro ⟨keys, _⟩ same
    exact keys (by rw [same])
  · intro components
    refine ⟨fun same => components (push_injective same), ?_⟩
    intro suffix
    rw [← render_withParentValue]
    exact marked suffix

theorem render_distinct_iff_number_text :
    (((StateKey.invocation "p" "r").withParentValue (.number (.int 1))).render ≠
        ((StateKey.invocation "p" "r").withParentValue (.string "1")).render ∧
      forall suffix, ((StateKey.invocation "p" "r").withParentValue (.number (.int 1))).render ≠
        ((StateKey.invocation "p" "r").withSuffix suffix).render) <->
      ¬ Mimics (.number (.int 1)) (.string "1") ∧ ¬ Mimics (.string "1") (.number (.int 1)) :=
  render_distinct_iff "p" "r" (.number (.int 1)) (.string "1") (Or.inl (by decide)) (by decide +kernel)

/-- A text with a blank is hashed, and the text of that name is kept. -/
theorem render_same_of_spelled_name :
    StateKey.parentText (.string "a b") ≠ StateKey.parentText (.string "ab.he63f991904833892") ∧
      fnv1a (component (.string "a b")) ≠ fnv1a (component (.string "ab.he63f991904833892")) ∧
      ((StateKey.invocation "p" "r").withParentValue (.string "a b")).render =
        ((StateKey.invocation "p" "r").withParentValue (.string "ab.he63f991904833892")).render := by
  refine ⟨by decide +kernel, by decide +kernel, by decide +kernel⟩

end Keys
end FaucetStream
