import FaucetStream.Json.Value

namespace FaucetStream
namespace Budget

open Json

/-!
# Run budgets

A budget bounds what a run may move and names the sinks it may write to.  Two
budgets are merged into the stricter one: the lower of each ceiling, and the
sinks both allow.

An entry of the list of sinks is the name of a template or of a connector
kind, and nothing tells which.  So a list may come to allow a kind because a
template of that name has a kind the list names, and the merge then allows
every template of the kind.  A list that holds the sentinel allows nothing,
but the merge only passes over the sentinel itself.  The merge is the
intersection exactly where neither happens.
-/

structure BudgetSpec where
  maxRecords : Option Nat
  maxBytes : Option Nat
  maxDurationSecs : Option Nat
  /-- Template names and connector kinds; none means any. -/
  allowedSinks : List String
  deriving DecidableEq

namespace BudgetSpec

/-- The ceilings that are zero fail under their name, and so does a blank
entry. -/
def validate (spec : BudgetSpec) : Except String Unit :=
  let ceilings :=
    [("max_records", spec.maxRecords), ("max_bytes", spec.maxBytes), ("max_duration_secs", spec.maxDurationSecs)]
  match ceilings.find? (fun ceiling => ceiling.2 == some 0) with
  | some ceiling =>
      .error ("budget." ++ ceiling.1 ++ " must be greater than 0 (omit it for no ceiling)")
  | none =>
      if spec.allowedSinks.any (fun entry => (trim entry.toList).isEmpty) then
        .error "budget.allowed_sinks contains an empty entry"
      else .ok ()

/-- The entry that matches no sink. -/
def DENY_ALL_SINKS : String := "!none"

def minOpt : Option Nat -> Option Nat -> Option Nat
  | some left, some right => some (min left right)
  | left, none => left
  | none, right => right

/-- A list admits an entry: it names it, or the kind of the template of that
name. -/
def allows (kindOf : String -> Option String) (sinks : List String) (entry : String) : Bool :=
  sinks.contains entry || (kindOf entry).any (fun kind => sinks.contains kind)

/-- One step of the merge: an entry both lists allow is kept once. -/
def keepCommon (kindOf : String -> Option String) (left right both : List String) (entry : String) :
    List String :=
  if entry ≠ DENY_ALL_SINKS ∧ allows kindOf left entry = true ∧ allows kindOf right entry = true ∧ entry ∉ both
  then both ++ [entry] else both

def common (kindOf : String -> Option String) (left right : List String) : List String :=
  (left ++ right).foldl (keepCommon kindOf left right) []

def mergeSinks (kindOf : String -> Option String) (left right : List String) : List String :=
  match left.isEmpty, right.isEmpty with
  | true, true => []
  | false, true => left
  | true, false => right
  | false, false =>
      let both := common kindOf left right
      if both.isEmpty then [DENY_ALL_SINKS] else both

/-- `merge_with`, where `kindOf` names the kind of a template. -/
def mergeWith (spec other : BudgetSpec) (kindOf : String -> Option String) : BudgetSpec where
  maxRecords := minOpt spec.maxRecords other.maxRecords
  maxBytes := minOpt spec.maxBytes other.maxBytes
  maxDurationSecs := minOpt spec.maxDurationSecs other.maxDurationSecs
  allowedSinks := mergeSinks kindOf spec.allowedSinks other.allowedSinks

def sinkAllowed (spec : BudgetSpec) (sinkRef kind : String) : Bool :=
  if spec.allowedSinks.any (fun entry => entry == DENY_ALL_SINKS) then false
  else spec.allowedSinks.isEmpty || spec.allowedSinks.any (fun entry => entry == sinkRef || entry == kind)

end BudgetSpec

open BudgetSpec

/-! ## What a list allows -/

variable {kindOf : String -> Option String} {left right : List String} {sinkRef kind entry : String}

theorem allows_iff :
    allows kindOf left entry = true <-> entry ∈ left ∨ exists kind, kindOf entry = some kind ∧ kind ∈ left := by
  unfold allows
  rw [Bool.or_eq_true, List.contains_iff_mem, Option.any_eq_true]
  simp only [List.contains_iff_mem]

/-- The merge keeps the listed entries that both allow. -/
def Common (kindOf : String -> Option String) (left right : List String) (entry : String) : Prop :=
  (entry ∈ left ∨ entry ∈ right) ∧ entry ≠ DENY_ALL_SINKS ∧ allows kindOf left entry = true ∧
    allows kindOf right entry = true

theorem mem_keepCommon {both : List String} {head : String} :
    entry ∈ keepCommon kindOf left right both head <->
      entry ∈ both ∨ (entry = head ∧ entry ≠ DENY_ALL_SINKS ∧ allows kindOf left entry = true ∧
        allows kindOf right entry = true) := by
  unfold keepCommon
  split
  · rename_i kept
    rw [List.mem_append, List.mem_singleton]
    refine or_congr_right ⟨?_, And.left⟩
    rintro rfl
    exact ⟨rfl, kept.1, kept.2.1, kept.2.2.1⟩
  · rename_i dropped
    refine ⟨Or.inl, ?_⟩
    rintro (earlier | ⟨rfl, admitted⟩)
    · exact earlier
    · by_contra absent
      exact dropped ⟨admitted.1, admitted.2.1, admitted.2.2, absent⟩

theorem mem_foldl_keepCommon (rest both : List String) :
    entry ∈ rest.foldl (keepCommon kindOf left right) both <->
      entry ∈ both ∨ (entry ∈ rest ∧ entry ≠ DENY_ALL_SINKS ∧ allows kindOf left entry = true ∧
        allows kindOf right entry = true) := by
  induction rest generalizing both with
  | nil => simp only [List.foldl_nil, List.not_mem_nil, false_and, or_false]
  | cons head rest ih =>
      rw [List.foldl_cons, ih, mem_keepCommon, List.mem_cons, or_and_right, or_assoc]

theorem mem_common : entry ∈ common kindOf left right <-> Common kindOf left right entry := by
  unfold common Common
  rw [mem_foldl_keepCommon, List.mem_append]
  simp only [List.not_mem_nil, false_or]

theorem sinkAllowed_iff {spec : BudgetSpec} :
    spec.sinkAllowed sinkRef kind = true <-> DENY_ALL_SINKS ∉ spec.allowedSinks ∧
      (spec.allowedSinks = [] ∨ sinkRef ∈ spec.allowedSinks ∨ kind ∈ spec.allowedSinks) := by
  have denied : spec.allowedSinks.any (fun entry => entry == DENY_ALL_SINKS) = true <->
      DENY_ALL_SINKS ∈ spec.allowedSinks := by
    simp only [List.any_eq_true, beq_iff_eq, exists_eq_right]
  have named : spec.allowedSinks.any (fun entry => entry == sinkRef || entry == kind) = true <->
      sinkRef ∈ spec.allowedSinks ∨ kind ∈ spec.allowedSinks := by
    simp only [List.any_eq_true, Bool.or_eq_true, beq_iff_eq, and_or_left, exists_or, exists_eq_right]
  unfold sinkAllowed
  split
  · rename_i sentinel
    simp only [Bool.false_eq_true, denied.mp sentinel, not_true_eq_false, false_and]
  · rename_i clear
    have absent : DENY_ALL_SINKS ∉ spec.allowedSinks := fun member => clear (denied.mpr member)
    rw [Bool.or_eq_true, named, List.isEmpty_iff]
    simp only [absent, not_false_eq_true, true_and]

/-- Two lists that name something allow a sink together when they have its name
or its kind in common. -/
theorem sinkAllowed_mergeWith_iff {spec other : BudgetSpec} (named : spec.allowedSinks ≠ [])
    (otherNamed : other.allowedSinks ≠ []) :
    (spec.mergeWith other kindOf).sinkAllowed sinkRef kind = true <->
      Common kindOf spec.allowedSinks other.allowedSinks sinkRef ∨
        Common kindOf spec.allowedSinks other.allowedSinks kind := by
  have merged : (spec.mergeWith other kindOf).allowedSinks =
      if (common kindOf spec.allowedSinks other.allowedSinks).isEmpty then [DENY_ALL_SINKS]
      else common kindOf spec.allowedSinks other.allowedSinks := by
    change mergeSinks kindOf spec.allowedSinks other.allowedSinks = _
    unfold mergeSinks
    rw [List.isEmpty_eq_false_iff.mpr named, List.isEmpty_eq_false_iff.mpr otherNamed]
  rw [sinkAllowed_iff, merged, ← mem_common, ← mem_common]
  split
  · rename_i empty
    rw [List.isEmpty_iff.mp empty]
    simp only [List.mem_singleton, not_true_eq_false, false_and, List.not_mem_nil, or_self]
  · rename_i present
    have undenied : DENY_ALL_SINKS ∉ common kindOf spec.allowedSinks other.allowedSinks :=
      fun member => (mem_common.mp member).2.1 rfl
    have filled : common kindOf spec.allowedSinks other.allowedSinks ≠ [] :=
      fun empty => present (List.isEmpty_iff.mpr empty)
    simp only [undenied, filled, not_false_eq_true, true_and, false_or]

/-! ## When the merge is the intersection -/

/-- The least of the values that are present. -/
def lowest (left right : Option Nat) : Option Nat := [left, right].reduceOption.min?

theorem minOpt_eq_lowest (left right : Option Nat) : minOpt left right = lowest left right := by
  cases left with
  | none =>
      cases right with
      | none => rfl
      | some right => rfl
  | some left =>
      cases right with
      | none => rfl
      | some right => rfl

/-- Every row is allowed by the merge when both budgets allow it and only then,
and each ceiling is the least one present. -/
structure Intersects (kindOf : String -> Option String) (spec other : BudgetSpec) : Prop where
  sinks : forall sinkRef kind, kindOf sinkRef = some kind ->
    ((spec.mergeWith other kindOf).sinkAllowed sinkRef kind = true <->
      spec.sinkAllowed sinkRef kind = true ∧ other.sinkAllowed sinkRef kind = true)
  maxRecords : (spec.mergeWith other kindOf).maxRecords = lowest spec.maxRecords other.maxRecords
  maxBytes : (spec.mergeWith other kindOf).maxBytes = lowest spec.maxBytes other.maxBytes
  maxDurationSecs : (spec.mergeWith other kindOf).maxDurationSecs =
    lowest spec.maxDurationSecs other.maxDurationSecs

/-- A list that names neither a template nor its kind admits the kind all the
same: a template bears the kind's name, and the list names that template's
kind. -/
def Shadowed (kindOf : String -> Option String) (sinks : List String) (sinkRef kind : String) : Prop :=
  sinkRef ∉ sinks ∧ kind ∉ sinks ∧ exists other, kindOf kind = some other ∧ other ∈ sinks

/-- Nothing in the lists makes the merge looser than they are. -/
structure Separate (kindOf : String -> Option String) (left right : List String) : Prop where
  /-- A list that allows nothing has nothing to keep. -/
  denied : DENY_ALL_SINKS ∈ left ∨ DENY_ALL_SINKS ∈ right -> forall sinkRef kind, kindOf sinkRef = some kind ->
    ¬Common kindOf left right sinkRef ∧ ¬Common kindOf left right kind
  unshadowed : DENY_ALL_SINKS ∉ left -> DENY_ALL_SINKS ∉ right -> forall sinkRef kind,
    kindOf sinkRef = some kind ->
    (kind ∈ right -> ¬Shadowed kindOf left sinkRef kind) ∧ (kind ∈ left -> ¬Shadowed kindOf right sinkRef kind)

theorem Common.of_lists (leftClear : DENY_ALL_SINKS ∉ left) (rightClear : DENY_ALL_SINKS ∉ right)
    (listed : entry ∈ left ∨ entry ∈ right) (first : allows kindOf left entry = true)
    (second : allows kindOf right entry = true) : Common kindOf left right entry := by
  refine ⟨listed, ?_, first, second⟩
  rintro rfl
  exact listed.elim leftClear rightClear

/-- What both lists allow, the merge allows. -/
theorem common_of_allowed (known : kindOf sinkRef = some kind) (leftClear : DENY_ALL_SINKS ∉ left)
    (rightClear : DENY_ALL_SINKS ∉ right) (first : sinkRef ∈ left ∨ kind ∈ left)
    (second : sinkRef ∈ right ∨ kind ∈ right) :
    Common kindOf left right sinkRef ∨ Common kindOf left right kind := by
  have admits : forall sinks : List String, sinkRef ∈ sinks ∨ kind ∈ sinks -> allows kindOf sinks sinkRef = true :=
    fun sinks named => allows_iff.mpr (named.imp id (fun member => ⟨kind, known, member⟩))
  by_cases listed : sinkRef ∈ left ∨ sinkRef ∈ right
  · exact Or.inl (Common.of_lists leftClear rightClear listed (admits left first) (admits right second))
  · have onLeft : kind ∈ left := first.resolve_left (fun member => listed (Or.inl member))
    have onRight : kind ∈ right := second.resolve_left (fun member => listed (Or.inr member))
    exact Or.inr (Common.of_lists leftClear rightClear (Or.inl onLeft) (allows_iff.mpr (Or.inl onLeft))
      (allows_iff.mpr (Or.inl onRight)))

/-- A template the merge keeps by name is one each list allows. -/
theorem allowed_of_allows (known : kindOf sinkRef = some kind) (admitted : allows kindOf left sinkRef = true) :
    sinkRef ∈ left ∨ kind ∈ left := by
  rcases allows_iff.mp admitted with named | ⟨other, same, member⟩
  · exact Or.inl named
  · rw [known] at same
    cases same
    exact Or.inr member

/-- A kind the merge keeps is one each list allows, unless it is shadowed. -/
theorem allowed_of_unshadowed (admitted : allows kindOf left kind = true) (listed : kind ∈ left ∨ kind ∈ right)
    (clear : kind ∈ right -> ¬Shadowed kindOf left sinkRef kind) : sinkRef ∈ left ∨ kind ∈ left := by
  by_contra missing
  rw [not_or] at missing
  have onRight : kind ∈ right := listed.resolve_left missing.2
  rcases allows_iff.mp admitted with named | shadow
  · exact missing.2 named
  · exact clear onRight ⟨missing.1, missing.2, shadow⟩

theorem sinkAllowed_of_unnamed {spec : BudgetSpec} (unnamed : spec.allowedSinks = []) :
    spec.sinkAllowed sinkRef kind = true := by
  rw [sinkAllowed_iff, unnamed]
  exact ⟨List.not_mem_nil, Or.inl rfl⟩

theorem sinkAllowed_congr {spec other : BudgetSpec} (same : spec.allowedSinks = other.allowedSinks) :
    spec.sinkAllowed sinkRef kind = other.sinkAllowed sinkRef kind := by
  unfold sinkAllowed
  rw [same]

theorem mergeSinks_nil_left : mergeSinks kindOf [] right = right := by
  cases right with
  | nil => rfl
  | cons head rest => rfl

theorem mergeSinks_nil_right : mergeSinks kindOf left [] = left := by
  cases left with
  | nil => rfl
  | cons head rest => rfl

/-- What the merge allows of a row, against what both lists allow. -/
def Agrees (kindOf : String -> Option String) (left right : List String) (sinkRef kind : String) : Prop :=
  Common kindOf left right sinkRef ∨ Common kindOf left right kind <->
    (DENY_ALL_SINKS ∉ left ∧ (sinkRef ∈ left ∨ kind ∈ left)) ∧
      (DENY_ALL_SINKS ∉ right ∧ (sinkRef ∈ right ∨ kind ∈ right))

theorem agrees_of_separate (separate : Separate kindOf left right) (known : kindOf sinkRef = some kind) :
    Agrees kindOf left right sinkRef kind := by
  constructor
  · intro kept
    have clear : ¬(DENY_ALL_SINKS ∈ left ∨ DENY_ALL_SINKS ∈ right) := by
      intro sentinel
      rcases separate.denied sentinel sinkRef kind known with ⟨first, second⟩
      exact kept.elim first second
    rw [not_or] at clear
    have unshadowed := separate.unshadowed clear.1 clear.2 sinkRef kind known
    rcases kept with ⟨_, _, first, second⟩ | ⟨listed, _, first, second⟩
    · exact ⟨⟨clear.1, allowed_of_allows known first⟩, clear.2, allowed_of_allows known second⟩
    · exact ⟨⟨clear.1, allowed_of_unshadowed first listed unshadowed.1⟩, clear.2,
        allowed_of_unshadowed second listed.symm unshadowed.2⟩
  · rintro ⟨⟨leftClear, first⟩, rightClear, second⟩
    exact common_of_allowed known leftClear rightClear first second

theorem separate_of_agrees (agrees : forall sinkRef kind, kindOf sinkRef = some kind ->
    Agrees kindOf left right sinkRef kind) : Separate kindOf left right := by
  constructor
  · intro sentinel sinkRef kind known
    have refused : ¬(Common kindOf left right sinkRef ∨ Common kindOf left right kind) := by
      intro kept
      rcases (agrees sinkRef kind known).mp kept with ⟨⟨leftClear, _⟩, rightClear, _⟩
      exact sentinel.elim leftClear rightClear
    exact not_or.mp refused
  · intro leftClear rightClear sinkRef kind known
    constructor
    · rintro onRight ⟨unnamed, unlisted, shadow⟩
      have kept : Common kindOf left right kind := Common.of_lists leftClear rightClear (Or.inr onRight)
        (allows_iff.mpr (Or.inr shadow)) (allows_iff.mpr (Or.inl onRight))
      exact ((agrees sinkRef kind known).mp (Or.inr kept)).1.2.elim unnamed unlisted
    · rintro onLeft ⟨unnamed, unlisted, shadow⟩
      have kept : Common kindOf left right kind := Common.of_lists leftClear rightClear (Or.inl onLeft)
        (allows_iff.mpr (Or.inl onLeft)) (allows_iff.mpr (Or.inr shadow))
      exact ((agrees sinkRef kind known).mp (Or.inr kept)).2.2.elim unnamed unlisted

theorem agrees_iff {spec other : BudgetSpec} (named : spec.allowedSinks ≠ []) (otherNamed : other.allowedSinks ≠ []) :
    ((spec.mergeWith other kindOf).sinkAllowed sinkRef kind = true <->
        spec.sinkAllowed sinkRef kind = true ∧ other.sinkAllowed sinkRef kind = true) <->
      Agrees kindOf spec.allowedSinks other.allowedSinks sinkRef kind := by
  unfold Agrees
  rw [sinkAllowed_mergeWith_iff named otherNamed, sinkAllowed_iff, sinkAllowed_iff]
  simp only [named, otherNamed, false_or]

/-- The merge of two budgets is their intersection exactly when one of them
names no sink, or nothing in their lists makes the merge looser. -/
theorem intersects_iff (kindOf : String -> Option String) (spec other : BudgetSpec) :
    Intersects kindOf spec other <->
      spec.allowedSinks = [] ∨ other.allowedSinks = [] ∨ Separate kindOf spec.allowedSinks other.allowedSinks := by
  constructor
  · intro intersects
    by_cases named : spec.allowedSinks = []
    · exact Or.inl named
    · by_cases otherNamed : other.allowedSinks = []
      · exact Or.inr (Or.inl otherNamed)
      · refine Or.inr (Or.inr (separate_of_agrees ?_))
        intro sinkRef kind known
        exact (agrees_iff named otherNamed).mp (intersects.sinks sinkRef kind known)
  · intro condition
    refine ⟨?_, minOpt_eq_lowest _ _, minOpt_eq_lowest _ _, minOpt_eq_lowest _ _⟩
    intro sinkRef kind known
    by_cases named : spec.allowedSinks = []
    · have merged : (spec.mergeWith other kindOf).allowedSinks = other.allowedSinks := by
        change mergeSinks kindOf spec.allowedSinks other.allowedSinks = _
        rw [named, mergeSinks_nil_left]
      rw [sinkAllowed_congr merged, sinkAllowed_of_unnamed named]
      simp only [true_and]
    · by_cases otherNamed : other.allowedSinks = []
      · have merged : (spec.mergeWith other kindOf).allowedSinks = spec.allowedSinks := by
          change mergeSinks kindOf spec.allowedSinks other.allowedSinks = _
          rw [otherNamed, mergeSinks_nil_right]
        rw [sinkAllowed_congr merged, sinkAllowed_of_unnamed otherNamed]
        simp only [and_true]
      · have separate : Separate kindOf spec.allowedSinks other.allowedSinks :=
          (condition.resolve_left named).resolve_left otherNamed
        exact (agrees_iff named otherNamed).mpr (agrees_of_separate separate known)

/-! ### A template that bears the name of a kind -/

/-- The template `postgres` is a MySQL sink, and `archive` is a Postgres one. -/
def sampleKindOf (template : String) : Option String :=
  if template = "postgres" then some "mysql" else if template = "archive" then some "postgres" else none

def samplePostgres : BudgetSpec := ⟨none, none, none, ["postgres"]⟩

def sampleMysql : BudgetSpec := ⟨none, none, none, ["mysql"]⟩

/-- The second budget refuses the Postgres sink, and the merge allows it. -/
theorem merge_allows_shadowed :
    samplePostgres.validate = .ok () ∧ sampleMysql.validate = .ok () ∧
      sampleMysql.sinkAllowed "archive" "postgres" = false ∧
      (samplePostgres.mergeWith sampleMysql sampleKindOf).sinkAllowed "archive" "postgres" = true ∧
      ¬ forall (kindOf : String -> Option String) (spec other : BudgetSpec), spec.validate = .ok () ->
        other.validate = .ok () -> Intersects kindOf spec other := by
  have refused : sampleMysql.sinkAllowed "archive" "postgres" = false := by decide
  have allowed : (samplePostgres.mergeWith sampleMysql sampleKindOf).sinkAllowed "archive" "postgres" = true := by
    decide
  refine ⟨by decide, by decide, refused, allowed, fun claimed => ?_⟩
  have both := ((claimed sampleKindOf samplePostgres sampleMysql (by decide) (by decide)).sinks "archive" "postgres"
    (by decide)).mp allowed
  rw [refused] at both
  cases both.2

end Budget
end FaucetStream
