import FaucetStream.Library.LastMatch
import Mathlib.Data.Set.Function

namespace FaucetStream
namespace Library

/-!
# Tables whose rows have keys

A table is a set of rows.  An operation adds a row, replaces the row with a key,
or removes it.  A replacement may be moved in front of operations that name
neither the key it replaces nor the one it makes; there it can become part of the
operation that made the row.
-/

universe u v

/-- One operation.  A replacement names the key it makes too. -/
inductive TableOp (Row : Type u) (Key : Type v) where
  | add (made : Key) (row : Row)
  | replace (taken made : Key) (change : Row -> Row)
  | remove (taken : Key)
  | keep

namespace TableOp

variable {Row : Type u} {Key : Type v}

def taken : TableOp Row Key -> Option Key
  | .add _ _ => none
  | .replace taken _ _ => some taken
  | .remove taken => some taken
  | .keep => none

def made : TableOp Row Key -> Option Key
  | .add made _ => some made
  | .replace _ made _ => some made
  | .remove _ => none
  | .keep => none

variable (key : Row -> Key)

open Classical in
/-- A row after a replacement. -/
noncomputable def replaced (taken : Key) (change : Row -> Row) (row : Row) : Row :=
  if key row = taken then change row else row

def apply (table : Set Row) : TableOp Row Key -> Set Row
  | .add _ row => insert row table
  | .replace taken _ change => Set.image (replaced key taken change) table
  | .remove taken => {row | row ∈ table ∧ key row ≠ taken}
  | .keep => table

def applyAll (table : Set Row) (ops : List (TableOp Row Key)) : Set Row := ops.foldl (apply key) table

/-- The keys an operation names are those of its rows. -/
def Lawful : TableOp Row Key -> Prop
  | .add made row => key row = made
  | .replace taken made change => forall row, key row = taken -> key (change row) = made
  | .remove _ => True
  | .keep => True

/-- The key an operation makes is not in use but by the row it replaces. -/
def Fresh (table : Set Row) (op : TableOp Row Key) : Prop :=
  forall made, op.made = some made -> forall row, row ∈ table -> key row = made -> op.taken = some made

/-- Every operation of a list makes a fresh key when it is its turn. -/
def FreshAll (table : Set Row) (ops : List (TableOp Row Key)) : Prop :=
  forall front op back, ops = front ++ op :: back -> op.Fresh key (applyAll key table front)

/-- An operation followed by a replacement of the row it makes. -/
def fused (change : Row -> Row) (later : Key) : TableOp Row Key -> TableOp Row Key
  | .add _ row => .add later (change row)
  | .replace taken _ first => .replace taken later (fun row => change (first row))
  | other => other

variable {key}

theorem applyAll_append (table : Set Row) (front back : List (TableOp Row Key)) :
    applyAll key table (front ++ back) = applyAll key (applyAll key table front) back := List.foldl_append

theorem applyAll_cons (table : Set Row) (op : TableOp Row Key) (back : List (TableOp Row Key)) :
    applyAll key table (op :: back) = applyAll key (apply key table op) back := rfl

theorem replaced_of_eq {taken : Key} {row : Row} (same : key row = taken) (change : Row -> Row) :
    replaced key taken change row = change row := if_pos same

theorem replaced_of_ne {taken : Key} {row : Row} (other : key row ≠ taken) (change : Row -> Row) :
    replaced key taken change row = row := if_neg other

variable {op : TableOp Row Key}

/-- A row stays while its key is not taken. -/
theorem mem_apply_of_not_taken {table : Set Row} {row : Row} (member : row ∈ table)
    (untaken : op.taken ≠ some (key row)) : row ∈ apply key table op := by
  cases op with
  | add made added => exact Set.mem_insert_of_mem _ member
  | replace taken made change =>
      refine ⟨row, member, replaced_of_ne ?_ change⟩
      rintro rfl
      exact untaken rfl
  | remove taken =>
      refine ⟨member, ?_⟩
      rintro rfl
      exact untaken rfl
  | keep => exact member

theorem mem_applyAll_of_not_taken {table : Set Row} {row : Row} (member : row ∈ table) {ops : List (TableOp Row Key)}
    (untaken : forall op, op ∈ ops -> op.taken ≠ some (key row)) : row ∈ applyAll key table ops := by
  induction ops generalizing table with
  | nil => exact member
  | cons op ops ih =>
      rw [applyAll_cons]
      apply ih (mem_apply_of_not_taken member (untaken op List.mem_cons_self))
      exact fun other inside => untaken other (List.mem_cons_of_mem _ inside)

/-! ## Moving a replacement -/

variable {taken made : Key} {change : Row -> Row}

/-- The operation does not name the key. -/
structure Avoids (op : TableOp Row Key) (key : Key) : Prop where
  takes : op.taken ≠ some key
  makes : op.made ≠ some key

theorem replace_comm (lawful : op.Lawful key)
    (changes : forall row, key row = taken -> key (change row) = made) (avoids : op.Avoids taken)
    (clear : op.Avoids made) (table : Set Row) :
    Set.image (replaced key taken change) (apply key table op) =
      apply key (Set.image (replaced key taken change) table) op := by
  cases op with
  | add new row =>
      have other : key row ≠ taken := fun same => avoids.makes (congrArg some (lawful.symm.trans same))
      change Set.image _ (insert row table) = insert row _
      rw [Set.image_insert_eq, replaced_of_ne other]
  | replace old new first =>
      change Set.image _ (Set.image _ table) = Set.image _ (Set.image _ table)
      rw [Set.image_image, Set.image_image]
      apply Set.image_congr
      intro row _
      by_cases here : key row = taken
      · have notOld : key row ≠ old := fun same => avoids.takes (congrArg some (same.symm.trans here))
        have moved : key (change row) ≠ old := fun same =>
          clear.takes (congrArg some (same.symm.trans (changes row here)))
        rw [replaced_of_ne notOld, replaced_of_eq here, replaced_of_ne moved]
      · rw [replaced_of_ne here]
        by_cases there : key row = old
        · have kept : key (first row) ≠ taken := fun same =>
            avoids.makes (congrArg some ((lawful row there).symm.trans same))
          rw [replaced_of_eq there, replaced_of_ne kept]
        · rw [replaced_of_ne there, replaced_of_ne here]
  | remove old =>
      change Set.image _ {row | row ∈ table ∧ key row ≠ old} = {row | row ∈ Set.image _ table ∧ key row ≠ old}
      ext row
      constructor
      · rintro ⟨before, ⟨member, kept⟩, rfl⟩
        refine ⟨⟨before, member, rfl⟩, ?_⟩
        by_cases here : key before = taken
        · rw [replaced_of_eq here, changes before here]
          exact fun same => clear.takes (congrArg some same.symm)
        · rw [replaced_of_ne here]
          exact kept
      · rintro ⟨⟨before, member, rfl⟩, kept⟩
        refine ⟨before, ⟨member, ?_⟩, rfl⟩
        by_cases here : key before = taken
        · rw [here]
          exact fun same => avoids.takes (congrArg some same.symm)
        · rw [replaced_of_ne here] at kept
          exact kept
  | keep => rfl

theorem replace_comm_all {ops : List (TableOp Row Key)} (lawful : forall op, op ∈ ops -> op.Lawful key)
    (changes : forall row, key row = taken -> key (change row) = made)
    (passes : forall op, op ∈ ops -> op.Avoids taken ∧ op.Avoids made) (table : Set Row) :
    Set.image (replaced key taken change) (applyAll key table ops) =
      applyAll key (Set.image (replaced key taken change) table) ops := by
  induction ops generalizing table with
  | nil => rfl
  | cons op ops ih =>
      rw [applyAll_cons, applyAll_cons,
        ih (fun other inside => lawful other (List.mem_cons_of_mem _ inside))
          (fun other inside => passes other (List.mem_cons_of_mem _ inside)),
        replace_comm (lawful op List.mem_cons_self) changes (passes op List.mem_cons_self).1
          (passes op List.mem_cons_self).2]

/-- A replacement of the row just made becomes part of what made it. -/
theorem apply_fused (lawful : op.Lawful key) (makes : op.made = some taken) {table : Set Row}
    (fresh : op.Fresh key table) :
    Set.image (replaced key taken change) (apply key table op) = apply key table (op.fused change made) := by
  cases op with
  | add new row =>
      have same : key row = taken := lawful.trans (Option.some.inj makes)
      have rest : Set.image (replaced key taken change) table = table := by
        rw [Set.image_congr (fun other member =>
          replaced_of_ne (fun here => nomatch fresh taken makes other member here)
          change)]
        exact Set.image_id table
      change Set.image _ (insert row table) = insert (change row) table
      rw [Set.image_insert_eq, rest, replaced_of_eq same]
  | replace old new first =>
      change Set.image _ (Set.image _ table) = Set.image _ table
      rw [Set.image_image]
      apply Set.image_congr
      intro row member
      by_cases there : key row = old
      · have moved : key (first row) = taken := (lawful row there).trans (Option.some.inj makes)
        rw [replaced_of_eq there, replaced_of_eq there, replaced_of_eq moved]
      · have kept : key row ≠ taken := fun here =>
          there (here.trans (Option.some.inj (fresh taken makes row member here)).symm)
        rw [replaced_of_ne there, replaced_of_ne there, replaced_of_ne kept]
  | remove old => cases makes
  | keep => cases makes

theorem applyAll_fused {front back : List (TableOp Row Key)}
    (lawful : forall other, other ∈ front ++ op :: back -> other.Lawful key) (makes : op.made = some taken)
    (changes : forall row, key row = taken -> key (change row) = made)
    (passes : forall other, other ∈ back -> other.Avoids taken ∧ other.Avoids made) {table : Set Row}
    (fresh : op.Fresh key (applyAll key table front)) :
    applyAll key table (front ++ op.fused change made :: back) =
      Set.image (replaced key taken change) (applyAll key table (front ++ op :: back)) := by
  have opLawful := lawful op (List.mem_append_right _ List.mem_cons_self)
  have backLawful : forall other, other ∈ back -> other.Lawful key :=
    fun other member => lawful other (List.mem_append_right _ (List.mem_cons_of_mem _ member))
  rw [applyAll_append, applyAll_append, applyAll_cons, applyAll_cons, replace_comm_all backLawful changes passes,
    apply_fused opLawful makes fresh]

theorem FreshAll.concat {table : Set Row} {ops : List (TableOp Row Key)} (fresh : FreshAll key table ops)
    (last : op.Fresh key (applyAll key table ops)) : FreshAll key table (ops ++ [op]) := by
  intro front other back split
  rcases List.eq_nil_or_concat back with rfl | ⟨earlier, final, rfl⟩
  · rcases List.append_inj' split rfl with ⟨rfl, same⟩
    cases same
    exact last
  · rw [List.concat_eq_append, ← List.cons_append, ← List.append_assoc] at split
    rcases List.append_inj' split rfl with ⟨rfl, _⟩
    exact fresh front other earlier rfl

theorem made_fused (makes : op.made = some taken) :
    (op.fused change made).made = some made ∧ (op.fused change made).taken = op.taken := by
  cases op with
  | add _ _ => exact ⟨rfl, rfl⟩
  | replace _ _ _ => exact ⟨rfl, rfl⟩
  | remove _ => cases makes
  | keep => cases makes

theorem Lawful.fused (lawful : op.Lawful key) (makes : op.made = some taken)
    (changes : forall row, key row = taken -> key (change row) = made) : (op.fused change made).Lawful key := by
  cases op with
  | add new row => exact changes row (lawful.trans (Option.some.inj makes))
  | replace old new first => exact fun row same => changes (first row) ((lawful row same).trans (Option.some.inj makes))
  | remove old => cases makes
  | keep => cases makes

/-- The operation itself stays fresh: a row with the new key would still be in
the table. -/
theorem Fresh.fused {table : Set Row} (fresh : op.Fresh key table)
    (makes : op.made = some taken) {back : List (TableOp Row Key)}
    (passes : forall other, other ∈ back -> other.Avoids taken ∧ other.Avoids made)
    (unused : forall row, row ∈ applyAll key table (op :: back) -> key row = made -> made = taken) :
    (op.fused change made).Fresh key table := by
  intro new named row member same
  rw [(made_fused makes).1] at named
  cases named
  rw [(made_fused makes).2]
  by_contra untaken
  have through : row ∈ applyAll key table (op :: back) := by
    rw [applyAll_cons]
    apply mem_applyAll_of_not_taken (mem_apply_of_not_taken member (same.symm ▸ untaken))
    intro behind inside
    rw [same]
    exact (passes behind inside).2.takes
  have equal := unused row through same
  apply untaken
  rw [equal]
  exact fresh taken makes row member (same.trans equal)

/-- The operations stay fresh when a replacement moves to a key that is not in
use, and that no operation behind names. -/
theorem FreshAll.fused {table : Set Row} {front back : List (TableOp Row Key)}
    (fresh : FreshAll key table (front ++ op :: back))
    (lawful : forall other, other ∈ front ++ op :: back -> other.Lawful key) (makes : op.made = some taken)
    (changes : forall row, key row = taken -> key (change row) = made)
    (passes : forall other, other ∈ back -> other.Avoids taken ∧ other.Avoids made)
    (unused : forall row, row ∈ applyAll key table (front ++ op :: back) -> key row = made -> made = taken) :
    FreshAll key table (front ++ op.fused change made :: back) := by
  have opFresh := fresh front op back rfl
  intro earlier other later split
  rcases split_cases split with ⟨between, rfl, rfl⟩ | ⟨rfl, rfl, rfl⟩ | ⟨between, rfl, rfl⟩
  · apply fresh earlier other (between ++ op :: back)
    rw [List.append_assoc, List.cons_append]
  · apply opFresh.fused makes passes
    rw [← applyAll_append]
    exact unused
  · intro new named row member same
    have passesFront : forall behind, behind ∈ between -> behind.Avoids taken ∧ behind.Avoids made :=
      fun behind inside => passes behind (List.mem_append_left _ inside)
    have longer : front ++ op :: (between ++ other :: later) = (front ++ op :: between) ++ other :: later := by
      rw [List.append_assoc, List.cons_append]
    rw [longer] at fresh lawful
    rw [applyAll_fused (fun behind inside => lawful behind (List.mem_append_left _ inside)) makes changes passesFront
      opFresh] at member
    rcases member with ⟨before, inside, rfl⟩
    by_cases here : key before = taken
    · rw [replaced_of_eq here, changes before here] at same
      rw [← same] at named
      exact absurd named (passes other (List.mem_append_right _ List.mem_cons_self)).2.makes
    · rw [replaced_of_ne here] at same
      exact fresh (front ++ op :: between) other later rfl new named before inside same

/-! ## Tables with one row for each key -/

/-- A replacement changes the one row with the key. -/
theorem image_replaced {table : Set Row} (unique : Set.InjOn key table) {row : Row} (member : row ∈ table)
    (change : Row -> Row) : Set.image (replaced key (key row) change) table = insert (change row) (table \ {row}) := by
  ext other
  constructor
  · rintro ⟨before, inside, rfl⟩
    by_cases here : key before = key row
    · rw [replaced_of_eq here, unique inside member here]
      exact Set.mem_insert _ _
    · rw [replaced_of_ne here]
      refine Set.mem_insert_of_mem _ ⟨inside, ?_⟩
      rintro rfl
      exact here rfl
  · rintro (rfl | ⟨inside, another⟩)
    · exact ⟨row, member, replaced_of_eq rfl change⟩
    · exact ⟨other, inside, replaced_of_ne (fun here => another (unique inside member here)) change⟩

/-- A removal takes the one row with the key. -/
theorem removed_eq {table : Set Row} (unique : Set.InjOn key table) {row : Row} (member : row ∈ table) :
    {other | other ∈ table ∧ key other ≠ key row} = table \ {row} := by
  ext other
  constructor
  · rintro ⟨inside, another⟩
    refine ⟨inside, ?_⟩
    rintro rfl
    exact another rfl
  · rintro ⟨inside, another⟩
    exact ⟨inside, fun here => another (unique inside member here)⟩

theorem injOn_insert_of_unused {table : Set Row} (unique : Set.InjOn key table) {row : Row}
    (unused : forall other, other ∈ table -> key other ≠ key row) : Set.InjOn key (insert row table) := by
  have absent : row ∉ table := fun member => unused row member rfl
  rw [Set.injOn_insert absent]
  refine ⟨unique, ?_⟩
  rintro ⟨other, member, same⟩
  exact unused other member same

end TableOp

end Library
end FaucetStream
