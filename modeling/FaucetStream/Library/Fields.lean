import Mathlib.Data.List.Basic

namespace FaucetStream
namespace Library

/-!
# Labelled fields in one text

A list of labelled values is written into one text: each field is its label, a
mark, its value and a stop.  Nothing is escaped.  The text determines the
fields as long as no value holds the stop and, where the labels are not known
beforehand, no label holds the mark.  Otherwise it does not: two fields can
exchange a value that spells out what stands between them.
-/

variable {Symbol Label : Type} (mark stop : Symbol)

def fieldText (label value : List Symbol) : List Symbol := label ++ mark :: (value ++ [stop])

def fieldsText (fields : List (List Symbol × List Symbol)) : List Symbol :=
  fields.flatMap (fun field => fieldText mark stop field.1 field.2)

@[simp] theorem fieldsText_nil : fieldsText mark stop [] = [] := rfl

@[simp] theorem fieldsText_cons (field : List Symbol × List Symbol) (rest : List (List Symbol × List Symbol)) :
    fieldsText mark stop (field :: rest) =
      field.1 ++ mark :: (field.2 ++ stop :: fieldsText mark stop rest) := by
  simp only [fieldsText, List.flatMap_cons, fieldText, List.append_assoc, List.cons_append, List.nil_append]

theorem fieldsText_append (front back : List (List Symbol × List Symbol)) :
    fieldsText mark stop (front ++ back) = fieldsText mark stop front ++ fieldsText mark stop back := by
  simp only [fieldsText, List.flatMap_append]

variable {mark stop}

/-- Two pieces without the stop, each followed by one. -/
theorem append_stop_inj {left right leftRest rightRest : List Symbol} (leftFree : stop ∉ left)
    (rightFree : stop ∉ right) (same : left ++ stop :: leftRest = right ++ stop :: rightRest) :
    left = right ∧ leftRest = rightRest := by
  induction left generalizing right with
  | nil =>
      cases right with
      | nil => exact ⟨rfl, (List.cons.inj same).2⟩
      | cons symbol others => exact absurd ((List.cons.inj same).1 ▸ List.mem_cons_self) rightFree
  | cons symbol rest ih =>
      cases right with
      | nil => exact absurd ((List.cons.inj same).1.symm ▸ List.mem_cons_self) leftFree
      | cons other others =>
          rcases List.cons.inj same with ⟨head, tails⟩
          rcases ih (fun member => leftFree (List.mem_cons_of_mem _ member))
            (fun member => rightFree (List.mem_cons_of_mem _ member)) tails with ⟨equal, remaining⟩
          exact ⟨by rw [head, equal], remaining⟩

/-- Values under known labels.  Only the last one may hold the stop. -/
theorem values_eq_of_fieldsText (text : Label -> List Symbol) (labels : List Label)
    (left right : Label -> List Symbol)
    (free : forall label, label ∈ labels.dropLast -> stop ∉ left label ∧ stop ∉ right label)
    (same : fieldsText mark stop (labels.map (fun label => (text label, left label))) =
      fieldsText mark stop (labels.map (fun label => (text label, right label)))) :
    forall label, label ∈ labels -> left label = right label := by
  induction labels with
  | nil =>
      intro label impossible
      exact absurd impossible List.not_mem_nil
  | cons first rest ih =>
      simp only [List.map_cons, fieldsText_cons] at same
      have values := (List.cons.inj (List.append_cancel_left same)).2
      cases rest with
      | nil =>
          simp only [List.map_nil, fieldsText_nil] at values
          intro label member
          rw [List.mem_singleton.mp member]
          exact List.append_cancel_right values
      | cons second others =>
          have firstFree := free first List.mem_cons_self
          rcases append_stop_inj firstFree.1 firstFree.2 values with ⟨value, tails⟩
          have tail := ih
            (fun label member => free label (List.mem_cons_of_mem _ member)) tails
          intro label member
          rcases List.mem_cons.mp member with here | later
          · rw [here]
            exact value
          · exact tail label later

/-- Fields under labels that are read from the text. -/
theorem fieldsText_injective {left right : List (List Symbol × List Symbol)}
    (leftFree : forall field, field ∈ left -> mark ∉ field.1 ∧ stop ∉ field.2)
    (rightFree : forall field, field ∈ right -> mark ∉ field.1 ∧ stop ∉ field.2)
    (same : fieldsText mark stop left = fieldsText mark stop right) : left = right := by
  induction left generalizing right with
  | nil =>
      cases right with
      | nil => rfl
      | cons field rest =>
          rw [fieldsText_nil, fieldsText_cons] at same
          exact absurd same.symm (List.append_ne_nil_of_right_ne_nil _ (List.cons_ne_nil _ _))
  | cons field rest ih =>
      cases right with
      | nil =>
          rw [fieldsText_nil, fieldsText_cons] at same
          exact absurd same (List.append_ne_nil_of_right_ne_nil _ (List.cons_ne_nil _ _))
      | cons other others =>
          rw [fieldsText_cons, fieldsText_cons] at same
          have fieldFree := leftFree field List.mem_cons_self
          have otherFree := rightFree other List.mem_cons_self
          rcases append_stop_inj fieldFree.1 otherFree.1 same with ⟨label, values⟩
          rcases append_stop_inj fieldFree.2 otherFree.2 values with ⟨value, tails⟩
          have tail := ih (fun member present => leftFree member (List.mem_cons_of_mem _ present))
            (fun member present => rightFree member (List.mem_cons_of_mem _ present)) tails
          rw [tail, Prod.ext label value]

/-- What a value has to spell out to pass for another field: a value, the
fields in between, and the label of the other field. -/
def spellOut (mark stop : Symbol) (value : List Symbol) (between : List (List Symbol × List Symbol))
    (label : List Symbol) : List Symbol :=
  value ++ stop :: (fieldsText mark stop between ++ label ++ mark :: value)

/-- Two fields exchange a value and its long spelling, and the text stays. -/
theorem fieldsText_exchange (before between after : List (List Symbol × List Symbol))
    (first second value : List Symbol) :
    fieldsText mark stop (before ++ (first, value) ::
        (between ++ (second, spellOut mark stop value between second) :: after)) =
      fieldsText mark stop (before ++ (first, spellOut mark stop value between second) ::
        (between ++ (second, value) :: after)) := by
  simp only [fieldsText_append, fieldsText_cons, spellOut, List.append_assoc, List.cons_append]

end Library
end FaucetStream
