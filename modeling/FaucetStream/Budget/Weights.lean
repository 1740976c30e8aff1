import FaucetStream.Budget.Sink
import FaucetStream.Pipeline.RowConservation

namespace FaucetStream
namespace Budget

open Json
open Library
open Pipeline

/-!
# What rows weigh against a ceiling

A row weighs one against the ceiling for records, and its estimated size
against that for bytes.  Either way, what a sink accepts of a slice and what is
left to resubmit weigh no more than the slice.
-/

variable (weight : GovernedRow -> Nat)

def weigh (weight : GovernedRow -> Nat) (rows : List GovernedRow) : Nat := (rows.map weight).sum

/-- The weight of the rows whose outcome is a success, or is a failure. -/
def weighWhere (weight : GovernedRow -> Nat) (succeeded : Bool) (rows : List GovernedRow)
    (outcomes : List RowOutcome) : Nat :=
  (((rows.zip outcomes).filter (fun entry => okOutcome entry.2 == succeeded)).map (fun entry => weight entry.1)).sum

theorem weigh_append (front back : List GovernedRow) :
    weigh weight (front ++ back) = weigh weight front + weigh weight back := by
  unfold weigh
  rw [List.map_append, List.sum_append]

theorem weigh_one (rows : List GovernedRow) : weigh (fun _ => 1) rows = rows.length := by
  unfold weigh
  induction rows with
  | nil => rfl
  | cons row rest ih =>
      rw [List.map_cons, List.sum_cons, ih, List.length_cons, Nat.add_comm]

section Cons

variable (row : GovernedRow) (rows : List GovernedRow) (outcome : RowOutcome) (outcomes : List RowOutcome)
  (succeeded : Bool)

theorem weighWhere_cons_of_eq (same : okOutcome outcome = succeeded) :
    weighWhere weight succeeded (row :: rows) (outcome :: outcomes) =
      weight row + weighWhere weight succeeded rows outcomes := by
  unfold weighWhere
  simp only [List.zip_cons_cons, List.filter_cons, same, beq_self_eq_true, if_true, List.map_cons, List.sum_cons]

theorem weighWhere_cons_of_ne (other : okOutcome outcome ≠ succeeded) :
    weighWhere weight succeeded (row :: rows) (outcome :: outcomes) = weighWhere weight succeeded rows outcomes := by
  unfold weighWhere
  simp only [List.zip_cons_cons, List.filter_cons, beq_iff_eq, other, if_false]

end Cons

variable {outcomes : List RowOutcome}

/-- Of rows with outcomes, the successes and the failures are all. -/
theorem weighWhere_add {rows : List GovernedRow} (aligned : outcomes.length = rows.length) :
    weighWhere weight true rows outcomes + weighWhere weight false rows outcomes = weigh weight rows := by
  induction rows generalizing outcomes with
  | nil => rfl
  | cons row rest ih =>
      cases outcomes with
      | nil => cases aligned
      | cons outcome later =>
          have others := ih (Nat.succ.inj aligned)
          have total : weigh weight (row :: rest) = weight row + weigh weight rest := by
            unfold weigh
            rw [List.map_cons, List.sum_cons]
          cases succeeds : okOutcome outcome with
          | true =>
              have differs : okOutcome outcome ≠ false := by rw [succeeds]; exact Bool.false_ne_true.symm
              rw [weighWhere_cons_of_eq weight row rest outcome later true succeeds,
                weighWhere_cons_of_ne weight row rest outcome later false differs]
              omega
          | false =>
              have differs : okOutcome outcome ≠ true := by rw [succeeds]; exact Bool.false_ne_true
              rw [weighWhere_cons_of_eq weight row rest outcome later false succeeds,
                weighWhere_cons_of_ne weight row rest outcome later true differs]
              omega

theorem weighWhere_le (succeeded : Bool) (rows : List GovernedRow) (outcomes : List RowOutcome) :
    weighWhere weight succeeded rows outcomes ≤ weigh weight rows := by
  induction rows generalizing outcomes with
  | nil => exact Nat.le_refl _
  | cons row rest ih =>
      cases outcomes with
      | nil => exact Nat.zero_le _
      | cons outcome later =>
          have others := ih later
          have total : weigh weight (row :: rest) = weight row + weigh weight rest := by
            unfold weigh
            rw [List.map_cons, List.sum_cons]
          by_cases same : okOutcome outcome = succeeded
          · rw [weighWhere_cons_of_eq weight row rest outcome later succeeded same]
            omega
          · rw [weighWhere_cons_of_ne weight row rest outcome later succeeded same]
            omega

theorem weighWhere_one {rows : List GovernedRow} (aligned : outcomes.length = rows.length) :
    weighWhere (fun _ => 1) true rows outcomes = outcomes.countP okOutcome := by
  induction rows generalizing outcomes with
  | nil =>
      rw [List.eq_nil_of_length_eq_zero aligned]
      rfl
  | cons row rest ih =>
      cases outcomes with
      | nil => cases aligned
      | cons outcome later =>
          have others := ih (Nat.succ.inj aligned)
          cases succeeds : okOutcome outcome with
          | true =>
              rw [weighWhere_cons_of_eq (fun _ => 1) row rest outcome later true succeeds,
                List.countP_cons_of_pos succeeds, others]
              omega
          | false =>
              have differs : okOutcome outcome ≠ true := by rw [succeeds]; exact Bool.false_ne_true
              rw [weighWhere_cons_of_ne (fun _ => 1) row rest outcome later true differs,
                List.countP_cons_of_neg differs, others]

/-! ## Resubmitted rows -/

/-- A failed row's new outcome takes its weight off the failures if it is a
success. -/
theorem weighWhere_set {rows : List GovernedRow} {index : Nat} {row : GovernedRow}
    {error : FaucetError} (found : rows[index]? = some row) (failed : outcomes[index]? = some (.error error))
    (outcome : RowOutcome) :
    weighWhere weight false rows (outcomes.set index outcome) + (if okOutcome outcome then weight row else 0) =
      weighWhere weight false rows outcomes := by
  induction index generalizing rows outcomes with
  | zero =>
      cases rows with
      | nil => cases found
      | cons first rest =>
          cases outcomes with
          | nil => cases failed
          | cons head later =>
              rw [List.getElem?_cons_zero] at found failed
              rw [Option.some.inj found, Option.some.inj failed, List.set_cons_zero,
                weighWhere_cons_of_eq weight row rest (.error error) later false rfl]
              cases succeeds : okOutcome outcome with
              | true =>
                  have differs : okOutcome outcome ≠ false := by rw [succeeds]; exact Bool.false_ne_true.symm
                  rw [weighWhere_cons_of_ne weight row rest outcome later false differs, if_pos rfl, Nat.add_comm]
              | false =>
                  rw [weighWhere_cons_of_eq weight row rest outcome later false succeeds, if_neg Bool.false_ne_true,
                    Nat.add_zero]
  | succ index ih =>
      cases rows with
      | nil => cases found
      | cons first rest =>
          cases outcomes with
          | nil => cases failed
          | cons head later =>
              rw [List.getElem?_cons_succ] at found failed
              have others := ih found failed
              rw [List.set_cons_succ]
              by_cases same : okOutcome head = false
              · rw [weighWhere_cons_of_eq weight first rest head _ false same,
                  weighWhere_cons_of_eq weight first rest head later false same]
                omega
              · rw [weighWhere_cons_of_ne weight first rest head _ false same,
                  weighWhere_cons_of_ne weight first rest head later false same]
                exact others

/-- The indices of failed rows, each once. -/
structure Failing (outcomes : List RowOutcome) (failing : List Nat) : Prop where
  once : failing.Nodup
  failed : forall index, index ∈ failing -> exists error, outcomes[index]? = some (.error error)

theorem Failing.tail {index : Nat} {rest : List Nat}
    (failing : Failing outcomes (index :: rest)) (outcome : RowOutcome) :
    Failing (outcomes.set index outcome) rest := by
  rcases List.nodup_cons.mp failing.once with ⟨alone, once⟩
  refine ⟨once, ?_⟩
  intro other later
  have differs : index ≠ other := fun same => alone (same ▸ later)
  rw [List.getElem?_set_ne differs]
  exact failing.failed other (List.mem_cons_of_mem index later)

theorem selectRows_cons {rows : List GovernedRow} {index : Nat} {row : GovernedRow} (found : rows[index]? = some row)
    (rest : List Nat) : Run.selectRows rows (index :: rest) = row :: Run.selectRows rows rest := by
  unfold Run.selectRows
  rw [List.filterMap_cons, found]

theorem exists_row {rows : List GovernedRow} (aligned : outcomes.length = rows.length)
    {index : Nat} {error : FaucetError} (failed : outcomes[index]? = some (.error error)) :
    exists row, rows[index]? = some row := by
  have bound := (List.getElem?_eq_some_iff.mp failed).1
  rw [aligned] at bound
  exact ⟨rows[index], List.getElem?_eq_getElem bound⟩

/-- What a resubmission accepts and what still fails after it weigh what failed
before. -/
theorem weighWhere_writeBack {rows : List GovernedRow}
    (aligned : outcomes.length = rows.length) {failing : List Nat} (isFailing : Failing outcomes failing)
    {retried : List RowOutcome} (answered : retried.length = (Run.selectRows rows failing).length) :
    weighWhere weight true (Run.selectRows rows failing) retried +
        weighWhere weight false rows (Run.writeBack outcomes failing retried) =
      weighWhere weight false rows outcomes := by
  induction failing generalizing outcomes retried with
  | nil =>
      unfold Run.writeBack
      exact Nat.zero_add _
  | cons index rest ih =>
      rcases isFailing.failed index List.mem_cons_self with ⟨error, failed⟩
      rcases exists_row aligned failed with ⟨row, found⟩
      rw [selectRows_cons found rest] at answered ⊢
      cases retried with
      | nil => cases answered
      | cons outcome later =>
          have once := weighWhere_set weight found failed outcome
          have realigned : (outcomes.set index outcome).length = rows.length := by rw [List.length_set, aligned]
          have next := ih realigned (isFailing.tail outcome) (Nat.succ.inj answered)
          have written : Run.writeBack outcomes (index :: rest) (outcome :: later) =
              Run.writeBack (outcomes.set index outcome) rest later := rfl
          rw [written]
          by_cases succeeds : okOutcome outcome = true
          · rw [weighWhere_cons_of_eq weight row _ outcome later true succeeds]
            rw [if_pos succeeds] at once
            omega
          · rw [weighWhere_cons_of_ne weight row _ outcome later true succeeds]
            rw [if_neg succeeds] at once
            omega

/-- A resubmission weighs no more than what failed. -/
theorem weigh_selectRows_le {rows : List GovernedRow}
    (aligned : outcomes.length = rows.length) {failing : List Nat} (isFailing : Failing outcomes failing) :
    weigh weight (Run.selectRows rows failing) ≤ weighWhere weight false rows outcomes := by
  have all : List.length (List.replicate (Run.selectRows rows failing).length (.ok () : RowOutcome)) =
      (Run.selectRows rows failing).length := List.length_replicate
  have back := weighWhere_writeBack weight aligned isFailing all
  have parts := weighWhere_add weight all
  have failures : weighWhere weight false (Run.selectRows rows failing)
      (List.replicate (Run.selectRows rows failing).length (.ok ())) = 0 := by
    unfold weighWhere
    rw [List.filter_eq_nil_iff.mpr]
    · rfl
    · intro entry among
      have isOk := List.eq_of_mem_replicate (List.of_mem_zip among).2
      rw [isOk]
      exact Bool.false_ne_true
  omega

/-- A row that is chosen to be resubmitted is chosen by its place, and failed. -/
theorem of_chosen {policy : Option RetryPolicy} {entry : RowOutcome × Nat} {index : Nat}
    (listed : entry ∈ outcomes.zipIdx)
    (chosen : (match entry.1 with
      | .error error => if policy.any (fun policy => policy.isRetriable error) then some entry.2 else none
      | .ok _ => none) = some index) :
    entry.2 = index ∧ exists error, outcomes[index]? = some (.error error) := by
  have position := List.mem_zipIdx_iff_getElem?.mp listed
  cases outcome : entry.1 with
  | ok value =>
      rw [outcome] at chosen
      cases chosen
  | error error =>
      rw [outcome] at chosen position
      dsimp only at chosen
      split at chosen
      · rw [Option.some.inj chosen] at position
        exact ⟨Option.some.inj chosen, error, position⟩
      · cases chosen

theorem failing_failingRows (policy : Option RetryPolicy) (outcomes : List RowOutcome) :
    Failing outcomes (Run.failingRows policy outcomes) := by
  constructor
  · have places : (outcomes.zipIdx.map Prod.snd).Nodup := by
      rw [List.zipIdx_map_snd]
      exact List.nodup_range'
    refine List.pairwise_filterMap.mpr (List.Pairwise.imp_of_mem ?_ (List.pairwise_map.mp places))
    intro one other listed alsoListed differ index chosen otherIndex alsoChosen
    rw [← (of_chosen listed chosen).1, ← (of_chosen alsoListed alsoChosen).1]
    exact differ
  · intro index member
    rcases List.mem_filterMap.mp member with ⟨entry, listed, chosen⟩
    exact (of_chosen listed chosen).2

end Budget
end FaucetStream
