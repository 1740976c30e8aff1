import Mathlib.Algebra.Order.Ring.Nat
import Mathlib.Data.List.Basic
import Mathlib.Tactic.Common
import FaucetStream.Error

namespace FaucetStream
namespace Logship

/-!
# Exporting a batch of log lines

A batch the collector refuses as malformed is split in halves and retried,
down to single lines, which are dropped once the collector has accepted
something else of the batch.  Whatever the collector answers, the outcome
names a leading part of the batch, and the whole batch when there is no
error.
-/

structure ShipLine where
  seq : Nat
  ts : String
  level : String
  body : String
  attrs : List (String × String)
  deriving DecidableEq

namespace ShipLine

def size (line : ShipLine) : Nat :=
  line.body.utf8ByteSize + line.ts.utf8ByteSize + line.level.utf8ByteSize +
    (line.attrs.map (fun attr => attr.1.utf8ByteSize + attr.2.utf8ByteSize)).sum

end ShipLine

structure ExportError where
  payloadRejected : Bool
  message : String
  detail : String
  deriving DecidableEq

structure ExportOutcome where
  /-- Leading lines delivered or dropped. -/
  handled : Nat
  /-- Those of them that were dropped. -/
  dropped : Nat
  error : Option ExportError

/-- What the collector answers to the calls it gets, one after the other: the
number of rejected records, or an error. -/
abbrev Collector : Type := Nat -> Except ExportError Nat

/-- A slice of the batch. -/
structure Part where
  start : Nat
  len : Nat

/-- The local variables of `export_isolating`. -/
structure Isolation where
  handled : Nat := 0
  dropped : Nat := 0
  error : Option ExportError := none
  acceptedAny : Bool := false
  unproven : Nat := 0
  lastRejection : Option ExportError := none
  probed : Bool := false
  tail : Option Nat := none
  calls : Nat := 0

namespace Isolation

def accept (state : Isolation) (part : Part) (rejected : Nat) : Isolation :=
  let proven := if state.acceptedAny then state
    else { state with
      acceptedAny := true
      handled := state.handled + state.unproven
      dropped := state.dropped + state.unproven
      unproven := 0 }
  { proven with
    handled := proven.handled + part.len, dropped := proven.dropped + min rejected part.len, calls := state.calls + 1 }

/-- The batch's last line was accepted on its own. -/
def acceptTail (state : Isolation) (rejected : Nat) : Isolation :=
  { state with
    acceptedAny := true
    probed := true
    handled := state.handled + state.unproven
    dropped := state.dropped + state.unproven
    tail := some (min rejected 1)
    unproven := 0
    calls := state.calls + 1 }

end Isolation

/-- Take the last line off the bottom of the stack. -/
def shrinkBottom : List Part -> List Part
  | [] => []
  | [bottom] => [{ bottom with len := bottom.len - 1 }]
  | part :: next :: rest => part :: shrinkBottom (next :: rest)

def pendingLast (total : Nat) (stack : List Part) : Bool :=
  stack.getLast?.any (fun bottom => bottom.start + bottom.len == total)

/-- How much work is left in a stack: splitting a part makes it less. -/
def weight (stack : List Part) : Nat := (stack.map (fun part => max 1 (2 * part.len - 1))).sum

theorem weight_cons (part : Part) (rest : List Part) :
    weight (part :: rest) = max 1 (2 * part.len - 1) + weight rest := by
  rw [weight, List.map_cons, List.sum_cons]
  rfl

theorem weight_shrinkBottom (stack : List Part) : weight (shrinkBottom stack) ≤ weight stack := by
  induction stack with
  | nil => exact Nat.le_refl _
  | cons part rest ih =>
      cases rest with
      | nil =>
          rw [shrinkBottom, weight_cons, weight_cons]
          dsimp only
          omega
      | cons next rest =>
          rw [shrinkBottom, weight_cons, weight_cons part]
          omega

theorem weight_tail_lt (part : Part) (rest : List Part) : weight rest < weight (part :: rest) := by
  rw [weight_cons]
  omega

theorem weight_split_lt (part : Part) (rest : List Part) (several : 1 < part.len) :
    weight (⟨part.start, part.len / 2⟩ :: ⟨part.start + part.len / 2, part.len - part.len / 2⟩ :: rest) <
      weight (part :: rest) := by
  rw [weight_cons, weight_cons, weight_cons]
  dsimp only
  omega

/-- The loop over the stack of parts. -/
def isolate (collector : Collector) (total : Nat) (stack : List Part) (state : Isolation) : Isolation :=
  match stack with
  | [] => state
  | part :: rest =>
      if part.len = 0 then isolate collector total rest state
      else
        match collector state.calls with
        | .ok rejected => isolate collector total rest (state.accept part rejected)
        | .error error =>
            if several : error.payloadRejected = true ∧ 1 < part.len then
              isolate collector total
                (⟨part.start, part.len / 2⟩ :: ⟨part.start + part.len / 2, part.len - part.len / 2⟩ :: rest)
                { state with lastRejection := some error, calls := state.calls + 1 }
            else if error.payloadRejected && state.acceptedAny then
              isolate collector total rest
                { state with handled := state.handled + 1, dropped := state.dropped + 1, calls := state.calls + 1 }
            else if error.payloadRejected then
              let refused := { state with
                unproven := state.unproven + 1, lastRejection := some error, calls := state.calls + 1 }
              if refused.unproven < 2 then isolate collector total rest refused
              else if refused.probed || !pendingLast total rest then refused
              else
                match collector refused.calls with
                | .ok rejected => isolate collector total (shrinkBottom rest) (refused.acceptTail rejected)
                | .error other =>
                    if other.payloadRejected then { refused with probed := true, calls := refused.calls + 1 }
                    else { refused with probed := true, calls := refused.calls + 1, error := some other }
            else { state with error := some error, calls := state.calls + 1 }
termination_by weight stack
decreasing_by
  · exact weight_tail_lt part rest
  · exact weight_tail_lt part rest
  · exact weight_split_lt part rest several.2
  · exact weight_tail_lt part rest
  · exact weight_tail_lt part rest
  · exact Nat.lt_of_le_of_lt (weight_shrinkBottom rest) (weight_tail_lt part rest)

/-- The batch's last line joins the handled ones once every line before it is
handled. -/
def Isolation.joinTail (state : Isolation) (total : Nat) : Isolation :=
  match state.tail with
  | some dropped =>
      if state.error.isNone && state.handled + 1 == total then
        { state with handled := state.handled + 1, dropped := state.dropped + dropped }
      else state
  | none => state

/-- The error reported when the collector accepted no line. -/
def Isolation.blame (state : Isolation) : Option ExportError :=
  if !state.acceptedAny && decide (0 < state.unproven) && state.error.isNone then
    state.lastRejection.map (fun error => { error with message := error.message ++
      " (the collector accepted no line)" })
  else state.error

def exportIsolating (collector : Collector) (lines : List ShipLine) : ExportOutcome :=
  let state := (isolate collector lines.length [⟨0, lines.length⟩] {}).joinTail lines.length
  ⟨state.handled, state.dropped, state.blame⟩

/-! ## The outcome is a leading part of the batch -/

/-- The lines of a stack. -/
def extent (stack : List Part) : Nat := (stack.map Part.len).sum

theorem extent_cons (part : Part) (rest : List Part) : extent (part :: rest) = part.len + extent rest := by
  rw [extent, List.map_cons, List.sum_cons]
  rfl

theorem extent_shrinkBottom {stack : List Part} (nonempty : stack ≠ [])
    (filled : forall part, part ∈ stack -> 0 < part.len) : extent (shrinkBottom stack) + 1 = extent stack := by
  induction stack with
  | nil => exact absurd rfl nonempty
  | cons part rest ih =>
      cases rest with
      | nil =>
          have positive := filled part List.mem_cons_self
          rw [shrinkBottom, extent_cons, extent_cons]
          dsimp only
          omega
      | cons next rest =>
          have shorter := ih (List.cons_ne_nil next rest)
            (fun other member => filled other (List.mem_cons_of_mem part member))
          rw [shrinkBottom, extent_cons, extent_cons part]
          omega

/-- What holds at the head of the loop. -/
structure Isolating (total : Nat) (stack : List Part) (state : Isolation) : Prop where
  sum : state.handled + state.unproven + extent stack + state.tail.elim 0 (fun _ => 1) = total
  dropped : state.dropped ≤ state.handled
  tail : forall dropped, state.tail = some dropped -> dropped ≤ 1 ∧ state.acceptedAny = true
  proven : state.acceptedAny = true -> state.unproven = 0
  noError : state.error = none
  rejected : 0 < state.unproven -> state.lastRejection.isSome = true
  filled : state.probed = false -> forall part, part ∈ stack -> 0 < part.len
  probing : state.tail.isSome = true -> state.probed = true

/-- What holds when it ends: everything went out, or an error tells why not. -/
structure Isolated (total : Nat) (state : Isolation) : Prop where
  bound : state.handled + state.unproven + state.tail.elim 0 (fun _ => 1) ≤ total
  dropped : state.dropped ≤ state.handled
  tail : forall dropped, state.tail = some dropped -> dropped ≤ 1
  complete : state.error = none ->
    (state.acceptedAny = false ∧ 0 < state.unproven ∧ state.lastRejection.isSome = true) ∨
      (state.unproven = 0 ∧ state.handled + state.tail.elim 0 (fun _ => 1) = total)

namespace Isolating

variable {total : Nat} {part : Part} {rest : List Part} {state : Isolation}

theorem isolated_of_nil (isolating : Isolating total [] state) : Isolated total state := by
  have sum := isolating.sum
  rw [extent, List.map_nil, List.sum_nil, Nat.add_zero] at sum
  refine ⟨Nat.le_of_eq sum, isolating.dropped, fun dropped found => (isolating.tail dropped found).1, fun _ => ?_⟩
  by_cases none : state.unproven = 0
  · exact .inr ⟨none, by omega⟩
  · have positive : 0 < state.unproven := Nat.pos_of_ne_zero none
    refine .inl ⟨?_, positive, isolating.rejected positive⟩
    by_contra accepted
    rw [Bool.not_eq_false] at accepted
    exact none (isolating.proven accepted)

theorem skip (isolating : Isolating total (part :: rest) state) (empty : part.len = 0) :
    Isolating total rest state := by
  have sum := isolating.sum
  rw [extent_cons, empty, Nat.zero_add] at sum
  exact ⟨sum, isolating.dropped, isolating.tail, isolating.proven, isolating.noError, isolating.rejected,
    fun fresh other member => isolating.filled fresh other (List.mem_cons_of_mem part member), isolating.probing⟩

theorem accept (isolating : Isolating total (part :: rest) state) (rejected : Nat) :
    Isolating total rest (state.accept part rejected) := by
  have sum := isolating.sum
  have dropped := isolating.dropped
  rw [extent_cons] at sum
  have filled : state.probed = false -> forall other, other ∈ rest -> 0 < other.len :=
    fun fresh other member => isolating.filled fresh other (List.mem_cons_of_mem part member)
  cases accepted : state.acceptedAny with
  | true =>
      have none := isolating.proven accepted
      simp only [Isolation.accept, accepted, if_true]
      refine ⟨by dsimp only; omega, by dsimp only; omega, ?_, fun _ => none, isolating.noError,
        isolating.rejected, filled, isolating.probing⟩
      intro tailDropped found
      exact ⟨(isolating.tail tailDropped found).1, rfl⟩
  | false =>
      have noTail : state.tail = none := by
        cases found : state.tail with
        | none => rfl
        | some dropped =>
            have both := (isolating.tail dropped found).2
            rw [accepted] at both
            cases both
      simp only [Isolation.accept, accepted, Bool.false_eq_true, if_false]
      refine ⟨by dsimp only; omega, by dsimp only; omega, ?_, fun _ => rfl, isolating.noError, ?_, filled,
        isolating.probing⟩
      · intro dropped found
        rw [noTail] at found
        cases found
      · intro positive
        exact absurd positive (Nat.lt_irrefl 0)

theorem split (isolating : Isolating total (part :: rest) state) (several : 1 < part.len) (error : ExportError) :
    Isolating total (⟨part.start, part.len / 2⟩ :: ⟨part.start + part.len / 2, part.len - part.len / 2⟩ :: rest)
      { state with lastRejection := some error, calls := state.calls + 1 } := by
  have sum := isolating.sum
  rw [extent_cons] at sum
  refine ⟨?_, isolating.dropped, isolating.tail, isolating.proven, isolating.noError, fun _ => rfl, ?_,
    isolating.probing⟩
  · rw [extent_cons, extent_cons]
    dsimp only
    omega
  · intro fresh other member
    rcases List.mem_cons.mp member with rfl | member
    · dsimp only
      omega
    · rcases List.mem_cons.mp member with rfl | member
      · dsimp only
        omega
      · exact isolating.filled fresh other (List.mem_cons_of_mem part member)

/-- A single line refused after another was accepted is dropped. -/
theorem drop (isolating : Isolating total (part :: rest) state) (single : part.len = 1) :
    Isolating total rest
      { state with handled := state.handled + 1, dropped := state.dropped + 1, calls := state.calls + 1 } := by
  have sum := isolating.sum
  have dropped := isolating.dropped
  rw [extent_cons] at sum
  refine ⟨by dsimp only; omega, by dsimp only; omega, isolating.tail, isolating.proven, isolating.noError,
    isolating.rejected, ?_, isolating.probing⟩
  exact fun fresh other member => isolating.filled fresh other (List.mem_cons_of_mem part member)

/-- A single line refused before anything was accepted is held back. -/
theorem hold (isolating : Isolating total (part :: rest) state) (single : part.len = 1)
    (accepted : state.acceptedAny = false) (error : ExportError) :
    Isolating total rest
      { state with unproven := state.unproven + 1, lastRejection := some error, calls := state.calls + 1 } := by
  have sum := isolating.sum
  rw [extent_cons] at sum
  refine ⟨by dsimp only; omega, isolating.dropped, isolating.tail, ?_, isolating.noError, fun _ => rfl, ?_,
    isolating.probing⟩
  · intro both
    rw [accepted] at both
    cases both
  · exact fun fresh other member => isolating.filled fresh other (List.mem_cons_of_mem part member)

theorem acceptTail (isolating : Isolating total rest state) (fresh : state.probed = false) (nonempty : rest ≠ [])
    (rejected : Nat) : Isolating total (shrinkBottom rest) (state.acceptTail rejected) := by
  have sum := isolating.sum
  have dropped := isolating.dropped
  have shorter := extent_shrinkBottom nonempty (isolating.filled fresh)
  have noTail : state.tail = none := by
    cases found : state.tail with
    | none => rfl
    | some dropped =>
        have both := isolating.probing (by rw [found]; rfl)
        rw [fresh] at both
        cases both
  rw [noTail] at sum
  simp only [Option.elim_none] at sum
  refine ⟨?_, ?_, ?_, fun _ => rfl, isolating.noError, ?_, ?_, fun _ => rfl⟩
  · simp only [Isolation.acceptTail, Option.elim_some]
    omega
  · simp only [Isolation.acceptTail]
    omega
  · intro dropped found
    rw [← Option.some.inj found]
    exact ⟨Nat.min_le_right _ _, rfl⟩
  · intro positive
    exact absurd positive (Nat.lt_irrefl 0)
  · intro absurdity
    cases absurdity

/-- The loop is left early, with an error or with nothing accepted. -/
theorem leave (isolating : Isolating total rest state) {last : Isolation} (handled : last.handled = state.handled)
    (dropped : last.dropped = state.dropped) (unproven : last.unproven = state.unproven) (tail : last.tail = state.tail)
    (why : last.error ≠ none ∨ (last.acceptedAny = false ∧ 0 < last.unproven ∧ last.lastRejection.isSome = true)) :
    Isolated total last := by
  have sum := isolating.sum
  refine ⟨?_, ?_, ?_, ?_⟩
  · rw [handled, unproven, tail]
    omega
  · rw [handled, dropped]
    exact isolating.dropped
  · intro rejected found
    rw [tail] at found
    exact (isolating.tail rejected found).1
  · intro none
    rcases why with error | nothing
    · exact absurd none error
    · exact .inl nothing

end Isolating

private theorem single_of_refused {part : Part} {error : ExportError} (filled : ¬ part.len = 0)
    (notSeveral : ¬ (error.payloadRejected = true ∧ 1 < part.len)) (refused : error.payloadRejected = true) :
    part.len = 1 := by
  have notMore : ¬ 1 < part.len := fun more => notSeveral ⟨refused, more⟩
  omega

private theorem not_accepted {error : ExportError} {accepted : Bool}
    (notBoth : ¬ (error.payloadRejected && accepted) = true)
    (refused : error.payloadRejected = true) : accepted = false := by
  rw [refused, Bool.true_and, Bool.not_eq_true] at notBoth
  exact notBoth

theorem isolate_isolated (collector : Collector) {total : Nat} {stack : List Part} {state : Isolation}
    (isolating : Isolating total stack state) : Isolated total (isolate collector total stack state) := by
  fun_induction isolate collector total stack state with
  | case1 state => exact isolating.isolated_of_nil
  | case2 state part rest empty ih => exact ih (isolating.skip empty)
  | case3 state part rest filled rejected answer ih =>
      exact ih (isolating.accept rejected)
  | case4 state part rest filled error answer several ih =>
      exact ih (isolating.split several.2 error)
  | case5 state part rest filled error answer notSeveral both ih =>
      rcases Bool.and_eq_true_iff.mp both with ⟨refused, _⟩
      exact ih (isolating.drop (single_of_refused filled notSeveral refused))
  | case6 state part rest filled error answer notSeveral notBoth refused held few ih =>
      exact ih
        (isolating.hold (single_of_refused filled notSeveral refused) (not_accepted notBoth refused) error)
  | case7 state part rest filled error answer notSeveral notBoth refused held many noProbe =>
      have none := not_accepted notBoth refused
      have holding := isolating.hold (single_of_refused filled notSeveral refused) none error
      exact holding.leave rfl rfl rfl rfl (.inr ⟨none, Nat.succ_pos _, rfl⟩)
  | case8 state part rest filled error answer notSeveral notBoth refused held many probes rejected accepts
      ih =>
      have holding := isolating.hold (single_of_refused filled notSeveral refused) (not_accepted notBoth refused) error
      rw [Bool.or_eq_true, not_or] at probes
      have fresh : state.probed = false := Bool.eq_false_iff.mpr probes.1
      have nonempty : rest ≠ [] := by
        intro none
        rw [none] at probes
        exact probes.2 rfl
      exact ih (holding.acceptTail fresh nonempty rejected)
  | case9 state part rest filled error answer notSeveral notBoth refused held many probes other refuses rejected =>
      have none := not_accepted notBoth refused
      have holding := isolating.hold (single_of_refused filled notSeveral refused) none error
      exact holding.leave rfl rfl rfl rfl (.inr ⟨none, Nat.succ_pos _, rfl⟩)
  | case10 state part rest filled error answer notSeveral notBoth refused held many probes other refuses rejected =>
      have holding := isolating.hold (single_of_refused filled notSeveral refused) (not_accepted notBoth refused) error
      exact holding.leave rfl rfl rfl rfl (.inl (Option.some_ne_none other))
  | case11 state part rest filled error answer notSeveral notBoth refused =>
      exact isolating.leave rfl rfl rfl rfl (.inl (Option.some_ne_none error))

/-- The outcome of a batch: some leading lines, and all of them unless an
error is reported. -/
structure Sound (outcome : ExportOutcome) (total : Nat) : Prop where
  handled : outcome.handled ≤ total
  dropped : outcome.dropped ≤ outcome.handled
  complete : outcome.error = none -> outcome.handled = total

theorem isolating_start {total : Nat} (positive : 0 < total) : Isolating total [⟨0, total⟩] {} := by
  refine ⟨?_, Nat.le_refl _, ?_, fun _ => rfl, rfl, ?_, ?_, ?_⟩
  · rw [extent_cons]
    simp [extent]
  · intro dropped found
    cases found
  · intro absurdity
    exact absurd absurdity (Nat.lt_irrefl 0)
  · intro _ part member
    rw [List.mem_singleton.mp member]
    exact positive
  · intro found
    cases found

theorem isolate_start_isolated (collector : Collector) (total : Nat) :
    Isolated total (isolate collector total [⟨0, total⟩] {}) := by
  rcases Nat.eq_zero_or_pos total with rfl | positive
  · rw [isolate, if_pos rfl, isolate]
    refine ⟨Nat.le_refl _, Nat.le_refl _, ?_, fun _ => .inr ⟨rfl, rfl⟩⟩
    intro dropped found
    cases found
  · exact isolate_isolated collector (isolating_start positive)

theorem joinTail_blame (state : Isolation) (total : Nat) : (state.joinTail total).blame = state.blame := by
  unfold Isolation.joinTail
  split
  · split <;> rfl
  · rfl

theorem joinTail_bounds {state : Isolation} {total : Nat} (isolated : Isolated total state) :
    (state.joinTail total).handled ≤ total ∧ (state.joinTail total).dropped ≤ (state.joinTail total).handled := by
  have bound := isolated.bound
  have dropped := isolated.dropped
  unfold Isolation.joinTail
  split
  · next last found =>
    have few := isolated.tail last found
    rw [found] at bound
    simp only [Option.elim_some] at bound
    split
    · dsimp only
      omega
    · omega
  · omega

theorem joinTail_complete {state : Isolation} {total : Nat} (noError : state.error = none)
    (whole : state.handled + state.tail.elim 0 (fun _ => 1) = total) : (state.joinTail total).handled = total := by
  unfold Isolation.joinTail
  split
  · next last found =>
    rw [found] at whole
    simp only [Option.elim_some] at whole
    have joins : (state.error.isNone && state.handled + 1 == total) = true := by
      rw [noError, whole]
      simp
    rw [if_pos joins]
    exact whole
  · next found =>
    rw [found] at whole
    simpa using whole

/-- No error is blamed only when everything went out. -/
theorem whole_of_blame {state : Isolation} {total : Nat} (isolated : Isolated total state)
    (blameless : state.blame = none) :
    state.error = none ∧ state.handled + state.tail.elim 0 (fun _ => 1) = total := by
  unfold Isolation.blame at blameless
  split at blameless
  · next nothing =>
    simp only [Bool.and_eq_true, Bool.not_eq_eq_eq_not, Bool.not_true, decide_eq_true_eq, Option.isNone_iff_eq_none]
      at nothing
    rcases isolated.complete nothing.2 with ⟨_, _, rejection⟩ | ⟨zero, _⟩
    · rw [Option.map_eq_none_iff] at blameless
      rw [blameless] at rejection
      cases rejection
    · exact absurd nothing.1.2 (by omega)
  · next something =>
    refine ⟨blameless, ?_⟩
    rcases isolated.complete blameless with ⟨none, positive, _⟩ | ⟨_, whole⟩
    · rw [none, blameless] at something
      simp [positive] at something
    · exact whole

/-- Whatever the collector answers, some leading lines of the batch are
handled, and all of them when no error is reported. -/
theorem exportIsolating_sound (collector : Collector) (lines : List ShipLine) :
    Sound (exportIsolating collector lines) lines.length := by
  have isolated := isolate_start_isolated collector lines.length
  rw [exportIsolating]
  rcases joinTail_bounds isolated with ⟨bound, dropped⟩
  refine ⟨bound, dropped, ?_⟩
  intro noError
  dsimp only at noError
  rw [joinTail_blame] at noError
  rcases whole_of_blame isolated noError with ⟨fine, whole⟩
  exact joinTail_complete fine whole

/-! ## Batches -/

def BATCH_LINES : Nat := 512

def BATCH_BYTES : Nat := 1024 * 1024

/-- The loop of `batches`: the batch being filled, and its size. -/
def batchesFrom : List ShipLine -> List ShipLine -> Nat -> List (List ShipLine)
  | [], current, _ => if current.isEmpty then [] else [current]
  | line :: rest, current, bytes =>
      if !current.isEmpty && (decide (BATCH_LINES ≤ current.length) || decide (BATCH_BYTES < bytes + line.size)) then
        current :: batchesFrom rest [line] line.size
      else batchesFrom rest (current ++ [line]) (bytes + line.size)

def batches (lines : List ShipLine) : List (List ShipLine) := batchesFrom lines [] 0

theorem batchesFrom_flatten (lines current : List ShipLine) (bytes : Nat) :
    (batchesFrom lines current bytes).flatten = current ++ lines := by
  induction lines generalizing current bytes with
  | nil =>
      unfold batchesFrom
      split
      · next empty =>
        rw [List.isEmpty_iff.mp empty]
        rfl
      · simp
  | cons line rest ih =>
      rw [batchesFrom]
      split
      · rw [List.flatten_cons, ih]
        rfl
      · rw [ih, List.append_assoc]
        rfl

/-- The batches are the lines, in order. -/
theorem batches_flatten (lines : List ShipLine) : (batches lines).flatten = lines := batchesFrom_flatten lines [] 0

end Logship
end FaucetStream
