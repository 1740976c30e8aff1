import Mathlib.Algebra.Order.Group.Nat
import Mathlib.Algebra.Ring.Nat
import Mathlib.Data.List.Basic
import Mathlib.Tactic.Common

namespace FaucetStream
namespace Library

/-!
# Runs of a machine that refuses some events

A step either refuses its event or leads to the next state.  What every step
keeps, a whole run keeps, and what every step adds to a number, a run adds up.
-/

universe u v

variable {State : Type u} {Event : Type v}

def runEvents (step : State -> Event -> Option State) : State -> List Event -> Option State
  | state, [] => some state
  | state, event :: rest => (step state event).bind (fun next => runEvents step next rest)

variable {step : State -> Event -> Option State}

theorem runEvents_cons {state last : State} {event : Event} {rest : List Event} :
    runEvents step state (event :: rest) = some last <->
      exists next, step state event = some next ∧ runEvents step next rest = some last := by
  rw [runEvents, Option.bind_eq_some_iff]

theorem runEvents_append {state last : State} {front rest : List Event} :
    runEvents step state (front ++ rest) = some last <->
      exists middle, runEvents step state front = some middle ∧ runEvents step middle rest = some last := by
  induction front generalizing state with
  | nil =>
      constructor
      · intro ran
        exact ⟨state, rfl, ran⟩
      · rintro ⟨middle, here, ran⟩
        cases here
        exact ran
  | cons event front ih =>
      rw [List.cons_append, runEvents_cons]
      constructor
      · rintro ⟨next, stepped, ran⟩
        rcases ih.mp ran with ⟨middle, reached, onward⟩
        exact ⟨middle, runEvents_cons.mpr ⟨next, stepped, reached⟩, onward⟩
      · rintro ⟨middle, reached, onward⟩
        rcases runEvents_cons.mp reached with ⟨next, stepped, ran⟩
        exact ⟨next, stepped, ih.mpr ⟨middle, ran, onward⟩⟩

/-- Every event of a run meets its condition in the state it comes to. -/
def EachStep (step : State -> Event -> Option State) (meets : State -> Event -> Prop) : State -> List Event -> Prop
  | _, [] => True
  | state, event :: rest => meets state event ∧ forall next, step state event = some next ->
    EachStep step meets next rest

theorem EachStep.cons {meets : State -> Event -> Prop} {state next : State} {event : Event} {rest : List Event}
    (met : meets state event) (stepped : step state event = some next) (onward : EachStep step meets next rest) :
    EachStep step meets state (event :: rest) := by
  refine ⟨met, ?_⟩
  intro other also
  rw [stepped] at also
  cases also
  exact onward

theorem EachStep.of_forall {kind : Event -> Prop} {events : List Event}
    (all : forall event, event ∈ events -> kind event) (state : State) :
    EachStep step (fun _ event => kind event) state events := by
  induction events generalizing state with
  | nil => trivial
  | cons event rest ih =>
      refine ⟨all event List.mem_cons_self, ?_⟩
      intro next _
      exact ih (fun later among => all later (List.mem_cons_of_mem event among)) next

/-- What every step that meets the condition keeps, a run of such steps keeps. -/
theorem EachStep.keeps {meets : State -> Event -> Prop} {invariant : State -> Prop}
    (keeps : forall state event next, meets state event -> step state event = some next ->
      invariant state -> invariant next)
    {state last : State} {events : List Event} (all : EachStep step meets state events)
    (ran : runEvents step state events = some last) (holds : invariant state) : invariant last := by
  induction events generalizing state with
  | nil =>
      cases ran
      exact holds
  | cons event rest ih =>
      rcases runEvents_cons.mp ran with ⟨next, stepped, onward⟩
      exact ih (all.2 next stepped) onward (keeps state event next all.1 stepped holds)

/-- What every step on some kind of event keeps, a run on such events keeps. -/
theorem runEvents_keeps (step : State -> Event -> Option State) (kind : Event -> Prop) (invariant : State -> Prop)
    (keeps : forall state event next, kind event -> step state event = some next -> invariant state -> invariant next)
    {state last : State} {events : List Event} (all : forall event, event ∈ events -> kind event)
    (ran : runEvents step state events = some last) (holds : invariant state) : invariant last :=
  (EachStep.of_forall all state).keeps keeps ran holds

/-- A relation between a state and what is left of a budget: a step spends what
its event costs. -/
theorem runEvents_spends (step : State -> Event -> Option State) (kind : Event -> Prop) (cost : Event -> Nat)
    (within : Nat -> State -> Prop)
    (spends : forall state event next left, kind event -> step state event = some next ->
      within (cost event + left) state -> within left next)
    {state last : State} {events : List Event} (all : forall event, event ∈ events -> kind event)
    (ran : runEvents step state events = some last) (left : Nat)
    (holds : within ((events.map cost).sum + left) state) : within left last := by
  induction events generalizing state with
  | nil =>
      cases ran
      rw [List.map_nil, List.sum_nil, Nat.zero_add] at holds
      exact holds
  | cons event rest ih =>
      rcases runEvents_cons.mp ran with ⟨next, stepped, onward⟩
      rw [List.map_cons, List.sum_cons, Nat.add_assoc] at holds
      exact ih (fun later among => all later (List.mem_cons_of_mem event among)) onward
        (spends state event next _ (all event List.mem_cons_self) stepped holds)

end Library
end FaucetStream
