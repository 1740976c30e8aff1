import FaucetStream.Library.Interaction

namespace FaucetStream
namespace Library

/-!
# Programs behind a decorator

A decorator stands between a program and its surroundings.  It answers each
question of the program by a program of its own, which may ask other questions
and keeps a state from one question to the next.

What is known of a program in the world of its decorator, the outer world
together with the decorator's state, carries over to the program that runs
behind the decorator.  One rule is needed for that: what the decorator does for
a single question.
-/

variable {Op Outer : Type} {Answer : Op -> Type} {Reply : Outer -> Type}
  {Failure Result State World : Type}

/-- Run a program behind a decorator, from a state of the decorator. -/
def Program.through (perform : (op : Op) -> State -> Program Reply Failure (Answer op × State)) :
    Program Answer Failure Result -> State -> Program Reply Failure (Result × State)
  | .done (.ok value), state => .done (.ok (value, state))
  | .done (.error failure), _ => .done (.error failure)
  | .ask op next, state => perform op state >>= fun answered => through perform (next answered.1) answered.2

section Relax

variable {env : Environment Answer World} {invariant weaker : World -> Prop}

theorem Safe.relax {post : Except Failure Result -> World -> Prop} {program : Program Answer Failure Result}
    {world : World} (implies : forall world, invariant world -> weaker world)
    (safe : Safe env invariant post program world) :
    Safe env weaker (fun result after => invariant after ∧ post result after) program world := by
  induction program generalizing world with
  | done result => exact ⟨implies world safe.1, safe⟩
  | ask op next ih =>
      exact ⟨implies world safe.1, fun answer after answered =>
        ih answer (safe.2 answer after answered)⟩

/-- A triple under a weaker invariant; the stronger one is kept besides. -/
theorem Triple.relax {pre escape : World -> Prop} {post : Result -> World -> Prop}
    {program : Program Answer Failure Result} (implies : forall world, invariant world -> weaker world)
    (triple : Triple env invariant pre program post escape) :
    Triple env weaker (fun world => invariant world ∧ pre world) program
      (fun value world => invariant world ∧ post value world) (fun world => invariant world ∧ escape world) := by
  intro world _ start
  refine (Safe.relax implies (triple world start.1 start.2)).weaken ?_
  intro result after _ ends
  cases result with
  | ok value => exact ends
  | error failure => exact ends

/-- A check changes nothing. -/
theorem Triple.check {pre : World -> Prop} (result : Except Failure Result) :
    Triple env invariant pre (Program.ofExcept result : Program Answer Failure Result) (fun _ => pre)
      (fun _ => True) := by
  apply Triple.ofExcept
  intro world holds
  cases result with
  | ok value => exact holds
  | error failure => trivial

/-- A check that passed tells what it was. -/
theorem Triple.checked {pre : World -> Prop} (result : Except Failure Result) :
    Triple env invariant pre (Program.ofExcept result : Program Answer Failure Result)
      (fun value world => result = .ok value ∧ pre world) (fun _ => True) := by
  apply Triple.ofExcept
  intro world holds
  cases result with
  | ok value => exact ⟨rfl, holds⟩
  | error failure => trivial

end Relax

section Through

variable {perform : (op : Op) -> State -> Program Reply Failure (Answer op × State)}
  {env : Environment Reply World} {invariant : World -> Prop}
  {inner : Environment Answer (World × State)} {keeps : World × State -> Prop}

/-- The decorator answers a question as the inner surroundings do, and keeps
the invariant on the way.  A question is only put to it when every answer of
the inner surroundings keeps theirs. -/
def Performs (env : Environment Reply World) (invariant : World -> Prop)
    (inner : Environment Answer (World × State)) (keeps : World × State -> Prop)
    (perform : (op : Op) -> State -> Program Reply Failure (Answer op × State)) : Prop :=
  forall op world state, keeps (world, state) ->
    (forall answer after, inner op (world, state) answer after -> keeps after) ->
    Safe env invariant (fun result after => exists answer next,
      result = .ok (answer, next) ∧ inner op (world, state) answer (after, next)) (perform op state) world

theorem Safe.through (performs : Performs env invariant inner keeps perform)
    (holds : forall world state, keeps (world, state) -> invariant world)
    {post : Except Failure Result -> World × State -> Prop} {program : Program Answer Failure Result}
    {world : World} {state : State} (safe : Safe inner keeps post program (world, state)) :
    Safe env invariant (fun result after => match result with
      | .ok value => keeps (after, value.2) ∧ post (.ok value.1) (after, value.2)
      | .error failure => exists last, keeps (after, last) ∧ post (.error failure) (after, last))
      (program.through perform state) world := by
  induction program generalizing world state with
  | done result =>
      cases result with
      | ok value => exact ⟨holds world state safe.1, safe⟩
      | error failure => exact ⟨holds world state safe.1, state, safe⟩
  | ask op next ih =>
      apply Safe.bind
      refine (performs op world state safe.1
        (fun answer after answered => (safe.2 answer after answered).holds)).weaken ?_
      rintro result after _ ⟨answer, last, rfl, answered⟩
      exact ih answer (safe.2 answer (after, last) answered)

/-- A triple of the decorator's world is one of the program behind it. -/
theorem Triple.through (performs : Performs env invariant inner keeps perform)
    (holds : forall world state, keeps (world, state) -> invariant world)
    {pre escape : World × State -> Prop} {post : Result -> World × State -> Prop}
    {program : Program Answer Failure Result} (triple : Triple inner keeps pre program post escape)
    (state : State) :
    Triple env invariant (fun world => keeps (world, state) ∧ pre (world, state))
      (program.through perform state)
      (fun value world => keeps (world, value.2) ∧ post value.1 (world, value.2))
      (fun world => exists last, keeps (world, last) ∧ escape (world, last)) := by
  intro world _ start
  refine (Safe.through performs holds (triple (world, state) start.1 start.2)).weaken ?_
  intro result after _ ends
  cases result with
  | ok value => exact ends
  | error failure => exact ends

end Through

namespace Only

variable {allowed wider : Op -> Prop} {returns : Result -> Prop}

/-- More may be asked. -/
theorem widen {program : Program Answer Failure Result} (only : Only allowed returns program)
    (implies : forall op, allowed op -> wider op) : Only wider returns program := by
  induction program with
  | done result =>
      cases result with
      | ok value => exact only
      | error failure => trivial
  | ask op next ih =>
      exact ⟨implies op only.1, fun answer => ih answer (only.2 answer)⟩

end Only

end Library
end FaucetStream
