import Mathlib.Logic.Basic

namespace FaucetStream
namespace Library

/-!
# Programs that interact with their surroundings

A program either ends, with a value or a failure, or asks a question of its
surroundings and goes on with the answer.  The surroundings are a relation:
which answers a question may get in a given world, and which worlds it may
leave behind.  A question is the only point where the world changes, so a
program stopped between two questions has left exactly the world of the last
answer.

`Safe` is the rule for such programs: an invariant of the world holds at every
point the program can reach, and a postcondition where it ends.  It is defined
along the program, and a sequence is safe when its parts are.
-/

variable {Op : Type} {Answer : Op -> Type} {Failure Result Other World : Type}

inductive Program (Answer : Op -> Type) (Failure Result : Type) : Type where
  | done (result : Except Failure Result)
  | ask (op : Op) (next : Answer op -> Program Answer Failure Result)

namespace Program

def bind (program : Program Answer Failure Result)
    (rest : Result -> Program Answer Failure Other) : Program Answer Failure Other :=
  match program with
  | .done (.ok value) => rest value
  | .done (.error failure) => .done (.error failure)
  | .ask op next => .ask op (fun answer => bind (next answer) rest)

instance : Monad (Program Answer Failure) where
  pure := fun value => .done (.ok value)
  bind := bind

/-- End with a failure. -/
def raise (failure : Failure) : Program Answer Failure Result := .done (.error failure)

/-- End with a result already known. -/
def ofExcept (result : Except Failure Result) : Program Answer Failure Result := .done result

def request (op : Op) : Program Answer Failure (Answer op) := .ask op (fun answer => .done (.ok answer))

/-- Turn a failure into a value the caller can look at. -/
def attempt : Program Answer Failure Result -> Program Answer Failure (Except Failure Result)
  | .done result => .done (.ok result)
  | .ask op next => .ask op (fun answer => attempt (next answer))

/-- Rewrite the failure a program may end with. -/
def mapFailure (convert : Failure -> Failure) (program : Program Answer Failure Result) :
    Program Answer Failure Result :=
  match program with
  | .done (.ok value) => .done (.ok value)
  | .done (.error failure) => .done (.error (convert failure))
  | .ask op next => .ask op (fun answer => mapFailure convert (next answer))

end Program

/-! ## Runs -/

/-- Which answers and next worlds a question may meet. -/
def Environment (Answer : Op -> Type) (World : Type) : Type :=
  (op : Op) -> World -> Answer op -> World -> Prop

/-- The points a program reaches from a world, with the world at each. -/
inductive Reaches (env : Environment Answer World) :
    Program Answer Failure Result -> World -> Program Answer Failure Result -> World -> Prop
  | here (program : Program Answer Failure Result) (world : World) : Reaches env program world program world
  | step {op : Op} {next : Answer op -> Program Answer Failure Result} {world after last : World}
      {answer : Answer op} {final : Program Answer Failure Result} (answered : env op world answer after)
      (rest : Reaches env (next answer) after final last) : Reaches env (.ask op next) world final last

/-- Run a program against surroundings that always answer the same way. -/
def execute (oracle : (op : Op) -> World -> Answer op × World) :
    Program Answer Failure Result -> World -> Except Failure Result × World
  | .done result, world => (result, world)
  | .ask op next, world => execute oracle (next (oracle op world).1) (oracle op world).2

theorem reaches_execute {env : Environment Answer World} (oracle : (op : Op) -> World -> Answer op × World)
    (possible : forall op world, env op world (oracle op world).1 (oracle op world).2)
    (program : Program Answer Failure Result) (world : World) :
    Reaches env program world (.done (execute oracle program world).1) (execute oracle program world).2 := by
  induction program generalizing world with
  | done result => exact Reaches.here _ _
  | ask op next ih =>
      exact Reaches.step (possible op world) (ih _ _)

/-! ## Safety -/

variable {program : Program Answer Failure Result}

section Safety

variable (env : Environment Answer World) (invariant : World -> Prop)

/-- The invariant holds wherever the program gets to, and the postcondition
where it ends. -/
def Safe (post : Except Failure Result -> World -> Prop) : Program Answer Failure Result -> World -> Prop
  | .done result, world => invariant world ∧ post result world
  | .ask op next, world =>
      invariant world ∧ forall answer after, env op world answer after -> Safe post (next answer) after

variable {env invariant}

theorem Safe.reaches {post : Except Failure Result -> World -> Prop}
    {program final : Program Answer Failure Result} {world last : World}
    (safe : Safe env invariant post program world) (reached : Reaches env program world final last) :
    Safe env invariant post final last := by
  induction reached with
  | here program world => exact safe
  | step answered rest ih => exact ih (safe.2 _ _ answered)

theorem Safe.holds {post : Except Failure Result -> World -> Prop}
    {world : World} (safe : Safe env invariant post program world) : invariant world := by
  cases program with
  | done result => exact safe.1
  | ask op next => exact safe.1

theorem Safe.weaken {post weaker : Except Failure Result -> World -> Prop}
    {world : World} (safe : Safe env invariant post program world)
    (implies : forall result after, invariant after -> post result after -> weaker result after) :
    Safe env invariant weaker program world := by
  induction program generalizing world with
  | done result => exact ⟨safe.1, implies result world safe.1 safe.2⟩
  | ask op next ih =>
      exact ⟨safe.1, fun answer after answered => ih answer (safe.2 answer after answered)⟩

theorem Safe.and {post also : Except Failure Result -> World -> Prop}
    {world : World} (safe : Safe env invariant post program world) (alsoSafe : Safe env invariant also program world) :
    Safe env invariant (fun result after => post result after ∧ also result after) program world := by
  induction program generalizing world with
  | done result => exact ⟨safe.1, safe.2, alsoSafe.2⟩
  | ask op next ih =>
      exact ⟨safe.1, fun answer after answered =>
        ih answer (safe.2 answer after answered) (alsoSafe.2 answer after answered)⟩

/-- Where a program ends, it was reached. -/
theorem Safe.reached {post : Except Failure Result -> World -> Prop}
    {world : World} (safe : Safe env invariant post program world) :
    Safe env invariant (fun result after => post result after ∧ Reaches env program world (.done result) after)
      program world := by
  induction program generalizing world with
  | done result => exact ⟨safe.1, safe.2, Reaches.here _ _⟩
  | ask op next ih =>
      refine ⟨safe.1, fun answer after answered => ?_⟩
      refine (ih answer (safe.2 answer after answered)).weaken ?_
      exact fun result last _ ends => ⟨ends.1, Reaches.step answered ends.2⟩

/-- A sequence is safe when its second part is safe from wherever the first
one succeeds. -/
theorem Safe.bind {post : Except Failure Other -> World -> Prop}
    {rest : Result -> Program Answer Failure Other} {world : World}
    (safe : Safe env invariant (fun result after => match result with
      | .ok value => Safe env invariant post (rest value) after
      | .error failure => post (.error failure) after) program world) :
    Safe env invariant post (program >>= rest) world := by
  induction program generalizing world with
  | done result =>
      cases result with
      | ok value => exact safe.2
      | error failure => exact safe
  | ask op next ih =>
      exact ⟨safe.1, fun answer after answered => ih answer (safe.2 answer after answered)⟩

theorem Safe.attempt {post : Except Failure (Except Failure Result) -> World -> Prop}
    {world : World}
    (safe : Safe env invariant (fun result after => post (.ok result) after) program world) :
    Safe env invariant post program.attempt world := by
  induction program generalizing world with
  | done result => exact safe
  | ask op next ih =>
      exact ⟨safe.1, fun answer after answered => ih answer (safe.2 answer after answered)⟩

theorem Safe.mapFailure {post : Except Failure Result -> World -> Prop} {convert : Failure -> Failure}
    {world : World}
    (safe : Safe env invariant (fun result after => post (result.mapError convert) after) program world) :
    Safe env invariant post (program.mapFailure convert) world := by
  induction program generalizing world with
  | done result =>
      cases result with
      | ok value => exact safe
      | error failure => exact safe
  | ask op next ih =>
      exact ⟨safe.1, fun answer after answered => ih answer (safe.2 answer after answered)⟩

/-- A postcondition by cases: one for a value, one for a failure. -/
def Ends (post : Result -> World -> Prop) (escape : World -> Prop) : Except Failure Result -> World -> Prop
  | .ok value, world => post value world
  | .error _, world => escape world

variable (env invariant)

/-- From every world with the precondition, a value is returned with the
postcondition and a failure leaves the escape condition; the invariant holds
throughout. -/
def Triple (pre : World -> Prop) (program : Program Answer Failure Result) (post : Result -> World -> Prop)
    (escape : World -> Prop) : Prop :=
  forall world, invariant world -> pre world -> Safe env invariant (Ends post escape) program world

variable {env invariant}

namespace Triple

variable {pre escape : World -> Prop} {post : Result -> World -> Prop}

theorem consequence {stronger weakerEscape : World -> Prop}
    {weaker : Result -> World -> Prop} (triple : Triple env invariant pre program post escape)
    (before : forall world, stronger world -> pre world)
    (after : forall value world, post value world -> weaker value world)
    (escapes : forall world, escape world -> weakerEscape world) :
    Triple env invariant stronger program weaker weakerEscape := by
  intro world kept holds
  refine (triple world kept (before world holds)).weaken (fun result last _ ends => ?_)
  cases result with
  | ok value => exact after value last ends
  | error failure => exact escapes last ends

/-- More is known before. -/
theorem given {stronger : World -> Prop}
    (triple : Triple env invariant pre program post escape) (before : forall world, stronger world -> pre world) :
    Triple env invariant stronger program post escape :=
  triple.consequence before (fun _ _ ends => ends) (fun _ ends => ends)

/-- Less is claimed of the value. -/
theorem gives {weaker : Result -> World -> Prop} (triple : Triple env invariant pre program post escape)
    (after : forall value world, post value world -> weaker value world) :
    Triple env invariant pre program weaker escape :=
  triple.consequence (fun _ holds => holds) after (fun _ ends => ends)

/-- Nothing is claimed of failures. -/
theorem mayFail (triple : Triple env invariant pre program post escape) :
    Triple env invariant pre program post (fun _ => True) :=
  triple.consequence (fun _ holds => holds) (fun _ _ ends => ends) (fun _ _ => trivial)

theorem pure {value : Result} (ends : forall world, pre world -> post value world) :
    Triple env invariant pre (pure value : Program Answer Failure Result) post escape :=
  fun world kept holds => ⟨kept, ends world holds⟩

theorem raise {failure : Failure} (escapes : forall world, pre world -> escape world) :
    Triple env invariant pre (Program.raise failure : Program Answer Failure Result) post escape :=
  fun world kept holds => ⟨kept, escapes world holds⟩

/-- To return leaves all as it is. -/
theorem skip {value : Result} :
    Triple env invariant pre (Pure.pure value : Program Answer Failure Result) (fun _ => pre) escape :=
  pure (fun _ holds => holds)

/-- To fail, where nothing is asked of failures. -/
theorem fails {failure : Failure} :
    Triple env invariant pre (Program.raise failure : Program Answer Failure Result) post (fun _ => True) :=
  raise (fun _ _ => trivial)

/-- A sequence, with the state between its parts described by `middle`. -/
theorem bind {first : Program Answer Failure Other} {rest : Other -> Program Answer Failure Result}
    (middle : Other -> World -> Prop) (head : Triple env invariant pre first middle escape)
    (tail : forall value, Triple env invariant (middle value) (rest value) post escape) :
    Triple env invariant pre (first >>= rest) post escape := by
  intro world kept holds
  refine Safe.bind ((head world kept holds).weaken (fun result after still ends => ?_))
  cases result with
  | ok value => exact tail value after still ends
  | error failure => exact ends

/-- A question, given what each of its answers leads to. -/
theorem ask {op : Op} {next : Answer op -> Program Answer Failure Result}
    (answers : forall world answer after, invariant world -> pre world -> env op world answer after ->
      invariant after ∧ (invariant after -> Safe env invariant (Ends post escape) (next answer) after)) :
    Triple env invariant pre (.ask op next) post escape :=
  fun world kept holds => ⟨kept, fun answer after answered =>
    have step := answers world answer after kept holds answered
    step.2 step.1⟩

theorem attempt {later : Except Failure Result -> World -> Prop}
    {unused : World -> Prop} (triple : Triple env invariant pre program post escape)
    (ends : forall result world, Ends post escape result world -> later result world) :
    Triple env invariant pre program.attempt later unused :=
  fun world kept holds =>
    Safe.attempt ((triple world kept holds).weaken (fun result after _ ended => ends result after ended))

theorem mapFailure {convert : Failure -> Failure} (triple : Triple env invariant pre program post escape) :
    Triple env invariant pre (program.mapFailure convert) post escape :=
  fun world kept holds =>
    Safe.mapFailure ((triple world kept holds).weaken (fun result after _ ends => by
      cases result with
      | ok value => exact ends
      | error failure => exact ends))

theorem ofExcept {result : Except Failure Result}
    (ends : forall world, pre world -> Ends post escape result world) :
    Triple env invariant pre (Program.ofExcept result) post escape :=
  fun world kept holds => ⟨kept, ends world holds⟩

/-- Nothing is asked of a program. -/
theorem anyhow (program : Program Answer Failure Result) :
    Triple env (fun _ => True) (fun _ => True) program (fun _ _ => True) (fun _ => True) := by
  intro world _ _
  induction program generalizing world with
  | done result =>
      cases result with
      | ok value => exact ⟨trivial, trivial⟩
      | error failure => exact ⟨trivial, trivial⟩
  | ask op next ih =>
      exact ⟨trivial, fun answer after _ => ih answer after⟩

/-- What a triple says about a run that failed. -/
theorem escapes {failure : Failure} {world last : World}
    (triple : Triple env invariant pre program post escape) (kept : invariant world) (holds : pre world)
    (reached : Reaches env program world (.done (.error failure)) last) : escape last :=
  ((triple world kept holds).reaches reached).2

/-- What a triple says about every point of every run. -/
theorem reaches {program final : Program Answer Failure Result} {world last : World}
    (triple : Triple env invariant pre program post escape) (kept : invariant world) (holds : pre world)
    (reached : Reaches env program world final last) : invariant last :=
  ((triple world kept holds).reaches reached).holds

end Triple

end Safety

/-! ## What a program ends with -/

section Outcomes

variable (env : Environment Answer World)

/-- Whatever the world, a value is as expected and so is a failure. -/
def Yields (returns : Result -> Prop) (raises : Failure -> Prop) (program : Program Answer Failure Result) : Prop :=
  forall world, Safe env (fun _ => True) (fun result _ => match result with
    | .ok value => returns value
    | .error failure => raises failure) program world

variable {env} {returns : Result -> Prop} {raises : Failure -> Prop}

namespace Yields

theorem pure {value : Result} (ends : returns value) :
    Yields env returns raises (pure value : Program Answer Failure Result) := fun _ => ⟨trivial, ends⟩

theorem raise {failure : Failure} (ends : raises failure) :
    Yields env returns raises (Program.raise failure : Program Answer Failure Result) := fun _ => ⟨trivial, ends⟩

theorem ask {op : Op} {next : Answer op -> Program Answer Failure Result}
    (answers : forall world answer after, env op world answer after -> Yields env returns raises (next answer)) :
    Yields env returns raises (.ask op next) :=
  fun world => ⟨trivial, fun answer after answered => answers world answer after answered after⟩

theorem bind {first : Program Answer Failure Other} {rest : Other -> Program Answer Failure Result}
    (middle : Other -> Prop) (head : Yields env middle raises first)
    (tail : forall value, middle value -> Yields env returns raises (rest value)) :
    Yields env returns raises (first >>= rest) := by
  intro world
  refine Safe.bind ((head world).weaken (fun result after _ ends => ?_))
  cases result with
  | ok value => exact tail value ends after
  | error failure => exact ends

theorem attempt (yields : Yields env returns raises program) :
    Yields env (fun result => match result with
      | .ok value => returns value
      | .error failure => raises failure) (fun _ => False) program.attempt :=
  fun world => Safe.attempt (yields world)

end Yields

end Outcomes

/-! ## What a program asks -/

/-- Every question the program may ask is allowed, and every value it may
return is as expected, whatever the answers. -/
def Only (allowed : Op -> Prop) (returns : Result -> Prop) : Program Answer Failure Result -> Prop
  | .done (.ok value) => returns value
  | .done (.error _) => True
  | .ask op next => allowed op ∧ forall answer, Only allowed returns (next answer)

namespace Only

variable {allowed : Op -> Prop} {returns : Result -> Prop}

theorem done (result : Except Failure Result) :
    Only allowed (fun _ => True) (.done result : Program Answer Failure Result) := by
  cases result with
  | ok value => trivial
  | error failure => trivial

theorem weaken {expected : Result -> Prop}
    (only : Only allowed returns program) (implies : forall value, returns value -> expected value) :
    Only allowed expected program := by
  induction program with
  | done result =>
      cases result with
      | ok value => exact implies value only
      | error failure => trivial
  | ask op next ih =>
      exact ⟨only.1, fun answer => ih answer (only.2 answer)⟩

theorem bind {first : Program Answer Failure Other} {rest : Other -> Program Answer Failure Result}
    (middle : Other -> Prop) (head : Only allowed middle first)
    (tail : forall value, middle value -> Only allowed returns (rest value)) :
    Only allowed returns (first >>= rest) := by
  induction first with
  | done result =>
      cases result with
      | ok value => exact tail value head
      | error failure => trivial
  | ask op next ih =>
      exact ⟨head.1, fun answer => ih answer (head.2 answer)⟩

/-- A sequence whose second part does not depend on what the first returns. -/
theorem andThen {first : Program Answer Failure Other} {rest : Other -> Program Answer Failure Result}
    (head : Only allowed (fun _ => True) first) (tail : forall value, Only allowed returns (rest value)) :
    Only allowed returns (first >>= rest) :=
  bind (fun _ => True) head (fun value _ => tail value)

theorem attempt (only : Only allowed returns program) :
    Only allowed (fun result => forall value, result = .ok value -> returns value) program.attempt := by
  induction program with
  | done result =>
      rintro value rfl
      exact only
  | ask op next ih =>
      exact ⟨only.1, fun answer => ih answer (only.2 answer)⟩

theorem mapFailure {convert : Failure -> Failure}
    (only : Only allowed returns program) : Only allowed returns (program.mapFailure convert) := by
  induction program with
  | done result =>
      cases result with
      | ok value => exact only
      | error failure => trivial
  | ask op next ih =>
      exact ⟨only.1, fun answer => ih answer (only.2 answer)⟩

/-- What no allowed question breaks, the program keeps. -/
theorem triple {env : Environment Answer World} {invariant pre : World -> Prop}
    (only : Only allowed returns program)
    (keeps : forall op world answer after, allowed op -> pre world -> env op world answer after -> pre after)
    (holds : forall world, pre world -> invariant world) :
    Triple env invariant pre program (fun value world => returns value ∧ pre world) pre := by
  intro world kept start
  induction program generalizing world with
  | done result =>
      cases result with
      | ok value => exact ⟨kept, only, start⟩
      | error failure => exact ⟨kept, start⟩
  | ask op next ih =>
      refine ⟨kept, fun answer after answered => ?_⟩
      have still := keeps op world answer after only.1 start answered
      exact ih answer (only.2 answer) after (holds after still) still

end Only

end Library
end FaucetStream
