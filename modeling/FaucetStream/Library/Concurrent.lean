import Mathlib.Logic.Function.Basic
import FaucetStream.Library.Interaction

namespace FaucetStream
namespace Library

/-!
# Programs that share their surroundings

Several tasks run their programs against one world.  A step answers the
question one task waits at; the others may stall there for as long as they
like.  A task may be started afresh at any time, which is also how a crash
looks, and the world may change by itself.

`Kept` is the rule for such programs.  It is `Safe` with others at work: before
each question the world may have moved along `rely`, and the program in turn
moves it along `guarantee` only.  A pool whose tasks each keep the invariant
so, and guarantee what the others rely on, keeps it.
-/

variable {Op : Type} {Answer : Op -> Type} {Failure Result Other World Task : Type}

section Rule

variable (env : Environment Answer World) (invariant : World -> Prop) (rely guarantee : World -> World -> Prop)

/-- The program keeps the invariant and moves the world along `guarantee`,
while others move it along `rely` between its questions. -/
def Kept (post : Except Failure Result -> World -> Prop) : Program Answer Failure Result -> World -> Prop
  | .done result, world => post result world
  | .ask op next, world => forall current, rely world current -> invariant current -> forall answer after,
      env op current answer after -> invariant after ∧ guarantee current after ∧ Kept post (next answer) after

variable {env invariant rely guarantee}

variable {program : Program Answer Failure Result}

theorem Kept.weaken {post weaker : Except Failure Result -> World -> Prop}
    {world : World}
    (kept : Kept env invariant rely guarantee post program world)
    (implies : forall result after, post result after -> weaker result after) :
    Kept env invariant rely guarantee weaker program world := by
  induction program generalizing world with
  | done result => exact implies result world kept
  | ask op next ih =>
      intro current moved holds answer after answered
      rcases kept current moved holds answer after answered with ⟨still, further, rest⟩
      exact ⟨still, further, ih answer rest⟩

/-- A program that can run from a world can run from any later one. -/
theorem Kept.onward {post : Except Failure Result -> World -> Prop}
    (trans : forall first second third, rely first second -> rely second third -> rely first third)
    (stable : forall result first second, rely first second -> post result first -> post result second)
    {world current : World} (kept : Kept env invariant rely guarantee post program world) (moved : rely world current) :
    Kept env invariant rely guarantee post program current := by
  cases program with
  | done result => exact stable result _ _ moved kept
  | ask op next =>
      intro further away holds answer after answered
      exact kept further (trans _ _ _ moved away) holds answer after answered

/-- A program may guarantee less. -/
theorem Kept.loosen {looser : World -> World -> Prop} {post : Except Failure Result -> World -> Prop}
    {world : World}
    (kept : Kept env invariant rely guarantee post program world)
    (implies : forall first second, invariant first -> guarantee first second -> looser first second) :
    Kept env invariant rely looser post program world := by
  induction program generalizing world with
  | done result => exact kept
  | ask op next ih =>
      intro current moved holds answer after answered
      rcases kept current moved holds answer after answered with ⟨still, further, rest⟩
      exact ⟨still, implies current after holds further, ih answer rest⟩

/-- What neither the others nor the program's own steps undo still holds where
it ends. -/
theorem Kept.frame {frame : World -> Prop} {post : Except Failure Result -> World -> Prop}
    {world : World}
    (kept : Kept env invariant rely guarantee post program world)
    (others : forall first second, rely first second -> frame first -> frame second)
    (own : forall first second, guarantee first second -> frame first -> frame second) (start : frame world) :
    Kept env invariant rely guarantee (fun result after => post result after ∧ frame after) program world := by
  induction program generalizing world with
  | done result => exact ⟨kept, start⟩
  | ask op next ih =>
      intro current moved holds answer after answered
      rcases kept current moved holds answer after answered with ⟨still, further, rest⟩
      exact ⟨still, further, ih answer rest (own _ _ further (others _ _ moved start))⟩

theorem Kept.bind {post : Except Failure Other -> World -> Prop}
    {rest : Result -> Program Answer Failure Other} {world : World}
    (kept : Kept env invariant rely guarantee (fun result after => match result with
      | .ok value => Kept env invariant rely guarantee post (rest value) after
      | .error failure => post (.error failure) after) program world) :
    Kept env invariant rely guarantee post (program >>= rest) world := by
  induction program generalizing world with
  | done result =>
      cases result with
      | ok value => exact kept
      | error failure => exact kept
  | ask op next ih =>
      intro current moved holds answer after answered
      rcases kept current moved holds answer after answered with ⟨still, further, tail⟩
      exact ⟨still, further, ih answer tail⟩

/-- A question, given what each of its answers leads to. -/
theorem Kept.request {op : Op} {post : Except Failure Result -> World -> Prop}
    {rest : Answer op -> Program Answer Failure Result} {world : World}
    (steps : forall current, rely world current -> invariant current -> forall answer after,
      env op current answer after ->
        invariant after ∧ guarantee current after ∧ Kept env invariant rely guarantee post (rest answer) after) :
    Kept env invariant rely guarantee post (Program.request op >>= rest) world := steps

end Rule

/-! ## Pools -/

/-- The tasks, each at some point of its program, and the world they share. -/
structure Pool (Task : Type) (Answer : Op -> Type) (Failure Result World : Type) where
  programs : Task -> Program Answer Failure Result
  world : World

namespace Pool

variable [DecidableEq Task]

/-- What a pool may come to: `starts` says which programs a task may be started
with, `drifts` how the world changes by itself. -/
inductive Reaches (env : Environment Answer World) (starts : Task -> Program Answer Failure Result -> Prop)
    (drifts : World -> World -> Prop) (first : Pool Task Answer Failure Result World) :
    Pool Task Answer Failure Result World -> Prop
  | here : Reaches env starts drifts first first
  | answer {pool : Pool Task Answer Failure Result World} (reached : Reaches env starts drifts first pool) (task : Task)
      {op : Op} {next : Answer op -> Program Answer Failure Result} (waits : pool.programs task = .ask op next)
      {answer : Answer op} {after : World} (answered : env op pool.world answer after) :
      Reaches env starts drifts first ⟨Function.update pool.programs task (next answer), after⟩
  | start {pool : Pool Task Answer Failure Result World} (reached : Reaches env starts drifts first pool) (task : Task)
      {program : Program Answer Failure Result} (allowed : starts task program) :
      Reaches env starts drifts first ⟨Function.update pool.programs task program, pool.world⟩
  | drift {pool : Pool Task Answer Failure Result World} (reached : Reaches env starts drifts first pool)
      {after : World} (moved : drifts pool.world after) :
      Reaches env starts drifts first ⟨pool.programs, after⟩

variable {env : Environment Answer World} {starts : Task -> Program Answer Failure Result -> Prop}
  {drifts : World -> World -> Prop} {first : Pool Task Answer Failure Result World}

/-- A task may run on by itself for a while. -/
theorem Reaches.run {programs : Task -> Program Answer Failure Result} {world last : World}
    (reached : Reaches env starts drifts first ⟨programs, world⟩) (task : Task)
    {program final : Program Answer Failure Result} (waits : programs task = program)
    (alone : Library.Reaches env program world final last) :
    Reaches env starts drifts first ⟨Function.update programs task final, last⟩ := by
  induction alone generalizing programs with
  | here program world =>
      rw [← waits, Function.update_eq_self]
      exact reached
  | step answered rest ih =>
      have further := ih (reached.answer task waits answered) (Function.update_self _ _ _)
      rw [Function.update_idem] at further
      exact further

theorem Reaches.mono {weaker : Environment Answer World} {pool : Pool Task Answer Failure Result World}
    (reached : Reaches env starts drifts first pool)
    (implies : forall op world answer after, env op world answer after -> weaker op world answer after) :
    Reaches weaker starts drifts first pool := by
  induction reached with
  | here => exact .here
  | answer reached task waits answered ih =>
      exact ih.answer task waits (implies _ _ _ _ answered)
  | start reached task allowed ih => exact ih.start task allowed
  | drift reached moved ih => exact ih.drift moved

/-- A pool whose tasks all keep the invariant keeps it, and what a task's end
says goes on to hold when the others cannot undo it. -/
theorem Reaches.keepsEnds {invariant : World -> Prop} {rely guarantee : Task -> World -> World -> Prop}
    {post : Task -> Except Failure Result -> World -> Prop}
    {pool : Pool Task Answer Failure Result World} (reached : Reaches env starts drifts first pool)
    (refl : forall task world, rely task world world)
    (trans : forall task first second third, rely task first second -> rely task second third -> rely task first third)
    (stable : forall task result first second, rely task first second -> post task result first ->
      post task result second)
    (compatible : forall task other, other ≠ task -> forall world after, guarantee task world after ->
      rely other world after)
    (initial : invariant first.world)
    (running : forall task, Kept env invariant (rely task) (guarantee task) (post task)
      (first.programs task) first.world)
    (started : forall task program, starts task program -> forall world, invariant world ->
      Kept env invariant (rely task) (guarantee task) (post task) program world)
    (drifted : forall world after, drifts world after -> invariant world ->
      invariant after ∧ forall task, rely task world after) :
    invariant pool.world ∧ forall task, Kept env invariant (rely task) (guarantee task) (post task)
      (pool.programs task) pool.world := by
  induction reached with
  | here => exact ⟨initial, running⟩
  | @answer pool reached task op next waits answer after answered ih =>
      rcases ih with ⟨holds, all⟩
      have mine := all task
      rw [waits] at mine
      rcases mine pool.world (refl _ _) holds answer after answered with ⟨still, moved, rest⟩
      refine ⟨still, ?_⟩
      intro other
      by_cases same : other = task
      · subst same
        dsimp only
        rw [Function.update_self]
        exact rest
      · dsimp only
        rw [Function.update_of_ne same]
        exact (all other).onward (trans other) (stable other) (compatible task other same _ _ moved)
  | @start pool reached task program allowed ih =>
      rcases ih with ⟨holds, all⟩
      refine ⟨holds, ?_⟩
      intro other
      by_cases same : other = task
      · subst same
        dsimp only
        rw [Function.update_self]
        exact started other program allowed pool.world holds
      · dsimp only
        rw [Function.update_of_ne same]
        exact all other
  | @drift pool reached after moved ih =>
      rcases ih with ⟨holds, all⟩
      rcases drifted pool.world after moved holds with ⟨still, onward⟩
      exact ⟨still, fun task => (all task).onward (trans task) (stable task) (onward task)⟩

/-- A pool whose tasks all keep the invariant keeps it. -/
theorem Reaches.keeps {invariant : World -> Prop} {rely guarantee : Task -> World -> World -> Prop}
    {pool : Pool Task Answer Failure Result World} (reached : Reaches env starts drifts first pool)
    (refl : forall task world, rely task world world)
    (trans : forall task first second third, rely task first second -> rely task second third -> rely task first third)
    (compatible : forall task other, other ≠ task -> forall world after, guarantee task world after ->
      rely other world after)
    (initial : invariant first.world)
    (running : forall task, Kept env invariant (rely task) (guarantee task) (fun _ _ => True) (first.programs task)
      first.world)
    (started : forall task program, starts task program -> forall world, invariant world ->
      Kept env invariant (rely task) (guarantee task) (fun _ _ => True) program world)
    (drifted : forall world after, drifts world after -> invariant world ->
      invariant after ∧ forall task, rely task world after) :
    invariant pool.world ∧ forall task, Kept env invariant (rely task) (guarantee task) (fun _ _ => True)
      (pool.programs task) pool.world :=
  reached.keepsEnds refl trans (fun _ _ _ _ _ holds => holds) compatible initial running started drifted

end Pool

end Library
end FaucetStream
