import Mathlib.Data.List.Basic
import Mathlib.Tactic.Common

namespace FaucetStream
namespace Mirror

/-!
# Routing change records to their table

A mirror knows some tables and streams a part of them in each cycle.  A record
goes to the streaming table it names, directly or under the qualifier of the
database; a record of an unknown table may announce a new one.
-/

/-! ## Globs -/

/-- The backtracking match.  `star` holds the pattern after the last `*` and
the text skipped since. -/
def globMatchFrom (pattern text : List Char) (star : Option (List Char × List Char)) : Bool :=
  match text with
  | [] => pattern.all (fun c => c == '*')
  | c :: rest =>
      match pattern with
      | p :: after =>
          if p = '?' ∨ p = c then
            globMatchFrom after rest (star.map (fun mark => (mark.1, mark.2 ++ [c])))
          else if p = '*' then globMatchFrom after (c :: rest) (some (after, []))
          else
            match star with
            | some (again, skipped) => globMatchFrom again ((skipped ++ c :: rest).drop 1) (some (again, []))
            | none => false
      | [] =>
          match star with
          | some (again, skipped) => globMatchFrom again ((skipped ++ c :: rest).drop 1) (some (again, []))
          | none => false
termination_by (star.elim 0 (fun mark => mark.2.length) + text.length, pattern.length)
decreasing_by
  · cases star with
    | none =>
        apply Prod.Lex.left
        simp
    | some mark =>
        simp only [Option.map_some, Option.elim_some, List.length_append, List.length_nil, List.length_cons,
          Prod.lex_def]
        omega
  · simp only [Option.elim_some, List.length_nil, List.length_cons, Prod.lex_def]
    omega
  · simp only [Option.elim_some, List.length_nil, List.length_drop, List.length_append, List.length_cons, Prod.lex_def]
    omega
  · simp only [Option.elim_some, List.length_nil, List.length_drop, List.length_append, List.length_cons, Prod.lex_def]
    omega

def globMatch (pattern text : String) : Bool := globMatchFrom pattern.toList text.toList none

/-- Include and exclude globs. -/
structure TablesSpec where
  includes : List String
  excludes : List String

def selected (spec : TablesSpec) (name : String) : Bool :=
  spec.includes.any (fun glob => globMatch glob name) && !spec.excludes.any (fun glob => globMatch glob name)

/-! ## Routes -/

/-- Where a change record goes. -/
inductive Route where
  | active (table : String)
  | held
  | new (table : String)
  | ignored
  deriving DecidableEq

structure Router where
  /-- Tables streaming in this cycle. -/
  active : List String
  /-- Every table the mirror knows. -/
  known : List String
  qualifier : Option String
  follow : Option TablesSpec

/-- The parts of a name before and after its first dot. -/
def splitOnce (name : String) : Option (String × String) :=
  match name.toList.dropWhile (fun c => c != '.') with
  | [] => none
  | _ :: rest => some (String.ofList (name.toList.takeWhile (fun c => c != '.')), String.ofList rest)

namespace Router

def canonical (router : Router) (name : String) : Option String :=
  if name ∈ router.known then some name
  else
    match router.qualifier, splitOnce name with
    | some qualifier, some (schema, table) =>
        if schema = qualifier ∧ table ∈ router.known then some table else none
    | _, _ => none

/-- The name without the qualifier; `none` under another one. -/
def bareName (router : Router) (name : String) : Option String :=
  match router.qualifier, splitOnce name with
  | some qualifier, some (schema, table) => if schema = qualifier then some table else none
  | _, _ => some name

def route (router : Router) (name : String) : Route :=
  match router.canonical name with
  | some table => if table ∈ router.active then .active table else .held
  | none =>
      match router.bareName name with
      | none => .ignored
      | some bare =>
          match router.follow with
          | some spec => if selected spec bare then .new bare else .ignored
          | none => .ignored

end Router

end Mirror
end FaucetStream
