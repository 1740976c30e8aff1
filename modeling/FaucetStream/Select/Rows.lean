import Mathlib.Data.String.Basic
import Mathlib.Logic.Function.Basic

namespace FaucetStream
namespace Select

/-!
# Selecting matrix rows

A run does not have to run every row of a matrix.  Rows are picked by their
status, by their ids and by their tags; then the rows that these require are
pulled in, as far as a policy admits it; then rows are skipped.  What is left
must hold every row that one of its rows requires.
-/

/-! ## Rows and selections -/

inductive SourceStatus where
  | mandatory
  | active
  | available
  | draft
  | archived
  deriving DecidableEq

def SourceStatus.asStr : SourceStatus -> String
  | .mandatory => "mandatory"
  | .active => "active"
  | .available => "available"
  | .draft => "draft"
  | .archived => "archived"

/-- Whether missing ancestors are pulled in. -/
inductive IncludeParents where
  | off
  | eligible
  | all
  deriving DecidableEq

def IncludeParents.asStr : IncludeParents -> String
  | .off => "off"
  | .eligible => "eligible"
  | .all => "all"

inductive NodeRole where
  | root
  | child (parentId : String)
  | discovery
  | product
  deriving DecidableEq

structure ExpandedNode where
  id : String
  role : NodeRole
  status : SourceStatus
  tags : List String
  dependsOn : List String
  deriving DecidableEq

structure RunSelection where
  select : List String
  only : List String
  skip : List String
  status : List SourceStatus
  tags : List String
  includeParents : IncludeParents
  deriving DecidableEq

inductive RowDecision where
  | selected (how : String)
  | pulledIn (because : String)
  | excluded (reason : String)
  | blocked (reason : String)
  deriving DecidableEq

def RowDecision.runs : RowDecision -> Bool
  | .selected _ => true
  | .pulledIn _ => true
  | _ => false

inductive SelectError where
  | selectorsWithoutMatrix (flags : String)
  | noMatchForSelector (flag token : String) (available : List String)
  | unknownTag (tag : String) (available : List String)
  | runSetMissingAncestors (pairs : List String) (policy : String)
  | emptyRunSet (rows : List String)
  deriving DecidableEq

abbrev Decisions := String -> Option RowDecision

structure Resolution where
  runSet : List String
  decisions : Decisions
  error : Option SelectError

/-! ## Tokens -/

def hasGlob (token : String) : Bool := token.toList.contains '*' || token.toList.contains '?'

/-- The loop of `glob_match` over what is left of the pattern and the text,
with what was left of both at the last star.  Each return to the star takes a
character away, so the turns are bounded. -/
def globLoop : Nat -> List Char -> List Char -> Option (List Char × List Char) -> Bool
  | 0, _, _, _ => false
  | _ + 1, pattern, [], _ => pattern.all (fun c => c == '*')
  | turns + 1, pattern, c :: text, star =>
      let back :=
        match star with
        | some (afterStar, mark) => globLoop turns afterStar mark.tail (some (afterStar, mark.tail))
        | none => false
      match pattern with
      | p :: rest =>
          if p = '?' ∨ p = c then globLoop turns rest text star
          else if p = '*' then globLoop turns rest (c :: text) (some (rest, c :: text))
          else back
      | [] => back

def globMatch (pattern text : String) : Bool :=
  globLoop ((text.length + 1) * (pattern.length + text.length + 2)) pattern.toList text.toList none

def tokenMatches (token id : String) : Bool := if hasGlob token then globMatch token id else token == id

def skipMatches (token id : String) (mandatory : Bool) : Bool :=
  if hasGlob token then !mandatory && globMatch token id else token == id

/-! ## Sorted texts -/

/-- `Vec::dedup`: of equal neighbours the first is kept. -/
def dedupNeighbours : List String -> List String
  | [] => []
  | [last] => [last]
  | one :: other :: rest =>
      if one = other then dedupNeighbours (other :: rest) else one :: dedupNeighbours (other :: rest)

def sortDedup (texts : List String) : List String :=
  dedupNeighbours (texts.mergeSort (fun one other => decide (one ≤ other)))

/-! ## Edges -/

/-- The rows a row requires, and by which kind of edge. -/
def requiredAncestors (node : ExpandedNode) : List (String × String) :=
  (match node.role with
    | .child parentId => [(parentId, "parent")]
    | _ => []) ++ node.dependsOn.map (fun id => (id, "depends_on"))

/-- The map from ids to rows, in which a later row replaces an earlier one. -/
def nodeById (nodes : List ExpandedNode) (id : String) : Option ExpandedNode :=
  nodes.reverse.find? (fun node => node.id == id)

end Select
end FaucetStream
