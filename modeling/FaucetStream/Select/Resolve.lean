import Mathlib.Data.List.Dedup
import FaucetStream.Select.Rows

namespace FaucetStream
namespace Select

/-!
# Resolving a selection

The run set is a hash set whose order of iteration nobody promises.  Only the
queue of the closure is seeded by it, so the order is a parameter here: a
function that lists a set in some order.
-/

/-! ## The closure under required ancestors -/

structure PolicyState where
  run : List String
  decisions : Decisions
  violations : List String := []
  queue : List String

def recordDecision (decisions : Decisions) (id : String) (decision : RowDecision) : Decisions :=
  Function.update decisions id (some decision)

def isActive (active : List SourceStatus) (status : SourceStatus) : Bool := active.contains status

def notSelected (id kind : String) : String :=
  "required by `" ++ id ++ "` (" ++ kind ++ ") but not selected — include_parents is off; select it, or use " ++
    "include_parents: eligible / all"

def parkedAncestor (id kind status : String) : String :=
  "required by `" ++ id ++ "` (" ++ kind ++ ") but parked (status `" ++ status ++ "`) — include_parents: eligible " ++
    "never pulls in a parked row; use all, or select it by id"

def missingPair (id anc kind : String) : String := id ++ " → " ++ anc ++ " (" ++ kind ++ ")"

def parkedPair (id anc kind : String) : String := id ++ " → " ++ anc ++ " (" ++ kind ++ ", parked)"

/-- The ancestor joins the run set and the queue. -/
def PolicyState.pull (state : PolicyState) (id anc : String) : PolicyState :=
  { state with
    run := state.run ++ [anc]
    decisions := recordDecision state.decisions anc (.pulledIn id)
    queue := state.queue ++ [anc] }

def PolicyState.block (state : PolicyState) (anc reason pair : String) : PolicyState :=
  { state with
    violations := state.violations ++ [pair]
    decisions := recordDecision state.decisions anc (.blocked reason) }

variable (nodes : List ExpandedNode)

/-- One edge of the row that is visited. -/
def visitAncestor (active : List SourceStatus) (policy : IncludeParents) (id : String)
    (state : PolicyState) (edge : String × String) : PolicyState :=
  let (anc, kind) := edge
  if anc ∈ state.run then state
  else
    let status := (nodeById nodes anc).map ExpandedNode.status
    let eligible := (status.map (isActive active)).getD false
    match policy with
    | .off => state.block anc (notSelected id kind) (missingPair id anc kind)
    | .eligible =>
        if eligible then state.pull id anc
        else
          state.block anc (parkedAncestor id kind ((status.map SourceStatus.asStr).getD "unknown"))
            (parkedPair id anc kind)
    | .all => state.pull id anc

def visit (active : List SourceStatus) (policy : IncludeParents) (id : String) (state : PolicyState) : PolicyState :=
  match nodeById nodes id with
  | some node => (requiredAncestors node).foldl (visitAncestor nodes active policy id) state
  | none => state

/-- The loop over the queue.  A turn takes one id off it, and an id joins it
at most once, by an edge. -/
def drain (nodes : List ExpandedNode) (active : List SourceStatus) (policy : IncludeParents) :
    Nat -> PolicyState -> PolicyState
  | 0, state => state
  | turns + 1, state =>
      match state.queue with
      | [] => state
      | id :: rest => drain nodes active policy turns (visit nodes active policy id { state with queue := rest })

/-- Every ancestor that an edge names. -/
def namedAncestors : List String :=
  nodes.flatMap (fun node => (requiredAncestors node).map Prod.fst)

def applyParentPolicy (iterate : List String -> List String) (nodes : List ExpandedNode)
    (active : List SourceStatus) (policy : IncludeParents) (run : List String) (decisions : Decisions) :
    PolicyState :=
  drain nodes active policy ((iterate run).length + (namedAncestors nodes).length)
    { run := run, decisions := decisions, queue := iterate run }

/-! ## The levels of the rows -/

abbrev Memo := String -> Option Nat

/-- `depth`, with the number of levels that the guard still lets it go down. -/
def depthOf (nodes : List ExpandedNode) : Nat -> String -> Memo -> Nat × Memo
  | left, id, memo =>
      match memo id with
      | some known => (known, memo)
      | none =>
          let found : Nat × Memo :=
            match left, nodeById nodes id with
            | left + 1, some node =>
                ((requiredAncestors node).filter (fun edge => (nodeById nodes edge.1).isSome)).foldl
                  (fun deepest edge =>
                    let (below, memo) := depthOf nodes left edge.1 deepest.2
                    (max deepest.1 (below + 1), memo)) (0, memo)
            | _, _ => (0, memo)
          (found.1, Function.update found.2 id (some found.1))

/-- How many different ids there are. -/
def idCount : Nat := (nodes.map ExpandedNode.id).dedup.length

def executionDepths : Memo :=
  nodes.foldl (fun memo node => (depthOf nodes (idCount nodes) node.id memo).2) (fun _ => none)

/-! ## The stages -/

def parkedReason (status : SourceStatus) : String :=
  "status `" ++ status.asStr ++ "` is not in the default eligible set (mandatory, active)"

namespace RunSelection

variable (sel : RunSelection)

def activeStatus : List SourceStatus := [.mandatory, .active] ++ sel.status

def hasIdentity : Bool := !sel.select.isEmpty || !sel.only.isEmpty

def hasTag : Bool := !sel.tags.isEmpty

def isEligible (node : ExpandedNode) : Bool := isActive sel.activeStatus node.status

def bySelect (node : ExpandedNode) : Bool := sel.select.any (fun id => id == node.id)

def byOnly (node : ExpandedNode) : Bool := sel.only.any (fun token => tokenMatches token node.id)

def matchesTag (node : ExpandedNode) : Bool := sel.tags.any (fun tag => node.tags.any (fun other => other == tag))

/-- Eligibility and narrowing. -/
def narrow (node : ExpandedNode) : RowDecision :=
  if !sel.hasIdentity && !sel.hasTag then
    if sel.isEligible node then .selected "default" else .excluded (parkedReason node.status)
  else if sel.hasIdentity && sel.bySelect node then .selected "select"
  else if sel.hasIdentity && sel.byOnly node then .selected "only"
  else if sel.hasTag && sel.matchesTag node && sel.isEligible node then .selected "tag"
  else if sel.hasTag && sel.matchesTag node then
    .excluded ("tagged, but " ++ parkedReason node.status ++ " — a tag never resurrects a parked row")
  else .excluded "not selected"

def matrixFlags : List String :=
  (if sel.select.isEmpty then [] else ["--select"]) ++ (if sel.only.isEmpty then [] else ["--only"]) ++
    (if sel.skip.isEmpty then [] else ["--skip"]) ++ (if sel.tags.isEmpty then [] else ["--tag"])

/-- The token of a skip that removes a row. -/
def skipToken (node : ExpandedNode) : Option String :=
  sel.skip.find? (fun token => skipMatches token node.id (decide (node.status = .mandatory)))

end RunSelection

def allIds : List String := nodes.map ExpandedNode.id

def presentTags : List String := sortDedup (nodes.flatMap ExpandedNode.tags)

/-- The selection's tokens are checked before any row is decided on. -/
def checkTokens (sel : RunSelection) (hasMatrix : Bool) : Option SelectError :=
  if !hasMatrix && !sel.matrixFlags.isEmpty then
    some (.selectorsWithoutMatrix (", ".intercalate sel.matrixFlags))
  else
    match sel.select.find? (fun token => !nodes.any (fun node => node.id == token)) with
    | some token => some (.noMatchForSelector "--select" token (allIds nodes))
    | none =>
        match (sel.only ++ sel.skip).find? (fun token => !nodes.any (fun node => tokenMatches token node.id)) with
        | some token =>
            some (.noMatchForSelector (if sel.only.contains token then "--only" else "--skip") token (allIds nodes))
        | none =>
            match sel.tags.find? (fun tag => !(presentTags nodes).contains tag) with
            | some tag => some (.unknownTag tag (presentTags nodes))
            | none => none

structure RunState where
  run : List String
  decisions : Decisions

def RunState.decideOn (sel : RunSelection) (state : RunState) (node : ExpandedNode) : RunState :=
  let decision := sel.narrow node
  { run := if decision.runs && !state.run.contains node.id then state.run ++ [node.id] else state.run
    decisions := recordDecision state.decisions node.id decision }

def RunState.skipRow (sel : RunSelection) (state : RunState) (node : ExpandedNode) : RunState :=
  if node.id ∈ state.run then
    match sel.skipToken node with
    | some token =>
        { run := state.run.filter (fun id => id != node.id)
          decisions := recordDecision state.decisions node.id (.excluded ("removed by skip `" ++ token ++ "`")) }
    | none => state
  else state

/-- The edges of the run set that lead out of it. -/
def orphanEdges (run : List String) : List (String × String × String) :=
  nodes.flatMap (fun node =>
    if node.id ∈ run then
      ((requiredAncestors node).filter (fun edge => !run.contains edge.1)).map (fun edge => (node.id, edge))
    else [])

def blockOrphan (decisions : Decisions) (edge : String × String × String) : Decisions :=
  recordDecision decisions edge.1
    (.blocked ("its " ++ edge.2.2 ++ " `" ++ edge.2.1 ++ "` was removed from the run set"))

def resolve (iterate : List String -> List String) (nodes : List ExpandedNode) (sel : RunSelection)
    (hasMatrix : Bool) : Resolution :=
  match checkTokens nodes sel hasMatrix with
  | some error => ⟨[], fun _ => none, some error⟩
  | none =>
      let narrowed := nodes.foldl (RunState.decideOn sel) ⟨[], fun _ => none⟩
      let closed :=
        applyParentPolicy iterate nodes sel.activeStatus sel.includeParents narrowed.run narrowed.decisions
      if closed.violations ≠ [] then
        ⟨[], closed.decisions,
          some (.runSetMissingAncestors (sortDedup closed.violations) sel.includeParents.asStr)⟩
      else
        let kept := nodes.foldl (RunState.skipRow sel) ⟨closed.run, closed.decisions⟩
        let orphans := orphanEdges nodes kept.run
        if orphans ≠ [] then
          ⟨[], orphans.foldl blockOrphan kept.decisions,
            some (.runSetMissingAncestors
              (sortDedup (orphans.map (fun edge => missingPair edge.1 edge.2.1 edge.2.2))) sel.includeParents.asStr)⟩
        else if kept.run = [] then
          ⟨[], kept.decisions,
            some (.emptyRunSet (nodes.map (fun node => node.id ++ " [" ++ node.status.asStr ++ "]")))⟩
        else
          let depths := executionDepths nodes
          let level := fun (node : ExpandedNode) => (depths node.id).getD 0
          ⟨((nodes.filter (fun node => kept.run.contains node.id)).mergeSort
              (fun one other => decide (level one ≤ level other))).map ExpandedNode.id, kept.decisions, none⟩

end Select
end FaucetStream
