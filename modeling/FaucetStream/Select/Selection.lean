import FaucetStream.Library.Sorted
import FaucetStream.Select.Levels
import FaucetStream.Select.Stages

namespace FaucetStream
namespace Select

/-!
# The run set of a selection

A selection that resolves runs the rows it picks and the ancestors that the
policy admits, less the skipped ones.  Every row comes after all those it
requires, and no order of visiting rows tells in the result.
-/

/-! ## After the closure -/

/-- What `resolve` does with a closed run set. -/
def finish (nodes : List ExpandedNode) (sel : RunSelection) (closed : PolicyState) : Resolution :=
  if closed.violations ≠ [] then
    ⟨[], closed.decisions, some (.runSetMissingAncestors (sortDedup closed.violations) sel.includeParents.asStr)⟩
  else
    let kept := nodes.foldl (RunState.skipRow sel) ⟨closed.run, closed.decisions⟩
    let orphans := orphanEdges nodes kept.run
    if orphans ≠ [] then
      ⟨[], orphans.foldl blockOrphan kept.decisions,
        some (.runSetMissingAncestors
          (sortDedup (orphans.map (fun edge => missingPair edge.1 edge.2.1 edge.2.2))) sel.includeParents.asStr)⟩
    else if kept.run = [] then
      ⟨[], kept.decisions,
        some (.emptyRunSet (nodes.map (fun node => node.id ++ " [" ++ node.status.asStr ++ "]")))⟩
    else
      ⟨((nodes.filter (fun node => kept.run.contains node.id)).mergeSort
          (fun one other => decide (levelAt nodes one.id ≤ levelAt nodes other.id))).map ExpandedNode.id,
        kept.decisions, none⟩

def narrowed (nodes : List ExpandedNode) (sel : RunSelection) : RunState :=
  nodes.foldl (RunState.decideOn sel) ⟨[], fun _ => none⟩

theorem resolve_of_checked {iterate : List String -> List String} {nodes : List ExpandedNode} {sel : RunSelection}
    {hasMatrix : Bool} (checked : checkTokens nodes sel hasMatrix = none) :
    resolve iterate nodes sel hasMatrix = finish nodes sel
      (applyParentPolicy iterate nodes sel.activeStatus sel.includeParents (narrowed nodes sel).run
        (narrowed nodes sel).decisions) := by
  unfold resolve
  rw [checked]
  rfl

section Rows

variable {nodes : List ExpandedNode} {sel : RunSelection} {closed : PolicyState}

/-- The run set after the skips. -/
theorem kept_of_closed (distinct : (nodes.map ExpandedNode.id).Nodup)
    (isClosed : Closed nodes sel.activeStatus sel.includeParents (Picked nodes sel) closed) :
    Agrees (nodes.foldl (RunState.skipRow sel) ⟨closed.run, closed.decisions⟩)
      (fun id => Closure nodes sel.activeStatus sel.includeParents (Picked nodes sel) id ∧ ¬Skipped nodes sel id) :=
  kept_agrees distinct sel ⟨isClosed.run, isClosed.decided⟩

theorem violations_eq_nil_iff {other : PolicyState} {picked : String -> Prop}
    (isClosed : Closed nodes sel.activeStatus sel.includeParents picked closed)
    (alsoClosed : Closed nodes sel.activeStatus sel.includeParents picked other) :
    closed.violations = [] <-> other.violations = [] := by
  rw [List.eq_nil_iff_forall_not_mem, List.eq_nil_iff_forall_not_mem]
  simp only [isClosed.violations, alsoClosed.violations]

/-- Two walks that close the same rows finish alike. -/
theorem finish_congr (distinct : (nodes.map ExpandedNode.id).Nodup) {other : PolicyState}
    (isClosed : Closed nodes sel.activeStatus sel.includeParents (Picked nodes sel) closed)
    (alsoClosed : Closed nodes sel.activeStatus sel.includeParents (Picked nodes sel) other) :
    (finish nodes sel closed).runSet = (finish nodes sel other).runSet ∧
      (finish nodes sel closed).error = (finish nodes sel other).error := by
  have kept := kept_of_closed distinct isClosed
  have alsoKept := kept_of_closed distinct alsoClosed
  unfold finish
  by_cases refused : closed.violations = []
  · have alsoRefused := (violations_eq_nil_iff isClosed alsoClosed).mp refused
    rw [if_neg (not_not_intro refused), if_neg (not_not_intro alsoRefused)]
    generalize nodes.foldl (RunState.skipRow sel) ⟨closed.run, closed.decisions⟩ = state at kept
    generalize nodes.foldl (RunState.skipRow sel) ⟨other.run, other.decisions⟩ = otherState at alsoKept
    have same : forall id, id ∈ state.run <-> id ∈ otherState.run :=
      fun id => (kept.run id).trans (alsoKept.run id).symm
    have empty : state.run = [] <-> otherState.run = [] := by
      rw [List.eq_nil_iff_forall_not_mem, List.eq_nil_iff_forall_not_mem]
      simp only [same]
    have listed : (fun node : ExpandedNode => state.run.contains node.id) =
        fun node => otherState.run.contains node.id := by
      funext node
      simp only [List.contains_eq_mem, same]
    dsimp only
    rw [orphanEdges_congr nodes same, listed]
    by_cases orphaned : orphanEdges nodes otherState.run = []
    · rw [if_neg (not_not_intro orphaned), if_neg (not_not_intro orphaned)]
      by_cases none : state.run = []
      · rw [if_pos none, if_pos (empty.mp none)]
        exact ⟨rfl, rfl⟩
      · rw [if_neg none, if_neg (fun impossible => none (empty.mpr impossible))]
        exact ⟨rfl, rfl⟩
    · rw [if_pos orphaned, if_pos orphaned]
      exact ⟨rfl, rfl⟩
  · have alsoRefused : other.violations ≠ [] :=
      fun impossible => refused ((violations_eq_nil_iff isClosed alsoClosed).mpr impossible)
    rw [if_pos refused, if_pos alsoRefused]
    refine ⟨rfl, ?_⟩
    have same := sortDedup_congr (fun pair => (isClosed.violations pair).trans (alsoClosed.violations pair).symm)
    dsimp only
    rw [same]

/-- Without an error the run set is sorted by level and closed. -/
theorem finish_of_success (succeeds : (finish nodes sel closed).error = none) :
    let kept := nodes.foldl (RunState.skipRow sel) ⟨closed.run, closed.decisions⟩
    orphanEdges nodes kept.run = [] ∧ (finish nodes sel closed).decisions = kept.decisions ∧
      (finish nodes sel closed).runSet = ((nodes.filter (fun node => kept.run.contains node.id)).mergeSort
        (fun one other => decide (levelAt nodes one.id ≤ levelAt nodes other.id))).map ExpandedNode.id := by
  unfold finish at succeeds ⊢
  by_cases refused : closed.violations = []
  · rw [if_neg (not_not_intro refused)] at succeeds ⊢
    dsimp only at succeeds ⊢
    generalize nodes.foldl (RunState.skipRow sel) ⟨closed.run, closed.decisions⟩ = kept at succeeds ⊢
    by_cases orphaned : orphanEdges nodes kept.run = []
    · rw [if_neg (not_not_intro orphaned)] at succeeds ⊢
      by_cases none : kept.run = []
      · rw [if_pos none] at succeeds
        cases succeeds
      · rw [if_neg none]
        exact ⟨orphaned, rfl, rfl⟩
    · rw [if_pos orphaned] at succeeds
      cases succeeds
  · rw [if_pos refused] at succeeds
    cases succeeds

/-! ## The order of the rows -/

/-- Of two rows in a list sorted by level, the one with the smaller level comes
first. -/
theorem mem_front_of_level_lt {sorted : List ExpandedNode}
    (ordered : sorted.Pairwise (fun one other => levelAt nodes one.id ≤ levelAt nodes other.id))
    {front back : List String} {id anc : String} (split : sorted.map ExpandedNode.id = front ++ id :: back)
    (among : anc ∈ sorted.map ExpandedNode.id) (smaller : levelAt nodes anc < levelAt nodes id) : anc ∈ front := by
  rw [split] at among
  rcases List.mem_append.mp among with before | onward
  · exact before
  · exfalso
    rcases List.mem_cons.mp onward with rfl | behind
    · exact Nat.lt_irrefl _ smaller
    · have levels : (front ++ id :: back).Pairwise (fun one other => levelAt nodes one ≤ levelAt nodes other) := by
        rw [← split]
        exact List.pairwise_map.mpr ordered
      have least := (List.pairwise_cons.mp (List.pairwise_append.mp levels).2.1).1 anc behind
      exact Nat.lt_irrefl _ (Nat.lt_of_lt_of_le smaller least)

/-- A run set that no edge leads out of holds all that its rows require. -/
theorem mem_of_transGen {run : List String} (orphanless : orphanEdges nodes run = []) {id anc : String}
    (requires : Relation.TransGen (Requires nodes) id anc) (running : id ∈ run) : anc ∈ run := by
  have step : forall one other, Requires nodes one other -> one ∈ run -> other ∈ run := by
    rintro one other ⟨kind, edge⟩ isRunning
    by_contra absent
    have orphan := mem_orphanEdges.mpr ⟨isRunning, edge, absent⟩
    rw [orphanless] at orphan
    cases orphan
  induction requires with
  | single edge => exact step _ _ edge running
  | tail _ edge ih => exact step _ _ edge ih

end Rows

/-! ## The whole of a selection -/

theorem closed_of_iterate {nodes : List ExpandedNode} (distinct : (nodes.map ExpandedNode.id).Nodup)
    (sel : RunSelection) {iterate : List String -> List String} (listsAll : forall run, (iterate run).Perm run) :
    Closed nodes sel.activeStatus sel.includeParents (Picked nodes sel)
      (applyParentPolicy iterate nodes sel.activeStatus sel.includeParents (narrowed nodes sel).run
        (narrowed nodes sel).decisions) := by
  have agrees : Agrees (narrowed nodes sel) (Picked nodes sel) := narrowed_agrees distinct sel
  have isClosed := applyParentPolicy_closed sel.activeStatus sel.includeParents distinct
    (listsAll (narrowed nodes sel).run) agrees.decided
  have same : (fun id => id ∈ (narrowed nodes sel).run) = Picked nodes sel :=
    funext (fun id => propext (agrees.run id))
  rw [same] at isClosed
  exact isClosed

/-- A selection that resolves runs the closure of the rows it picks, without
the skipped ones, each once and after all that it requires; its decisions agree
with its run set; and neither the run set nor the error depends on the order in
which the run set is iterated. -/
theorem resolve_selection {nodes : List ExpandedNode} (distinct : (nodes.map ExpandedNode.id).Nodup)
    (listed : forall id anc, Requires nodes id anc -> anc ∈ nodes.map ExpandedNode.id)
    (acyclic : forall id, ¬Relation.TransGen (Requires nodes) id id) (sel : RunSelection) (hasMatrix : Bool)
    (iterate other : List String -> List String) (listsAll : forall run, (iterate run).Perm run)
    (alsoListsAll : forall run, (other run).Perm run) :
    ((resolve iterate nodes sel hasMatrix).error = none ->
      (forall id, id ∈ (resolve iterate nodes sel hasMatrix).runSet <->
        Closure nodes sel.activeStatus sel.includeParents (Picked nodes sel) id ∧ ¬Skipped nodes sel id) ∧
      (resolve iterate nodes sel hasMatrix).runSet.Nodup ∧
      (forall front id back, (resolve iterate nodes sel hasMatrix).runSet = front ++ id :: back ->
        forall anc, Relation.TransGen (Requires nodes) id anc -> anc ∈ front) ∧
      (forall id, Runs (resolve iterate nodes sel hasMatrix).decisions id <->
        id ∈ (resolve iterate nodes sel hasMatrix).runSet)) ∧
    (resolve iterate nodes sel hasMatrix).runSet = (resolve other nodes sel hasMatrix).runSet ∧
    (resolve iterate nodes sel hasMatrix).error = (resolve other nodes sel hasMatrix).error := by
  cases checked : checkTokens nodes sel hasMatrix with
  | some error =>
      unfold resolve
      rw [checked]
      exact ⟨fun impossible => absurd impossible (Option.some_ne_none error), rfl, rfl⟩
  | none =>
      rw [resolve_of_checked checked, resolve_of_checked checked]
      have isClosed := closed_of_iterate distinct sel listsAll
      have alsoClosed := closed_of_iterate distinct sel alsoListsAll
      refine ⟨?_, finish_congr distinct isClosed alsoClosed⟩
      generalize applyParentPolicy iterate nodes sel.activeStatus sel.includeParents (narrowed nodes sel).run
        (narrowed nodes sel).decisions = closed at isClosed
      intro succeeds
      have kept := kept_of_closed distinct isClosed
      rcases finish_of_success succeeds with ⟨orphanless, decisions, runSet⟩
      rw [decisions, runSet]
      generalize nodes.foldl (RunState.skipRow sel) ⟨closed.run, closed.decisions⟩ = state at kept orphanless
      have ordered := Library.pairwise_mergeSort_key (fun node : ExpandedNode => levelAt nodes node.id)
        (nodes.filter (fun node => state.run.contains node.id))
      have perm := List.mergeSort_perm (nodes.filter (fun node => state.run.contains node.id))
        (fun one other => decide (levelAt nodes one.id ≤ levelAt nodes other.id))
      generalize (nodes.filter (fun node => state.run.contains node.id)).mergeSort
        (fun one other => decide (levelAt nodes one.id ≤ levelAt nodes other.id)) = sorted at ordered perm
      have known : forall id, id ∈ state.run -> id ∈ nodes.map ExpandedNode.id := by
        intro id running
        have reached := ((kept.run id).mp running).1
        cases reached with
        | picked isPicked =>
            rcases isPicked with ⟨node, among, same, _⟩
            exact List.mem_map.mpr ⟨node, among, same⟩
        | required _ edge _ => exact listed _ id ⟨_, edge⟩
      have running : forall id, id ∈ sorted.map ExpandedNode.id <-> id ∈ state.run := by
        intro id
        rw [(perm.map ExpandedNode.id).mem_iff, List.mem_map]
        constructor
        · rintro ⟨node, among, rfl⟩
          have contained := (List.mem_filter.mp among).2
          rw [List.contains_eq_mem, decide_eq_true_eq] at contained
          exact contained
        · intro inside
          rcases List.mem_map.mp (known id inside) with ⟨node, among, same⟩
          refine ⟨node, List.mem_filter.mpr ⟨among, ?_⟩, same⟩
          rw [List.contains_eq_mem, decide_eq_true_eq, same]
          exact inside
      refine ⟨fun id => (running id).trans (kept.run id), ?_, ?_, fun id => (kept.decided id).trans (running id).symm⟩
      · apply (perm.map ExpandedNode.id).nodup_iff.mpr
        exact distinct.sublist (List.filter_sublist.map ExpandedNode.id)
      · intro front id back split anc requires
        have inside : id ∈ state.run := by
          rw [← running id, split]
          exact List.mem_append_right front List.mem_cons_self
        exact mem_front_of_level_lt ordered split ((running anc).mpr (mem_of_transGen orphanless requires inside))
          (levelAt_lt_of_transGen distinct listed acyclic requires)

/-- A row and its child. -/
def customersAndOrders : List ExpandedNode :=
  [⟨"orders", .child "customers", .active, [], []⟩, ⟨"customers", .root, .draft, [], []⟩]

def onlyOrders : RunSelection := ⟨["orders"], [], [], [], [], .all⟩

theorem requires_customersAndOrders {id anc : String} (requires : Requires customersAndOrders id anc) :
    id = "orders" ∧ anc = "customers" := by
  rcases requires with ⟨kind, node, among, rfl, required⟩
  rcases List.mem_cons.mp among with rfl | others
  · exact ⟨rfl, congrArg Prod.fst (List.mem_singleton.mp required)⟩
  · rcases List.mem_singleton.mp others with rfl
    cases required

theorem acyclic_customersAndOrders (id : String) : ¬Relation.TransGen (Requires customersAndOrders) id id := by
  intro cycle
  have first : id = "orders" := by
    cases cycle using Relation.TransGen.head_induction_on with
    | single edge => exact (requires_customersAndOrders edge).1
    | head edge _ _ => exact (requires_customersAndOrders edge).1
  have last : id = "customers" := by
    cases cycle with
    | single edge => exact (requires_customersAndOrders edge).2
    | tail _ edge => exact (requires_customersAndOrders edge).2
  exact absurd (first.symm.trans last) (by decide)

theorem resolve_selection_child : (resolve (fun run => run) customersAndOrders onlyOrders true).error = none ∧
    (resolve (fun run => run) customersAndOrders onlyOrders true).runSet = ["customers", "orders"] ∧
    (resolve (fun run => run) customersAndOrders onlyOrders true).runSet.Nodup ∧
    (resolve (fun run => run) customersAndOrders onlyOrders true).runSet =
      (resolve List.reverse customersAndOrders onlyOrders true).runSet := by
  have listed : forall id anc, Requires customersAndOrders id anc ->
      anc ∈ customersAndOrders.map ExpandedNode.id := by
    intro id anc requires
    rw [(requires_customersAndOrders requires).2]
    decide
  have selection := resolve_selection (by decide) listed acyclic_customersAndOrders onlyOrders true
    (fun run => run) List.reverse (fun run => List.Perm.refl run) List.reverse_perm
  -- `mergeSort` is not evaluated by the kernel
  have swapped : forall (precedes : ExpandedNode -> ExpandedNode -> Bool) one other, precedes one other = false ->
      [one, other].mergeSort precedes = [other, one] := by
    intro precedes one other later
    simp [List.mergeSort, later]
  exact ⟨rfl, congrArg (List.map ExpandedNode.id) (swapped _ _ _ rfl), (selection.1 rfl).2.1, selection.2.1⟩

end Select
end FaucetStream
