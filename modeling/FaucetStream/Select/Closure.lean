import FaucetStream.Select.Resolve

namespace FaucetStream
namespace Select

/-!
# What the closure reaches

The rows that a run set is closed under do not depend on the order in which
they are visited, and neither do the edges that the policy refuses.
-/

/-- A row requires another, by an edge of some kind. -/
def Edge (nodes : List ExpandedNode) (id anc kind : String) : Prop :=
  exists node, node ∈ nodes ∧ node.id = id ∧ (anc, kind) ∈ requiredAncestors node

/-- The policy admits a required row that was not picked. -/
def Admits (nodes : List ExpandedNode) (active : List SourceStatus) (policy : IncludeParents) (anc : String) : Prop :=
  match policy with
  | .off => False
  | .eligible => exists node, node ∈ nodes ∧ node.id = anc ∧ isActive active node.status = true
  | .all => True

/-- The rows that are picked, and the required ancestors that the policy
admits. -/
inductive Closure (nodes : List ExpandedNode) (active : List SourceStatus) (policy : IncludeParents)
    (picked : String -> Prop) : String -> Prop
  | picked {id : String} (isPicked : picked id) : Closure nodes active policy picked id
  | required {id anc kind : String} (dependent : Closure nodes active policy picked id)
      (edge : Edge nodes id anc kind) (admitted : Admits nodes active policy anc) :
      Closure nodes active policy picked anc

/-- How a refused edge is reported. -/
def pairText (policy : IncludeParents) (id anc kind : String) : String :=
  match policy with
  | .eligible => parkedPair id anc kind
  | _ => missingPair id anc kind

/-- This row's decision is to run. -/
def Runs (decisions : Decisions) (id : String) : Prop :=
  exists decision, decisions id = some decision ∧ decision.runs = true

theorem runs_record (decisions : Decisions) (id : String) (decision : RowDecision) (other : String) :
    Runs (recordDecision decisions id decision) other <->
      if other = id then decision.runs = true else Runs decisions other := by
  unfold Runs recordDecision
  by_cases same : other = id
  · rw [if_pos same, same, Function.update_self]
    constructor
    · rintro ⟨given, isGiven, runs⟩
      rw [Option.some.inj isGiven]
      exact runs
    · intro runs
      exact ⟨decision, rfl, runs⟩
  · rw [if_neg same, Function.update_of_ne same]

section Rows

variable {nodes : List ExpandedNode}

theorem nodeById_eq_some_iff (distinct : (nodes.map ExpandedNode.id).Nodup) {id : String} {node : ExpandedNode} :
    nodeById nodes id = some node <-> node ∈ nodes ∧ node.id = id := by
  unfold nodeById
  constructor
  · intro found
    have same : (node.id == id) = true := List.find?_some (p := fun other : ExpandedNode => other.id == id) found
    exact ⟨List.mem_reverse.mp (List.mem_of_find?_eq_some found), beq_iff_eq.mp same⟩
  · rintro ⟨among, rfl⟩
    cases found : nodes.reverse.find? (fun other => other.id == node.id) with
    | none =>
        have absent := List.find?_eq_none.mp found node (List.mem_reverse.mpr among)
        exact absurd (beq_self_eq_true node.id) absent
    | some other =>
        have alsoAmong := List.mem_reverse.mp (List.mem_of_find?_eq_some found)
        have same : (other.id == node.id) = true :=
          List.find?_some (p := fun other : ExpandedNode => other.id == node.id) found
        rw [List.inj_on_of_nodup_map distinct alsoAmong among (beq_iff_eq.mp same)]

end Rows

/-! ## One edge -/

section Walk

variable {nodes : List ExpandedNode} {active : List SourceStatus} {policy : IncludeParents}

variable (policy) in
/-- An edge to a row that already runs changes nothing; else its row is pulled
in if the policy admits it, and refused if not. -/
theorem visitAncestor_cases (distinct : (nodes.map ExpandedNode.id).Nodup) (id anc kind : String)
    (state : PolicyState) :
    (anc ∈ state.run ∧ visitAncestor nodes active policy id state (anc, kind) = state) ∨
      (anc ∉ state.run ∧ Admits nodes active policy anc ∧
        visitAncestor nodes active policy id state (anc, kind) = state.pull id anc) ∨
      (anc ∉ state.run ∧ ¬Admits nodes active policy anc ∧ exists reason,
        visitAncestor nodes active policy id state (anc, kind) =
          state.block anc reason (pairText policy id anc kind)) := by
  unfold visitAncestor
  dsimp only
  by_cases seen : anc ∈ state.run
  · rw [if_pos seen]
    exact Or.inl ⟨seen, rfl⟩
  · rw [if_neg seen]
    refine Or.inr ?_
    cases policy with
    | off => exact Or.inr ⟨seen, fun impossible => impossible, _, rfl⟩
    | all => exact Or.inl ⟨seen, trivial, rfl⟩
    | eligible =>
        dsimp only
        cases eligible : (((nodeById nodes anc).map ExpandedNode.status).map (isActive active)).getD false with
        | true =>
            left
            refine ⟨seen, ?_, rfl⟩
            cases found : nodeById nodes anc with
            | none =>
                rw [found] at eligible
                cases eligible
            | some node =>
                rw [found] at eligible
                rcases (nodeById_eq_some_iff distinct).mp found with ⟨among, same⟩
                exact ⟨node, among, same, eligible⟩
        | false =>
            right
            refine ⟨seen, ?_, _, rfl⟩
            rintro ⟨node, among, same, isEligible⟩
            rw [(nodeById_eq_some_iff distinct).mpr ⟨among, same⟩] at eligible
            change isActive active node.status = false at eligible
            rw [isEligible] at eligible
            cases eligible

/-! ## One row -/

/-- This edge leads to a row that runs, or its refusal is reported. -/
def Settled (nodes : List ExpandedNode) (active : List SourceStatus) (policy : IncludeParents) (state : PolicyState)
    (id anc kind : String) : Prop :=
  anc ∈ state.run ∨ (¬Admits nodes active policy anc ∧ pairText policy id anc kind ∈ state.violations)

/-- What the walk never takes back. -/
structure Grows (before after : PolicyState) : Prop where
  run : forall id, id ∈ before.run -> id ∈ after.run
  violations : forall pair, pair ∈ before.violations -> pair ∈ after.violations
  queue : forall id, id ∈ before.queue -> id ∈ after.queue

theorem Grows.refl (state : PolicyState) : Grows state state :=
  ⟨fun _ among => among, fun _ among => among, fun _ among => among⟩

theorem Grows.trans {first second third : PolicyState} (one : Grows first second) (two : Grows second third) :
    Grows first third :=
  ⟨fun id among => two.run id (one.run id among), fun pair among => two.violations pair (one.violations pair among),
    fun id among => two.queue id (one.queue id among)⟩

theorem Settled.grows {before after : PolicyState} {id anc kind : String} (grows : Grows before after)
    (settled : Settled nodes active policy before id anc kind) : Settled nodes active policy after id anc kind := by
  rcases settled with seen | ⟨refused, reported⟩
  · exact Or.inl (grows.run anc seen)
  · exact Or.inr ⟨refused, grows.violations _ reported⟩

/-- An edge of the closure that leads out of it. -/
def Missing (nodes : List ExpandedNode) (active : List SourceStatus) (policy : IncludeParents)
    (picked : String -> Prop) (id anc kind : String) : Prop :=
  Closure nodes active policy picked id ∧ Edge nodes id anc kind ∧ ¬Closure nodes active policy picked anc

theorem missing_iff {picked : String -> Prop} {id anc kind : String} :
    Missing nodes active policy picked id anc kind <->
      Closure nodes active policy picked id ∧ Edge nodes id anc kind ∧ ¬picked anc ∧
        ¬Admits nodes active policy anc := by
  constructor
  · rintro ⟨inside, edge, outside⟩
    exact ⟨inside, edge, fun isPicked => outside (.picked isPicked),
      fun admitted => outside (.required inside edge admitted)⟩
  · rintro ⟨inside, edge, unpicked, refused⟩
    refine ⟨inside, edge, ?_⟩
    intro reached
    cases reached with
    | picked isPicked => exact unpicked isPicked
    | required _ _ admitted => exact refused admitted

/-- What holds between two edges, while one row is visited. -/
structure Walk (nodes : List ExpandedNode) (active : List SourceStatus) (policy : IncludeParents)
    (start : List String) (current : String -> Prop) (state : PolicyState) : Prop where
  started : forall id, id ∈ start -> id ∈ state.run
  sound : forall id, id ∈ state.run -> Closure nodes active policy (fun id => id ∈ start) id
  queued : forall id, id ∈ state.queue -> id ∈ state.run
  visited : forall id, id ∈ state.run -> id ∉ state.queue -> ¬current id -> forall anc kind, Edge nodes id anc kind ->
    Settled nodes active policy state id anc kind
  reported : forall pair, pair ∈ state.violations -> exists id anc kind,
    Missing nodes active policy (fun id => id ∈ start) id anc kind ∧ pair = pairText policy id anc kind
  decided : forall id, Runs state.decisions id <-> id ∈ state.run

theorem visitAncestor_walk (distinct : (nodes.map ExpandedNode.id).Nodup) {start : List String}
    {current : String -> Prop} {state : PolicyState} (walk : Walk nodes active policy start current state)
    {id anc kind : String} (running : id ∈ state.run) (edge : Edge nodes id anc kind) :
    Walk nodes active policy start current (visitAncestor nodes active policy id state (anc, kind)) ∧
      Grows state (visitAncestor nodes active policy id state (anc, kind)) ∧
        Settled nodes active policy (visitAncestor nodes active policy id state (anc, kind)) id anc kind := by
  rcases visitAncestor_cases policy distinct id anc kind state with
    ⟨seen, same⟩ | ⟨unseen, admitted, pulled⟩ | ⟨unseen, refused, reason, blocked⟩
  · rw [same]
    exact ⟨walk, Grows.refl state, Or.inl seen⟩
  · rw [pulled]
    have grows : Grows state (state.pull id anc) :=
      ⟨fun _ among => List.mem_append_left _ among, fun _ among => among, fun _ among => List.mem_append_left _ among⟩
    refine ⟨?_, grows, Or.inl (List.mem_append_right _ List.mem_cons_self)⟩
    exact {
      started := fun other among => grows.run other (walk.started other among)
      sound := by
        intro other among
        rcases List.mem_append.mp among with before | new
        · exact walk.sound other before
        · rw [List.mem_singleton.mp new]
          exact .required (walk.sound id running) edge admitted
      queued := by
        intro other among
        rcases List.mem_append.mp among with before | new
        · exact grows.run other (walk.queued other before)
        · exact List.mem_append_right _ new
      visited := by
        intro other among unqueued elsewhere anc' kind' edge'
        have unqueuedBefore : other ∉ state.queue := fun before => unqueued (grows.queue other before)
        rcases List.mem_append.mp among with before | new
        · exact (walk.visited other before unqueuedBefore elsewhere anc' kind' edge').grows grows
        · exact absurd (List.mem_append_right _ new) unqueued
      reported := walk.reported
      decided := by
        intro other
        change Runs (recordDecision state.decisions anc (.pulledIn id)) other <-> other ∈ state.run ++ [anc]
        rw [runs_record, List.mem_append, List.mem_singleton]
        by_cases same : other = anc
        · rw [if_pos same]
          exact ⟨fun _ => Or.inr same, fun _ => rfl⟩
        · rw [if_neg same, walk.decided other]
          exact ⟨Or.inl, fun either => either.resolve_right same⟩ }
  · rw [blocked]
    have grows : Grows state (state.block anc reason (pairText policy id anc kind)) :=
      ⟨fun _ among => among, fun _ among => List.mem_append_left _ among, fun _ among => among⟩
    refine ⟨?_, grows, Or.inr ⟨refused, List.mem_append_right _ List.mem_cons_self⟩⟩
    exact {
      started := walk.started
      sound := walk.sound
      queued := walk.queued
      visited := fun other among unqueued elsewhere anc' kind' edge' =>
        (walk.visited other among unqueued elsewhere anc' kind' edge').grows grows
      reported := by
        intro pair among
        rcases List.mem_append.mp among with before | new
        · exact walk.reported pair before
        · refine ⟨id, anc, kind, ?_, List.mem_singleton.mp new⟩
          exact missing_iff.mpr
            ⟨walk.sound id running, edge, fun isPicked => unseen (walk.started anc isPicked), refused⟩
      decided := by
        intro other
        change Runs (recordDecision state.decisions anc (.blocked reason)) other <-> other ∈ state.run
        rw [runs_record]
        by_cases same : other = anc
        · rw [if_pos same, same]
          exact ⟨fun impossible => absurd impossible Bool.false_ne_true, fun seen => absurd seen unseen⟩
        · rw [if_neg same, walk.decided other] }

theorem foldl_visitAncestor_walk (distinct : (nodes.map ExpandedNode.id).Nodup) {start : List String}
    {current : String -> Prop} {id : String} {edges : List (String × String)}
    (all : forall edge, edge ∈ edges -> Edge nodes id edge.1 edge.2) {state : PolicyState}
    (walk : Walk nodes active policy start current state) (running : id ∈ state.run) :
    Walk nodes active policy start current (edges.foldl (visitAncestor nodes active policy id) state) ∧
      Grows state (edges.foldl (visitAncestor nodes active policy id) state) ∧
        forall edge, edge ∈ edges ->
          Settled nodes active policy (edges.foldl (visitAncestor nodes active policy id) state) id edge.1 edge.2 := by
  induction edges generalizing state with
  | nil => exact ⟨walk, Grows.refl state, fun _ impossible => nomatch impossible⟩
  | cons edge rest ih =>
      rcases visitAncestor_walk distinct walk running (all edge List.mem_cons_self) with ⟨next, grows, settled⟩
      rcases ih (fun other among => all other (List.mem_cons_of_mem edge among)) next
        (grows.run id running) with ⟨last, onward, others⟩
      refine ⟨last, grows.trans onward, ?_⟩
      intro other among
      rcases List.mem_cons.mp among with rfl | later
      · exact settled.grows onward
      · exact others other later

/-- A visited row's edges are settled. -/
theorem visit_walk (distinct : (nodes.map ExpandedNode.id).Nodup) {start : List String} {id : String}
    {state : PolicyState} (walk : Walk nodes active policy start (fun other => other = id) state)
    (running : id ∈ state.run) :
    Walk nodes active policy start (fun _ => False) (visit nodes active policy id state) := by
  unfold visit
  cases found : nodeById nodes id with
  | none =>
      refine { walk with visited := ?_ }
      intro other among unqueued _ anc kind edge
      apply walk.visited other among unqueued ?_ anc kind edge
      rintro rfl
      rcases edge with ⟨node, amongNodes, same, _⟩
      rw [(nodeById_eq_some_iff distinct).mpr ⟨amongNodes, same⟩] at found
      cases found
  | some node =>
      rcases (nodeById_eq_some_iff distinct).mp found with ⟨amongNodes, same⟩
      rcases foldl_visitAncestor_walk distinct (fun edge among => ⟨node, amongNodes, same, among⟩) walk running with
        ⟨after, _, settled⟩
      refine { after with visited := ?_ }
      intro other among unqueued _ anc kind edge
      by_cases isCurrent : other = id
      · subst isCurrent
        rcases edge with ⟨also, alsoAmong, alsoSame, required⟩
        have one : also = node := List.inj_on_of_nodup_map distinct alsoAmong amongNodes (alsoSame.trans same.symm)
        rw [one] at required
        exact settled (anc, kind) required
      · exact after.visited other among unqueued isCurrent anc kind edge

/-! ## The queue runs dry -/

/-- The turns the queue can still take. -/
def turnsLeft (nodes : List ExpandedNode) (state : PolicyState) : Nat :=
  state.queue.length + (namedAncestors nodes).countP (fun anc => !state.run.contains anc)

theorem countP_lt_countP {names : List String} {fewer more : String -> Bool} {name : String}
    (implied : forall other, fewer other = true -> more other = true) (among : name ∈ names)
    (counted : more name = true) (uncounted : ¬fewer name = true) : names.countP fewer < names.countP more := by
  rcases List.append_of_mem among with ⟨front, back, rfl⟩
  rw [List.countP_append, List.countP_append, List.countP_cons_of_pos counted, List.countP_cons_of_neg uncounted]
  have one : front.countP fewer ≤ front.countP more := List.countP_mono_left (fun other _ => implied other)
  have two : back.countP fewer ≤ back.countP more := List.countP_mono_left (fun other _ => implied other)
  omega

theorem countP_lt_of_pulled {named run : List String} {anc : String} (among : anc ∈ named) (unseen : anc ∉ run) :
    named.countP (fun other => !(run ++ [anc]).contains other) < named.countP (fun other => !run.contains other) := by
  apply countP_lt_countP ?_ among
  · rw [Bool.not_eq_true', List.contains_eq_mem, decide_eq_false_iff_not]
    exact unseen
  · rw [List.contains_eq_mem, decide_eq_true (List.mem_append_right run List.mem_cons_self)]
    exact Bool.false_ne_true
  · intro other absent
    simp only [Bool.not_eq_true', List.contains_eq_mem, decide_eq_false_iff_not, List.mem_append, not_or] at absent ⊢
    exact absent.1

theorem turnsLeft_visitAncestor (distinct : (nodes.map ExpandedNode.id).Nodup) (id : String) {anc kind : String}
    (named : anc ∈ namedAncestors nodes) (state : PolicyState) :
    turnsLeft nodes (visitAncestor nodes active policy id state (anc, kind)) ≤ turnsLeft nodes state := by
  rcases visitAncestor_cases policy distinct id anc kind state with
    ⟨seen, same⟩ | ⟨unseen, admitted, pulled⟩ | ⟨unseen, refused, reason, blocked⟩
  · rw [same]
  · rw [pulled]
    have fewer := countP_lt_of_pulled named unseen
    change (state.queue ++ [anc]).length + _ ≤ _
    rw [List.length_append, List.length_singleton]
    unfold turnsLeft
    change state.queue.length + 1 +
      (namedAncestors nodes).countP (fun other => !(state.run ++ [anc]).contains other) ≤ _
    omega
  · rw [blocked]
    exact Nat.le_refl _

variable (active policy) in
theorem turnsLeft_visit (distinct : (nodes.map ExpandedNode.id).Nodup) (id : String) (state : PolicyState) :
    turnsLeft nodes (visit nodes active policy id state) ≤ turnsLeft nodes state := by
  unfold visit
  cases found : nodeById nodes id with
  | none => exact Nat.le_refl _
  | some node =>
      have among := ((nodeById_eq_some_iff distinct).mp found).1
      have named : forall edge, edge ∈ requiredAncestors node -> edge.1 ∈ namedAncestors nodes := by
        intro edge required
        exact List.mem_flatMap.mpr ⟨node, among, List.mem_map.mpr ⟨edge, required, rfl⟩⟩
      dsimp only
      generalize requiredAncestors node = edges at named
      induction edges generalizing state with
      | nil => exact Nat.le_refl _
      | cons edge rest ih =>
          exact Nat.le_trans
            (ih _ (fun other among => named other (List.mem_cons_of_mem edge among)))
            (turnsLeft_visitAncestor distinct id (named edge List.mem_cons_self) state)

theorem drain_walk (distinct : (nodes.map ExpandedNode.id).Nodup) {start : List String} {turns : Nat}
    {state : PolicyState} (enough : turnsLeft nodes state ≤ turns)
    (walk : Walk nodes active policy start (fun _ => False) state) :
    Walk nodes active policy start (fun _ => False) (drain nodes active policy turns state) ∧
      (drain nodes active policy turns state).queue = [] := by
  induction turns generalizing state with
  | zero =>
      unfold turnsLeft at enough
      have empty : state.queue.length = 0 := by omega
      exact ⟨walk, List.length_eq_zero_iff.mp empty⟩
  | succ turns ih =>
      unfold drain
      cases waits : state.queue with
      | nil => exact ⟨walk, waits⟩
      | cons id rest =>
          dsimp only
          have running : id ∈ state.run := walk.queued id (by rw [waits]; exact List.mem_cons_self)
          have taken : Walk nodes active policy start (fun other => other = id) { state with queue := rest } :=
            { walk with
              queued := fun other among => walk.queued other (by rw [waits]; exact List.mem_cons_of_mem id among)
              visited := by
                intro other among unqueued elsewhere anc kind edge
                refine walk.visited other among ?_ (fun impossible => impossible) anc kind edge
                rw [waits]
                intro queued
                rcases List.mem_cons.mp queued with same | later
                · exact elsewhere same
                · exact unqueued later }
          apply ih ?_ (visit_walk distinct taken running)
          have fewer := turnsLeft_visit active policy distinct id { state with queue := rest }
          unfold turnsLeft at enough fewer ⊢
          rw [waits, List.length_cons] at enough
          dsimp only at fewer
          omega

/-! ## The closed run set -/

/-- What the walk leaves once its queue is empty. -/
structure Closed (nodes : List ExpandedNode) (active : List SourceStatus) (policy : IncludeParents)
    (picked : String -> Prop) (state : PolicyState) : Prop where
  run : forall id, id ∈ state.run <-> Closure nodes active policy picked id
  violations : forall pair, pair ∈ state.violations <-> exists id anc kind,
    Missing nodes active policy picked id anc kind ∧ pair = pairText policy id anc kind
  decided : forall id, Runs state.decisions id <-> id ∈ state.run

theorem Walk.closed {start : List String} {state : PolicyState}
    (walk : Walk nodes active policy start (fun _ => False) state) (dry : state.queue = []) :
    Closed nodes active policy (fun id => id ∈ start) state := by
  have settled : forall id, id ∈ state.run -> forall anc kind, Edge nodes id anc kind ->
      Settled nodes active policy state id anc kind := by
    intro id among
    apply walk.visited id among ?_ (fun impossible => impossible)
    rw [dry]
    exact List.not_mem_nil
  have complete : forall id, Closure nodes active policy (fun id => id ∈ start) id -> id ∈ state.run := by
    intro id reached
    induction reached with
    | picked isPicked => exact walk.started _ isPicked
    | required _ edge admitted ih =>
        rcases settled _ ih _ _ edge with seen | ⟨refused, _⟩
        · exact seen
        · exact absurd admitted refused
  refine ⟨fun id => ⟨walk.sound id, complete id⟩, ?_, walk.decided⟩
  intro pair
  constructor
  · exact walk.reported pair
  · rintro ⟨id, anc, kind, missing, rfl⟩
    rcases settled id (complete id missing.1) anc kind missing.2.1 with seen | ⟨_, reported⟩
    · exact absurd (walk.sound anc seen) missing.2.2
    · exact reported

variable (active policy) in
theorem applyParentPolicy_closed (distinct : (nodes.map ExpandedNode.id).Nodup) {iterate : List String -> List String}
    {run : List String} (listsAll : (iterate run).Perm run) {decisions : Decisions}
    (decided : forall id, Runs decisions id <-> id ∈ run) :
    Closed nodes active policy (fun id => id ∈ run)
      (applyParentPolicy iterate nodes active policy run decisions) := by
  have seeded : Walk nodes active policy run (fun _ => False)
      { run := run, decisions := decisions, queue := iterate run } :=
    { started := fun _ among => among
      sound := fun _ among => .picked among
      queued := fun _ among => listsAll.mem_iff.mp among
      visited := fun _ among unqueued => absurd (listsAll.mem_iff.mpr among) unqueued
      reported := fun _ impossible => nomatch impossible
      decided := decided }
  have enough : turnsLeft nodes { run := run, decisions := decisions, queue := iterate run } ≤
      (iterate run).length + (namedAncestors nodes).length :=
    Nat.add_le_add_left List.countP_le_length _
  have walked := drain_walk distinct enough seeded
  exact walked.1.closed walked.2

end Walk

end Select
end FaucetStream
