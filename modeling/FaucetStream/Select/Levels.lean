import Mathlib.Data.List.Perm.Subperm
import Mathlib.Logic.Relation
import FaucetStream.Select.Closure

namespace FaucetStream
namespace Select

/-!
# The levels of the rows

A row's level is one more than the deepest of the rows it requires.  Without a
cycle the guard of the recursion is never reached: the rows on the way down are
all different.
-/

def Requires (nodes : List ExpandedNode) (id anc : String) : Prop := exists kind, Edge nodes id anc kind

/-- What a level in the memo stands on. -/
def Levelled (nodes : List ExpandedNode) (memo : Memo) : Prop :=
  forall id level, memo id = some level -> forall anc, Requires nodes id anc ->
    exists below, memo anc = some below ∧ below < level

/-- No entry is taken back, and the new ones are of these rows. -/
structure Deepens (rows : String -> Prop) (before after : Memo) : Prop where
  keeps : forall other level, before other = some level -> after other = some level
  added : forall other, before other = none -> after other ≠ none -> rows other

/-- The rows on the way down to this one. -/
structure Descent (nodes : List ExpandedNode) (left : Nat) (id : String) (path : List String) : Prop where
  distinct : path.Nodup
  listed : forall other, other ∈ path -> other ∈ nodes.map ExpandedNode.id
  leads : forall other, other ∈ path -> Relation.TransGen (Requires nodes) other id
  turns : idCount nodes ≤ left + path.length

section Rows

variable {nodes : List ExpandedNode} (distinct : (nodes.map ExpandedNode.id).Nodup)
  (listed : forall id anc, Requires nodes id anc -> anc ∈ nodes.map ExpandedNode.id)
  (acyclic : forall id, ¬Relation.TransGen (Requires nodes) id id)

theorem isSome_nodeById (distinct : (nodes.map ExpandedNode.id).Nodup) {id : String}
    (among : id ∈ nodes.map ExpandedNode.id) : (nodeById nodes id).isSome = true := by
  rcases List.mem_map.mp among with ⟨node, amongNodes, same⟩
  rw [(nodeById_eq_some_iff distinct).mpr ⟨amongNodes, same⟩]
  rfl

include acyclic in
theorem Descent.not_last {id : String} {path : List String} (descent : Descent nodes 0 id path)
    (among : id ∈ nodes.map ExpandedNode.id) : False := by
  have fresh : id ∉ path := fun inside => acyclic id (descent.leads id inside)
  have all : (id :: path).Nodup := List.nodup_cons.mpr ⟨fresh, descent.distinct⟩
  have inside : (id :: path) ⊆ (nodes.map ExpandedNode.id).dedup := by
    intro other member
    rw [List.mem_dedup]
    rcases List.mem_cons.mp member with rfl | onPath
    · exact among
    · exact descent.listed other onPath
  have fits := (List.subperm_of_subset all inside).length_le
  have turns := descent.turns
  unfold idCount at turns
  rw [List.length_cons] at fits
  omega

theorem Descent.down {left : Nat} {id anc : String} {path : List String}
    (acyclic : forall id, ¬Relation.TransGen (Requires nodes) id id) (descent : Descent nodes (left + 1) id path)
    (among : id ∈ nodes.map ExpandedNode.id) (requires : Requires nodes id anc) :
    Descent nodes left anc (id :: path) := by
  refine ⟨List.nodup_cons.mpr ⟨fun inside => acyclic id (descent.leads id inside), descent.distinct⟩, ?_, ?_, ?_⟩
  · intro other member
    rcases List.mem_cons.mp member with rfl | onPath
    · exact among
    · exact descent.listed other onPath
  · intro other member
    rcases List.mem_cons.mp member with rfl | onPath
    · exact Relation.TransGen.single requires
    · exact (descent.leads other onPath).tail requires
  · have turns := descent.turns
    rw [List.length_cons]
    omega

theorem Deepens.refl (rows : String -> Prop) (memo : Memo) : Deepens rows memo memo :=
  ⟨fun _ _ known => known, fun _ unknown known => absurd unknown known⟩

theorem Deepens.trans {rows : String -> Prop} {first second third : Memo} (one : Deepens rows first second)
    (two : Deepens rows second third) : Deepens rows first third := by
  refine ⟨fun other level known => two.keeps other level (one.keeps other level known), ?_⟩
  intro other unknown known
  cases between : second other with
  | none => exact two.added other between known
  | some level =>
      apply one.added other unknown
      rw [between]
      exact Option.some_ne_none level

theorem Deepens.weaken {rows more : String -> Prop} {before after : Memo} (deepens : Deepens rows before after)
    (weaker : forall other, rows other -> more other) : Deepens more before after :=
  ⟨deepens.keeps, fun other unknown known => weaker other (deepens.added other unknown known)⟩

theorem Deepens.update {rows : String -> Prop} {id : String} {level : Nat} {before after : Memo}
    (deepens : Deepens rows before after) (unknown : before id = none) (row : rows id) :
    Deepens rows before (Function.update after id (some level)) := by
  constructor
  · intro other found known
    have differs : other ≠ id := by
      rintro rfl
      rw [unknown] at known
      cases known
    rw [Function.update_of_ne differs]
    exact deepens.keeps other found known
  · intro other isUnknown known
    by_cases same : other = id
    · rw [same]
      exact row
    · rw [Function.update_of_ne same] at known
      exact deepens.added other isUnknown known

/-- The level that is found joins the memo. -/
theorem levelled_update {id : String} {level : Nat} {memo : Memo} (unknown : memo id = none)
    (levelled : Levelled nodes memo) (deeper : forall anc, Requires nodes id anc ->
      exists below, memo anc = some below ∧ below < level) :
    Levelled nodes (Function.update memo id (some level)) := by
  have kept : forall other below, memo other = some below ->
      Function.update memo id (some level) other = some below := by
    intro other below known
    rw [Function.update_of_ne ?_]
    · exact known
    · rintro rfl
      rw [unknown] at known
      cases known
  intro other found known anc requires
  by_cases same : other = id
  · rw [same, Function.update_self] at known
    rw [same] at requires
    rcases deeper anc requires with ⟨below, isBelow, smaller⟩
    exact ⟨below, kept anc below isBelow, Option.some.inj known ▸ smaller⟩
  · rw [Function.update_of_ne same] at known
    rcases levelled other found known anc requires with ⟨below, isBelow, smaller⟩
    exact ⟨below, kept anc below isBelow, smaller⟩

theorem depthOf_known {left : Nat} {id : String} {memo : Memo} {level : Nat} (known : memo id = some level) :
    depthOf nodes left id memo = (level, memo) := by
  unfold depthOf
  rw [known]

/-- One edge of the row whose level is sought. -/
def deepest (descend : String -> Memo -> Nat × Memo) (found : Nat × Memo) (edge : String × String) : Nat × Memo :=
  (max found.1 ((descend edge.1 found.2).1 + 1), (descend edge.1 found.2).2)

theorem depthOf_unknown {left : Nat} {id : String} {memo : Memo} {node : ExpandedNode} (unknown : memo id = none)
    (row : nodeById nodes id = some node)
    (all : forall edge, edge ∈ requiredAncestors node -> (nodeById nodes edge.1).isSome = true) :
    depthOf nodes (left + 1) id memo =
      (((requiredAncestors node).foldl (deepest (depthOf nodes left)) (0, memo)).1,
        Function.update ((requiredAncestors node).foldl (deepest (depthOf nodes left)) (0, memo)).2 id
          (some ((requiredAncestors node).foldl (deepest (depthOf nodes left)) (0, memo)).1)) := by
  conv => lhs; unfold depthOf
  rw [unknown]
  dsimp only
  rw [row]
  dsimp only
  rw [List.filter_eq_self.mpr all]
  rfl

/-- Between two edges the deepest level so far lies above the rows that were
seen. -/
theorem foldl_deepest (rows : String -> Prop) (descend : String -> Memo -> Nat × Memo)
    (edges : List (String × String)) (descends : forall edge, edge ∈ edges -> forall memo, Levelled nodes memo ->
      Levelled nodes (descend edge.1 memo).2 ∧ Deepens rows memo (descend edge.1 memo).2 ∧
        (descend edge.1 memo).2 edge.1 = some (descend edge.1 memo).1)
    (found : Nat × Memo) (levelled : Levelled nodes found.2) :
    Levelled nodes (edges.foldl (deepest descend) found).2 ∧
      Deepens rows found.2 (edges.foldl (deepest descend) found).2 ∧
      found.1 ≤ (edges.foldl (deepest descend) found).1 ∧
      forall edge, edge ∈ edges -> exists below,
        (edges.foldl (deepest descend) found).2 edge.1 = some below ∧
          below < (edges.foldl (deepest descend) found).1 := by
  induction edges generalizing found with
  | nil => exact ⟨levelled, Deepens.refl rows found.2, Nat.le_refl _, fun _ impossible => nomatch impossible⟩
  | cons edge rest ih =>
      rcases descends edge List.mem_cons_self found.2 levelled with ⟨next, deepens, entry⟩
      rcases ih (fun other later => descends other (List.mem_cons_of_mem edge later))
          (deepest descend found edge) next with ⟨last, onward, deeper, seen⟩
      refine ⟨last, deepens.trans onward, Nat.le_trans (Nat.le_max_left _ _) deeper, ?_⟩
      intro other member
      rcases List.mem_cons.mp member with rfl | later
      · exact ⟨_, onward.keeps _ _ entry, Nat.le_trans (Nat.le_max_right found.1 _) deeper⟩
      · exact seen other later

include distinct listed acyclic in
/-- The recursion leaves a level for the row, and every level it leaves is
greater than those of the required rows. -/
theorem depthOf_levelled {left : Nat} {id : String} {memo : Memo} {path : List String}
    (descent : Descent nodes left id path) (among : id ∈ nodes.map ExpandedNode.id)
    (levelled : Levelled nodes memo) :
    Levelled nodes (depthOf nodes left id memo).2 ∧
      Deepens (Relation.ReflTransGen (Requires nodes) id) memo (depthOf nodes left id memo).2 ∧
      (depthOf nodes left id memo).2 id = some (depthOf nodes left id memo).1 := by
  induction left generalizing id memo path with
  | zero => exact (descent.not_last acyclic among).elim
  | succ left ih =>
      cases known : memo id with
      | some level =>
          rw [depthOf_known known]
          exact ⟨levelled, Deepens.refl _ memo, known⟩
      | none =>
          rcases List.mem_map.mp among with ⟨node, amongNodes, same⟩
          have row := (nodeById_eq_some_iff distinct).mpr ⟨amongNodes, same⟩
          have required : forall edge, edge ∈ requiredAncestors node -> Requires nodes id edge.1 :=
            fun edge isEdge => ⟨edge.2, node, amongNodes, same, isEdge⟩
          have isListed : forall edge, edge ∈ requiredAncestors node -> (nodeById nodes edge.1).isSome = true :=
            fun edge isEdge => isSome_nodeById distinct (listed id edge.1 (required edge isEdge))
          have descends : forall edge, edge ∈ requiredAncestors node -> forall memo, Levelled nodes memo ->
              Levelled nodes (depthOf nodes left edge.1 memo).2 ∧
                Deepens (Relation.TransGen (Requires nodes) id) memo (depthOf nodes left edge.1 memo).2 ∧
                (depthOf nodes left edge.1 memo).2 edge.1 = some (depthOf nodes left edge.1 memo).1 := by
            intro edge isEdge memo isLevelled
            have requires := required edge isEdge
            have down := descent.down acyclic among requires
            rcases ih down (listed id edge.1 requires) isLevelled with ⟨next, deepens, entry⟩
            exact ⟨next, deepens.weaken (fun other => Relation.TransGen.head' requires), entry⟩
          have edges := foldl_deepest (Relation.TransGen (Requires nodes) id) (depthOf nodes left)
            (requiredAncestors node) descends (0, memo) levelled
          rw [depthOf_unknown known row isListed]
          generalize (requiredAncestors node).foldl (deepest (depthOf nodes left)) (0, memo) = last at edges
          rcases edges with ⟨isLevelled, deepens, _, seen⟩
          have unknown : last.2 id = none := by
            cases late : last.2 id with
            | none => rfl
            | some level =>
                have new : last.2 id ≠ none := late ▸ Option.some_ne_none level
                exact absurd (deepens.added id known new) (acyclic id)
          refine ⟨levelled_update unknown isLevelled ?_, ?_, Function.update_self _ _ _⟩
          · rintro anc ⟨kind, also, alsoAmong, alsoSame, isEdge⟩
            have one : also = node :=
              List.inj_on_of_nodup_map distinct alsoAmong amongNodes (alsoSame.trans same.symm)
            rw [one] at isEdge
            exact seen (anc, kind) isEdge
          · have below := deepens.weaken (fun _ => Relation.TransGen.to_reflTransGen)
            exact below.update known Relation.ReflTransGen.refl

include distinct listed acyclic in
theorem foldl_depthOf {rest : List ExpandedNode} (within : forall node, node ∈ rest -> node ∈ nodes) {memo : Memo}
    (levelled : Levelled nodes memo) :
    Levelled nodes (rest.foldl (fun memo node => (depthOf nodes (idCount nodes) node.id memo).2) memo) ∧
      (forall id level, memo id = some level ->
        rest.foldl (fun memo node => (depthOf nodes (idCount nodes) node.id memo).2) memo id = some level) ∧
      forall node, node ∈ rest ->
        rest.foldl (fun memo node => (depthOf nodes (idCount nodes) node.id memo).2) memo node.id ≠ none := by
  induction rest generalizing memo with
  | nil => exact ⟨levelled, fun _ _ known => known, fun _ impossible => nomatch impossible⟩
  | cons node rest ih =>
      have top : Descent nodes (idCount nodes) node.id [] :=
        ⟨List.nodup_nil, nofun,
          nofun, Nat.le_refl _⟩
      have among := List.mem_map_of_mem (f := ExpandedNode.id) (within node List.mem_cons_self)
      rcases depthOf_levelled distinct listed acyclic top among levelled with ⟨next, deepens, entry⟩
      rcases ih (fun other later => within other (List.mem_cons_of_mem node later)) next with
        ⟨last, keeps, all⟩
      refine ⟨last, fun id level known => keeps id level (deepens.keeps id level known), ?_⟩
      intro other member
      rcases List.mem_cons.mp member with rfl | later
      · rw [List.foldl_cons, keeps _ _ entry]
        exact Option.some_ne_none _
      · exact all other later

/-- The level that rows are sorted by. -/
def levelAt (nodes : List ExpandedNode) (id : String) : Nat := (executionDepths nodes id).getD 0

include distinct listed acyclic in
/-- A required row has a smaller level. -/
theorem levelAt_lt {id anc : String} (requires : Requires nodes id anc) : levelAt nodes anc < levelAt nodes id := by
  have unseen : Levelled nodes (fun _ => none) := fun _ _ impossible => nomatch impossible
  rcases foldl_depthOf distinct listed acyclic (fun _ within => within) unseen with ⟨levelled, _, all⟩
  have among : exists node, node ∈ nodes ∧ node.id = id := by
    rcases requires with ⟨_, node, amongNodes, same, _⟩
    exact ⟨node, amongNodes, same⟩
  rcases among with ⟨node, amongNodes, same⟩
  have known := all node amongNodes
  rw [same] at known
  cases entry : executionDepths nodes id with
  | none => exact absurd entry known
  | some level =>
      rcases levelled id level entry anc requires with ⟨below, isBelow, smaller⟩
      have ancEntry : executionDepths nodes anc = some below := isBelow
      unfold levelAt
      rw [entry, ancEntry]
      exact smaller

include distinct listed acyclic in
theorem levelAt_lt_of_transGen {id anc : String} (requires : Relation.TransGen (Requires nodes) id anc) :
    levelAt nodes anc < levelAt nodes id := by
  induction requires with
  | single edge => exact levelAt_lt distinct listed acyclic edge
  | tail _ edge ih =>
      exact Nat.lt_trans (levelAt_lt distinct listed acyclic edge) ih

end Rows

end Select
end FaucetStream
