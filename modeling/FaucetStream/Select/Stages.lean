import Mathlib.Data.List.Sort
import FaucetStream.Select.Closure

namespace FaucetStream
namespace Select

/-!
# What the stages leave

Each stage is a walk over the rows.  The ids of rows are distinct, so a row is
decided on once in each walk, and the decisions agree with the run set between
any two stages.
-/

/-- The rows that the selection itself picks. -/
def RunSelection.Chosen (sel : RunSelection) (node : ExpandedNode) : Prop :=
  (sel.select = [] ∧ sel.only = [] ∧ sel.tags = [] ∧ sel.isEligible node = true) ∨
    node.id ∈ sel.select ∨
    (exists token, token ∈ sel.only ∧ tokenMatches token node.id = true) ∨
    ((exists tag, tag ∈ sel.tags ∧ tag ∈ node.tags) ∧ sel.isEligible node = true)

def Picked (nodes : List ExpandedNode) (sel : RunSelection) (id : String) : Prop :=
  exists node, node ∈ nodes ∧ node.id = id ∧ sel.Chosen node

/-- A skip removes the row of this id. -/
def Skipped (nodes : List ExpandedNode) (sel : RunSelection) (id : String) : Prop :=
  exists node token, node ∈ nodes ∧ node.id = id ∧ token ∈ sel.skip ∧
    skipMatches token id (decide (node.status = .mandatory)) = true

/-! ## Narrowing -/

namespace RunSelection

variable (sel : RunSelection) (node : ExpandedNode)

theorem bySelect_eq_true_iff : sel.bySelect node = true <-> node.id ∈ sel.select := by
  unfold bySelect
  rw [List.any_eq_true]
  constructor
  · rintro ⟨id, among, same⟩
    rw [← beq_iff_eq.mp same]
    exact among
  · intro among
    exact ⟨node.id, among, beq_self_eq_true node.id⟩

theorem byOnly_eq_true_iff :
    sel.byOnly node = true <-> exists token, token ∈ sel.only ∧ tokenMatches token node.id = true := by
  unfold byOnly
  rw [List.any_eq_true]

theorem matchesTag_eq_true_iff : sel.matchesTag node = true <-> exists tag, tag ∈ sel.tags ∧ tag ∈ node.tags := by
  unfold matchesTag
  rw [List.any_eq_true]
  constructor
  · rintro ⟨tag, asked, has⟩
    rcases List.any_eq_true.mp has with ⟨other, tagged, same⟩
    rw [beq_iff_eq.mp same] at tagged
    exact ⟨tag, asked, tagged⟩
  · rintro ⟨tag, asked, tagged⟩
    exact ⟨tag, asked, List.any_eq_true.mpr ⟨tag, tagged, beq_self_eq_true tag⟩⟩

theorem hasIdentity_eq_false_iff : sel.hasIdentity = false <-> sel.select = [] ∧ sel.only = [] := by
  unfold hasIdentity
  rw [Bool.or_eq_false_iff, Bool.not_eq_false', Bool.not_eq_false', List.isEmpty_iff, List.isEmpty_iff]

theorem hasTag_eq_false_iff : sel.hasTag = false <-> sel.tags = [] := by
  unfold hasTag
  rw [Bool.not_eq_false', List.isEmpty_iff]

theorem hasIdentity_of_bySelect (picks : sel.bySelect node = true) : sel.hasIdentity = true := by
  cases identity : sel.hasIdentity with
  | true => rfl
  | false =>
      have among := (sel.bySelect_eq_true_iff node).mp picks
      rw [((sel.hasIdentity_eq_false_iff).mp identity).1] at among
      cases among

theorem hasIdentity_of_byOnly (picks : sel.byOnly node = true) : sel.hasIdentity = true := by
  cases identity : sel.hasIdentity with
  | true => rfl
  | false =>
      rcases (sel.byOnly_eq_true_iff node).mp picks with ⟨token, among, _⟩
      rw [((sel.hasIdentity_eq_false_iff).mp identity).2] at among
      cases among

theorem hasTag_of_matchesTag (picks : sel.matchesTag node = true) : sel.hasTag = true := by
  cases tagged : sel.hasTag with
  | true => rfl
  | false =>
      rcases (sel.matchesTag_eq_true_iff node).mp picks with ⟨tag, among, _⟩
      rw [(sel.hasTag_eq_false_iff).mp tagged] at among
      cases among

/-- Narrowing lets the chosen rows run. -/
theorem narrow_runs_iff : (sel.narrow node).runs = true <-> sel.Chosen node := by
  unfold Chosen
  rw [← bySelect_eq_true_iff, ← byOnly_eq_true_iff, ← matchesTag_eq_true_iff, ← and_assoc, ← and_assoc,
    ← hasIdentity_eq_false_iff, ← hasTag_eq_false_iff]
  have select := sel.hasIdentity_of_bySelect node
  have only := sel.hasIdentity_of_byOnly node
  have tag := sel.hasTag_of_matchesTag node
  unfold narrow
  revert select only tag
  cases sel.hasIdentity <;> cases sel.hasTag <;> cases sel.bySelect node <;> cases sel.byOnly node <;>
    cases sel.matchesTag node <;> cases sel.isEligible node <;> simp_all [RowDecision.runs]

end RunSelection

/-- The run set lists the picked rows, and the decisions agree with it. -/
structure Agrees (state : RunState) (running : String -> Prop) : Prop where
  run : forall id, id ∈ state.run <-> running id
  decided : forall id, Runs state.decisions id <-> id ∈ state.run

theorem decideOn_run (sel : RunSelection) (state : RunState) (node : ExpandedNode) (id : String) :
    id ∈ (state.decideOn sel node).run <-> id ∈ state.run ∨ (id = node.id ∧ sel.Chosen node) := by
  unfold RunState.decideOn
  dsimp only
  rw [← sel.narrow_runs_iff node]
  cases runs : (sel.narrow node).runs with
  | false => simp only [Bool.false_and, Bool.false_eq_true, if_false, and_false, or_false]
  | true =>
      by_cases seen : node.id ∈ state.run
      · have same : id = node.id -> id ∈ state.run := fun isNode => isNode ▸ seen
        simp only [List.contains_eq_mem, seen, decide_true, Bool.not_true, Bool.and_false, Bool.false_eq_true,
          if_false, and_true, or_iff_left_of_imp same]
      · simp only [List.contains_eq_mem, seen, decide_false, Bool.not_false, Bool.and_true, if_true, List.mem_append,
          List.mem_singleton, and_true]

theorem foldl_decideOn (sel : RunSelection) {rest : List ExpandedNode} (distinct : (rest.map ExpandedNode.id).Nodup)
    {state : RunState} {running : String -> Prop} (agrees : Agrees state running)
    (fresh : forall node, node ∈ rest -> ¬running node.id) :
    Agrees (rest.foldl (RunState.decideOn sel) state) (fun id => running id ∨ Picked rest sel id) := by
  induction rest generalizing state running with
  | nil =>
      refine ⟨?_, agrees.decided⟩
      intro id
      rw [List.foldl_nil, agrees.run id]
      exact ⟨Or.inl, fun either => either.resolve_right (fun ⟨_, impossible, _⟩ => nomatch impossible)⟩
  | cons node rest ih =>
      rcases List.nodup_cons.mp distinct with ⟨alone, distinctRest⟩
      have next : Agrees (state.decideOn sel node) (fun id => running id ∨ (id = node.id ∧ sel.Chosen node)) := by
        constructor
        · intro id
          rw [decideOn_run, agrees.run id]
        · intro id
          rw [decideOn_run]
          change Runs (recordDecision state.decisions node.id (sel.narrow node)) id <-> _
          rw [runs_record]
          by_cases same : id = node.id
          · rw [if_pos same, sel.narrow_runs_iff node, agrees.run id, same]
            exact ⟨fun chosen => Or.inr ⟨rfl, chosen⟩,
              fun either => (either.resolve_left (fresh node List.mem_cons_self)).2⟩
          · rw [if_neg same, agrees.decided id]
            exact ⟨Or.inl, fun either => either.resolve_right (fun both => same both.1)⟩
      have later := ih distinctRest next (by
        rintro other among (before | ⟨same, _⟩)
        · exact fresh other (List.mem_cons_of_mem node among) before
        · exact alone (same ▸ List.mem_map_of_mem among))
      refine ⟨?_, later.decided⟩
      intro id
      rw [List.foldl_cons, later.run id]
      constructor
      · rintro ((before | ⟨same, chosen⟩) | ⟨other, among, same, chosen⟩)
        · exact Or.inl before
        · exact Or.inr ⟨node, List.mem_cons_self, same.symm, chosen⟩
        · exact Or.inr ⟨other, List.mem_cons_of_mem node among, same, chosen⟩
      · rintro (before | ⟨other, among, same, chosen⟩)
        · exact Or.inl (Or.inl before)
        · rcases List.mem_cons.mp among with rfl | later
          · exact Or.inl (Or.inr ⟨same.symm, chosen⟩)
          · exact Or.inr ⟨other, later, same, chosen⟩

/-- Narrowing runs the picked rows. -/
theorem narrowed_agrees {nodes : List ExpandedNode} (distinct : (nodes.map ExpandedNode.id).Nodup)
    (sel : RunSelection) : Agrees (nodes.foldl (RunState.decideOn sel) ⟨[], fun _ => none⟩) (Picked nodes sel) := by
  have undecided : Agrees ⟨[], fun _ => none⟩ (fun _ => False) := by
    refine ⟨fun id => ?_, fun id => ?_⟩
    · exact iff_of_false List.not_mem_nil (fun impossible => impossible)
    · exact iff_of_false (fun ⟨_, impossible, _⟩ => nomatch impossible) List.not_mem_nil
  have all := foldl_decideOn sel distinct undecided (fun _ _ impossible => impossible)
  refine ⟨?_, all.decided⟩
  intro id
  rw [all.run id, false_or]

/-! ## Skips -/

theorem skipToken_eq_none_iff {nodes : List ExpandedNode} (distinct : (nodes.map ExpandedNode.id).Nodup)
    (sel : RunSelection) {node : ExpandedNode} (among : node ∈ nodes) :
    sel.skipToken node = none <-> ¬Skipped nodes sel node.id := by
  unfold RunSelection.skipToken
  rw [List.find?_eq_none]
  constructor
  · rintro unmatched ⟨other, token, alsoAmong, same, asked, matched⟩
    rw [List.inj_on_of_nodup_map distinct alsoAmong among same] at matched
    exact unmatched token asked matched
  · intro kept token asked matched
    exact kept ⟨node, token, among, rfl, asked, matched⟩

theorem foldl_skipRow {nodes : List ExpandedNode} (distinct : (nodes.map ExpandedNode.id).Nodup) (sel : RunSelection)
    {rest : List ExpandedNode} (within : forall node, node ∈ rest -> node ∈ nodes) {state : RunState}
    {running : String -> Prop} (agrees : Agrees state running) :
    Agrees (rest.foldl (RunState.skipRow sel) state)
      (fun id => running id ∧ forall node, node ∈ rest -> node.id = id -> ¬Skipped nodes sel id) := by
  induction rest generalizing state running with
  | nil =>
      refine ⟨?_, agrees.decided⟩
      intro id
      rw [List.foldl_nil, agrees.run id]
      exact ⟨fun before => ⟨before, fun _ impossible => nomatch impossible⟩, And.left⟩
  | cons node rest ih =>
      have skipped := skipToken_eq_none_iff distinct sel (within node List.mem_cons_self)
      have next :
          Agrees (state.skipRow sel node) (fun id => running id ∧ (node.id = id -> ¬Skipped nodes sel id)) := by
        unfold RunState.skipRow
        by_cases seen : node.id ∈ state.run
        · rw [if_pos seen]
          cases token : sel.skipToken node with
          | none =>
              refine ⟨?_, agrees.decided⟩
              intro id
              rw [agrees.run id]
              exact ⟨fun before => ⟨before, fun same => same ▸ skipped.mp token⟩, And.left⟩
          | some removes =>
              have gone : Skipped nodes sel node.id := by
                by_contra kept
                rw [skipped.mpr kept] at token
                cases token
              constructor
              · intro id
                dsimp only
                rw [List.mem_filter, agrees.run id, bne_iff_ne]
                constructor
                · rintro ⟨before, differs⟩
                  exact ⟨before, fun same => absurd same.symm differs⟩
                · rintro ⟨before, kept⟩
                  exact ⟨before, fun same => kept same.symm (same ▸ gone)⟩
              · intro id
                dsimp only
                rw [runs_record, List.mem_filter, bne_iff_ne]
                by_cases same : id = node.id
                · rw [if_pos same]
                  exact ⟨fun impossible => absurd impossible Bool.false_ne_true, fun both => absurd same both.2⟩
                · rw [if_neg same, agrees.decided id]
                  exact ⟨fun before => ⟨before, same⟩, And.left⟩
        · rw [if_neg seen]
          refine ⟨?_, agrees.decided⟩
          intro id
          rw [agrees.run id]
          refine ⟨fun before => ⟨before, ?_⟩, And.left⟩
          intro same
          rw [same, agrees.run id] at seen
          exact absurd before seen
      have later := ih (fun other among => within other (List.mem_cons_of_mem node among)) next
      refine ⟨?_, later.decided⟩
      intro id
      rw [List.foldl_cons, later.run id, and_assoc, List.forall_mem_cons]

/-- The skipped rows leave the run set. -/
theorem kept_agrees {nodes : List ExpandedNode} (distinct : (nodes.map ExpandedNode.id).Nodup) (sel : RunSelection)
    {state : RunState} {running : String -> Prop} (agrees : Agrees state running) :
    Agrees (nodes.foldl (RunState.skipRow sel) state) (fun id => running id ∧ ¬Skipped nodes sel id) := by
  have all := foldl_skipRow distinct sel (fun _ among => among) agrees
  refine ⟨?_, all.decided⟩
  intro id
  rw [all.run id]
  constructor
  · rintro ⟨before, kept⟩
    refine ⟨before, ?_⟩
    intro skipped
    have removes := skipped
    rcases removes with ⟨node, _, among, same, _⟩
    exact kept node among same skipped
  · rintro ⟨before, kept⟩
    exact ⟨before, fun _ _ _ => kept⟩

/-! ## Edges that lead out -/

theorem mem_orphanEdges {nodes : List ExpandedNode} {run : List String} {id anc kind : String} :
    (id, anc, kind) ∈ orphanEdges nodes run <-> id ∈ run ∧ Edge nodes id anc kind ∧ anc ∉ run := by
  unfold orphanEdges
  rw [List.mem_flatMap]
  constructor
  · rintro ⟨node, among, listed⟩
    by_cases running : node.id ∈ run
    · rw [if_pos running, List.mem_map] at listed
      rcases listed with ⟨edge, outward, same⟩
      rcases List.mem_filter.mp outward with ⟨required, absent⟩
      cases same
      rw [Bool.not_eq_true', List.contains_eq_mem, decide_eq_false_iff_not] at absent
      exact ⟨running, ⟨node, among, rfl, required⟩, absent⟩
    · rw [if_neg running] at listed
      cases listed
  · rintro ⟨running, ⟨node, among, rfl, required⟩, absent⟩
    refine ⟨node, among, ?_⟩
    rw [if_pos running]
    refine List.mem_map.mpr ⟨(anc, kind), List.mem_filter.mpr ⟨required, ?_⟩, rfl⟩
    rw [Bool.not_eq_true', List.contains_eq_mem, decide_eq_false_iff_not]
    exact absent

theorem orphanEdges_congr (nodes : List ExpandedNode) {run other : List String}
    (same : forall id, id ∈ run <-> id ∈ other) : orphanEdges nodes run = orphanEdges nodes other := by
  unfold orphanEdges
  simp only [List.contains_eq_mem, same]

/-! ## The order of the reports -/

theorem mem_dedupNeighbours {text : String} {texts : List String} :
    text ∈ dedupNeighbours texts <-> text ∈ texts := by
  induction texts with
  | nil => exact Iff.rfl
  | cons one rest ih =>
      cases rest with
      | nil => exact Iff.rfl
      | cons other rest =>
          unfold dedupNeighbours
          by_cases same : one = other
          · rw [if_pos same, ih, same]
            simp only [List.mem_cons, or_self_left]
          · rw [if_neg same, List.mem_cons, ih, ← List.mem_cons]

theorem dedupNeighbours_strict {texts : List String} (sorted : texts.Pairwise (fun one other => one ≤ other)) :
    (dedupNeighbours texts).Pairwise (fun one other => one < other) := by
  induction texts with
  | nil => exact List.Pairwise.nil
  | cons one rest ih =>
      cases rest with
      | nil => exact List.pairwise_singleton _ _
      | cons other rest =>
          rcases List.pairwise_cons.mp sorted with ⟨least, sortedRest⟩
          unfold dedupNeighbours
          by_cases same : one = other
          · rw [if_pos same]
            exact ih sortedRest
          · rw [if_neg same, List.pairwise_cons]
            refine ⟨?_, ih sortedRest⟩
            intro text among
            have first : one < other := lt_of_le_of_ne (least other List.mem_cons_self) same
            rcases List.mem_cons.mp (mem_dedupNeighbours.mp among) with rfl | behind
            · exact first
            · exact lt_of_lt_of_le first ((List.pairwise_cons.mp sortedRest).1 text behind)

theorem sortDedup_strict (texts : List String) : (sortDedup texts).Pairwise (fun one other => one < other) := by
  apply dedupNeighbours_strict
  refine (List.pairwise_mergeSort ?_ ?_ texts).imp of_decide_eq_true
  · intro one other third before after
    rw [decide_eq_true_eq] at before after ⊢
    exact le_trans before after
  · intro one other
    rw [Bool.or_eq_true, decide_eq_true_eq, decide_eq_true_eq]
    exact le_total one other

/-- Sorted and without repetition, a list shows what is in it and no more. -/
theorem sortDedup_congr {texts others : List String} (same : forall text, text ∈ texts <-> text ∈ others) :
    sortDedup texts = sortDedup others := by
  apply (sortDedup_strict texts).eq_of_mem_iff (sortDedup_strict others)
  intro text
  unfold sortDedup
  rw [mem_dedupNeighbours, mem_dedupNeighbours, List.mem_mergeSort, List.mem_mergeSort, same text]

end Select
end FaucetStream
