import FaucetStream.Pipeline.EffectivelyOnce
import FaucetStream.Topology.OrderedLog

namespace FaucetStream
namespace Topology

open Json
open Library
open Governance
open Delivery
open Pipeline (Run Stage Surroundings LoopState SinkTraits RunStreamOptions cleared governedRows)

/-!
# A graph delivers exactly once

A run of the graph reads the stored positions and the tokens, plans where to
resume, and feeds every sink node.  Each node may stop anywhere, and the next
run starts over with what the sinks and the store hold.

The invariant is the one of a single pipeline, for every sink by itself: its
rows are the records its committed position covers, its token carries that
position, and the stored one is the same or an earlier one.
-/

structure SinkNode where
  id : String
  traits : SinkTraits
  options : RunStreamOptions

/-- A graph over an ordered log, with exactly-once delivery.  The pages of the
source reach every sink as they are: no transform, merge or governance. -/
structure Graph where
  origin : OrderedLog
  pipeline : String
  nodes : List SinkNode
  fromStr : String -> Option Value
  /-- A bookmark is read back from its JSON text.  This leaves out bookmarks
  with floats that `serde_json` does not read back to the last bit. -/
  reads : forall bookmark, origin.issued bookmark -> fromStr bookmark.text = some bookmark
  idempotent : forall node, node ∈ nodes -> node.traits.supportsIdempotentWrites = true
  ungoverned : forall node, node ∈ nodes -> cleared node.options.specs = true

namespace Graph

variable (graph : Graph)

def codec : StateCodec := ⟨graph.origin.source.connectorName, graph.origin.source.stateSchema, false⟩

/-- The run of a sink node. -/
def sinkRun (node : SinkNode) (resume : SinkResume) : Run where
  options := { node.options with
    pipelineName := some graph.pipeline
    row := some node.id
    stateStore := true
    stateKey := some (stateKeyOf graph.pipeline node.id)
    delivery := .exactlyOnce
    replay := some graph.origin.source.replayGuarantee
    startSeq := resume.startSeq }
  sink := node.traits

def around (node : SinkNode) : Surroundings where
  codec := graph.codec
  mode := .exactlyOnce
  governs := fun records outcome => exists state sink next,
    applyGovernance node.options.specs state sink records = .ok (outcome, next)
  opens := fun _ _ => True
  opensNative := fun _ _ => True

/-- What a sink tells before a run. -/
def tells (stages : String -> Stage) (node : SinkNode) : String × Option TopologySink :=
  (node.id, some ⟨node.traits.supportsIdempotentWrites, fun _ => .ok (stages node.id).token⟩)

/-- What a node makes of its sink, when it stops anywhere. -/
def Ran (plan : ResumePlan) (node : SinkNode) (before after : Stage) : Prop :=
  exists resume received failure later, (node.id, resume) ∈ plan.sinks ∧ graph.origin.Replays plan.start received ∧
    Reaches (graph.around node).environment ((graph.sinkRun node resume).runStream
      (sinkPages (some graph.origin.source) node.traits.dedupsByKey node.id failure resume.skipThrough received))
      before.restart later after

/-- What the store tells of the nodes. -/
def Stores (stages : String -> Stage) (store : String -> Except FaucetError (Option Value)) : Prop :=
  forall node, node ∈ graph.nodes -> store (stateKeyOf graph.pipeline node.id) = .ok (stages node.id).state

def plan (stages : String -> Stage) (store : String -> Except FaucetError (Option Value)) :
    Except FaucetError ResumePlan :=
  computeResume (some store) graph.fromStr graph.pipeline (graph.nodes.map (tells stages)) 1 .exactlyOnce
    (some graph.origin.source)

/-- The stages of all histories of runs. -/
inductive Visits : (String -> Stage) -> Prop
  | first : Visits (fun _ => Stage.empty)
  | run {before after : String -> Stage} {store : String -> Except FaucetError (Option Value)} {plan : ResumePlan}
      (visited : Visits before) (stores : graph.Stores before store) (planned : graph.plan before store = .ok plan)
      (ran : forall node, node ∈ graph.nodes -> graph.Ran plan node (before node.id) (after node.id)) : Visits after

/-! ## The invariant -/

/-- What a token says: nothing was committed, or the position in it. -/
def Committed (seq : Nat) (position : Option Value) (token : Option String) : Prop :=
  token = none ∧ seq = 0 ∧ position = none ∨
    0 < seq ∧ exists bookmark, position = some bookmark ∧ graph.origin.issued bookmark ∧
      token = some (formatTokenWithBookmark seq (some bookmark))

/-- What the store says: nothing, or the position of the token's page or of an
earlier one. -/
def Stored (seq : Nat) (position : Option Value) (state : Option Value) : Prop :=
  state = none ∨ exists bookmark stored, graph.origin.issued bookmark ∧
    state = some (graph.codec.encode (wrapState (some bookmark) stored)) ∧
    stored ≤ seq ∧ (stored = seq -> position = some bookmark)

structure Sound (seq : Nat) (position : Option Value) (stage : Stage) : Prop where
  rows : stage.rows.Perm (graph.origin.held position)
  token : graph.Committed seq position stage.token
  state : graph.Stored seq position stage.state

def Consistent (stage : Stage) : Prop := exists seq position, graph.Sound seq position stage

variable {graph} {node : SinkNode} {seq : Nat} {position : Option Value} {stage : Stage} {bookmark : Value}
  {records : List Value} {resume : SinkResume}

theorem Committed.seq_eq {token : Option String} (committed : graph.Committed seq position token) :
    (token.bind parseToken).getD 0 = seq := by
  rcases committed with ⟨absent, zero, _⟩ | ⟨_, bookmark, _, _, present⟩
  · rw [absent, zero]
    rfl
  · rw [present, Option.bind_some, parseToken_format]
    rfl

theorem Sound.consistent (sound : graph.Sound seq position stage) : graph.Consistent stage := ⟨seq, position, sound⟩

theorem Sound.commit (sound : graph.Sound seq position stage) (issued : graph.origin.issued bookmark)
    (adds : (graph.origin.held position ++ records).Perm (graph.origin.held (some bookmark))) (page : Nat) :
    graph.Sound (seq + 1) (some bookmark)
      (stage.commit page (governedRows records) (formatTokenWithBookmark (seq + 1) (some bookmark))) := by
  refine ⟨?_, Or.inr ⟨Nat.succ_pos seq, bookmark, rfl, issued, rfl⟩, ?_⟩
  · change (stage.rows ++ (governedRows records).map Pipeline.GovernedRow.record).Perm _
    rw [Pipeline.governedRows_records]
    exact (sound.rows.append_right records).trans adds
  · rcases sound.state with absent | ⟨earlier, stored, given, encoded, behind, _⟩
    · exact Or.inl absent
    · exact Or.inr ⟨earlier, stored, given, encoded, Nat.le_succ_of_le behind, fun same => by omega⟩

theorem Sound.store (sound : graph.Sound seq (some bookmark) stage) (issued : graph.origin.issued bookmark)
    (page : Nat) :
    graph.Sound seq (some bookmark) (stage.store graph.codec .exactlyOnce page (wrapState (some bookmark) seq)) :=
  ⟨sound.rows, sound.token, Or.inr ⟨bookmark, seq, issued, rfl, le_refl seq, fun _ => rfl⟩⟩

theorem Sound.restart (sound : graph.Sound seq position stage) : graph.Sound seq position stage.restart :=
  ⟨sound.rows, sound.token, sound.state⟩

/-! ## A node -/

/-- One page of the replay. -/
theorem consistent_stepPage (member : node ∈ graph.nodes) {start : Stage}
    (sound : graph.Sound seq position start) (issued : graph.origin.issued bookmark)
    (adds : (graph.origin.held position ++ records).Perm (graph.origin.held (some bookmark))) (page committedSeq : Nat)
    (fresh : committedSeq ≤ seq) (state : LoopState) (same : state.nextSeq = seq) :
    Triple (graph.around node).environment graph.Consistent (fun stage => stage = start)
      ((graph.sinkRun node resume).stepPage (.exactlyOnce committedSeq) page ⟨records, some bookmark⟩ state)
      (fun after stage => after.nextSeq = seq + 1 ∧ graph.Sound (seq + 1) (some bookmark) stage) (fun _ => True) := by
  have committed := sound.commit issued adds page
  have stored := committed.store issued page
  intro stage kept here
  refine ⟨kept, ?_⟩
  rintro answer after ⟨governs, unchanged⟩
  rw [unchanged]
  cases answer with
  | error error => exact ⟨kept, trivial⟩
  | ok outcome =>
      rcases governs outcome rfl with ⟨governance, sink, rest, governed⟩
      rw [Pipeline.applyGovernance_of_cleared (graph.ungoverned node member) governed]
      have behind : start.seq ≤ state.nextSeq := by
        rw [same]
        exact Nat.le_of_eq sound.token.seq_eq
      refine (Run.moves_exactlyOncePage (graph.sinkRun node resume) rfl rfl committedSeq _ bookmark _ state
        (by rw [same]; exact fresh) behind ?_ ?_).gives ?_
        stage kept here
      · rw [same]
        exact committed.consistent
      · rw [same]
        exact stored.consistent
      · rintro after last ⟨advanced, reached⟩
        rw [same] at advanced reached
        rw [reached]
        exact ⟨advanced, stored⟩

/-- The loop of a node, by induction on what it is fed. -/
theorem consistent_pageLoop (member : node ∈ graph.nodes) (committedSeq : Nat)
    (items : List (Except FaucetError Pipeline.StreamPage)) (page : Nat) (state : LoopState) (start : Stage)
    (sound : graph.Sound seq position start) (follows : graph.origin.Follows position items)
    (fresh : committedSeq ≤ seq) (same : state.nextSeq = seq) :
    Triple (graph.around node).environment graph.Consistent (fun stage => stage = start)
      ((graph.sinkRun node resume).pageLoop (.exactlyOnce committedSeq) items page state)
      (fun _ _ => True) (fun _ => True) := by
  induction follows generalizing seq page state start with
  | done position =>
      unfold Run.pageLoop
      refine Triple.bind _ Run.moves_isCancelled ?_
      intro stops
      split
      · exact Triple.pure (fun _ _ => trivial)
      · refine Triple.bind _ Run.moves_isCancelled ?_
        intro drained
        exact Triple.pure (fun _ _ => trivial)
  | broken position error rest =>
      unfold Run.pageLoop
      refine Triple.bind _ Run.moves_isCancelled ?_
      intro stops
      split
      · exact Triple.pure (fun _ _ => trivial)
      · exact Triple.fails
  | page issued adds more ih =>
      unfold Run.pageLoop
      refine Triple.bind _ Run.moves_isCancelled ?_
      intro stops
      split
      · exact Triple.pure (fun _ _ => trivial)
      · dsimp only
        rw [if_neg (by simp)]
        refine Triple.bind _ (consistent_stepPage member sound issued adds page committedSeq fresh state same) ?_
        rintro after stage kept ⟨advanced, reached⟩
        exact ih (page + 1) after stage reached (Nat.le_succ_of_le fresh) advanced stage kept rfl

/-- A node that resumes at its own position leaves its sink consistent wherever
it stops. -/
theorem consistent_sinkRun (member : node ∈ graph.nodes) (sound : graph.Sound seq position stage)
    (numbered : resume.startSeq = seq) {items : List (Except FaucetError Pipeline.StreamPage)}
    (follows : graph.origin.Follows position items) {later : Pipeline.Engine Pipeline.PipelineResult} {after : Stage}
    (reached : Reaches (graph.around node).environment ((graph.sinkRun node resume).runStream items) stage later
      after) : graph.Consistent after := by
  have runs : Triple (graph.around node).environment graph.Consistent (fun here => here = stage)
      ((graph.sinkRun node resume).runStream items) (fun _ _ => True) (fun _ => True) := by
    refine Run.moves_runStream (graph.sinkRun node resume) items (Run.moves_start (graph.sinkRun node resume) rfl
      (graph.idempotent node member) (congrArg some graph.origin.replays)) ?_
    rintro branch next still ⟨_, chosen, same⟩
    rw [chosen]
    exact consistent_pageLoop member stage.seq items 1 (graph.sinkRun node resume).initialState stage sound follows
      (Nat.le_of_eq sound.token.seq_eq) numbered next still same
  exact runs.reaches sound.consistent rfl reached

/-! ## Where a node resumes -/

/-- The token overrides an older stored position. -/
theorem Sound.anchored (sound : graph.Sound seq position stage) {bookmark : Option Value} {stored : Nat}
    (behind : stored ≤ seq) (same : stored = seq -> bookmark = position) :
    anchoredAt graph.fromStr bookmark stored stage.token = (position, seq) := by
  unfold anchoredAt
  rcases sound.token with ⟨absent, zero, _⟩ | ⟨_, mark, marked, issued, present⟩
  · have equal : stored = seq := by omega
    rw [absent, Option.bind_none, same equal, equal]
  · rw [present, Option.bind_some, parseTokenParts_format, graph.reads mark issued]
    dsimp only
    by_cases ahead : stored < seq
    · rw [if_pos ahead, marked]
    · have equal : stored = seq := by omega
      rw [if_neg ahead, same equal, equal]

/-- The plan is made from the position of every sink. -/
theorem Sound.committedPosition (sound : graph.Sound seq position stage) {key : String}
    {store : String -> Except FaucetError (Option Value)} (stores : store key = .ok stage.state) :
    exists stored, storedPosition store (some graph.origin.source) key = .ok stored ∧
      Topology.committedPosition graph.fromStr (some graph.origin.source) key
        (some ⟨true, fun _ => .ok stage.token⟩) stored = .ok (position, seq) := by
  have exact' : graph.origin.source.replayGuarantee == .deterministic := by
    rw [graph.origin.replays]
    rfl
  unfold storedPosition Topology.committedPosition
  rw [stores]
  dsimp only
  rw [Bool.true_and]
  rcases sound.state with absent | ⟨mark, stored, issued, encoded, behind, same⟩
  · rw [absent]
    refine ⟨none, rfl, ?_⟩
    rw [if_pos exact']
    refine congrArg Except.ok (sound.anchored (Nat.zero_le seq) (fun zero => ?_))
    have unset : 0 = seq := zero
    rcases sound.token with ⟨_, _, start⟩ | ⟨positive, _⟩
    · exact start.symm
    · omega
  · have read := resolveWith_encode graph.codec key (wrapState (some mark) stored) graph.origin.source.migrateState
      graph.origin.schema_small nofun
    change resolveWith key (graph.codec.encode (wrapState (some mark) stored)) graph.origin.source.connectorName
      graph.origin.source.stateSchema graph.origin.source.migrateState = _ at read
    have unwrapped : unwrapState (wrapState (some mark) stored) = (some mark, stored) := by
      rw [unwrapState_wrapState, graph.origin.not_null issued]
      rfl
    rw [encoded]
    refine ⟨some (wrapState (some mark) stored), ?_, ?_⟩
    · change (resolveWith _ _ _ _ _).bind _ = _
      rw [read]
      rfl
    · rw [if_pos exact', Option.map_some, unwrapped, Option.getD_some]
      exact congrArg Except.ok (sound.anchored behind (fun equal => (same equal).symm))

/-- What the invariant says of all sinks before a run. -/
def Standing (graph : Graph) (stages : String -> Stage) : Prop :=
  forall node, node ∈ graph.nodes -> graph.Consistent (stages node.id)

/-- The positions a plan is made from are those of the sinks. -/
def Positions (graph : Graph) (stages : String -> Stage) (positions : List (String × Option Value × Nat)) : Prop :=
  forall id position seq, (id, position, seq) ∈ positions -> graph.Sound seq position (stages id)

theorem positions_of_nodes (stages : String -> Stage) {store : String -> Except FaucetError (Option Value)}
    (nodes : List SinkNode) (known : forall node, node ∈ nodes -> graph.Consistent (stages node.id))
    (idempotent : forall node, node ∈ nodes -> node.traits.supportsIdempotentWrites = true)
    (stores : forall node, node ∈ nodes -> store (stateKeyOf graph.pipeline node.id) = .ok (stages node.id).state) :
    exists stored positions,
      storedPositions store (some graph.origin.source) graph.pipeline (nodes.map (tells stages)) = .ok stored ∧
      committedPositions graph.fromStr (some graph.origin.source) graph.pipeline
        ((nodes.map (tells stages)).zip stored) = .ok positions ∧ graph.Positions stages positions := by
  induction nodes with
  | nil => exact ⟨[], [], rfl, rfl, nofun⟩
  | cons node nodes ih =>
      rcases ih (fun other member => known other (List.mem_cons_of_mem node member))
        (fun other member => idempotent other (List.mem_cons_of_mem node member))
        (fun other member => stores other (List.mem_cons_of_mem node member)) with
        ⟨stored, positions, reads, commits, all⟩
      rcases known node List.mem_cons_self with ⟨seq, position, sound⟩
      rcases sound.committedPosition (stores node List.mem_cons_self) with ⟨first, read, commit⟩
      have told : tells stages node = (node.id, some ⟨true, fun _ => .ok (stages node.id).token⟩) := by
        unfold tells
        rw [idempotent node List.mem_cons_self]
      refine ⟨first :: stored, (node.id, position, seq) :: positions, ?_, ?_, ?_⟩
      · rw [List.map_cons, told]
        unfold storedPositions
        rw [read, reads]
        rfl
      · rw [List.map_cons, told, List.zip_cons_cons]
        unfold committedPositions
        rw [commit, commits]
        rfl
      · intro id position seq member
        rcases List.mem_cons.mp member with same | earlier
        · cases same
          exact sound
        · exact all id position seq earlier

/-- What a node resumes with fits its position. -/
def Fits (graph : Graph) (start : Option Value) (resume : SinkResume) (seq : Nat) (position : Option Value) : Prop :=
  resume.startSeq = seq ∧ (resume.skipThrough = none ∧ start = position ∨
    exists through, resume.skipThrough = some through ∧ position = some through ∧ graph.origin.Before start through)

theorem Sound.issued (sound : graph.Sound seq (some bookmark) stage) : graph.origin.issued bookmark := by
  rcases sound.token with ⟨_, _, impossible⟩ | ⟨_, mark, same, issued, _⟩
  · cases impossible
  · cases same
    exact issued

/-- A sink leaves out what it has when the replay does not start at its own
position. -/
theorem skipping_fits {start : Option Value} (absent : position = none -> start = none)
    (behind : forall bookmark, position = some bookmark -> graph.origin.Before start bookmark) :
    graph.Fits start ⟨seq, position.filter (fun mark => some mark != start)⟩ seq position := by
  refine ⟨rfl, ?_⟩
  cases position with
  | none => exact Or.inl ⟨rfl, absent rfl⟩
  | some bookmark =>
      dsimp only
      rw [Option.filter_some]
      by_cases same : some bookmark = start
      · rw [same, bne_self_eq_false, if_neg Bool.false_ne_true]
        exact Or.inl ⟨rfl, rfl⟩
      · rw [bne_iff_ne.mpr same, if_pos rfl]
        exact Or.inr ⟨bookmark, rfl, rfl, behind bookmark rfl⟩

/-- A plan fits when what it says of each position does. -/
theorem resumes_fit {stages : String -> Stage} {positions : List (String × Option Value × Nat)}
    (all : graph.Positions stages positions) {start : Option Value} {skip : Option Value -> Option Value}
    (fits : forall id position seq, (id, position, seq) ∈ positions ->
      graph.Fits start ⟨seq, skip position⟩ seq position) :
    forall id resume, (id, resume) ∈ resumes positions skip -> exists position seq,
      graph.Sound seq position (stages id) ∧ graph.Fits start resume seq position := by
  intro id resume member
  rcases List.mem_map.mp member with ⟨⟨_, position, seq⟩, present, same⟩
  cases same
  exact ⟨position, seq, all id position seq present, fits id position seq present⟩

/-- A plan is made, and every node resumes as its position demands. -/
theorem planExactlyOnce_fits {stages : String -> Stage} {positions : List (String × Option Value × Nat)}
    (all : graph.Positions stages positions) :
    exists plan, planExactlyOnce positions 1 (some graph.origin.source) graph.pipeline = .ok plan ∧
      forall id resume, (id, resume) ∈ plan.sinks -> exists position seq, graph.Sound seq position (stages id) ∧
        graph.Fits plan.start resume seq position := by
  unfold planExactlyOnce
  rw [if_neg (by decide)]
  dsimp only
  generalize collected : positions.filterMap (fun position => position.2.1) = known
  have mem_known : forall {id bookmark seq}, (id, some bookmark, seq) ∈ positions -> bookmark ∈ known := by
    intro id bookmark seq member
    rw [← collected]
    exact List.mem_filterMap.mpr ⟨_, member, rfl⟩
  have issued : forall bookmark, bookmark ∈ known -> graph.origin.issued bookmark := by
    intro bookmark member
    rw [← collected] at member
    rcases List.mem_filterMap.mp member with ⟨⟨id, position, seq⟩, present, same⟩
    have marked : position = some bookmark := same
    rw [marked] at present
    exact (all id _ seq present).issued
  have complete : known.length = positions.length -> forall id position seq, (id, position, seq) ∈ positions ->
      position ≠ none := by
    intro long id position seq member
    rw [← collected] at long
    exact Option.isSome_iff_ne_none.mp (List.filterMap_length_eq_length.mp long _ member)
  split
  · rename_i agreed
    rw [Bool.and_eq_true, beq_iff_eq, List.all_eq_true] at agreed
    refine ⟨_, rfl, resumes_fit all (fun id position seq present => ⟨rfl, Or.inl ⟨rfl, ?_⟩⟩)⟩
    rcases Option.ne_none_iff_exists'.mp (complete agreed.1 id position seq present) with ⟨bookmark, rfl⟩
    exact (beq_iff_eq.mp (agreed.2 bookmark (mem_known present))).symm
  · rw [Option.bind_some]
    cases first : known with
    | nil =>
        -- no sink has committed anything
        rw [first] at collected
        have fresh : forall id position seq, (id, position, seq) ∈ positions -> position = none ∧ seq = 0 := by
          intro id position seq member
          have unknown : position = none := List.filterMap_eq_nil_iff.mp collected _ member
          refine ⟨unknown, ?_⟩
          rcases (all id position seq member).token with ⟨_, zero, _⟩ | ⟨_, mark, same, _⟩
          · exact zero
          · rw [unknown] at same
            cases same
        have unmarked : positions.all (fun entry => entry.2.1.isNone && entry.2.2 == 0) = true := by
          rw [List.all_eq_true]
          rintro ⟨id, position, seq⟩ member
          rcases fresh id position seq member with ⟨unknown, zero⟩
          dsimp only
          rw [unknown, zero]
          rfl
        refine ⟨⟨none, resumes positions (fun _ => none)⟩, if_pos unmarked, ?_⟩
        exact resumes_fit all (fun id position seq present =>
          ⟨rfl, Or.inl ⟨rfl, (fresh id position seq present).1.symm⟩⟩)
    | cons head rest =>
        rw [← first]
        have given := issued head (by rw [first]; exact List.mem_cons_self)
        have ordered : known.head?.any (fun mark => (graph.origin.source.positionLe mark mark).isSome) = true := by
          rw [first, List.head?_cons, Option.any_some]
          rcases graph.origin.total given given with le | le <;> rw [le] <;> rfl
        unfold planOrdered
        rw [if_pos ordered]
        dsimp only
        by_cases long : known.length = positions.length
        · have nonempty : known ≠ [] := by
            rw [first]
            exact List.cons_ne_nil head rest
          rcases graph.origin.least nonempty issued with ⟨start, found, allowed, least⟩
          rw [if_pos (beq_iff_eq.mpr long), found]
          refine ⟨_, rfl, resumes_fit all (fun id position seq present => skipping_fits ?_ ?_)⟩
          · exact fun unknown => absurd unknown (complete long id position seq present)
          · rintro bookmark rfl
            exact OrderedLog.before_of_le allowed (issued bookmark (mem_known present))
              (least bookmark (mem_known present))
        · rw [beq_eq_false_iff_ne.mpr long]
          exact ⟨_, rfl, resumes_fit all (fun _ _ _ _ => skipping_fits (fun _ => rfl)
            (fun _ _ => OrderedLog.before_none))⟩

/-- Before every run a plan is made. -/
theorem Standing.planned {stages : String -> Stage} (standing : graph.Standing stages)
    {store : String -> Except FaucetError (Option Value)} (stores : graph.Stores stages store) :
    exists plan, graph.plan stages store = .ok plan ∧
      forall id resume, (id, resume) ∈ plan.sinks -> exists position seq, graph.Sound seq position (stages id) ∧
        graph.Fits plan.start resume seq position := by
  rcases positions_of_nodes stages graph.nodes standing graph.idempotent stores with
    ⟨stored, positions, reads, commits, all⟩
  rcases planExactlyOnce_fits all with ⟨plan, planned, fits⟩
  unfold Graph.plan computeResume
  dsimp only
  by_cases empty : graph.nodes = []
  · rw [empty]
    exact ⟨⟨none, []⟩, rfl, nofun⟩
  · refine ⟨plan, ?_, fits⟩
    rw [if_neg (fun impossible => empty (List.map_eq_nil_iff.mp (List.isEmpty_iff.mp impossible))), reads]
    change Except.bind (committedPositions _ _ _ _) _ = _
    rw [commits]
    exact planned

theorem Visits.standing {stages : String -> Stage} (visited : graph.Visits stages) : graph.Standing stages := by
  induction visited with
  | first => exact fun _ _ => ⟨0, none, List.Perm.of_eq (List.filter_eq_nil_iff.mpr
      (fun _ _ => Bool.false_ne_true)).symm, Or.inl ⟨rfl, rfl, rfl⟩, Or.inl rfl⟩
  | @run before after store plan visited stores planned ran ih =>
      intro node member
      rcases ih.planned stores with ⟨same, made, fits⟩
      rw [made] at planned
      cases planned
      rcases ran node member with ⟨resume, received, failure, later, entry, replays, reached⟩
      rcases fits node.id resume entry with
        ⟨position, seq, sound, numbered, ⟨plain, start⟩ | ⟨through, skips, here, behind⟩⟩
      · rw [plain] at reached
        rw [start] at replays
        exact consistent_sinkRun member sound.restart numbered (OrderedLog.follows_plain replays) reached
      · rw [skips] at reached
        rw [here] at sound
        exact consistent_sinkRun member sound.restart numbered
          (OrderedLog.follows_skipping replays sound.issued behind) reached

/-- The position in the token a sink has committed. -/
def committedAt (graph : Graph) (stage : Stage) : Option Value :=
  (stage.token.bind (parseTokenParts graph.fromStr)).bind Prod.snd

theorem Committed.position_eq {token : Option String} (committed : graph.Committed seq position token) :
    (token.bind (parseTokenParts graph.fromStr)).bind Prod.snd = position := by
  rcases committed with ⟨absent, _, start⟩ | ⟨_, mark, marked, issued, present⟩
  · rw [absent, start]
    rfl
  · rw [present, Option.bind_some, parseTokenParts_format, graph.reads mark issued, marked]
    rfl

end Graph

/-- In every history of runs of a graph, each node stopped anywhere in each run
and the pages of every replay cut anywhere, each sink holds exactly the records
that its committed position covers, each as often as the log has it; and the
next run is never refused. -/
theorem graph_rows_exactly_once (graph : Graph) (stages : String -> Stage) (visited : graph.Visits stages) :
    (forall node, node ∈ graph.nodes ->
      (stages node.id).rows.Perm (graph.origin.held (graph.committedAt (stages node.id)))) ∧
      forall store, graph.Stores stages store -> exists plan, graph.plan stages store = .ok plan := by
  have standing := visited.standing
  refine ⟨?_, ?_⟩
  · intro node member
    rcases standing node member with ⟨seq, position, sound⟩
    unfold Graph.committedAt
    rw [sound.token.position_eq]
    exact sound.rows
  · intro store stores
    rcases standing.planned stores with ⟨plan, planned, _⟩
    exact ⟨plan, planned⟩

/-! ### A sink that stops behind the other -/

def sampleMark : Value := .number (.int 1)

def samplePositions : PositionSource where
  connectorName := "log"
  stateSchema := 0
  migrateState := fun _ bookmark => .ok bookmark
  replayGuarantee := .deterministic
  positionLe := fun _ _ => some true
  positionMin := List.head?
  recordCovered := fun _ _ => some true

/-- One record, with the bookmark behind it. -/
def sampleOrderedLog : OrderedLog where
  log := [sampleMark]
  source := samplePositions
  issued := fun bookmark => bookmark = sampleMark
  not_null := by
    rintro _ rfl
    rfl
  total := fun _ _ => Or.inl rfl
  monotone := fun _ _ _ _ _ => rfl
  classified := fun _ _ => rfl
  least := by
    intro positions nonempty given
    cases positions with
    | nil => exact absurd rfl nonempty
    | cons first rest => exact ⟨first, rfl, given first List.mem_cons_self, fun _ _ => rfl⟩
  replays := rfl
  schema_small := by decide

def sampleNode (id : String) : SinkNode :=
  ⟨id, ⟨"sink", true, false, false, false⟩, Pipeline.sampleExactlyOnce.run.options⟩

def sampleGraph : Graph where
  origin := sampleOrderedLog
  pipeline := "p"
  nodes := [sampleNode "a", sampleNode "b"]
  fromStr := fun text => if text = sampleMark.text then some sampleMark else none
  reads := by
    rintro _ rfl
    exact if_pos rfl
  idempotent := by decide
  ungoverned := by decide

def samplePage : Pipeline.StreamPage := ⟨[sampleMark], some sampleMark⟩

theorem samplePage_replays : sampleOrderedLog.Replays none [samplePage] := .page rfl (by decide) (.done _)

/-- The stage of a node behind a run in which everything succeeds, apart from
the store when it is down. -/
def sampleRan (id : String) (storeDown : Bool) (resume : SinkResume) (received : List Pipeline.StreamPage)
    (stage : Stage) : Stage :=
  (execute (Pipeline.sampleAnswers storeDown) ((sampleGraph.sinkRun (sampleNode id) resume).runStream
    (sinkPages (some samplePositions) false id none resume.skipThrough received)) stage.restart).2

/-- The store is down when `a` has committed its page, and `b` gets none. -/
def sampleBehind (id : String) : Stage :=
  if id = "a" then sampleRan "a" true ⟨0, none⟩ [samplePage] Stage.empty
  else sampleRan "b" false ⟨0, none⟩ [] Stage.empty

def sampleCaughtUp (id : String) : Stage :=
  if id = "a" then sampleRan "a" false ⟨1, some sampleMark⟩ [samplePage] (sampleBehind "a")
  else sampleRan "b" false ⟨0, none⟩ [samplePage] (sampleBehind "b")

def sampleStore (stages : String -> Stage) (key : String) : Except FaucetError (Option Value) :=
  .ok (stages (if key = stateKeyOf "p" "a" then "a" else "b")).state

theorem sampleAnswers_around (id : String) (storeDown : Bool) (op : Pipeline.Op) (stage : Stage) :
    (sampleGraph.around (sampleNode id)).environment op stage (Pipeline.sampleAnswers storeDown op stage).1
      (Pipeline.sampleAnswers storeDown op stage).2 := by
  have alike := Pipeline.sampleAnswers_possible storeDown op stage
  cases op with
  | streamPages => exact ⟨trivial, rfl⟩
  | _ => exact alike

theorem sampleRan_reaches (id : String) (storeDown : Bool) (resume : SinkResume)
    (received : List Pipeline.StreamPage) (stage : Stage) {plan : ResumePlan}
    (entry : (id, resume) ∈ plan.sinks) (replays : sampleOrderedLog.Replays plan.start received) :
    sampleGraph.Ran plan (sampleNode id) stage (sampleRan id storeDown resume received stage) :=
  ⟨resume, received, none, _, entry, replays,
    reaches_execute (Pipeline.sampleAnswers storeDown) (sampleAnswers_around id storeDown) _ stage.restart⟩

theorem sampleBehind_visits : sampleGraph.Visits sampleBehind := by
  refine @Graph.Visits.run sampleGraph _ _ (sampleStore (fun _ => Stage.empty))
    ⟨none, [("a", ⟨0, none⟩), ("b", ⟨0, none⟩)]⟩ .first (fun _ _ => rfl) (by decide +kernel) ?_
  intro node member
  rcases List.mem_cons.mp member with rfl | last
  · exact sampleRan_reaches "a" true ⟨0, none⟩ _ _ (by decide) samplePage_replays
  · rw [List.mem_singleton.mp last]
    exact sampleRan_reaches "b" false ⟨0, none⟩ _ _ (by decide) (.done _)

theorem sampleCaughtUp_visits : sampleGraph.Visits sampleCaughtUp := by
  refine @Graph.Visits.run sampleGraph _ _ (sampleStore sampleBehind)
    ⟨none, [("a", ⟨1, some sampleMark⟩), ("b", ⟨0, none⟩)]⟩ sampleBehind_visits ?_ (by decide +kernel) ?_
  · intro node member
    rcases List.mem_cons.mp member with rfl | last
    · rfl
    · rw [List.mem_singleton.mp last]
      rfl
  · intro node member
    rcases List.mem_cons.mp member with rfl | last
    · exact sampleRan_reaches "a" false ⟨1, some sampleMark⟩ _ _ (by decide) samplePage_replays
    · rw [List.mem_singleton.mp last]
      exact sampleRan_reaches "b" false ⟨0, none⟩ _ _ (by decide) samplePage_replays

/-- In the second run `a` leaves out the page it has and `b` takes it. -/
theorem graph_rows_exactly_once_sample :
    (sampleCaughtUp "a").rows = [sampleMark] ∧ (sampleCaughtUp "b").rows = [sampleMark] ∧
      ((sampleCaughtUp "b").rows.Perm
        (sampleGraph.origin.held (sampleGraph.committedAt (sampleCaughtUp "b")))) :=
  ⟨by decide +kernel, by decide +kernel, (graph_rows_exactly_once sampleGraph sampleCaughtUp sampleCaughtUp_visits).1
    (sampleNode "b") (List.mem_cons_of_mem _ List.mem_cons_self)⟩

end Topology
end FaucetStream
