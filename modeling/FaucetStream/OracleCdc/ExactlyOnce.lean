import FaucetStream.OracleCdc.Mining

namespace FaucetStream
namespace OracleCdc

open Json

/-!
# Every transaction once and in full

The invariant of one run is carried through a sequence of runs: from the first
position, over every kept part of a run's pages, to the bookmark the next run
starts from.
-/

variable {Buffer Event : Type} {decoder : Decoder Buffer Event} {history : History} {current : Nat}

/-! ## The first position -/

theorem resumeFrom_restartScn (current : Nat) (oldest : Option Nat) (scnBound : current + 1 < 2 ^ 64) :
    0 < (Position.resumeFrom current oldest).restartScn ∧
      (Position.resumeFrom current oldest).restartScn ≤ current + 1 ∧
      forall start, oldest = some start -> 0 < start -> (Position.resumeFrom current oldest).restartScn ≤ start := by
  have succ : saturatingSucc current = current + 1 := by rw [saturatingSucc]; omega
  simp only [Position.resumeFrom, Position.atScn, succ]
  cases oldest with
  | none =>
      refine ⟨?_, Nat.min_le_right _ _, fun start same => by cases same⟩
      simp
  | some start =>
      by_cases positive : 0 < start
      · rw [Option.filter_some_pos (by simpa using positive)]
        refine ⟨by simp [positive], Nat.min_le_right _ _, ?_⟩
        intro other same _
        cases Option.some.inj same
        dsimp only
        omega
      · rw [Option.filter_some_neg (by simpa using positive)]
        refine ⟨by simp, Nat.min_le_right _ _, ?_⟩
        intro other same otherPositive
        cases Option.some.inj same
        exact absurd otherPositive positive

theorem safe_resumeFrom {oldest : Option Nat} (scnBound : current + 1 < 2 ^ 64)
    (reachesBack : ReachesBack history current oldest)
    (apart : Apart history current (Position.resumeFrom current oldest).restartScn) :
    Safe decoder history current (Position.resumeFrom current oldest) := by
  rcases resumeFrom_restartScn current oldest scnBound with ⟨positive, bounded, least⟩
  refine ⟨positive, Nat.le_refl _, fun row member commit => ?_⟩
  have untouched : (forall other, other ∈ history.rows -> other.xid = row.xid ->
      (Position.resumeFrom current oldest).restartScn ≤ other.scn) ->
      assemble decoder ((rowsOf history.rows row.xid).filter
        (fun other => decide (other.scn < (Position.resumeFrom current oldest).restartScn))) = .ok none := by
    intro above
    have none : (rowsOf history.rows row.xid).filter
        (fun other => decide (other.scn < (Position.resumeFrom current oldest).restartScn)) = [] := by
      refine List.filter_eq_nil_iff.mpr (fun other found => ?_)
      rw [decide_eq_true_eq]
      exact Nat.not_lt.mpr (above other (mem_rowsOf.mp found).1 (mem_rowsOf.mp found).2)
    rw [none]
    rfl
  rcases Nat.lt_trichotomy row.scn current with before | same | after
  · exact .inl (.inl ((Position.alreadyEmitted_iff _ _ _).mpr (.inl before)))
  · by_cases mined : (Position.resumeFrom current oldest).restartScn ≤ current
    · have above := apart row member commit same mined
      exact .inr (.inr ⟨above row member rfl, untouched above⟩)
    · exact .inr (.inl ⟨Nat.le_of_eq same, by omega⟩)
  · refine .inr (.inr ⟨by omega, untouched ?_⟩)
    intro other found sameXid
    by_cases begun : other.scn ≤ current
    · -- A transaction begun by then is open at `current`: its only end lies after.
      have openThere : OpenAt history current other := by
        refine ⟨found, begun, fun last inside lastXid ends => ?_⟩
        rcases List.append_of_mem member with ⟨earlier, later, split⟩
        rcases List.append_of_mem inside with ⟨earlier', later', split'⟩
        have sameEnd := history.split_unique split split' (.inl commit) ends (sameXid.symm.trans lastXid.symm)
        rw [← sameEnd.2.1]
        exact after
      rcases reachesBack other openThere with ⟨start, isSome, startPositive, below⟩
      exact Nat.le_trans (least start isSome startPositive) below
    · omega

theorem settled_resumeFrom {oldest : Option Nat} (scnBound : current + 1 < 2 ^ 64)
    (reachesBack : ReachesBack history current oldest)
    (apart : Apart history current (Position.resumeFrom current oldest).restartScn) :
    Settled decoder history current [] (Position.resumeFrom current oldest) := by
  refine ⟨safe_resumeFrom scnBound reachesBack apart, ?_, List.nodup_nil, ?_, ?_⟩
  · intro committed member
    cases member
  · intro committed member
    cases member
  · intro committed _ _ after emitted
    rcases (Position.alreadyEmitted_iff _ _ _).mp emitted with below | ⟨_, member⟩
    · exact absurd below (Nat.not_lt.mpr (Nat.le_of_lt after))
    · cases member

/-- Binding a position to an incarnation leaves its SCNs. -/
theorem bound_fields {position next : Position} {resetlogs : Nat} {pdb : Option Nat}
    (binds : bound position resetlogs pdb = .ok next) :
    next.commitScn = position.commitScn ∧ next.restartScn = position.restartScn ∧
      next.committedXids = position.committedXids := by
  rcases bind_eq_ok binds with ⟨middle, first, second⟩
  have firstFields : middle.commitScn = position.commitScn ∧ middle.restartScn = position.restartScn ∧
      middle.committedXids = position.committedXids := by
    rw [Position.bindIncarnation] at first
    split at first
    · split at first
      · cases first
      · cases Except.ok.inj first
        exact ⟨rfl, rfl, rfl⟩
    · cases Except.ok.inj first
      exact ⟨rfl, rfl, rfl⟩
  have secondFields : next.commitScn = middle.commitScn ∧ next.restartScn = middle.restartScn ∧
      next.committedXids = middle.committedXids := by
    cases pdb with
    | none =>
        cases Except.ok.inj second
        exact ⟨rfl, rfl, rfl⟩
    | some pdb =>
        rw [Position.bindPdbIncarnation] at second
        split at second
        · split at second
          · cases second
          · cases Except.ok.inj second
            exact ⟨rfl, rfl, rfl⟩
        · cases Except.ok.inj second
          exact ⟨rfl, rfl, rfl⟩
  exact ⟨secondFields.1.trans firstFields.1, secondFields.2.1.trans firstFields.2.1,
    secondFields.2.2.trans firstFields.2.2⟩

theorem Settled.bound {kept : List (Committed Event)} {position next : Position} {resetlogs : Nat} {pdb : Option Nat}
    (settled : Settled decoder history current kept position) (binds : bound position resetlogs pdb = .ok next) :
    Settled decoder history current kept next := by
  rcases bound_fields binds with ⟨commitScn, restartScn, committedXids⟩
  have same : forall scn xid, next.alreadyEmitted scn xid = position.alreadyEmitted scn xid := by
    intro scn xid
    simp only [Position.alreadyEmitted, commitScn, committedXids]
  refine settled.moved ⟨?_, ?_, ?_⟩ ?_ ?_
  · rw [restartScn]
    exact settled.safe.positive
  · rw [commitScn]
    exact settled.safe.anchored
  · intro row member commit
    rw [same, restartScn]
    exact settled.safe.fate row member commit
  · intro scn xid emitted
    rw [same]
    exact emitted
  · intro committed _ _ _ emitted
    rw [same] at emitted
    exact emitted

/-! ## Whole sequences of runs -/

variable (decoder history current)

/-- The store holds no bookmark yet, or one that what is kept is settled at. -/
def Bookmarked (kept : List (Committed Event)) (stored : Option Value) : Prop :=
  (kept = [] ∧ stored = none) ∨
    exists position : Position, stored = some position.toValue ∧ Settled decoder history current kept position

structure Capturing (kept : List (Committed Event)) (stored : Option Value) (run : Run Buffer Event) : Prop where
  mining : exists begun skipped mined later, Mining decoder history current begun skipped mined later run
  settled : Settled decoder history current (kept ++ carried run.pages ++ run.agg) run.position
  pages : forall count, Bookmarked decoder history current (kept ++ carried (run.pages.take count))
    (lastBookmark stored (run.pages.take count))
  single : run.perTxn = true -> run.agg = []
  drained : run.phase = .finished -> run.agg = []

variable {decoder history current} {kept : List (Committed Event)} {stored : Option Value}

theorem carried_concat (pages : List (Page Event)) (page : Page Event) :
    carried (pages ++ [page]) = carried pages ++ page.records := by
  rw [carried, carried, List.flatMap_append, List.flatMap_singleton]

/-- One more page, settled at its bookmark. -/
theorem pages_concat {pages : List (Page Event)} {records : List (Committed Event)} {position : Position}
    (before : forall count, Bookmarked decoder history current (kept ++ carried (pages.take count))
      (lastBookmark stored (pages.take count)))
    (settled : Settled decoder history current (kept ++ carried pages ++ records) position) (count : Nat) :
    Bookmarked decoder history current (kept ++ carried ((pages ++ [Page.mk records position.toValue]).take count))
      (lastBookmark stored ((pages ++ [Page.mk records position.toValue]).take count)) := by
  by_cases within : count ≤ pages.length
  · rw [List.take_append_of_le_length within]
    exact before count
  · have all : (pages ++ [Page.mk records position.toValue]).take count = pages ++
      [Page.mk records position.toValue] := by
      refine List.take_of_length_le ?_
      rw [List.length_append, List.length_singleton]
      omega
    rw [all, carried_concat, ← List.append_assoc]
    refine .inr ⟨position, ?_, settled⟩
    rw [lastBookmark, List.getLast?_concat]
    rfl

theorem Capturing.start {position : Position} (settled : Settled decoder history current kept position) (perTxn : Bool)
    {pages : List (Page Event)} (silent : carried pages = [])
    (bookmarked : forall count, Bookmarked decoder history current (kept ++ carried (pages.take count))
      (lastBookmark stored (pages.take count))) :
    Capturing decoder history current kept stored (Run.start perTxn position pages : Run Buffer Event) := by
  refine ⟨⟨_, _, _, _, Mining.of_safe settled.safe perTxn pages⟩, ?_, bookmarked, fun _ => rfl, fun _ => rfl⟩
  change Settled decoder history current (kept ++ carried pages ++ []) position
  rw [silent, List.append_nil, List.append_nil]
  exact settled

/-- What a row does to a run: nothing is emitted, or one transaction goes to
a page or to the aggregate. -/
theorem Run.onRow_cases {run next : Run Buffer Event} {row : LogRow} {due : Bool}
    (single : run.perTxn = true -> run.agg = [])
    (done : run.onRow decoder row due = .ok next) :
    exists miner released, run.miner.apply decoder row = .ok (miner, released) ∧
      ((next = { run with miner := miner } ∧ forall committed, released = some committed ->
          committed.events = [] ∨ run.position.alreadyEmitted committed.commitScn committed.xid = true) ∨
        exists committed, released = some committed ∧ committed.events ≠ [] ∧
          ¬ run.position.alreadyEmitted committed.commitScn committed.xid = true ∧
          (next = { run with
              miner := miner
              position := run.position.recordCommit committed.commitScn committed.xid miner.oldestOpen
              agg := []
              pages := run.pages ++ [⟨run.agg ++ [committed],
                (run.position.recordCommit committed.commitScn committed.xid miner.oldestOpen).toValue⟩] } ∨
            (run.perTxn = false ∧ next = { run with
              miner := miner
              position := run.position.recordCommit committed.commitScn committed.xid miner.oldestOpen
              agg := run.agg ++ [committed] }))) := by
  rcases bind_eq_ok done with ⟨⟨miner, released⟩, applied, done⟩
  refine ⟨miner, released, applied, ?_⟩
  cases released with
  | none => exact .inl ⟨(Except.ok.inj done).symm, fun committed absurdity => by cases absurdity⟩
  | some committed =>
      dsimp only at done
      split at done
      · next skipped =>
        refine .inl ⟨(Except.ok.inj done).symm, fun other same => ?_⟩
        cases Option.some.inj same
        rw [Bool.or_eq_true, List.isEmpty_iff] at skipped
        exact skipped
      · next emitted =>
        rw [Bool.or_eq_true, List.isEmpty_iff, not_or] at emitted
        refine .inr ⟨committed, rfl, emitted.1, emitted.2, ?_⟩
        split at done
        · next perTxn =>
          refine .inl ?_
          rw [← Except.ok.inj done, single perTxn]
          rfl
        · next aggregated =>
          split at done
          · exact .inl (Except.ok.inj done).symm
          · exact .inr ⟨Bool.eq_false_iff.mpr aggregated, (Except.ok.inj done).symm⟩

namespace Capturing

theorem openWindow {run : Run Buffer Event} (capturing : Capturing decoder history current kept stored run)
    (waits : run.phase = .waiting) {endScn : Nat} (ahead : run.fromScn < endScn) :
    Capturing decoder history current kept stored (run.openWindow history endScn) := by
  rcases capturing.mining with ⟨begun, skipped, mined, later, mining⟩
  exact ⟨⟨_, _, _, _, mining.openWindow waits ahead⟩, capturing.settled, capturing.pages, capturing.single,
    nofun⟩

theorem onRow {run next : Run Buffer Event} (capturing : Capturing decoder history current kept stored run)
    (tidy : Tidy decoder history) {endScn : Nat} {before : Position} {row : LogRow} {pending : List LogRow} {due : Bool}
    (mines : run.phase = .mining endScn before (row :: pending)) (done : run.onRow decoder row due = .ok next) :
    Capturing decoder history current kept stored { next with phase := .mining endScn before pending } := by
  rcases capturing.mining with ⟨begun, skipped, mined, later, mining⟩
  rcases Run.onRow_cases capturing.single done with
    ⟨miner, released, applied, ⟨rfl, quiet⟩ | ⟨committed, rfl, changes, missing, ends⟩⟩
  · refine ⟨⟨begun, skipped, mined ++ [row], later,
      mining.apply_row mines applied rfl rfl (fun _ _ emitted => emitted) ?_⟩,
      capturing.settled, capturing.pages, capturing.single, nofun⟩
    intro commit fresh
    have whole := mining.outcome_whole applied commit fresh
    cases released with
    | none => exact .inr ⟨_, _, none, mining.split_at_row mines, whole, fun committed absurdity => by cases absurdity⟩
    | some committed =>
        rcases quiet committed rfl with empty | emitted
        · refine .inr ⟨_, _, some committed, mining.split_at_row mines, whole, fun other same => ?_⟩
          rw [← Option.some.inj same]
          exact empty
        · rcases outcome_fields whole with ⟨xid, scn⟩
          rw [xid, scn] at emitted
          exact .inl emitted
  · have page : forall (next : Run Buffer Event), next.miner = miner -> next.fromScn = run.fromScn ->
        next.phase = .mining endScn before pending ->
        next.position = run.position.recordCommit committed.commitScn committed.xid miner.oldestOpen ->
        (exists begun skipped mined later, Mining decoder history current begun skipped mined later next) ∧
          Settled decoder history current (kept ++ carried run.pages ++ (run.agg ++ [committed])) next.position := by
      intro next sameMiner sameFrom phase position
      have both := mining.emit tidy capturing.settled mines (sameMiner ▸ applied) changes missing sameFrom
        phase (sameMiner ▸ position)
      rw [← List.append_assoc]
      exact ⟨⟨_, _, _, _, both.1⟩, both.2⟩
    rcases ends with rfl | ⟨aggregated, rfl⟩
    · rcases page { run with
          miner := miner
          position := run.position.recordCommit committed.commitScn committed.xid miner.oldestOpen
          agg := []
          phase := .mining endScn before pending
          pages := run.pages ++ [⟨run.agg ++ [committed],
            (run.position.recordCommit committed.commitScn committed.xid miner.oldestOpen).toValue⟩] } rfl rfl rfl rfl
        with ⟨nextMining, settled⟩
      refine ⟨nextMining, ?_, pages_concat capturing.pages settled, fun _ => rfl, nofun⟩
      dsimp only
      rw [carried_concat, List.append_nil, ← List.append_assoc]
      exact settled
    · rcases page { run with
          miner := miner
          position := run.position.recordCommit committed.commitScn committed.xid miner.oldestOpen
          phase := .mining endScn before pending
          agg := run.agg ++ [committed] } rfl rfl rfl rfl with ⟨nextMining, settled⟩
      refine ⟨nextMining, settled, capturing.pages, fun perTxn => ?_, nofun⟩
      rw [aggregated] at perTxn
      cases perTxn

theorem closeWindow {run : Run Buffer Event} (capturing : Capturing decoder history current kept stored run)
    (scnBound : current + 1 < 2 ^ 64) {endScn : Nat} {before : Position} (mines : run.phase = .mining endScn before [])
    (reach : WithinReach run endScn) :
    Capturing decoder history current kept stored (run.closeWindow endScn before) := by
  rcases capturing.mining with ⟨begun, skipped, mined, later, mining⟩
  rcases mining.close scnBound capturing.settled mines reach with ⟨nextMining, settled⟩
  have pages : (run.closeWindow endScn before).pages = run.pages ∨ (run.perTxn = true ∧
      (run.closeWindow endScn before).pages =
        run.pages ++ [⟨[], (run.closeWindow endScn before).position.toValue⟩]) := by
    by_cases announced : (run.perTxn && decide (run.position.advanceTo endScn run.miner.oldestOpen ≠ before)) = true
    · exact .inr ⟨(Bool.and_eq_true_iff.mp announced).1, if_pos announced⟩
    · exact .inl (if_neg announced)
  rcases pages with same | ⟨perTxn, more⟩
  · refine ⟨⟨_, _, _, _, nextMining⟩, ?_, ?_, capturing.single, nofun⟩
    · rw [same]
      exact settled
    · rw [same]
      exact capturing.pages
  · have none := capturing.single perTxn
    have atPages : Settled decoder history current (kept ++ carried run.pages ++ [])
        (run.closeWindow endScn before).position := by
      rw [none] at settled
      exact settled
    refine ⟨⟨_, _, _, _, nextMining⟩, ?_, ?_, capturing.single, nofun⟩
    · rw [more, carried_concat, List.append_nil]
      exact settled
    · rw [more]
      exact pages_concat capturing.pages atPages

theorem finish {run : Run Buffer Event} (capturing : Capturing decoder history current kept stored run)
    (waits : run.phase = .waiting) : Capturing decoder history current kept stored run.finish := by
  rcases capturing.mining with ⟨begun, skipped, mined, later, mining⟩
  -- Nothing of the redo is read: the invariant is that of a run between two windows.
  have still : forall next : Run Buffer Event, next.phase = .finished -> next.fromScn = run.fromScn ->
      next.miner = run.miner -> next.position = run.position ->
      Mining decoder history current begun skipped mined later next := by
    intro next phase sameFrom sameMiner samePosition
    have pendingOld : run.phase.pending = next.phase.pending := by rw [waits, phase]; rfl
    have limitSame : run.limit = next.limit := by simp only [Run.limit, waits, phase, sameFrom]
    refine ⟨?_, mining.positive, sameFrom ▸ mining.since, ?_, mining.early, ?_, ?_, ?_, sameMiner ▸ mining.slots,
      sameMiner ▸ mining.openings, ?_⟩
    · rw [← pendingOld]
      exact mining.rows
    · rw [← limitSame, sameFrom]
      exact mining.forward
    · rw [← pendingOld]
      exact mining.inside
    · rw [← pendingOld, ← limitSame]
      exact mining.past
    · rw [← limitSame]
      exact mining.ahead
    · rw [← pendingOld, samePosition]
      exact mining.fate
  rw [Run.finish]
  split
  · next perTxn =>
    exact ⟨⟨_, _, _, _, still _ rfl rfl rfl rfl⟩, capturing.settled, capturing.pages, capturing.single,
      fun _ => capturing.single perTxn⟩
  · refine ⟨⟨_, _, _, _, still _ rfl rfl rfl rfl⟩, ?_, pages_concat capturing.pages capturing.settled, fun _ => rfl,
      fun _ => rfl⟩
    dsimp only
    rw [carried_concat, List.append_nil, ← List.append_assoc]
    exact capturing.settled

theorem step {run next : Run Buffer Event} (capturing : Capturing decoder history current kept stored run)
    (scnBound : current + 1 < 2 ^ 64) (tidy : Tidy decoder history)
    (moves : run.Step decoder history WithinReach next) : Capturing decoder history current kept stored next := by
  cases moves with
  | openWindow waits ahead => exact capturing.openWindow waits ahead
  | onRow mines done => exact capturing.onRow tidy mines done
  | closeWindow mines granted => exact capturing.closeWindow scnBound mines granted
  | finish waits => exact capturing.finish waits

end Capturing

/-- The invariant of the whole system. -/
theorem invariant_of_reaches {oldest : Option Nat} (scnBound : current + 1 < 2 ^ 64)
    (reachesBack : ReachesBack history current oldest)
    (apart : Apart history current (Position.resumeFrom current oldest).restartScn) (tidy : Tidy decoder history)
    {system : System Buffer Event}
    (reached : System.Reaches decoder history (Position.resumeFrom current oldest) WithinReach system) :
    Bookmarked decoder history current system.kept system.stored ∧
      forall run, system.run = some run -> Capturing decoder history current system.kept system.stored run := by
  induction reached with
  | initial => exact ⟨.inl ⟨rfl, rfl⟩, fun run absurdity => by cases absurdity⟩
  | @step system next reached moves ih =>
      rcases ih with ⟨bookmarked, capturing⟩
      cases moves with
      | @first perTxn resetlogs pdb position idle fresh binds =>
          refine ⟨bookmarked, fun run same => ?_⟩
          cases Option.some.inj same
          rcases bookmarked with ⟨none, _⟩ | ⟨saved, found, _⟩
          · have first : Settled decoder history current [] (Position.resumeFrom current oldest) :=
              settled_resumeFrom scnBound reachesBack apart
            have settled := first.bound binds
            rw [none]
            refine Capturing.start settled perTxn ?_ ?_
            · cases perTxn <;> rfl
            · intro count
              cases perTxn with
              | false =>
                  change Bookmarked decoder history current ([] ++ carried (([] : List (Page Event)).take count))
                    (lastBookmark system.stored (([] : List (Page Event)).take count))
                  rw [List.take_nil]
                  exact .inl ⟨rfl, fresh⟩
              | true =>
                  have nothing : forall count, Bookmarked decoder history current
                      ([] ++ carried (([] : List (Page Event)).take count))
                      (lastBookmark system.stored (([] : List (Page Event)).take count)) := by
                    intro count
                    rw [List.take_nil]
                    exact .inl ⟨rfl, fresh⟩
                  exact pages_concat nothing settled count
          · rw [fresh] at found
            cases found
      | @resume perTxn resetlogs pdb value saved position idle found reads binds =>
          refine ⟨bookmarked, fun run same => ?_⟩
          cases Option.some.inj same
          rcases bookmarked with ⟨_, none⟩ | ⟨stored, isStored, settled⟩
          · rw [none] at found
            cases found
          · rw [found] at isStored
            rw [Option.some.inj isStored] at reads
            have same := Position.fromValue_toValue reads
            rw [same] at binds
            refine Capturing.start (settled.bound binds) perTxn rfl (fun count => ?_)
            rw [List.take_nil, carried, List.flatMap_nil, List.append_nil]
            exact .inr ⟨stored, found.trans isStored, settled⟩
      | work running moves =>
          refine ⟨bookmarked, fun run same => ?_⟩
          cases Option.some.inj same
          exact (capturing _ running).step scnBound tidy moves
      | stop count running => exact ⟨(capturing _ running).pages count, fun run absurdity => by cases absurdity⟩

/-- Nothing kept is partial or twice kept; whatever the stored bookmark leaves
behind was kept; and a run between two windows has emitted every transaction
that commits up to there. -/
theorem kept_exactly_once (decoder : Decoder Buffer Event) (history : History) {current : Nat} {oldest : Option Nat}
    (scnBound : current + 1 < 2 ^ 64) (reachesBack : ReachesBack history current oldest)
    (apart : Apart history current (Position.resumeFrom current oldest).restartScn) (tidy : Tidy decoder history)
    {system : System Buffer Event}
    (reached : System.Reaches decoder history (Position.resumeFrom current oldest) WithinReach system) :
    (forall committed, committed ∈ system.kept -> Whole decoder history committed) ∧
      (system.kept.map Committed.xid).Nodup ∧
      (forall value position, system.stored = some value -> Position.fromValue value = .ok position ->
        forall committed, Whole decoder history committed -> committed.events ≠ [] -> current < committed.commitScn ->
          (position.alreadyEmitted committed.commitScn committed.xid = true ∨
            committed.commitScn < position.restartScn) -> committed ∈ system.kept) ∧
      forall run, system.run = some run -> (run.phase = .waiting ∨ run.phase = .finished) ->
        (run.phase = .finished -> run.agg = []) ∧
        forall committed, Whole decoder history committed -> committed.events ≠ [] -> current < committed.commitScn ->
          committed.commitScn ≤ run.fromScn -> committed ∈ system.kept ++ carried run.pages ++ run.agg := by
  rcases invariant_of_reaches scnBound reachesBack apart tidy reached with ⟨bookmarked, capturing⟩
  have keptOnce : (forall committed, committed ∈ system.kept -> Whole decoder history committed) ∧
      (system.kept.map Committed.xid).Nodup := by
    rcases bookmarked with ⟨none, _⟩ | ⟨position, _, settled⟩
    · rw [none]
      exact ⟨nofun, List.nodup_nil⟩
    · exact ⟨fun committed member => (settled.whole committed member).1, settled.nodup⟩
  refine ⟨keptOnce.1, keptOnce.2, ?_, ?_⟩
  · intro value position found reads committed whole changes after behind
    rcases bookmarked with ⟨_, none⟩ | ⟨saved, isStored, settled⟩
    · rw [none] at found
      cases found
    · rw [isStored] at found
      rw [← Option.some.inj found] at reads
      rw [Position.fromValue_toValue reads] at behind
      exact settled.mem_of_behind whole changes after behind
  · intro run running phase
    have capturing := capturing run running
    refine ⟨capturing.drained, fun committed whole changes after mined => ?_⟩
    rcases capturing.mining with ⟨begun, skipped, mined, later, mining⟩
    refine capturing.settled.complete committed whole changes after (mining.emitted_of_whole whole changes after ?_)
    have idle : run.phase.pending = [] ∧ run.limit = run.fromScn := by
      rcases phase with waits | finished
      · simp only [Run.limit, waits, Phase.pending, and_self]
      · simp only [Run.limit, finished, Phase.pending, and_self]
    intro row member same
    rw [idle.1] at member
    have ahead := mining.ahead row member
    rw [idle.2] at ahead
    omega

/-! ## A transaction open at the first position -/

/-- Every data row adds its redo text. -/
def textDecoder : Decoder (List String) String where
  fresh := []
  change slot row := .ok (some (slot.getD [] ++ [row.redo]))
  settleLobs := .ok
  events := id

/-- One transaction, open at SCN 20. -/
def sampleBefore : List LogRow :=
  [{ scn := 15, op := Op.START, xid := "T1" }, { scn := 16, op := 1, xid := "T1", redo := "insert a" },
    { scn := 25, op := 1, xid := "T1", redo := "insert b" }]

def sampleCommit : LogRow := { scn := 30, op := Op.COMMIT, xid := "T1" }

def sampleHistory : History where
  rows := sampleBefore ++ [sampleCommit]
  sorted := by decide
  closed := by decide

private theorem mem_sampleHistory {row : LogRow} (member : row ∈ sampleHistory.rows) :
    15 ≤ row.scn ∧ row.xid = "T1" ∧ (row.op = Op.COMMIT -> row = sampleCommit) := by
  have all : forall row, row ∈ sampleHistory.rows ->
      15 ≤ row.scn ∧ row.xid = "T1" ∧ (row.op = Op.COMMIT -> row = sampleCommit) := by
    change forall row, row ∈ sampleBefore ++ [sampleCommit] -> _
    decide
  exact all row member

private theorem split_sampleHistory {before after : List LogRow} {row : LogRow}
    (split : sampleHistory.rows = before ++ row :: after) (commit : row.op = Op.COMMIT) :
    before = sampleBefore ∧ row = sampleCommit := by
  have member : row ∈ sampleHistory.rows := by
    rw [split]
    exact List.mem_append_right before List.mem_cons_self
  have known : sampleHistory.rows = sampleBefore ++ sampleCommit :: [] := rfl
  have same := sampleHistory.split_unique split known (.inl commit) (.inl rfl) (mem_sampleHistory member).2.1
  exact ⟨same.1, same.2.1⟩

private theorem reachesBack_sample {oldest : Nat} (positive : 0 < oldest) (below : oldest ≤ 15) :
    ReachesBack sampleHistory 20 (some oldest) := by
  rintro row ⟨member, _⟩
  exact ⟨oldest, rfl, positive, Nat.le_trans below (mem_sampleHistory member).1⟩

private theorem apart_sample (restart : Nat) : Apart sampleHistory 20 restart := by
  intro last member commit same
  rw [(mem_sampleHistory member).2.2 commit] at same
  exact absurd same (by decide)

private theorem outcome_sample : outcome textDecoder (rowsOf sampleBefore sampleCommit.xid) sampleCommit =
    .ok (some ⟨"T1", 30, none, ["insert a", "insert b"]⟩) := by rfl

private theorem tidy_sample : Tidy textDecoder sampleHistory := by
  intro before row after split commit barren
  rcases barren with ⟨before', after', released, split', done, empty⟩
  rcases split_sampleHistory split' commit with ⟨rfl, rfl⟩
  have same := Except.ok.inj (outcome_sample.symm.trans done)
  exact absurd (empty _ same.symm) (by decide)

theorem kept_exactly_once_sample : exists system : System (List String) String,
    System.Reaches textDecoder sampleHistory (Position.resumeFrom 20 (some 15)) WithinReach system ∧
      system.kept = [⟨"T1", 30, none, ["insert a", "insert b"]⟩] ∧
      forall committed, committed ∈ system.kept -> Whole textDecoder sampleHistory committed := by
  have begun : System.Reaches textDecoder sampleHistory (Position.resumeFrom 20 (some 15)) WithinReach
      ⟨[], none, some (.start true ⟨20, 15, [], some 1, none⟩ [⟨[], Position.toValue ⟨20, 15, [], some 1, none⟩⟩])⟩ :=
    .step .initial (@System.Step.first _ _ _ _ _ _ _ true 1 none ⟨20, 15, [], some 1, none⟩ rfl rfl rfl)
  have opened := begun.step (.work rfl (.openWindow rfl (show 14 < 20 by decide)))
  have started := opened.step (.work rfl (@Run.Step.onRow _ _ _ _ _ _ _ _ _ _ _ false rfl rfl))
  have inserted := started.step (.work rfl (@Run.Step.onRow _ _ _ _ _ _ _ _ _ _ _ false rfl rfl))
  have closed := inserted.step (.work rfl (.closeWindow rfl (.inl (by decide))))
  have stopped := closed.step (.stop 1 rfl)
  have resumed := stopped.step (@System.Step.resume _ _ _ _ _ _ _ true 1 none _ ⟨20, 15, [], some 1, none⟩
    ⟨20, 15, [], some 1, none⟩ rfl rfl rfl rfl)
  have reopened := resumed.step (.work rfl (.openWindow rfl (show 14 < 30 by decide)))
  have restarted := reopened.step (.work rfl (@Run.Step.onRow _ _ _ _ _ _ _ _ _ _ _ false rfl rfl))
  have first := restarted.step (.work rfl (@Run.Step.onRow _ _ _ _ _ _ _ _ _ _ _ false rfl rfl))
  have second := first.step (.work rfl (@Run.Step.onRow _ _ _ _ _ _ _ _ _ _ _ false rfl rfl))
  have committed := second.step (.work rfl (@Run.Step.onRow _ _ _ _ _ _ _ _ _ _ _ false rfl rfl))
  have ended := committed.step (.stop 1 rfl)
  exact ⟨_, ended, rfl, (kept_exactly_once textDecoder sampleHistory (by decide)
    (reachesBack_sample (by decide) (by decide))
    (apart_sample _) tidy_sample ended).1⟩

/-- With `oldest` below the start of the open transaction, a window that ends
before it moves the restart SCN past its beginning. -/
theorem kept_partial_transaction : ReachesBack sampleHistory 20 (some 5) ∧
    exists system : System (List String) String,
      System.Reaches textDecoder sampleHistory (Position.resumeFrom 20 (some 5)) (fun _ _ => True) system ∧
        exists committed, committed ∈ system.kept ∧ ¬ Whole textDecoder sampleHistory committed := by
  refine ⟨reachesBack_sample (by decide) (by decide), ?_⟩
  have begun : System.Reaches textDecoder sampleHistory (Position.resumeFrom 20 (some 5)) (fun _ _ => True)
      ⟨[], none, some (.start true ⟨20, 5, [], some 1, none⟩ [⟨[], Position.toValue ⟨20, 5, [], some 1, none⟩⟩])⟩ :=
    .step .initial (@System.Step.first _ _ _ _ _ _ _ true 1 none ⟨20, 5, [], some 1, none⟩ rfl rfl rfl)
  have opened := begun.step (.work rfl (.openWindow rfl (show 4 < 10 by decide)))
  have closed := opened.step (.work rfl (.closeWindow rfl trivial))
  have stopped := closed.step (.stop 2 rfl)
  have resumed := stopped.step (@System.Step.resume _ _ _ _ _ _ _ true 1 none _ ⟨20, 21, [], some 1, none⟩
    ⟨20, 21, [], some 1, none⟩ rfl rfl rfl rfl)
  have reopened := resumed.step (.work rfl (.openWindow rfl (show 20 < 30 by decide)))
  have second := reopened.step (.work rfl (@Run.Step.onRow _ _ _ _ _ _ _ _ _ _ _ false rfl rfl))
  have committed := second.step (.work rfl (@Run.Step.onRow _ _ _ _ _ _ _ _ _ _ _ false rfl rfl))
  have ended := committed.step (.stop 1 rfl)
  refine ⟨_, ended, ⟨"T1", 30, none, ["insert b"]⟩, List.mem_singleton.mpr rfl, ?_⟩
  rintro ⟨before, row, after, split, commit, released⟩
  rcases split_sampleHistory split commit with ⟨rfl, rfl⟩
  have same := Option.some.inj (Except.ok.inj (outcome_sample.symm.trans released))
  exact absurd (congrArg Committed.events same) (by decide)

end OracleCdc
end FaucetStream
