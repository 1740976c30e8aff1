import FaucetStream.PostgresCdc.Stream

namespace FaucetStream
namespace PostgresCdc

open Json

/-!
# Bookmarks cover what was emitted

A position that a page may carry lies at or below the end of a transaction
sent before it, or at or below what a keepalive promised.  Either way every
later transaction ends past it, so that the pages up to a bookmark hold the
transactions that end at or below it, now and later.
-/

/-! ## The feed -/

namespace Feed

structure Valid (feed : Feed) : Prop where
  bounds : forall txn, txn ∈ feed.sent -> txn.commitLsn < txn.endLsn ∧ txn.endLsn < 2 ^ 64 ∧
    forall record, record ∈ txn.records -> Stamped txn.commitLsn record
  commits : feed.sent.Pairwise (fun first second => first.commitLsn < second.commitLsn)
  ends : feed.sent.Pairwise (fun first second => first.endLsn < second.endLsn)
  progress : forall lsn records, feed.opened = some (lsn, records) -> lsn < 2 ^ 64 ∧ feed.promised ≤ lsn ∧
    (forall txn, txn ∈ feed.sent -> txn.commitLsn < lsn) ∧ forall record, record ∈ records -> Stamped lsn record
  promisedSmall : feed.promised < 2 ^ 64

/-- A bookmark at `lsn` claims no transaction that is still to come. -/
def Claimable (feed : Feed) (lsn : Nat) : Prop :=
  lsn ≤ feed.promised ∨ exists txn, txn ∈ feed.sent ∧ lsn ≤ txn.endLsn

/-- `emitted` are the records of the first transactions of the feed, up to a
bookmark at `lsn`. -/
def Covered (feed : Feed) (emitted : List Value) (lsn : Nat) : Prop :=
  exists early late, feed.sent = early ++ late ∧ emitted = recordsOf early ∧
    (forall txn, txn ∈ early -> txn.endLsn ≤ lsn) ∧
    ((lsn ≤ feed.promised ∧ forall txn, txn ∈ late -> lsn ≤ txn.commitLsn) ∨
      exists txn, txn ∈ early ∧ lsn ≤ txn.endLsn)

variable {feed : Feed} {lsn : Nat} {emitted : List Value}

theorem Claimable.small (valid : feed.Valid) (claimable : feed.Claimable lsn) : lsn < 2 ^ 64 := by
  rcases claimable with promised | ⟨txn, member, below⟩
  · exact Nat.lt_of_le_of_lt promised valid.promisedSmall
  · exact Nat.lt_of_le_of_lt below (valid.bounds txn member).2.1

theorem Covered.claimable (covered : feed.Covered emitted lsn) : feed.Claimable lsn := by
  rcases covered with ⟨early, late, split, _, _, ⟨promised, _⟩ | ⟨txn, member, below⟩⟩
  · exact .inl promised
  · refine .inr ⟨txn, ?_, below⟩
    rw [split]
    exact List.mem_append_left late member

/-- Everything sent is claimed by a position past all ends. -/
theorem Claimable.covered (claimable : feed.Claimable lsn) (past : forall txn, txn ∈ feed.sent -> txn.endLsn ≤ lsn) :
    feed.Covered (recordsOf feed.sent) lsn := by
  refine ⟨feed.sent, [], (List.append_nil _).symm, rfl, past, ?_⟩
  rcases claimable with promised | reached
  · exact .inl ⟨promised, nofun⟩
  · exact .inr reached

/-- The transactions up to a bookmark are those that end at or below it. -/
theorem Covered.filter (valid : feed.Valid) (covered : feed.Covered emitted lsn) :
    emitted = recordsOf (feed.sent.filter (fun txn => decide (txn.endLsn ≤ lsn))) := by
  rcases covered with ⟨early, late, split, records, reached, ground⟩
  have ends := valid.ends
  rw [split] at ends
  have beyond : forall txn, txn ∈ late -> lsn < txn.endLsn := by
    intro txn member
    rcases ground with ⟨_, after⟩ | ⟨last, inside, below⟩
    · have inSent : txn ∈ feed.sent := split ▸ List.mem_append_right early member
      exact Nat.lt_of_le_of_lt (after txn member) (valid.bounds txn inSent).1
    · exact Nat.lt_of_le_of_lt below ((List.pairwise_append.mp ends).2.2 last inside txn member)
  have keeps : early.filter (fun txn => decide (txn.endLsn ≤ lsn)) = early :=
    List.filter_eq_self.mpr (fun txn member => decide_eq_true (reached txn member))
  have drops : late.filter (fun txn => decide (txn.endLsn ≤ lsn)) = [] := by
    refine List.filter_eq_nil_iff.mpr (fun txn member => ?_)
    rw [decide_eq_true_eq]
    exact Nat.not_le.mpr (beyond txn member)
  rw [split, List.filter_append, keeps, drops, List.append_nil]
  exact records

/-- With commits spaced, what is not emitted commits at or past the bookmark. -/
theorem Covered.commit_of_not_emitted (valid : feed.Valid) (spaced : feed.Spaced) (covered : feed.Covered emitted lsn)
    {commit : Nat} {records : List Value}
    (staged : (exists endLsn, ⟨commit, endLsn, records⟩ ∈ feed.sent) ∨ feed.opened = some (commit, records)) :
    (forall record, record ∈ records -> record ∈ emitted) ∧ commit < lsn ∨ lsn ≤ commit := by
  rcases covered with ⟨early, late, split, emittedIs, reached, ground⟩
  have pairs := spaced.1
  rw [split] at pairs
  rcases staged with ⟨endLsn, member⟩ | progress
  · have bounds := valid.bounds _ member
    rw [split] at member
    rcases List.mem_append.mp member with inside | outside
    · refine .inl ⟨fun record found => ?_, Nat.lt_of_lt_of_le bounds.1 (reached _ inside)⟩
      rw [emittedIs]
      exact List.mem_flatMap.mpr ⟨_, inside, found⟩
    · rcases ground with ⟨_, after⟩ | ⟨last, inside, below⟩
      · exact .inr (after _ outside)
      · exact .inr (Nat.le_trans below ((List.pairwise_append.mp pairs).2.2 last inside _ outside))
  · rcases ground with ⟨promised, _⟩ | ⟨last, inside, below⟩
    · exact .inr (Nat.le_trans promised (valid.progress _ _ progress).2.1)
    · have inSent : last ∈ feed.sent := split ▸ List.mem_append_left late inside
      exact .inr (Nat.le_trans below (spaced.2 _ _ progress last inSent))

/-! ## How the feed grows -/

/-- Nothing that was covered is uncovered. -/
structure Grows (feed next : Feed) : Prop where
  valid : next.Valid
  claims : forall lsn, feed.Claimable lsn -> next.Claimable lsn
  covers : forall emitted lsn, feed.Covered emitted lsn -> next.Covered emitted lsn

theorem Grows.refl (valid : feed.Valid) : Grows feed feed :=
  ⟨valid, fun _ claims => claims, fun _ _ covers => covers⟩

/-- The same transactions, and a promise that is no lower. -/
theorem grows_of_promise {next : Feed} (valid : next.Valid) (sent : next.sent = feed.sent)
    (promised : feed.promised ≤ next.promised) : Grows feed next := by
  refine ⟨valid, ?_, ?_⟩
  · rintro lsn (below | ⟨txn, member, below⟩)
    · exact .inl (Nat.le_trans below promised)
    · exact .inr ⟨txn, sent ▸ member, below⟩
  · rintro emitted lsn ⟨early, late, split, records, reached, ground⟩
    refine ⟨early, late, sent.trans split, records, reached, ground.imp_left ?_⟩
    rintro ⟨below, after⟩
    exact ⟨Nat.le_trans below promised, after⟩

theorem grows_keepAlive (valid : feed.Valid) {walEnd : Nat} (small : walEnd < 2 ^ 64)
    (kept : forall lsn records, feed.opened = some (lsn, records) -> walEnd ≤ lsn) :
    Grows feed { feed with promised := max feed.promised walEnd } := by
  refine grows_of_promise ⟨valid.bounds, valid.commits, valid.ends, ?_, ?_⟩ rfl (Nat.le_max_left _ _)
  · intro lsn records progress
    rcases valid.progress lsn records progress with ⟨lsnSmall, promised, after, stamped⟩
    exact ⟨lsnSmall, Nat.max_le.mpr ⟨promised, kept lsn records progress⟩, after, stamped⟩
  · exact Nat.max_lt.mpr ⟨valid.promisedSmall, small⟩

theorem grows_begin (valid : feed.Valid) {commitLsn : Nat} (small : commitLsn < 2 ^ 64)
    (increasing : forall txn, txn ∈ feed.sent -> txn.commitLsn < commitLsn) (kept : feed.promised ≤ commitLsn) :
    Grows feed { feed with opened := some (commitLsn, []) } := by
  refine grows_of_promise ⟨valid.bounds, valid.commits, valid.ends, ?_, valid.promisedSmall⟩ rfl (Nat.le_refl _)
  intro lsn records progress
  cases Option.some.inj progress
  exact ⟨small, kept, increasing, nofun⟩

theorem grows_change (valid : feed.Valid) {commitLsn : Nat} {records added : List Value}
    (progress : feed.opened = some (commitLsn, records))
    (stamped : forall record, record ∈ added -> Stamped commitLsn record) :
    Grows feed { feed with opened := some (commitLsn, records ++ added) } := by
  refine grows_of_promise ⟨valid.bounds, valid.commits, valid.ends, ?_, valid.promisedSmall⟩ rfl (Nat.le_refl _)
  intro lsn others same
  cases Option.some.inj same
  rcases valid.progress _ _ progress with ⟨small, promised, after, oldStamped⟩
  refine ⟨small, promised, after, fun record member => ?_⟩
  rcases List.mem_append.mp member with old | new
  · exact oldStamped record old
  · exact stamped record new

/-- A transaction that commits ends past everything claimable. -/
theorem lt_of_claimable (valid : feed.Valid) {commitLsn endLsn : Nat} {records : List Value}
    (progress : feed.opened = some (commitLsn, records)) (after : commitLsn < endLsn)
    (increasing : forall txn, txn ∈ feed.sent -> txn.endLsn < endLsn) (claimable : feed.Claimable lsn) :
    lsn < endLsn := by
  rcases claimable with promised | ⟨txn, member, below⟩
  · have bound := (valid.progress _ _ progress).2.1
    omega
  · exact Nat.lt_of_le_of_lt below (increasing txn member)

theorem grows_commit (valid : feed.Valid) {commitLsn endLsn : Nat} {records : List Value}
    (progress : feed.opened = some (commitLsn, records)) (small : endLsn < 2 ^ 64) (after : commitLsn < endLsn)
    (increasing : forall txn, txn ∈ feed.sent -> txn.endLsn < endLsn) :
    Grows feed { feed with sent := feed.sent ++ [⟨commitLsn, endLsn, records⟩], opened := none } := by
  rcases valid.progress _ _ progress with ⟨_, promised, commits, stamped⟩
  refine ⟨⟨?_, ?_, ?_, fun lsn records absurdity => (by cases absurdity), valid.promisedSmall⟩, ?_, ?_⟩
  · intro txn member
    rcases List.mem_append.mp member with old | new
    · exact valid.bounds txn old
    · rw [List.mem_singleton.mp new]
      exact ⟨after, small, stamped⟩
  · refine List.pairwise_append.mpr ⟨valid.commits, List.pairwise_singleton _ _, fun txn member other new => ?_⟩
    rw [List.mem_singleton.mp new]
    exact commits txn member
  · refine List.pairwise_append.mpr ⟨valid.ends, List.pairwise_singleton _ _, fun txn member other new => ?_⟩
    rw [List.mem_singleton.mp new]
    exact increasing txn member
  · rintro lsn (below | ⟨txn, member, below⟩)
    · exact .inl below
    · exact .inr ⟨txn, List.mem_append_left _ member, below⟩
  · rintro emitted lsn ⟨early, late, split, emittedIs, reached, ground⟩
    refine ⟨early, late ++ [⟨commitLsn, endLsn, records⟩], ?_, emittedIs, reached, ground.imp_left ?_⟩
    · rw [split, List.append_assoc]
    · rintro ⟨below, late⟩
      refine ⟨below, fun txn member => ?_⟩
      rcases List.mem_append.mp member with old | new
      · exact late txn old
      · rw [List.mem_singleton.mp new]
        exact Nat.le_trans below promised

end Feed

/-! ## The pages -/

/-- Pages in a row, the last one at the bookmark `last`. -/
inductive Marked (feed : Feed) : List StreamPage -> Nat -> Prop where
  | none : Marked feed [] 0
  | page {pages : List StreamPage} {last lsn : Nat} {records : List Value} (before : Marked feed pages last)
      (forward : last ≤ lsn) (covered : feed.Covered (carried pages ++ records) lsn) :
      Marked feed (pages ++ [⟨records, (Bookmark.fromU64 lsn).toValue⟩]) lsn

namespace Marked

theorem grows {feed next : Feed} (growth : feed.Grows next) {pages : List StreamPage} {last : Nat}
    (marked : Marked feed pages last) : Marked next pages last := by
  induction marked with
  | none => exact .none
  | page before forward covered ih =>
      exact .page ih forward (growth.covers _ _ covered)

theorem claimable {feed : Feed} {pages : List StreamPage} {last : Nat} (marked : Marked feed pages last) :
    feed.Claimable last := by
  cases marked with
  | none => exact .inl (Nat.zero_le _)
  | page before forward covered => exact covered.claimable

theorem carried_concat (pages : List StreamPage) (page : StreamPage) :
    carried (pages ++ [page]) = carried pages ++ page.records := by
  rw [carried, carried, List.flatMap_append, List.flatMap_singleton]

/-- Every page has its bookmark, and the pages up to it are covered. -/
theorem covered_of_mem {feed : Feed} {pages before after : List StreamPage} {page : StreamPage} {last : Nat}
    (marked : Marked feed pages last) (split : pages = before ++ page :: after) :
    exists lsn, lsn ≤ last ∧ page.bookmark = (Bookmark.fromU64 lsn).toValue ∧
      feed.Covered (carried (before ++ [page])) lsn := by
  induction marked generalizing before after with
  | none =>
      rw [List.nil_eq, List.append_eq_nil_iff] at split
      cases split.2
  | @page pages last lsn records earlier forward covered ih =>
      rcases List.eq_nil_or_concat after with rfl | ⟨others, final, rfl⟩
      · rcases List.append_inj' split rfl with ⟨rfl, same⟩
        cases (List.cons.inj same).1
        exact ⟨lsn, Nat.le_refl _, rfl, (carried_concat _ _).symm ▸ covered⟩
      · rw [List.concat_eq_append, ← List.cons_append, ← List.append_assoc] at split
        have shorter : pages = before ++ page :: others := (List.append_inj' split rfl).1
        rcases ih shorter with ⟨mark, below, bookmark, emitted⟩
        exact ⟨mark, Nat.le_trans below forward, bookmark, emitted⟩

/-- Bookmarks do not decrease. -/
theorem bookmarks_sorted {feed : Feed} (valid : feed.Valid) {pages : List StreamPage} {last : Nat}
    (marked : Marked feed pages last) :
    pages.Pairwise (fun first second => positionLe first.bookmark second.bookmark = some true) := by
  induction marked with
  | none => exact List.Pairwise.nil
  | @page pages last lsn records earlier forward covered ih =>
      refine List.pairwise_append.mpr ⟨ih, List.pairwise_singleton _ _, ?_⟩
      intro first member second final
      rw [List.mem_singleton.mp final]
      rcases List.append_of_mem member with ⟨before, after, split⟩
      rcases earlier.covered_of_mem split with ⟨mark, below, bookmark, emitted⟩
      have markSmall := emitted.claimable.small valid
      have lsnSmall := covered.claimable.small valid
      rw [bookmark, positionLe, lsnOf_bookmark markSmall, lsnOf_bookmark lsnSmall]
      exact congrArg some (decide_eq_true (Nat.le_trans below forward))

end Marked

/-! ## The loop -/

/-- What holds between the feed and the loop, before every turn. -/
structure Follows (settings : Settings) (feed : Feed) (cycle : Cycle) : Prop where
  valid : feed.Valid
  inTxn : cycle.state.inTxn = feed.opened.isSome
  staged : forall lsn records, feed.opened = some (lsn, records) ->
    cycle.state.staged = records ∧ cycle.state.inProgressLsn = lsn
  committed : cycle.state.lastCommitted = feed.sent.getLast?.map Transaction.endLsn
  pages : exists last, Marked feed cycle.pages last ∧ (settings.perTransaction = true -> last ≤ cycle.claimed) ∧
    forall lsn, cycle.batch.lsn = some lsn -> last ≤ lsn
  batch : settings.perTransaction = true -> carried cycle.pages ++ cycle.batch.records = recordsOf feed.sent ∧
    (cycle.batch.lsn = none -> cycle.batch.records = [] ∧ forall txn, txn ∈ feed.sent -> txn.endLsn ≤ cycle.claimed) ∧
    forall lsn, cycle.batch.lsn = some lsn -> feed.Claimable lsn ∧ forall txn, txn ∈ feed.sent -> txn.endLsn ≤ lsn
  aggregate : settings.perTransaction = false -> (cycle.ended = false -> cycle.pages = []) ∧
    cycle.batch.lsn = none ∧ cycle.aggRecords = recordsOf feed.sent ∧
    forall lsn, cycle.idleLsn = some lsn -> lsn ≤ feed.promised

namespace Follows

variable {settings : Settings} {feed : Feed} {cycle : Cycle}

theorem start (settings : Settings) (startLsn maxStagedRecords : Option Nat) (moneyFractionDigits : Nat) :
    Follows settings ⟨[], none, 0⟩ (.start startLsn maxStagedRecords moneyFractionDigits) := by
  refine ⟨⟨?_, List.Pairwise.nil, List.Pairwise.nil, ?_, by decide⟩, rfl, ?_, rfl, ⟨0, .none, ?_, ?_⟩, ?_, ?_⟩
  · intro txn member
    cases member
  · intro lsn records absurdity
    cases absurdity
  · intro lsn records absurdity
    cases absurdity
  · intro _
    exact Nat.zero_le _
  · intro lsn absurdity
    cases absurdity
  · intro _
    refine ⟨rfl, fun _ => ⟨rfl, fun txn member => ?_⟩, fun lsn absurdity => ?_⟩
    · cases member
    · cases absurdity
  · intro _
    refine ⟨fun _ => rfl, rfl, rfl, fun lsn absurdity => ?_⟩
    cases absurdity

theorem flush (follows : Follows settings feed cycle) (perTransaction : settings.perTransaction = true) :
    Follows settings feed cycle.flush := by
  rw [Cycle.flush]
  rcases follows.batch perTransaction with ⟨emitted, _, pushed⟩
  rcases follows.pages with ⟨last, marked, below, ahead⟩
  cases found : cycle.batch.lsn with
  | none => exact follows
  | some lsn =>
      rcases pushed lsn found with ⟨claimable, past⟩
      have covered : feed.Covered (carried cycle.pages ++ cycle.batch.records) lsn := emitted ▸ claimable.covered past
      refine ⟨follows.valid, follows.inTxn, follows.staged, follows.committed,
        ⟨lsn, .page marked (ahead lsn found) covered, fun _ => Nat.le_max_right _ _, ?_⟩, fun _ => ⟨?_, ?_, ?_⟩, ?_⟩
      · intro other absurdity
        cases absurdity
      · rw [List.append_nil, Marked.carried_concat]
        exact emitted
      · intro _
        exact ⟨rfl, fun txn member => Nat.le_trans (past txn member) (Nat.le_max_right _ _)⟩
      · intro other absurdity
        cases absurdity
      · intro aggregated
        rw [perTransaction] at aggregated
        cases aggregated

/-- The end of the last transaction is the largest. -/
theorem le_lastCommitted (follows : Follows settings feed cycle) {txn : Transaction} (member : txn ∈ feed.sent) :
    exists last, last ∈ feed.sent ∧ cycle.state.lastCommitted = some last.endLsn ∧ txn.endLsn ≤ last.endLsn := by
  have ends := follows.valid.ends
  have committed := follows.committed
  rcases List.eq_nil_or_concat feed.sent with none | ⟨earlier, last, split⟩
  · rw [none] at member
    cases member
  · rw [List.concat_eq_append] at split
    rw [split] at ends committed member
    rw [List.getLast?_concat] at committed
    refine ⟨last, ?_, committed, ?_⟩
    · rw [split]
      exact List.mem_append_right earlier (List.mem_singleton.mpr rfl)
    · rcases List.mem_append.mp member with old | final
      · exact Nat.le_of_lt ((List.pairwise_append.mp ends).2.2 txn old last (List.mem_singleton.mpr rfl))
      · rw [List.mem_singleton.mp final]

theorem furthest_cases {left right : Option Nat} {lsn : Nat} (found : Cycle.furthest left right = some lsn) :
    (left = some lsn ∨ right = some lsn) ∧ forall other, left = some other -> other ≤ lsn := by
  cases left with
  | none => exact ⟨.inr found, fun other absurdity => by cases absurdity⟩
  | some left =>
      cases right with
      | none =>
          refine ⟨.inl found, fun other same => ?_⟩
          rw [← Option.some.inj same, Option.some.inj found]
      | some right =>
          have largest : max left right = lsn := Option.some.inj found
          refine ⟨?_, fun other same => ?_⟩
          · rcases Nat.le_total left right with below | below
            · exact .inr (by rw [← largest, Nat.max_eq_right below])
            · exact .inl (by rw [← largest, Nat.max_eq_left below])
          · rw [← Option.some.inj same, ← largest]
            exact Nat.le_max_left _ _

theorem finish (follows : Follows settings feed cycle) (running : cycle.ended = false) :
    Follows settings feed (cycle.finish settings) := by
  rw [Cycle.finish]
  cases mode : settings.perTransaction with
  | true =>
      refine ⟨follows.valid, follows.inTxn, follows.staged, follows.committed, follows.pages, follows.batch, ?_⟩
      intro aggregated
      rw [mode] at aggregated
      cases aggregated
  | false =>
      rcases follows.aggregate mode with ⟨silent, noBatch, records, idle⟩
      have noPages := silent running
      have separate : settings.perTransaction ≠ true := fun same => by rw [mode] at same; cases same
      simp only [Bool.false_eq_true, if_false]
      cases furthest : Cycle.furthest cycle.state.lastCommitted cycle.idleLsn with
      | none =>
          refine ⟨follows.valid, follows.inTxn, follows.staged, follows.committed, follows.pages,
            fun same => absurd same separate, fun _ => ⟨fun absurdity => ?_, noBatch, records, idle⟩⟩
          cases absurdity
      | some lsn =>
          rcases furthest_cases furthest with ⟨source, atLeast⟩
          have past : forall txn, txn ∈ feed.sent -> txn.endLsn ≤ lsn := by
            intro txn member
            rcases follows.le_lastCommitted member with ⟨last, _, same, below⟩
            exact Nat.le_trans below (atLeast _ same)
          have claimable : feed.Claimable lsn := by
            rcases source with last | quiet
            · rw [follows.committed, Option.map_eq_some_iff] at last
              rcases last with ⟨txn, found, same⟩
              exact .inr ⟨txn, List.mem_of_getLast? found, Nat.le_of_eq same.symm⟩
            · exact .inl (idle lsn quiet)
          have covered : feed.Covered (carried [] ++ cycle.aggRecords) lsn := by
            rw [records]
            exact claimable.covered past
          refine ⟨follows.valid, follows.inTxn, follows.staged, follows.committed, ⟨lsn, ?_, ?_, ?_⟩,
            fun same => absurd same separate, fun _ => ⟨fun absurdity => ?_, noBatch, records, idle⟩⟩
          · dsimp only
            rw [noPages]
            exact .page .none (Nat.zero_le _) covered
          · exact fun same => absurd same separate
          · intro other same
            rw [noBatch] at same
            cases same
          · cases absurdity

/-- Neither the relations nor the number of records matter here. -/
theorem with_registry (follows : Follows settings feed cycle) (registry : RelationRegistry) :
    Follows settings feed { cycle with registry := registry } :=
  ⟨follows.valid, follows.inTxn, follows.staged, follows.committed, follows.pages, follows.batch, follows.aggregate⟩

/-- The feed grows without a new transaction, and the loop sends nothing. -/
theorem regrow (follows : Follows settings feed cycle) {next : Feed} (growth : feed.Grows next)
    (sent : next.sent = feed.sent) (promised : feed.promised ≤ next.promised) {state : TxnState}
    (inTxn : state.inTxn = next.opened.isSome)
    (staged : forall lsn records, next.opened = some (lsn, records) -> state.staged = records ∧
      state.inProgressLsn = lsn)
    (committed : state.lastCommitted = cycle.state.lastCommitted) :
    Follows settings next { cycle with state := state } := by
  rcases follows.pages with ⟨last, marked, below, ahead⟩
  refine ⟨growth.valid, inTxn, staged, ?_, ⟨last, marked.grows growth, below, ahead⟩, ?_, ?_⟩
  · rw [sent]
    exact committed.trans follows.committed
  · intro mode
    rw [sent]
    rcases follows.batch mode with ⟨emitted, empty, pushed⟩
    exact ⟨emitted, empty, fun lsn found => ⟨growth.claims lsn (pushed lsn found).1, (pushed lsn found).2⟩⟩
  · intro mode
    rw [sent]
    rcases follows.aggregate mode with ⟨silent, noBatch, records, idle⟩
    exact ⟨silent, noBatch, records, fun lsn found => Nat.le_trans (idle lsn found) promised⟩

/-- A keepalive past everything claimed becomes a position of its own. -/
theorem quiet (follows : Follows settings feed cycle) {walEnd : Nat} (promised : walEnd ≤ feed.promised)
    (ahead : max cycle.claimed (cycle.batch.lsn.getD 0) < walEnd) :
    Follows settings feed { cycle with
      idleLsn := some walEnd
      batch := if settings.perTransaction then cycle.batch.push walEnd [] else cycle.batch } := by
  rcases Nat.max_lt.mp ahead with ⟨pastClaimed, pastBatch⟩
  rcases follows.pages with ⟨last, marked, below, aheadOf⟩
  cases mode : settings.perTransaction with
  | true =>
      rcases follows.batch mode with ⟨emitted, empty, pushed⟩
      have top : (cycle.batch.push walEnd []).lsn = some walEnd := by
        cases found : cycle.batch.lsn with
        | none => simp only [CommitBatch.push, found, Option.elim_none]
        | some lsn =>
            rw [found, Option.getD_some] at pastBatch
            simp only [CommitBatch.push, found, Option.elim_some, Nat.max_eq_right (Nat.le_of_lt pastBatch)]
      refine ⟨follows.valid, follows.inTxn, follows.staged, follows.committed, ⟨last, marked, fun _ => below mode, ?_⟩,
        fun _ => ⟨?_, ?_, ?_⟩, fun aggregated => ?_⟩
      · intro lsn found
        rw [if_pos rfl, top] at found
        rw [← Option.some.inj found]
        exact Nat.le_trans (below mode) (Nat.le_of_lt pastClaimed)
      · rw [if_pos rfl, CommitBatch.push, List.append_nil]
        exact emitted
      · intro found
        rw [if_pos rfl, top] at found
        cases found
      · intro lsn found
        rw [if_pos rfl, top] at found
        rw [← Option.some.inj found]
        refine ⟨.inl promised, fun txn member => ?_⟩
        cases batchLsn : cycle.batch.lsn with
        | none => exact Nat.le_trans ((empty batchLsn).2 txn member) (Nat.le_of_lt pastClaimed)
        | some lsn =>
            rw [batchLsn, Option.getD_some] at pastBatch
            exact Nat.le_trans ((pushed lsn batchLsn).2 txn member) (Nat.le_of_lt pastBatch)
      · rw [mode] at aggregated
        cases aggregated
  | false =>
      rcases follows.aggregate mode with ⟨silent, noBatch, records, idle⟩
      refine ⟨follows.valid, follows.inTxn, follows.staged, follows.committed, ⟨last, marked, ?_, aheadOf⟩, ?_,
        fun _ => ⟨silent, noBatch, records, ?_⟩⟩
      · intro same
        rw [mode] at same
        cases same
      · intro same
        rw [mode] at same
        cases same
      · intro lsn found
        rw [← Option.some.inj found]
        exact promised

/-- A committed transaction goes to the batch, or to the one page. -/
theorem commit (follows : Follows settings feed cycle) {commitLsn endLsn : Nat} {records : List Value}
    (progress : feed.opened = some (commitLsn, records)) (small : endLsn < 2 ^ 64) (after : commitLsn < endLsn)
    (increasing : forall txn, txn ∈ feed.sent -> txn.endLsn < endLsn) (total : Nat) :
    Follows settings { feed with sent := feed.sent ++ [⟨commitLsn, endLsn, records⟩], opened := none }
      (Cycle.collect settings { cycle with
        state := { cycle.state with staged := [], lastCommitted := some endLsn, inTxn := false }
        totalRecords := total } (some (endLsn, cycle.state.staged))).1 := by
  have growth := Feed.grows_commit follows.valid progress small after increasing
  have staged := (follows.staged _ _ progress).1
  rcases follows.pages with ⟨last, marked, below, aheadOf⟩
  have pastEnds : forall txn, txn ∈ feed.sent ++ [(⟨commitLsn, endLsn, records⟩ : Transaction)] ->
      txn.endLsn ≤ endLsn := by
    intro txn member
    rcases List.mem_append.mp member with old | new
    · exact Nat.le_of_lt (increasing txn old)
    · rw [List.mem_singleton.mp new]
  have newRecords : recordsOf (feed.sent ++ [⟨commitLsn, endLsn, records⟩]) = recordsOf feed.sent ++
    cycle.state.staged := by
    rw [recordsOf, List.flatMap_append, List.flatMap_singleton, staged]
    rfl
  have lastCommitted : some endLsn =
      (feed.sent ++ [(⟨commitLsn, endLsn, records⟩ : Transaction)]).getLast?.map Transaction.endLsn := by
    rw [List.getLast?_concat]
    rfl
  have lastBelow : last < endLsn := Feed.lt_of_claimable follows.valid progress after increasing marked.claimable
  cases mode : settings.perTransaction with
  | true =>
      rcases follows.batch mode with ⟨emitted, empty, pushed⟩
      have top : (cycle.batch.push endLsn cycle.state.staged).lsn = some endLsn := by
        cases found : cycle.batch.lsn with
        | none => simp only [CommitBatch.push, found, Option.elim_none]
        | some lsn =>
            have past := Feed.lt_of_claimable follows.valid progress after increasing (pushed lsn found).1
            simp only [CommitBatch.push, found, Option.elim_some, Nat.max_eq_right (Nat.le_of_lt past)]
      simp only [Cycle.collect, mode, if_true]
      refine ⟨growth.valid, rfl, fun lsn records absurdity => (by cases absurdity), lastCommitted,
        ⟨last, marked.grows growth, fun _ => below mode, ?_⟩, fun _ => ⟨?_, ?_, ?_⟩, fun aggregated => ?_⟩
      · intro lsn found
        rw [top] at found
        rw [← Option.some.inj found]
        exact Nat.le_of_lt lastBelow
      · rw [newRecords, ← emitted, CommitBatch.push, List.append_assoc]
      · intro found
        rw [top] at found
        cases found
      · intro lsn found
        rw [top] at found
        rw [← Option.some.inj found]
        exact ⟨.inr ⟨_, List.mem_append_right _ (List.mem_singleton.mpr rfl), Nat.le_refl _⟩, pastEnds⟩
      · rw [mode] at aggregated
        cases aggregated
  | false =>
      rcases follows.aggregate mode with ⟨silent, noBatch, aggregated, idle⟩
      simp only [Cycle.collect, mode, Bool.false_eq_true, if_false]
      refine ⟨growth.valid, rfl, fun lsn records absurdity => (by cases absurdity), lastCommitted,
        ⟨last, marked.grows growth, ?_, aheadOf⟩, ?_, fun _ => ⟨silent, noBatch, ?_, idle⟩⟩
      · intro same
        rw [mode] at same
        cases same
      · intro same
        rw [mode] at same
        cases same
      · rw [newRecords, aggregated]

variable {textToJson : Nat -> String -> Option Nat -> Except FaucetError Value}

/-- A turn keeps the invariant when what it takes in does. -/
theorem turn {next : Cycle} {grown : Feed} {arrival : Arrival} {roots : List (Nat × String)} {aged stopped : Bool}
    (done : cycle.turn textToJson settings arrival roots aged stopped = .ok next)
    (absorbs : forall received justCommitted,
      cycle.receive textToJson settings arrival = .ok (received, justCommitted) ->
      let taken := (Cycle.collect settings
        { received with registry := received.registry.resolve roots } justCommitted).1
      Follows settings grown taken ∧ taken.ended = false) :
    Follows settings grown next := by
  rcases bind_eq_ok done with ⟨⟨received, justCommitted⟩, receives, done⟩
  rcases absorbs received justCommitted receives with ⟨taken, running⟩
  dsimp only at done
  generalize Cycle.collect settings { received with registry := received.registry.resolve roots } justCommitted =
    collected
    at done taken running
  rcases collected with ⟨middle, full⟩
  dsimp only at done taken running
  have flushed : forall due : Bool,
    Follows settings grown (if settings.perTransaction && due then middle.flush else middle) ∧
      (if settings.perTransaction && due then middle.flush else middle).ended = false := by
    intro due
    split
    · next both =>
      refine ⟨taken.flush (Bool.and_eq_true_iff.mp both).1, ?_⟩
      rw [Cycle.flush]
      split
      · exact running
      · exact running
    · exact ⟨taken, running⟩
  rw [← Except.ok.inj done]
  split
  · exact (flushed _).1.finish (flushed _).2
  · exact (flushed _).1

theorem turn_keepAlive {next : Cycle} (follows : Follows settings feed cycle) (running : cycle.ended = false)
    {walEnd : Nat}
    (small : walEnd < 2 ^ 64) (kept : forall lsn records, feed.opened = some (lsn, records) -> walEnd ≤ lsn)
    {roots : List (Nat × String)} {aged stopped : Bool}
    (done : cycle.turn textToJson settings (.keepAlive walEnd) roots aged stopped = .ok next) :
    Follows settings { feed with promised := max feed.promised walEnd } next := by
  have growth := Feed.grows_keepAlive follows.valid small kept
  have grown := follows.regrow growth rfl (Nat.le_max_left _ _) follows.inTxn follows.staged rfl
  refine turn done (fun received justCommitted receives => ?_)
  rw [Cycle.receive, quietPosition] at receives
  by_cases quiet : (!cycle.state.inTxn && decide (max cycle.claimed (cycle.batch.lsn.getD 0) < walEnd)) = true
  · rw [if_pos quiet] at receives
    cases Except.ok.inj receives
    have ahead := of_decide_eq_true (Bool.and_eq_true_iff.mp quiet).2
    exact ⟨(grown.quiet (Nat.le_max_right _ _) ahead).with_registry _, running⟩
  · rw [if_neg quiet] at receives
    cases Except.ok.inj receives
    exact ⟨grown.with_registry _, running⟩

/-- An event that leaves no transaction committed. -/
theorem turn_event {next : Cycle} (follows : Follows settings feed cycle) (running : cycle.ended = false) {grown : Feed}
    (growth : feed.Grows grown) (sent : grown.sent = feed.sent) (promised : feed.promised ≤ grown.promised)
    {event : ReplicationEvent}
    (handles : forall registry state committed,
      handleEvent textToJson cycle.registry cycle.state event = .ok (registry, state, committed) ->
      state.inTxn = grown.opened.isSome ∧
        (forall lsn records, grown.opened = some (lsn, records) -> state.staged = records ∧ state.inProgressLsn = lsn) ∧
        state.lastCommitted = cycle.state.lastCommitted)
    {roots : List (Nat × String)} {aged stopped : Bool}
    (done : cycle.turn textToJson settings (.event event) roots aged stopped = .ok next) :
    Follows settings grown next := by
  refine turn done (fun received justCommitted receives => ?_)
  rcases bind_eq_ok receives with ⟨⟨registry, state, committed⟩, handled, receives⟩
  rcases handles registry state committed handled with ⟨inTxn, staged, last⟩
  dsimp only at receives
  have quiet : ¬ (cycle.state.inTxn && !state.inTxn && decide (state.lastCommitted ≠ cycle.state.lastCommitted)) =
    true := by
    rw [last]
    simp
  rw [if_neg quiet] at receives
  cases Except.ok.inj receives
  exact ⟨(follows.regrow growth sent promised inTxn staged last).with_registry _, running⟩

theorem step {now next : Feed × Cycle} (follows : Follows settings now.1 now.2)
    (moves : Step textToJson settings now next) : Follows settings next.1 next.2 := by
  cases moves with
  | keepAlive running small kept done => exact follows.turn_keepAlive running small kept done
  | @begin feed cycle next commitLsn ts roots aged stopped running closed small increasing kept done =>
      refine follows.turn_event running (Feed.grows_begin follows.valid small increasing kept) rfl
        (Nat.le_refl _) ?_ done
      intro registry state committed handled
      have outside : cycle.state.inTxn = false := by
        rw [follows.inTxn]
        exact congrArg Option.isSome closed
      rw [handleEvent, outside, if_neg Bool.false_ne_true] at handled
      cases Except.ok.inj handled
      refine ⟨rfl, fun lsn records same => ?_, rfl⟩
      cases Option.some.inj same
      exact ⟨rfl, rfl⟩
  | @change feed cycle next commitLsn records added message roots aged stopped running progress decoded done =>
      rcases follows.staged _ _ progress with ⟨staged, lsn⟩
      have stamped : forall record, record ∈ added -> Stamped commitLsn record :=
        fun record member => lsn ▸ stamped_changeRecords decoded member
      refine follows.turn_event running (Feed.grows_change follows.valid progress stamped) rfl (Nat.le_refl _) ?_ done
      intro registry state committed handled
      rcases bind_eq_ok handled with ⟨decodedMessage, isMessage, handled⟩
      cases Except.ok.inj isMessage
      rcases bind_eq_ok handled with ⟨⟨nextRegistry, nextState⟩, staging, handled⟩
      cases Except.ok.inj handled
      rcases handlePgoutput_ok staging with ⟨others, sameRecords, rfl⟩
      cases Except.ok.inj (decoded.symm.trans sameRecords)
      refine ⟨?_, fun other all same => ?_, rfl⟩
      · change cycle.state.inTxn = _
        have inside : feed.opened.isSome = true := congrArg Option.isSome progress
        exact follows.inTxn.trans inside
      · cases Option.some.inj same
        exact ⟨congrArg (· ++ added) staged, lsn⟩
  | @commit feed cycle next commitLsn endLsn records roots aged stopped running progress small after increasing done =>
      refine turn done (fun received justCommitted receives => ?_)
      have inside : cycle.state.inTxn = true := by
        rw [follows.inTxn]
        exact congrArg Option.isSome progress
      have fresh : some endLsn ≠ cycle.state.lastCommitted := by
        intro same
        rw [follows.committed] at same
        rcases Option.map_eq_some_iff.mp same.symm with ⟨txn, found, sameEnd⟩
        exact absurd sameEnd (Nat.ne_of_lt (increasing txn (List.mem_of_getLast? found)))
      rcases bind_eq_ok receives with ⟨⟨registry, state, committed⟩, handled, receives⟩
      rw [handleEvent, inside] at handled
      cases Except.ok.inj handled
      dsimp only at receives
      rw [inside] at receives
      rw [if_pos (by simpa using fresh)] at receives
      cases Except.ok.inj receives
      have collected := (follows.with_registry (cycle.registry.resolve roots)).commit progress small after increasing
        (cycle.totalRecords + cycle.state.staged.length)
      refine ⟨collected, ?_⟩
      simp only [Cycle.collect, Option.map_some]
      split
      · exact running
      · exact running
  | logicalMessage running done =>
      refine follows.turn_event running (Feed.Grows.refl follows.valid) rfl (Nat.le_refl _) ?_ done
      intro registry state committed handled
      cases Except.ok.inj handled
      exact ⟨follows.inTxn, follows.staged, rfl⟩
  | timeout running done =>
      refine turn done (fun received justCommitted receives => ?_)
      cases Except.ok.inj receives
      exact ⟨follows.with_registry _, running⟩

theorem of_reaches {startLsn maxStagedRecords : Option Nat} {moneyFractionDigits : Nat} {now : Feed × Cycle}
    (reached : Reaches textToJson settings startLsn maxStagedRecords moneyFractionDigits now) :
    Follows settings now.1 now.2 := by
  induction reached with
  | start => exact Follows.start settings startLsn maxStagedRecords moneyFractionDigits
  | step reached moves ih => exact ih.step moves

end Follows

/-- The pages up to a bookmark carry the transactions that end at or below it,
whole and in commit order; bookmarks do not decrease; and a staged record is
covered by a bookmark once it was emitted, and with commits spaced only then. -/
theorem pages_cover_bookmark (textToJson : Nat -> String -> Option Nat -> Except FaucetError Value)
    (settings : Settings)
    (startLsn maxStagedRecords : Option Nat) (moneyFractionDigits : Nat) {feed : Feed} {cycle : Cycle}
    (reached : Reaches textToJson settings startLsn maxStagedRecords moneyFractionDigits (feed, cycle)) :
    cycle.pages.Pairwise (fun first second => positionLe first.bookmark second.bookmark = some true) ∧
      forall before page after, cycle.pages = before ++ page :: after ->
        (exists lsn, lsnOf page.bookmark = some lsn ∧
          carried (before ++ [page]) = recordsOf (feed.sent.filter (fun txn => decide (txn.endLsn ≤ lsn)))) ∧
        (forall record, feed.Staged record ->
          (record ∈ carried (before ++ [page]) -> recordCovered record page.bookmark = some true) ∧
          (feed.Spaced -> recordCovered record page.bookmark = some true -> record ∈ carried (before ++ [page]))) := by
  have follows := Follows.of_reaches reached
  have valid : feed.Valid := follows.valid
  rcases follows.pages with ⟨last, marked, _, _⟩
  refine ⟨marked.bookmarks_sorted valid, fun before page after split => ?_⟩
  rcases marked.covered_of_mem split with ⟨lsn, _, bookmark, covered⟩
  have small := covered.claimable.small valid
  refine ⟨⟨lsn, ?_, covered.filter valid⟩, ?_⟩
  · rw [bookmark]
    exact lsnOf_bookmark small
  · intro record staged
    -- A staged record belongs to one transaction, and is stamped with its commit.
    have belongs : exists commit records, record ∈ records ∧ commit < 2 ^ 64 ∧ Stamped commit record ∧
        ((exists endLsn, ⟨commit, endLsn, records⟩ ∈ feed.sent) ∨ feed.opened = some (commit, records)) := by
      rcases staged with whole | ⟨commit, records, progress, member⟩
      · rcases List.mem_flatMap.mp whole with ⟨⟨commit, endLsn, records⟩, inSent, member⟩
        rcases valid.bounds _ inSent with ⟨ends, endSmall, stamped⟩
        exact ⟨commit, records, member, Nat.lt_trans ends endSmall, stamped record member, .inl ⟨endLsn, inSent⟩⟩
      · rcases valid.progress _ _ progress with ⟨commitSmall, _, _, stamped⟩
        exact ⟨commit, records, member, commitSmall, stamped record member, .inr progress⟩
    rcases belongs with ⟨commit, records, member, commitSmall, stamped, place⟩
    rw [bookmark, recordCovered_eq commitSmall small stamped, Option.some_inj, decide_eq_true_eq]
    refine ⟨?_, ?_⟩
    · intro emitted
      rw [covered.filter valid] at emitted
      rcases List.mem_flatMap.mp emitted with ⟨txn, found, inside⟩
      rcases List.mem_filter.mp found with ⟨inSent, reachedEnd⟩
      rcases valid.bounds txn inSent with ⟨ends, endSmall, stampedThere⟩
      have same : commit = txn.commitLsn := by
        have texts := stamped.symm.trans (stampedThere record inside)
        have formatted : formatLsn commit = formatLsn txn.commitLsn := Value.string.inj (Option.some.inj texts)
        have parsed := parseLsn_formatLsn commitSmall
        rw [formatted, parseLsn_formatLsn (Nat.lt_trans ends endSmall)] at parsed
        exact (Except.ok.inj parsed).symm
      rw [same]
      exact Nat.lt_of_lt_of_le ends (of_decide_eq_true reachedEnd)
    · intro spaced below
      rcases covered.commit_of_not_emitted valid spaced place with ⟨emitted, _⟩ | past
      · exact emitted record member
      · exact absurd below (Nat.not_lt.mpr past)

/-! ## Two transactions of one row each -/

def plainText (_ : Nat) (text : String) (_ : Option Nat) : Except FaucetError Value := .ok (.string text)

def sampleRelation : Relation := ⟨1, "public", "orders", []⟩

def sampleRecord (commitLsn : Nat) : Value :=
  record sampleRelation none "insert" { inProgressLsn := commitLsn } none (some ⟨[], []⟩)

/-- The first transaction commits at 10 and ends at 20, the second one commits
at `second`. -/
private theorem reaches_sample (second : Nat) (small : second < 2 ^ 64) (after : 10 < second) :
    exists cycle, Reaches plainText ⟨1, none⟩ none none 2
        (⟨[⟨10, 20, [sampleRecord 10]⟩], some (second, [sampleRecord second]), 0⟩, cycle) ∧
      cycle.pages = [⟨[sampleRecord 10], (Bookmark.fromU64 20).toValue⟩] := by
  have fresh : Reaches plainText ⟨1, none⟩ none none 2 (⟨[], none, 0⟩, .start none none 2) := .start
  have begun := fresh.step
    (@Step.begin _ _ _ _ _ 10 0 [] false false rfl rfl (by decide) nofun
      (by decide) rfl)
  have related := begun.step (@Step.change _ _ _ _ _ _ _ _ (.relation sampleRelation) [] false false rfl rfl rfl rfl)
  have inserted := related.step (@Step.change _ _ _ _ _ _ _ _ (.insert 1 []) [] false false rfl rfl rfl rfl)
  have committed := inserted.step (@Step.commit _ _ _ _ _ _ 20 _ [] false false rfl rfl (by decide) (by decide)
    nofun rfl)
  have again := committed.step (@Step.begin _ _ _ _ _ second 0 [] false false rfl rfl small (by simpa using after)
    (Nat.zero_le _) rfl)
  have more := again.step (@Step.change _ _ _ _ _ _ _ _ (.insert 1 []) [] false false rfl rfl rfl rfl)
  exact ⟨_, more, rfl⟩

theorem pages_cover_bookmark_sample : exists feed cycle, Reaches plainText ⟨1, none⟩ none none 2 (feed, cycle) ∧
    cycle.pages = [⟨[sampleRecord 10], (Bookmark.fromU64 20).toValue⟩] ∧ feed.Staged (sampleRecord 30) ∧
    recordCovered (sampleRecord 30) (Bookmark.fromU64 20).toValue ≠ some true := by
  rcases reaches_sample 30 (by decide) (by decide) with ⟨cycle, reached, pages⟩
  have staged : (⟨[⟨10, 20, [sampleRecord 10]⟩], some (30, [sampleRecord 30]), 0⟩ : Feed).Staged (sampleRecord 30) :=
    .inr ⟨30, [sampleRecord 30], rfl, List.mem_singleton.mpr rfl⟩
  refine ⟨_, cycle, reached, pages, staged, fun covered => ?_⟩
  have spaced : (⟨[⟨10, 20, [sampleRecord 10]⟩], some (30, [sampleRecord 30]), 0⟩ : Feed).Spaced := by
    refine ⟨List.pairwise_singleton _ _, fun lsn records same txn member => ?_⟩
    cases Option.some.inj same
    rw [List.mem_singleton.mp member]
    decide
  have facts := (pages_cover_bookmark plainText ⟨1, none⟩ none none 2 reached).2 [] _ [] pages
  have emitted := (facts.2 _ staged).2 spaced covered
  exact absurd (List.mem_singleton.mp emitted) (by decide)

/-- Commits that only increase may lie below the end of the one before: such
a record is covered by a bookmark it was not emitted at. -/
theorem recordCovered_not_emitted : exists feed cycle, Reaches plainText ⟨1, none⟩ none none 2 (feed, cycle) ∧
    exists page, cycle.pages = [page] ∧ exists record, feed.Staged record ∧
      recordCovered record page.bookmark = some true ∧ record ∉ carried [page] := by
  rcases reaches_sample 15 (by decide) (by decide) with ⟨cycle, reached, pages⟩
  refine ⟨_, cycle, reached, _, pages, sampleRecord 15, ?_, ?_, ?_⟩
  · exact .inr ⟨15, [sampleRecord 15], rfl, List.mem_singleton.mpr rfl⟩
  · have stamped : Stamped 15 (sampleRecord 15) := rfl
    exact recordCovered_eq (by decide) (by decide) stamped
  · intro emitted
    exact absurd (List.mem_singleton.mp emitted) (by decide)

end PostgresCdc
end FaucetStream
