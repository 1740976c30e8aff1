import FaucetStream.Library.Keyed
import Mathlib.Data.Prod.Lex

namespace FaucetStream
namespace OracleCdc

open Library

/-!
# Redo logs for a mining window

The logs a window needs are picked per thread from a listing, and the listing is
searched for gaps: between the logs, before the first, after the last, and for
threads without any log in the window.
-/

/-- An online or archived redo log. -/
structure LogFile where
  name : String
  thread : Int
  sequence : Int
  firstChange : Nat
  nextChange : Nat
  /-- True for an archived copy. -/
  archived : Bool
  deriving DecidableEq

/-- Why a window cannot be mined; each holds what its message shows. -/
inductive LogGap where
  | noLog (start finish : Nat)
  | missing (thread firstSequence lastSequence : Int) (scn nextScn : Nat)
  | unavailable (start oldest : Nat) (thread : Int)
  | missingTail (thread firstSequence lastSequence : Int) (scn nextScn finish : Nat)
  deriving DecidableEq

def LogFile.key (log : LogFile) : Int ×ₗ Int := toLex (log.thread, log.sequence)

/-- The log holds changes of the window. -/
def LogFile.covers (start finish : Nat) (log : LogFile) : Bool :=
  decide (log.firstChange ≤ finish ∧ start < log.nextChange)

/-- An archived copy is preferred, and the first of several. -/
def choose (chosen : List LogFile) (log : LogFile) : List LogFile :=
  match chosen.find? (fun existing => existing.key == log.key) with
  | some existing => if existing.archived || !log.archived then chosen else insertKeyed LogFile.key log chosen
  | none => insertKeyed LogFile.key log chosen

def chosenLogs (all : List LogFile) (start finish : Nat) : List LogFile :=
  (all.filter (LogFile.covers start finish)).foldl choose []

/-- The threads of some logs, ascending. -/
def threadsOf (logs : List LogFile) : List Int :=
  logs.foldl (fun threads log => insertKeyed id log.thread threads) []

def ofThread (logs : List LogFile) (thread : Int) : List LogFile := logs.filter (fun log => log.thread == thread)

/-- The log of a thread with the lowest sequence above this one. -/
def nextLogAfter (all : List LogFile) (thread sequence : Int) : Option LogFile :=
  (all.filter (fun log => log.thread == thread && decide (sequence < log.sequence))).minOn? LogFile.sequence

def missingTail (thread lastSequence : Int) (scn : Nat) (later : LogFile) (finish : Nat) : LogGap :=
  .missingTail thread (lastSequence + 1) (later.sequence - 1) scn later.firstChange finish

/-- Each pair of neighbours has consecutive sequences. -/
def checkPairs (thread : Int) : List LogFile -> Except LogGap Unit
  | first :: second :: rest =>
      if second.sequence ≠ first.sequence + 1 then
        .error (.missing thread (first.sequence + 1) (second.sequence - 1) first.nextChange second.firstChange)
      else checkPairs thread (second :: rest)
  | _ => .ok ()

/-- The logs begin by the start of the window. -/
def checkStart (start : Nat) (thread : Int) (oldest : LogFile) : Except LogGap Unit :=
  if start < oldest.firstChange then .error (.unavailable start oldest.firstChange thread) else .ok ()

/-- The logs reach past the end of the window unless nothing follows them. -/
def checkTail (all : List LogFile) (finish : Nat) (thread : Int) (newest : LogFile) : Except LogGap Unit :=
  if newest.nextChange ≤ finish then
    match nextLogAfter all thread newest.sequence with
    | some later => .error (missingTail thread newest.sequence newest.nextChange later finish)
    | none => .ok ()
  else .ok ()

/-- The checks of a thread with logs in the window. -/
def checkThread (all : List LogFile) (start finish : Nat) (thread : Int) (logs : List LogFile) :
    Except LogGap Unit := do
  checkPairs thread logs
  match logs with
  | [] => .ok ()
  | oldest :: rest => do
      checkStart start thread oldest
      checkTail all finish thread ((oldest :: rest).getLast (List.cons_ne_nil _ _))

/-- The check of a thread without any log in the window. -/
def checkAbsent (all : List LogFile) (start finish : Nat) (thread : Int) : Except LogGap Unit :=
  -- the last of several logs with the highest sequence
  match (all.filter (fun log => log.thread == thread && decide (log.nextChange ≤ start))).reverse.maxOn?
      LogFile.sequence with
  | some before =>
      match nextLogAfter all thread before.sequence with
      | some later => .error (missingTail thread before.sequence before.nextChange later finish)
      | none => .ok ()
  | none => .ok ()

def planLogFiles (all : List LogFile) (start finish : Nat) : Except LogGap (List LogFile) :=
  let chosen := chosenLogs all start finish
  if chosen.isEmpty then .error (.noLog start finish)
  else do
    let byThread := threadsOf chosen
    byThread.forM (fun thread => checkThread all start finish thread (ofThread chosen thread))
    ((threadsOf all).filter (fun thread => !byThread.contains thread)).forM (checkAbsent all start finish)
    .ok chosen

/-! ## The chosen logs -/

theorem mem_of_mem_choose {chosen : List LogFile} {log found : LogFile} (member : found ∈ choose chosen log) :
    found = log ∨ found ∈ chosen := by
  unfold choose at member
  split at member
  · split at member
    · exact Or.inr member
    · exact mem_of_mem_insertKeyed member
  · exact mem_of_mem_insertKeyed member

theorem exists_key_choose {chosen : List LogFile} {log : LogFile} {sought : Int ×ₗ Int} :
    (exists found, found ∈ choose chosen log ∧ found.key = sought) <->
      log.key = sought ∨ exists found, found ∈ chosen ∧ found.key = sought := by
  unfold choose
  split
  · next existing present =>
      split
      · constructor
        · exact Or.inr
        · rintro (rfl | found)
          · have same := List.find?_some present
            exact ⟨existing, List.mem_of_find?_eq_some present, beq_iff_eq.mp same⟩
          · exact found
      · exact exists_key_insertKeyed
  · exact exists_key_insertKeyed

theorem ascending_choose {chosen : List LogFile} (ascending : Ascending LogFile.key chosen) (log : LogFile) :
    Ascending LogFile.key (choose chosen log) := by
  unfold choose
  split
  · split
    · exact ascending
    · exact ascending.insertKeyed log
  · exact ascending.insertKeyed log

theorem foldl_choose (logs chosen : List LogFile) :
    (forall found, found ∈ logs.foldl choose chosen -> found ∈ chosen ∨ found ∈ logs) ∧
      (forall sought, (exists found, found ∈ logs.foldl choose chosen ∧ found.key = sought) <->
        (exists found, found ∈ chosen ∧ found.key = sought) ∨ exists log, log ∈ logs ∧ log.key = sought) ∧
      (Ascending LogFile.key chosen -> Ascending LogFile.key (logs.foldl choose chosen)) := by
  induction logs generalizing chosen with
  | nil =>
      refine ⟨fun found member => Or.inl member, fun sought => ⟨Or.inl, ?_⟩, id⟩
      rintro (present | ⟨log, impossible, _⟩)
      · exact present
      · cases impossible
  | cons log logs ih =>
      rcases ih (choose chosen log) with ⟨origin, keys, ascending⟩
      rw [List.foldl_cons]
      refine ⟨?_, ?_, fun before => ascending (ascending_choose before log)⟩
      · intro found member
        rcases origin found member with inside | behind
        · rcases mem_of_mem_choose inside with rfl | before
          · exact Or.inr List.mem_cons_self
          · exact Or.inl before
        · exact Or.inr (List.mem_cons_of_mem _ behind)
      · intro sought
        rw [keys, exists_key_choose, List.exists_mem_cons_iff]
        exact or_assoc.trans or_left_comm

theorem covers_iff {start finish : Nat} {log : LogFile} :
    log.covers start finish = true <-> log.firstChange ≤ finish ∧ start < log.nextChange := decide_eq_true_iff

theorem mem_chosenLogs {all : List LogFile} {start finish : Nat} {log : LogFile}
    (member : log ∈ chosenLogs all start finish) : log ∈ all ∧ log.covers start finish = true := by
  rcases (foldl_choose _ []).1 log member with impossible | inside
  · cases impossible
  · exact List.mem_filter.mp inside

/-- Of each log that covers the window one copy is chosen. -/
theorem exists_chosenLogs {all : List LogFile} {start finish : Nat} {log : LogFile} (member : log ∈ all)
    (covers : log.covers start finish = true) :
    exists copy, copy ∈ chosenLogs all start finish ∧ copy.thread = log.thread ∧ copy.sequence = log.sequence := by
  rcases ((foldl_choose _ []).2.1 log.key).mpr (Or.inr ⟨log, List.mem_filter.mpr ⟨member, covers⟩, rfl⟩) with
    ⟨copy, chosen, same⟩
  have fields := Prod.mk.inj (toLex_inj.mp same)
  exact ⟨copy, chosen, fields.1, fields.2⟩

theorem ascending_chosenLogs (all : List LogFile) (start finish : Nat) :
    Ascending LogFile.key (chosenLogs all start finish) :=
  (foldl_choose _ []).2.2 List.Pairwise.nil

theorem mem_ofThread {logs : List LogFile} {thread : Int} {log : LogFile} :
    log ∈ ofThread logs thread <-> log ∈ logs ∧ log.thread = thread := by
  rw [ofThread, List.mem_filter, beq_iff_eq]

theorem ascending_ofThread (all : List LogFile) (start finish : Nat) (thread : Int) :
    Ascending LogFile.sequence (ofThread (chosenLogs all start finish) thread) := by
  have sorted : (ofThread (chosenLogs all start finish) thread).Pairwise
      (fun first second => first.key < second.key) :=
    List.Pairwise.filter _ (ascending_chosenLogs all start finish)
  refine sorted.imp_of_mem ?_
  intro first second firstIn secondIn before
  rcases Prod.Lex.toLex_lt_toLex.mp before with lower | ⟨_, lower⟩
  · rw [(mem_ofThread.mp firstIn).2, (mem_ofThread.mp secondIn).2] at lower
    exact absurd lower (lt_irrefl _)
  · exact lower

theorem mem_threadsOf {logs : List LogFile} {thread : Int} :
    thread ∈ threadsOf logs <-> exists log, log ∈ logs ∧ log.thread = thread := by
  have general : forall threads : List Int,
      (thread ∈ logs.foldl (fun threads log => insertKeyed id log.thread threads) threads <->
        thread ∈ threads ∨ exists log, log ∈ logs ∧ log.thread = thread) := by
    induction logs with
    | nil => simp only [List.foldl_nil, List.not_mem_nil, false_and, exists_false, or_false, implies_true]
    | cons log logs ih =>
        intro threads
        have one : thread ∈ insertKeyed id log.thread threads <-> log.thread = thread ∨ thread ∈ threads := by
          have keys := @exists_key_insertKeyed Int Int _ id log.thread threads thread
          simpa only [id, exists_eq_right] using keys
        rw [List.foldl_cons, ih, one, List.exists_mem_cons_iff]
        exact or_assoc.trans or_left_comm
  rw [threadsOf, general]
  simp only [List.not_mem_nil, false_or]

/-! ## The checks -/

theorem forM_eq_ok {A Cause : Type} {check : A -> Except Cause Unit} {items : List A} :
    items.forM check = .ok () <-> forall item, item ∈ items -> check item = .ok () := by
  induction items with
  | nil => exact ⟨nofun, fun _ => rfl⟩
  | cons first rest ih =>
      rw [List.forall_mem_cons, ← ih]
      change (check first >>= fun _ => rest.forM check) = _ <-> _
      cases check first with
      | error cause =>
          constructor
          · intro impossible
            cases impossible
          · rintro ⟨impossible, _⟩
            cases impossible
      | ok done => exact ⟨fun passed => ⟨rfl, passed⟩, And.right⟩

theorem nextLogAfter_eq_none {all : List LogFile} {thread sequence : Int} :
    nextLogAfter all thread sequence = none <->
      forall log, log ∈ all -> log.thread = thread -> log.sequence ≤ sequence := by
  unfold nextLogAfter
  rw [← Option.not_isSome_iff_eq_none, List.isSome_minOn?_iff, not_not, List.filter_eq_nil_iff]
  constructor
  · intro none log member same
    by_contra above
    exact none log member (by simp only [same, beq_self_eq_true, Bool.true_and, decide_eq_true_eq]; omega)
  · intro bounded log member later
    rw [Bool.and_eq_true, beq_iff_eq, decide_eq_true_eq] at later
    have bound := bounded log member later.1
    omega

theorem checkPairs_eq_ok {thread : Int} {logs : List LogFile} :
    checkPairs thread logs = .ok () <-> Consecutive LogFile.sequence logs := by
  induction logs with
  | nil => exact ⟨fun _ => List.IsChain.nil, fun _ => rfl⟩
  | cons first rest ih =>
      cases rest with
      | nil => exact ⟨fun _ => List.IsChain.singleton _, fun _ => rfl⟩
      | cons second rest =>
          rw [checkPairs]
          unfold Consecutive at ih ⊢
          rw [List.isChain_cons_cons, ← ih]
          split
          · next gap =>
              constructor
              · intro impossible
                cases impossible
              · rintro ⟨next, _⟩
                exact absurd next gap
          · next next => exact ⟨fun passed => ⟨not_not.mp next, passed⟩, And.right⟩

theorem except_bind_eq_ok {A Cause : Type} {first : Except Cause Unit} {second : Except Cause A} {result : A} :
    (first >>= fun _ => second) = .ok result <-> first = .ok () ∧ second = .ok result := by
  cases first with
  | error cause =>
      constructor
      · intro impossible
        cases impossible
      · rintro ⟨impossible, _⟩
        cases impossible
  | ok done => exact ⟨fun passed => ⟨rfl, passed⟩, And.right⟩

theorem checkTail_eq_ok {all : List LogFile} {finish : Nat} {thread : Int} {newest : LogFile} :
    checkTail all finish thread newest = .ok () <->
      (newest.nextChange ≤ finish -> nextLogAfter all thread newest.sequence = none) := by
  unfold checkTail
  by_cases short : newest.nextChange ≤ finish
  · rw [if_pos short]
    cases next : nextLogAfter all thread newest.sequence with
    | none => exact ⟨fun _ _ => rfl, fun _ => rfl⟩
    | some later =>
        constructor
        · intro impossible
          cases impossible
        · intro nothing
          cases nothing short
  · rw [if_neg short]
    exact ⟨fun _ impossible => absurd impossible short, fun _ => rfl⟩

theorem checkThread_eq_ok {all : List LogFile} {start finish : Nat} {thread : Int} {oldest : LogFile}
    {rest : List LogFile} :
    checkThread all start finish thread (oldest :: rest) = .ok () <->
      Consecutive LogFile.sequence (oldest :: rest) ∧ oldest.firstChange ≤ start ∧
        (((oldest :: rest).getLast (List.cons_ne_nil _ _)).nextChange ≤ finish ->
          nextLogAfter all thread ((oldest :: rest).getLast (List.cons_ne_nil _ _)).sequence = none) := by
  have begins : checkStart start thread oldest = .ok () <-> oldest.firstChange ≤ start := by
    unfold checkStart
    split
    · next late =>
        constructor
        · intro impossible
          cases impossible
        · intro early
          omega
    · next early => exact ⟨fun _ => not_lt.mp early, fun _ => rfl⟩
  rw [checkThread, except_bind_eq_ok, except_bind_eq_ok, checkPairs_eq_ok, begins, checkTail_eq_ok]

/-- A plan holds the chosen logs once every thread passes its check. -/
theorem planLogFiles_eq_ok {all : List LogFile} {start finish : Nat} {chosen : List LogFile} :
    planLogFiles all start finish = .ok chosen <->
      chosen = chosenLogs all start finish ∧ chosen ≠ [] ∧
        (forall thread, thread ∈ threadsOf chosen ->
          checkThread all start finish thread (ofThread chosen thread) = .ok ()) ∧
        (forall thread, thread ∈ threadsOf all -> thread ∉ threadsOf chosen ->
          checkAbsent all start finish thread = .ok ()) := by
  unfold planLogFiles
  dsimp only
  by_cases empty : chosenLogs all start finish = []
  · rw [if_pos (List.isEmpty_iff.mpr empty)]
    constructor
    · intro impossible
      cases impossible
    · rintro ⟨rfl, nonempty, _⟩
      exact absurd empty nonempty
  · rw [if_neg (fun none => empty (List.isEmpty_iff.mp none)), except_bind_eq_ok, except_bind_eq_ok, forM_eq_ok,
      forM_eq_ok]
    constructor
    · rintro ⟨threads, absent, same⟩
      cases same
      refine ⟨rfl, empty, threads, fun thread member outside => absent thread (List.mem_filter.mpr ⟨member, ?_⟩)⟩
      simpa using outside
    · rintro ⟨rfl, _, threads, absent⟩
      refine ⟨threads, fun thread member => ?_, rfl⟩
      rcases List.mem_filter.mp member with ⟨inside, outside⟩
      exact absent thread inside (by simpa using outside)

end OracleCdc
end FaucetStream
