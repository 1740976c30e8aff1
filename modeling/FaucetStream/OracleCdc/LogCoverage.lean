import FaucetStream.OracleCdc.LogPlan

namespace FaucetStream
namespace OracleCdc

open Library

/-!
# Which losses of redo are noticed

The redo of a database is a run of logs for each thread, whose changes follow
one another without a hole.  A listing shows some of them: archived copies whose
changes reach into the window, and the last logs of each thread online.

A plan for the window leaves out no log of a thread of which it has at least
one.  A thread whose logs in the window are all gone is only noticed when a log
of it from before the window is listed, and the query for archived logs keeps
such a log only when it ends right where the window begins.
-/

/-- What a log holds, whatever file it is in. -/
structure RedoLog where
  thread : Int
  sequence : Int
  firstChange : Nat
  nextChange : Nat
  deriving DecidableEq

def LogFile.log (file : LogFile) : RedoLog := ⟨file.thread, file.sequence, file.firstChange, file.nextChange⟩

/-- The log holds changes of the window. -/
def RedoLog.Overlaps (start finish : Nat) (log : RedoLog) : Prop := log.firstChange ≤ finish ∧ start < log.nextChange

/-- The logs a database has ever written. -/
structure RedoHistory where
  logs : List RedoLog
  unique : forall one, one ∈ logs -> forall other, other ∈ logs -> one.thread = other.thread ->
    one.sequence = other.sequence -> one = other
  consecutive : forall low, low ∈ logs -> forall high, high ∈ logs -> low.thread = high.thread ->
    forall sequence, low.sequence ≤ sequence -> sequence ≤ high.sequence ->
      exists log, log ∈ logs ∧ log.thread = low.thread ∧ log.sequence = sequence
  ranged : forall log, log ∈ logs -> log.firstChange ≤ log.nextChange
  tiled : forall one, one ∈ logs -> forall other, other ∈ logs -> one.thread = other.thread ->
    other.sequence = one.sequence + 1 -> one.nextChange = other.firstChange

/-- What the two queries list of a history: archived logs that reach into the
window after a position, and a last run of each thread's logs online. -/
structure Listing (history : RedoHistory) (position finish : Nat) (listed : List LogFile) : Prop where
  recorded : forall file, file ∈ listed -> file.log ∈ history.logs
  filtered : forall file, file ∈ listed -> file.archived = true ->
    position < file.nextChange ∧ file.firstChange ≤ finish
  lastRun : forall file, file ∈ listed -> file.archived = false -> forall log, log ∈ history.logs ->
    log.thread = file.thread -> file.sequence ≤ log.sequence ->
      exists copy, copy ∈ listed ∧ copy.archived = false ∧ copy.log = log

/-- Whatever the plan for the window chooses, it has a copy of each log of the
window on each thread that is online. -/
def SkipsNothing (history : RedoHistory) (position finish : Nat) (listed : List LogFile) : Prop :=
  forall chosen, planLogFiles listed (position + 1) finish = .ok chosen ->
    forall log, log ∈ history.logs -> log.Overlaps (position + 1) finish ->
      (exists file, file ∈ listed ∧ file.archived = false ∧ file.thread = log.thread) ->
        exists copy, copy ∈ chosen ∧ copy.log = log

/-- A listed log of a thread with changes of the window. -/
def Here (listed : List LogFile) (start finish : Nat) (thread : Int) (file : LogFile) : Prop :=
  file ∈ listed ∧ file.thread = thread ∧ file.covers start finish = true

/-- A loss that shows in the listed logs of one thread. -/
inductive Shows (listed : List LogFile) (start finish : Nat) (thread : Int) : Prop where
  /-- A sequence is left out. -/
  | between (low high : LogFile) (lowHere : Here listed start finish thread low)
      (highHere : Here listed start finish thread high) (sequence : Int) (above : low.sequence < sequence)
      (below : sequence < high.sequence)
      (leftOut : forall file, Here listed start finish thread file -> file.sequence ≠ sequence)
  /-- The logs begin after the window does. -/
  | before (some : LogFile) (here : Here listed start finish thread some)
      (late : forall file, Here listed start finish thread file -> start < file.firstChange)
  /-- They end with the window or before, and a later log is listed. -/
  | behind (some : LogFile) (here : Here listed start finish thread some)
      (short : forall file, Here listed start finish thread file -> file.nextChange ≤ finish)
      (later : LogFile) (member : later ∈ listed) (same : later.thread = thread)
      (beyond : forall file, Here listed start finish thread file -> file.sequence < later.sequence)
  /-- There are none, but a log from before the window and one from after it. -/
  | around (none : forall file, ¬Here listed start finish thread file) (earlier : LogFile)
      (earlierIn : earlier ∈ listed) (earlierSame : earlier.thread = thread) (ended : earlier.nextChange ≤ start)
      (later : LogFile) (laterIn : later ∈ listed) (laterSame : later.thread = thread)
      (onward : start < later.nextChange)

/-- What a listing is refused for. -/
def Refused (listed : List LogFile) (start finish : Nat) : Prop :=
  (forall file, file ∈ listed -> file.covers start finish = false) ∨ exists thread, Shows listed start finish thread

/-- Each thread that is online and has a log of the window has such a log
listed. -/
def EachThreadListed (history : RedoHistory) (position finish : Nat) (listed : List LogFile) : Prop :=
  forall log, log ∈ history.logs -> log.Overlaps (position + 1) finish ->
    (exists file, file ∈ listed ∧ file.archived = false ∧ file.thread = log.thread) ->
      exists file, Here listed (position + 1) finish log.thread file

/-! ## The order of a thread's logs -/

variable {history : RedoHistory}

/-- Logs of one thread follow one another. -/
theorem RedoHistory.next_le_first {one other : RedoLog} (oneIn : one ∈ history.logs) (otherIn : other ∈ history.logs)
    (same : one.thread = other.thread) (before : one.sequence < other.sequence) :
    one.nextChange ≤ other.firstChange := by
  -- by induction on how many logs stand between
  have general : forall (distance : Nat) (other : RedoLog), other ∈ history.logs -> one.thread = other.thread ->
      other.sequence = one.sequence + (distance : Int) + 1 -> one.nextChange ≤ other.firstChange := by
    intro distance
    induction distance with
    | zero =>
        intro other otherIn same next
        exact le_of_eq (history.tiled one oneIn other otherIn same (by simpa using next))
    | succ distance ih =>
        intro other otherIn same far
        rcases history.consecutive one oneIn other otherIn same (one.sequence + distance + 1) (by omega) (by omega)
          with ⟨middle, middleIn, middleThread, middleSequence⟩
        have upTo := ih middle middleIn middleThread.symm middleSequence
        have ranged := history.ranged middle middleIn
        have tiled := history.tiled middle middleIn other otherIn (middleThread.trans same) (by omega)
        omega
  refine general (other.sequence - one.sequence - 1).toNat other otherIn same ?_
  omega

section Planned

variable {position finish start : Nat} {listed : List LogFile}

theorem mem_ofThread_chosen {thread : Int} {file : LogFile}
    (member : file ∈ ofThread (chosenLogs listed start finish) thread) : Here listed start finish thread file := by
  rcases mem_ofThread.mp member with ⟨chosen, same⟩
  rcases mem_chosenLogs chosen with ⟨inside, covers⟩
  exact ⟨inside, same, covers⟩

theorem exists_ofThread_chosen {thread : Int} {file : LogFile} (here : Here listed start finish thread file) :
    exists copy, copy ∈ ofThread (chosenLogs listed start finish) thread ∧ copy.sequence = file.sequence := by
  rcases here with ⟨inside, same, covers⟩
  rcases exists_chosenLogs inside covers with ⟨copy, chosen, thread, sequence⟩
  exact ⟨copy, mem_ofThread.mpr ⟨chosen, thread.trans same⟩, sequence⟩

variable (listing : Listing history position finish listed)

include listing

theorem Listing.next_le_first {one other : LogFile} (oneIn : one ∈ listed) (otherIn : other ∈ listed)
    (same : one.thread = other.thread) (before : one.sequence < other.sequence) :
    one.nextChange ≤ other.firstChange :=
  RedoHistory.next_le_first (listing.recorded one oneIn) (listing.recorded other otherIn) same before

theorem Listing.log_eq {one other : LogFile} (oneIn : one ∈ listed) (otherIn : other ∈ listed)
    (same : one.thread = other.thread) (equal : one.sequence = other.sequence) : one.log = other.log :=
  history.unique _ (listing.recorded one oneIn) _ (listing.recorded other otherIn) same equal

/-- A log with a lower sequence has lower changes. -/
theorem Listing.changes_le {one other : LogFile} (oneIn : one ∈ listed) (otherIn : other ∈ listed)
    (same : one.thread = other.thread) (before : one.sequence ≤ other.sequence) :
    one.firstChange ≤ other.firstChange ∧ one.nextChange ≤ other.nextChange := by
  rcases lt_or_eq_of_le before with lower | equal
  · have apart := listing.next_le_first oneIn otherIn same lower
    have ranged := history.ranged _ (listing.recorded one oneIn)
    have otherRanged := history.ranged _ (listing.recorded other otherIn)
    exact ⟨le_trans ranged apart, le_trans apart otherRanged⟩
  · have equalLogs := listing.log_eq oneIn otherIn same equal
    have first : one.firstChange = other.firstChange := congrArg RedoLog.firstChange equalLogs
    have next : one.nextChange = other.nextChange := congrArg RedoLog.nextChange equalLogs
    exact ⟨le_of_eq first, le_of_eq next⟩

/-- A thread with logs in the window passes unless a loss shows. -/
theorem Listing.checkThread_eq_ok {thread : Int} {some : LogFile} (here : Here listed start finish thread some) :
    checkThread listed start finish thread (ofThread (chosenLogs listed start finish) thread) = .ok () <->
      ¬Shows listed start finish thread := by
  have ascending := ascending_ofThread listed start finish thread
  have members : forall file, file ∈ ofThread (chosenLogs listed start finish) thread ->
      Here listed start finish thread file := fun _ => mem_ofThread_chosen
  have copies : forall file, Here listed start finish thread file ->
      exists copy, copy ∈ ofThread (chosenLogs listed start finish) thread ∧ copy.sequence = file.sequence :=
    fun _ => exists_ofThread_chosen
  rcases logs : ofThread (chosenLogs listed start finish) thread with _ | ⟨oldest, rest⟩
  · rcases copies some here with ⟨copy, impossible, _⟩
    rw [logs] at impossible
    cases impossible
  rw [logs] at ascending members copies
  have lowest : forall file, Here listed start finish thread file -> oldest.sequence ≤ file.sequence := by
    intro file fileHere
    rcases copies file fileHere with ⟨copy, member, same⟩
    rw [← same]
    exact ascending.head_le member
  generalize last : (oldest :: rest).getLast (List.cons_ne_nil _ _) = newest
  have newestIn : newest ∈ oldest :: rest := last ▸ List.getLast_mem _
  have highest : forall file, Here listed start finish thread file -> file.sequence ≤ newest.sequence := by
    intro file fileHere
    rcases copies file fileHere with ⟨copy, member, same⟩
    rw [← same, ← last]
    exact ascending.le_getLast _ member
  have oldestHere := members oldest List.mem_cons_self
  have newestHere := members newest newestIn
  rw [OracleCdc.checkThread_eq_ok, consecutive_iff_of_ascending ascending, last, nextLogAfter_eq_none]
  constructor
  · rintro ⟨full, begins, ends⟩ shows
    cases shows with
    | between low high lowHere highHere sequence above below leftOut =>
        rcases copies low lowHere with ⟨lowCopy, lowIn, lowSame⟩
        rcases copies high highHere with ⟨highCopy, highIn, highSame⟩
        rcases full lowCopy lowIn highCopy highIn sequence (by omega) (by omega) with ⟨item, member, found⟩
        exact leftOut item (members item member) found
    | before some here late =>
        have after := late oldest oldestHere
        omega
    | behind some here short later member same beyond =>
        have bound := ends (short newest newestHere) later member same
        have above := beyond newest newestHere
        omega
    | around none earlier earlierIn earlierSame ended later laterIn laterSame onward => exact none some here
  · intro hidden
    refine ⟨?_, ?_, ?_⟩
    · intro low lowIn high highIn sequence above below
      by_contra missing
      apply hidden
      refine .between low high (members low lowIn) (members high highIn) sequence above below ?_
      intro file fileHere same
      rcases copies file fileHere with ⟨copy, member, copySame⟩
      exact missing ⟨copy, member, copySame.trans same⟩
    · by_contra late
      apply hidden
      refine .before oldest oldestHere ?_
      intro file fileHere
      have order := listing.changes_le oldestHere.1 fileHere.1 (oldestHere.2.1.trans fileHere.2.1.symm)
        (lowest file fileHere)
      omega
    · intro short later member same
      by_contra above
      apply hidden
      refine .behind newest newestHere ?_ later member same ?_
      · intro file fileHere
        have order := listing.changes_le fileHere.1 newestHere.1 (fileHere.2.1.trans newestHere.2.1.symm)
          (highest file fileHere)
        omega
      · intro file fileHere
        have bound := highest file fileHere
        omega

/-- A thread without logs in the window passes unless it has some around it. -/
theorem Listing.checkAbsent_eq_ok {thread : Int} (none : forall file, ¬Here listed start finish thread file) :
    checkAbsent listed start finish thread = .ok () <-> ¬Shows listed start finish thread := by
  unfold checkAbsent
  have ended : forall file, file ∈ (listed.filter (fun log => log.thread == thread &&
      decide (log.nextChange ≤ start))).reverse <-> file ∈ listed ∧ file.thread = thread ∧ file.nextChange ≤ start := by
    intro file
    rw [List.mem_reverse, List.mem_filter, Bool.and_eq_true, beq_iff_eq, decide_eq_true_eq]
  split
  · next latest found =>
      rcases (ended latest).mp (List.maxOn?_mem found) with ⟨latestIn, latestSame, latestEnded⟩
      have greatest : forall file, file ∈ listed -> file.thread = thread -> file.nextChange ≤ start ->
          file.sequence ≤ latest.sequence := by
        intro file member same passed
        have inside := (ended file).mpr ⟨member, same, passed⟩
        have bound := List.le_apply_get_maxOn?_of_mem (f := LogFile.sequence) inside
        simpa only [found, Option.get_some] using bound
      have passes : nextLogAfter listed thread latest.sequence = Option.none <-> ¬Shows listed start finish thread := by
        rw [nextLogAfter_eq_none]
        constructor
        · intro bounded shows
          cases shows with
          | between low high lowHere => exact none low lowHere
          | before some here => exact none some here
          | behind some here => exact none some here
          | around _ earlier earlierIn earlierSame passed later laterIn laterSame onward =>
              have bound := bounded later laterIn laterSame
              have order := listing.changes_le laterIn latestIn (laterSame.trans latestSame.symm) bound
              omega
        · intro hidden later laterIn laterSame
          by_contra above
          apply hidden
          refine .around none latest latestIn latestSame latestEnded later laterIn laterSame ?_
          by_contra passed
          have bound := greatest later laterIn laterSame (by omega)
          omega
      rw [← passes]
      cases nextLogAfter listed thread latest.sequence with
      | none => exact ⟨fun _ => rfl, fun _ => rfl⟩
      | some later =>
          constructor <;>
          · intro impossible
            cases impossible
  · next nothing =>
      refine ⟨fun _ shows => ?_, fun _ => rfl⟩
      cases shows with
      | between low high lowHere => exact none low lowHere
      | before some here => exact none some here
      | behind some here => exact none some here
      | around _ earlier earlierIn earlierSame passed =>
          have inside := (ended earlier).mpr ⟨earlierIn, earlierSame, passed⟩
          have found := List.isSome_maxOn?_of_mem (f := LogFile.sequence) inside
          rw [nothing] at found
          cases found

/-- A listing is planned from exactly when there is nothing to refuse it for. -/
theorem Listing.planLogFiles_eq_ok {chosen : List LogFile} :
    planLogFiles listed start finish = .ok chosen <->
      chosen = chosenLogs listed start finish ∧ ¬Refused listed start finish := by
  rw [OracleCdc.planLogFiles_eq_ok]
  have threads : forall thread, thread ∈ threadsOf (chosenLogs listed start finish) <->
      exists file, Here listed start finish thread file := by
    intro thread
    rw [mem_threadsOf]
    constructor
    · rintro ⟨file, member, same⟩
      exact ⟨file, mem_ofThread_chosen (mem_ofThread.mpr ⟨member, same⟩)⟩
    · rintro ⟨file, here⟩
      rcases exists_ofThread_chosen here with ⟨copy, member, _⟩
      exact ⟨copy, mem_ofThread.mp member⟩
  constructor
  · rintro ⟨rfl, nonempty, present, absent⟩
    refine ⟨rfl, ?_⟩
    rintro (uncovered | ⟨thread, shows⟩)
    · rcases List.exists_mem_of_ne_nil _ nonempty with ⟨file, member⟩
      rcases mem_chosenLogs member with ⟨inside, covers⟩
      rw [uncovered file inside] at covers
      cases covers
    · by_cases some : exists file, Here listed start finish thread file
      · rcases some with ⟨file, here⟩
        exact (listing.checkThread_eq_ok here).mp (present thread ((threads thread).mpr ⟨file, here⟩)) shows
      · have none : forall file, ¬Here listed start finish thread file := not_exists.mp some
        have listedThread : thread ∈ threadsOf listed := by
          rw [mem_threadsOf]
          cases shows with
          | between low high lowHere => exact absurd lowHere (none low)
          | before file here => exact absurd here (none file)
          | behind file here => exact absurd here (none file)
          | around _ earlier earlierIn earlierSame => exact ⟨earlier, earlierIn, earlierSame⟩
        exact (listing.checkAbsent_eq_ok none).mp
          (absent thread listedThread (fun inside => some ((threads thread).mp inside))) shows
  · rintro ⟨rfl, accepted⟩
    refine ⟨rfl, ?_, ?_, ?_⟩
    · intro empty
      apply accepted
      refine Or.inl (fun file inside => ?_)
      by_contra covers
      rcases exists_chosenLogs inside (Bool.not_eq_false _ ▸ covers) with ⟨copy, member, _⟩
      rw [empty] at member
      cases member
    · intro thread member
      rcases (threads thread).mp member with ⟨file, here⟩
      exact (listing.checkThread_eq_ok here).mpr (fun shows => accepted (Or.inr ⟨thread, shows⟩))
    · intro thread _ outside
      have none : forall file, ¬Here listed start finish thread file :=
        fun file here => outside ((threads thread).mpr ⟨file, here⟩)
      exact (listing.checkAbsent_eq_ok none).mpr (fun shows => accepted (Or.inr ⟨thread, shows⟩))

/-- Where nothing shows on an online thread that has a log listed, every log of
the window is listed. -/
theorem Listing.exists_here {log : RedoLog} (recorded : log ∈ history.logs) (overlaps : log.Overlaps start finish)
    {online : LogFile} (onlineIn : online ∈ listed) (isOnline : online.archived = false)
    (same : online.thread = log.thread) {some : LogFile} (here : Here listed start finish log.thread some)
    (hidden : ¬Shows listed start finish log.thread) :
    exists file, Here listed start finish log.thread file ∧ file.log = log := by
  by_contra missing
  have other : forall file, Here listed start finish log.thread file -> file.sequence ≠ log.sequence := by
    intro file fileHere equal
    exact missing ⟨file, fileHere, history.unique _ (listing.recorded file fileHere.1) _ recorded fileHere.2.1 equal⟩
  -- a log that begins by the start of the window stands before the missing one
  have early : exists file, Here listed start finish log.thread file ∧ file.sequence < log.sequence := by
    by_contra none
    apply hidden
    refine .before some here ?_
    intro file fileHere
    have notBelow : ¬file.sequence < log.sequence := fun below => none ⟨file, fileHere, below⟩
    have different := other file fileHere
    have apart : log.nextChange ≤ file.firstChange :=
      RedoHistory.next_le_first recorded (listing.recorded file fileHere.1) fileHere.2.1.symm
        (lt_of_le_of_ne (not_lt.mp notBelow) (Ne.symm different))
    exact lt_of_lt_of_le overlaps.2 apart
  rcases early with ⟨first, firstHere, firstBelow⟩
  have below : forall file, Here listed start finish log.thread file -> file.sequence < log.sequence := by
    intro file fileHere
    by_contra notBelow
    have different := other file fileHere
    exact hidden (.between first file firstHere fileHere log.sequence firstBelow (by omega) other)
  -- so that all of them end by its beginning, while the thread went on
  have onward : log.sequence < online.sequence := by
    by_contra notAbove
    rcases listing.lastRun online onlineIn isOnline log recorded same.symm (by omega) with ⟨copy, copyIn, _, rfl⟩
    exact missing ⟨copy, ⟨copyIn, rfl, covers_iff.mpr overlaps⟩, rfl⟩
  apply hidden
  refine .behind some here ?_ online onlineIn same ?_
  · intro file fileHere
    have apart : file.nextChange ≤ log.firstChange :=
      RedoHistory.next_le_first (listing.recorded file fileHere.1) recorded fileHere.2.1 (below file fileHere)
    exact le_trans apart overlaps.1
  · intro file fileHere
    have lower := below file fileHere
    omega

/-- No log of the window is skipped on an online thread exactly when each such
thread with logs of the window has one of them listed, or the listing is refused
for what else it shows. -/
theorem Listing.skipsNothing_iff :
    SkipsNothing history position finish listed <->
      Refused listed (position + 1) finish ∨ EachThreadListed history position finish listed := by
  constructor
  · intro covered
    by_cases refused : Refused listed (position + 1) finish
    · exact Or.inl refused
    · refine Or.inr (fun log recorded overlaps online => ?_)
      rcases covered _ (listing.planLogFiles_eq_ok.mpr ⟨rfl, refused⟩) log recorded overlaps online with
        ⟨copy, member, rfl⟩
      exact ⟨copy, mem_ofThread_chosen (mem_ofThread.mpr ⟨member, rfl⟩)⟩
  · rintro (refused | present) chosen planned log recorded overlaps ⟨online, onlineIn, isOnline, same⟩
    · exact absurd refused (listing.planLogFiles_eq_ok.mp planned).2
    · rcases listing.planLogFiles_eq_ok.mp planned with ⟨rfl, accepted⟩
      rcases present log recorded overlaps ⟨online, onlineIn, isOnline, same⟩ with ⟨some, here⟩
      rcases listing.exists_here recorded overlaps onlineIn isOnline same here
        (fun shows => accepted (Or.inr ⟨log.thread, shows⟩)) with ⟨file, fileHere, rfl⟩
      rcases exists_chosenLogs fileHere.1 fileHere.2.2 with ⟨copy, member, thread, sequence⟩
      exact ⟨copy, member, listing.log_eq (mem_chosenLogs member).1 fileHere.1 thread sequence⟩

end Planned

/-! ## A thread that is lost -/

/-- The end of a log that is still written to. -/
def openEnd : Nat := 18446744073709551615

/-- One thread with a single log, and another that has just begun its second. -/
def twoThreads : RedoHistory where
  logs := [⟨1, 1, 0, openEnd⟩, ⟨2, 5, 100, 900⟩, ⟨2, 6, 900, openEnd⟩]
  unique := by decide
  consecutive := by
    have close : forall low, low ∈ ([⟨1, 1, 0, openEnd⟩, ⟨2, 5, 100, 900⟩, ⟨2, 6, 900, openEnd⟩] : List RedoLog) ->
        forall high, high ∈ ([⟨1, 1, 0, openEnd⟩, ⟨2, 5, 100, 900⟩, ⟨2, 6, 900, openEnd⟩] : List RedoLog) ->
          low.thread = high.thread -> high.sequence ≤ low.sequence + 1 := by
      decide
    intro low lowIn high highIn same sequence above below
    have bound := close low lowIn high highIn same
    rcases lt_or_eq_of_le above with beyond | equal
    · exact ⟨high, highIn, same.symm, by omega⟩
    · exact ⟨low, lowIn, rfl, equal⟩
  ranged := by decide
  tiled := by decide

def onlineLogs : List LogFile := [⟨"redo1", 1, 1, 0, openEnd, false⟩, ⟨"redo6", 2, 6, 900, openEnd, false⟩]

/-- The archived log of the second thread is gone, and the window is planned
without the thread. -/
theorem lostThread_skipped :
    Listing twoThreads 199 500 onlineLogs ∧ planLogFiles onlineLogs 200 500 = .ok (onlineLogs.take 1) ∧
      ¬SkipsNothing twoThreads 199 500 onlineLogs := by
  have planned : planLogFiles onlineLogs 200 500 = .ok (onlineLogs.take 1) := by decide
  refine ⟨⟨by decide, by decide, by decide⟩, planned, ?_⟩
  intro covered
  have overlaps : (⟨2, 5, 100, 900⟩ : RedoLog).Overlaps 200 500 := by
    constructor <;> decide
  have copied := covered _ planned ⟨2, 5, 100, 900⟩ (by decide) overlaps (by decide)
  revert copied
  decide

theorem Listing.skipsNothing_iff_kept :
    SkipsNothing twoThreads 199 500 (⟨"arch5", 2, 5, 100, 900, true⟩ :: onlineLogs) := by
  have listing : Listing twoThreads 199 500 (⟨"arch5", 2, 5, 100, 900, true⟩ :: onlineLogs) :=
    ⟨by decide, by decide, by decide⟩
  refine listing.skipsNothing_iff.mpr (Or.inr ?_)
  intro log recorded overlaps online
  have threads : forall log, log ∈ twoThreads.logs -> log.thread = 1 ∨ log.thread = 2 := by decide
  rcases threads log recorded with first | second
  · exact ⟨⟨"redo1", 1, 1, 0, openEnd, false⟩, by decide, first.symm, by decide⟩
  · exact ⟨⟨"arch5", 2, 5, 100, 900, true⟩, by decide, second.symm, by decide⟩

end OracleCdc
end FaucetStream
