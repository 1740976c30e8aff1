import FaucetStream.Logship.Passes

namespace FaucetStream
namespace Logship

/-!
# Every line is accounted for

The invariant of a run holds along every history of careful operations.  The
exceptions are real: a segment removed as settled takes with it the lines
flushed since the run was begun again, and leaves an offset behind that is past
the lines of the next segment.
-/

variable {host : Host}

/-- A step that cannot lose a line: a removed segment is only begun again at
offset zero, and the size bound removes as settled only what nobody writes and
has nothing left to ship. -/
def Careful (spool : Spool) : Op -> Prop
  | .begin metadata _ => (spool metadata.runId).writer = none -> (spool metadata.runId).segment = none ->
      (spool metadata.runId).readCursor.offset = 0
  | .pass ids _ opts _ => forall id, id ∈ ids ->
      (planBytesDrops spool ids opts.maxBytes).lookup id = some true -> Droppable (spool id)
  | _ => True

/-- The spools reached from an empty directory by operations that satisfy
`condition`. -/
inductive Reaches (host : Host) (condition : Spool -> Op -> Prop) : Spool -> Prop
  | start : Reaches host condition (fun _ => {})
  | step {spool : Spool} (reaches : Reaches host condition spool) (op : Op) (issued : Issued host spool op)
      (meets : condition spool op) : Reaches host condition (spool.apply host op)

theorem begin_readCursor (run : Run) (metadata : RunMeta) (maxLines : Nat) :
    (run.begin metadata maxLines).readCursor = run.readCursor := by
  unfold Run.begin
  split <;> rfl

theorem append_readCursor (run : Run) (line : ShipLine) : (run.append host line).readCursor = run.readCursor := by
  unfold Run.append
  split
  · rfl
  · dsimp only
    split <;> rfl

theorem addQueueDropped_readCursor (run : Run) (count : Nat) :
    (run.addQueueDropped count).readCursor = run.readCursor := by
  unfold Run.addQueueDropped
  split <;> rfl

theorem flush_readCursor (run : Run) : (run.flush host).readCursor = run.readCursor := by
  unfold Run.flush
  split <;> rfl

theorem end_readCursor (run : Run) (now : Int) : (run.end host now).readCursor = run.readCursor := by
  unfold Run.end
  split <;> rfl

/-- An operation on one run leaves the others alone. -/
theorem update_accounted {spool : Spool} (accounted : forall id, Accounted host (spool id) (spool id).readCursor)
    {target : String} {next : Run} (changed : Accounted host next next.readCursor) (id : String) :
    Accounted host (Function.update spool target next id) (Function.update spool target next id).readCursor := by
  by_cases same : id = target
  · rw [same, Function.update_self]
    exact changed
  · rw [Function.update_of_ne same]
    exact accounted id

theorem apply_accounted {spool : Spool} {op : Op} (issued : Issued host spool op) (careful : Careful spool op)
    (accounted : forall id, Accounted host (spool id) (spool id).readCursor) (id : String) :
    Accounted host (spool.apply host op id) (spool.apply host op id).readCursor := by
  cases op with
  | begin metadata maxLines =>
      refine update_accounted accounted ?_ id
      rw [begin_readCursor]
      exact (accounted metadata.runId).begin maxLines issued careful
  | append target line =>
      refine update_accounted accounted ?_ id
      rw [append_readCursor]
      exact (accounted target).append issued
  | addQueueDropped target count =>
      refine update_accounted accounted ?_ id
      rw [addQueueDropped_readCursor]
      exact (accounted target).addQueueDropped count
  | flush =>
      change Accounted host ((spool id).flush host) ((spool id).flush host).readCursor
      rw [flush_readCursor]
      exact (accounted id).flush
  | «end» target now =>
      refine update_accounted accounted ?_ id
      rw [end_readCursor]
      exact (accounted target).end now
  | pass ids exporter opts now => exact shipRuns_accounted issued.1 accounted careful {} id

theorem reaches_accounted {spool : Spool} (reaches : Reaches host Careful spool) (id : String) :
    Accounted host (spool id) (spool id).readCursor := by
  induction reaches generalizing id with
  | start => exact Accounted.initial host
  | step reaches op issued careful ih => exact apply_accounted issued careful ih id

/-- In a history of careful steps every line flushed to the spool is delivered,
dropped or pending, and no line is handled twice. -/
theorem lines_accounted {spool : Spool} (reaches : Reaches host Careful spool) (id : String) :
    (spool id).flushed.length = (spool id).readCursor.deliveredLines + (spool id).readCursor.dropped +
        countFrom (spool id).segment (spool id).readCursor.offset ∧
      (exists pending, (spool id).handled ++ pending = (spool id).flushed ∧
        pending.length = countFrom (spool id).segment (spool id).readCursor.offset) ∧
      (spool id).handled.length = (spool id).readCursor.deliveredLines + (spool id).readCursor.dropped ∧
      (spool id).handled.Nodup := by
  have accounted := reaches_accounted reaches id
  rcases accounted.split with ⟨pending, holds, whole⟩
  refine ⟨accounted.pending_length, ⟨pending, whole, ?_⟩, accounted.counted.symm, ?_⟩
  · exact (holds.countFrom_eq (accounted.faithful_pending whole)).symm
  · have increasing := accounted.numbered.increasing
    rw [← whole, List.append_assoc] at increasing
    refine (List.pairwise_append.mp increasing).1.imp ?_
    intro first second less same
    rw [same] at less
    exact Nat.lt_irrefl _ less

/-! ## One run -/

/-- The spool with the single run `r`. -/
def single (run : Run) : Spool := Function.update (fun _ => {}) "r" run

/-- A line, and its JSON text
`{"seq":1,"ts":"","level":"INFO","body":"hello"}`. -/
def sampleLine : ShipLine := ⟨1, "", "INFO", "hello", []⟩

def sampleBytes : Bytes :=
  [123, 34, 115, 101, 113, 34, 58, 49, 44, 34, 116, 115, 34, 58, 34, 34, 44, 34, 108, 101, 118, 101, 108,
    34, 58, 34, 73, 78, 70, 79, 34, 44, 34, 98, 111, 100, 121, 34, 58, 34, 104, 101, 108, 108, 111, 34, 125]

def sampleHost : Host where
  encode line := if line = sampleLine then sampleBytes else []
  decode bytes := if bytes = sampleBytes ++ [newline] then some sampleLine else none
  lossy _ := ""
  parseTime _ := none
  redact message := message

theorem sampleLine_faithful : sampleHost.Faithful sampleLine := by
  constructor
  · decide
  · decide

theorem single_self (run : Run) : single run "r" = run := Function.update_self _ _ _

theorem single_update (run next : Run) : Function.update (single run) "r" next = single next :=
  Function.update_idem _ _ _

theorem single_known {run : Run} {metadata : RunMeta} (found : run.metadata = some metadata)
    (named : metadata.runId = "r")
    (id : String) : id ∈ ["r"] <-> (single run).known id = true := by
  rw [List.mem_singleton, Spool.known]
  by_cases same : id = "r"
  · rw [same, single_self, found, Option.any_some, named]
    simp
  · rw [single, Function.update_of_ne same]
    simp [same]

/-- A pass without a collector over the single run. -/
theorem single_pass (run : Run) (opts : ShipOptions) (now : Int) :
    (single run).apply host (.pass ["r"] none opts now) = single (processRun host "r" run none opts now
      ((planBytesDrops (single run) ["r"] opts.maxBytes).lookup "r") {}).1 := by
  change Function.update (single run) "r" (processRun host "r" (single run "r") none opts now
      ((planBytesDrops (single run) ["r"] opts.maxBytes).lookup "r") {}).1 = _
  rw [single_self, single_update]

theorem single_flush (run : Run) : (single run).apply host .flush = single (run.flush host) := by
  funext id
  change (single run id).flush host = single (run.flush host) id
  by_cases same : id = "r"
  · rw [same, single_self, single_self]
  · rw [single, single, Function.update_of_ne same, Function.update_of_ne same]
    rfl

theorem ageOut_nothing {cutoff : Int} {work : Shipping}
    (nothing : readLines host work.run.segment work.cursor.offset MAX_LINES_PER_PASS = []) :
    work.ageOut host cutoff = work := by
  rw [Shipping.ageOut, nothing]
  rfl

/-- The run `r`, begun and ended. -/
def endedRun : Run := { metadata := some { runId := "r", endedAt := some 0 }, segment := some [] }

def settledRun : Run := { endedRun with cursor := some { settledAt := some 0 } }

/-- The settled run, begun again, with a line flushed. -/
def reopenedRun : Run := (((settledRun.begin { runId := "r" } 100).append sampleHost sampleLine).flush sampleHost)

/-- A pass without a collector over a run that has nothing to read. -/
theorem processRun_nothing {run : Run} {opts : ShipOptions} {now : Int} {bytesDrop : Option Bool}
    {metadata : RunMeta} {next : Run} (closing : run.closeAbandoned "r" now = (metadata, next)) {dropped : Shipping}
    (dropping : Shipping.dropBytes host { run := next, cursor := next.readCursor } metadata.endedAt.isSome bytesDrop =
      dropped)
    (nothing : readLines host dropped.run.segment dropped.cursor.offset MAX_LINES_PER_PASS = []) (report : PassReport) :
    (processRun host "r" run none opts now bytesDrop report).1 = (dropped.settle "r" opts now metadata).1 := by
  unfold processRun
  rw [closing]
  dsimp only
  rw [dropping, ageOut_nothing nothing]
  rfl

theorem settledRun_eq : (processRun sampleHost "r" endedRun none ⟨1, 0, 0, 0⟩ 0 none {}).1 = settledRun := by
  rw [processRun_nothing rfl rfl rfl]
  rfl

theorem single_empty : single {} = fun _ => {} := Function.update_eq_self _ _

theorem reopened_reaches : Reaches sampleHost Careful (single reopenedRun) := by
  have begun : Reaches sampleHost Careful (single (Run.begin {} { runId := "r" } 100)) := by
    have step := Reaches.step (show Reaches sampleHost Careful (fun _ => {}) from .start)
      (.begin { runId := "r" } 100) rfl (fun _ _ => rfl)
    rw [← single_empty, Spool.apply, single_self, single_update] at step
    exact step
  have ended : Reaches sampleHost Careful (single endedRun) := by
    have step := Reaches.step begun (.end "r" 0) trivial trivial
    rw [Spool.apply, single_self, single_update] at step
    exact step
  have settled : Reaches sampleHost Careful (single settledRun) := by
    have step := Reaches.step ended (.pass ["r"] none ⟨1, 0, 0, 0⟩ 0)
      ⟨List.pairwise_singleton _ _, single_known rfl rfl⟩ (fun id _ planned => by cases planned)
    rw [single_pass, show planBytesDrops (single endedRun) ["r"] 0 = [] from rfl, List.lookup_nil,
      settledRun_eq] at step
    exact step
  have again : Reaches sampleHost Careful (single (settledRun.begin { runId := "r" } 100)) := by
    have step := Reaches.step settled (.begin { runId := "r" } 100) rfl nofun
    rw [Spool.apply, single_self, single_update] at step
    exact step
  have appended : Reaches sampleHost Careful
      (single ((settledRun.begin { runId := "r" } 100).append sampleHost sampleLine)) := by
    have faithful : Issued sampleHost (single (settledRun.begin { runId := "r" } 100)) (.append "r" sampleLine) := by
      intro writer found
      rw [single_self] at found
      rw [← Option.some.inj found]
      exact sampleLine_faithful
    have step := Reaches.step again _ faithful trivial
    rw [Spool.apply, single_self, single_update] at step
    exact step
  have step := Reaches.step appended .flush trivial trivial
  rw [single_flush] at step
  exact step

theorem lines_accounted_reopened :
    Reaches sampleHost Careful (single reopenedRun) ∧
      (single reopenedRun "r").flushed.length =
        (single reopenedRun "r").readCursor.deliveredLines + (single reopenedRun "r").readCursor.dropped +
          countFrom (single reopenedRun "r").segment (single reopenedRun "r").readCursor.offset :=
  ⟨reopened_reaches, (lines_accounted reopened_reaches "r").1⟩

theorem Reaches.mono {condition weaker : Spool -> Op -> Prop} {spool : Spool} (reaches : Reaches host condition spool)
    (implies : forall spool op, condition spool op -> weaker spool op) : Reaches host weaker spool := by
  induction reaches with
  | start => exact .start
  | step reaches op issued meets ih => exact .step ih op issued (implies _ op meets)

/-- The reopened run still counts as settled: the size bound removes its
segment, with a line that was never shipped or counted. -/
theorem reopened_line_lost :
    ¬ forall spool, Reaches sampleHost (fun _ _ => True) spool -> forall id,
      (spool id).flushed.length = (spool id).readCursor.deliveredLines + (spool id).readCursor.dropped +
        countFrom (spool id).segment (spool id).readCursor.offset := by
  intro always
  have reached : Reaches sampleHost (fun _ _ => True) _ := .step (reopened_reaches.mono (fun _ _ _ => trivial))
    (.pass ["r"] none ⟨1, 0, 0, 0⟩ 0) ⟨List.pairwise_singleton _ _, single_known rfl rfl⟩ trivial
  have counted := always _ reached "r"
  have plan : (planBytesDrops (single reopenedRun) ["r"] 0).lookup "r" = some true := by decide
  rw [single_pass, plan, single_self, processRun_nothing rfl rfl rfl] at counted
  exact absurd counted (by decide)

end Logship
end FaucetStream
