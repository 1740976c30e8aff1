import FaucetStream.FileSink.Standing

namespace FaucetStream
namespace FileSink

open Library

/-!
# What a replacing run leaves

Where a run ends, every file it published is behind the first part it has not
come to, and the template's files from that part on are deleted.  The others
stay: those the run published, and those of earlier runs whose part the
counter has passed.
-/

variable {Row : Type} {writer : FileWriter Row} {earlier : List FileName}

/-! ## Writes -/

/-- The state is the one given, with no file open and a part to open. -/
def Ready (state now : WriterState) : Prop := now.current = none ∧ 0 < now.nextPart ∧ state = now

theorem openNext_spec (call : Nat) :
    Spec writer (fun world => Good writer earlier world ∧ world.state.current = none) (writer.openNext call)
      (With writer earlier) (Sound writer earlier) := by
  have opens : Spec writer
      (fun world => Good writer earlier world ∧ world.state.current = none ∧ 0 < world.state.nextPart)
      (FileWriter.load >>= fun state =>
        FileWriter.expect (FileWriter.request (.create (writer.template.fileName state.nextPart))) >>= fun _ =>
          FileWriter.setCurrent (OpenFile.create (writer.template.fileName state.nextPart) call) >>= fun _ =>
            pure (OpenFile.create (writer.template.fileName state.nextPart) call))
      (With writer earlier) (Sound writer earlier) := by
    refine Triple.bind _ loads (fun state => ?_)
    have creates : Spec writer (fun world => Good writer earlier world ∧ Ready state world.state)
        (FileWriter.expect (FileWriter.request (.create (writer.template.fileName state.nextPart))))
        (fun _ world => Good writer earlier world ∧ Ready state world.state) (Sound writer earlier) :=
      tries (waits rfl) (fun _ good => sound_of_good good)
    refine Triple.bind _ (creates.given ?_) (fun _ => ?_)
    · exact fun _ holds => ⟨holds.2.1, holds.2.2.1, holds.2.2.2, holds.1⟩
    · refine Triple.bind (fun _ => With writer earlier
        (OpenFile.create (writer.template.fileName state.nextPart) call)) (modifies ?_)
        (fun _ => Triple.pure (fun _ holds => holds))
      rintro world ⟨good, absent, positive, rfl⟩
      refine ⟨⟨good.sound, good.destination, ?_, ?_⟩, _, rfl, rfl, rfl⟩
      · intro name holds
        rcases good.held name holds with impossible | ⟨part, first, named, behind⟩
        · exact impossible.elim
        · refine Or.inr ⟨part, first, named, Or.inl ?_⟩
          rcases behind with passed | ⟨_, file, current, _⟩
          · exact passed
          · rw [absent] at current
            cases current
      · rintro _ ⟨⟩
        exact ⟨rfl, positive⟩
  refine Triple.bind _ loads (fun state => ?_)
  by_cases first : state.nextPart = 0
  · rw [if_pos first]
    refine Triple.bind (fun _ world => Good writer earlier world ∧ world.state.current = none ∧
      world.state.nextPart = 0) ?_ (fun _ => ?_)
    · refine replies (asks ?_)
      rintro before answer after ⟨rfl, good, absent⟩ reply
      rcases reply with ⟨same, between, scratch, passage, foreign, left⟩
      have prepared : Good writer earlier after := by
        have moved : Good writer earlier ⟨before.state, between⟩ := good.passage rfl passage
        refine ⟨by rw [same]; exact moved.sound, ?_, ?_, by rw [same]; exact moved.current⟩
        · intro name belongs
          rw [left]
          refine Iff.trans ?_ (moved.destination name belongs)
          rw [Store.mem_delete]
          refine and_iff_left ?_
          intro swept
          rw [foreign name swept] at belongs
          cases belongs
        · intro name holds
          rw [same]
          rw [left] at holds
          exact moved.held name holds
      cases answer with
      | error error => exact sound_of_good prepared
      | ok value =>
          refine ⟨prepared, ?_, ?_⟩
          · rw [same]; exact absent
          · rw [same]; exact first
    · refine Triple.bind _ (modifies ?_) (fun _ => opens)
      rintro world ⟨good, absent, zero⟩
      refine ⟨⟨good.sound, good.destination, ?_, ?_⟩, absent, Nat.one_pos⟩
      · intro name holds
        rcases good.held name holds with impossible | ⟨part, positive, _, behind⟩
        · exact impossible.elim
        · rcases behind with passed | ⟨_, file, current, _⟩
          · rw [zero] at passed
            exact (Nat.not_lt_zero _ passed).elim
          · rw [absent] at current
            cases current
      · intro file current
        rw [absent] at current
        cases current
  · rw [if_neg first]
    refine opens.given ?_
    rintro world ⟨rfl, good, absent⟩
    exact ⟨good, absent, Nat.pos_of_ne_zero first⟩

theorem openFile_spec (call : Nat) :
    Spec writer (Good writer earlier) (writer.openFile call) (With writer earlier) (Sound writer earlier) := by
  refine Triple.bind _ loads (fun state => ?_)
  rintro world _ ⟨rfl, good⟩
  cases current : world.state.current with
  | some file => exact ⟨trivial, good, file, current, rfl, rfl⟩
  | none => exact openNext_spec call world trivial ⟨good, current⟩

theorem makeRoom_spec (call : Nat) :
    Spec writer (Good writer earlier) (writer.makeRoom call) (With writer earlier) (Sound writer earlier) := by
  refine Triple.bind _ (openFile_spec call) (fun file => ?_)
  split
  · refine Triple.bind _ ((roll_spec call).given ?_)
      (fun _ => openFile_spec call)
    exact fun _ holds => holds.1
  · exact Triple.pure (fun _ holds => holds)

section Chunks

variable {file : OpenFile}

theorem existingCopy_spec :
    Spec writer (With writer earlier file) (writer.existingCopy file) (fun _ => With writer earlier file)
      (Sound writer earlier) := by
  refine Triple.bind _ (waits rfl) (fun existing => ?_)
  cases existing with
  | unneeded => exact Triple.skip
  | kept => exact Triple.skip
  | fetch =>
      refine Triple.bind _ (tries (waits rfl) (fun _ good => sound_of_good good)) (fun found => ?_)
      split
      · exact tries (waits rfl) (fun _ good => sound_of_good good)
      · exact Triple.raise (fun _ holds => sound_of_good holds.1)

theorem writeChunk_spec (call : Nat) (chunk : Chunk Row) (count : Nat) :
    Spec writer (With writer earlier file) (writer.writeChunk call file chunk count) (With writer earlier)
      (Sound writer earlier) := by
  refine Triple.bind _ existingCopy_spec (fun _ => ?_)
  refine Triple.bind _ (waits rfl) (fun encoded => ?_)
  cases encoded with
  | error failure =>
      cases failure with
      | clean error => exact Triple.raise (fun _ holds => sound_of_good holds.1)
      | dirty error =>
          exact (lose_spec call error).given (fun _ holds => sound_of_good holds.1)
  | ok value =>
      dsimp only
      refine Triple.bind _ (stores rfl rfl) (fun _ => ?_)
      refine Triple.bind _ (waits rfl) (fun parts => ?_)
      cases parts with
      | nil => exact Triple.pure (fun _ holds => holds)
      | cons part rest =>
          dsimp only
          refine Triple.bind (Ends (With writer earlier) (Good writer earlier))
            (Triple.attempt (putParts_spec (part :: rest)) ?_) (fun result => ?_)
          · intro result world ends
            cases result with
            | error error => exact ends
            | ok after => exact ⟨ends.1.1, opened_of_same ends.1.2 ends.2.1 ends.2.2⟩
          · cases result with
            | ok after => exact Triple.pure (fun _ holds => holds)
            | error error =>
                exact (lose_spec call error).given (fun _ good => sound_of_good good)

/-- A chunk, the bytes it brings the file to, and what follows. -/
theorem written_spec {chunk : Chunk Row} {count call : Nat} {bytes : OpenFile -> Nat} {full : OpenFile -> Bool}
    {rest : Writing Row Unit}
    (follows : Spec writer (Good writer earlier) rest (fun _ => Good writer earlier) (Sound writer earlier)) :
    Spec writer (With writer earlier file)
      (writer.writeChunk call file chunk count >>= fun written =>
        FileWriter.setCurrent { written with bytes := bytes written } >>= fun _ =>
          writer.rollWhen (full written) call >>= fun _ => rest)
      (fun _ => Good writer earlier) (Sound writer earlier) := by
  refine Triple.bind _ (writeChunk_spec call chunk count) (fun written => ?_)
  refine Triple.bind _ (stores rfl rfl) (fun _ => ?_)
  refine Triple.bind _ ((rollWhen_spec _ call).given ?_)
    (fun _ => follows)
  exact fun _ holds => holds.1

end Chunks

theorem writeLoop_spec (call fuel : Nat) (rows : List Row) (enough : rows.length ≤ fuel) :
    Spec writer (Good writer earlier) (writer.writeLoop call fuel rows enough) (fun _ => Good writer earlier)
      (Sound writer earlier) := by
  induction fuel generalizing rows with
  | zero =>
      cases rows with
      | nil => exact Triple.pure (fun _ good => good)
      | cons row rest => exact (Nat.not_succ_le_zero _ enough).elim
  | succ fuel ih =>
      cases rows with
      | nil => exact Triple.pure (fun _ good => good)
      | cons row rest =>
          unfold FileWriter.writeLoop
          exact Triple.bind _ (makeRoom_spec call) (fun file => written_spec (ih _ _))

theorem batchLoop_spec (call perRow fuel offset left : Nat) (enough : left ≤ fuel) :
    Spec writer (Good writer earlier) (writer.batchLoop call perRow fuel offset left enough)
      (fun _ => Good writer earlier) (Sound writer earlier) := by
  induction fuel generalizing offset left with
  | zero =>
      cases left with
      | zero => exact Triple.pure (fun _ good => good)
      | succ left => exact (Nat.not_succ_le_zero _ enough).elim
  | succ fuel ih =>
      cases left with
      | zero => exact Triple.pure (fun _ good => good)
      | succ left =>
          unfold FileWriter.batchLoop
          exact Triple.bind _ (openFile_spec call) (fun file => written_spec (ih _ _ _))

/-! ## Calls -/

theorem check_spec :
    Spec writer (Sound writer earlier) FileWriter.check (fun _ => Good writer earlier) (Sound writer earlier) := by
  refine Triple.bind _ loads (fun state => ?_)
  rintro world _ ⟨rfl, sound⟩
  cases poisoned : world.state.poisoned with
  | some why => exact ⟨trivial, sound⟩
  | none => exact ⟨trivial, sound poisoned⟩

theorem enter_spec :
    Spec writer (Sound writer earlier) FileWriter.enter (fun _ => Good writer earlier) (Sound writer earlier) := by
  refine Triple.bind _ check_spec (fun _ => ?_)
  refine Triple.bind (fun _ => Good writer earlier) (modifies (fun _ good => good.modify rfl rfl rfl)) (fun _ => ?_)
  exact Triple.bind _ loads (fun _ => Triple.pure (fun _ holds => holds.2))

/-- Once waiting succeeds, nothing is on its way. -/
theorem settleAll_spec {failed : FaucetError -> Writing Row Unit}
    (fails : forall error, Spec writer (Good writer earlier) (failed error) (fun _ => Sound writer earlier)
      (Sound writer earlier)) :
    Spec writer (Good writer earlier) (FileWriter.settleAll failed)
      (fun _ world => Good writer earlier world ∧ world.store.uploads = []) (Sound writer earlier) := by
  refine Triple.bind (fun answer world => Good writer earlier world ∧ (answer = .ok () -> world.store.uploads = []))
    (asks ?_) (fun answer => ?_)
  · intro before answer after good reply
    rcases passes rfl reply with ⟨same, lost, passage⟩
    refine ⟨good.passage same passage, ?_⟩
    rintro rfl
    exact reply.2.2
  · cases answer with
    | ok value => exact Triple.pure (fun _ holds => ⟨holds.1, holds.2 rfl⟩)
    | error error =>
        refine Triple.bind _ ((fails error).given ?_)
          (fun _ => Triple.raise (fun _ sound => sound))
        exact fun _ holds => holds.1

theorem endOfWrite_spec (call : Nat) :
    Spec writer (Good writer earlier) (writer.endOfWrite call) (fun _ => Good writer earlier)
      (Sound writer earlier) := by
  refine Triple.bind _ loads (fun before => ?_)
  refine Triple.bind _ ((rollWhen_spec _ call).given (fun _ holds => holds.2)) (fun _ => ?_)
  refine Triple.bind _ loads (fun state => ?_)
  refine Triple.bind (fun _ => Good writer earlier) (modifies (fun _ holds => holds.2.modify rfl rfl rfl)) (fun _ => ?_)
  refine (settleAll_spec (fun error => modifies ?_)).gives (fun _ _ holds => holds.1)
  exact fun _ good => (sound_of_good good).poisonIf _ _ _

theorem writeRows_spec (rows : List Row) :
    Spec writer (Sound writer earlier) (writer.writeRows rows) (fun _ => Good writer earlier)
      (Sound writer earlier) := by
  refine Triple.bind _ enter_spec (fun call => ?_)
  refine Triple.bind _ (writeLoop_spec call rows.length rows (Nat.le_refl _)) (fun _ => ?_)
  exact Triple.bind _ (endOfWrite_spec call) (fun _ => Triple.pure (fun _ good => good))

theorem writeBatch_spec (rows perRow : Nat) :
    Spec writer (Sound writer earlier) (writer.writeBatch rows perRow) (fun _ => Sound writer earlier)
      (Sound writer earlier) := by
  unfold FileWriter.writeBatch
  split
  · exact Triple.pure (fun _ sound => sound)
  · refine Triple.bind _ enter_spec (fun call => ?_)
    refine Triple.bind _ (batchLoop_spec call perRow rows 0 rows (Nat.le_refl _)) (fun _ => ?_)
    exact Triple.bind _ (endOfWrite_spec call) (fun _ => Triple.pure (fun _ good => sound_of_good good))

/-- After a flush, nothing is on its way. -/
theorem flush_spec :
    Spec writer (Sound writer earlier) writer.flush
      (fun _ world => Good writer earlier world ∧ world.store.uploads = []) (Sound writer earlier) := by
  have settles : Spec writer (Good writer earlier)
      (FileWriter.modify (fun state => { state with pendingAtRisk := false }) >>= fun _ =>
        FileWriter.settleAll (fun error => FileWriter.modify (fun state => state.poison "an upload" error)))
      (fun _ world => Good writer earlier world ∧ world.store.uploads = []) (Sound writer earlier) := by
    refine Triple.bind (fun _ => Good writer earlier) (modifies (fun _ good => good.modify rfl rfl rfl)) (fun _ => ?_)
    exact settleAll_spec (fun error => modifies (fun _ _ unpoisoned => (poison_poisoned _ _ _ unpoisoned).elim))
  refine Triple.bind _ check_spec (fun _ => ?_)
  refine Triple.bind _ loads (fun state => ?_)
  split
  · refine Triple.bind _ ((rollWhen_spec _ _).given ?_)
      (fun _ => settles)
    exact fun _ holds => holds.2
  · rintro world _ ⟨rfl, good⟩
    cases current : world.state.current with
    | none => exact settles world trivial good
    | some file =>
        refine Triple.bind (fun _ => Good writer earlier) (Triple.attempt publishFile_spec ?_) (fun result => ?_) world
          trivial ⟨good, file, current, rfl, rfl⟩
        · intro result last ends
          cases result with
          | ok value => exact ends
          | error error => exact ends
        · cases result with
          | ok value => exact settles
          | error error => exact Triple.bind _ (publishFailed_spec _ error) (fun _ => settles)

theorem perform_spec (call : FileWriter.Call Row) :
    Spec writer (Sound writer earlier) (writer.perform call) (fun _ => Sound writer earlier)
      (Sound writer earlier) := by
  cases call with
  | rows rows =>
      exact Triple.bind _ (writeRows_spec rows) (fun _ => Triple.pure (fun _ good => sound_of_good good))
  | batch rows perRow =>
      exact Triple.bind _ (writeBatch_spec rows perRow) (fun _ => Triple.pure (fun _ sound => sound))
  | flush =>
      exact flush_spec.gives (fun _ _ holds => sound_of_good holds.1)

theorem performAll_spec (calls : List (FileWriter.Call Row)) :
    Spec writer (Sound writer earlier) (writer.performAll calls) (fun _ => Sound writer earlier)
      (Sound writer earlier) := by
  induction calls with
  | nil => exact Triple.pure (fun _ sound => sound)
  | cons call rest ih =>
      refine Triple.bind (fun _ => Sound writer earlier) (Triple.attempt (perform_spec call) ?_)
        (fun _ => ih)
      intro result world ends
      cases result with
      | ok value => exact ends
      | error error => exact ends

theorem sound_start : Sound writer earlier (World.start earlier) := by
  intro _
  refine ⟨rfl, ?_, ?_, fun _ impossible => nomatch impossible⟩
  · exact fun name _ => (or_iff_left List.not_mem_nil).symm
  · intro name holds
    rcases holds with landed | waiting
    · cases landed
    · cases waiting

/-! ## Completion -/

theorem mem_stale_iff {template : NameTemplate} {names : List FileName} {first : Nat} {name : FileName} :
    name ∈ ((template.select names).filter (fun found => decide (first ≤ found.1))).map Prod.snd <->
      name ∈ names ∧ exists part, template.partOf name = some part ∧ first ≤ part := by
  rw [List.mem_map]
  constructor
  · rintro ⟨⟨part, _⟩, kept, rfl⟩
    rcases List.mem_filter.mp kept with ⟨selected, late⟩
    rcases NameTemplate.mem_select.mp selected with ⟨listed, carried⟩
    exact ⟨listed, part, carried, of_decide_eq_true late⟩
  · rintro ⟨listed, part, carried, late⟩
    exact ⟨(part, name), List.mem_filter.mpr ⟨NameTemplate.mem_select.mpr ⟨listed, carried⟩, decide_eq_true late⟩, rfl⟩

/-- The template's files from the first part on that the run has not come to. -/
def Pruned (template : NameTemplate) (flushed last : World) : Prop :=
  last.store.published = flushed.store.published ∧
    forall name part, template.partOf name = some part ->
      (name ∈ last.store.destination <->
        name ∈ flushed.store.destination ∧ part < flushed.state.firstUnwritten)

theorem complete_spec (prunes : writer.settings.pruneStale = true) {flushed : World}
    (idle : flushed.store.uploads = []) :
    Spec writer (fun world => flushed = world) writer.complete
      (fun _ last => Pruned writer.template flushed last) (fun _ => True) := by
  unfold FileWriter.complete
  rw [if_pos prunes]
  refine Triple.bind _ loads (fun state => ?_)
  refine Triple.bind (fun _ world => state = flushed.state ∧ flushed = world) (replies (asks ?_)) (fun _ => ?_)
  · rintro before answer after ⟨rfl, rfl⟩ reply
    rcases after with ⟨state, store⟩
    rcases reply with ⟨same, left⟩
    cases same
    cases answer with
    | error error => trivial
    | ok value =>
        have unchanged : store = flushed.store := left.1.settled idle
        rw [unchanged]
        exact ⟨rfl, rfl⟩
  · refine Triple.bind (fun names world => state = flushed.state ∧ flushed = world ∧
      forall name, name ∈ names <-> name ∈ flushed.store.destination) (replies (asks ?_)) (fun names => ?_)
    · rintro before answer after ⟨rfl, rfl⟩ reply
      rcases after with ⟨state, store⟩
      rcases reply with ⟨same, left⟩
      cases same
      cases answer with
      | error error => trivial
      | ok names =>
          have unchanged : store = flushed.store := left.1.settled idle
          rw [unchanged] at left ⊢
          exact ⟨rfl, rfl, left.2⟩
    · intro world _ holds
      rcases holds with ⟨rfl, rfl, listed⟩
      by_cases fresh : (((writer.template.select names).filter
          (fun found => decide (flushed.state.firstUnwritten ≤ found.1))).map Prod.snd).isEmpty = true
      · rw [if_pos fresh]
        refine ⟨trivial, rfl, fun name part carried => (and_iff_left_of_imp (fun present => ?_)).symm⟩
        by_contra late
        have stale := mem_stale_iff.mpr ⟨(listed name).mpr present, part, carried, Nat.not_lt.mp late⟩
        rw [List.isEmpty_iff.mp fresh] at stale
        cases stale
      · rw [if_neg fresh]
        refine replies (asks ?_) flushed trivial rfl
        rintro before answer after rfl reply
        rcases after with ⟨state, store⟩
        rcases reply with ⟨same, left⟩
        cases same
        cases answer with
        | error error => trivial
        | ok value =>
            rcases left with ⟨between, passage, rfl⟩
            rw [passage.settled idle]
            refine ⟨rfl, fun name part carried => ?_⟩
            have stale : name ∉ ((writer.template.select names).filter
                (fun found => decide (flushed.state.firstUnwritten ≤ found.1))).map Prod.snd <->
                  (name ∈ flushed.store.destination -> part < flushed.state.firstUnwritten) := by
              rw [mem_stale_iff, listed name, not_and]
              refine forall_congr' (fun _ => ?_)
              constructor
              · intro kept
                by_contra late
                exact kept ⟨part, carried, Nat.not_lt.mp late⟩
              · rintro early ⟨other, again, late⟩
                rw [carried] at again
                cases again
                exact Nat.not_lt.mpr late early
            rw [Store.mem_delete, stale]
            exact and_congr_right (fun present => ⟨fun early => early present, fun early _ => early⟩)

/-- A run of writes and flushes, a flush that succeeds, and its completion. -/
structure ReplaceRun (writer : FileWriter Row) (earlier : List FileName) (calls : List (FileWriter.Call Row))
    (flushed last : World) : Prop where
  ran : exists before,
    Reaches (stored writer.template) (writer.performAll calls) (World.start earlier) (.done (.ok ())) before ∧
      Reaches (stored writer.template) writer.flush before (.done (.ok ())) flushed
  completed : Reaches (stored writer.template) writer.complete flushed (.done (.ok ())) last

/-- The template's files are exactly those the run published. -/
def Exact (template : NameTemplate) (store : Store) : Prop :=
  forall name, name ∈ store.destination ∧ (template.partOf name).isSome = true <-> name ∈ store.published

theorem ReplaceRun.good {calls : List (FileWriter.Call Row)} {flushed last : World}
    (run : ReplaceRun writer earlier calls flushed last) :
    Good writer earlier flushed ∧ flushed.store.uploads = [] := by
  rcases run.ran with ⟨before, written, flushes⟩
  have sound := ((performAll_spec calls _ trivial sound_start).reaches written).2
  exact ((flush_spec before trivial sound).reaches flushes).2

theorem nextPart_le_firstUnwritten (state : WriterState) : state.nextPart ≤ state.firstUnwritten := by
  unfold WriterState.firstUnwritten
  cases state.nextPart with
  | zero => exact Nat.zero_le _
  | succ part =>
      cases state.current.isSome with
      | true => exact Nat.le_succ _
      | false => exact Nat.le_refl _

theorem firstUnwritten_of_open {state : WriterState} {file : OpenFile} (current : state.current = some file) :
    state.firstUnwritten = state.nextPart + 1 := by
  unfold WriterState.firstUnwritten
  rw [current]
  cases state.nextPart with
  | zero => rfl
  | succ part => rfl

/-- What is behind is before the first part the run has not come to. -/
theorem partOf_behind {state : WriterState} {part : Nat} (positive : 0 < part) (behind : state.Behind part)
    (counted : state.nextPart < 2 ^ 64) :
    exists carried, writer.template.partOf (writer.template.fileName part) = some carried ∧
      carried < state.firstUnwritten := by
  have come : part < state.firstUnwritten ∧ part ≤ state.nextPart := by
    rcases behind with passed | ⟨here, file, current, _⟩
    · exact ⟨Nat.lt_of_lt_of_le passed (nextPart_le_firstUnwritten state), Nat.le_of_lt passed⟩
    · rw [firstUnwritten_of_open current, here]
      exact ⟨Nat.lt_succ_self _, Nat.le_refl _⟩
  refine ⟨_, writer.template.partOf_fileName (Nat.lt_of_le_of_lt come.2 counted), ?_⟩
  split
  · exact come.1
  · exact Nat.lt_of_le_of_lt positive come.1

/-- A completed run leaves exactly its own files when no file of an earlier run
has a part that the counter passed, unless the run published that very file. -/
theorem replace_run_exact_iff (prunes : writer.settings.pruneStale = true) {calls : List (FileWriter.Call Row)}
    {flushed last : World} (run : ReplaceRun writer earlier calls flushed last)
    (counted : flushed.state.nextPart < 2 ^ 64) :
    Exact writer.template last.store <->
      forall name part, name ∈ earlier -> writer.template.partOf name = some part ->
        part < flushed.state.firstUnwritten -> name ∈ flushed.store.published := by
  rcases run.good with ⟨good, idle⟩
  rcases ((complete_spec prunes idle flushed trivial rfl).reaches run.completed).2 with ⟨published, pruned⟩
  have present : forall name part, writer.template.partOf name = some part ->
      (name ∈ last.store.destination <->
        (name ∈ earlier ∨ name ∈ flushed.store.published) ∧ part < flushed.state.firstUnwritten) := by
    intro name part carried
    rw [pruned name part carried, good.destination name (by rw [carried]; rfl)]
  unfold Exact
  rw [published]
  constructor
  · intro exactly name part old carried early
    exact (exactly name).mp ⟨(present name part carried).mpr ⟨Or.inl old, early⟩, by rw [carried]; rfl⟩
  · intro rewritten name
    constructor
    · rintro ⟨stays, belongs⟩
      rcases Option.isSome_iff_exists.mp belongs with ⟨part, carried⟩
      rcases (present name part carried).mp stays with ⟨old | own, early⟩
      · exact rewritten name part old carried early
      · exact own
    · intro own
      rcases good.held name (Or.inl own) with impossible | ⟨part, positive, rfl, behind⟩
      · exact impossible.elim
      · rcases partOf_behind positive behind counted with ⟨carried, belongs, early⟩
        exact ⟨(present _ carried belongs).mpr ⟨Or.inr own, early⟩, by rw [belongs]; rfl⟩

/-! ### A run whose first file is lost -/

/-- Surroundings in which nothing fails but the encoding of the first call. -/
def oracle : (op : Op Unit) -> World -> op.Answer × World
  | .load, world => (world.state, world)
  | .modify change, world => ((), ⟨change world.state, world.store⟩)
  | .prepare, world => (.ok (), world)
  | .list, world => (.ok world.store.destination, world)
  | .exists name, world => (.ok (world.store.destination.contains name), world)
  | .fetch _, world => (.ok (), world)
  | .create _, world => (.ok (), world)
  | .existing _, world => (.unneeded, world)
  | .encode file _, world =>
      (if file.firstCall = 1 then .error (.dirty (.sink "file sink: writing: no space left")) else .ok (), world)
  | .takeParts _, world => ([], world)
  | .close _, world => (.ok .file, world)
  | .spill _ _, world => (.ok (), world)
  | .openStream _, world => (.ok (), world)
  | .putPart _ _, world => (.ok (), world)
  | .finishStream name, world => (.ok (), ⟨world.state, world.store.land name⟩)
  | .abortStream _, world => ((), world)
  | .appendPublished _, world => (.ok (), world)
  | .publish name, world => (.ok (), ⟨world.state, world.store.land name⟩)
  | .settle, world => (.ok (), ⟨world.state, ⟨world.store.uploads ++ world.store.destination, [],
      world.store.uploads ++ world.store.published⟩⟩)
  | .deleteMany names, world => (.ok (), ⟨world.state, world.store.delete names⟩)

theorem oracle_possible (template : NameTemplate) (op : Op Unit) (world : World) :
    stored template op world (oracle op world).1 (oracle op world).2 := by
  have still : Passage [] world.store world.store := Passage.none world.store
  cases op with
  | load => exact ⟨rfl, rfl⟩
  | modify change => exact rfl
  | prepare =>
      refine ⟨rfl, world.store, [], still, ?_, ?_⟩
      · intro name impossible
        cases impossible
      · exact (Store.delete_nothing world.store).symm
  | list => exact ⟨rfl, still, fun _ => Iff.rfl⟩
  | «exists» name => exact ⟨rfl, still, List.contains_iff_mem⟩
  | finishStream name => exact ⟨rfl, world.store, still, rfl⟩
  | publish name => exact ⟨rfl, world.store, still, Or.inl rfl⟩
  | settle =>
      refine ⟨rfl, ⟨world.store.uploads, ?_, rfl, rfl⟩, rfl⟩
      exact List.Perm.of_eq (List.append_nil _).symm
  | deleteMany names => exact ⟨rfl, world.store, still, rfl⟩
  | _ => exact ⟨rfl, still⟩

def partTemplate : NameTemplate where
  name := ['x', '-', '\x7b', 'p', 'a', 'r', 't', '\x7d']
  single := by
    intro pre post split
    have found : (['x', '-', '\x7b', 'p', 'a', 'r', 't', '\x7d'] : List Char).dropInfix? PART_TOKEN =
        some (['x', '-'], []) := by decide
    rw [found] at split
    cases split
    decide

def partWriter : FileWriter Unit where
  settings := ⟨none, none, false, false, true⟩
  template := partTemplate
  appendsInPlace := false
  estimate := fun _ => 1
  describe := String.ofList

def partOne : FileName := ['x', '-', '0', '0', '0', '0', '1']

def partTwo : FileName := ['x', '-', '0', '0', '0', '0', '2']

/-- The first write loses part 1 without poison, and the second opens part 2. -/
def afterWrites : World :=
  ⟨⟨some ⟨partTwo, 1, 0, false, 2, false, false, false⟩, 2, 2, none, false⟩, ⟨[partOne], [], []⟩⟩

def afterFlush : World :=
  ⟨⟨some ⟨partTwo, 1, 0, true, 2, true, false, false⟩, 2, 2, none, false⟩, ⟨[partTwo, partOne], [], [partTwo]⟩⟩

theorem execute_writes :
    execute oracle (partWriter.performAll [.rows [()], .rows [()]]) (World.start [partOne]) = (.ok (), afterWrites) :=
  rfl

theorem execute_flush : execute oracle partWriter.flush afterWrites = (.ok (), afterFlush) := rfl

theorem nothing_stale : ((partTemplate.select [partTwo, partOne]).filter (fun found => decide (3 ≤ found.1))).map
    Prod.snd = [] := by
  rw [List.eq_nil_iff_forall_not_mem]
  intro name member
  rcases mem_stale_iff.mp member with ⟨listed, part, carried, late⟩
  have two : partTemplate.partOf partTwo = some 2 := by decide
  have one : partTemplate.partOf partOne = some 1 := by decide
  rcases List.mem_cons.mp listed with rfl | other
  · rw [two] at carried
    cases carried
    exact absurd late (by decide)
  · cases List.mem_singleton.mp other
    rw [one] at carried
    cases carried
    exact absurd late (by decide)

theorem execute_complete : execute oracle partWriter.complete afterFlush = (.ok (), afterFlush) := by
  change execute oracle (if (((partTemplate.select [partTwo, partOne]).filter
    (fun found => decide (3 ≤ found.1))).map Prod.snd).isEmpty then pure () else _) afterFlush = _
  rw [nothing_stale]
  rfl

theorem lostPart_run : ReplaceRun partWriter [partOne] [.rows [()], .rows [()]] afterFlush afterFlush where
  ran := by
    refine ⟨afterWrites, ?_, ?_⟩
    · have reached := reaches_execute oracle (oracle_possible partTemplate)
        (partWriter.performAll [.rows [()], .rows [()]]) (World.start [partOne])
      rw [execute_writes] at reached
      exact reached
    · have reached := reaches_execute oracle (oracle_possible partTemplate) partWriter.flush afterWrites
      rw [execute_flush] at reached
      exact reached
  completed := by
    have reached := reaches_execute oracle (oracle_possible partTemplate) partWriter.complete afterFlush
    rw [execute_complete] at reached
    exact reached

/-- Part 1 of an earlier run outlives a run that lost its own part 1. -/
theorem replace_run_keeps_stale_part :
    ¬forall (Row : Type) (writer : FileWriter Row) (earlier : List FileName) (calls : List (FileWriter.Call Row))
      (flushed last : World), writer.settings.pruneStale = true -> ReplaceRun writer earlier calls flushed last ->
        flushed.state.nextPart < 2 ^ 64 -> Exact writer.template last.store := by
  intro exactly
  have stale := (exactly Unit partWriter [partOne] _ afterFlush afterFlush rfl lostPart_run (by decide) partOne).mp
    ⟨by decide, by decide⟩
  exact absurd stale (by decide)

theorem replace_run_exact_iff_lostPart :
    Exact partTemplate afterFlush.store <->
      forall name part, name ∈ [partOne] -> partTemplate.partOf name = some part ->
        part < afterFlush.state.firstUnwritten -> name ∈ afterFlush.store.published :=
  replace_run_exact_iff rfl lostPart_run (by decide)

end FileSink
end FaucetStream
