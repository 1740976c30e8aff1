import FaucetStream.FileSink.Storage

namespace FaucetStream
namespace FileSink

open Library

/-!
# The standing of a writer

A writer that is not poisoned has given the storage only files of parts it is
done with, or of the open one.  Publishing, losing and rolling over the open
file keep that: a file is lost without poison only when it was never
published, and a file that was published stays behind the part counter.
-/

variable {Row : Type} {writer : FileWriter Row} {earlier : List FileName}

/-! ## The standing of a writer -/

/-- A part the run is done with, or has published and still holds open. -/
def WriterState.Behind (state : WriterState) (part : Nat) : Prop :=
  part < state.nextPart ∨ (part = state.nextPart ∧ exists file, state.current = some file ∧ file.continued = true)

/-- A writer that is not poisoned.  The storage holds files of parts that are
behind, and those named in `also`. -/
structure Standing (writer : FileWriter Row) (earlier : List FileName) (also : FileName -> Prop) (world : World) :
    Prop where
  sound : world.state.poisoned = none
  destination : forall name, (writer.template.partOf name).isSome = true ->
    (name ∈ world.store.destination <-> name ∈ earlier ∨ name ∈ world.store.published)
  held : forall name, world.store.Holds name -> also name ∨
    exists part, 0 < part ∧ name = writer.template.fileName part ∧ world.state.Behind part
  current : forall file, world.state.current = some file ->
    file.name = writer.template.fileName world.state.nextPart ∧ 0 < world.state.nextPart

abbrev Good (writer : FileWriter Row) (earlier : List FileName) (world : World) : Prop :=
  Standing writer earlier (fun _ => False) world

/-- A poisoned writer is done for; any other stands well. -/
def Sound (writer : FileWriter Row) (earlier : List FileName) (world : World) : Prop :=
  world.state.poisoned = none -> Good writer earlier world

/-- The open file, up to what was written to it. -/
def Opened (file : OpenFile) (state : WriterState) : Prop :=
  exists held, state.current = some held ∧ held.name = file.name ∧ held.continued = file.continued

theorem Standing.passage {also : FileName -> Prop} {before after : World} {lost : List FileName}
    (standing : Standing writer earlier also before) (same : after.state = before.state)
    (passage : Passage lost before.store after.store) : Standing writer earlier also after where
  sound := by rw [same]; exact standing.sound
  destination := by
    intro name belongs
    rcases passage with ⟨landed, _, destination, published⟩
    rw [destination, published, List.mem_append, List.mem_append, standing.destination name belongs, or_left_comm]
  held := by
    intro name holds
    rw [same]
    exact standing.held name (passage.holds holds)
  current := by
    rw [same]
    exact standing.current

/-- A change that lets the state read as before. -/
theorem Standing.modify {also : FileName -> Prop} {world : World} (standing : Standing writer earlier also world)
    {state : WriterState} (poisoned : state.poisoned = world.state.poisoned)
    (current : state.current = world.state.current) (nextPart : state.nextPart = world.state.nextPart) :
    Standing writer earlier also ⟨state, world.store⟩ where
  sound := poisoned.trans standing.sound
  destination := standing.destination
  held := by
    unfold WriterState.Behind
    rw [current, nextPart]
    exact standing.held
  current := by
    rw [current, nextPart]
    exact standing.current

/-- The open file takes the place of what was known of it. -/
theorem Standing.setCurrent {also : FileName -> Prop} {world : World} (standing : Standing writer earlier also world)
    {file after : OpenFile} (opened : Opened file world.state) (name : after.name = file.name)
    (continued : file.continued = true -> after.continued = true) :
    Standing writer earlier also ⟨{ world.state with current := some after }, world.store⟩ where
  sound := standing.sound
  destination := standing.destination
  held := by
    intro other holds
    refine (standing.held other holds).imp_right ?_
    rintro ⟨part, positive, named, behind⟩
    refine ⟨part, positive, named, behind.imp_right ?_⟩
    rintro ⟨here, held, current, published⟩
    rcases opened with ⟨found, present, _, same⟩
    rw [present] at current
    cases current
    exact ⟨here, after, rfl, continued (same.symm.trans published)⟩
  current := by
    rintro _ ⟨⟩
    rcases opened with ⟨found, present, same, _⟩
    have placed := standing.current found present
    exact ⟨name.trans (same.symm.trans placed.1), placed.2⟩

theorem Standing.weaken {also more : FileName -> Prop} {world : World}
    (standing : Standing writer earlier also world) (implies : forall name, also name -> more name) :
    Standing writer earlier more world :=
  ⟨standing.sound, standing.destination, fun name holds => (standing.held name holds).imp_left (implies name),
    standing.current⟩

/-! ## Questions -/

abbrev Spec {Result : Type} (writer : FileWriter Row) (pre : World -> Prop) (program : Writing Row Result)
    (post : Result -> World -> Prop) (escape : World -> Prop) : Prop :=
  Triple (stored writer.template) (fun _ => True) pre program post escape

section Questions

variable {pre escape : World -> Prop}

theorem asks {op : Op Row} {post : op.Answer -> World -> Prop}
    (answers : forall before answer after, pre before -> stored writer.template op before answer after ->
      post answer after) : Spec writer pre (FileWriter.request op) post escape :=
  Triple.ask (fun before answer after _ holds reply =>
    ⟨trivial, fun _ => ⟨trivial, answers before answer after holds reply⟩⟩)

theorem loads : Spec writer pre FileWriter.load (fun state world => state = world.state ∧ pre world) escape := by
  refine asks (fun before _ _ holds reply => ?_)
  rcases reply with ⟨same, unchanged⟩
  rw [unchanged]
  exact ⟨same, holds⟩

theorem modifies {post : World -> Prop} {change : WriterState -> WriterState}
    (leads : forall world, pre world -> post ⟨change world.state, world.store⟩) :
    Spec writer pre (FileWriter.modify change) (fun _ => post) escape := by
  refine asks (fun before _ after holds reply => ?_)
  have changed : after = ⟨change before.state, before.store⟩ := reply
  rw [changed]
  exact leads before holds

/-- A failed answer ends the program. -/
theorem replies {Result : Type} {post : Result -> World -> Prop} {head : Writing Row (Except FaucetError Result)}
    (spec : Spec writer pre head (Ends post escape) escape) :
    Spec writer pre (FileWriter.expect head) post escape :=
  Triple.bind (Ends post escape) spec (fun _ => Triple.ofExcept (fun _ ends => ends))

/-- Questions that at most let time pass for the uploads. -/
def Op.quiet : Op Row -> Bool
  | .load | .modify _ | .prepare | .publish _ | .finishStream _ | .deleteMany _ => false
  | _ => true

theorem passes {template : NameTemplate} {op : Op Row} (quiet : op.quiet = true) {before after : World}
    {answer : op.Answer} (reply : stored template op before answer after) :
    after.state = before.state ∧ exists lost, Passage lost before.store after.store := by
  cases op with
  | load | modify | prepare | publish | finishStream | deleteMany => cases quiet
  | list | «exists» =>
      cases answer with
      | error error => exact ⟨reply.1, [], reply.2⟩
      | ok value => exact ⟨reply.1, [], reply.2.1⟩
  | settle =>
      cases answer with
      | error error => exact reply
      | ok value => exact ⟨reply.1, [], reply.2.1⟩
  | _ => exact ⟨reply.1, [], reply.2⟩

/-- A quiet question leaves the standing as it is, and all there is to know of
the state. -/
theorem waits {also : FileName -> Prop} {known : WriterState -> Prop} {op : Op Row} (quiet : op.quiet = true) :
    Spec writer (fun world => Standing writer earlier also world ∧ known world.state) (FileWriter.request op)
      (fun _ world => Standing writer earlier also world ∧ known world.state) escape :=
  asks (fun before _ after holds reply => by
    rcases passes quiet reply with ⟨same, lost, passage⟩
    rw [same]
    exact ⟨holds.1.passage same passage, holds.2⟩)

/-- A quiet question, when its failure ends the program. -/
theorem tries {Result : Type} {known : WriterState -> Prop} {head : Writing Row (Except FaucetError Result)}
    (spec : Spec writer (fun world => Good writer earlier world ∧ known world.state) head
      (fun _ world => Good writer earlier world ∧ known world.state) escape)
    (escapes : forall world, Good writer earlier world -> escape world) :
    Spec writer (fun world => Good writer earlier world ∧ known world.state) (FileWriter.expect head)
      (fun _ world => Good writer earlier world ∧ known world.state) escape :=
  replies (spec.gives (fun answer world holds => by
    cases answer with
    | ok value => exact holds
    | error error => exact escapes world holds.1))

end Questions

/-! ## Publishing the open file -/

section Publishing

variable {escape : World -> Prop} {file : OpenFile}

/-- A state in which the file is open, and all there is to know otherwise. -/
abbrev With (writer : FileWriter Row) (earlier : List FileName) (file : OpenFile) (world : World) : Prop :=
  Good writer earlier world ∧ Opened file world.state

theorem opened_of_same {after : OpenFile} {state : WriterState} (opened : Opened file state)
    (name : after.name = file.name) (continued : after.continued = file.continued) : Opened after state := by
  rcases opened with ⟨held, current, same, published⟩
  exact ⟨held, current, same.trans name.symm, published.trans continued.symm⟩

/-- Storing the open file back after a step that did not publish it. -/
theorem stores {after : OpenFile} (name : after.name = file.name) (continued : after.continued = file.continued) :
    Spec writer (With writer earlier file) (FileWriter.setCurrent after) (fun _ => With writer earlier after) escape :=
  modifies (fun _ holds =>
    ⟨holds.1.setCurrent holds.2 name (fun published => continued.trans published), after, rfl, rfl, rfl⟩)

theorem puts_spec (name : FileName) (parts : List Part) :
    Spec writer (With writer earlier file) (FileWriter.putParts.puts name parts) (fun _ => With writer earlier file)
      (Good writer earlier) := by
  induction parts with
  | nil => exact Triple.skip
  | cons part rest ih =>
      exact Triple.bind _ (tries (waits rfl) (fun _ good => good)) (fun _ => ih)

theorem putParts_spec (parts : List Part) :
    Spec writer (With writer earlier file) (FileWriter.putParts file parts)
      (fun after world => With writer earlier file world ∧ after.name = file.name ∧ after.continued = file.continued)
      (Good writer earlier) := by
  unfold FileWriter.putParts
  have continues : forall after : OpenFile, after.name = file.name -> after.continued = file.continued ->
      Spec writer (With writer earlier file) (FileWriter.putParts.puts after.name parts >>= fun _ => pure after)
        (fun after world => With writer earlier file world ∧ after.name = file.name ∧
          after.continued = file.continued) (Good writer earlier) := by
    intro after name continued
    exact Triple.bind _ (puts_spec after.name parts) (fun _ => Triple.pure (fun _ holds => ⟨holds, name, continued⟩))
  by_cases streaming : file.streaming = true
  · rw [if_pos streaming]
    exact continues file rfl rfl
  · rw [if_neg streaming]
    refine Triple.bind _ (tries (waits rfl) (fun _ good => good)) (fun _ => ?_)
    refine Triple.bind _ (stores rfl rfl) (fun _ => ?_)
    refine (continues { file with streaming := true } rfl rfl).given ?_
    exact fun _ holds => ⟨holds.1, opened_of_same holds.2 rfl rfl⟩

/-- The file stands in the storage, by its name. -/
abbrev Given (writer : FileWriter Row) (earlier : List FileName) (file : OpenFile) (world : World) : Prop :=
  Standing writer earlier (fun name => name = file.name) world ∧ Opened file world.state

theorem given_of_with {world : World} (holds : With writer earlier file world) : Given writer earlier file world :=
  ⟨holds.1.weaken (fun _ impossible => impossible.elim), holds.2⟩

theorem Standing.land {world : World} {store : Store} {name : FileName}
    (standing : Standing writer earlier (fun other => other = name) ⟨world.state, store⟩) :
    Standing writer earlier (fun other => other = name) ⟨world.state, store.land name⟩ where
  sound := standing.sound
  destination := by
    intro other belongs
    have before := standing.destination other belongs
    unfold Store.land
    dsimp only at before ⊢
    rw [List.mem_cons, List.mem_cons, before, or_left_comm]
  held := by
    intro other holds
    rcases holds with landed | waiting
    · rcases List.mem_cons.mp landed with same | already
      · exact Or.inl same
      · exact standing.held other (Or.inl already)
    · exact standing.held other (Or.inr waiting)
  current := standing.current

theorem Standing.accept {world : World} {store : Store} {name : FileName}
    (standing : Standing writer earlier (fun other => other = name) ⟨world.state, store⟩) :
    Standing writer earlier (fun other => other = name) ⟨world.state, store.accept name⟩ where
  sound := standing.sound
  destination := standing.destination
  held := by
    intro other holds
    rcases holds with landed | waiting
    · exact standing.held other (Or.inl landed)
    · rcases List.mem_cons.mp waiting with same | already
      · exact Or.inl same
      · exact standing.held other (Or.inr already)
  current := standing.current

/-- A publish gives the file to the storage, or leaves everything as it was. -/
theorem publish_spec :
    Spec writer (With writer earlier file) (FileWriter.expect (FileWriter.request (.publish file.name)))
      (fun _ => Given writer earlier file) (Good writer earlier) := by
  refine replies (asks ?_)
  intro before answer after holds reply
  rcases reply with ⟨same, left⟩
  rcases after with ⟨state, store⟩
  cases same
  cases answer with
  | error error =>
      rcases left with ⟨lost, passage⟩
      exact holds.1.passage rfl passage
  | ok value =>
      rcases left with ⟨between, passage, left⟩
      have moved : Given writer earlier file ⟨before.state, between⟩ :=
        given_of_with ⟨holds.1.passage rfl passage, holds.2⟩
      rcases left with landed | accepted
      · cases landed
        exact ⟨moved.1.land, moved.2⟩
      · cases accepted
        exact ⟨moved.1.accept, moved.2⟩

theorem finishStream_spec :
    Spec writer (With writer earlier file) (FileWriter.expect (FileWriter.request (.finishStream file.name)))
      (fun _ => Given writer earlier file) (Good writer earlier) := by
  refine replies (asks ?_)
  intro before answer after holds reply
  rcases reply with ⟨same, left⟩
  rcases after with ⟨state, store⟩
  cases same
  cases answer with
  | error error => exact holds.1.passage rfl left
  | ok value =>
      rcases left with ⟨between, passage, left⟩
      cases left
      have moved : Given writer earlier file ⟨before.state, between⟩ :=
        given_of_with ⟨holds.1.passage rfl passage, holds.2⟩
      exact ⟨moved.1.land, moved.2⟩

theorem publishClosed_spec (closed : Closed) :
    Spec writer (With writer earlier file) (writer.publishClosed file closed)
      (fun after world => Given writer earlier file world ∧ after.name = file.name) (Good writer earlier) := by
  cases closed with
  | nothing => exact Triple.pure (fun _ holds => ⟨given_of_with holds, rfl⟩)
  | file =>
      unfold FileWriter.publishClosed
      dsimp only
      split
      · refine Triple.bind _ (tries (waits rfl) (fun _ good => good)) (fun _ => ?_)
        exact Triple.pure (fun _ holds => ⟨given_of_with holds, rfl⟩)
      · exact Triple.bind _ publish_spec (fun _ => Triple.pure (fun _ given => ⟨given, rfl⟩))
  | parts parts =>
      unfold FileWriter.publishClosed
      dsimp only
      split
      · refine Triple.bind _ (tries (waits rfl) (fun _ good => good)) (fun _ => ?_)
        exact Triple.bind _ publish_spec (fun _ => Triple.pure (fun _ given => ⟨given, rfl⟩))
      · refine Triple.bind _ (putParts_spec parts) (fun after => ?_)
        intro world _ holds
        rcases holds with ⟨opened, name, continued⟩
        have closes : Spec writer (With writer earlier file)
            (FileWriter.setCurrent { after with streaming := false })
            (fun _ => With writer earlier { after with streaming := false }) (Good writer earlier) :=
          stores name continued
        have finishes : Spec writer (With writer earlier { after with streaming := false })
            (FileWriter.expect (FileWriter.request (.finishStream after.name)))
            (fun _ => Given writer earlier { after with streaming := false }) (Good writer earlier) :=
          finishStream_spec
        refine Triple.bind _ closes (fun _ => ?_) world trivial opened
        refine Triple.bind _ finishes (fun _ => Triple.pure ?_)
        intro last given
        exact ⟨⟨given.1.weaken (fun _ same => same.trans name),
          opened_of_same given.2 name.symm continued.symm⟩, name⟩

/-- Once the file is published, it is one of those that are behind. -/
theorem publishFile_spec :
    Spec writer (With writer earlier file) (writer.publishFile file) (fun _ => Good writer earlier)
      (Good writer earlier) := by
  have publishes : forall closed, Spec writer (With writer earlier file)
      (writer.publishClosed file closed >>= fun after => FileWriter.setCurrent after.markPublished)
      (fun _ => Good writer earlier) (Good writer earlier) := by
    intro closed
    refine Triple.bind _ (publishClosed_spec closed) (fun after => modifies ?_)
    intro world given
    rcases given with ⟨⟨standing, held, current, same, _⟩, name⟩
    have opened : Opened { held with name := file.name } world.state := ⟨held, current, same, rfl⟩
    have set : Standing writer earlier (fun other => other = file.name)
        ⟨{ world.state with current := some after.markPublished }, world.store⟩ :=
      standing.setCurrent opened name (fun _ => rfl)
    refine ⟨set.sound, set.destination, ?_, set.current⟩
    intro other holds
    rcases set.held other holds with this | behind
    · have placed := set.current _ rfl
      exact Or.inr ⟨world.state.nextPart, placed.2, (this.trans name.symm).trans placed.1,
        Or.inr ⟨rfl, after.markPublished, rfl, rfl⟩⟩
    · exact Or.inr behind
  unfold FileWriter.publishFile
  by_cases published : file.published = true
  · rw [if_pos published]
    exact publishes .nothing
  · rw [if_neg published]
    exact Triple.bind _ (tries (waits rfl) (fun _ good => good)) publishes

end Publishing

/-! ## Failures -/

theorem poison_poisoned (state : WriterState) (what : String) (error : FaucetError) :
    (state.poison what error).poisoned ≠ none := by
  intro unpoisoned
  unfold WriterState.poison at unpoisoned
  split at unpoisoned
  · rename_i why already
    rw [already] at unpoisoned
    cases unpoisoned
  · cases unpoisoned

/-- Either the writer is poisoned, or there was no risk and nothing changed. -/
theorem poisonIf_cases (risk : Bool) (what : String) (error : FaucetError) (state : WriterState) :
    (state.poisonIf risk what error).poisoned ≠ none ∨ (risk = false ∧ state.poisonIf risk what error = state) := by
  cases risk with
  | true => exact Or.inl (poison_poisoned state what error)
  | false => exact Or.inr ⟨rfl, rfl⟩

theorem Sound.poisonIf {world : World} (sound : Sound writer earlier world) (risk : Bool) (what : String)
    (error : FaucetError) : Sound writer earlier ⟨world.state.poisonIf risk what error, world.store⟩ := by
  intro unpoisoned
  rcases poisonIf_cases risk what error world.state with poisoned | ⟨_, unchanged⟩
  · exact (poisoned unpoisoned).elim
  · rw [unchanged] at unpoisoned ⊢
    exact sound unpoisoned

/-- A writer about to drop the open file. -/
def Losing (writer : FileWriter Row) (earlier : List FileName) (world : World) : Prop :=
  world.state.poisoned = none ->
    Good writer earlier world ∧ exists file, world.state.current = some file ∧ file.continued = false

theorem losing_dropped {world : World} (losing : Losing writer earlier world) (next : Nat)
    (later : world.state.nextPart ≤ next) :
    Sound writer earlier ⟨{ world.state with current := none, nextPart := next }, world.store⟩ := by
  intro unpoisoned
  rcases losing unpoisoned with ⟨good, file, current, fresh⟩
  refine ⟨unpoisoned, good.destination, ?_, fun _ impossible => nomatch impossible⟩
  intro name holds
  rcases good.held name holds with impossible | ⟨part, positive, named, behind⟩
  · exact impossible.elim
  · refine Or.inr ⟨part, positive, named, ?_⟩
    rcases behind with passed | ⟨_, held, opened, continued⟩
    · exact Or.inl (Nat.lt_of_lt_of_le passed later)
    · rw [current] at opened
      cases opened
      rw [fresh] at continued
      cases continued

/-- Without poison, the lost file was never published. -/
theorem lose_spec {Result : Type} {post : Result -> World -> Prop} (call : Nat) (error : FaucetError) :
    Spec writer (Sound writer earlier) (writer.lose call error) post (Sound writer earlier) := by
  refine Triple.bind _ loads (fun state => ?_)
  intro world _ holds
  rcases holds with ⟨rfl, sound⟩
  cases current : world.state.current with
  | none => exact ⟨trivial, sound⟩
  | some file =>
      dsimp only
      have poisons : Spec writer (fun before => world = before)
          (FileWriter.modify (fun state => state.poisonIf (file.atRisk call) (writer.describe file.name) error))
          (fun _ => Losing writer earlier) (Sound writer earlier) := by
        refine modifies ?_
        rintro _ rfl unpoisoned
        rcases poisonIf_cases (file.atRisk call) (writer.describe file.name) error world.state with
          poisoned | ⟨safe, unchanged⟩
        · exact (poisoned unpoisoned).elim
        · rw [unchanged] at unpoisoned ⊢
          refine ⟨sound unpoisoned, file, current, ?_⟩
          exact (Bool.or_eq_false_iff.mp safe).1
      have drops : Spec writer (Losing writer earlier)
          (do
            FileWriter.modify (fun state =>
              { state with
                current := none
                nextPart := if writer.template.numbered then state.nextPart + 1 else state.nextPart })
            Program.raise error) post (Sound writer earlier) := by
        have change : Spec writer (Losing writer earlier)
            (FileWriter.modify (fun state =>
              { state with
                current := none
                nextPart := if writer.template.numbered then state.nextPart + 1 else state.nextPart }))
            (fun _ => Sound writer earlier) (Sound writer earlier) := by
          refine modifies (fun before losing => losing_dropped losing _ ?_)
          split
          · exact Nat.le_succ _
          · exact Nat.le_refl _
        exact Triple.bind _ change (fun _ => Triple.raise (fun _ still => still))
      refine Triple.bind _ poisons (fun _ => ?_) world trivial rfl
      split
      · have aborts : Spec writer (Losing writer earlier) (FileWriter.request (.abortStream file.name))
            (fun _ => Losing writer earlier) (Sound writer earlier) := by
          refine asks (fun before _ after losing reply => ?_)
          rcases passes rfl reply with ⟨same, lost, passage⟩
          rw [Losing, same]
          exact fun unpoisoned => ⟨(losing unpoisoned).1.passage same passage, (losing unpoisoned).2⟩
        exact Triple.bind _ aborts (fun _ => drops)
      · exact drops

theorem sound_of_good {world : World} (good : Good writer earlier world) : Sound writer earlier world := fun _ => good

theorem publishFailed_spec {Result : Type} {post : Result -> World -> Prop} (call : Nat) (error : FaucetError) :
    Spec writer (Good writer earlier) (writer.publishFailed call error) post (Sound writer earlier) := by
  refine Triple.bind _ loads (fun state => ?_)
  refine Triple.bind (fun _ => Sound writer earlier) (modifies ?_) (fun _ => lose_spec call error)
  exact fun world holds => (sound_of_good holds.2).poisonIf _ _ _

/-! ## Rolling over -/

/-- The open file has just been put away, and its part is still the next. -/
def Closing (writer : FileWriter Row) (earlier : List FileName) (world : World) : Prop :=
  world.state.current = none ∧ exists also : FileName -> Prop, Standing writer earlier also world ∧
    forall name, also name -> name = writer.template.fileName world.state.nextPart ∧ 0 < world.state.nextPart

theorem closing_done {world : World} (closing : Closing writer earlier world) :
    Good writer earlier ⟨{ world.state with nextPart := world.state.nextPart + 1 }, world.store⟩ := by
  rcases closing with ⟨absent, also, standing, placed⟩
  refine ⟨standing.sound, standing.destination, ?_, ?_⟩
  · intro name holds
    rcases standing.held name holds with this | ⟨part, positive, named, behind⟩
    · exact Or.inr ⟨world.state.nextPart, (placed name this).2, (placed name this).1, Or.inl (Nat.lt_succ_self _)⟩
    · refine Or.inr ⟨part, positive, named, Or.inl ?_⟩
      rcases behind with passed | ⟨here, _⟩
      · exact Nat.lt_succ_of_lt passed
      · exact Nat.lt_succ_of_le (Nat.le_of_eq here)
  · intro file current
    rw [absent] at current
    cases current

theorem good_closing {world : World} (good : Good writer earlier world) (pending : Bool) :
    Closing writer earlier ⟨{ world.state with pendingAtRisk := pending, current := none }, world.store⟩ := by
  refine ⟨rfl, fun name => name = writer.template.fileName world.state.nextPart ∧ 0 < world.state.nextPart, ?_,
    fun _ placed => placed⟩
  refine ⟨good.sound, good.destination, ?_, fun _ impossible => nomatch impossible⟩
  intro name holds
  rcases good.held name holds with impossible | ⟨part, positive, named, behind⟩
  · exact impossible.elim
  · rcases behind with passed | ⟨here, _⟩
    · exact Or.inr ⟨part, positive, named, Or.inl passed⟩
    · cases here
      exact Or.inl ⟨named, positive⟩

theorem roll_spec (call : Nat) :
    Spec writer (Good writer earlier) (writer.roll call) (fun _ => Good writer earlier) (Sound writer earlier) := by
  have advances : Spec writer (Closing writer earlier)
      (FileWriter.modify (fun state => { state with nextPart := state.nextPart + 1 })) (fun _ => Good writer earlier)
      (Sound writer earlier) := modifies (fun _ closing => closing_done closing)
  refine Triple.bind _ loads (fun state => ?_)
  intro world _ holds
  rcases holds with ⟨rfl, good⟩
  cases current : world.state.current with
  | none =>
      exact advances world trivial ⟨current, fun _ => False, good, fun _ impossible => impossible.elim⟩
  | some file =>
      dsimp only
      have publishes : Spec writer (With writer earlier file) (writer.publishFile file).attempt
          (fun _ => Good writer earlier) (Sound writer earlier) := by
        refine Triple.attempt publishFile_spec (fun result last ends => ?_)
        cases result with
        | ok value => exact ends
        | error error => exact ends
      refine Triple.bind _ publishes (fun result => ?_) world trivial ⟨good, file, current, rfl, rfl⟩
      cases result with
      | ok value =>
          dsimp only
          exact Triple.bind _ (modifies (fun _ closed => good_closing closed _)) (fun _ => advances)
      | error error => exact Triple.bind _ (publishFailed_spec call error) (fun _ => advances)

theorem rollWhen_spec (full : Bool) (call : Nat) :
    Spec writer (Good writer earlier) (writer.rollWhen full call) (fun _ => Good writer earlier)
      (Sound writer earlier) := by
  unfold FileWriter.rollWhen
  split
  · exact roll_spec call
  · exact Triple.pure (fun _ good => good)

end FileSink
end FaucetStream
