import FaucetStream.Budget.Sink

namespace FaucetStream
namespace Budget

open Library
open Pipeline

/-!
# What a budget's books keep

While a page is open, there is room for all of its rows that a sink has not
accepted, and no more of them are prepaid than are still to be written.  So an
open page is never refused, and what is prepaid never exceeds the room.
-/

/-- The page of the main sink that an entry is about. -/
def Event.page : Event -> Option Nat
  | .admitted page => some page
  | .refused page => some page
  | .offered page _ => some page
  | .deadLettered _ => none

variable {spec : BudgetSpec} {page : Nat}

/-! ## Room under the ceilings -/

structure Room (spec : BudgetSpec) (state : BudgetState) (count bytes : Nat) : Prop where
  records : forall limit, spec.maxRecords = some limit -> state.records + count ≤ limit
  bytes : forall limit, spec.maxBytes = some limit -> state.bytes + bytes ≤ limit

theorem filter_lt_eq_none_iff {ceiling : Option Nat} {reached : Nat} :
    ceiling.filter (fun limit => limit < reached) = none <-> forall limit, ceiling = some limit -> reached ≤ limit := by
  cases ceiling with
  | none => exact iff_of_true rfl (fun _ impossible => nomatch impossible)
  | some limit =>
      rw [Option.filter_some]
      by_cases crossed : limit < reached
      · rw [if_pos (decide_eq_true crossed)]
        exact iff_of_false (Option.some_ne_none limit) (fun within => Nat.not_lt.mpr (within limit rfl) crossed)
      · rw [if_neg (fun above => crossed (of_decide_eq_true above))]
        refine iff_of_true rfl ?_
        intro other same
        rw [← Option.some.inj same]
        exact Nat.not_lt.mp crossed

theorem checkCeilings_eq_none_iff {state : BudgetState} {count bytes : Nat} :
    spec.checkCeilings state count bytes = none <-> Room spec state count bytes := by
  unfold BudgetSpec.checkCeilings
  cases records : spec.maxRecords.filter (fun limit => limit < state.records + count) with
  | some limit =>
      refine iff_of_false (Option.some_ne_none _) ?_
      intro room
      rw [filter_lt_eq_none_iff.mpr room.records] at records
      cases records
  | none =>
      dsimp only
      cases bytesOver : spec.maxBytes.filter (fun limit => limit < state.bytes + bytes) with
      | some limit =>
          refine iff_of_false (Option.some_ne_none _) ?_
          intro room
          rw [filter_lt_eq_none_iff.mpr room.bytes] at bytesOver
          cases bytesOver
      | none => exact iff_of_true rfl ⟨filter_lt_eq_none_iff.mp records, filter_lt_eq_none_iff.mp bytesOver⟩

theorem Room.less {state : BudgetState} {count bytes fewer smaller : Nat} (room : Room spec state count bytes)
    (records : fewer ≤ count) (sizes : smaller ≤ bytes) : Room spec state fewer smaller :=
  ⟨fun limit isLimit => Nat.le_trans (Nat.add_le_add_left records _) (room.records limit isLimit),
    fun limit isLimit => Nat.le_trans (Nat.add_le_add_left sizes _) (room.bytes limit isLimit)⟩

/-- Accepted rows take up the room that was left for them. -/
theorem Room.account {state : BudgetState} {count bytes accepted taken : Nat} (room : Room spec state count bytes)
    (records : accepted ≤ count) (sizes : taken ≤ bytes) :
    Room spec (state.account accepted taken) (count - accepted) (bytes - taken) := by
  constructor
  · intro limit isLimit
    have before := room.records limit isLimit
    change state.records + accepted + (count - accepted) ≤ limit
    omega
  · intro limit isLimit
    have before := room.bytes limit isLimit
    change state.bytes + taken + (bytes - taken) ≤ limit
    omega

/-! ## Admission -/

/-- With room, a write is admitted whether or not it is prepaid. -/
theorem admit_of_room (gate : Gate) {rows bytes : Nat} (undecided : gate.state.verdict = none)
    (room : Room spec gate.state rows bytes) :
    exists left, spec.admitWrite gate rows bytes = (⟨gate.state, left⟩, none) ∧ left ≤ gate.prepaid - rows := by
  unfold BudgetSpec.admitWrite
  rw [undecided]
  dsimp only
  by_cases prepaid : rows ≤ gate.prepaid ∧ 0 < rows
  · rw [if_pos prepaid]
    exact ⟨_, rfl, Nat.le_refl _⟩
  · rw [if_neg prepaid, checkCeilings_eq_none_iff.mpr room]
    exact ⟨0, rfl, Nat.zero_le _⟩

theorem refuse_verdict (state : BudgetState) (verdict : BudgetVerdict) :
    (state.refuse verdict).verdict ≠ none ∧ (state.refuse verdict).records = state.records := by
  unfold BudgetState.refuse BudgetState.setVerdict
  cases decided : state.verdict with
  | none => exact ⟨Option.some_ne_none verdict, rfl⟩
  | some first =>
      refine ⟨?_, rfl⟩
      change state.verdict ≠ none
      rw [decided]
      exact Option.some_ne_none first

/-- A page as a whole is admitted with room, and else refused with a verdict. -/
theorem admitPage_cases (spec : BudgetSpec) (state : BudgetState) (rows bytes : Nat) :
    (state.verdict = none ∧ Room spec state rows bytes ∧ spec.admitPage state rows bytes = (state, none)) ∨
      exists after verdict, spec.admitPage state rows bytes = (after, some verdict) ∧ after.verdict ≠ none ∧
        after.records = state.records := by
  unfold BudgetSpec.admitPage
  cases decided : state.verdict with
  | some verdict =>
      right
      refine ⟨state, verdict, rfl, ?_, rfl⟩
      rw [decided]
      exact Option.some_ne_none verdict
  | none =>
      dsimp only
      cases crossed : spec.checkCeilings state rows bytes with
      | none => exact Or.inl ⟨rfl, checkCeilings_eq_none_iff.mp crossed, rfl⟩
      | some verdict => exact Or.inr ⟨_, verdict, rfl, refuse_verdict state verdict⟩

/-- Without anything prepaid, a write is a page of its own. -/
theorem admit_unpaid (spec : BudgetSpec) (state : BudgetState) (rows bytes : Nat) :
    spec.admitWrite ⟨state, 0⟩ rows bytes =
      (⟨(spec.admitPage state rows bytes).1, 0⟩, (spec.admitPage state rows bytes).2) := by
  unfold BudgetSpec.admitWrite BudgetSpec.admitPage
  cases state.verdict with
  | some verdict => rfl
  | none =>
      dsimp only
      have unpaid : ¬(rows ≤ 0 ∧ 0 < rows) := fun both => Nat.not_lt.mpr both.1 both.2
      rw [if_neg unpaid]
      cases spec.checkCeilings state rows bytes with
      | some verdict => rfl
      | none => rfl

/-! ## The books -/

/-- Only earlier pages are in the record. -/
def Before (page : Nat) (books : Books) : Prop :=
  forall event, event ∈ books.ledger -> forall other, event.page = some other -> other < page

/-- What the books keep throughout a run. -/
structure Sound (spec : BudgetSpec) (books : Books) : Prop where
  counted : books.state.records = acceptedTotal books.ledger
  within : forall limit, spec.maxRecords = some limit -> books.state.records ≤ limit
  refusedWhole : forall page accepted, .refused page ∈ books.ledger -> .offered page accepted ∉ books.ledger
  admittedWhole : forall page, .admitted page ∈ books.ledger -> .refused page ∉ books.ledger

/-- Between two pages nothing is prepaid. -/
structure Between (page : Nat) (books : Books) : Prop where
  unpaid : books.prepaid = 0
  dlqUnpaid : books.dlqPrepaid = 0
  before : Before page books

/-- None of the page has reached the sink inside. -/
structure Unoffered (page : Nat) (books : Books) : Prop where
  unpaid : books.prepaid = 0
  dlqUnpaid : books.dlqPrepaid = 0
  unoffered : forall accepted, .offered page accepted ∉ books.ledger
  unadmitted : .admitted page ∉ books.ledger
  decided : .refused page ∈ books.ledger -> books.state.verdict ≠ none
  before : Before (page + 1) books

/-- There is room for the rows of the page that may still be written, and no
more are prepaid than `paid`. -/
structure Opened (spec : BudgetSpec) (page count bytes paid : Nat) (books : Books) : Prop where
  undecided : books.state.verdict = none
  room : Room spec books.state count bytes
  prepaid : books.prepaid ≤ paid
  dlqUnpaid : books.dlqPrepaid = 0
  unrefused : .refused page ∉ books.ledger
  before : Before (page + 1) books

variable {books : Books}

theorem Before.later {later : Nat} (before : Before page books) (order : page ≤ later) :
    Before later books :=
  fun event among other isPage => Nat.lt_of_lt_of_le (before event among other isPage) order

theorem Before.absent (before : Before page books) {event : Event} (isPage : event.page = some page) :
    event ∉ books.ledger :=
  fun among => Nat.lt_irrefl page (before event among page isPage)

theorem Between.later {later : Nat} (between : Between page books) (order : page ≤ later) :
    Between later books :=
  ⟨between.unpaid, between.dlqUnpaid, between.before.later order⟩

theorem Between.unoffered (between : Between page books) : Unoffered page books where
  unpaid := between.unpaid
  dlqUnpaid := between.dlqUnpaid
  unoffered := fun _ => between.before.absent rfl
  unadmitted := between.before.absent rfl
  decided := fun refused => absurd refused (between.before.absent rfl)
  before := between.before.later (Nat.le_succ page)

theorem Unoffered.between (unoffered : Unoffered page books) : Between (page + 1) books :=
  ⟨unoffered.unpaid, unoffered.dlqUnpaid, unoffered.before⟩

theorem Opened.between {count bytes : Nat} (opened : Opened spec page count bytes 0 books) :
    Between (page + 1) books :=
  ⟨Nat.le_zero.mp opened.prepaid, opened.dlqUnpaid, opened.before⟩

theorem Opened.less {count bytes paid fewer smaller unpaid : Nat}
    (opened : Opened spec page count bytes paid books) (records : fewer ≤ count) (sizes : smaller ≤ bytes)
    (prepaid : paid ≤ unpaid) : Opened spec page fewer smaller unpaid books :=
  { opened with room := opened.room.less records sizes, prepaid := Nat.le_trans opened.prepaid prepaid }

theorem Unoffered.opened {rows bytes : Nat} (unoffered : Unoffered page books)
    (undecided : books.state.verdict = none) (room : Room spec books.state rows bytes) :
    Opened spec page rows bytes 0 books where
  undecided := undecided
  room := room
  prepaid := Nat.le_of_eq unoffered.unpaid
  dlqUnpaid := unoffered.dlqUnpaid
  unrefused := fun refused => unoffered.decided refused undecided
  before := unoffered.before

/-! ## One entry of the record -/

theorem before_append {books after : Books} {event : Event} (before : Before page books)
    (ledger : after.ledger = books.ledger ++ [event]) (isPage : forall other, event.page = some other -> other < page) :
    Before page after := by
  intro other among number isNumber
  rw [ledger] at among
  rcases List.mem_append.mp among with old | new
  · exact before other old number isNumber
  · rw [List.mem_singleton.mp new] at isNumber
    exact isPage number isNumber

theorem acceptedTotal_append (ledger : List Event) (event : Event) :
    acceptedTotal (ledger ++ [event]) = acceptedTotal ledger + event.accepted := by
  unfold acceptedTotal
  rw [List.map_append, List.sum_append, List.map_singleton, List.sum_singleton]

theorem mem_append_of_ne {ledger : List Event} {event new : Event} (differs : event ≠ new) :
    event ∈ ledger ++ [new] <-> event ∈ ledger := by
  rw [List.mem_append, List.mem_singleton]
  exact ⟨fun either => either.resolve_right differs, Or.inl⟩

/-- Rows of an open page are written. -/
theorem Opened.offer {count bytes paid rows rowsBytes left accepted taken : Nat}
    (opened : Opened spec page count bytes paid books) (sound : Sound spec books) (fits : rows ≤ count)
    (bytesFit : rowsBytes ≤ bytes) (used : left ≤ books.prepaid - rows) (honest : accepted ≤ rows)
    (bytesHonest : taken ≤ rowsBytes) :
    Sound spec (books.offer page ⟨books.state, left⟩ (accepted, taken)) ∧
      Opened spec page (count - accepted) (bytes - taken) (paid - rows)
        (books.offer page ⟨books.state, left⟩ (accepted, taken)) := by
  have room := opened.room.account (Nat.le_trans honest fits) (Nat.le_trans bytesHonest bytesFit)
  constructor
  · constructor
    · change books.state.records + accepted = acceptedTotal (books.ledger ++ [.offered page accepted])
      rw [acceptedTotal_append, sound.counted]
      rfl
    · intro limit isLimit
      exact Nat.le_trans (Nat.le_add_right _ _) (room.records limit isLimit)
    · intro other counted refused
      have before := (mem_append_of_ne Event.noConfusion).mp refused
      intro offered
      rcases List.mem_append.mp offered with old | new
      · exact sound.refusedWhole other counted before old
      · cases List.mem_singleton.mp new
        exact opened.unrefused before
    · intro other admitted refused
      exact sound.admittedWhole other ((mem_append_of_ne Event.noConfusion).mp admitted)
        ((mem_append_of_ne Event.noConfusion).mp refused)
  · exact {
      undecided := opened.undecided
      room := room
      prepaid := by
        have prepaid := opened.prepaid
        change left ≤ paid - rows
        omega
      dlqUnpaid := opened.dlqUnpaid
      unrefused := fun refused => opened.unrefused ((mem_append_of_ne Event.noConfusion).mp refused)
      before := before_append opened.before rfl (fun other isPage => by
        cases isPage
        exact Nat.lt_succ_self page) }

/-- A page none of which was written is refused. -/
theorem Unoffered.refuse (unoffered : Unoffered page books) (sound : Sound spec books)
    {state : BudgetState} (decided : state.verdict ≠ none) (records : state.records = books.state.records) :
    Sound spec (books.refuse page ⟨state, 0⟩) ∧ Unoffered page (books.refuse page ⟨state, 0⟩) := by
  constructor
  · constructor
    · change state.records = acceptedTotal (books.ledger ++ [.refused page])
      rw [acceptedTotal_append, records, sound.counted]
      rfl
    · intro limit isLimit
      change state.records ≤ limit
      rw [records]
      exact sound.within limit isLimit
    · intro other accepted refused offered
      have before := (mem_append_of_ne Event.noConfusion).mp offered
      rcases List.mem_append.mp refused with old | new
      · exact sound.refusedWhole other accepted old before
      · cases List.mem_singleton.mp new
        exact unoffered.unoffered accepted before
    · intro other admitted refused
      have before := (mem_append_of_ne Event.noConfusion).mp admitted
      rcases List.mem_append.mp refused with old | new
      · exact sound.admittedWhole other before old
      · cases List.mem_singleton.mp new
        exact unoffered.unadmitted before
  · exact {
      unpaid := rfl
      dlqUnpaid := unoffered.dlqUnpaid
      unoffered := fun accepted offered =>
        unoffered.unoffered accepted ((mem_append_of_ne Event.noConfusion).mp offered)
      unadmitted := fun admitted => unoffered.unadmitted ((mem_append_of_ne Event.noConfusion).mp admitted)
      decided := fun _ => decided
      before := before_append unoffered.before rfl (fun other isPage => by
        cases isPage
        exact Nat.lt_succ_self page) }

/-- A page with room is admitted whole. -/
theorem Between.admitted (between : Between page books) (sound : Sound spec books) {rows bytes : Nat}
    (undecided : books.state.verdict = none) (room : Room spec books.state rows bytes) :
    Sound spec (books.admitted page rows) ∧ Opened spec page rows bytes rows (books.admitted page rows) := by
  have unrefused : .refused page ∉ books.ledger := between.before.absent rfl
  constructor
  · constructor
    · change books.state.records = acceptedTotal (books.ledger ++ [.admitted page])
      rw [acceptedTotal_append, sound.counted]
      rfl
    · exact sound.within
    · intro other accepted refused offered
      exact sound.refusedWhole other accepted ((mem_append_of_ne Event.noConfusion).mp refused)
        ((mem_append_of_ne Event.noConfusion).mp offered)
    · intro other admitted refused
      have before := (mem_append_of_ne Event.noConfusion).mp refused
      rcases List.mem_append.mp admitted with old | new
      · exact sound.admittedWhole other old before
      · cases List.mem_singleton.mp new
        exact unrefused before
  · exact {
      undecided := undecided
      room := room
      prepaid := Nat.le_refl rows
      dlqUnpaid := between.dlqUnpaid
      unrefused := fun refused => unrefused ((mem_append_of_ne Event.noConfusion).mp refused)
      before := before_append (between.before.later (Nat.le_succ page)) rfl (fun other isPage => by
        cases isPage
        exact Nat.lt_succ_self page) }

/-- Dead letters between two pages are checked by themselves. -/
theorem Between.deadLetter (between : Between page books) (sound : Sound spec books)
    {rows bytes accepted : Nat} (room : Room spec books.state rows bytes) (honest : accepted ≤ rows) (taken : Nat) :
    Sound spec (books.deadLetter ⟨books.state, 0⟩ (accepted, taken)) ∧
      Between page (books.deadLetter ⟨books.state, 0⟩ (accepted, taken)) := by
  constructor
  · constructor
    · change books.state.records + accepted = acceptedTotal (books.ledger ++ [.deadLettered accepted])
      rw [acceptedTotal_append, sound.counted]
      rfl
    · intro limit isLimit
      exact Nat.le_trans (Nat.add_le_add_left honest _) (room.records limit isLimit)
    · intro other counted refused offered
      exact sound.refusedWhole other counted ((mem_append_of_ne Event.noConfusion).mp refused)
        ((mem_append_of_ne Event.noConfusion).mp offered)
    · intro other admitted refused
      exact sound.admittedWhole other ((mem_append_of_ne Event.noConfusion).mp admitted)
        ((mem_append_of_ne Event.noConfusion).mp refused)
  · exact ⟨between.unpaid, rfl, before_append between.before rfl (fun _ isPage => nomatch isPage)⟩

theorem Between.refuseDeadLetters (between : Between page books) (sound : Sound spec books)
    {state : BudgetState} (records : state.records = books.state.records) :
    Sound spec (books.refuseDeadLetters ⟨state, 0⟩) ∧ Between page (books.refuseDeadLetters ⟨state, 0⟩) := by
  constructor
  · refine ⟨records.trans sound.counted, ?_, sound.refusedWhole, sound.admittedWhole⟩
    intro limit isLimit
    change state.records ≤ limit
    rw [records]
    exact sound.within limit isLimit
  · exact ⟨between.unpaid, rfl, between.before⟩

end Budget
end FaucetStream
