import Mathlib.Order.Nat
import FaucetStream.Error
import FaucetStream.Library.Concurrent

namespace FaucetStream
namespace Keys

open Library

/-!
# Moving state from an earlier key

A pipeline whose state key was derived differently in the past looks for its
position under the earlier keys, claims the first one it finds for the current
key, and deletes it there.  Any number of processes do this at the same time.
Each of them goes on from the position under the current key and writes later
ones there.  The store answers one operation after the other, an operation that
fails may have had its effect, and a process may stop anywhere and be started
again.
-/

inductive KeyMigration where
  | current
  | fresh
  | moved (earlier : String)
  deriving DecidableEq

inductive StoreOp (Position : Type) where
  | get (key : String)
  | compareAndPut (key : String) (expected : Option Position) (value : Position)
  | delete (key : String)
  | put (key : String) (value : Position)
  /-- Nothing the store does: a process says how its migration ended. -/
  | finished (outcome : KeyMigration)
  /-- Nothing the store does: the positions a run comes to. -/
  | advance (start : Option Position)

def StoreReply (Position : Type) : StoreOp Position -> Type
  | .get _ => Except FaucetError (Option Position)
  | .compareAndPut _ _ _ => Except FaucetError Bool
  | .delete _ => Except FaucetError Unit
  | .put _ _ => Except FaucetError Unit
  | .finished _ => Unit
  | .advance _ => List Position

variable {Position : Type}

/-- The store, with the migrations that ended and the positions that were put,
the latest first. -/
structure StateStore (Position : Type) where
  held : String -> Option Position
  finished : List KeyMigration := []
  written : List Position := []

abbrev Migrating (Position : Type) (Result : Type) := Program (StoreReply Position) FaucetError Result

def get (key : String) : Migrating Position (Option Position) := .ask (.get key) .done

def compareAndPut (key : String) (expected : Option Position) (value : Position) : Migrating Position Bool :=
  .ask (.compareAndPut key expected value) .done

def put (key : String) (value : Position) : Migrating Position Unit := .ask (.put key value) .done

/-- The first candidate that holds a value is claimed. -/
def claimFirst (key : String) : List String -> Migrating Position KeyMigration
  | [] => pure .fresh
  | old :: rest =>
      if old = key then claimFirst key rest
      else do
        match ← get old with
        | none => claimFirst key rest
        | some value =>
            if ← compareAndPut key none value then do
              -- a failed delete is only logged
              let _ ← Program.request (StoreOp.delete old)
              pure (.moved old)
            else pure .current

def migrateStateKey (key : String) (candidates : List String) : Migrating Position KeyMigration :=
  if candidates.isEmpty then pure .fresh
  else do
    match ← get key with
    | some _ => pure .current
    | none => claimFirst key candidates

def putAll (key : String) : List Position -> Migrating Position Unit
  | [] => pure ()
  | position :: rest => do
      put key position
      putAll key rest

/-- A run migrates its key, resumes from what the key holds and writes later
positions. -/
def runMigrated (key : String) (candidates : List String) : Migrating Position Unit := do
  let outcome ← migrateStateKey key candidates
  let _ ← Program.request (StoreOp.finished outcome)
  let start ← get key
  let positions ← Program.request (StoreOp.advance start)
  putAll key positions

/-! ## The store -/

def StateStore.assign (store : StateStore Position) (key : String) (value : Option Position) : StateStore Position :=
  { store with held := Function.update store.held key value }

theorem held_assign_self (store : StateStore Position) (key : String) (value : Option Position) :
    (store.assign key value).held key = value := Function.update_self _ _ _

theorem held_assign_of_ne (store : StateStore Position) {key other : String} (different : other ≠ key)
    (value : Option Position) : (store.assign key value).held other = store.held other :=
  Function.update_of_ne different _ _

/-- How the store moves: the key stays occupied once it is, no other key is
filled, and only a put changes what the key holds. -/
structure Onward (key : String) (before after : StateStore Position) : Prop where
  occupied : (before.held key).isSome = true -> (after.held key).isSome = true
  gone : forall other, other ≠ key -> before.held other = none -> after.held other = none
  written : before.written <:+ after.written
  kept : after.written = before.written -> forall value, before.held key = some value -> after.held key = some value

namespace Onward

variable {key : String} {first second third : StateStore Position}

theorem refl (key : String) (store : StateStore Position) : Onward key store store :=
  ⟨id, fun _ _ => id, List.suffix_rfl, fun _ _ => id⟩

theorem trans (one : Onward key first second) (two : Onward key second third) : Onward key first third where
  occupied := fun held => two.occupied (one.occupied held)
  gone := fun other different absent => two.gone other different (one.gone other different absent)
  written := one.written.trans two.written
  kept := by
    intro same value held
    have shorter : first.written = second.written := by
      apply one.written.eq_of_length_le
      rw [← same]
      exact two.written.length_le
    exact two.kept (same.trans shorter) value (one.kept shorter.symm value held)

/-- An empty key is filled. -/
theorem fill (store : StateStore Position) (value : Position) (empty : store.held key = none) :
    Onward key store (store.assign key (some value)) where
  occupied := by
    intro held
    rw [empty] at held
    cases held
  gone := by
    intro other different absent
    exact (held_assign_of_ne store different _).trans absent
  written := List.suffix_rfl
  kept := by
    intro _ current held
    rw [empty] at held
    cases held

/-- Another key is emptied. -/
theorem empty {old : String} (different : old ≠ key) (store : StateStore Position) :
    Onward key store (store.assign old none) where
  occupied := by
    intro held
    rw [held_assign_of_ne store (Ne.symm different)]
    exact held
  gone := by
    intro other _ absent
    by_cases same : other = old
    · rw [same]
      exact held_assign_self store old none
    · exact (held_assign_of_ne store same none).trans absent
  written := List.suffix_rfl
  kept := by
    intro _ value held
    exact (held_assign_of_ne store (Ne.symm different) none).trans held

theorem put (store : StateStore Position) (value : Position) :
    Onward key store { store.assign key (some value) with written := value :: store.written } where
  occupied := by
    intro _
    change ((store.assign key (some value)).held key).isSome = true
    rw [held_assign_self]
    rfl
  gone := by
    intro other different absent
    exact (held_assign_of_ne store different _).trans absent
  written := List.suffix_cons value store.written
  kept := by
    intro same
    exact absurd same (List.cons_ne_self value store.written)

end Onward

/-- The first candidate that holds a value. -/
def firstHeld (key : String) (candidates : List String) (initial : String -> Option Position) : Option String :=
  candidates.find? (fun old => decide (old ≠ key) && (initial old).isSome)

theorem firstHeld_eq {key : String} {initial : String -> Option Position} {done rest : List String} {old : String}
    {value : Position} (different : old ≠ key) (held : initial old = some value)
    (passed : forall other, other ∈ done -> other ≠ key -> initial other = none) :
    firstHeld key (done ++ old :: rest) initial = some old := by
  unfold firstHeld
  rw [List.find?_append]
  have nothing : done.find? (fun old => decide (old ≠ key) && (initial old).isSome) = none := by
    apply List.find?_eq_none.mpr
    intro other among both
    rw [Bool.and_eq_true, decide_eq_true_eq] at both
    rw [passed other among both.1] at both
    cases both.2
  rw [nothing, Option.none_or, List.find?_cons_of_pos]
  rw [held, Option.isSome_some, Bool.and_true]
  exact decide_eq_true different

section Store

variable [Preorder Position]

/-- What an operation may answer, and what it leaves. -/
inductive StoreAnswers : (op : StoreOp Position) -> StateStore Position -> StoreReply Position op ->
    StateStore Position -> Prop
  | got (key : String) (store : StateStore Position) :
      StoreAnswers (.get key) store (.ok (store.held key)) store
  | getFailed (key : String) (store : StateStore Position) (error : FaucetError) :
      StoreAnswers (.get key) store (.error error) store
  | claimed (key : String) {expected : Option Position} (value : Position) (store : StateStore Position)
      (same : store.held key = expected) :
      StoreAnswers (.compareAndPut key expected value) store (.ok true) (store.assign key (some value))
  | refused (key : String) {expected : Option Position} (value : Position) (store : StateStore Position)
      (other : store.held key ≠ expected) :
      StoreAnswers (.compareAndPut key expected value) store (.ok false) store
  | claimFailed (key : String) (expected : Option Position) (value : Position) (store : StateStore Position)
      (error : FaucetError) : StoreAnswers (.compareAndPut key expected value) store (.error error) store
  | claimLost (key : String) {expected : Option Position} (value : Position) (store : StateStore Position)
      (error : FaucetError) (same : store.held key = expected) :
      StoreAnswers (.compareAndPut key expected value) store (.error error) (store.assign key (some value))
  | deleted (key : String) (store : StateStore Position) (answer : Except FaucetError Unit) :
      StoreAnswers (.delete key) store answer (store.assign key none)
  | deleteFailed (key : String) (store : StateStore Position) (error : FaucetError) :
      StoreAnswers (.delete key) store (.error error) store
  | put (key : String) (value : Position) (store : StateStore Position) (answer : Except FaucetError Unit) :
      StoreAnswers (.put key value) store answer
        { store.assign key (some value) with written := value :: store.written }
  | putFailed (key : String) (value : Position) (store : StateStore Position) (error : FaucetError) :
      StoreAnswers (.put key value) store (.error error) store
  | finished (outcome : KeyMigration) (store : StateStore Position) :
      StoreAnswers (.finished outcome) store () { store with finished := outcome :: store.finished }
  | advanced (start : Option Position) (positions : List Position) (store : StateStore Position)
      (later : forall first, start = some first -> forall position, position ∈ positions -> first < position)
      (ascending : positions.Pairwise (· < ·)) :
      StoreAnswers (.advance start) store positions store

def storeAnswers : Environment (StoreReply Position) (StateStore Position) := StoreAnswers

/-- What holds of the store at any time.  A candidate is gone only when it was
the first that held a value and the key is occupied. -/
structure Preserved (key : String) (candidates : List String) (initial : String -> Option Position)
    (store : StateStore Position) : Prop where
  occupied : (initial key).isSome = true -> (store.held key).isSome = true
  moved : forall old, old ∈ candidates -> old ≠ key -> store.held old = initial old ∨
    (store.held old = none ∧ initial key = none ∧ firstHeld key candidates initial = some old ∧
      (store.held key).isSome = true)
  later : initial key = none -> forall old position, firstHeld key candidates initial = some old ->
    initial old = some position -> forall value, store.held key = some value ->
      value = position ∨ (position < value ∧ value ∈ store.written)
  finished : store.finished ≠ [] -> initial key = none -> (firstHeld key candidates initial).isSome = true ->
    (store.held key).isSome = true

section Steps

variable {key : String} {candidates : List String} {initial : String -> Option Position}
  {store after : StateStore Position}

/-- While the key is empty, nothing was moved. -/
theorem Preserved.untouched (preserved : Preserved key candidates initial store) (empty : store.held key = none)
    {old : String} (among : old ∈ candidates) (different : old ≠ key) : store.held old = initial old := by
  rcases preserved.moved old among different with same | ⟨_, _, _, held⟩
  · exact same
  · rw [empty] at held
    cases held

/-- A claim of the first value fills the empty key. -/
theorem Preserved.fill (preserved : Preserved key candidates initial store) {old : String} {value : Position}
    (empty : store.held key = none) (first : firstHeld key candidates initial = some old)
    (held : initial old = some value) : Preserved key candidates initial (store.assign key (some value)) where
  occupied := by
    intro _
    rw [held_assign_self]
    rfl
  moved := by
    intro other among different
    left
    exact (held_assign_of_ne store different _).trans (preserved.untouched empty among different)
  later := by
    intro _ found position same initially current now
    rw [first] at same
    cases same
    rw [held] at initially
    cases initially
    rw [held_assign_self] at now
    exact Or.inl (Option.some.inj now).symm
  finished := by
    intro _ _ _
    rw [held_assign_self]
    rfl

/-- The claimed candidate is deleted. -/
theorem Preserved.empty (preserved : Preserved key candidates initial store) {old : String}
    (different : old ≠ key) (absent : initial key = none) (first : firstHeld key candidates initial = some old)
    (filled : (store.held key).isSome = true) : Preserved key candidates initial (store.assign old none) := by
  have same := held_assign_of_ne store (Ne.symm different) none
  refine ⟨?_, ?_, ?_, ?_⟩
  · rw [same]
    exact preserved.occupied
  · intro other among apart
    by_cases this : other = old
    · subst this
      right
      exact ⟨held_assign_self store other none, absent, first, by rw [same]; exact filled⟩
    · rw [same]
      rw [held_assign_of_ne store this]
      exact preserved.moved other among apart
  · rw [same]
    exact preserved.later
  · rw [same]
    exact preserved.finished

/-- A run puts a position after the one it resumed from. -/
theorem Preserved.put (preserved : Preserved key candidates initial store) {value : Position}
    (beyond : initial key = none -> forall old position, firstHeld key candidates initial = some old ->
      initial old = some position -> position < value) :
    Preserved key candidates initial { store.assign key (some value) with written := value :: store.written } := by
  have filled := held_assign_self store key (some value)
  refine ⟨?_, ?_, ?_, ?_⟩
  · intro _
    dsimp only
    rw [filled]
    rfl
  · intro other among apart
    dsimp only
    rw [held_assign_of_ne store apart, filled]
    exact (preserved.moved other among apart).imp id (fun ⟨gone, absent, first, _⟩ => ⟨gone, absent, first, rfl⟩)
  · intro absent old position first initially current now
    dsimp only at now
    rw [filled] at now
    cases now
    exact Or.inr ⟨beyond absent old position first initially, List.mem_cons_self⟩
  · intro _ _ _
    dsimp only
    rw [filled]
    rfl

/-! ## Every program keeps it -/

variable (key candidates initial) in
abbrev Migrates {Result : Type} (post : Except FaucetError Result -> StateStore Position -> Prop) :
    Migrating Position Result -> StateStore Position -> Prop :=
  Kept storeAnswers (Preserved key candidates initial) (Onward key) (Onward key) post

/-- From here on, the key is occupied if there was anything to move. -/
def Ready (key : String) (candidates : List String) (initial : String -> Option Position)
    (store : StateStore Position) : Prop :=
  forall later, Onward key store later -> Preserved key candidates initial later ->
    (firstHeld key candidates initial).isSome = true -> (later.held key).isSome = true

theorem Ready.of_isSome (filled : (store.held key).isSome = true) : Ready key candidates initial store :=
  fun _ moved _ _ => moved.occupied filled

/-- The value of a candidate that still holds one is its first. -/
theorem Preserved.initially (preserved : Preserved key candidates initial store) {old : String} {value : Position}
    (among : old ∈ candidates) (different : old ≠ key) (held : store.held old = some value) :
    initial old = some value := by
  rcases preserved.moved old among different with same | ⟨gone, _⟩
  · rw [← same]
    exact held
  · rw [held] at gone
    cases gone

/-- A claim fills the key with the first value, or finds it occupied. -/
theorem claim_keeps (preserved : Preserved key candidates initial store) {old : String} {value : Position}
    (held : initial old = some value)
    (first : store.held key = none -> firstHeld key candidates initial = some old)
    {answer : Except FaucetError Bool} (answered : storeAnswers (.compareAndPut key none value) store answer after) :
    Preserved key candidates initial after ∧ Onward key store after ∧
      (answer = .ok true -> firstHeld key candidates initial = some old ∧ (after.held key).isSome = true) ∧
      (answer = .ok false -> (after.held key).isSome = true) := by
  cases answered with
  | claimed _ _ _ empty =>
      refine ⟨preserved.fill empty (first empty) held, Onward.fill store value empty, fun _ => ⟨first empty, ?_⟩, ?_⟩
      · rw [held_assign_self]
        rfl
      · intro impossible
        cases impossible
  | refused _ _ _ other =>
      refine ⟨preserved, Onward.refl key store, ?_, fun _ => Option.isSome_iff_ne_none.mpr other⟩
      intro impossible
      cases impossible
  | claimFailed _ _ _ _ error =>
      refine ⟨preserved, Onward.refl key store, ?_, ?_⟩
      · intro impossible
        cases impossible
      · intro impossible
        cases impossible
  | claimLost _ _ _ error empty =>
      refine ⟨preserved.fill empty (first empty) held, Onward.fill store value empty, ?_, ?_⟩
      · intro impossible
        cases impossible
      · intro impossible
        cases impossible

theorem delete_keeps (preserved : Preserved key candidates initial store) {old : String} (different : old ≠ key)
    (absent : initial key = none) (first : firstHeld key candidates initial = some old)
    (filled : (store.held key).isSome = true) {answer : Except FaucetError Unit}
    (answered : storeAnswers (.delete old) store answer after) :
    Preserved key candidates initial after ∧ Onward key store after := by
  cases answered with
  | deleted => exact ⟨preserved.empty different absent first filled, Onward.empty different store⟩
  | deleteFailed => exact ⟨preserved, Onward.refl key store⟩

theorem put_keeps (preserved : Preserved key candidates initial store) {value : Position}
    (beyond : initial key = none -> forall old position, firstHeld key candidates initial = some old ->
      initial old = some position -> position < value)
    {answer : Except FaucetError Unit} (answered : storeAnswers (.put key value) store answer after) :
    Preserved key candidates initial after ∧ Onward key store after := by
  cases answered with
  | put => exact ⟨preserved.put beyond, Onward.put store value⟩
  | putFailed => exact ⟨preserved, Onward.refl key store⟩

/-- A read changes nothing. -/
theorem get_same {name : String} {answer : Except FaucetError (Option Position)}
    (answered : storeAnswers (.get name) store answer after) :
    after = store ∧ forall found, answer = .ok found -> found = store.held name := by
  cases answered with
  | got =>
      refine ⟨rfl, ?_⟩
      intro found same
      cases same
      rfl
  | getFailed =>
      refine ⟨rfl, ?_⟩
      intro found same
      cases same

variable (key candidates initial) in
/-- The candidates passed so far are empty, and stay so. -/
theorem claimFirst_keeps (absent : initial key = none) {done rest : List String} (whole : candidates = done ++ rest)
    {store : StateStore Position} (passed : forall other, other ∈ done -> other ≠ key -> store.held other = none) :
    Migrates key candidates initial (fun result after => forall value, result = .ok value ->
        Ready key candidates initial after)
      (claimFirst key rest) store := by
  induction rest generalizing done store with
  | nil =>
      intro value _ later moved preserved found
      rcases Option.isSome_iff_exists.mp found with ⟨old, first⟩
      have among : old ∈ done := by
        rw [List.append_nil] at whole
        rw [← whole]
        exact List.mem_of_find?_eq_some first
      have holds := List.find?_some first
      rw [Bool.and_eq_true, decide_eq_true_eq] at holds
      rcases preserved.moved old (by rw [whole]; exact List.mem_append_left _ among) holds.1 with same | ⟨_, _, _, held⟩
      · rw [← same, moved.gone old holds.1 (passed old among holds.1)] at holds
        cases holds.2
      · exact held
  | cons old rest ih =>
      have onward : candidates = (done ++ [old]) ++ rest := by
        rw [whole, List.append_assoc]
        rfl
      rw [claimFirst]
      by_cases same : old = key
      · rw [if_pos same]
        apply ih onward
        intro other among different
        rcases List.mem_append.mp among with before | this
        · exact passed other before different
        · rw [List.mem_singleton.mp this] at different
          exact absurd same different
      · rw [if_neg same]
        have among : old ∈ candidates := by
          rw [whole]
          exact List.mem_append_right _ List.mem_cons_self
        apply Kept.bind
        intro current moved preserved answer after answered
        rcases get_same answered with ⟨rfl, read⟩
        refine ⟨preserved, Onward.refl key after, ?_⟩
        have still : forall other, other ∈ done -> other ≠ key -> after.held other = none :=
          fun other before different => moved.gone other different (passed other before different)
        cases answer with
        | error error =>
            intro value impossible
            cases impossible
        | ok found =>
            have holdsNow := read found rfl
            cases found with
            | none =>
                apply ih onward
                intro other before different
                rcases List.mem_append.mp before with earlier | this
                · exact still other earlier different
                · rw [List.mem_singleton.mp this]
                  exact holdsNow.symm
            | some value =>
                have initially := preserved.initially among same holdsNow.symm
                apply Kept.bind
                intro current moved preserved answer claimed answered
                have first : current.held key = none -> firstHeld key candidates initial = some old := by
                  intro empty
                  rw [whole]
                  apply firstHeld_eq same initially
                  intro other before different
                  rw [← preserved.untouched empty (by rw [whole]; exact List.mem_append_left _ before) different]
                  exact moved.gone other different (still other before different)
                rcases claim_keeps preserved initially first answered with ⟨kept, on, won, lost⟩
                refine ⟨kept, on, ?_⟩
                cases answer with
                | error error =>
                    intro value impossible
                    cases impossible
                | ok succeeded =>
                    cases succeeded with
                    | false =>
                        intro _ _
                        exact Ready.of_isSome (lost rfl)
                    | true =>
                        rcases won rfl with ⟨isFirst, filled⟩
                        change Migrates key candidates initial (fun result after => forall value, result = .ok value ->
                          Ready key candidates initial after)
                          (Program.request (StoreOp.delete old) >>= fun _ => pure (KeyMigration.moved old)) claimed
                        apply Kept.request
                        intro current moved preserved answer deleted answered
                        rcases delete_keeps preserved same absent isFirst (moved.occupied filled) answered
                          with ⟨kept, on⟩
                        refine ⟨kept, on, ?_⟩
                        intro _ _
                        exact Ready.of_isSome (on.occupied (moved.occupied filled))

variable (key candidates initial) in
theorem migrateStateKey_keeps (store : StateStore Position) :
    Migrates key candidates initial (fun result after => forall value, result = .ok value ->
        Ready key candidates initial after)
      (migrateStateKey key candidates) store := by
  unfold migrateStateKey
  by_cases nothing : candidates.isEmpty = true
  · rw [if_pos nothing]
    intro _ _ _ _ _ found
    rw [List.isEmpty_iff.mp nothing] at found
    cases found
  · rw [if_neg nothing]
    apply Kept.bind
    intro current _ preserved answer after answered
    rcases get_same answered with ⟨rfl, read⟩
    refine ⟨preserved, Onward.refl key after, ?_⟩
    cases answer with
    | error error =>
        intro value impossible
        cases impossible
    | ok found =>
        have holdsNow := read found rfl
        cases found with
        | some value =>
            intro _ _
            apply Ready.of_isSome
            rw [← holdsNow]
            rfl
        | none =>
            have absent : initial key = none := by
              cases initially : initial key with
              | none => rfl
              | some position =>
                  have held := preserved.occupied (by rw [initially]; rfl)
                  rw [← holdsNow] at held
                  cases held
            apply claimFirst_keeps key candidates initial absent (List.nil_append candidates).symm
            intro other impossible
            cases impossible

variable (key candidates initial) in
theorem putAll_keeps {positions : List Position}
    (beyond : forall value, value ∈ positions -> initial key = none -> forall old position,
      firstHeld key candidates initial = some old -> initial old = some position -> position < value)
    (store : StateStore Position) :
    Migrates key candidates initial (fun _ _ => True) (putAll key positions) store := by
  induction positions generalizing store with
  | nil => trivial
  | cons value rest ih =>
      apply Kept.bind
      intro current _ preserved answer after answered
      rcases put_keeps preserved (beyond value List.mem_cons_self) answered with ⟨kept, on⟩
      refine ⟨kept, on, ?_⟩
      cases answer with
      | error error => trivial
      | ok _ => exact ih (fun later among => beyond later (List.mem_cons_of_mem value among)) after

variable (key candidates initial) in
theorem runMigrated_keeps (store : StateStore Position) :
    Migrates key candidates initial (fun _ _ => True) (runMigrated key candidates) store := by
  apply Kept.bind
  apply (migrateStateKey_keeps key candidates initial store).weaken
  intro result ended ready
  cases result with
  | error error => trivial
  | ok outcome =>
      have settled := ready outcome rfl
      apply Kept.request
      intro current moved preserved answer reported answered
      have filled : forall later, Onward key current later -> Preserved key candidates initial later ->
          (firstHeld key candidates initial).isSome = true -> (later.held key).isSome = true :=
        fun later onward => settled later (moved.trans onward)
      cases answered with
      | finished =>
          have here : (firstHeld key candidates initial).isSome = true -> (current.held key).isSome = true :=
            filled current (Onward.refl key current) preserved
          refine ⟨⟨preserved.occupied, preserved.moved, preserved.later, fun _ _ => here⟩,
            ⟨id, fun _ _ => id, List.suffix_rfl, fun _ _ => id⟩, ?_⟩
          apply Kept.bind
          intro resumed moved preserved answer after answered
          rcases get_same answered with ⟨rfl, read⟩
          refine ⟨preserved, Onward.refl key after, ?_⟩
          cases answer with
          | error error => trivial
          | ok start =>
              have holdsNow := read start rfl
              apply Kept.request
              intro current _ kept positions last answered
              cases answered with
              | advanced _ _ _ later ascending =>
                  refine ⟨kept, Onward.refl key current, ?_⟩
                  apply putAll_keeps
                  intro value among absent old position first initially
                  have occupied : (after.held key).isSome = true :=
                    moved.occupied (here (by rw [first]; rfl))
                  rcases Option.isSome_iff_exists.mp occupied with ⟨held, isHeld⟩
                  have beyond : held < value := later held (holdsNow.trans isHeld) value among
                  rcases preserved.later absent old position first initially held isHeld with same | ⟨above, _⟩
                  · rw [← same]
                    exact beyond
                  · exact lt_trans above beyond

end Steps

/-! ## Any number of processes -/

section Processes

variable {Task : Type} [DecidableEq Task]

/-- A process may be started, or started again after a crash, at any time. -/
def Starts (key : String) (candidates : List String) (_ : Task) (program : Migrating Position Unit) : Prop :=
  program = runMigrated key candidates

/-- No process is running yet. -/
def unstarted (initial : String -> Option Position) :
    Pool Task (StoreReply Position) FaucetError Unit (StateStore Position) :=
  ⟨fun _ => .done (.ok ()), { held := initial }⟩

theorem preserved_initially (key : String) (candidates : List String) (initial : String -> Option Position) :
    Preserved key candidates initial { held := initial } where
  occupied := id
  moved := fun _ _ _ => Or.inl rfl
  later := by
    intro absent _ _ _ _ value held
    dsimp only at held
    rw [absent] at held
    cases held
  finished := fun none => absurd rfl none

/-- At any time, whatever the processes do: only a run's own put replaces what
the key holds.  When the key was empty and a candidate held a position, the key
holds the position of the first such candidate or a later one that a run put
there, and it holds one from the end of any migration on.  And a candidate
holds what it held, or it is gone and the key holds that position or a later
one. -/
theorem migration_preserves {key : String} {candidates : List String} {initial : String -> Option Position}
    {pool : Pool Task (StoreReply Position) FaucetError Unit (StateStore Position)}
    (reached : Pool.Reaches storeAnswers (Starts key candidates) (fun _ _ => False) (unstarted initial) pool) :
    (forall task op next, pool.programs task = .ask op next -> (forall name value, op ≠ .put name value) ->
      forall answer after, storeAnswers op pool.world answer after ->
        forall value, pool.world.held key = some value -> after.held key = some value) ∧
      (initial key = none -> forall old position, firstHeld key candidates initial = some old ->
        initial old = some position ->
          (forall value, pool.world.held key = some value ->
            value = position ∨ (position < value ∧ value ∈ pool.world.written)) ∧
          (pool.world.finished ≠ [] -> (pool.world.held key).isSome = true)) ∧
      (forall old, old ∈ candidates -> old ≠ key -> pool.world.held old = initial old ∨
        (pool.world.held old = none ∧ exists value, pool.world.held key = some value ∧
          forall position, initial old = some position ->
            value = position ∨ (position < value ∧ value ∈ pool.world.written))) := by
  have refl : forall (_ : Task) (store : StateStore Position), Onward key store store := fun _ => Onward.refl key
  have trans : forall (_ : Task) (first second third : StateStore Position), Onward key first second ->
      Onward key second third -> Onward key first third := fun _ _ _ _ one two => one.trans two
  have started : forall (task : Task) (program : Migrating Position Unit), Starts key candidates task program ->
      forall store, Preserved key candidates initial store ->
        Migrates key candidates initial (fun _ _ => True) program store := by
    rintro task program rfl store _
    exact runMigrated_keeps key candidates initial store
  rcases reached.keeps refl trans (fun _ _ _ _ _ moved => moved) (preserved_initially key candidates initial)
    (fun _ => trivial) started (fun _ _ impossible => impossible.elim) with ⟨preserved, running⟩
  refine ⟨?_, ?_, ?_⟩
  · intro task op next waits unput answer after answered
    have kept := running task
    rw [waits] at kept
    have moved := (kept pool.world (Onward.refl key pool.world) preserved answer after answered).2.1
    apply moved.kept
    cases answered with
    | put name value => exact absurd rfl (unput name value)
    | _ => rfl
  · intro absent old position first initially
    refine ⟨preserved.later absent old position first initially, ?_⟩
    intro some
    exact preserved.finished some absent (by rw [first]; rfl)
  · intro old among different
    rcases preserved.moved old among different with same | ⟨gone, absent, first, filled⟩
    · exact Or.inl same
    · rcases Option.isSome_iff_exists.mp filled with ⟨value, held⟩
      refine Or.inr ⟨gone, value, held, ?_⟩
      intro position initially
      exact preserved.later absent old position first initially value held

end Processes

end Store

/-! ## One process -/

/-- A store that does what it is asked, and a run that stops at once. -/
def promptStore : (op : StoreOp Nat) -> StateStore Nat -> StoreReply Nat op × StateStore Nat
  | .get key, store => (.ok (store.held key), store)
  | .compareAndPut key expected value, store =>
      if store.held key = expected then (.ok true, store.assign key (some value)) else (.ok false, store)
  | .delete key, store => (.ok (), store.assign key none)
  | .put key value, store => (.ok (), { store.assign key (some value) with written := value :: store.written })
  | .finished outcome, store => ((), { store with finished := outcome :: store.finished })
  | .advance _, store => ([], store)

theorem promptStore_answers (op : StoreOp Nat) (store : StateStore Nat) :
    storeAnswers op store (promptStore op store).1 (promptStore op store).2 := by
  cases op with
  | get key => exact .got key store
  | compareAndPut key expected value =>
      unfold promptStore
      dsimp only
      by_cases same : store.held key = expected
      · rw [if_pos same]
        exact .claimed key value store same
      · rw [if_neg same]
        exact .refused key value store same
  | delete key => exact .deleted key store (.ok ())
  | put key value => exact .put key value store (.ok ())
  | finished outcome => exact .finished outcome store
  | advance start => exact .advanced start [] store (fun _ _ _ impossible => nomatch impossible) List.Pairwise.nil

def earlierOnly : String -> Option Nat := fun key => if key = "old" then some 5 else none

/-- One process moves the position and resumes from it. -/
theorem migration_preserves_once :
    exists pool : Pool Unit (StoreReply Nat) FaucetError Unit (StateStore Nat),
      Pool.Reaches storeAnswers (Starts "new" ["old"]) (fun _ _ => False) (unstarted earlierOnly) pool ∧
        pool.world.finished = [.moved "old"] ∧ pool.world.held "new" = some 5 ∧ pool.world.held "old" = none ∧
        (forall value, pool.world.held "new" = some value -> value = 5 ∨ (5 < value ∧ value ∈ pool.world.written)) := by
  have alone := reaches_execute promptStore promptStore_answers (runMigrated "new" ["old"]) { held := earlierOnly }
  have started : Pool.Reaches storeAnswers (Starts "new" ["old"]) (fun _ _ => False) (unstarted earlierOnly)
      ⟨Function.update (unstarted earlierOnly).programs () (runMigrated "new" ["old"]), { held := earlierOnly }⟩ :=
    Pool.Reaches.here.start () rfl
  have ran := started.run () (Function.update_self _ _ _) alone
  refine ⟨_, ran, rfl, rfl, rfl, ?_⟩
  exact ((migration_preserves ran).2.1 rfl "old" 5 rfl rfl).1

end Keys
end FaucetStream
