import FaucetStream.KeyedWrites.Plan
import FaucetStream.Library.Decorated
import FaucetStream.Pipeline.Engine

namespace FaucetStream
namespace Pipeline

open Json
open Library
open KeyedWrites

/-!
# Scoped cleanup

A run with a cleanup policy keeps the key of every row it hands to its sink,
and deletes at its end what its scope holds and it did not write.  The keys
are kept by a wrapper around the sink.  Past a ceiling the keys are dropped and
the delete is refused.

A policy for complete reads acts only in a run that reads its whole dataset,
which the source reports through a signal.  Its keys are kept from the start
of that read on, and a wrapper around the state store holds the positions
back until the delete succeeded.
-/

/-! ## Policies and the source's signal -/

inductive CleanupTrigger where
  | always
  | completeRead
  deriving DecidableEq

/-- How far a source got through reading its whole dataset. -/
inductive ReadState where
  | partialRead
  | reading
  | complete
  deriving DecidableEq

/-- The states a signal goes through, in order. -/
def ReadState.rank : ReadState -> Nat
  | .partialRead => 0
  | .reading => 1
  | .complete => 2

structure CleanupPolicy where
  /-- Column values of the rows the run answers for. -/
  scope : List (String × Value)
  key : List String
  maxKeys : Nat
  trigger : CleanupTrigger

/-! ## The keys of a run -/

/-- `canonical_key_text`. -/
def canonicalKeyText (key : KeyTuple) : String :=
  (Value.array (key.columns.map (fun column => .string column.2.canonicalJson))).text

structure SeenKeys where
  keys : List KeyTuple
  /-- The texts of the keys. -/
  seen : List String
  /-- The ceiling was passed; it stays so. -/
  overflowed : Bool
  deriving DecidableEq

namespace SeenKeys

def new : SeenKeys := ⟨[], [], false⟩

/-- `record_page`: the keys of the rows that have one. -/
def recordPage (key : List String) (maxKeys : Nat) : SeenKeys -> List Value -> SeenKeys
  | tracked, [] => tracked
  | tracked, record :: rest =>
      if tracked.overflowed then tracked
      else
        match recordKey record key with
        | none => recordPage key maxKeys tracked rest
        | some tuple =>
            if tracked.seen.contains (canonicalKeyText tuple) then recordPage key maxKeys tracked rest
            else if maxKeys ≤ tracked.keys.length then ⟨[], [], true⟩
            else
              recordPage key maxKeys
                ⟨tracked.keys ++ [tuple], canonicalKeyText tuple :: tracked.seen, false⟩ rest

def overflowError (maxKeys : Nat) : FaucetError :=
  .sink ("cleanup: this invocation wrote more than " ++ toString maxKeys ++ " rows in the claimed scope, " ++
    "so the set of written keys could not be tracked. Nothing was deleted — a partial delete would remove " ++
    "rows the run actually wrote. Narrow the scope (a smaller `complete_for`), or raise the ceiling if the " ++
    "destination can take a delete of this size")

/-- The key is among those a delete spares. -/
def Has (tracked : SeenKeys) (tuple : KeyTuple) : Prop :=
  exists kept, kept ∈ tracked.keys ∧ canonicalKeyText kept = canonicalKeyText tuple

/-- The keys agree with their texts. -/
structure Sound (tracked : SeenKeys) : Prop where
  texts : forall text, text ∈ tracked.seen -> exists kept, kept ∈ tracked.keys ∧ canonicalKeyText kept = text

/-- Nothing of these rows is lost: their keys are there, or the delete is
refused. -/
def Covers (key : List String) (tracked : SeenKeys) (rows : List Value) : Prop :=
  tracked.overflowed = true ∨ forall row, row ∈ rows -> forall tuple, recordKey row key = some tuple ->
    tracked.Has tuple

variable {key : List String} {maxKeys : Nat} {tracked : SeenKeys} {rows : List Value}

theorem recordPage_of_overflowed (overflowed : tracked.overflowed = true) (rows : List Value) :
    recordPage key maxKeys tracked rows = tracked := by
  cases rows with
  | nil => rfl
  | cons record rest => rw [recordPage, if_pos overflowed]

theorem sound_new : Sound new := ⟨nofun⟩

theorem sound_overflowed : Sound ⟨[], [], true⟩ := ⟨nofun⟩

theorem Sound.push (sound : tracked.Sound) (tuple : KeyTuple) (flag : Bool) :
    Sound ⟨tracked.keys ++ [tuple], canonicalKeyText tuple :: tracked.seen, flag⟩ := by
  constructor
  intro text member
  rcases List.mem_cons.mp member with same | earlier
  · exact ⟨tuple, List.mem_append_right _ (List.mem_singleton_self tuple), same.symm⟩
  · rcases sound.texts text earlier with ⟨kept, present, spelled⟩
    exact ⟨kept, List.mem_append_left _ present, spelled⟩

/-- What recording a page comes to: the keys stay what they are, keys that were
there stay, and those of the page are there too, unless the ceiling was
passed. -/
theorem recordPage_spec (sound : tracked.Sound) (rows : List Value) :
    (recordPage key maxKeys tracked rows).Sound ∧
      ((recordPage key maxKeys tracked rows).overflowed = true ∨
        (tracked.overflowed = false ∧
          (forall tuple, tracked.Has tuple -> (recordPage key maxKeys tracked rows).Has tuple) ∧
          forall row, row ∈ rows -> forall tuple, recordKey row key = some tuple ->
            (recordPage key maxKeys tracked rows).Has tuple)) := by
  induction rows generalizing tracked with
  | nil =>
      refine ⟨sound, ?_⟩
      cases flag : tracked.overflowed with
      | true => exact Or.inl flag
      | false => exact Or.inr ⟨rfl, fun _ present => present, nofun⟩
  | cons record rest ih =>
      rw [recordPage]
      split
      · exact ⟨sound, Or.inl ‹_›⟩
      · rename_i within
        have within : tracked.overflowed = false := Bool.eq_false_iff.mpr within
        cases read : recordKey record key with
        | none =>
            rcases ih sound with ⟨still, outcome⟩
            refine ⟨still, outcome.imp id ?_⟩
            rintro ⟨_, keeps, covers⟩
            refine ⟨within, keeps, ?_⟩
            intro row member tuple found
            rcases List.mem_cons.mp member with rfl | later
            · rw [read] at found
              cases found
            · exact covers row later tuple found
        | some tuple =>
            dsimp only
            split
            · -- The key was there before.
              rename_i known
              rcases sound.texts _ (List.contains_iff_mem.mp known) with ⟨kept, present, spelled⟩
              rcases ih sound with ⟨still, outcome⟩
              refine ⟨still, outcome.imp id ?_⟩
              rintro ⟨_, keeps, covers⟩
              refine ⟨within, keeps, ?_⟩
              intro row member other found
              rcases List.mem_cons.mp member with rfl | later
              · rw [read] at found
                cases found
                exact keeps tuple ⟨kept, present, spelled⟩
              · exact covers row later other found
            · split
              · exact ⟨sound_overflowed, Or.inl rfl⟩
              · rcases ih (sound.push tuple false) with ⟨still, outcome⟩
                refine ⟨still, outcome.imp id ?_⟩
                rintro ⟨_, keeps, covers⟩
                refine ⟨within, ?_, ?_⟩
                · rintro other ⟨kept, present, spelled⟩
                  exact keeps other ⟨kept, List.mem_append_left _ present, spelled⟩
                · intro row member other found
                  rcases List.mem_cons.mp member with rfl | later
                  · rw [read] at found
                    cases found
                    exact keeps tuple
                      ⟨tuple, List.mem_append_right _ (List.mem_singleton_self tuple), rfl⟩
                  · exact covers row later other found

/-- Recording adds the rows of a page to what is covered. -/
theorem Covers.recordPage (covers : tracked.Covers key rows) (sound : tracked.Sound) (page : List Value) :
    (SeenKeys.recordPage key maxKeys tracked page).Covers key (rows ++ page) := by
  rcases (recordPage_spec sound page).2 with overflowed | ⟨within, keeps, added⟩
  · exact Or.inl overflowed
  · refine Or.inr ?_
    intro row member tuple found
    rcases List.mem_append.mp member with earlier | present
    · rcases covers with overflowed | there
      · rw [within] at overflowed
        cases overflowed
      · exact keeps tuple (there row earlier tuple found)
    · exact added row present tuple found

theorem Covers.subset (covers : tracked.Covers key rows) {fewer : List Value}
    (within : forall row, row ∈ fewer -> row ∈ rows) : tracked.Covers key fewer :=
  covers.imp id (fun there row member => there row (within row member))

end SeenKeys
end Pipeline
end FaucetStream
