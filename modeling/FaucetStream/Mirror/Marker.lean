import Mathlib.Logic.Function.Basic
import FaucetStream.Library.EventRun
import FaucetStream.Mirror.MultiState

namespace FaucetStream
namespace Mirror

open Library

/-!
# Writing the marker

The progress ticker, the snapshot tasks and the driver all write the marker.
A write takes the lock, folds the live counters into the state, copies it and
gives the lock back; the copy is put into the store after that, and a put may
take its time.

Each copy is kept with the changes it holds, oldest first.  They are all the
changes made under the lock up to the copy, so of two copies one holds what the
other does.
-/

variable {Position : Type}

/-- What the stream has counted for a table since the last write (`TableLive`). -/
structure LiveDelta where
  changes : Nat := 0
  lastAppliedAt : Option Nat := none
  deriving DecidableEq

/-- The later of two times, where no time is before any. -/
def laterApplied : Option Nat -> Option Nat -> Option Nat
  | some delta, some known => if known < delta then some delta else some known
  | some delta, none => some delta
  | none, known => known

/-- What routing a page notes about its table. -/
def noteLive (live : List (String × LiveDelta)) (name : String) (records : Nat) (sentAt : Option Nat) :
    List (String × LiveDelta) :=
  let entry := (live.lookup name).getD {}
  (name, ⟨entry.changes + records, sentAt.or entry.lastAppliedAt⟩) :: live.filter (fun other => other.1 != name)

def foldLive (live : List (String × LiveDelta)) (now : Nat) (state : MirrorState Position) : MirrorState Position :=
  let folded := live.foldl (fun state delta => state.update delta.1 (fun table =>
    { table with
      changes := table.changes + delta.2.changes
      lastAppliedAt := laterApplied delta.2.lastAppliedAt table.lastAppliedAt })) state
  { folded with updatedAt := now }

/-! ## Writes that interleave -/

/-- A change of the state, made under the lock. -/
abbrev MarkerChange (Position : Type) := MirrorState Position -> MirrorState Position

def replayChanges (first : MirrorState Position) (changes : List (MarkerChange Position)) : MirrorState Position :=
  changes.foldl (fun state change => change state) first

/-- A copy of the state and the changes it holds. -/
structure MarkerCopy (Position : Type) where
  value : MirrorState Position
  changes : List (MarkerChange Position)

/-- A call of `persist` knows the changes made before it began. -/
inductive PersistCall (Position : Type) where
  | began (earlier : List (MarkerChange Position))
  | putting (earlier : List (MarkerChange Position)) (copy : MarkerCopy Position)
  | written (earlier : List (MarkerChange Position)) (copy : MarkerCopy Position)
  | returned (earlier : List (MarkerChange Position)) (copy : MarkerCopy Position)
  | failed

structure SharedMarker (Position : Type) where
  state : MirrorState Position
  live : List (String × LiveDelta) := []
  changes : List (MarkerChange Position) := []
  calls : Nat -> Option (PersistCall Position) := fun _ => none
  stored : Option (MarkerCopy Position)

inductive MarkerEvent (Position : Type) where
  | changed (change : MarkerChange Position)
  | routed (name : String) (records : Nat) (sentAt : Option Nat)
  | persistBegan (call : Nat)
  | copied (call now : Nat)
  | putLanded (call : Nat)
  | persistReturned (call : Nat)
  | persistFailed (call : Nat)

namespace SharedMarker

/-- A mirror that starts from a marker, stored already or fresh. -/
def start (state : MirrorState Position) (fresh : Bool) : SharedMarker Position where
  state := state
  stored := if fresh then none else some ⟨state, []⟩

def withCall (shared : SharedMarker Position) (call : Nat) (point : PersistCall Position) : SharedMarker Position :=
  { shared with calls := Function.update shared.calls call (some point) }

def change (shared : SharedMarker Position) (change : MarkerChange Position) : SharedMarker Position :=
  { shared with state := change shared.state, changes := shared.changes ++ [change] }

/-- Under the lock: the live counters are folded in, and the state is copied. -/
def copy (shared : SharedMarker Position) (now : Nat) : SharedMarker Position × MarkerCopy Position :=
  let folded := { shared.change (foldLive shared.live now) with live := [] }
  (folded, ⟨folded.state, folded.changes⟩)

def step (shared : SharedMarker Position) : MarkerEvent Position -> Option (SharedMarker Position)
  | .changed change => some (shared.change change)
  | .routed name records sentAt => some { shared with live := noteLive shared.live name records sentAt }
  | .persistBegan call =>
      match shared.calls call with
      | none => some (shared.withCall call (.began shared.changes))
      | some _ => none
  | .copied call now =>
      match shared.calls call with
      | some (.began earlier) =>
          let (shared, copy) := shared.copy now
          some (shared.withCall call (.putting earlier copy))
      | _ => none
  | .putLanded call =>
      match shared.calls call with
      | some (.putting earlier copy) =>
          some { shared.withCall call (.written earlier copy) with stored := some copy }
      | _ => none
  | .persistReturned call =>
      match shared.calls call with
      | some (.written earlier copy) => some (shared.withCall call (.returned earlier copy))
      | _ => none
  | .persistFailed call =>
      match shared.calls call with
      | some (.putting _ _) | some (.written _ _) => some (shared.withCall call .failed)
      | _ => none

def run (shared : SharedMarker Position) (events : List (MarkerEvent Position)) : Option (SharedMarker Position) :=
  runEvents step shared events

/-- Every call that has returned finds the changes made before it began in the
store, and the changes it had stored itself. -/
def Forward (first : MirrorState Position) (shared : SharedMarker Position) : Prop :=
  forall call earlier copy, shared.calls call = some (.returned earlier copy) ->
    exists stored, shared.stored = some stored ∧ stored.value = replayChanges first stored.changes ∧
      earlier <+: stored.changes ∧ copy.changes <+: stored.changes

/-- A put does not land on a copy that was taken after its own. -/
def LandsInOrder (shared : SharedMarker Position) : MarkerEvent Position -> Prop
  | .putLanded call =>
      forall earlier copy stored, shared.calls call = some (.putting earlier copy) -> shared.stored = some stored ->
        stored.changes.length ≤ copy.changes.length
  | _ => True

end SharedMarker

/-! ## What the copies hold -/

/-- A copy of the state after some of the changes so far. -/
structure MarkerCopy.Of (first : MirrorState Position) (changes : List (MarkerChange Position))
    (copy : MarkerCopy Position) : Prop where
  value : copy.value = replayChanges first copy.changes
  prior : copy.changes <+: changes

namespace PersistCall

/-- What is known of a call at each of its points. -/
def Fits (first : MirrorState Position) (changes : List (MarkerChange Position))
    (stored : Option (MarkerCopy Position)) : PersistCall Position -> Prop
  | .began earlier => earlier <+: changes
  | .putting earlier copy => earlier <+: copy.changes ∧ copy.Of first changes
  | .written earlier copy =>
      earlier <+: copy.changes ∧ exists last, stored = some last ∧ copy.changes <+: last.changes
  | .returned earlier copy =>
      earlier <+: copy.changes ∧ exists last, stored = some last ∧ copy.changes <+: last.changes
  | .failed => True

variable {first : MirrorState Position} {changes more : List (MarkerChange Position)}
  {stored : Option (MarkerCopy Position)} {call : PersistCall Position}

theorem Fits.grow (fits : call.Fits first changes stored) (grown : changes <+: more) :
    call.Fits first more stored := by
  cases call with
  | began earlier => exact fits.trans grown
  | putting earlier copy => exact ⟨fits.1, fits.2.value, fits.2.prior.trans grown⟩
  | written earlier copy => exact fits
  | returned earlier copy => exact fits
  | failed => trivial

theorem Fits.land {copy : MarkerCopy Position} (fits : call.Fits first changes stored)
    (covers : forall last, stored = some last -> last.changes <+: copy.changes) :
    call.Fits first changes (some copy) := by
  cases call with
  | began earlier => exact fits
  | putting earlier other => exact fits
  | written earlier other =>
      rcases fits with ⟨begun, last, found, holds⟩
      exact ⟨begun, copy, rfl, holds.trans (covers last found)⟩
  | returned earlier other =>
      rcases fits with ⟨begun, last, found, holds⟩
      exact ⟨begun, copy, rfl, holds.trans (covers last found)⟩
  | failed => trivial

end PersistCall

namespace SharedMarker

theorem calls_withCall {shared : SharedMarker Position} {call other : Nat} {point found : PersistCall Position}
    (known : (shared.withCall call point).calls other = some found) :
    found = point ∨ shared.calls other = some found := by
  change Function.update shared.calls call (some point) other = some found at known
  by_cases same : other = call
  · rw [same, Function.update_self] at known
    exact Or.inl (Option.some.inj known).symm
  · rw [Function.update_of_ne same] at known
    exact Or.inr known

/-- The state and every copy of it are made of the changes so far. -/
structure Consistent (first : MirrorState Position) (shared : SharedMarker Position) : Prop where
  state : shared.state = replayChanges first shared.changes
  stored : forall copy, shared.stored = some copy -> copy.Of first shared.changes
  calls : forall call point, shared.calls call = some point -> point.Fits first shared.changes shared.stored

namespace Consistent

variable {first : MirrorState Position} {shared next : SharedMarker Position}

theorem start (first : MirrorState Position) (fresh : Bool) : Consistent first (SharedMarker.start first fresh) where
  state := rfl
  stored := by
    intro copy found
    cases fresh with
    | true => cases found
    | false =>
        cases found
        exact ⟨rfl, List.prefix_rfl⟩
  calls := by
    intro call point impossible
    cases impossible

theorem change (consistent : Consistent first shared) (change : MarkerChange Position) :
    Consistent first (shared.change change) where
  state := by
    change change shared.state = (shared.changes ++ [change]).foldl _ first
    rw [List.foldl_append, consistent.state]
    rfl
  stored := by
    intro copy found
    have before := consistent.stored copy found
    exact ⟨before.value, before.prior.trans (List.prefix_append _ _)⟩
  calls := by
    intro call point found
    exact (consistent.calls call point found).grow (List.prefix_append _ _)

theorem withCall (consistent : Consistent first shared) (call : Nat) {point : PersistCall Position}
    (fits : point.Fits first shared.changes shared.stored) : Consistent first (shared.withCall call point) where
  state := consistent.state
  stored := consistent.stored
  calls := by
    intro other found known
    rcases calls_withCall known with rfl | before
    · exact fits
    · exact consistent.calls other found before

theorem copied (consistent : Consistent first shared) (now : Nat) :
    Consistent first (shared.copy now).1 ∧ (shared.copy now).2.Of first (shared.copy now).1.changes ∧
      shared.changes <+: (shared.copy now).2.changes := by
  have changed := consistent.change (foldLive shared.live now)
  exact ⟨⟨changed.state, changed.stored, changed.calls⟩, ⟨changed.state, List.prefix_rfl⟩, List.prefix_append _ _⟩

/-- A put that lands in order keeps what every earlier put had stored. -/
theorem landed (consistent : Consistent first shared) {call : Nat} {earlier : List (MarkerChange Position)}
    {copy : MarkerCopy Position} (waits : shared.calls call = some (.putting earlier copy))
    (order : forall stored, shared.stored = some stored -> stored.changes.length ≤ copy.changes.length) :
    Consistent first { shared.withCall call (.written earlier copy) with stored := some copy } := by
  rcases consistent.calls call _ waits with ⟨begun, of⟩
  have covers : forall last, shared.stored = some last -> last.changes <+: copy.changes := by
    intro last found
    exact List.prefix_of_prefix_length_le (consistent.stored last found).prior of.prior (order last found)
  refine ⟨consistent.state, ?_, ?_⟩
  · intro stored found
    cases found
    exact of
  · intro other found known
    rcases calls_withCall known with rfl | before
    · exact ⟨begun, copy, rfl, List.prefix_rfl⟩
    · exact (consistent.calls other found before).land covers

theorem step (consistent : Consistent first shared) {event : MarkerEvent Position} (order : shared.LandsInOrder event)
    (stepped : shared.step event = some next) : Consistent first next := by
  cases event with
  | changed change =>
      cases stepped
      exact consistent.change change
  | routed name records sentAt =>
      cases stepped
      exact ⟨consistent.state, consistent.stored, consistent.calls⟩
  | persistBegan call =>
      rw [SharedMarker.step] at stepped
      split at stepped
      · cases stepped
        exact consistent.withCall call List.prefix_rfl
      · cases stepped
  | copied call now =>
      rw [SharedMarker.step] at stepped
      split at stepped
      case h_1 earlier waits =>
        cases stepped
        rcases consistent.copied now with ⟨after, of, grown⟩
        have begun : earlier <+: shared.changes := consistent.calls call _ waits
        exact after.withCall call ⟨begun.trans grown, of⟩
      case h_2 => cases stepped
  | putLanded call =>
      rw [SharedMarker.step] at stepped
      split at stepped
      case h_1 earlier copy waits =>
        cases stepped
        exact consistent.landed waits (fun stored found => order earlier copy stored waits found)
      case h_2 => cases stepped
  | persistReturned call =>
      rw [SharedMarker.step] at stepped
      split at stepped
      case h_1 earlier copy waits =>
        cases stepped
        have fits := consistent.calls call (.written earlier copy) waits
        exact consistent.withCall call fits
      case h_2 => cases stepped
  | persistFailed call =>
      rw [SharedMarker.step] at stepped
      split at stepped
      · cases stepped
        exact consistent.withCall call trivial
      · cases stepped
        exact consistent.withCall call trivial
      · cases stepped

theorem forward (consistent : Consistent first shared) : shared.Forward first := by
  intro call earlier copy known
  rcases consistent.calls call _ known with ⟨begun, stored, found, holds⟩
  exact ⟨stored, found, (consistent.stored stored found).value, begun.trans holds, holds⟩

end Consistent

/-- While puts land in the order in which their copies were taken, a call that
has returned finds in the store what was done before it began, and no put takes
back what a returned call had stored. -/
theorem marker_forward {first : MirrorState Position} {fresh : Bool} {events : List (MarkerEvent Position)}
    {shared : SharedMarker Position} (ran : run (start first fresh) events = some shared)
    (order : EachStep step LandsInOrder (start first fresh) events) : shared.Forward first :=
  (order.keeps (fun _ _ _ meets stepped consistent => Consistent.step consistent meets stepped) ran
    (Consistent.start first fresh)).forward

/-- A table whose snapshot is under way. -/
def copying : MirrorState Nat :=
  ⟨[("shop.a", { phase := .snapshotting, since := 1, position := some 7 })], some 0, 1⟩

def snapshotDone : MarkerChange Nat := fun state => markSnapshotDone state "shop.a" 5

/-- The ticker takes its copy, the snapshot task marks its table done and
writes that, and then the put of the ticker lands. -/
def delayedTicker : List (MarkerEvent Nat) :=
  [.persistBegan 0, .copied 0 4, .changed snapshotDone, .persistBegan 1, .copied 1 5, .putLanded 1, .persistReturned 1,
    .putLanded 0]

/-- The marker says that the snapshot is not done, after the call that said it
is done has returned. -/
theorem delayedTicker_backwards :
    exists shared, run (start copying true) delayedTicker = some shared ∧ ¬ shared.Forward copying ∧
      (shared.state.table "shop.a").map TableState.phase = some .active ∧
      (shared.stored.bind (fun copy => copy.value.table "shop.a")).map TableState.phase = some .snapshotting := by
  refine ⟨_, rfl, ?_, by decide, by decide⟩
  intro forward
  rcases forward 1 _ _ rfl with ⟨stored, found, _, begun, _⟩
  cases found
  exact absurd begun.length_le (by decide)

/-- The same calls, with the put of the ticker in time. -/
def promptTicker : List (MarkerEvent Nat) :=
  [.persistBegan 0, .copied 0 4, .changed snapshotDone, .persistBegan 1, .copied 1 5, .putLanded 0, .putLanded 1,
    .persistReturned 1]

theorem marker_forward_promptTicker :
    exists shared, run (start copying true) promptTicker = some shared ∧ shared.Forward copying := by
  refine ⟨_, rfl, @marker_forward Nat copying true promptTicker _ rfl ?_⟩
  refine .cons trivial rfl (.cons trivial rfl (.cons trivial rfl (.cons trivial rfl (.cons trivial rfl ?_))))
  refine .cons ?_ rfl (.cons ?_ rfl (.cons trivial rfl trivial))
  · intro earlier copy stored _ impossible
    cases impossible
  · intro earlier copy stored waits found
    cases waits
    cases found
    decide

end SharedMarker

end Mirror
end FaucetStream
