import Mathlib.Algebra.Order.Ring.Int
import Mathlib.Tactic.Common

namespace FaucetStream
namespace Library

/-!
# Wall clocks

A timezone shows a local time at every instant.  When the clock is put forward,
local times are left out; when it is put back, they are shown twice.  A walk
from an instant in equal steps of local time goes from each boundary to the
instant that shows the next local time, or the nearest whole hour after it that
is shown at all.
-/

/-! ## Local time -/

/-- Instants and local times are counted in nanoseconds. -/
def second : Int := 1000000000

def hour : Int := 3600 * second

def day : Int := 24 * hour

/-- A timezone whose gaps and repeats are of at most three hours.  The earliest
instant of a local time is looked up, as a timezone library does. -/
structure Zone where
  offset : Int -> Int
  earliest : Int -> Option Int
  bounded : forall instant, -day < offset instant ∧ offset instant < day
  earliest_some : forall naive instant, earliest naive = some instant ->
    instant + offset instant = naive ∧ forall other, other + offset other = naive -> instant ≤ other
  earliest_none : forall naive, earliest naive = none -> forall instant, instant + offset instant ≠ naive
  /-- A local time that is left out is followed, in whole hours, by one that is
  shown. -/
  gaps : forall naive, exists hours : Nat, hours ≤ 3 ∧
    exists instant, instant + offset instant = naive + hours * hour
  /-- No local time is shown after one that is more than three hours later. -/
  repeats : forall first later, first ≤ later ->
    first + offset first ≤ later + offset later + 3 * hour
  /-- Within a second the clock is put forward by three hours at most. -/
  leaps : forall first later, first ≤ later -> later ≤ first + second ->
    later + offset later ≤ first + offset first + second + 3 * hour

namespace Zone

variable (zone : Zone)

def shown (instant : Int) : Int := instant + zone.offset instant

/-- Some instant shows this local time. -/
def Shows (naive : Int) : Prop := exists instant, zone.shown instant = naive

/-- The instant a local time is settled at: the earliest that shows it, or that
shows the first whole hour after it that is shown. -/
def settle (naive : Int) : Int :=
  ((List.range 4).findSome? (fun hours : Nat => zone.earliest (naive + hours * hour))).getD naive

variable {zone}

theorem isSome_earliest_iff {naive : Int} : (zone.earliest naive).isSome = true <-> zone.Shows naive := by
  constructor
  · intro some
    rcases Option.isSome_iff_exists.mp some with ⟨instant, found⟩
    exact ⟨instant, (zone.earliest_some naive instant found).1⟩
  · rintro ⟨instant, shows⟩
    cases found : zone.earliest naive with
    | none => exact absurd shows (zone.earliest_none naive found instant)
    | some _ => rfl

/-- A lookup hour by hour ends within three hours. -/
theorem findSome_settle (naive : Int) :
    (List.range 4).findSome? (fun hours : Nat => zone.earliest (naive + hours * hour)) = some (zone.settle naive) := by
  unfold settle
  cases found : (List.range 4).findSome? (fun hours : Nat => zone.earliest (naive + hours * hour)) with
  | some instant => rfl
  | none =>
      rcases zone.gaps naive with ⟨hours, most, instant, shows⟩
      have absent := List.findSome?_eq_none_iff.mp found hours (List.mem_range.mpr (Nat.lt_succ_of_le most))
      exact absurd shows (zone.earliest_none _ absent instant)

variable (zone) in
theorem settle_earliest (naive : Int) :
    exists hours : Nat, hours ≤ 3 ∧ zone.earliest (naive + hours * hour) = some (zone.settle naive) := by
  rcases List.exists_of_findSome?_eq_some (findSome_settle naive) with ⟨hours, among, found⟩
  exact ⟨hours, Nat.le_of_lt_succ (List.mem_range.mp among), found⟩

theorem settle_of_shows {naive : Int} (shows : zone.Shows naive) : zone.earliest naive = some (zone.settle naive) := by
  rcases Option.isSome_iff_exists.mp (isSome_earliest_iff.mpr shows) with ⟨instant, found⟩
  have first : (List.range 4).findSome? (fun hours : Nat => zone.earliest (naive + hours * hour)) = some instant := by
    change List.findSome? _ (0 :: [1, 2, 3]) = _
    rw [List.findSome?_cons_of_isSome]
    · rw [Int.ofNat_zero, Int.zero_mul, Int.add_zero, found]
    · rw [Int.ofNat_zero, Int.zero_mul, Int.add_zero, found]
      rfl
  rw [findSome_settle] at first
  rw [found, first]

theorem shown_settle_of_shows {naive : Int} (shows : zone.Shows naive) : zone.shown (zone.settle naive) = naive :=
  (zone.earliest_some naive _ (settle_of_shows shows)).1

theorem settle_le {naive instant : Int} (shows : zone.shown instant = naive) : zone.settle naive ≤ instant :=
  (zone.earliest_some naive _ (settle_of_shows ⟨instant, shows⟩)).2 instant shows

variable (zone) in
theorem le_shown_settle (naive : Int) : naive ≤ zone.shown (zone.settle naive) := by
  rcases settle_earliest zone naive with ⟨hours, _, found⟩
  have shows : zone.shown (zone.settle naive) = naive + hours * hour := (zone.earliest_some _ _ found).1
  rw [shows]
  have positive : 0 ≤ (hours : Int) * hour := Int.mul_nonneg (Int.natCast_nonneg hours) (by decide)
  omega

/-- A local time is at most a day away from the instant. -/
theorem shown_lt (instant : Int) : zone.shown instant < instant + day := by
  have most := (zone.bounded instant).2
  unfold shown
  omega

theorem lt_shown (instant : Int) : instant - day < zone.shown instant := by
  have least := (zone.bounded instant).1
  unfold shown
  omega

/-! ## Walking in local steps -/

variable (zone)

/-- The boundaries of a walk in steps of local time. -/
def boundary (start step : Int) : Nat -> Int
  | 0 => start
  | count + 1 => zone.settle (zone.shown (boundary start step count) + step)

variable {zone} {start step : Int}

theorem boundary_succ (count : Nat) : zone.boundary start step (count + 1) =
    zone.settle (zone.shown (zone.boundary start step count) + step) := rfl

variable (zone start step) in
theorem shown_boundary_succ (count : Nat) :
    zone.shown (zone.boundary start step count) + step ≤ zone.shown (zone.boundary start step (count + 1)) := by
  rw [boundary_succ]
  exact le_shown_settle zone _

/-- An instant that shows a day more is later by a second at least. -/
theorem second_le_of_day_le {first later : Int} (ahead : zone.shown first + day ≤ zone.shown later) :
    first + second ≤ later := by
  have repeats := zone.repeats later first
  have leaps := zone.leaps first later
  unfold shown at ahead
  unfold day hour second at *
  omega

variable (zone start) in
theorem boundary_lt_succ (long : day ≤ step) (count : Nat) :
    zone.boundary start step count + second ≤ zone.boundary start step (count + 1) := by
  have ahead := shown_boundary_succ zone start step count
  exact second_le_of_day_le (Int.le_trans (Int.add_le_add_left long _) ahead)

variable (zone start) in
theorem boundary_lt (long : day ≤ step) {count more : Nat} (after : count < more) :
    zone.boundary start step count + second ≤ zone.boundary start step more := by
  induction more with
  | zero => exact absurd after (Nat.not_lt_zero count)
  | succ more ih =>
      have next := boundary_lt_succ zone start long more
      rcases Nat.lt_succ_iff_lt_or_eq.mp after with before | same
      · have earlier := ih before
        unfold second at *
        omega
      · rw [same]
        exact next

/-- The local time that a boundary should show. -/
def target (zone : Zone) (start step : Int) (count : Nat) : Int := zone.shown start + count * step

theorem target_succ (count : Nat) : zone.target start step (count + 1) = zone.target start step count + step := by
  unfold target
  rw [Int.natCast_succ, Int.add_mul, Int.one_mul, Int.add_assoc]

variable (zone start step) in
theorem target_le (count : Nat) :
    zone.target start step count ≤ zone.shown (zone.boundary start step count) := by
  induction count with
  | zero =>
      unfold target
      rw [Int.ofNat_zero, Int.zero_mul, Int.add_zero]
      exact Int.le_refl _
  | succ count ih =>
      have ahead := shown_boundary_succ zone start step count
      rw [target_succ]
      omega

/-- As long as no target was left out, each boundary shows its own. -/
theorem shown_boundary {count : Nat}
    (all : forall earlier, 1 ≤ earlier -> earlier ≤ count -> zone.Shows (zone.target start step earlier)) :
    zone.shown (zone.boundary start step count) = zone.target start step count := by
  induction count with
  | zero =>
      unfold target
      rw [Int.ofNat_zero, Int.zero_mul, Int.add_zero]
      rfl
  | succ count ih =>
      have same := ih (fun earlier first most => all earlier first (Nat.le_succ_of_le most))
      have shows := all (count + 1) (Nat.succ_pos count) (Nat.le_refl _)
      rw [boundary_succ, same]
      rw [target_succ] at shows ⊢
      exact shown_settle_of_shows shows

/-- And each boundary after the first is the earliest that shows it. -/
theorem boundary_le {count : Nat}
    (all : forall earlier, 1 ≤ earlier -> earlier ≤ count + 1 -> zone.Shows (zone.target start step earlier))
    {instant : Int} (shows : zone.shown instant = zone.target start step (count + 1)) :
    zone.boundary start step (count + 1) ≤ instant := by
  have same := shown_boundary (fun earlier first most => all earlier first (Nat.le_succ_of_le most))
  rw [boundary_succ, same, ← target_succ]
  exact settle_le shows

/-- After a target that was left out, every boundary is late. -/
theorem target_lt {hidden count : Nat} (first : 1 ≤ hidden) (most : hidden ≤ count)
    (absent : ¬zone.Shows (zone.target start step hidden)) :
    zone.target start step count < zone.shown (zone.boundary start step count) := by
  induction count with
  | zero => exact absurd (Nat.le_trans first most) (Nat.not_succ_le_zero 0)
  | succ count ih =>
      have ahead := shown_boundary_succ zone start step count
      rcases Nat.le_succ_iff.mp most with earlier | same
      · have late := ih earlier
        rw [target_succ]
        omega
      · subst same
        rcases Int.lt_or_eq_of_le (target_le zone start step (count + 1)) with late | shows
        · exact late
        · exact absurd ⟨_, shows.symm⟩ absent

end Zone

end Library
end FaucetStream
