import FaucetStream.Library.Hex
import Mathlib.Algebra.Order.Group.Unbundled.Int

namespace FaucetStream
namespace Delivery

open Library

/-!
# Overwrite run tokens

Every overwrite run stages under a token of its own: eight hexadecimal digits
of the second it started in, and six random ones.  A later run drops the
staging of a run that started more than a week ago and spares every other.

The token keeps 32 bits of the start, so the age of a run is worked out from
two remainders.  A run whose start is ahead of the host's clock is meant to be
spared.  It is, unless the two instants lie on either side of a multiple of
`2 ^ 32` seconds.
-/

def OVERWRITE_RUN_TOKEN_LEN : Nat := 14

/-- How long the staging of another run is presumed in use, in seconds. -/
def ABANDONED_OVERWRITE_STAGING : Nat := 7 * 24 * 60 * 60

def overwriteRunTokenAt (secs : Nat) (random : String) : String :=
  String.ofList (hexDigits 8 (secs % 2 ^ 32)) ++ random

/-- A digit or a letter from `a` to `f`. -/
def isTokenDigit (character : Char) : Bool :=
  character.isDigit || (decide ('a' ≤ character) && decide (character ≤ 'f'))

def isOverwriteRunToken (token : String) : Bool :=
  token.toList.length == OVERWRITE_RUN_TOKEN_LEN && token.toList.all isTokenDigit

/-- The start a token records. -/
def overwriteRunStarted (token : String) : Option Nat :=
  if isOverwriteRunToken token then (readHex (2 ^ 64) (token.toList.take 8)).toOption else none

/-- Whether a token belongs to another run that started too long ago.  A start
less than half the range ahead of now is live, one further ahead belongs to
the era before. -/
def overwriteRunAbandoned (token : String) (own : Option String) (nowSecs : Nat) : Bool :=
  if own = some token then false
  else
    match overwriteRunStarted token with
    | none => false
    | some started =>
        let now := nowSecs % 2 ^ 32
        if started ≤ now then decide (ABANDONED_OVERWRITE_STAGING < now - started)
        else if started - now < 2 ^ 31 then false
        else decide (ABANDONED_OVERWRITE_STAGING < now + 2 ^ 32 - started)

/-! ## The start of a token -/

/-- The random part of a token. -/
def IsRandomPart (random : String) : Prop :=
  random.toList.length = 6 ∧ random.toList.all isTokenDigit = true

instance (random : String) : Decidable (IsRandomPart random) := by
  unfold IsRandomPart
  infer_instance

theorem isTokenDigit_of_mem_hexDigits {width number : Nat} {character : Char}
    (member : character ∈ hexDigits width number) : isTokenDigit character = true := by
  have digits : forall digit : Fin 16, isTokenDigit (Nat.digitChar digit) = true := by decide
  rcases mem_hexDigits member with ⟨digit, small, rfl⟩
  exact digits ⟨digit, small⟩

/-- A token reads back as the low half of its start. -/
theorem overwriteRunStarted_tokenAt (secs : Nat) {random : String} (shaped : IsRandomPart random) :
    overwriteRunStarted (overwriteRunTokenAt secs random) = some (secs % 2 ^ 32) := by
  have characters : (overwriteRunTokenAt secs random).toList = hexDigits 8 (secs % 2 ^ 32) ++ random.toList := by
    rw [overwriteRunTokenAt, String.toList_append, String.toList_ofList]
  have accepted : isOverwriteRunToken (overwriteRunTokenAt secs random) = true := by
    rw [isOverwriteRunToken, characters, List.length_append, length_hexDigits, shaped.1, List.all_append, shaped.2,
      Bool.and_true, Bool.and_eq_true, beq_iff_eq, List.all_eq_true]
    exact ⟨rfl, fun character member => isTokenDigit_of_mem_hexDigits member⟩
  have small : secs % 2 ^ 32 < 2 ^ 32 := Nat.mod_lt _ (by decide)
  rw [overwriteRunStarted, if_pos accepted, characters,
    List.take_left' (length_hexDigits 8 _), readHex_hexDigits (by omega) (by omega)]
  rfl

/-! ## Ages across the wrap -/

/-- The verdict on a token, from the two remainders. -/
theorem overwriteRunAbandoned_tokenAt {started now : Nat} {random : String} (shaped : IsRandomPart random)
    {own : Option String} (other : own ≠ some (overwriteRunTokenAt started random)) :
    overwriteRunAbandoned (overwriteRunTokenAt started random) own now = true <->
      (started % 2 ^ 32 ≤ now % 2 ^ 32 ∧ ABANDONED_OVERWRITE_STAGING < now % 2 ^ 32 - started % 2 ^ 32) ∨
      (now % 2 ^ 32 + 2 ^ 31 ≤ started % 2 ^ 32 ∧
        ABANDONED_OVERWRITE_STAGING < now % 2 ^ 32 + 2 ^ 32 - started % 2 ^ 32) := by
  unfold overwriteRunAbandoned
  rw [if_neg other, overwriteRunStarted_tokenAt started shaped]
  dsimp only
  by_cases same : started % 2 ^ 32 ≤ now % 2 ^ 32
  · rw [if_pos same, decide_eq_true_eq]
    omega
  · rw [if_neg same]
    by_cases ahead : started % 2 ^ 32 - now % 2 ^ 32 < 2 ^ 31
    · rw [if_pos ahead]
      constructor
      · intro impossible
        cases impossible
      · omega
    · rw [if_neg ahead, decide_eq_true_eq]
      omega

/-- A token is judged by its age, within half the range of the clock, exactly
when its start is not ahead of now on the other side of a multiple of
`2 ^ 32`. -/
theorem judged_by_age_iff (started now : Nat) (close : |(started : Int) - now| < 2 ^ 31) (random : String)
    (shaped : IsRandomPart random) (own : Option String)
    (other : own ≠ some (overwriteRunTokenAt started random)) :
    (overwriteRunAbandoned (overwriteRunTokenAt started random) own now = true <->
        (7 * 24 * 60 * 60 : Int) < now - started) <->
      (now < started -> started / 2 ^ 32 = now / 2 ^ 32) := by
  rcases abs_lt.mp close with ⟨lower, upper⟩
  rw [overwriteRunAbandoned_tokenAt shaped other]
  unfold ABANDONED_OVERWRITE_STAGING
  omega

/-- A run of the year 2106, seen nine days later on the other side of the
wrap. -/
theorem judged_by_age_past_wrap :
    overwriteRunAbandoned (overwriteRunTokenAt (2 ^ 32 - 100) "cccccc") none (2 ^ 32 + 777600) = true <->
      (7 * 24 * 60 * 60 : Int) < (2 ^ 32 + 777600 : Nat) - (2 ^ 32 - 100 : Nat) :=
  (judged_by_age_iff (2 ^ 32 - 100) (2 ^ 32 + 777600) (by decide) "cccccc" (by decide) none
    (Option.some_ne_none _).symm).mpr (by decide)

/-- A start a minute ahead of the host's clock, across the wrap, counts as
abandoned. -/
theorem fast_clock_across_wrap_abandoned :
    overwriteRunAbandoned (overwriteRunTokenAt (2 ^ 32 + 30) "cccccc") none (2 ^ 32 - 30) = true ∧
      IsRandomPart "cccccc" ∧ |((2 ^ 32 + 30 : Nat) : Int) - (2 ^ 32 - 30 : Nat)| < 2 ^ 31 ∧
      ¬ (7 * 24 * 60 * 60 : Int) < (2 ^ 32 - 30 : Nat) - (2 ^ 32 + 30 : Nat) := by
  refine ⟨?_, by decide, by decide, by decide⟩
  rw [overwriteRunAbandoned_tokenAt (by decide) (Option.some_ne_none _).symm]
  decide

end Delivery
end FaucetStream
