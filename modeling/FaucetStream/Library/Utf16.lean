import Mathlib.Data.List.Basic
import Mathlib.Data.String.Basic

namespace FaucetStream
namespace Library

/-!
# Texts as UTF-16 code units

A character of the supplementary planes is a pair of surrogates, any other one
unit.  Decoding goes through the units once and reports each surrogate that has
lost its pair.
-/

def encodeUtf16Char (character : Char) : List UInt16 :=
  if character.toNat < 0x10000 then [UInt16.ofNat character.toNat]
  else [UInt16.ofNat (0xD800 + (character.toNat - 0x10000) / 0x400),
    UInt16.ofNat (0xDC00 + (character.toNat - 0x10000) % 0x400)]

def encodeUtf16 (text : List Char) : List UInt16 := text.flatMap encodeUtf16Char

def isHighSurrogate (unit : UInt16) : Bool := 0xD800 ≤ unit.toNat && unit.toNat < 0xDC00

def isLowSurrogate (unit : UInt16) : Bool := 0xDC00 ≤ unit.toNat && unit.toNat < 0xE000

/-- The characters of some units; a lone surrogate is an error in its place. -/
def decodeUtf16 : List UInt16 -> List (Except UInt16 Char)
  | [] => []
  | [unit] => [if isHighSurrogate unit || isLowSurrogate unit then .error unit else .ok (Char.ofNat unit.toNat)]
  | unit :: next :: rest =>
      if isHighSurrogate unit then
        if isLowSurrogate next then
          .ok (Char.ofNat (0x10000 + (unit.toNat - 0xD800) * 0x400 + (next.toNat - 0xDC00))) :: decodeUtf16 rest
        else .error unit :: decodeUtf16 (next :: rest)
      else if isLowSurrogate unit then .error unit :: decodeUtf16 (next :: rest)
      else .ok (Char.ofNat unit.toNat) :: decodeUtf16 (next :: rest)

/-- The text of some units, unless a surrogate among them is lone. -/
def fromUtf16 (units : List UInt16) : Option (List Char) :=
  (decodeUtf16 units).mapM (fun decoded => decoded.toOption)

/-- The text of some units, with U+FFFD for each lone surrogate. -/
def fromUtf16Lossy (units : List UInt16) : List Char :=
  (decodeUtf16 units).map (fun decoded => decoded.toOption.getD (Char.ofNat 0xFFFD))

theorem encodeUtf16_cons (character : Char) (text : List Char) :
    encodeUtf16 (character :: text) = encodeUtf16Char character ++ encodeUtf16 text :=
  List.flatMap_cons

theorem encodeUtf16_append (left right : List Char) :
    encodeUtf16 (left ++ right) = encodeUtf16 left ++ encodeUtf16 right :=
  List.flatMap_append

theorem length_encodeUtf16Char_pos (character : Char) : 0 < (encodeUtf16Char character).length := by
  unfold encodeUtf16Char
  split
  · exact Nat.one_pos
  · exact Nat.two_pos

/-- A text has at least as many units as characters. -/
theorem length_le_encodeUtf16 (text : List Char) : text.length ≤ (encodeUtf16 text).length := by
  induction text with
  | nil => exact le_rfl
  | cons character text ih =>
      have positive := length_encodeUtf16Char_pos character
      rw [encodeUtf16_cons, List.length_append, List.length_cons]
      omega

/-! ## Reading a text back -/

theorem decodeUtf16_plain {unit : UInt16} (low : isLowSurrogate unit = false) (high : isHighSurrogate unit = false)
    (rest : List UInt16) : decodeUtf16 (unit :: rest) = .ok (Char.ofNat unit.toNat) :: decodeUtf16 rest := by
  cases rest with
  | nil => simp only [decodeUtf16, high, low, Bool.or_self, Bool.false_eq_true, if_false]
  | cons next rest =>
      rw [decodeUtf16, high, low]
      rfl

theorem isHighSurrogate_iff {unit : UInt16} :
    isHighSurrogate unit = true <-> 0xD800 ≤ unit.toNat ∧ unit.toNat < 0xDC00 := by
  unfold isHighSurrogate
  rw [Bool.and_eq_true, decide_eq_true_eq, decide_eq_true_eq]

theorem isLowSurrogate_iff {unit : UInt16} :
    isLowSurrogate unit = true <-> 0xDC00 ≤ unit.toNat ∧ unit.toNat < 0xE000 := by
  unfold isLowSurrogate
  rw [Bool.and_eq_true, decide_eq_true_eq, decide_eq_true_eq]

theorem decodeUtf16_encodeUtf16Char (character : Char) (rest : List UInt16) :
    decodeUtf16 (encodeUtf16Char character ++ rest) = .ok character :: decodeUtf16 rest := by
  have valid : character.toNat < 0xD800 ∨ 0xDFFF < character.toNat ∧ character.toNat < 0x110000 := character.valid
  unfold encodeUtf16Char
  by_cases small : character.toNat < 0x10000
  · have value : (UInt16.ofNat character.toNat).toNat = character.toNat := UInt16.toNat_ofNat_of_lt' small
    have low : isLowSurrogate (UInt16.ofNat character.toNat) = false := by
      rw [Bool.eq_false_iff, Ne, isLowSurrogate_iff, value]
      omega
    have high : isHighSurrogate (UInt16.ofNat character.toNat) = false := by
      rw [Bool.eq_false_iff, Ne, isHighSurrogate_iff, value]
      omega
    rw [if_pos small, List.singleton_append, decodeUtf16_plain low high, value, Char.ofNat_toNat]
  · have bound : (character.toNat - 0x10000) / 0x400 < 0x400 := by omega
    have remainder : (character.toNat - 0x10000) % 0x400 < 0x400 := Nat.mod_lt _ (by decide)
    have first : (UInt16.ofNat (0xD800 + (character.toNat - 0x10000) / 0x400)).toNat =
        0xD800 + (character.toNat - 0x10000) / 0x400 :=
      UInt16.toNat_ofNat_of_lt' (show _ < 65536 by omega)
    have second : (UInt16.ofNat (0xDC00 + (character.toNat - 0x10000) % 0x400)).toNat =
        0xDC00 + (character.toNat - 0x10000) % 0x400 :=
      UInt16.toNat_ofNat_of_lt' (show _ < 65536 by omega)
    have high : isHighSurrogate (UInt16.ofNat (0xD800 + (character.toNat - 0x10000) / 0x400)) = true := by
      rw [isHighSurrogate_iff, first]
      omega
    have low : isLowSurrogate (UInt16.ofNat (0xDC00 + (character.toNat - 0x10000) % 0x400)) = true := by
      rw [isLowSurrogate_iff, second]
      omega
    have value : 0x10000 + (0xD800 + (character.toNat - 0x10000) / 0x400 - 0xD800) * 0x400 +
        (0xDC00 + (character.toNat - 0x10000) % 0x400 - 0xDC00) = character.toNat := by
      omega
    rw [if_neg small, List.cons_append, List.singleton_append, decodeUtf16, if_pos high, if_pos low, first, second,
      value, Char.ofNat_toNat]

theorem decodeUtf16_encodeUtf16 (text : List Char) : decodeUtf16 (encodeUtf16 text) = text.map .ok := by
  induction text with
  | nil => rfl
  | cons character text ih =>
      rw [encodeUtf16_cons, decodeUtf16_encodeUtf16Char, ih, List.map_cons]

theorem fromUtf16_encodeUtf16 (text : List Char) : fromUtf16 (encodeUtf16 text) = some text := by
  unfold fromUtf16
  rw [decodeUtf16_encodeUtf16]
  induction text with
  | nil => rfl
  | cons character text ih =>
      rw [List.map_cons, List.mapM_cons, ih]
      rfl

theorem fromUtf16Lossy_encodeUtf16 (text : List Char) : fromUtf16Lossy (encodeUtf16 text) = text := by
  unfold fromUtf16Lossy
  rw [decodeUtf16_encodeUtf16, List.map_map]
  exact List.map_id text

end Library
end FaucetStream
