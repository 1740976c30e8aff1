import FaucetStream.Library.Lines
import Mathlib.Data.String.Basic

namespace FaucetStream
namespace Library

/-!
# Texts as bytes

A text is written as the UTF-8 bytes of its characters.  A newline is one byte
that occurs in no other character, so splitting the bytes of a text into lines
is splitting the text.
-/

def encodeUtf8 (text : List Char) : List UInt8 := text.flatMap String.utf8EncodeChar

/-- The text of some bytes, unless they end or break off inside a character. -/
def decodeUtf8 (bytes : List UInt8) : Option (List Char) :=
  bytes.toByteArray.utf8Decode?.map Array.toList

theorem decodeUtf8_encodeUtf8 (text : List Char) : decodeUtf8 (encodeUtf8 text) = some text := by
  have decoded : text.utf8Encode.utf8Decode? = some text.toArray := List.utf8Decode?_utf8Encode
  change text.utf8Encode.utf8Decode?.map Array.toList = some text
  rw [decoded, Option.map_some]

theorem encodeUtf8_append (left right : List Char) :
    encodeUtf8 (left ++ right) = encodeUtf8 left ++ encodeUtf8 right :=
  List.flatMap_append

theorem encodeUtf8_singleton (character : Char) : encodeUtf8 [character] = String.utf8EncodeChar character :=
  List.flatMap_singleton _ _

theorem encodeUtf8_injective : Function.Injective encodeUtf8 := by
  intro left right same
  have decoded := decodeUtf8_encodeUtf8 left
  rw [same, decodeUtf8_encodeUtf8] at decoded
  cases decoded
  rfl

/-- Bytes that read as a text are the bytes of that text. -/
theorem eq_encodeUtf8_of_decodeUtf8 {bytes : List UInt8} {text : List Char}
    (decoded : decodeUtf8 bytes = some text) : bytes = encodeUtf8 text := by
  have readable : bytes.toByteArray.utf8Decode?.isSome = true := by
    cases read : bytes.toByteArray.utf8Decode? with
    | none =>
        rw [decodeUtf8, read] at decoded
        cases decoded
    | some characters => rfl
  rcases ByteArray.isSome_utf8Decode?_iff.mp readable with ⟨original, same⟩
  have again : decodeUtf8 (encodeUtf8 original) = some original := decodeUtf8_encodeUtf8 original
  have array : bytes.toByteArray = (encodeUtf8 original).toByteArray := same
  have equal : bytes = encodeUtf8 original := by
    have lists := congrArg (fun array => array.data.toList) array
    simpa using lists
  rw [equal] at decoded ⊢
  rw [again] at decoded
  cases decoded
  rfl

/-- Every byte of an ASCII text is a character. -/
theorem encodeUtf8_take {text : List Char} (ascii : forall character, character ∈ text -> character.toNat < 128)
    (count : Nat) : (encodeUtf8 text).take count = encodeUtf8 (text.take count) := by
  induction text generalizing count with
  | nil =>
      rw [List.take_nil]
      exact List.take_nil
  | cons character rest ih =>
      have small : character.val.toNat ≤ 127 := Nat.le_of_lt_succ (ascii character List.mem_cons_self)
      have one : String.utf8EncodeChar character = [UInt8.ofNat character.val.toNat] := if_pos small
      have more := ih (fun other member => ascii other (List.mem_cons_of_mem character member))
      cases count with
      | zero => rfl
      | succ count =>
          change (String.utf8EncodeChar character ++ encodeUtf8 rest).take (count + 1) =
            String.utf8EncodeChar character ++ encodeUtf8 (rest.take count)
          rw [one, List.singleton_append, List.take_succ_cons, more, List.singleton_append]

theorem length_encodeUtf8 {text : List Char} (ascii : forall character, character ∈ text -> character.toNat < 128) :
    (encodeUtf8 text).length = text.length := by
  induction text with
  | nil => rfl
  | cons character rest ih =>
      have small : character.val.toNat ≤ 127 := Nat.le_of_lt_succ (ascii character List.mem_cons_self)
      have one : String.utf8EncodeChar character = [UInt8.ofNat character.val.toNat] := if_pos small
      have more := ih (fun other member => ascii other (List.mem_cons_of_mem character member))
      change (String.utf8EncodeChar character ++ encodeUtf8 rest).length = rest.length + 1
      rw [one, List.singleton_append, List.length_cons, more]

theorem utf8ByteSize_ofList (text : List Char) : (String.ofList text).utf8ByteSize = (encodeUtf8 text).length :=
  List.size_toByteArray

/-! ## ASCII characters

The byte of an ASCII character occurs in no other character. -/

theorem ofNat_ne_ascii {ascii : Char} {value : Nat} (small : ascii.toNat < 128) (high : 128 ≤ value)
    (bounded : value < 256) : UInt8.ofNat ascii.toNat ≠ UInt8.ofNat value := by
  intro same
  have values := congrArg UInt8.toNat same
  rw [UInt8.toNat_ofNat_of_lt' bounded, UInt8.toNat_ofNat_of_lt' (show ascii.toNat < 256 by omega)] at values
  omega

theorem ascii_not_mem {ascii character : Char} (small : ascii.toNat < 128) (other : character ≠ ascii) :
    UInt8.ofNat ascii.toNat ∉ String.utf8EncodeChar character := by
  have value : character.val.toNat ≠ ascii.toNat := by
    intro same
    apply other
    apply Char.ext
    apply UInt32.toNat_inj.mp
    exact same
  unfold String.utf8EncodeChar
  dsimp only
  split
  · next low =>
      rw [List.mem_singleton]
      intro same
      have values := congrArg UInt8.toNat same
      rw [UInt8.toNat_ofNat_of_lt' (show character.val.toNat < 256 by omega),
        UInt8.toNat_ofNat_of_lt' (show ascii.toNat < 256 by omega)] at values
      exact value values.symm
  · split
    · simp only [List.mem_cons, List.not_mem_nil, or_false, not_or]
      exact ⟨ofNat_ne_ascii small (by omega) (by omega), ofNat_ne_ascii small (by omega) (by omega)⟩
    · split
      · simp only [List.mem_cons, List.not_mem_nil, or_false, not_or]
        exact ⟨ofNat_ne_ascii small (by omega) (by omega), ofNat_ne_ascii small (by omega) (by omega),
          ofNat_ne_ascii small (by omega) (by omega)⟩
      · simp only [List.mem_cons, List.not_mem_nil, or_false, not_or]
        exact ⟨ofNat_ne_ascii small (by omega) (by omega), ofNat_ne_ascii small (by omega) (by omega),
          ofNat_ne_ascii small (by omega) (by omega), ofNat_ne_ascii small (by omega) (by omega)⟩

theorem ascii_not_mem_encodeUtf8 {ascii : Char} {text : List Char} (small : ascii.toNat < 128)
    (absent : ascii ∉ text) : UInt8.ofNat ascii.toNat ∉ encodeUtf8 text := by
  intro member
  rcases List.mem_flatMap.mp member with ⟨character, listed, inside⟩
  apply ascii_not_mem small _ inside
  rintro rfl
  exact absent listed

/-! ## Newlines -/

def newlineByte : UInt8 := 10

theorem newlineByte_not_mem {character : Char} (other : character ≠ '\n') :
    newlineByte ∉ String.utf8EncodeChar character :=
  ascii_not_mem (by decide) other

theorem everyFrom_encodeChar {character : Char} (other : character ≠ '\n') (current rest : List UInt8) :
    everyFrom newlineByte current (String.utf8EncodeChar character ++ rest) =
      everyFrom newlineByte (current ++ String.utf8EncodeChar character) rest :=
  everyFrom_append_clean (newlineByte_not_mem other) current rest

/-- The lines of the bytes of a text are the bytes of its lines. -/
theorem everyFrom_encodeUtf8 (current text : List Char) :
    everyFrom newlineByte (encodeUtf8 current) (encodeUtf8 text) =
      (everyFrom '\n' current text).map encodeUtf8 := by
  induction text generalizing current with
  | nil =>
      change everyFrom newlineByte (encodeUtf8 current) [] = _
      cases current with
      | nil => rfl
      | cons character rest =>
          have some : encodeUtf8 (character :: rest) ≠ [] := by
            change String.utf8EncodeChar character ++ encodeUtf8 rest ≠ []
            exact List.append_ne_nil_of_left_ne_nil String.utf8EncodeChar_ne_nil _
          rw [everyFrom, everyFrom, if_neg some, if_neg (List.cons_ne_nil character rest), List.map_singleton]
  | cons character rest ih =>
      change everyFrom newlineByte (encodeUtf8 current) (String.utf8EncodeChar character ++ encodeUtf8 rest) = _
      rw [everyFrom]
      by_cases newline : character = '\n'
      · subst newline
        rw [if_pos rfl, List.map_cons, encodeUtf8_append, ← ih []]
        exact everyFrom_separator newlineByte (encodeUtf8 current) (encodeUtf8 rest)
      · rw [if_neg newline, everyFrom_encodeChar newline, ← ih, encodeUtf8_append,
          encodeUtf8_singleton]

end Library
end FaucetStream
