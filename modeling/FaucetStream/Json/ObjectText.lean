import FaucetStream.Json.Value
import FaucetStream.Library.Slots

namespace FaucetStream
namespace Json

open Library

/-!
# Reading objects of strings

The text of an object whose values are strings reads back as the object, with
the last value of a name that occurs twice.
-/

/-- What a character after a backslash stands for. -/
def unescape (letter : Char) : Option Char :=
  if letter = '"' then some '"'
  else if letter = '\\' then some '\\'
  else if letter = '/' then some '/'
  else if letter = 'n' then some '\n'
  else if letter = 'r' then some '\r'
  else if letter = 't' then some '\t'
  else if letter = 'b' then some (Char.ofNat 8)
  else if letter = 'f' then some (Char.ofNat 12)
  else none

def hexValue (digit : Char) : Nat :=
  if digit.toNat < 58 then digit.toNat - 48 else digit.toNat - 87

/-- The characters of a string up to its closing quote, and what follows. -/
def readString : List Char -> Option (List Char × List Char)
  | [] => none
  | character :: rest =>
      if character = '"' then some ([], rest)
      else if character = '\\' then
        match rest with
        | [] => none
        | letter :: rest =>
            if letter = 'u' then
              match rest with
              | first :: second :: third :: fourth :: rest =>
                  let code := hexValue first * 4096 + hexValue second * 256 + hexValue third * 16 + hexValue fourth
                  (readString rest).map (fun read => (Char.ofNat code :: read.1, read.2))
              | _ => none
            else
              match unescape letter with
              | none => none
              | some plain => (readString rest).map (fun read => (plain :: read.1, read.2))
      else (readString rest).map (fun read => (character :: read.1, read.2))

theorem hexValue_digitChar {digit : Nat} (small : digit < 16) : hexValue (Nat.digitChar digit) = digit := by
  have every : forall number : Fin 16, hexValue (Nat.digitChar number.val) = number.val := by decide
  exact every ⟨digit, small⟩

theorem readString_unescape {letter plain : Char} (notCode : letter ≠ 'u') (stands : unescape letter = some plain)
    (rest : List Char) :
    readString ('\\' :: letter :: rest) = (readString rest).map (fun read => (plain :: read.1, read.2)) := by
  rw [readString.eq_def]
  have notQuote : ('\\' : Char) ≠ '"' := by decide
  simp only [notQuote, if_false, if_true, if_neg notCode, stands]

theorem readString_escapeChar (character : Char) (rest : List Char) :
    readString (Value.escapeChar character ++ rest) =
      (readString rest).map (fun read => (character :: read.1, read.2)) := by
  unfold Value.escapeChar
  split
  · next same =>
    rw [same]
    exact readString_unescape (by decide) rfl rest
  split
  · next same =>
    rw [same]
    exact readString_unescape (by decide) rfl rest
  split
  · next same =>
    rw [same]
    exact readString_unescape (by decide) rfl rest
  split
  · next same =>
    rw [same]
    exact readString_unescape (by decide) rfl rest
  split
  · next same =>
    rw [same]
    exact readString_unescape (by decide) rfl rest
  split
  · next same =>
    have isChar : character = Char.ofNat 8 := by rw [← same, Char.ofNat_toNat]
    rw [isChar]
    exact readString_unescape (by decide) rfl rest
  split
  · next same =>
    have isChar : character = Char.ofNat 12 := by rw [← same, Char.ofNat_toNat]
    rw [isChar]
    exact readString_unescape (by decide) rfl rest
  split
  · next small =>
    change readString ('\\' :: 'u' :: '0' :: '0' :: Nat.digitChar (character.toNat / 16) ::
      Nat.digitChar (character.toNat % 16) :: rest) = _
    have notQuote : ('\\' : Char) ≠ '"' := by decide
    rw [readString.eq_def]
    simp only [notQuote, if_false, if_true]
    have code : hexValue '0' * 4096 + hexValue '0' * 256 + character.toNat / 16 * 16 + character.toNat % 16 =
        character.toNat := by
      have zero : hexValue '0' = 0 := rfl
      omega
    rw [hexValue_digitChar (by omega), hexValue_digitChar (by omega), code, Char.ofNat_toNat]
  · next notQuote notBackslash _ _ _ _ _ _ =>
    rw [List.singleton_append, readString.eq_def]
    simp only [if_neg notQuote, if_neg notBackslash]

theorem readString_escaped (text rest : List Char) :
    readString (text.flatMap Value.escapeChar ++ '"' :: rest) = some (text, rest) := by
  induction text with
  | nil =>
      rw [List.flatMap_nil, List.nil_append, readString.eq_def]
      simp only [if_true]
  | cons character text ih =>
      rw [List.flatMap_cons, List.append_assoc, readString_escapeChar, ih]
      rfl

theorem quote_toList (text : String) :
    (Value.quote text).toList = '"' :: (text.toList.flatMap Value.escapeChar ++ ['"']) := by
  unfold Value.quote
  simp only [String.toList_append, String.toList_ofList, List.append_assoc]
  rfl

/-- The entries of an object of strings after its opening brace, at most
`fuel` of them. -/
def readEntries : Nat -> List Char -> Option (List (String × Value))
  | 0, _ => none
  | fuel + 1, '"' :: text =>
      match readString text with
      | some (name, ':' :: '"' :: text) =>
          match readString text with
          | some (value, ',' :: text) =>
              (readEntries fuel text).map (fun entries =>
                (String.ofList name, .string (String.ofList value)) :: entries)
          | some (value, ['\x7d']) => some [(String.ofList name, .string (String.ofList value))]
          | _ => none
      | _ => none
  | _ + 1, ['\x7d'] => some []
  | _ + 1, _ => none

/-- The object of strings that a text denotes. -/
def readObject (text : String) : Option Value :=
  match text.toList with
  | '\x7b' :: body => (readEntries body.length body).map (fun entries => .object (assignAll [] entries))
  | _ => none

/-- The text of an entry. -/
def entryChars (entry : String × String) : List Char :=
  (Value.quote entry.1).toList ++ ':' :: (Value.quote entry.2).toList

/-- The text of the entries after the opening brace. -/
def entriesChars : List (String × String) -> List Char
  | [] => ['\x7d']
  | [entry] => entryChars entry ++ ['\x7d']
  | entry :: next :: rest => entryChars entry ++ ',' :: entriesChars (next :: rest)

def stringEntries (entries : List (String × String)) : List (String × Value) :=
  entries.map (fun entry => (entry.1, .string entry.2))

theorem entryTexts_eq (entries : List (String × Value)) :
    Value.entryTexts entries = entries.map (fun entry => Value.quote entry.1 ++ ":" ++ entry.2.text) := by
  induction entries with
  | nil => rfl
  | cons entry rest ih =>
      rcases entry with ⟨name, value⟩
      rw [Value.entryTexts, ih]
      rfl

theorem object_text_toList (entries : List (String × String)) :
    (Value.object (stringEntries entries)).text.toList = '\x7b' :: entriesChars entries := by
  have body : (String.intercalate "," (Value.entryTexts (stringEntries entries)) ++ "\x7d").toList =
      entriesChars entries := by
    rw [entryTexts_eq, stringEntries, List.map_map]
    induction entries with
    | nil => rfl
    | cons entry rest ih =>
        have single : ((Value.quote entry.1 ++ ":") ++ (Value.string entry.2).text).toList = entryChars entry := by
          rw [String.toList_append, String.toList_append, List.append_assoc]
          rfl
        cases rest with
        | nil =>
            rw [List.map_singleton, String.intercalate_singleton, String.toList_append]
            simp only [Function.comp_apply]
            rw [single]
            rfl
        | cons next rest =>
            rw [List.map_cons, List.map_cons, String.intercalate_cons_cons, String.append_assoc, String.toList_append,
              String.toList_append, ← List.map_cons, ih]
            simp only [Function.comp_apply]
            rw [single, List.append_assoc]
            rfl
  have split : (Value.object (stringEntries entries)).text =
      "\x7b" ++ (String.intercalate "," (Value.entryTexts (stringEntries entries)) ++ "\x7d") := by
    rw [Value.text, String.append_assoc]
  rw [split, String.toList_append, body]
  rfl

theorem readEntries_entriesChars {entries : List (String × String)} {fuel : Nat} (enough : entries.length < fuel) :
    readEntries fuel (entriesChars entries) = some (stringEntries entries) := by
  induction entries generalizing fuel with
  | nil =>
      cases fuel with
      | zero => exact absurd enough (Nat.not_lt_zero _)
      | succ fuel => rfl
  | cons entry rest ih =>
      rcases entry with ⟨name, value⟩
      rw [List.length_cons] at enough
      cases fuel with
      | zero => exact absurd enough (Nat.not_lt_zero _)
      | succ fuel =>
          have first : forall after, readEntries (fuel + 1) (entryChars (name, value) ++ after) =
              match some (value.toList, after) with
              | some (value, ',' :: text) =>
                  (readEntries fuel text).map (fun entries => (name, .string (String.ofList value)) :: entries)
              | some (value, ['\x7d']) => some [(name, .string (String.ofList value))]
              | _ => none := by
            intro after
            unfold entryChars
            rw [quote_toList, quote_toList]
            simp only [List.cons_append, List.append_assoc, List.nil_append, readEntries, readString_escaped,
              String.ofList_toList]
          cases rest with
          | nil =>
              rw [entriesChars, first]
              simp only [String.ofList_toList]
              rfl
          | cons next rest =>
              rw [entriesChars, first]
              simp only [ih (show (next :: rest).length < fuel by omega), String.ofList_toList]
              rfl

theorem length_entriesChars (entries : List (String × String)) : entries.length < (entriesChars entries).length := by
  induction entries with
  | nil => exact Nat.zero_lt_one
  | cons entry rest ih =>
      cases rest with
      | nil =>
          rw [entriesChars, List.length_append, List.length_singleton, entryChars, List.length_append, List.length_cons]
          rw [List.length_singleton]
          omega
      | cons next rest =>
          have longer : (entriesChars (entry :: next :: rest)).length =
              (entryChars entry).length + ((entriesChars (next :: rest)).length + 1) := by
            rw [entriesChars, List.length_append, List.length_cons]
          rw [List.length_cons]
          omega

/-- The text of an object of strings reads back as its entries, the last of
each name. -/
theorem readObject_text (entries : List (String × String)) :
    readObject (Value.object (stringEntries entries)).text = some (.object (assignAll [] (stringEntries entries))) := by
  unfold readObject
  rw [object_text_toList]
  simp only [readEntries_entriesChars (length_entriesChars entries)]
  rfl

end Json
end FaucetStream
