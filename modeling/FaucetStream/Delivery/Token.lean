import FaucetStream.Json.Value

namespace FaucetStream
namespace Delivery

open Json

/-!
# Commit tokens

An exactly-once sink stores one token per pipeline, in the transaction that
writes the rows of a page.  The token is the page's sequence number, padded to
twenty digits, and after a `#` the page's bookmark as JSON.  The JSON reader is
a parameter.
-/

def TOKEN_WIDTH : Nat := 20

def formatToken (seq : Nat) : String := String.ofList ((Nat.toDigits 10 seq).leftpad TOKEN_WIDTH '0')

def formatTokenWithBookmark (seq : Nat) (bookmark : Option Value) : String :=
  match bookmark with
  | some bookmark => formatToken seq ++ "#" ++ bookmark.text
  | none => formatToken seq

/-- `split_once('#')` on the characters of a text. -/
def splitToken (text : List Char) : Option (List Char × List Char) :=
  match text.dropWhile (· != '#') with
  | [] => none
  | _ :: suffix => some (text.takeWhile (· != '#'), suffix)

/-- `trim().parse::<u64>()`. -/
def parseSeq (text : List Char) : Option Nat :=
  let digits := match trim text with
    | '+' :: rest => rest
    | plain => plain
  if digits.isEmpty || !digits.all Char.isDigit then none else some (Nat.ofDigitChars 10 digits 0)

def parseToken (token : String) : Option Nat :=
  match splitToken token.toList with
  | some (sequence, _) => parseSeq sequence
  | none => parseSeq token.toList

/-- The sequence number of a token and the bookmark it carries. -/
def parseTokenParts (fromStr : String -> Option Value) (token : String) : Option (Nat × Option Value) :=
  match splitToken token.toList with
  | some (sequence, suffix) => (parseSeq sequence).map (fun seq => (seq, fromStr (String.ofList suffix)))
  | none => (parseSeq token.toList).map (fun seq => (seq, none))

/-! ## A token is read back as it was written -/

theorem isDigit_of_mem_padded {seq : Nat} {character : Char}
    (member : character ∈ (Nat.toDigits 10 seq).leftpad TOKEN_WIDTH '0') : character.isDigit = true := by
  rw [List.leftpad, List.mem_append] at member
  rcases member with padding | digit
  · rw [List.eq_of_mem_replicate padding]
    rfl
  · exact Nat.isDigit_of_mem_toDigits (by decide) (by decide) digit

theorem isDigit_not_whitespace {character : Char} (digit : character.isDigit = true) :
    isWhitespace character = false := by
  simp only [Char.isDigit, Bool.and_eq_true, decide_eq_true_eq] at digit
  have lower : 48 ≤ character.toNat := digit.1
  have upper : character.toNat ≤ 57 := digit.2
  unfold isWhitespace
  simp only [Bool.or_eq_false_iff, Bool.and_eq_false_iff, decide_eq_false_iff_not, beq_eq_false_iff_ne]
  omega

theorem trim_digits {text : List Char} (digits : forall character, character ∈ text -> character.isDigit = true) :
    trim text = text := by
  have first : text.dropWhile isWhitespace = text := by
    rw [List.dropWhile_eq_self_iff]
    intro nonempty
    rw [isDigit_not_whitespace (digits _ (List.getElem_mem nonempty))]
    decide
  unfold trim
  rw [first, List.rdropWhile_eq_self_iff]
  intro nonempty
  rw [isDigit_not_whitespace (digits _ (List.getLast_mem nonempty))]
  decide

theorem ofDigitChars_padding (count : Nat) (text : List Char) :
    Nat.ofDigitChars 10 (List.replicate count '0' ++ text) 0 = Nat.ofDigitChars 10 text 0 := by
  induction count with
  | zero => rfl
  | succ count ih =>
      rw [List.replicate_succ, List.cons_append, Nat.ofDigitChars_cons]
      exact ih

theorem parseSeq_padded (seq : Nat) :
    parseSeq ((Nat.toDigits 10 seq).leftpad TOKEN_WIDTH '0') = some seq := by
  have digits : forall character, character ∈ (Nat.toDigits 10 seq).leftpad TOKEN_WIDTH '0' ->
      character.isDigit = true := fun _ member => isDigit_of_mem_padded member
  have nonempty : (Nat.toDigits 10 seq).leftpad TOKEN_WIDTH '0' ≠ [] := by
    rw [List.leftpad]
    exact List.append_ne_nil_of_right_ne_nil _ Nat.toDigits_ne_nil
  unfold parseSeq
  rw [trim_digits digits]
  have unsigned : (match (Nat.toDigits 10 seq).leftpad TOKEN_WIDTH '0' with
      | '+' :: rest => rest
      | plain => plain) = (Nat.toDigits 10 seq).leftpad TOKEN_WIDTH '0' := by
    split
    · rename_i rest shape
      have bad := digits '+' (by rw [shape]; exact List.mem_cons_self)
      exact absurd bad (by decide)
    · rfl
  rw [unsigned]
  dsimp only
  have all : ((Nat.toDigits 10 seq).leftpad TOKEN_WIDTH '0').all Char.isDigit = true :=
    List.all_eq_true.mpr digits
  rw [all, List.isEmpty_eq_false_iff.mpr nonempty]
  simp only [Bool.not_true, Bool.or_self, Bool.false_eq_true, if_false, Option.some.injEq]
  rw [List.leftpad, ofDigitChars_padding, Nat.ofDigitChars_ten_toDigits]

theorem splitToken_format (seq : Nat) (suffix : List Char) :
    splitToken ((Nat.toDigits 10 seq).leftpad TOKEN_WIDTH '0' ++ '#' :: suffix) =
      some ((Nat.toDigits 10 seq).leftpad TOKEN_WIDTH '0', suffix) := by
  have clean : forall character, character ∈ (Nat.toDigits 10 seq).leftpad TOKEN_WIDTH '0' ->
      (character != '#') = true := by
    intro character member
    rw [bne_iff_ne]
    intro same
    have digit := isDigit_of_mem_padded member
    rw [same] at digit
    exact absurd digit (by decide)
  unfold splitToken
  rw [List.dropWhile_append_of_pos clean, List.takeWhile_append_of_pos clean]
  simp only [List.dropWhile_cons, List.takeWhile_cons, bne_self_eq_false, Bool.false_eq_true, if_false,
    List.append_nil]

theorem toList_formatTokenWithBookmark (seq : Nat) (bookmark : Value) :
    (formatTokenWithBookmark seq (some bookmark)).toList =
      (Nat.toDigits 10 seq).leftpad TOKEN_WIDTH '0' ++ '#' :: bookmark.text.toList := by
  simp only [formatTokenWithBookmark, formatToken, String.toList_append, String.toList_ofList,
    List.append_assoc]
  rfl

theorem parseToken_format (seq : Nat) (bookmark : Value) :
    parseToken (formatTokenWithBookmark seq (some bookmark)) = some seq := by
  rw [parseToken, toList_formatTokenWithBookmark, splitToken_format]
  exact parseSeq_padded seq

theorem parseTokenParts_format (fromStr : String -> Option Value) (seq : Nat) (bookmark : Value) :
    parseTokenParts fromStr (formatTokenWithBookmark seq (some bookmark)) =
      some (seq, fromStr bookmark.text) := by
  rw [parseTokenParts, toList_formatTokenWithBookmark, splitToken_format]
  simp only [parseSeq_padded, Option.map_some, String.ofList_toList]

end Delivery
end FaucetStream
