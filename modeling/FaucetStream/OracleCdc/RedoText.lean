import FaucetStream.OracleCdc.RedoTokens

namespace FaucetStream
namespace OracleCdc

open Json Library

/-!
# Statements and their texts

The statements of the redo log, with a choice of how each value is written, and
that the parser finds the statement again.
-/

/-! ## Literals -/

/-- A decimal number as it is written.  One that begins with its point has a
sign. -/
structure Numeral where
  /-- True for a minus. -/
  sign : Option Bool
  whole : List (Fin 10)
  fraction : Option (List (Fin 10))
  /-- The letter in upper case or not, a sign, and the digits. -/
  exponent : Option (Bool × Option Bool × List (Fin 10))
  starts : whole ≠ [] ∨ (sign.isSome = true ∧ fraction.isSome = true)

def digitChar (digit : Fin 10) : Char := Char.ofNat (48 + digit.val)

def signChar (minus : Bool) : Char := if minus then '-' else '+'

def Numeral.fractionText (numeral : Numeral) : List Char :=
  match numeral.fraction with
  | some digits => '.' :: digits.map digitChar
  | none => []

def Numeral.exponentText (numeral : Numeral) : List Char :=
  match numeral.exponent with
  | some (upper, sign, digits) =>
      (if upper then 'E' else 'e') :: (sign.toList.map signChar ++ digits.map digitChar)
  | none => []

def Numeral.text (numeral : Numeral) : List Char :=
  numeral.sign.toList.map signChar ++ (numeral.whole.map digitChar ++ (numeral.fractionText ++ numeral.exponentText))

/-- One character of a `UNISTR` literal. -/
inductive UnistrPiece where
  | plain (character : Char) (other : character ≠ '\\')
  | backslash
  /-- Its UTF-16 units, each as four digits. -/
  | escaped (character : Char)

def hexChar (upper : Bool) (digit : Nat) : Char := if upper then hexDigit digit else Nat.digitChar digit

def unitEscape (unit : UInt16) : List Char :=
  ['\\', hexDigit (unit.toNat / 4096), hexDigit (unit.toNat / 256 % 16), hexDigit (unit.toNat / 16 % 16),
    hexDigit (unit.toNat % 16)]

def UnistrPiece.character : UnistrPiece -> Char
  | .plain character _ => character
  | .backslash => '\\'
  | .escaped character => character

def UnistrPiece.chars : UnistrPiece -> List Char
  | .plain character _ => [character]
  | .backslash => ['\\', '\\']
  | .escaped character => (encodeUtf16Char character).flatMap unitEscape

/-- A value and how it is written. -/
inductive Literal where
  | null
  | quoted (text : List Char)
  | number (numeral : Numeral)
  | hextoraw (upper : Bool) (bytes : List UInt8)
  | unistr (pieces : List UnistrPiece)

def hexText2 (upper : Bool) (byte : UInt8) : List Char :=
  [hexChar upper (byte.toNat / 16), hexChar upper (byte.toNat % 16)]

def Literal.resolved : Literal -> Resolved
  | .null => .null
  | .quoted text => .text (String.ofList text)
  | .number numeral => .text (String.ofList numeral.text)
  | .hextoraw _ bytes => .bytes bytes
  | .unistr pieces => .text (String.ofList (pieces.map UnistrPiece.character))

/-- A call with one literal. -/
def callToks (name : String) (text : List Char) : List Tok :=
  [.word name.toList, .sym .leftParen, .str text, .sym .rightParen]

def Literal.toks : Literal -> List Tok
  | .null => [.word "NULL".toList]
  | .quoted text => [.str text]
  | .number numeral => [.word numeral.text]
  | .hextoraw upper bytes => callToks "HEXTORAW" (bytes.flatMap (hexText2 upper))
  | .unistr pieces => callToks "UNISTR" (pieces.flatMap UnistrPiece.chars)

/-! ### Numbers -/

theorem isDigit_digitChar (digit : Fin 10) : (digitChar digit).isDigit = true := by
  revert digit
  decide

/-- Digits go on as a number after anything. -/
theorem scanNumber_digits (previous : Char) (digits : List (Fin 10)) (rest : List Char)
    (onward : forall last, scanNumber last rest = (rest, [])) :
    scanNumber previous (digits.map digitChar ++ rest) = (digits.map digitChar ++ rest, []) := by
  induction digits generalizing previous with
  | nil => exact onward previous
  | cons digit digits ih =>
      have continues : continuesNumber previous (digitChar digit) = true := by
        unfold continuesNumber
        rw [isDigit_digitChar]
        rfl
      rw [List.map_cons, List.cons_append, scanNumber, if_pos continues, ih]

theorem scanNumber_all_digits (previous : Char) (digits : List (Fin 10)) :
    scanNumber previous (digits.map digitChar) = (digits.map digitChar, []) := by
  have all := scanNumber_digits previous digits [] (fun _ => rfl)
  rw [List.append_nil] at all
  exact all

theorem Numeral.scan_exponent (numeral : Numeral) (previous : Char) :
    scanNumber previous numeral.exponentText = (numeral.exponentText, []) := by
  unfold Numeral.exponentText
  cases numeral.exponent with
  | none => rfl
  | some exponent =>
      rcases exponent with ⟨upper, sign, digits⟩
      have continues : continuesNumber previous (if upper then 'E' else 'e') = true := by
        cases upper <;> simp [continuesNumber]
      dsimp only
      rw [scanNumber, if_pos continues]
      cases sign with
      | none =>
          have rest := scanNumber_all_digits (if upper then 'E' else 'e') digits
          rw [Option.toList_none, List.map_nil, List.nil_append, rest]
      | some minus =>
          have signed : continuesNumber (if upper then 'E' else 'e') (signChar minus) = true := by
            cases upper <;> cases minus <;> rfl
          have rest := scanNumber_all_digits (signChar minus) digits
          rw [Option.toList_some, List.map_singleton, List.singleton_append, scanNumber, if_pos signed, rest]

theorem Numeral.scan_fraction (numeral : Numeral) (previous : Char) :
    scanNumber previous (numeral.fractionText ++ numeral.exponentText) =
      (numeral.fractionText ++ numeral.exponentText, []) := by
  unfold Numeral.fractionText
  cases numeral.fraction with
  | none => exact numeral.scan_exponent previous
  | some digits =>
      have continues : continuesNumber previous '.' = true := by simp [continuesNumber]
      dsimp only
      rw [List.cons_append, scanNumber, if_pos continues, scanNumber_digits '.' digits _ numeral.scan_exponent]

/-- What follows a sign begins with a digit or the point. -/
theorem Numeral.head_unsigned (numeral : Numeral) :
    (numeral.whole.map digitChar ++ (numeral.fractionText ++ numeral.exponentText)).head?.any
      (fun next => next.isDigit || next == '.') = true := by
  cases digits : numeral.whole with
  | cons digit others =>
      change ((digitChar digit).isDigit || digitChar digit == '.') = true
      rw [isDigit_digitChar]
      rfl
  | nil =>
      rcases numeral.starts with nonempty | ⟨_, fraction⟩
      · exact absurd digits nonempty
      · rcases Option.isSome_iff_exists.mp fraction with ⟨others, found⟩
        unfold Numeral.fractionText
        rw [found]
        rfl

/-- A number is scanned as one word. -/
theorem Numeral.numberWord (numeral : Numeral) : NumberWord numeral.text := by
  unfold Numeral.text
  cases sign : numeral.sign with
  | none =>
      cases digits : numeral.whole with
      | nil =>
          rcases numeral.starts with nonempty | ⟨signed, _⟩
          · exact absurd digits nonempty
          · rw [sign] at signed
            cases signed
      | cons digit others =>
          refine ⟨?_, scanNumber_digits _ others _ numeral.scan_fraction⟩
          unfold startsNumber
          rw [isDigit_digitChar]
          rfl
  | some minus =>
      refine ⟨?_, scanNumber_digits _ numeral.whole _ numeral.scan_fraction⟩
      have signs : ((signChar minus == '-') || (signChar minus == '+')) = true := by cases minus <;> rfl
      unfold startsNumber
      rw [signs, Bool.true_and, Bool.or_eq_true]
      exact Or.inr numeral.head_unsigned

/-! ### Digits of bytes and units -/

theorem hexDigitValue_hexChar (upper : Bool) {digit : Nat} (small : digit < 16) :
    hexDigitValue (hexChar upper digit) = some digit := by
  cases upper with
  | true => exact hexDigitValue_hexDigit small
  | false => exact hexDigitValue_digitChar small

theorem readHex_two {limit high low : Nat} {first second : Char} (upper : hexDigitValue first = some high)
    (lower : hexDigitValue second = some low) (small : high * 16 + low < limit) :
    readHex limit [first, second] = .ok (high * 16 + low) := by
  have one : readHex limit ([] ++ [first]) = .ok (0 * 16 + high) := readHex_concat rfl upper (by omega)
  have both := readHex_concat one lower (by omega)
  rw [Nat.zero_mul, Nat.zero_add] at both
  exact both

/-- Digits without a sign are read as a number. -/
theorem fromStrRadix16_digits {limit value : Nat} {first : Char} {rest : List Char}
    (digit : (hexDigitValue first).isSome = true) (read : readHex limit (first :: rest) = .ok value) :
    fromStrRadix16 limit (first :: rest) = some value := by
  have unsigned : first ≠ '+' := by
    rintro rfl
    cases digit
  unfold fromStrRadix16
  split
  · next empty => cases empty
  · next shape => exact absurd (List.cons.inj shape).1 unsigned
  · next digits different shape => exact absurd (List.cons.inj shape).1 unsigned
  · rw [read]
    rfl

theorem fromStrRadix16_hexText2 (upper : Bool) (byte : UInt8) :
    fromStrRadix16 (2 ^ 8) (hexText2 upper byte) = some byte.toNat := by
  have small := byte.toNat_lt
  have high : byte.toNat / 16 < 16 := by omega
  have low : byte.toNat % 16 < 16 := Nat.mod_lt _ (by decide)
  have whole : byte.toNat / 16 * 16 + byte.toNat % 16 = byte.toNat := Nat.div_add_mod' _ _
  have read : readHex (2 ^ 8) (hexText2 upper byte) = .ok (byte.toNat / 16 * 16 + byte.toNat % 16) :=
    readHex_two (hexDigitValue_hexChar upper high) (hexDigitValue_hexChar upper low) (by omega)
  rw [whole] at read
  apply fromStrRadix16_digits _ read
  rw [hexDigitValue_hexChar upper high]
  rfl

theorem hexPairs_bytes (upper : Bool) (bytes : List UInt8) :
    hexPairs (bytes.flatMap (hexText2 upper)) = some bytes := by
  induction bytes with
  | nil => rfl
  | cons byte bytes ih =>
      rw [List.flatMap_cons]
      change (fromStrRadix16 (2 ^ 8) (hexText2 upper byte) >>= fun byte =>
        hexPairs (bytes.flatMap (hexText2 upper)) >>= fun bytes => some (UInt8.ofNat byte :: bytes)) = _
      rw [fromStrRadix16_hexText2, ih]
      change some (UInt8.ofNat byte.toNat :: bytes) = _
      rw [UInt8.ofNat_toNat]

theorem isWhitespace_hexChar (upper : Bool) {digit : Nat} (small : digit < 16) :
    isWhitespace (hexChar upper digit) = false := by
  cases upper <;> interval_cases digit <;> rfl

/-- Nothing is trimmed from digits. -/
theorem trim_visible {text : List Char}
    (visible : forall character, character ∈ text -> isWhitespace character = false) :
    trim text = text := by
  have front : text.dropWhile isWhitespace = text := by
    cases text with
    | nil => rfl
    | cons first rest => rw [List.dropWhile_cons, visible first List.mem_cons_self, if_neg Bool.false_ne_true]
  unfold trim
  rw [front, List.rdropWhile_eq_self_iff]
  intro nonempty white
  rw [visible _ (List.getLast_mem nonempty)] at white
  cases white

theorem hexToBytes_bytes (upper : Bool) (bytes : List UInt8) :
    hexToBytes (bytes.flatMap (hexText2 upper)) = some bytes := by
  unfold hexToBytes
  rw [trim_visible, hexPairs_bytes]
  intro character member
  rcases List.mem_flatMap.mp member with ⟨byte, _, digit⟩
  have small := byte.toNat_lt
  rcases List.mem_cons.mp digit with rfl | second
  · exact isWhitespace_hexChar upper (by omega)
  · rw [List.mem_singleton.mp second]
    exact isWhitespace_hexChar upper (Nat.mod_lt _ (by decide))

/-! ### Escapes -/

theorem fromStrRadix16_unit (unit : UInt16) :
    fromStrRadix16 (2 ^ 16) (unitEscape unit).tail = some unit.toNat := by
  have small := unit.toNat_lt
  have first : unit.toNat / 4096 < 16 := by omega
  have read : readHex (2 ^ 16) (unitEscape unit).tail = .ok unit.toNat := by
    have two : readHex (2 ^ 16) [hexDigit (unit.toNat / 4096), hexDigit (unit.toNat / 256 % 16)] =
        .ok (unit.toNat / 4096 * 16 + unit.toNat / 256 % 16) :=
      readHex_two (hexDigitValue_hexDigit first) (hexDigitValue_hexDigit (Nat.mod_lt _ (by decide))) (by omega)
    have three := readHex_concat two (hexDigitValue_hexDigit (Nat.mod_lt (unit.toNat / 16) (by decide))) (by omega)
    have four := readHex_concat three (hexDigitValue_hexDigit (Nat.mod_lt unit.toNat (by decide))) (by omega)
    have whole : ((unit.toNat / 4096 * 16 + unit.toNat / 256 % 16) * 16 + unit.toNat / 16 % 16) * 16 +
        unit.toNat % 16 = unit.toNat := by
      omega
    rw [whole] at four
    exact four
  apply fromStrRadix16_digits _ read
  rw [hexDigitValue_hexDigit first]
  rfl

/-- An escape adds its unit to those gathered. -/
theorem decodeUnistr_unit (units : List UInt16) (out rest : List Char) (unit : UInt16) :
    decodeUnistr units out (unitEscape unit ++ rest) = decodeUnistr (units ++ [unit]) out rest := by
  have small := unit.toNat_lt
  have digit : hexDigit (unit.toNat / 4096) ≠ '\\' := hexDigit_ne_of_none (by omega) (by decide)
  have read := fromStrRadix16_unit unit
  unfold unitEscape at read ⊢
  rw [List.tail_cons] at read
  rw [List.cons_append, List.cons_append, List.cons_append, List.cons_append, List.cons_append, List.nil_append,
    decodeUnistr.eq_def]
  split
  · next empty => cases empty
  · next others shape => exact absurd (List.cons.inj (List.cons.inj shape).2).1 digit
  · next first second third fourth others different shape =>
      cases shape
      rw [read]
      dsimp only
      rw [UInt16.ofNat_toNat]
  · next others different long shape =>
      cases shape
      exact absurd rfl (long _ _ _ _ _)
  · next character others different long other shape => exact absurd (List.cons.inj shape).1.symm other

theorem decodeUnistr_units (units more : List UInt16) (out rest : List Char) :
    decodeUnistr units out (more.flatMap unitEscape ++ rest) = decodeUnistr (units ++ more) out rest := by
  induction more generalizing units with
  | nil => rw [List.flatMap_nil, List.nil_append, List.append_nil]
  | cons unit more ih =>
      rw [List.flatMap_cons, List.append_assoc, decodeUnistr_unit, ih, List.append_assoc,
        List.singleton_append]

theorem flushUnits_encodeUtf16 (pending out : List Char) :
    flushUnits (encodeUtf16 pending) out = .ok (out ++ pending) := by
  unfold flushUnits
  cases pending with
  | nil => rw [List.append_nil]; rfl
  | cons character pending =>
      have some : ¬(encodeUtf16 (character :: pending)).isEmpty = true := by
        have longer := length_le_encodeUtf16 (character :: pending)
        rw [List.isEmpty_iff_length_eq_zero]
        rw [List.length_cons] at longer
        omega
      rw [if_neg some, fromUtf16_encodeUtf16]

theorem decodeUnistr_plain {character : Char} (other : character ≠ '\\') (units : List UInt16)
    (out rest : List Char) :
    decodeUnistr units out (character :: rest) =
      (flushUnits units out >>= fun out => decodeUnistr [] (out ++ [character]) rest) := by
  rw [decodeUnistr.eq_def]
  split
  · next empty => cases empty
  · next others shape => exact absurd (List.cons.inj shape).1 other
  · next first second third fourth others different shape => exact absurd (List.cons.inj shape).1 other
  · next others different long shape => exact absurd (List.cons.inj shape).1 other
  · next first others different long another shape =>
      cases shape
      rfl

/-- The pieces of a text are decoded to it, with the characters whose units are
still gathered before it. -/
theorem decodeUnistr_pieces (pieces : List UnistrPiece) (pending out : List Char) :
    decodeUnistr (encodeUtf16 pending) out (pieces.flatMap UnistrPiece.chars) =
      .ok (out ++ pending ++ pieces.map UnistrPiece.character) := by
  induction pieces generalizing pending out with
  | nil =>
      rw [List.map_nil, List.append_nil]
      exact flushUnits_encodeUtf16 pending out
  | cons piece pieces ih =>
      have flushed : forall character, decodeUnistr [] (out ++ pending ++ [character])
          (pieces.flatMap UnistrPiece.chars) =
            .ok (out ++ pending ++ character :: pieces.map UnistrPiece.character) := by
        intro character
        have later := ih [] (out ++ pending ++ [character])
        rw [List.append_nil, List.append_assoc (out ++ pending), List.singleton_append] at later
        exact later
      rw [List.flatMap_cons, List.map_cons]
      cases piece with
      | plain character other =>
          change decodeUnistr _ out (character :: pieces.flatMap UnistrPiece.chars) = _
          rw [decodeUnistr_plain other, flushUnits_encodeUtf16]
          exact flushed character
      | backslash =>
          change (flushUnits (encodeUtf16 pending) out >>= fun out =>
            decodeUnistr [] (out ++ ['\\']) (pieces.flatMap UnistrPiece.chars)) = _
          rw [flushUnits_encodeUtf16]
          exact flushed '\\'
      | escaped character =>
          have gathered : encodeUtf16 pending ++ encodeUtf16Char character = encodeUtf16 (pending ++ [character]) := by
            rw [encodeUtf16_append]
            exact congrArg _ (List.append_nil _).symm
          change decodeUnistr _ out ((encodeUtf16Char character).flatMap unitEscape ++ _) = _
          rw [decodeUnistr_units, gathered, ih, ← List.append_assoc out, List.append_assoc,
            List.singleton_append]
          rfl

/-! ### Values -/

/-- What may follow a value: neither bars nor a parenthesis that would make a
call of it. -/
def Follows (rest : List Tok) : Prop := rest.head? ≠ some (.sym .bars) ∧ rest.head? ≠ some (.sym .leftParen)

theorem concatLoop_done {operand : Parser Resolved} {rest : List Tok} (ends : rest.head? ≠ some (.sym .bars))
    (fuel : Nat) (left : Resolved) : concatLoop operand (fuel + 1) left rest = .ok (left, rest) := by
  cases rest with
  | nil => rfl
  | cons tok rest =>
      cases tok with
      | sym mark =>
          cases mark with
          | bars => exact absurd rfl ends
          | _ => rfl
      | _ => rfl

theorem valueWithin_of_term {depth : Nat} {toks rest : List Tok} {found : Resolved} (follows : Follows rest)
    (read : term (valueWithin depth) toks = .ok (found, rest)) :
    valueWithin (depth + 1) toks = .ok (found, rest) := by
  unfold valueWithin
  dsimp only
  rw [read]
  exact concatLoop_done follows.1 _ _

theorem follows_rightParen (rest : List Tok) : Follows (.sym .rightParen :: rest) := by
  constructor <;>
  · intro same
    cases same

theorem follows_comma (rest : List Tok) : Follows (.sym .comma :: rest) := by
  constructor <;>
  · intro same
    cases same

theorem follows_word (text : List Char) (rest : List Tok) : Follows (.word text :: rest) := by
  constructor <;>
  · intro same
    cases same

theorem follows_nil : Follows [] := by
  constructor <;>
  · intro same
    cases same

/-- A call of one literal stands for what its function makes of it. -/
theorem term_call {name : String} (named : sameWord name.toList "NULL" = false) {text : List Char} {result : Resolved}
    (applied : applyFunction name.toList [.text (String.ofList text)] = .ok result) (depth : Nat) (rest : List Tok) :
    term (valueWithin (depth + 1)) (callToks name text ++ rest) = .ok (result, rest) := by
  have literal : valueWithin (depth + 1) (.str text :: .sym .rightParen :: rest) =
      .ok (.text (String.ofList text), .sym .rightParen :: rest) :=
    valueWithin_of_term (follows_rightParen rest) rfl
  have args : arguments (valueWithin (depth + 1)) (.str text :: .sym .rightParen :: rest) =
      .ok ([.text (String.ofList text)], .sym .rightParen :: rest) := by
    change (valueWithin (depth + 1) (.str text :: .sym .rightParen :: rest) >>= _) = _
    rw [literal]
    rfl
  change (if sameWord name.toList "NULL" then _ else
    (arguments (valueWithin (depth + 1)) (.str text :: .sym .rightParen :: rest) >>= _)) = _
  rw [named, if_neg Bool.false_ne_true, args]
  change (applyFunction name.toList [.text (String.ofList text)] >>= _) = _
  rw [applied]
  rfl

theorem sameWord_number {text : List Char} (number : NumberWord text) :
    sameWord text "NULL" = false ∧ startsAsNumber text = true := by
  cases text with
  | nil => cases number
  | cons first rest =>
      have starts := number.1
      unfold startsNumber at starts
      have begins : (first.isDigit || first == '-' || first == '+') = true := by
        simp only [Bool.or_eq_true, Bool.and_eq_true] at starts ⊢
        rcases starts with digit | ⟨sign, _⟩
        · exact Or.inl (Or.inl digit)
        · rcases sign with minus | plus
          · exact Or.inl (Or.inr minus)
          · exact Or.inr plus
      have table : forall code, code < 128 ->
          ((Char.ofNat code).isDigit || Char.ofNat code == '-' || Char.ofNat code == '+') = true ->
            ((Char.ofNat code).toLower == 'n') = false := by
        decide
      have found := table first.toNat (toNat_lt_of_isWordStart (isWordStart_of_startsNumber number.1))
      rw [Char.ofNat_toNat] at found
      refine ⟨?_, begins⟩
      change ((first.toLower == 'n') && _) = false
      rw [found begins, Bool.false_and]

theorem applyFunction_hextoraw {text : List Char} {bytes : List UInt8} (decoded : hexToBytes text = some bytes) :
    applyFunction "HEXTORAW".toList [.text (String.ofList text)] = .ok (.bytes bytes) := by
  have raised : String.ofList ("HEXTORAW".toList.map Char.toUpper) = "HEXTORAW" := by
    decide
  have other : ¬CONVERSIONS.contains "HEXTORAW" = true := by
    decide
  unfold applyFunction
  dsimp only [List.head?_cons, Option.getD_some]
  rw [raised, if_neg other, if_pos rfl, String.toList_ofList, decoded]

theorem term_literal (literal : Literal) (depth : Nat) {rest : List Tok} (follows : Follows rest) :
    term (valueWithin (depth + 1)) (literal.toks ++ rest) = .ok (literal.resolved, rest) := by
  cases literal with
  | null => rfl
  | quoted text => rfl
  | number numeral =>
      rcases sameWord_number numeral.numberWord with ⟨other, starts⟩
      have plain : term (valueWithin (depth + 1)) (.word numeral.text :: rest) =
          if startsAsNumber numeral.text then .ok (.text (String.ofList numeral.text), rest)
          else .error (.unexpectedValue (some (.word numeral.text))) := by
        unfold term
        dsimp only
        rw [other, if_neg Bool.false_ne_true]
        split
        · exact absurd rfl follows.2
        · rfl
      change term (valueWithin (depth + 1)) (.word numeral.text :: rest) = _
      rw [plain, if_pos starts]
      rfl
  | hextoraw upper bytes =>
      refine term_call rfl ?_ depth rest
      have decoded := hexToBytes_bytes upper bytes
      exact applyFunction_hextoraw decoded
  | unistr pieces =>
      refine term_call rfl ?_ depth rest
      have decoded := decodeUnistr_pieces pieces [] []
      change (decodeUnistr [] [] (String.ofList (pieces.flatMap UnistrPiece.chars)).toList >>= _) = _
      rw [String.toList_ofList]
      rw [show encodeUtf16 [] = [] from rfl] at decoded
      rw [decoded]
      rfl

/-- Every literal is parsed to what it stands for. -/
theorem value_literal (literal : Literal) {rest : List Tok} (follows : Follows rest) :
    value (literal.toks ++ rest) = .ok (literal.resolved, rest) := by
  have some : exists depth, (literal.toks ++ rest).length = depth + 1 := by
    cases literal <;> exact ⟨_, rfl⟩
  rcases some with ⟨depth, length⟩
  unfold value
  rw [length]
  exact valueWithin_of_term follows (term_literal literal depth follows)

/-! ## Statements -/

/-- A column and a value. -/
abbrev Cell := List Char × Literal

/-- A statement of the redo log; an insert has a column and an update an
assignment. -/
inductive Statement where
  | insert (owner table : List Char) (first : Cell) (others : List Cell)
  | update (owner table : List Char) (first : Cell) (others : List Cell) (conditions : List Cell)
  | delete (owner table : List Char) (conditions : List Cell)

def cellResolved (cell : Cell) : String × Resolved := (String.ofList cell.1, cell.2.resolved)

def Statement.dml : Statement -> Dml
  | .insert owner table first others =>
      ⟨.insert, String.ofList owner, String.ofList table, (first :: others).map cellResolved, []⟩
  | .update owner table first others conditions =>
      ⟨.update, String.ofList owner, String.ofList table, (first :: others).map cellResolved,
        conditions.map cellResolved⟩
  | .delete owner table conditions =>
      ⟨.delete, String.ofList owner, String.ofList table, [], conditions.map cellResolved⟩

def Statement.names : Statement -> List (List Char)
  | .insert owner table first others => owner :: table :: (first :: others).map Prod.fst
  | .update owner table first others conditions =>
      owner :: table :: ((first :: others).map Prod.fst ++ conditions.map Prod.fst)
  | .delete owner table conditions => owner :: table :: conditions.map Prod.fst

def keyword (text : String) : Tok := .word text.toList

def tableToks (owner table : List Char) : List Tok := [.ident owner, .sym .dot, .ident table]

/-- Items with a token between them. -/
def separated {A : Type} (between : Tok) (toksOf : A -> List Tok) (first : A) (others : List A) : List Tok :=
  toksOf first ++ others.flatMap (fun item => between :: toksOf item)

def assignmentToks (cell : Cell) : List Tok := .ident cell.1 :: .sym .equals :: cell.2.toks

def conditionToks (cell : Cell) : List Tok :=
  match cell.2 with
  | .null => [.ident cell.1, keyword "IS", keyword "NULL"]
  | _ => assignmentToks cell

def whereToks : List Cell -> List Tok
  | [] => []
  | first :: others => keyword "where" :: separated (keyword "and") conditionToks first others

def Statement.toks : Statement -> List Tok
  | .insert owner table first others =>
      keyword "insert" :: keyword "into" :: (tableToks owner table ++
        (.sym .leftParen :: (separated (.sym .comma) (fun cell => [.ident cell.1]) first others ++
          (.sym .rightParen :: keyword "values" :: .sym .leftParen ::
            (separated (.sym .comma) (fun cell => cell.2.toks) first others ++ [.sym .rightParen])))))
  | .update owner table first others conditions =>
      keyword "update" :: (tableToks owner table ++
        (keyword "set" :: (separated (.sym .comma) assignmentToks first others ++ whereToks conditions)))
  | .delete owner table conditions =>
      keyword "delete" :: keyword "from" :: (tableToks owner table ++ whereToks conditions)

/-! ### Parsing the parts -/

theorem commaLoop_done {A : Type} {item : Parser A} {rest : List Tok} (ends : rest.head? ≠ some (.sym .comma))
    (fuel : Nat) (items : List A) : commaLoop item (fuel + 1) items rest = .ok (items, rest) := by
  cases rest with
  | nil => rfl
  | cons tok rest =>
      cases tok with
      | sym mark =>
          cases mark with
          | comma => exact absurd rfl ends
          | _ => rfl
      | _ => rfl

/-- Items that are parsed one by one are parsed as a list. -/
theorem commaLoop_items {A B : Type} {item : Parser A} {toksOf : B -> List Tok} {result : B -> A}
    (reads : forall part rest, Follows rest -> item (toksOf part ++ rest) = .ok (result part, rest))
    {rest : List Tok} (follows : Follows rest) (ends : rest.head? ≠ some (.sym .comma)) (others : List B)
    (items : List A)
    (fuel : Nat) (enough : others.length < fuel) :
    commaLoop item fuel items (others.flatMap (fun part => .sym .comma :: toksOf part) ++ rest) =
      .ok (items ++ others.map result, rest) := by
  induction others generalizing items fuel with
  | nil =>
      cases fuel with
      | zero => cases enough
      | succ fuel =>
          rw [List.map_nil, List.append_nil]
          exact commaLoop_done ends fuel items
  | cons part others ih =>
      cases fuel with
      | zero => cases enough
      | succ fuel =>
          have next : Follows (others.flatMap (fun part => .sym .comma :: toksOf part) ++ rest) := by
            cases others with
            | nil => exact follows
            | cons other others => exact follows_comma _
          have later := ih (items ++ [result part]) fuel (Nat.lt_of_succ_lt_succ enough)
          rw [List.flatMap_cons, List.append_assoc, List.cons_append]
          change (item (toksOf part ++ (others.flatMap (fun part => .sym .comma :: toksOf part) ++ rest)) >>= _) = _
          rw [reads part _ next]
          change commaLoop item fuel (items ++ [result part]) _ = _
          rw [later, List.append_assoc, List.singleton_append, List.map_cons]

theorem length_le_flatMap {A : Type} (between : Tok) (toksOf : A -> List Tok) (others : List A) (rest : List Tok) :
    others.length ≤ (others.flatMap (fun part => between :: toksOf part) ++ rest).length := by
  induction others with
  | nil => exact Nat.zero_le _
  | cons part others ih =>
      rw [List.flatMap_cons, List.append_assoc, List.length_append, List.length_cons, List.length_cons]
      omega

theorem listOf_items {A B : Type} {item : Parser A} {toksOf : B -> List Tok} {result : B -> A}
    (reads : forall part rest, Follows rest -> item (toksOf part ++ rest) = .ok (result part, rest))
    {rest : List Tok} (follows : Follows rest) (ends : rest.head? ≠ some (.sym .comma)) (first : B) (others : List B) :
    listOf item (separated (.sym .comma) toksOf first others ++ rest) = .ok ((first :: others).map result, rest) := by
  have next : Follows (others.flatMap (fun part => .sym .comma :: toksOf part) ++ rest) := by
    cases others with
    | nil => exact follows
    | cons other others => exact follows_comma _
  have enough := length_le_flatMap (.sym .comma) toksOf others rest
  unfold listOf separated
  rw [List.append_assoc, reads first _ next]
  exact commaLoop_items reads follows ends others [result first] _ (Nat.lt_succ_of_le enough)

theorem assignment_cell (cell : Cell) {rest : List Tok} (follows : Follows rest) :
    assignment (assignmentToks cell ++ rest) = .ok (cellResolved cell, rest) := by
  change (value (cell.2.toks ++ rest) >>= _) = _
  rw [value_literal cell.2 follows]
  rfl

theorem condition_cell (cell : Cell) {rest : List Tok} (follows : Follows rest) :
    condition (conditionToks cell ++ rest) = .ok (some (cellResolved cell), rest) := by
  rcases cell with ⟨name, literal⟩
  have compared : condition (assignmentToks (name, literal) ++ rest) =
      .ok (some (String.ofList name, literal.resolved), rest) := by
    change (value (literal.toks ++ rest) >>= _) = _
    rw [value_literal literal follows]
    rfl
  cases literal with
  | null => rfl
  | _ => exact compared

theorem conditionToks_cons (cell : Cell) : exists more, conditionToks cell = .ident cell.1 :: more := by
  rcases cell with ⟨name, literal⟩
  cases literal <;> exact ⟨_, rfl⟩

/-- Conditions up to the end of the statement. -/
theorem conditionsLoop_cells (first : Cell) (others : List Cell) (out : Image) (fuel : Nat)
    (enough : others.length < fuel) :
    conditionsLoop none fuel out (separated (keyword "and") conditionToks first others) =
      .ok (out ++ (first :: others).map cellResolved, []) := by
  induction others generalizing first out fuel with
  | nil =>
      cases fuel with
      | zero => cases enough
      | succ fuel =>
          have read := condition_cell first follows_nil
          have running : stopsConditions none (conditionToks first ++ []) = false := by
            rcases conditionToks_cons first with ⟨more, shape⟩
            rw [shape]
            rfl
          unfold separated
          rw [List.flatMap_nil, conditionsLoop, running, if_neg Bool.false_ne_true, read]
          rfl
  | cons next others ih =>
      cases fuel with
      | zero => cases enough
      | succ fuel =>
          have shape : separated (keyword "and") conditionToks first (next :: others) =
              conditionToks first ++ (keyword "and" :: separated (keyword "and") conditionToks next others) := rfl
          have read := condition_cell first
            (follows_word "and".toList (separated (keyword "and") conditionToks next others))
          have running : stopsConditions none
              (conditionToks first ++ (keyword "and" :: separated (keyword "and") conditionToks next others)) =
                false := by
            rcases conditionToks_cons first with ⟨more, shape⟩
            rw [shape]
            rfl
          have later := ih next (out ++ [cellResolved first]) fuel (Nat.lt_of_succ_lt_succ enough)
          rw [shape, conditionsLoop, running, if_neg Bool.false_ne_true]
          change (condition (conditionToks first ++ (.word "and".toList :: _)) >>= _) = _
          rw [read]
          change conditionsLoop none fuel (out ++ [cellResolved first]) _ = _
          rw [later, List.append_assoc, List.singleton_append]
          rfl

theorem length_lt_separated (first : Cell) (others : List Cell) :
    others.length < (separated (keyword "and") conditionToks first others).length := by
  have between := length_le_flatMap (keyword "and") conditionToks others []
  rcases conditionToks_cons first with ⟨more, shape⟩
  unfold separated
  rw [List.append_nil] at between
  rw [List.length_append, shape, List.length_cons]
  omega

theorem whereClause_cells (cells : List Cell) : whereClause (whereToks cells) = .ok (cells.map cellResolved, []) := by
  cases cells with
  | nil => rfl
  | cons first others =>
      have enough := length_lt_separated first others
      exact conditionsLoop_cells first others [] _ (Nat.lt_succ_of_lt enough)

/-! ### Parsing statements -/

theorem follows_whereToks (cells : List Cell) :
    Follows (whereToks cells) ∧ (whereToks cells).head? ≠ some (.sym .comma) := by
  cases cells with
  | nil => exact ⟨follows_nil, fun same => nomatch same⟩
  | cons first others => exact ⟨follows_word _ _, fun same => nomatch same⟩

theorem parseInsert_toks (owner table : List Char) (first : Cell) (others : List Cell) :
    parseInsert (Statement.insert owner table first others).toks.tail =
      .ok ((Statement.insert owner table first others).dml, []) := by
  have columns : listOf ident (separated (.sym .comma) (fun cell : Cell => [.ident cell.1]) first others ++
      (.sym .rightParen :: keyword "values" :: .sym .leftParen ::
        (separated (.sym .comma) (fun cell => cell.2.toks) first others ++ [.sym .rightParen]))) =
      .ok ((first :: others).map (fun cell => String.ofList cell.1), .sym .rightParen :: keyword "values" ::
        .sym .leftParen :: (separated (.sym .comma) (fun cell => cell.2.toks) first others ++ [.sym .rightParen])) :=
    listOf_items (fun _ _ _ => rfl) (follows_rightParen _) (fun same => nomatch same) first others
  have values : listOf value (separated (.sym .comma) (fun cell : Cell => cell.2.toks) first others ++
      [.sym .rightParen]) = .ok ((first :: others).map (fun cell => cell.2.resolved), [.sym .rightParen]) :=
    listOf_items (fun cell _ follows => value_literal cell.2 follows) (follows_rightParen _)
      (fun same => nomatch same) first others
  change (listOf ident (separated (.sym .comma) (fun cell : Cell => [.ident cell.1]) first others ++ _) >>= _) = _
  rw [columns]
  change (listOf value (separated (.sym .comma) (fun cell : Cell => cell.2.toks) first others ++ _) >>= _) = _
  rw [values]
  change (if ((first :: others).map _).length ≠ ((first :: others).map _).length then _ else _) = _
  rw [List.length_map, List.length_map, if_neg (not_not_intro rfl), List.zip_map']
  rfl

theorem parseUpdate_toks (owner table : List Char) (first : Cell) (others conditions : List Cell) :
    parseUpdate (Statement.update owner table first others conditions).toks.tail =
      .ok ((Statement.update owner table first others conditions).dml, []) := by
  rcases follows_whereToks conditions with ⟨follows, ends⟩
  have assigned : listOf assignment (separated (.sym .comma) assignmentToks first others ++ whereToks conditions) =
      .ok ((first :: others).map cellResolved, whereToks conditions) :=
    listOf_items (fun cell _ follows => assignment_cell cell follows) follows ends first others
  change (listOf assignment (separated (.sym .comma) assignmentToks first others ++ whereToks conditions) >>= _) = _
  rw [assigned]
  change (whereClause (whereToks conditions) >>= _) = _
  rw [whereClause_cells]
  rfl

theorem parseDelete_toks (owner table : List Char) (conditions : List Cell) :
    parseDelete (Statement.delete owner table conditions).toks.tail =
      .ok ((Statement.delete owner table conditions).dml, []) := by
  change (whereClause (whereToks conditions) >>= _) = _
  rw [whereClause_cells]
  rfl

/-- The tokens of a statement are parsed to it. -/
theorem parseTokens_toks (sql : List Char) (statement : Statement) :
    parseTokens sql statement.toks = .ok statement.dml := by
  cases statement with
  | insert owner table first others =>
      change (parseInsert (Statement.insert owner table first others).toks.tail >>= _) = _
      rw [parseInsert_toks]
      rfl
  | update owner table first others conditions =>
      change (parseUpdate (Statement.update owner table first others conditions).toks.tail >>= _) = _
      rw [parseUpdate_toks]
      rfl
  | delete owner table conditions =>
      change (parseDelete (Statement.delete owner table conditions).toks.tail >>= _) = _
      rw [parseDelete_toks]
      rfl

end OracleCdc
end FaucetStream
