import FaucetStream.Json.Decimal
import FaucetStream.Library.Hex
import FaucetStream.Library.Utf16

namespace FaucetStream
namespace OracleCdc

open Json Library

/-!
# Redo statements

The text of a redo row is cut into tokens and then parsed with one token in
sight.  Texts are lists of characters.

What Unicode calls alphanumeric is left to a parameter.
-/

/-- A literal of redo text, before it is typed against its column. -/
inductive Resolved where
  | null
  | text (value : String)
  | bytes (value : List UInt8)
  /-- The content follows as writes. -/
  | emptyLob
  deriving DecidableEq

/-- Columns with their values, in order. -/
abbrev Image := List (String × Resolved)

inductive DmlKind where
  | insert
  | update
  | delete
  deriving DecidableEq

structure Dml where
  kind : DmlKind
  owner : String
  table : String
  /-- Inserted values or assignments. -/
  set : Image
  /-- The before image. -/
  conditions : Image
  deriving DecidableEq

inductive Sym where
  | leftParen
  | rightParen
  | comma
  | equals
  | dot
  | semicolon
  | bars
  | assigns
  deriving DecidableEq

inductive Tok where
  | ident (name : List Char)
  | str (text : List Char)
  | word (text : List Char)
  | sym (sym : Sym)
  deriving DecidableEq

/-- What is wrong with a statement; each holds what its message shows. -/
inductive RedoError where
  | unterminatedIdentifier
  | unterminatedLiteral
  | unexpectedCharacter (character : Char)
  | expectedWord (word : String) (found : Option Tok)
  | expectedSym (sym : Sym) (found : Option Tok)
  | expectedIdentifier (found : Option Tok)
  | unexpectedValue (found : Option Tok)
  | concatenatedRaw
  | invalidHex (text : String)
  | unsupportedFunction (name : List Char)
  | loneSurrogate
  | truncatedEscape
  | badEscape (hex : List Char)
  | countMismatch (columns values : Nat)
  | notDml (start : List Char)
  | trailing (tok : Tok)
  /-- The recursion of the model ended early; the source has no such error. -/
  | unfinished
  deriving DecidableEq

/-! ## Tokens -/

/-- The characters that count as letters or digits: those of ASCII among them,
and no whitespace. -/
structure Alphanumeric where
  holds : Char -> Bool
  ascii : forall character, character.toNat < 128 -> holds character = character.isAlphanum
  visible : forall character, isWhitespace character = true -> holds character = false

def scanIdent (rest : List Char) : Except RedoError (Tok × List Char) :=
  match rest.dropWhile (· != '"') with
  | [] => .error .unterminatedIdentifier
  | _ :: remaining => .ok (.ident (rest.takeWhile (· != '"')), remaining)

/-- A literal after its first quote; two quotes stand for one. -/
def scanString (text : List Char) : List Char -> Except RedoError (Tok × List Char)
  | [] => .error .unterminatedLiteral
  | '\'' :: '\'' :: rest => scanString (text ++ ['\'']) rest
  | '\'' :: rest => .ok (.str text, rest)
  | character :: rest => scanString (text ++ [character]) rest

/-- Whether a number goes on; a sign belongs to it right after an `e`. -/
def continuesNumber (previous character : Char) : Bool :=
  let expSign := (character == '+' || character == '-') && (previous == 'e' || previous == 'E')
  character.isDigit || character == '.' || character == 'e' || character == 'E' || expSign

/-- The rest of a number. -/
def scanNumber (previous : Char) : List Char -> List Char × List Char
  | [] => ([], [])
  | character :: rest =>
      if continuesNumber previous character then
        let (more, remaining) := scanNumber character rest
        (character :: more, remaining)
      else ([], character :: rest)

def symOf : Char -> Option Sym
  | '(' => some .leftParen
  | ')' => some .rightParen
  | ',' => some .comma
  | '=' => some .equals
  | '.' => some .dot
  | ';' => some .semicolon
  | _ => none

def startsNumber (character : Char) (rest : List Char) : Bool :=
  character.isDigit || ((character == '-' || character == '+') &&
    (rest.head?.any (fun next => next.isDigit || next == '.')))

section Tokenizer

variable (alphanumeric : Alphanumeric)

def isWordChar (character : Char) : Bool :=
  alphanumeric.holds character || character == '_' || character == '$' || character == '#'

/-- One token, or none where the character is whitespace. -/
def scan (character : Char) (rest : List Char) : Except RedoError (Option Tok × List Char) :=
  if isWhitespace character then .ok (none, rest)
  else if character = '"' then (scanIdent rest).map (fun found => (some found.1, found.2))
  else if character = '\'' then (scanString [] rest).map (fun found => (some found.1, found.2))
  else match symOf character with
    | some sym => .ok (some (.sym sym), rest)
    | none =>
        if character = '|' ∧ rest.head? = some '|' then .ok (some (.sym .bars), rest.tail)
        else if character = ':' ∧ rest.head? = some '=' then .ok (some (.sym .assigns), rest.tail)
        else if startsNumber character rest then
          let (more, remaining) := scanNumber character rest
          .ok (some (.word (character :: more)), remaining)
        else if isWordChar alphanumeric character then
          .ok (some (.word (character :: rest.takeWhile (isWordChar alphanumeric))),
            rest.dropWhile (isWordChar alphanumeric))
        else .error (.unexpectedCharacter character)

theorem scanString_length {text rest remaining : List Char} {tok : Tok}
    (scanned : scanString text rest = .ok (tok, remaining)) : remaining.length ≤ rest.length := by
  fun_induction scanString text rest with
  | case1 => cases scanned
  | case2 text rest ih =>
      have shorter := ih scanned
      rw [List.length_cons, List.length_cons]
      omega
  | case3 text rest different =>
      cases scanned
      exact Nat.le_succ _
  | case4 text character rest different other ih =>
      have shorter := ih scanned
      rw [List.length_cons]
      omega

theorem scanNumber_length (previous : Char) (rest : List Char) :
    (scanNumber previous rest).2.length ≤ rest.length := by
  fun_induction scanNumber previous rest with
  | case1 => exact le_rfl
  | case2 previous character rest continues more remaining split ih =>
      rw [split] at ih
      exact Nat.le_succ_of_le ih
  | case3 previous character rest stops => exact le_rfl

theorem scanIdent_length {rest remaining : List Char} {tok : Tok} (scanned : scanIdent rest = .ok (tok, remaining)) :
    remaining.length ≤ rest.length := by
  unfold scanIdent at scanned
  split at scanned
  · cases scanned
  · next found shape =>
      cases scanned
      have shorter := (List.dropWhile_suffix (· != '"') (l := rest)).length_le
      rw [shape, List.length_cons] at shorter
      omega

theorem map_eq_ok {A B : Type} {scanned : Except RedoError A} {convert : A -> B} {result : B}
    (mapped : scanned.map convert = .ok result) : exists found, scanned = .ok found ∧ convert found = result := by
  cases scanned with
  | error cause => cases mapped
  | ok found => exact ⟨found, rfl, Except.ok.inj mapped⟩

theorem scan_length {character : Char} {rest remaining : List Char} {tok : Option Tok}
    (scanned : scan alphanumeric character rest = .ok (tok, remaining)) : remaining.length ≤ rest.length := by
  have tail : rest.tail.length ≤ rest.length := by
    rw [List.length_tail]
    exact Nat.sub_le _ _
  unfold scan at scanned
  split at scanned
  · cases scanned
    exact le_rfl
  split at scanned
  · rcases map_eq_ok scanned with ⟨⟨found, after⟩, whole, same⟩
    cases same
    exact scanIdent_length whole
  split at scanned
  · rcases map_eq_ok scanned with ⟨⟨found, after⟩, whole, same⟩
    cases same
    exact scanString_length whole
  split at scanned
  · cases scanned
    exact le_rfl
  split at scanned
  · cases scanned
    exact tail
  split at scanned
  · cases scanned
    exact tail
  split at scanned
  · cases scanned
    exact scanNumber_length character rest
  split at scanned
  · cases scanned
    exact (List.dropWhile_suffix _).length_le
  · cases scanned

def tokenize (text : List Char) : Except RedoError (List Tok) :=
  match text with
  | [] => .ok []
  | character :: rest =>
      match _scanned : scan alphanumeric character rest with
      | .error cause => .error cause
      | .ok (tok, remaining) => do
          let toks ← tokenize remaining
          .ok (tok.toList ++ toks)
termination_by text.length
decreasing_by
  have shorter := scan_length alphanumeric _scanned
  rw [List.length_cons]
  omega

end Tokenizer

/-! ## Values -/

/-- `eq_ignore_ascii_case`. -/
def sameWord (text : List Char) (word : String) : Bool := text.map Char.toLower == word.toList.map Char.toLower

/-- What a part of the parser makes of the tokens before it. -/
abbrev Parser (A : Type) := List Tok -> Except RedoError (A × List Tok)

def word (expected : String) : List Tok -> Except RedoError (List Tok)
  | .word text :: rest =>
      if sameWord text expected then .ok rest else .error (.expectedWord expected (some (.word text)))
  | toks => .error (.expectedWord expected toks.head?)

def sym (expected : Sym) : List Tok -> Except RedoError (List Tok)
  | .sym found :: rest =>
      if found = expected then .ok rest else .error (.expectedSym expected (some (.sym found)))
  | toks => .error (.expectedSym expected toks.head?)

def ident : Parser String
  | .ident name :: rest => .ok (String.ofList name, rest)
  | toks => .error (.expectedIdentifier toks.head?)

/-- Owner and table; a table may stand alone. -/
def tableRef (toks : List Tok) : Except RedoError ((String × String) × List Tok) := do
  let (first, rest) ← ident toks
  match rest with
  | .sym .dot :: rest => do
      let (table, rest) ← ident rest
      .ok ((first, table), rest)
  | _ => .ok (("", first), rest)

def concatText : Resolved -> Except RedoError String
  | .null => .ok ""
  | .emptyLob => .ok ""
  | .text text => .ok text
  | .bytes _ => .error .concatenatedRaw

def concat (left right : Resolved) : Except RedoError Resolved := do
  let first ← concatText left
  let second ← concatText right
  .ok (.text (first ++ second))

/-- Pairs of hexadecimal digits, without the whitespace around them. -/
def hexPairs : List Char -> Option (List UInt8)
  | [] => some []
  | [_] => none
  | high :: low :: rest => do
      let byte ← fromStrRadix16 (2 ^ 8) [high, low]
      let bytes ← hexPairs rest
      some (UInt8.ofNat byte :: bytes)

def hexToBytes (text : List Char) : Option (List UInt8) := hexPairs (trim text)

def flushUnits (units : List UInt16) (out : List Char) : Except RedoError (List Char) :=
  if units.isEmpty then .ok out
  else match fromUtf16 units with
    | some text => .ok (out ++ text)
    | none => .error .loneSurrogate

/-- Escapes of UTF-16 units, gathered until something else comes. -/
def decodeUnistr (units : List UInt16) (out : List Char) : List Char -> Except RedoError (List Char)
  | [] => flushUnits units out
  | '\\' :: '\\' :: rest => do
      let out ← flushUnits units out
      decodeUnistr [] (out ++ ['\\']) rest
  | '\\' :: first :: second :: third :: fourth :: rest =>
      match fromStrRadix16 (2 ^ 16) [first, second, third, fourth] with
      | some unit => decodeUnistr (units ++ [UInt16.ofNat unit]) out rest
      | none => .error (.badEscape [first, second, third, fourth])
  | '\\' :: _ => .error .truncatedEscape
  | character :: rest => do
      let out ← flushUnits units out
      decodeUnistr [] (out ++ [character]) rest

/-- The functions that stand for their first argument. -/
def CONVERSIONS : List String :=
  ["TO_DATE", "TO_TIMESTAMP", "TO_TIMESTAMP_TZ", "TO_DSINTERVAL", "TO_YMINTERVAL", "TO_NUMBER", "TO_BINARY_DOUBLE",
    "TO_BINARY_FLOAT", "TO_CHAR", "TO_NCHAR", "TO_CLOB", "TO_NCLOB"]

def applyFunction (name : List Char) (args : List Resolved) : Except RedoError Resolved :=
  let first := args.head?.getD .null
  let upper := String.ofList (name.map Char.toUpper)
  if CONVERSIONS.contains upper then .ok first
  else if upper = "HEXTORAW" then
    match first with
    | .text text =>
        match hexToBytes text.toList with
        | some bytes => .ok (.bytes bytes)
        | none => .error (.invalidHex text)
    | other => .ok other
  else if upper = "UNISTR" then
    match first with
    | .text text => do
        let decoded ← decodeUnistr [] [] text.toList
        .ok (.text (String.ofList decoded))
    | other => .ok other
  else if upper = "EMPTY_CLOB" ∨ upper = "EMPTY_BLOB" then .ok .emptyLob
  else .error (.unsupportedFunction (name.map Char.toUpper))

/-- More items, each after a comma. -/
def commaLoop {A : Type} (item : Parser A) : Nat -> List A -> Parser (List A)
  | 0, _, _ => .error .unfinished
  | fuel + 1, items, .sym .comma :: rest => do
      let (next, rest) ← item rest
      commaLoop item fuel (items ++ [next]) rest
  | _ + 1, items, toks => .ok (items, toks)

def listOf {A : Type} (item : Parser A) (toks : List Tok) : Except RedoError (List A × List Tok) := do
  let (first, rest) ← item toks
  commaLoop item (rest.length + 1) [first] rest

/-- The arguments of a call, up to its closing parenthesis. -/
def arguments (inner : Parser Resolved) : Parser (List Resolved)
  | .sym .rightParen :: rest => .ok ([], .sym .rightParen :: rest)
  | toks => listOf inner toks

def startsAsNumber (text : List Char) : Bool :=
  text.head?.any (fun character => character.isDigit || character == '-' || character == '+')

/-- One operand; the arguments of a call are values again. -/
def term (inner : Parser Resolved) : Parser Resolved
  | .str text :: rest => .ok (.text (String.ofList text), rest)
  | .word text :: rest =>
      if sameWord text "NULL" then .ok (.null, rest)
      else match rest with
        | .sym .leftParen :: inside => do
            let (args, rest) ← arguments inner inside
            let rest ← sym .rightParen rest
            let result ← applyFunction text args
            .ok (result, rest)
        | _ =>
            if startsAsNumber text then .ok (.text (String.ofList text), rest)
            else .error (.unexpectedValue (some (.word text)))
  | toks => .error (.unexpectedValue toks.head?)

/-- More operands, each after two bars. -/
def concatLoop (operand : Parser Resolved) : Nat -> Resolved -> Parser Resolved
  | 0, _, _ => .error .unfinished
  | fuel + 1, left, .sym .bars :: rest => do
      let (right, rest) ← operand rest
      let both ← concat left right
      concatLoop operand fuel both rest
  | _ + 1, left, toks => .ok (left, toks)

/-- A value whose calls are nested no deeper than this. -/
def valueWithin : Nat -> Parser Resolved
  | 0 => fun _ => .error .unfinished
  | depth + 1 => fun toks => do
      let (first, rest) ← term (valueWithin depth) toks
      concatLoop (term (valueWithin depth)) (rest.length + 1) first rest

def value (toks : List Tok) : Except RedoError (Resolved × List Tok) := valueWithin (toks.length + 1) toks

/-! ## Statements -/

/-- One condition.  `ROWID = v` is read and dropped. -/
def condition (toks : List Tok) : Except RedoError (Option (String × Resolved) × List Tok) :=
  match toks with
  | .word text :: rest =>
      if sameWord text "ROWID" then do
        let rest ← sym .equals rest
        let (_, rest) ← value rest
        .ok (none, rest)
      else .error (.expectedIdentifier (some (.word text)))
  | toks => do
      let (col, rest) ← ident toks
      match rest with
      | .word text :: more =>
          if sameWord text "IS" then do
            let rest ← word "NULL" more
            .ok (some (col, .null), rest)
          else .error (.expectedSym .equals (some (.word text)))
      | rest => do
          let rest ← sym .equals rest
          let (found, rest) ← value rest
          .ok (some (col, found), rest)

/-- Where conditions end before anything else is looked at. -/
def stopsConditions (stop : Option String) : List Tok -> Bool
  | [] => true
  | .sym .semicolon :: _ => true
  | .word text :: _ => stop.any (sameWord text)
  | _ => false

def conditionsLoop (stop : Option String) : Nat -> Image -> Parser Image
  | 0, _, _ => .error .unfinished
  | fuel + 1, out, toks =>
      if stopsConditions stop toks then .ok (out, toks)
      else do
        let (found, rest) ← condition toks
        match rest with
        | .word text :: more =>
            if sameWord text "and" then conditionsLoop stop fuel (out ++ found.toList) more
            else .ok (out ++ found.toList, rest)
        | _ => .ok (out ++ found.toList, rest)

def conditions (stop : Option String) (toks : List Tok) : Except RedoError (Image × List Tok) :=
  conditionsLoop stop (toks.length + 1) [] toks

/-- The conditions after `where`, none without it. -/
def whereClause : Parser Image
  | .word text :: rest => if sameWord text "where" then conditions none rest else .ok ([], .word text :: rest)
  | toks => .ok ([], toks)

def assignment (toks : List Tok) : Except RedoError ((String × Resolved) × List Tok) := do
  let (col, rest) ← ident toks
  let rest ← sym .equals rest
  let (found, rest) ← value rest
  .ok ((col, found), rest)

def parseInsert (toks : List Tok) : Except RedoError (Dml × List Tok) := do
  let rest ← word "into" toks
  let ((owner, table), rest) ← tableRef rest
  let rest ← sym .leftParen rest
  let (cols, rest) ← listOf ident rest
  let rest ← sym .rightParen rest
  let rest ← word "values" rest
  let rest ← sym .leftParen rest
  let (vals, rest) ← listOf value rest
  let rest ← sym .rightParen rest
  if cols.length ≠ vals.length then .error (.countMismatch cols.length vals.length)
  else .ok (⟨.insert, owner, table, cols.zip vals, []⟩, rest)

def parseUpdate (toks : List Tok) : Except RedoError (Dml × List Tok) := do
  let ((owner, table), rest) ← tableRef toks
  let rest ← word "set" rest
  let (set, rest) ← listOf assignment rest
  let (conditions, rest) ← whereClause rest
  .ok (⟨.update, owner, table, set, conditions⟩, rest)

def parseDelete (toks : List Tok) : Except RedoError (Dml × List Tok) := do
  let rest ← word "from" toks
  let ((owner, table), rest) ← tableRef rest
  let (conditions, rest) ← whereClause rest
  .ok (⟨.delete, owner, table, [], conditions⟩, rest)

def expectEnd : List Tok -> Except RedoError Unit
  | [] => .ok ()
  | .sym .semicolon :: rest => expectEnd rest
  | tok :: _ => .error (.trailing tok)

/-- A statement, by its first word. -/
def statement (sql : List Char) : Parser Dml
  | .word text :: rest =>
      if sameWord text "insert" then parseInsert rest
      else if sameWord text "update" then parseUpdate rest
      else if sameWord text "delete" then parseDelete rest
      else .error (.notDml (sql.take 120))
  | _ => .error (.notDml (sql.take 120))

def parseTokens (sql : List Char) (toks : List Tok) : Except RedoError Dml := do
  let (dml, rest) ← statement sql toks
  expectEnd rest
  .ok dml

def parseDml (alphanumeric : Alphanumeric) (sql : List Char) : Except RedoError Dml := do
  let toks ← tokenize alphanumeric sql
  parseTokens sql toks

end OracleCdc
end FaucetStream
