import FaucetStream.OracleCdc.Lob

namespace FaucetStream
namespace OracleCdc

/-!
# Statements that write large objects

A write to a large object is logged as a block: the locator is selected, the
data is put into a buffer, and calls of `dbms_lob` write the buffer or trim the
object.  Everything else in the block is passed by.
-/

/-- What is wrong with a block; each holds what its message shows. -/
inductive LobError where
  | redo (cause : RedoError)
  | expectedCall (found : Option Tok)
  | unexpectedArgument (found : Option Tok)
  | badArgument (call : List Char) (index : Nat)
  | writeBeforeBuffer
  | unsupportedCall (call : List Char)
  | noLocator
  deriving DecidableEq

/-- What has been read of a block. -/
structure LobScan where
  /-- Owner, table, column and conditions. -/
  target : Option (String × String × String × Image) := none
  buffer : Option Resolved := none
  writes : List LobPiece := []
  trim : Option Nat := none

def redone {A : Type} (result : Except RedoError A) : Except LobError A := result.mapError LobError.redo

/-- `parse::<u64>()`. -/
def parseU64 (text : List Char) : Option Nat :=
  let digits := match text with
    | '+' :: rest => rest
    | plain => plain
  if digits.isEmpty || !digits.all Char.isDigit then none
  else
    let value := Nat.ofDigitChars 10 digits 0
    if value < 2 ^ 64 then some value else none

/-- Column, table and conditions of the locator. -/
def lobTarget (toks : List Tok) : Except LobError ((String × String × String × Image) × List Tok) := do
  let (column, rest) ← redone (ident toks)
  let rest ← redone (word "into" rest)
  let rest ← redone (word "from" rest.tail)
  let ((owner, table), rest) ← redone (tableRef rest)
  match rest with
  | .word text :: more =>
      if sameWord text "where" then do
        let (found, rest) ← redone (conditions (some "for") more)
        .ok ((owner, table, column, found), rest)
      else .ok ((owner, table, column, []), rest)
  | _ => .ok ((owner, table, column, []), rest)

/-- Words with commas anywhere between them, up to a closing parenthesis. -/
def lobArguments (args : List (List Char)) : List Tok -> Except LobError (List (List Char) × List Tok)
  | .sym .rightParen :: rest => .ok (args, rest)
  | .word text :: rest => lobArguments (args ++ [text]) rest
  | .sym .comma :: rest => lobArguments args rest
  | toks => .error (.unexpectedArgument toks.head?)

def lobNumber (call : List Char) (args : List (List Char)) (index : Nat) : Except LobError Nat :=
  match (args[index]?).bind parseU64 with
  | some number => .ok number
  | none => .error (.badArgument call index)

/-- A call of `dbms_lob`. -/
def lobCall (scan : LobScan) (toks : List Tok) : Except LobError (LobScan × List Tok) :=
  match toks with
  | .word text :: rest => do
      let call := text.map Char.toLower
      let rest ← redone (sym .leftParen rest)
      let (args, rest) ← lobArguments [] rest
      if call = "write".toList then do
        let offset ← lobNumber call args 2
        match scan.buffer with
        | some data => .ok ({ scan with writes := scan.writes ++ [⟨max offset 1, data⟩] }, rest)
        | none => .error .writeBeforeBuffer
      else if call = "trim".toList then do
        let length ← lobNumber call args 1
        .ok ({ scan with trim := some length }, rest)
      else .error (.unsupportedCall call)
  | toks => .error (.expectedCall toks.head?)

def isIdentTok : Option Tok -> Bool
  | some (.ident _) => true
  | _ => false

/-- The tokens of a block, one word at a time. -/
def lobLoop : Nat -> LobScan -> List Tok -> Except LobError LobScan
  | 0, _, _ => .error (.redo .unfinished)
  | _ + 1, scan, [] => .ok scan
  | fuel + 1, scan, .word text :: rest =>
      if sameWord text "select" && isIdentTok rest.head? then do
        let (target, rest) ← lobTarget rest
        lobLoop fuel { scan with target := some target } rest
      else if "buf_".toList.isPrefixOf (text.map Char.toLower) && decide (rest.head? = some (.sym .assigns)) then do
        let (found, rest) ← redone (value rest.tail)
        lobLoop fuel { scan with buffer := some found } rest
      else if sameWord text "dbms_lob" && decide (rest.head? = some (.sym .dot)) then do
        let (scan, rest) ← lobCall scan rest.tail
        lobLoop fuel scan rest
      else lobLoop fuel scan rest
  | fuel + 1, scan, _ :: rest => lobLoop fuel scan rest

def parseLobChange (alphanumeric : Alphanumeric) (sql : List Char) : Except LobError LobChange := do
  let toks ← redone (tokenize alphanumeric sql)
  let scan ← lobLoop (toks.length + 1) {} toks
  match scan.target with
  | some (owner, table, column, conditions) => .ok ⟨owner, table, column, conditions, scan.writes, scan.trim⟩
  | none => .error .noLocator

end OracleCdc
end FaucetStream
