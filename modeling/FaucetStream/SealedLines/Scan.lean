import FaucetStream.Error
import FaucetStream.Json.Decimal
import FaucetStream.Library.Utf8

namespace FaucetStream
namespace SealedLines

open Json
open Library

/-!
# Sealed line files

A sealed file opens with a header line that names the file, carries one sealed
line for each record, and closes every flush with a trailer line that states
how many records there are and a digest of their lines.  A reader goes through
the lines once and requires the file to end on a trailer that fits.  A writer
that continues a file drops what comes after the last trailer.
-/

/-- What a line was sealed as. -/
inductive Role where
  | data
  | header
  | trailer
  deriving DecidableEq

structure SealedLine where
  role : Role
  body : List UInt8

structure Header where
  version : Nat
  file : String

structure Trailer where
  file : String
  count : Nat
  sha256 : String

/-- `VERSION`. -/
def version : Nat := 2

/-- The encryption, the digest and the text formats.  A line is sealed for a
role under a nonce and written in base64; it opens in the role it was sealed
for.  The digest tells all inputs apart, and what is written reads back. -/
structure Sealing where
  sealText : Role -> List UInt8 -> Nat -> List Char
  sealedBytes : List Char -> Option (List UInt8)
  openLine : List UInt8 -> Except FaucetError SealedLine
  decrypt : List UInt8 -> Except FaucetError (List UInt8)
  sha256Hex : List UInt8 -> String
  writeHeader : Header -> List UInt8
  readHeader : List UInt8 -> Option Header
  writeTrailer : Trailer -> List UInt8
  readTrailer : List UInt8 -> Option Trailer
  fromUtf8Lossy : List UInt8 -> List Char
  opens : forall role body nonce, exists bytes, sealedBytes (sealText role body nonce) = some bytes ∧
    openLine bytes = .ok ⟨role, body⟩
  sealed_ne_nil : forall role body nonce, sealText role body nonce ≠ []
  sealed_visible : forall role body nonce character, character ∈ sealText role body nonce ->
    isWhitespace character = false
  sealed_ascii : forall role body nonce character, character ∈ sealText role body nonce -> character.toNat < 128
  sha256Hex_injective : Function.Injective sha256Hex
  readHeader_writeHeader : forall header, readHeader (writeHeader header) = some header
  readTrailer_writeTrailer : forall trailer, readTrailer (writeTrailer trailer) = some trailer
  fromUtf8Lossy_encodeUtf8 : forall text, fromUtf8Lossy (encodeUtf8 text) = text

/-! ## Writing -/

/-- The running state of one sealed file.  The digest is kept as the bytes it
was given. -/
structure LineSeal where
  file : String
  count : Nat
  digest : List UInt8
  deriving DecidableEq

variable (sealing : Sealing)

namespace LineSeal

def new (file : String) : LineSeal := ⟨file, 0, []⟩

def header (state : LineSeal) (nonce : Nat) : List Char :=
  sealing.sealText .header (sealing.writeHeader ⟨version, state.file⟩) nonce ++ ['\n']

/-- Fold a line into the digest. -/
def fold (state : LineSeal) (line : List Char) : LineSeal :=
  ⟨state.file, state.count + 1, state.digest ++ encodeUtf8 (line ++ ['\n'])⟩

/-- `seal`: the line of one record, and the state after it. -/
def sealRecord (state : LineSeal) (plain : List UInt8) (nonce : Nat) : LineSeal × List Char :=
  let line := sealing.sealText .data plain nonce
  (state.fold line, line ++ ['\n'])

/-- What a trailer states. -/
def trailerBody (state : LineSeal) : List UInt8 :=
  sealing.writeTrailer ⟨state.file, state.count, sealing.sha256Hex state.digest⟩

def trailer (state : LineSeal) (nonce : Nat) : List Char :=
  sealing.sealText .trailer (state.trailerBody sealing) nonce ++ ['\n']

end LineSeal

/-! ## Opening -/

inductive Opened where
  | whole (plain : List UInt8) (state : LineSeal) (bodyLen : Nat)
  | legacy (plain : List UInt8)
  | empty

def damaged (what : String) : FaucetError :=
  .source ("encrypted JSON Lines file failed its integrity check: " ++ what)

/-- A line of the file that is not blank: its number, where it starts, and
its trimmed text. -/
structure PlacedLine where
  number : Nat
  start : Nat
  text : List Char

/-- Number the lines, and leave the blank ones out. -/
def placeLines (number offset : Nat) : List (List Char) -> List PlacedLine
  | [] => []
  | line :: rest =>
      let later := placeLines (number + 1) (offset + (encodeUtf8 line).length) rest
      if (trim line).isEmpty then later else ⟨number, offset, trim line⟩ :: later

/-- `sealed_bytes`. -/
def sealedBytesOf (line : PlacedLine) : Except FaucetError (List UInt8) :=
  match sealing.sealedBytes line.text with
  | some bytes => .ok bytes
  | none =>
      .error (.source ("line " ++ toString line.number ++ " is not encrypted, but `encryption` is set — " ++
        "refusing to read plaintext as if it were authenticated"))

def openPlaced (line : PlacedLine) : Except FaucetError SealedLine :=
  match sealedBytesOf sealing line with
  | .error error => .error error
  | .ok bytes => sealing.openLine bytes

def verifyTrailer (body : List UInt8) (state : LineSeal) : Except FaucetError Unit :=
  match sealing.readTrailer body with
  | none => .error (damaged "a trailer is unreadable")
  | some trailer =>
      if trailer.file ≠ state.file then .error (damaged "a trailer belongs to another file")
      else if trailer.count ≠ state.count ∨ trailer.sha256 ≠ sealing.sha256Hex state.digest then
        .error (damaged ("a trailer records " ++ toString trailer.count ++ " line(s) where the file holds " ++
          toString state.count ++ " — lines were dropped, added, reordered or altered"))
      else .ok ()

/-- The state of a scan.  The last trailer that fitted is kept with the state,
the length of the plaintext and the offset it was found at. -/
structure ScanState where
  state : LineSeal
  plain : List UInt8
  settled : Option (LineSeal × Nat × Nat)
  endedOnTrailer : Bool

/-- One line after the header. -/
def scanLine (scan : ScanState) (line : PlacedLine) : Except FaucetError ScanState :=
  match openPlaced sealing line with
  | .error error => .error error
  | .ok ⟨.data, body⟩ =>
      .ok ⟨scan.state.fold line.text, scan.plain ++ body ++ [newlineByte], scan.settled, false⟩
  | .ok ⟨.header, _⟩ => .error (damaged ("line " ++ toString line.number ++ " is a second header"))
  | .ok ⟨.trailer, body⟩ =>
      match verifyTrailer sealing body scan.state with
      | .error error => .error error
      | .ok () => .ok ⟨scan.state, scan.plain, some (scan.state, scan.plain.length, line.start), true⟩

def isTrailerLine (line : PlacedLine) : Bool :=
  match openPlaced sealing line with
  | .ok ⟨.trailer, _⟩ => true
  | _ => false

/-- Drop what comes after the last trailer that fitted. -/
def recovered (settled : LineSeal × Nat × Nat) (plain : List UInt8) : Opened :=
  .whole (plain.take settled.2.1) settled.1 settled.2.2

/-- Only a crash tail is dropped: a trailer after the damage means that later
flushes finished. -/
def onDamage (recover : Bool) (rest : List PlacedLine) (scan : ScanState) (error : FaucetError) :
    Except FaucetError Opened :=
  match scan.settled with
  | some settled =>
      if recover && !rest.any (isTrailerLine sealing) then .ok (recovered settled scan.plain) else .error error
  | none => .error error

def scanLines (recover : Bool) : List PlacedLine -> ScanState -> Except FaucetError Opened
  | [], scan =>
      match scan.settled with
      | some settled =>
          if scan.endedOnTrailer then .ok (.whole scan.plain settled.1 settled.2.2)
          else if recover then .ok (recovered settled scan.plain)
          else .error (damaged "it ends without its trailer — the file was cut short")
      | none => .error (damaged "it ends without its trailer — the file was cut short")
  | line :: rest, scan =>
      match scanLine sealing scan line with
      | .ok next => scanLines recover rest next
      | .error error => onDamage sealing recover rest scan error

/-- Files written before the header existed open line by line. -/
def openLegacy : List PlacedLine -> List UInt8 -> Except FaucetError Opened
  | [], plain => .ok (.legacy plain)
  | line :: rest, plain =>
      match sealedBytesOf sealing line with
      | .error error => .error error
      | .ok bytes =>
          match sealing.decrypt bytes with
          | .error error => .error error
          | .ok body => openLegacy rest (plain ++ body ++ [newlineByte])

def scanText (text : List Char) (recover : Bool) : Except FaucetError Opened :=
  match placeLines 1 0 (everyLine '\n' text) with
  | [] => .ok .empty
  | first :: rest =>
      match sealedBytesOf sealing first with
      | .error error => .error error
      | .ok bytes =>
          match sealing.openLine bytes with
          | .ok ⟨.header, body⟩ =>
              match sealing.readHeader body with
              | some header =>
                  if header.version = version then
                    scanLines sealing recover rest ⟨LineSeal.new header.file, [], none, false⟩
                  else .error (damaged "its header is unreadable")
              | none => .error (damaged "its header is unreadable")
          | .ok ⟨.trailer, _⟩ => .error (damaged "it starts with its trailer")
          | _ => openLegacy sealing (first :: rest) []

/-- `open`. -/
def openSealed (raw : List UInt8) : Except FaucetError Opened :=
  match decodeUtf8 raw with
  | none => .error (.source "encrypted lines are not UTF-8")
  | some text => scanText sealing text false

def openForAppend (raw : List UInt8) : Except FaucetError Opened :=
  scanText sealing (sealing.fromUtf8Lossy raw) true

end SealedLines
end FaucetStream
