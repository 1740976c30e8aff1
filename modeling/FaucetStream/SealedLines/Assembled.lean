import FaucetStream.SealedLines.Files

namespace FaucetStream
namespace SealedLines

open Json
open Library

/-!
# Assembled lines

Lines of written files are put together in any order, with any of them left
out or repeated.  The digest in the last trailer fixes the record lines before
it, so they are those of the file the trailer was sealed for.
-/

variable (sealing : Sealing)

/-- The file id in a header line. -/
def namedFile (line : List UInt8) : Option String :=
  match decodeUtf8 line with
  | none => none
  | some text =>
      match openPlaced sealing ⟨1, 0, trim text⟩ with
      | .ok ⟨.header, body⟩ => (sealing.readHeader body).map Header.file
      | _ => none

theorem map_line_inj {left right : List Piece} (same : joined sealing left = joined sealing right) :
    left.map Piece.body = right.map Piece.body := by
  have lines : left.map (Piece.line sealing) = right.map (Piece.line sealing) := by
    have split := everyLine_joined sealing left (show '\n' ∉ [] from List.not_mem_nil)
    rw [List.append_nil, if_pos rfl, List.append_nil, same] at split
    have other := everyLine_joined sealing right (show '\n' ∉ [] from List.not_mem_nil)
    rw [List.append_nil, if_pos rfl, List.append_nil, split] at other
    exact other
  clear same
  induction left generalizing right with
  | nil =>
      rw [List.map_eq_nil_iff.mp lines.symm]
  | cons piece left ih =>
      cases right with
      | nil => cases lines
      | cons other right =>
          rw [List.map_cons, List.map_cons, List.cons.injEq] at lines
          have sameText : piece.text sealing = other.text sealing := List.append_cancel_right lines.1
          have opened := openPlaced_piece sealing 0 0 piece
          rw [sameText, openPlaced_piece] at opened
          injection opened with sameLine
          injection sameLine with sameRole sameBody
          rw [List.map_cons, List.map_cons, ih lines.2, sameBody]

theorem lines_consists {file : SealedFile} {nonce : Nat} {rest : List Piece}
    (consists : Consists sealing file nonce rest) :
    file.lines = (headerPiece sealing file.state.file nonce :: rest).map
      (fun piece => encodeUtf8 (piece.line sealing)) := by
  have split := everyLine_joined sealing (headerPiece sealing file.state.file nonce :: rest)
    (show '\n' ∉ [] from List.not_mem_nil)
  rw [List.append_nil, if_pos rfl, List.append_nil] at split
  have bytes := everyFrom_encodeUtf8 [] (joined sealing (headerPiece sealing file.state.file nonce :: rest))
  unfold SealedFile.lines everyLine
  rw [consists.raw]
  refine bytes.trans ?_
  rw [everyLine] at split
  rw [split, List.map_map]
  rfl

/-- Where a line comes from. -/
def Origin (files : List SealedFile) (piece : Piece) : Prop :=
  exists file nonce rest, file ∈ files ∧ Consists sealing file nonce rest ∧
    piece ∈ headerPiece sealing file.state.file nonce :: rest

/-- Lines taken from files are sealed lines of these files. -/
theorem taken_pieces {files : List SealedFile} (written : Written sealing files) {taken : List (List UInt8)}
    (lines : forall line, line ∈ taken -> exists file, file ∈ files ∧ line ∈ file.lines) :
    exists pieces : List Piece, taken = pieces.map (fun piece => encodeUtf8 (piece.line sealing)) ∧
      forall piece, piece ∈ pieces -> Origin sealing files piece := by
  induction taken with
  | nil =>
      refine ⟨[], rfl, ?_⟩
      intro piece member
      cases member
  | cons line taken ih =>
      rcases ih (fun other member => lines other (List.mem_cons_of_mem line member)) with
        ⟨pieces, rfl, origins⟩
      rcases lines line List.mem_cons_self with ⟨file, isFile, isLine⟩
      rcases written.consists sealing file isFile with ⟨nonce, rest, consists⟩
      rw [lines_consists sealing consists] at isLine
      rcases List.mem_map.mp isLine with ⟨piece, inside, rfl⟩
      refine ⟨piece :: pieces, rfl, ?_⟩
      intro other member
      rcases List.mem_cons.mp member with rfl | later
      · exact ⟨file, nonce, rest, isFile, consists, inside⟩
      · exact origins other later

theorem flatten_lines (pieces : List Piece) :
    (pieces.map (fun piece => encodeUtf8 (piece.line sealing))).flatten = encodeUtf8 (joined sealing pieces) := by
  induction pieces with
  | nil => rfl
  | cons piece rest ih =>
      rw [List.map_cons, List.flatten_cons, ih, joined_cons, encodeUtf8_append]

theorem openSealed_joined (pieces : List Piece) :
    openSealed sealing (encodeUtf8 (joined sealing pieces)) = scanText sealing (joined sealing pieces) false := by
  unfold openSealed
  rw [decodeUtf8_encodeUtf8]

theorem placeLines_joined (pieces : List Piece) :
    placeLines 1 0 (everyLine '\n' (joined sealing pieces)) = placePieces sealing 1 0 pieces := by
  have split := everyLine_joined sealing pieces (show '\n' ∉ [] from List.not_mem_nil)
  rw [List.append_nil, if_pos rfl] at split
  rw [split, placeLines_pieces]
  exact List.append_nil _

theorem namedFile_line {piece : Piece} {body : List UInt8} {header : Header} (role : piece.role = .header)
    (isBody : piece.body = body) (read : sealing.readHeader body = some header) :
    namedFile sealing (encodeUtf8 (piece.line sealing)) = some header.file := by
  unfold namedFile
  rw [decodeUtf8_encodeUtf8]
  simp only [Piece.line, (trim_visible (piece_visible sealing piece)).2, openPlaced_piece, role, isBody, read]
  rfl

/-- A trailer that fits after some lines was sealed in its file after the same
records. -/
theorem fits_origin {files : List SealedFile} {trailer : Piece} (origin : Origin sealing files trailer)
    (isTrailer : trailer.role = .trailer) {name : String} {before : List Piece}
    (fits : verifyTrailer sealing trailer.body (stateOf sealing name before) = .ok ()) :
    exists file, file ∈ files ∧ name = file.state.file ∧ exists count, count ∈ file.flushes ∧
      count ≤ file.records.length ∧ plainOf before = recordLines (file.records.take count) := by
  rcases origin with ⟨file, nonce, rest, isFile, consists, inside⟩
  have inRest : trailer ∈ rest := by
    rcases List.mem_cons.mp inside with rfl | later
    · cases isTrailer
    · exact later
  rcases List.mem_iff_append.mp inRest with ⟨earlier, later, split⟩
  have stated := consists.trailed.stated earlier trailer later split isTrailer
  rw [verifyTrailer_ok_iff, stated, LineSeal.trailerBody, sealing.readTrailer_writeTrailer] at fits
  injection fits with sameTrailer
  injection sameTrailer with sameName sameCount sameDigest
  have sameLines : joined sealing (dataOf earlier) = joined sealing (dataOf before) :=
    encodeUtf8_injective (sealing.sha256Hex_injective sameDigest)
  have sameRecords := map_line_inj sealing sameLines
  have first : file.records.take (dataOf earlier).length = (dataOf earlier).map Piece.body := by
    rw [consists.records, split, dataOf_append, List.map_append, ← List.length_map Piece.body, List.take_left]
  refine ⟨file, isFile, sameName.symm, (dataOf earlier).length,
    consists.flushes earlier trailer later split isTrailer, ?_, ?_⟩
  · rw [consists.records, split, dataOf_append, List.map_append, List.length_append, List.length_map]
    exact Nat.le_add_right _ _
  · rw [first, sameRecords]
    exact plainOf_records rfl

/-- A header and lines that end on a trailer open to all their records. -/
theorem openSealed_trailed {name : String} {nonce : Nat} {pieces : List Piece} {last : Piece}
    (trailed : Trailed sealing name (pieces ++ [last])) (isTrailer : last.role = .trailer) :
    exists bodyLen,
      openSealed sealing (encodeUtf8 (joined sealing (headerPiece sealing name nonce :: (pieces ++ [last])))) =
        .ok (.whole (plainOf (pieces ++ [last])) (stateOf sealing name (pieces ++ [last])) bodyLen) := by
  rcases sealing.opens .header (sealing.writeHeader ⟨version, name⟩) nonce with ⟨bytes, found, opened⟩
  have bytesFound : sealedBytesOf sealing ⟨1, 0, (headerPiece sealing name nonce).text sealing⟩ = .ok bytes := by
    unfold sealedBytesOf
    simp only [headerPiece, Piece.text, found]
  rw [openSealed_joined]
  unfold scanText
  rw [placeLines_joined, placePieces]
  simp only [bytesFound, opened, sealing.readHeader_writeHeader, if_true]
  apply scanLines_trailed sealing (tracks_start sealing name none) trailed
  · intro impossible
    exact absurd impossible (List.append_ne_nil_of_right_ne_nil pieces (List.cons_ne_nil last []))
  · intro final isFinal
    have ending : (pieces ++ [last]).getLast? = some final := isFinal
    rw [List.getLast?_append] at ending
    cases ending
    exact isTrailer
  · intro impossible
    cases impossible

/-- A file right after a flush opens to all its records. -/
theorem openSealed_flush {file : SealedFile} {nonce : Nat} {rest : List Piece}
    (consists : Consists sealing file nonce rest) (fresh : Nat) :
    exists bodyLen, openSealed sealing (file.flush sealing fresh).raw =
      .ok (.whole (recordLines file.records) file.state bodyLen) := by
  have grown := consists_flush sealing consists fresh
  rcases openSealed_trailed sealing grown.trailed rfl with ⟨bodyLen, opened⟩
  rw [plainOf_records grown.records, ← grown.state, ← grown.raw] at opened
  exact ⟨bodyLen, opened⟩

/-- Whatever is assembled from lines of sealed files opens only as the records
up to the end of some flush of the file its header names; and a file right
after a flush opens to all its records. -/
theorem assembled_opens_as_flushed {files : List SealedFile} (written : Written sealing files) :
    (forall taken : List (List UInt8),
      (forall line, line ∈ taken -> exists file, file ∈ files ∧ line ∈ file.lines) ->
      forall plain state bodyLen, openSealed sealing taken.flatten = .ok (.whole plain state bodyLen) ->
        exists file, file ∈ files ∧ taken.head?.bind (namedFile sealing) = some file.state.file ∧
          exists count, count ∈ file.flushes ∧ count ≤ file.records.length ∧
            plain = recordLines (file.records.take count)) ∧
    (forall file, file ∈ files -> forall nonce, exists bodyLen,
      openSealed sealing (file.flush sealing nonce).raw =
        .ok (.whole (recordLines file.records) file.state bodyLen)) := by
  constructor
  · intro taken lines plain state bodyLen opened
    rcases taken_pieces sealing written lines with ⟨pieces, rfl, origins⟩
    rw [flatten_lines, openSealed_joined] at opened
    rcases scanText_whole sealing opened with ⟨first, rest, body, header, placed, opens, read, scanned⟩
    rw [placeLines_joined] at placed
    cases pieces with
    | nil => cases placed
    | cons head pieces =>
        rw [placePieces] at placed
        cases placed
        rw [openPlaced_piece] at opens
        injection opens with sameLine
        injection sameLine with isHeader isBody
        rcases scanLines_whole sealing (tracks_start sealing header.file none) scanned with ⟨isPlain, ends⟩
        rcases ends with ⟨-, impossible⟩ | ⟨before, last, rfl, isTrailer, fits⟩
        · cases impossible
        · have origin := origins last (List.mem_cons_of_mem head (List.mem_append_right before List.mem_cons_self))
          rw [List.nil_append] at fits isPlain
          rcases fits_origin sealing origin isTrailer fits with ⟨file, isFile, named, count, flushed, bounded, same⟩
          have other : last.role ≠ .data := by
            rw [isTrailer]
            decide
          refine ⟨file, isFile, ?_, count, flushed, bounded, ?_⟩
          · rw [← named]
            exact namedFile_line sealing isHeader isBody read
          · rw [isPlain, plainOf_other other, same]
  · intro file isFile nonce
    rcases written.consists sealing file isFile with ⟨headerNonce, rest, consists⟩
    exact openSealed_flush sealing consists nonce

/-! ## A sealing that can be evaluated -/

/-- A byte as two letters from `a` to `p`. -/
def byteLetters (byte : UInt8) : List Char :=
  [Char.ofNat (97 + byte.toNat / 16), Char.ofNat (97 + byte.toNat % 16)]

def letterText (bytes : List UInt8) : List Char := bytes.flatMap byteLetters

def readLetters : List Char -> List UInt8
  | high :: low :: rest => UInt8.ofNat ((high.toNat - 97) * 16 + (low.toNat - 97)) :: readLetters rest
  | _ => []

theorem letter_toNat {value : Nat} (small : value < 16) : (Char.ofNat (97 + value)).toNat = 97 + value := by
  have every : forall digit : Fin 16, (Char.ofNat (97 + digit.val)).toNat = 97 + digit.val := by decide
  exact every ⟨value, small⟩

theorem readLetters_letterText (bytes : List UInt8) : readLetters (letterText bytes) = bytes := by
  induction bytes with
  | nil => rfl
  | cons byte rest ih =>
      have bounded : byte.toNat < 256 := byte.toNat_lt
      change UInt8.ofNat _ :: readLetters (letterText rest) = byte :: rest
      rw [letter_toNat (by omega), letter_toNat (by omega), ih, Nat.add_sub_cancel_left,
        Nat.add_sub_cancel_left, Nat.div_add_mod', UInt8.ofNat_toNat]

theorem letterText_plain {bytes : List UInt8} {character : Char} (member : character ∈ letterText bytes) :
    97 ≤ character.toNat ∧ character.toNat < 113 := by
  rcases List.mem_flatMap.mp member with ⟨byte, -, letter⟩
  have bounded : byte.toNat < 256 := byte.toNat_lt
  rcases List.mem_cons.mp letter with rfl | low
  · rw [letter_toNat (by omega)]
    omega
  · rw [List.mem_singleton.mp low, letter_toNat (by omega)]
    omega

theorem isWhitespace_letter {character : Char} (letter : 97 ≤ character.toNat ∧ character.toNat < 113) :
    isWhitespace character = false := by
  unfold isWhitespace
  simp only [Bool.or_eq_false_iff, Bool.and_eq_false_iff, beq_eq_false_iff_ne, decide_eq_false_iff_not]
  omega

def roleByte : Role -> UInt8
  | .data => 0
  | .header => 1
  | .trailer => 2

def readRole (byte : UInt8) : Option Role :=
  if byte = 0 then some .data else if byte = 1 then some .header else if byte = 2 then some .trailer else none

theorem readRole_roleByte (role : Role) : readRole (roleByte role) = some role := by
  cases role <;> rfl

def countText (count : Nat) : List UInt8 := List.replicate count 1 ++ [0]

/-- A number in unary, and what follows it. -/
def readCount : List UInt8 -> Nat × List UInt8
  | [] => (0, [])
  | byte :: rest => if byte = 1 then ((readCount rest).1 + 1, (readCount rest).2) else (0, rest)

theorem readCount_countText (count : Nat) (rest : List UInt8) :
    readCount (countText count ++ rest) = (count, rest) := by
  induction count with
  | zero => rfl
  | succ count ih =>
      change readCount (1 :: (countText count ++ rest)) = _
      rw [readCount, if_pos rfl, ih]

def textOf (bytes : List UInt8) : List Char := (decodeUtf8 bytes).getD []

theorem textOf_encodeUtf8 (text : List Char) : textOf (encodeUtf8 text) = text := by
  unfold textOf
  rw [decodeUtf8_encodeUtf8]
  rfl

def openLetters : List UInt8 -> Except FaucetError SealedLine
  | _ :: byte :: body =>
      match readRole byte with
      | some role => .ok ⟨role, body⟩
      | none => .error (.source "decryption failed")
  | _ => .error (.source "decryption failed")

/-- Letters in place of a cipher: one nonce byte, one role byte, the body. -/
def letterSealing : Sealing where
  sealText role body nonce := letterText (UInt8.ofNat nonce :: roleByte role :: body)
  sealedBytes text := some (readLetters text)
  openLine := openLetters
  decrypt bytes := (openLetters bytes).map SealedLine.body
  sha256Hex bytes := String.ofList (letterText bytes)
  writeHeader header := countText header.version ++ encodeUtf8 header.file.toList
  readHeader bytes := some ⟨(readCount bytes).1, String.ofList (textOf (readCount bytes).2)⟩
  writeTrailer trailer :=
    countText trailer.count ++ (countText trailer.file.toList.length ++
      encodeUtf8 (trailer.file.toList ++ trailer.sha256.toList))
  readTrailer bytes :=
    let named := readCount (readCount bytes).2
    some ⟨String.ofList ((textOf named.2).take named.1), (readCount bytes).1,
      String.ofList ((textOf named.2).drop named.1)⟩
  fromUtf8Lossy := textOf
  opens role body nonce := by
    refine ⟨UInt8.ofNat nonce :: roleByte role :: body, ?_, ?_⟩
    · rw [readLetters_letterText]
    · rw [openLetters, readRole_roleByte]
  sealed_ne_nil role body nonce := List.cons_ne_nil _ _
  sealed_visible role body nonce character member := isWhitespace_letter (letterText_plain member)
  sealed_ascii role body nonce character member := Nat.lt_trans (letterText_plain member).2 (by decide)
  sha256Hex_injective left right same := by
    have letters := String.ofList_injective same
    rw [← readLetters_letterText left, letters, readLetters_letterText]
  readHeader_writeHeader header := by
    rw [readCount_countText, textOf_encodeUtf8, String.ofList_toList]
  readTrailer_writeTrailer trailer := by
    simp only [readCount_countText, textOf_encodeUtf8, List.take_left, List.drop_left, String.ofList_toList]
  fromUtf8Lossy_encodeUtf8 := textOf_encodeUtf8

def sampleCreated : SealedFile := SealedFile.create letterSealing "a" 0

def sampleRecorded : SealedFile := sampleCreated.record letterSealing [104] 1

def sampleFlushed : SealedFile := sampleRecorded.flush letterSealing 2

def sampleExtended : SealedFile := sampleFlushed.record letterSealing [105] 3

def sampleFiles : List SealedFile :=
  [sampleExtended.flush letterSealing 4, sampleExtended, sampleFlushed, sampleRecorded, sampleCreated]

theorem sampleFiles_written : Written letterSealing sampleFiles := by
  have created : Written letterSealing [sampleCreated] := by
    apply Written.create Written.none
    intro file member
    cases member
  have recorded := created.record sampleCreated List.mem_cons_self [104] 1
  have flushed := recorded.flush sampleRecorded List.mem_cons_self 2
  have extended := flushed.record sampleFlushed List.mem_cons_self [105] 3
  exact extended.flush sampleExtended List.mem_cons_self 4

/-- The lines up to the first flush of a file with two. -/
theorem assembled_opens_as_flushed_sample :
    (forall line, line ∈ sampleFlushed.lines -> exists file, file ∈ sampleFiles ∧ line ∈ file.lines) ∧
    exists plain state bodyLen,
      openSealed letterSealing sampleFlushed.lines.flatten = .ok (.whole plain state bodyLen) ∧
      exists file, file ∈ sampleFiles ∧
        sampleFlushed.lines.head?.bind (namedFile letterSealing) = some file.state.file ∧
        exists count, count ∈ file.flushes ∧ count ≤ file.records.length ∧
          plain = recordLines (file.records.take count) := by
  have isRecorded : sampleRecorded ∈ sampleFiles := by
    unfold sampleFiles
    simp only [List.mem_cons, true_or, or_true]
  have isFlushed : sampleFlushed ∈ sampleFiles := by
    unfold sampleFiles
    simp only [List.mem_cons, true_or, or_true]
  have lines : forall line, line ∈ sampleFlushed.lines -> exists file, file ∈ sampleFiles ∧ line ∈ file.lines :=
    fun line member => ⟨sampleFlushed, isFlushed, member⟩
  rcases (assembled_opens_as_flushed letterSealing sampleFiles_written).2 sampleRecorded isRecorded 2 with
    ⟨bodyLen, opened⟩
  have raw : sampleFlushed.lines.flatten = (sampleRecorded.flush letterSealing 2).raw := by
    unfold SealedFile.lines everyLine
    rw [everyFrom_flatten]
    rfl
  rw [← raw] at opened
  exact ⟨lines, _, _, bodyLen, opened,
    (assembled_opens_as_flushed letterSealing sampleFiles_written).1 _ lines _ _ _ opened⟩

end SealedLines
end FaucetStream
