import FaucetStream.SealedLines.Integrity

namespace FaucetStream
namespace SealedLines

open Json
open Library

/-!
# Files that writers produce

A writer starts a file under an id of its own, seals records, closes flushes,
and may continue a file that a crash cut off anywhere.  Every state that a
file was ever in stays available to whoever assembles lines: a file here is
one such state, with the records its writers sealed and the flushes they
finished.
-/

variable (sealing : Sealing)

/-- One state of a file: its bytes, the state to go on from, the records
sealed, and after how many of them each flush ended. -/
structure SealedFile where
  raw : List UInt8
  state : LineSeal
  records : List (List UInt8)
  flushes : List Nat

namespace SealedFile

def create (name : String) (nonce : Nat) : SealedFile :=
  ⟨encodeUtf8 ((LineSeal.new name).header sealing nonce), LineSeal.new name, [], []⟩

def record (file : SealedFile) (plain : List UInt8) (nonce : Nat) : SealedFile :=
  let sealed := file.state.sealRecord sealing plain nonce
  ⟨file.raw ++ encodeUtf8 sealed.2, sealed.1, file.records ++ [plain], file.flushes⟩

def flush (file : SealedFile) (nonce : Nat) : SealedFile :=
  ⟨file.raw ++ encodeUtf8 (file.state.trailer sealing nonce), file.state, file.records,
    file.flushes ++ [file.records.length]⟩

/-- What is left of a file that is continued from a state found in it. -/
def continued (file : SealedFile) (left : List UInt8) (state : LineSeal) (bodyLen : Nat) : SealedFile :=
  ⟨left.take bodyLen, state, file.records.take state.count,
    file.flushes.filter (fun count => count ≤ state.count)⟩

/-- The lines of a file, as bytes. -/
def lines (file : SealedFile) : List (List UInt8) := everyLine newlineByte file.raw

end SealedFile

/-- The states of all files that writers have gone through so far. -/
inductive Written : List SealedFile -> Prop where
  | none : Written []
  | create {files : List SealedFile} (written : Written files) (name : String) (nonce : Nat)
      (fresh : forall file, file ∈ files -> file.state.file ≠ name) :
      Written (SealedFile.create sealing name nonce :: files)
  | record {files : List SealedFile} (written : Written files) (file : SealedFile) (member : file ∈ files)
      (plain : List UInt8) (nonce : Nat) : Written (file.record sealing plain nonce :: files)
  | flush {files : List SealedFile} (written : Written files) (file : SealedFile) (member : file ∈ files)
      (nonce : Nat) : Written (file.flush sealing nonce :: files)
  | continued {files : List SealedFile} (written : Written files) (file : SealedFile) (member : file ∈ files)
      (cut : Nat) (plain : List UInt8) (state : LineSeal) (bodyLen : Nat)
      (opened : openForAppend sealing (file.raw.take cut) = .ok (.whole plain state bodyLen)) :
      Written (file.continued (file.raw.take cut) state bodyLen :: files)

/-- Records as plaintext lines. -/
def recordLines (records : List (List UInt8)) : List UInt8 :=
  records.flatMap (fun record => record ++ [newlineByte])

/-! ## What a file is made of -/

/-- The header line of a file. -/
def headerPiece (file : String) (nonce : Nat) : Piece := ⟨.header, sealing.writeHeader ⟨version, file⟩, nonce⟩

/-- A file is its header and the lines after it; its records and flushes are
those of the lines. -/
structure Consists (file : SealedFile) (nonce : Nat) (rest : List Piece) : Prop where
  raw : file.raw = encodeUtf8 (joined sealing (headerPiece sealing file.state.file nonce :: rest))
  trailed : Trailed sealing file.state.file rest
  state : file.state = stateOf sealing file.state.file rest
  records : file.records = (dataOf rest).map Piece.body
  flushes : forall before trailer after, rest = before ++ trailer :: after -> trailer.role = .trailer ->
    (dataOf before).length ∈ file.flushes

theorem plainOf_records {rest : List Piece} {records : List (List UInt8)}
    (same : records = (dataOf rest).map Piece.body) : plainOf rest = recordLines records := by
  unfold plainOf recordLines
  rw [same, List.flatMap_map]

/-- Splitting a list with one more element at a place: it is the new element
or lies before it. -/
theorem append_singleton_split {rest before after : List Piece} {last piece : Piece}
    (split : rest ++ [last] = before ++ piece :: after) :
    (before = rest ∧ piece = last ∧ after = []) ∨ exists earlier, after = earlier ++ [last] ∧
      rest = before ++ piece :: earlier := by
  cases after.eq_nil_or_concat with
  | inl empty =>
      subst empty
      rcases List.append_inj' split rfl with ⟨same, sameLast⟩
      cases sameLast
      exact Or.inl ⟨same.symm, rfl, rfl⟩
  | inr more =>
      rcases more with ⟨earlier, final, rfl⟩
      rw [List.concat_eq_append, ← List.cons_append, ← List.append_assoc] at split
      rcases List.append_inj' split rfl with ⟨same, sameLast⟩
      cases sameLast
      exact Or.inr ⟨earlier, List.concat_eq_append, same⟩

theorem Trailed.data {file : String} {rest : List Piece} (trailed : Trailed sealing file rest) {piece : Piece}
    (role : piece.role = .data) : Trailed sealing file (rest ++ [piece]) where
  headless other member := by
    rcases List.mem_append.mp member with inside | last
    · exact trailed.headless other inside
    · rw [List.mem_singleton.mp last, role]
      decide
  stated before trailer after split isTrailer := by
    rcases append_singleton_split split with ⟨-, rfl, -⟩ | ⟨earlier, -, inside⟩
    · rw [role] at isTrailer
      cases isTrailer
    · exact trailed.stated before trailer earlier inside isTrailer

theorem Trailed.trailer {file : String} {rest : List Piece} (trailed : Trailed sealing file rest) (nonce : Nat) :
    Trailed sealing file (rest ++ [⟨.trailer, (stateOf sealing file rest).trailerBody sealing, nonce⟩]) where
  headless other member := by
    rcases List.mem_append.mp member with inside | last
    · exact trailed.headless other inside
    · rw [List.mem_singleton.mp last]
      exact show Role.trailer ≠ Role.header by decide
  stated before trailer after split isTrailer := by
    rcases append_singleton_split split with ⟨rfl, rfl, -⟩ | ⟨earlier, -, inside⟩
    · rfl
    · exact trailed.stated before trailer earlier inside isTrailer

theorem Trailed.before {file : String} {first second : List Piece}
    (trailed : Trailed sealing file (first ++ second)) : Trailed sealing file first where
  headless piece member := trailed.headless piece (List.mem_append_left second member)
  stated before trailer after split isTrailer := by
    apply trailed.stated before trailer (after ++ second)
    · rw [split, List.append_assoc, List.cons_append]
    · exact isTrailer

theorem raw_append {file : String} {nonce : Nat} {rest : List Piece} {raw : List UInt8}
    (isRaw : raw = encodeUtf8 (joined sealing (headerPiece sealing file nonce :: rest))) (piece : Piece) :
    raw ++ encodeUtf8 (piece.line sealing) =
      encodeUtf8 (joined sealing (headerPiece sealing file nonce :: (rest ++ [piece]))) := by
  have single : joined sealing [piece] = piece.line sealing := by
    rw [joined_cons]
    exact List.append_nil _
  rw [isRaw, ← encodeUtf8_append, ← List.cons_append, joined_append, single]

/-! ## Every step keeps it so -/

theorem consists_create (name : String) (nonce : Nat) :
    Consists sealing (SealedFile.create sealing name nonce) nonce [] where
  raw := by
    rw [joined_cons]
    exact congrArg encodeUtf8 (List.append_nil _).symm
  trailed := by
    constructor
    · intro piece member
      cases member
    · intro before trailer after split
      exact absurd split.symm (List.append_ne_nil_of_right_ne_nil before (List.cons_ne_nil trailer after))
  state := rfl
  records := rfl
  flushes before trailer after split :=
    absurd split.symm (List.append_ne_nil_of_right_ne_nil before (List.cons_ne_nil trailer after))

theorem consists_record {file : SealedFile} {nonce : Nat} {rest : List Piece}
    (consists : Consists sealing file nonce rest) (plain : List UInt8) (fresh : Nat) :
    Consists sealing (file.record sealing plain fresh) nonce (rest ++ [⟨.data, plain, fresh⟩]) where
  raw := raw_append sealing consists.raw ⟨.data, plain, fresh⟩
  trailed := consists.trailed.data sealing rfl
  state := by
    change file.state.fold _ = stateOf sealing file.state.file _
    rw [stateOf_data sealing rfl, ← consists.state]
    rfl
  records := by
    change file.records ++ [plain] = _
    rw [consists.records, dataOf_append, dataOf_singleton_data rfl, List.map_append]
    rfl
  flushes before trailer after split isTrailer := by
    rcases append_singleton_split split with ⟨-, rfl, -⟩ | ⟨earlier, -, inside⟩
    · cases isTrailer
    · exact consists.flushes before trailer earlier inside isTrailer

theorem consists_flush {file : SealedFile} {nonce : Nat} {rest : List Piece}
    (consists : Consists sealing file nonce rest) (fresh : Nat) :
    Consists sealing (file.flush sealing fresh) nonce
      (rest ++ [⟨.trailer, file.state.trailerBody sealing, fresh⟩]) where
  raw := raw_append sealing consists.raw ⟨.trailer, file.state.trailerBody sealing, fresh⟩
  trailed := by
    have grown := consists.trailed.trailer sealing fresh
    rw [← consists.state] at grown
    exact grown
  state := by
    change file.state = stateOf sealing file.state.file _
    rw [stateOf_other sealing (show Role.trailer ≠ Role.data by decide)]
    exact consists.state
  records := by
    change file.records = _
    rw [consists.records, dataOf_append, dataOf_singleton_other (show Role.trailer ≠ Role.data by decide),
      List.append_nil]
  flushes before trailer after split isTrailer := by
    apply List.mem_append.mpr
    rcases append_singleton_split split with ⟨rfl, -, -⟩ | ⟨earlier, -, inside⟩
    · right
      rw [consists.records, List.length_map]
      exact List.mem_singleton_self _
    · exact Or.inl (consists.flushes before trailer earlier inside isTrailer)

/-- Where the lines of a file that was cut are found. -/
theorem placeLines_cut (kept : List Piece) {torn : List Char}
    (visible : forall character, character ∈ torn -> isWhitespace character = false) :
    exists tail, placeLines 1 0 (everyLine '\n' (joined sealing kept ++ torn)) = placePieces sealing 1 0 kept ++ tail ∧
      (tail = [] ∨ exists line, tail = [line] ∧ line.start = byteLength sealing kept) := by
  rw [everyLine_joined sealing kept (newline_not_mem visible), placeLines_pieces, Nat.zero_add]
  by_cases empty : torn = []
  · refine ⟨[], ?_, Or.inl rfl⟩
    rw [if_pos empty]
    rfl
  · refine ⟨[⟨1 + kept.length, byteLength sealing kept, torn⟩], ?_, Or.inr ⟨_, rfl, rfl⟩⟩
    have shown := (trim_visible visible).1
    have filled : torn.isEmpty = false := List.isEmpty_eq_false_iff.mpr empty
    rw [if_neg empty, placeLines]
    simp only [shown, filled, Bool.false_eq_true, if_false]
    rfl

theorem openLegacy_not_whole (lines : List PlacedLine) (before plain : List UInt8) (state : LineSeal) (bodyLen : Nat) :
    openLegacy sealing lines before ≠ .ok (.whole plain state bodyLen) := by
  induction lines generalizing before with
  | nil =>
      intro impossible
      cases impossible
  | cons line rest ih =>
      intro opened
      rw [openLegacy] at opened
      split at opened
      · cases opened
      · split at opened
        · cases opened
        · exact ih _ opened

/-- Whatever opens whole starts with a header that can be read. -/
theorem scanText_whole {text : List Char} {recover : Bool} {plain : List UInt8} {state : LineSeal} {bodyLen : Nat}
    (opened : scanText sealing text recover = .ok (.whole plain state bodyLen)) :
    exists first rest body header, placeLines 1 0 (everyLine '\n' text) = first :: rest ∧
      openPlaced sealing first = .ok ⟨.header, body⟩ ∧ sealing.readHeader body = some header ∧
      scanLines sealing recover rest ⟨LineSeal.new header.file, [], none, false⟩ =
        .ok (.whole plain state bodyLen) := by
  unfold scanText at opened
  cases placed : placeLines 1 0 (everyLine '\n' text) with
  | nil =>
      rw [placed] at opened
      cases opened
  | cons first rest =>
      rw [placed] at opened
      simp only at opened
      split at opened
      · cases opened
      · next bytes sealedBytes =>
          split at opened
          · next body isHeader =>
              split at opened
              · next header read =>
                  split at opened
                  · refine ⟨first, rest, body, header, rfl, ?_, read, opened⟩
                    unfold openPlaced
                    rw [sealedBytes]
                    exact isHeader
                  · cases opened
              · cases opened
          · cases opened
          · exact absurd opened (openLegacy_not_whole sealing _ _ _ _ _)

theorem tracks_start (file : String) (settled : Option (LineSeal × Nat × Nat)) :
    Tracks sealing file [] ⟨LineSeal.new file, [], settled, false⟩ :=
  ⟨rfl, rfl⟩

/-- Where a writer continues a file that was cut: after its header and some of
its lines. -/
theorem openForAppend_cut {file : SealedFile} {nonce : Nat} {rest : List Piece}
    (consists : Consists sealing file nonce rest) {cut : Nat} {plain : List UInt8} {state : LineSeal} {bodyLen : Nat}
    (opened : openForAppend sealing (file.raw.take cut) = .ok (.whole plain state bodyLen)) :
    exists before after, rest = before ++ after ∧ state = stateOf sealing file.state.file before ∧
      (file.raw.take cut).take bodyLen =
        encodeUtf8 (joined sealing (headerPiece sealing file.state.file nonce :: before)) := by
  have cutRaw := encodeUtf8_take (joined_ascii sealing (headerPiece sealing file.state.file nonce :: rest)) cut
  rcases joined_take sealing (headerPiece sealing file.state.file nonce :: rest) cut with
    ⟨kept, dropped, torn, pieces, isCut, visible⟩
  rw [isCut, ← consists.raw] at cutRaw
  rw [openForAppend, cutRaw, sealing.fromUtf8Lossy_encodeUtf8] at opened
  rcases placeLines_cut sealing kept visible with ⟨tail, placed, torn⟩
  rcases scanText_whole sealing opened with ⟨first, others, body, header, found, opens, read, scanned⟩
  rw [placed] at found
  cases kept with
  | nil =>
      -- A file that lost its header line has no trailer left.
      rcases torn with rfl | ⟨line, rfl, -⟩
      · cases found
      · cases found
        rcases scanEnd_settled sealing scanned with ⟨length, impossible⟩
        cases impossible
  | cons head kept =>
      cases pieces
      rw [placePieces, List.cons_append] at found
      cases found
      rw [openPlaced_piece] at opens
      cases opens
      rw [headerPiece, sealing.readHeader_writeHeader] at read
      cases read
      have start : 0 + (encodeUtf8 ((headerPiece sealing file.state.file nonce).line sealing)).length =
          byteLength sealing [headerPiece sealing file.state.file nonce] + byteLength sealing [] := by
        rw [byteLength_singleton, Nat.zero_add]
        rfl
      have length := byteLength_append sealing [headerPiece sealing file.state.file nonce]
      have anchored : Anchored sealing file.state.file
          (byteLength sealing [headerPiece sealing file.state.file nonce]) []
          ⟨LineSeal.new file.state.file, [], none, false⟩ := by
        intro settledState settledLength settledStart impossible
        cases impossible
      rw [start] at scanned
      have resumed := scanLines_resume sealing (tracks_start sealing file.state.file none) anchored
        (by
          rcases torn with empty | ⟨line, isTail, isStart⟩
          · exact Or.inl empty
          · refine Or.inr ⟨line, isTail, ?_⟩
            rw [isStart, List.nil_append, ← length]
            rfl)
        scanned
      rcases resumed with ⟨before, after, split, isState, isLength⟩
      rw [List.nil_append] at split
      subst split
      refine ⟨before, after ++ dropped, List.append_assoc before after dropped, isState, ?_⟩
      rw [← length, List.singleton_append] at isLength
      rw [cutRaw, isLength, ← List.cons_append, joined_append, List.append_assoc, encodeUtf8_append]
      exact List.take_left

theorem consists_continued {file : SealedFile} {nonce : Nat} {rest : List Piece}
    (consists : Consists sealing file nonce rest) {cut : Nat} {plain : List UInt8} {state : LineSeal} {bodyLen : Nat}
    (opened : openForAppend sealing (file.raw.take cut) = .ok (.whole plain state bodyLen)) :
    exists before, Consists sealing (file.continued (file.raw.take cut) state bodyLen) nonce before := by
  rcases openForAppend_cut sealing consists opened with ⟨before, after, rfl, rfl, left⟩
  refine ⟨before, left, consists.trailed.before sealing, rfl, ?_, ?_⟩
  · change file.records.take (dataOf before).length = _
    rw [consists.records, dataOf_append, List.map_append, ← List.length_map Piece.body, List.take_left]
  · intro earlier trailer later split isTrailer
    apply List.mem_filter.mpr
    constructor
    · apply consists.flushes earlier trailer (later ++ after) _ isTrailer
      rw [split, List.append_assoc, List.cons_append]
    · apply decide_eq_true
      change (dataOf earlier).length ≤ (dataOf before).length
      rw [split, dataOf_append, List.length_append]
      exact Nat.le_add_right _ _

/-- Every file that writers produce is a header and the lines after it. -/
theorem Written.consists {files : List SealedFile} (written : Written sealing files) :
    forall file, file ∈ files -> exists nonce rest, Consists sealing file nonce rest := by
  induction written with
  | none =>
      intro file member
      cases member
  | create written name nonce fresh ih =>
      intro file member
      rcases List.mem_cons.mp member with rfl | earlier
      · exact ⟨nonce, [], consists_create sealing name nonce⟩
      · exact ih file earlier
  | record written origin isOrigin plain fresh ih =>
      intro file member
      rcases List.mem_cons.mp member with rfl | earlier
      · rcases ih origin isOrigin with ⟨nonce, rest, consists⟩
        exact ⟨nonce, _, consists_record sealing consists plain fresh⟩
      · exact ih file earlier
  | flush written origin isOrigin fresh ih =>
      intro file member
      rcases List.mem_cons.mp member with rfl | earlier
      · rcases ih origin isOrigin with ⟨nonce, rest, consists⟩
        exact ⟨nonce, _, consists_flush sealing consists fresh⟩
      · exact ih file earlier
  | continued written origin isOrigin cut plain state bodyLen opened ih =>
      intro file member
      rcases List.mem_cons.mp member with rfl | earlier
      · rcases ih origin isOrigin with ⟨nonce, rest, consists⟩
        rcases consists_continued sealing consists opened with ⟨before, cutConsists⟩
        exact ⟨nonce, before, cutConsists⟩
      · exact ih file earlier

end SealedLines
end FaucetStream
