import FaucetStream.SealedLines.Scan

namespace FaucetStream
namespace SealedLines

open Json
open Library

/-!
# Integrity of sealed line files

Whoever holds sealed files can drop, repeat, reorder and mix their lines, but
cannot seal a line.  A trailer fits only where exactly the records it was
sealed for stand before it, so whatever opens ends at a flush of the file the
header names.
-/

variable (sealing : Sealing)

/-! ## Files written by sealing lines -/

/-- One sealed line, with what it was sealed from. -/
structure Piece where
  role : Role
  body : List UInt8
  nonce : Nat

def Piece.text (piece : Piece) : List Char := sealing.sealText piece.role piece.body piece.nonce

def Piece.line (piece : Piece) : List Char := piece.text sealing ++ ['\n']

/-- The text of a file. -/
def joined (pieces : List Piece) : List Char := pieces.flatMap (Piece.line sealing)

def dataOf (pieces : List Piece) : List Piece := pieces.filter (fun piece => piece.role = .data)

/-- What the digest is given for the records of a file. -/
def fed (pieces : List Piece) : List UInt8 := encodeUtf8 (joined sealing (dataOf pieces))

/-- The records of a file as plaintext lines. -/
def plainOf (pieces : List Piece) : List UInt8 := (dataOf pieces).flatMap (fun piece => piece.body ++ [newlineByte])

/-- The running state after some lines of a file. -/
def stateOf (file : String) (pieces : List Piece) : LineSeal := ⟨file, (dataOf pieces).length, fed sealing pieces⟩

theorem dataOf_append (first second : List Piece) : dataOf (first ++ second) = dataOf first ++ dataOf second :=
  List.filter_append first second

theorem joined_append (first second : List Piece) :
    joined sealing (first ++ second) = joined sealing first ++ joined sealing second :=
  List.flatMap_append

theorem joined_cons (piece : Piece) (rest : List Piece) :
    joined sealing (piece :: rest) = piece.line sealing ++ joined sealing rest := rfl

theorem plainOf_append (first second : List Piece) : plainOf (first ++ second) = plainOf first ++ plainOf second := by
  unfold plainOf
  rw [dataOf_append, List.flatMap_append]

theorem fed_append (first second : List Piece) :
    fed sealing (first ++ second) = fed sealing first ++ fed sealing second := by
  unfold fed
  rw [dataOf_append, joined_append, encodeUtf8_append]

theorem dataOf_singleton_data {piece : Piece} (role : piece.role = .data) : dataOf [piece] = [piece] := by
  unfold dataOf
  rw [List.filter_singleton, role]
  rfl

theorem dataOf_singleton_other {piece : Piece} (role : piece.role ≠ .data) : dataOf [piece] = [] := by
  unfold dataOf
  rw [List.filter_singleton, decide_eq_false role]
  rfl

/-- A record line moves the state on. -/
theorem stateOf_data {file : String} {pieces : List Piece} {piece : Piece} (role : piece.role = .data) :
    stateOf sealing file (pieces ++ [piece]) = (stateOf sealing file pieces).fold (piece.text sealing) := by
  unfold stateOf LineSeal.fold
  rw [dataOf_append, fed_append, List.length_append, dataOf_singleton_data role]
  have one : fed sealing [piece] = encodeUtf8 (piece.text sealing ++ ['\n']) := by
    unfold fed
    rw [dataOf_singleton_data role, joined_cons]
    exact congrArg encodeUtf8 (List.append_nil _)
  rw [one]
  rfl

theorem stateOf_other {file : String} {pieces : List Piece} {piece : Piece} (role : piece.role ≠ .data) :
    stateOf sealing file (pieces ++ [piece]) = stateOf sealing file pieces := by
  unfold stateOf
  rw [dataOf_append, fed_append, dataOf_singleton_other role, List.append_nil]
  have none : fed sealing [piece] = [] := by
    unfold fed
    rw [dataOf_singleton_other role]
    rfl
  rw [none, List.append_nil]

theorem plainOf_data {pieces : List Piece} {piece : Piece} (role : piece.role = .data) :
    plainOf (pieces ++ [piece]) = plainOf pieces ++ piece.body ++ [newlineByte] := by
  rw [plainOf_append]
  unfold plainOf
  rw [dataOf_singleton_data role, List.flatMap_singleton, List.append_assoc]

theorem plainOf_other {pieces : List Piece} {piece : Piece} (role : piece.role ≠ .data) :
    plainOf (pieces ++ [piece]) = plainOf pieces := by
  rw [plainOf_append]
  have none : plainOf [piece] = [] := by
    unfold plainOf
    rw [dataOf_singleton_other role]
    rfl
  rw [none, List.append_nil]

/-! ## Lines of a file -/

theorem piece_visible (piece : Piece) :
    forall character, character ∈ piece.text sealing -> isWhitespace character = false :=
  sealing.sealed_visible piece.role piece.body piece.nonce

theorem newline_not_mem {text : List Char}
    (visible : forall character, character ∈ text -> isWhitespace character = false) : '\n' ∉ text := by
  intro inside
  exact absurd (visible '\n' inside) (by decide)

theorem trim_visible {text : List Char}
    (visible : forall character, character ∈ text -> isWhitespace character = false) :
    trim text = text ∧ trim (text ++ ['\n']) = text := by
  have keeps : forall line : List Char, (forall character, character ∈ line -> isWhitespace character = false) ->
      line.dropWhile isWhitespace = line := by
    intro line clean
    cases line with
    | nil => rfl
    | cons character rest => rw [List.dropWhile_cons_of_neg (by rw [clean character List.mem_cons_self]; decide)]
  have backwards : text.reverse.dropWhile isWhitespace = text.reverse := by
    apply keeps
    intro character member
    exact visible character (List.mem_reverse.mp member)
  unfold trim List.rdropWhile
  constructor
  · rw [keeps text visible, backwards, List.reverse_reverse]
  · cases text with
    | nil => rfl
    | cons character rest =>
        rw [List.cons_append, List.dropWhile_cons_of_neg (by rw [visible character List.mem_cons_self]; decide),
          ← List.cons_append, List.reverse_append, List.reverse_singleton, List.singleton_append,
          List.dropWhile_cons_of_pos (by rfl), backwards, List.reverse_reverse]

/-- The lines of a file that breaks off inside a line. -/
theorem everyLine_joined (pieces : List Piece) {torn : List Char} (clean : '\n' ∉ torn) :
    everyLine '\n' (joined sealing pieces ++ torn) =
      pieces.map (Piece.line sealing) ++ if torn = [] then [] else [torn] := by
  unfold everyLine
  induction pieces with
  | nil =>
      have whole := everyFrom_append_clean clean [] []
      rw [List.append_nil, List.nil_append] at whole
      change everyFrom '\n' [] torn = _
      rw [whole, everyFrom]
      rfl
  | cons piece rest ih =>
      rw [joined_cons, Piece.line, List.append_assoc, List.append_assoc, List.singleton_append,
        everyFrom_append_clean (newline_not_mem (piece_visible sealing piece)), List.nil_append,
        everyFrom_separator, ih]
      rfl

/-- Where the lines of a file are found. -/
def placePieces (number offset : Nat) : List Piece -> List PlacedLine
  | [] => []
  | piece :: rest =>
      ⟨number, offset, piece.text sealing⟩ ::
        placePieces (number + 1) (offset + (encodeUtf8 (piece.line sealing)).length) rest

def byteLength (pieces : List Piece) : Nat := (encodeUtf8 (joined sealing pieces)).length

theorem byteLength_append (first second : List Piece) :
    byteLength sealing (first ++ second) = byteLength sealing first + byteLength sealing second := by
  unfold byteLength
  rw [joined_append, encodeUtf8_append, List.length_append]

theorem byteLength_singleton (piece : Piece) :
    byteLength sealing [piece] = (encodeUtf8 (piece.line sealing)).length := by
  unfold byteLength
  rw [joined_cons]
  exact congrArg (fun text => (encodeUtf8 text).length) (List.append_nil _)

theorem placeLines_pieces (number offset : Nat) (pieces : List Piece) (more : List (List Char)) :
    placeLines number offset (pieces.map (Piece.line sealing) ++ more) =
      placePieces sealing number offset pieces ++
        placeLines (number + pieces.length) (offset + byteLength sealing pieces) more := by
  induction pieces generalizing number offset with
  | nil => rfl
  | cons piece rest ih =>
      have visible := (trim_visible (piece_visible sealing piece)).2
      have filled : (piece.text sealing).isEmpty = false :=
        List.isEmpty_eq_false_iff.mpr (sealing.sealed_ne_nil piece.role piece.body piece.nonce)
      have length := byteLength_append sealing [piece] rest
      rw [byteLength_singleton, List.singleton_append] at length
      rw [List.map_cons, List.cons_append, placeLines, ih]
      simp only [Piece.line, visible, filled, Bool.false_eq_true, if_false, placePieces, List.cons_append]
      rw [length, List.length_cons, Piece.line, Nat.add_assoc, Nat.add_assoc, Nat.add_comm 1]

theorem openPlaced_piece (number offset : Nat) (piece : Piece) :
    openPlaced sealing ⟨number, offset, piece.text sealing⟩ = .ok ⟨piece.role, piece.body⟩ := by
  rcases sealing.opens piece.role piece.body piece.nonce with ⟨bytes, found, opened⟩
  unfold openPlaced sealedBytesOf
  simp only [Piece.text, found]
  exact opened

/-! ## What a scan finds -/

/-- A trailer fits: it was sealed for this file, this many records and these
lines. -/
theorem verifyTrailer_ok_iff (body : List UInt8) (state : LineSeal) :
    verifyTrailer sealing body state = .ok () <->
      sealing.readTrailer body = some ⟨state.file, state.count, sealing.sha256Hex state.digest⟩ := by
  unfold verifyTrailer
  cases read : sealing.readTrailer body with
  | none =>
      constructor
      · intro impossible
        cases impossible
      · intro impossible
        cases impossible
  | some trailer =>
      rcases trailer with ⟨file, count, sha256⟩
      by_cases sameFile : file = state.file
      · by_cases fitting : count ≠ state.count ∨ sha256 ≠ sealing.sha256Hex state.digest
        · simp only [sameFile, ne_eq, not_true_eq_false, if_false, fitting, if_true]
          constructor
          · intro impossible
            cases impossible
          · intro same
            cases same
            exact absurd fitting (by simp)
        · rw [not_or, ne_eq, not_not, ne_eq, not_not] at fitting
          rcases fitting with ⟨sameCount, sameDigest⟩
          simp only [sameFile, sameCount, sameDigest, ne_eq, not_true_eq_false, if_false, or_self]
      · simp only [ne_eq, sameFile, not_false_eq_true, if_true]
        constructor
        · intro impossible
          cases impossible
        · intro same
          cases same
          exact absurd rfl sameFile

/-- A scan that is at some point of a file: its state and plaintext are those
of the lines so far. -/
structure Tracks (file : String) (done : List Piece) (scan : ScanState) : Prop where
  state : scan.state = stateOf sealing file done
  plain : scan.plain = plainOf done

theorem Tracks.data {file : String} {done : List Piece} {scan : ScanState} (tracks : Tracks sealing file done scan)
    {piece : Piece} (role : piece.role = .data) :
    Tracks sealing file (done ++ [piece])
      ⟨scan.state.fold (piece.text sealing), scan.plain ++ piece.body ++ [newlineByte], scan.settled, false⟩ :=
  ⟨by rw [stateOf_data sealing role, tracks.state], by rw [plainOf_data role, tracks.plain]⟩

theorem Tracks.trailer {file : String} {done : List Piece} {scan : ScanState} (tracks : Tracks sealing file done scan)
    {piece : Piece} (role : piece.role = .trailer) (settled : Option (LineSeal × Nat × Nat)) :
    Tracks sealing file (done ++ [piece]) ⟨scan.state, scan.plain, settled, true⟩ := by
  have other : piece.role ≠ .data := by
    rw [role]
    decide
  exact ⟨by rw [stateOf_other sealing other]; exact tracks.state, by rw [plainOf_other other]; exact tracks.plain⟩

/-- One step of a scan over a line of a file. -/
theorem scanLine_piece (scan : ScanState) (number offset : Nat) (piece : Piece) :
    scanLine sealing scan ⟨number, offset, piece.text sealing⟩ =
      match piece.role with
      | .data =>
          .ok ⟨scan.state.fold (piece.text sealing), scan.plain ++ piece.body ++ [newlineByte], scan.settled, false⟩
      | .header => .error (damaged ("line " ++ toString number ++ " is a second header"))
      | .trailer =>
          match verifyTrailer sealing piece.body scan.state with
          | .error error => .error error
          | .ok () => .ok ⟨scan.state, scan.plain, some (scan.state, scan.plain.length, offset), true⟩ := by
  unfold scanLine
  rw [openPlaced_piece]
  rcases piece with ⟨role, body, nonce⟩
  cases role <;> rfl

theorem onDamage_refuses (rest : List PlacedLine) (scan : ScanState) (error : FaucetError) (opened : Opened) :
    onDamage sealing false rest scan error ≠ .ok opened := by
  unfold onDamage
  cases scan.settled with
  | none =>
      intro impossible
      cases impossible
  | some settled =>
      simp only [Bool.false_and, Bool.false_eq_true, if_false]
      intro impossible
      cases impossible

/-- A reader accepts lines only up to a trailer that fits all records before
it. -/
theorem scanLines_whole {file : String} {done : List Piece} {scan : ScanState} {number offset : Nat}
    {pieces : List Piece} {plain : List UInt8} {state : LineSeal} {bodyLen : Nat}
    (tracks : Tracks sealing file done scan)
    (opened : scanLines sealing false (placePieces sealing number offset pieces) scan =
      .ok (.whole plain state bodyLen)) :
    plain = plainOf (done ++ pieces) ∧
      ((pieces = [] ∧ scan.endedOnTrailer = true) ∨
        exists before last, pieces = before ++ [last] ∧ last.role = .trailer ∧
          verifyTrailer sealing last.body (stateOf sealing file (done ++ before)) = .ok ()) := by
  induction pieces generalizing done scan number offset with
  | nil =>
      rw [placePieces, scanLines] at opened
      cases settled : scan.settled with
      | none =>
          rw [settled] at opened
          cases opened
      | some found =>
          rw [settled] at opened
          cases ended : scan.endedOnTrailer with
          | true =>
              simp only [ended, if_true] at opened
              cases opened
              rw [List.append_nil]
              exact ⟨tracks.plain, Or.inl ⟨rfl, rfl⟩⟩
          | false =>
              simp only [ended, Bool.false_eq_true, if_false] at opened
              cases opened
  | cons piece rest ih =>
      rw [placePieces, scanLines, scanLine_piece] at opened
      cases role : piece.role with
      | data =>
          simp only [role] at opened
          rcases ih (tracks.data sealing role) opened with ⟨plainIs, ends⟩
          rw [List.append_assoc, List.singleton_append] at plainIs
          refine ⟨plainIs, Or.inr ?_⟩
          rcases ends with ⟨-, impossible⟩ | ⟨before, last, rfl, isTrailer, fits⟩
          · cases impossible
          · refine ⟨piece :: before, last, rfl, isTrailer, ?_⟩
            rw [List.append_assoc, List.singleton_append] at fits
            exact fits
      | header =>
          simp only [role] at opened
          exact absurd opened (onDamage_refuses sealing _ scan _ _)
      | trailer =>
          cases verified : verifyTrailer sealing piece.body scan.state with
          | error error =>
              simp only [role, verified] at opened
              exact absurd opened (onDamage_refuses sealing _ scan _ _)
          | ok checked =>
              simp only [role, verified] at opened
              rcases ih (tracks.trailer sealing role _) opened with ⟨plainIs, ends⟩
              rw [List.append_assoc, List.singleton_append] at plainIs
              refine ⟨plainIs, Or.inr ?_⟩
              rcases ends with ⟨rfl, -⟩ | ⟨before, last, rfl, isTrailer, fits⟩
              · refine ⟨[], piece, rfl, role, ?_⟩
                rw [List.append_nil, ← tracks.state]
                exact verified
              · refine ⟨piece :: before, last, rfl, isTrailer, ?_⟩
                rw [List.append_assoc, List.singleton_append] at fits
                exact fits

/-- The lines after the header of a file: no second header, and each trailer
states the records before it. -/
structure Trailed (file : String) (pieces : List Piece) : Prop where
  headless : forall piece, piece ∈ pieces -> piece.role ≠ .header
  stated : forall before trailer after, pieces = before ++ trailer :: after -> trailer.role = .trailer ->
    trailer.body = (stateOf sealing file before).trailerBody sealing

theorem verifyTrailer_stated (state : LineSeal) : verifyTrailer sealing (state.trailerBody sealing) state = .ok () := by
  rw [verifyTrailer_ok_iff]
  exact sealing.readTrailer_writeTrailer _

/-- A reader accepts the lines of a file up to the end of any flush. -/
theorem scanLines_trailed {file : String} {done pieces : List Piece} {scan : ScanState} {number offset : Nat}
    (tracks : Tracks sealing file done scan) (trailed : Trailed sealing file (done ++ pieces))
    (ended : pieces = [] -> scan.endedOnTrailer = true)
    (closes : forall last, pieces.getLast? = some last -> last.role = .trailer)
    (settled : scan.endedOnTrailer = true -> exists length start, scan.settled = some (scan.state, length, start)) :
    exists bodyLen, scanLines sealing false (placePieces sealing number offset pieces) scan =
      .ok (.whole (plainOf (done ++ pieces)) (stateOf sealing file (done ++ pieces)) bodyLen) := by
  induction pieces generalizing done scan number offset with
  | nil =>
      rcases settled (ended rfl) with ⟨length, start, found⟩
      refine ⟨start, ?_⟩
      rw [placePieces, scanLines, found, ended rfl, List.append_nil, ← tracks.plain, ← tracks.state]
      rfl
  | cons piece rest ih =>
      have regroup : done ++ piece :: rest = (done ++ [piece]) ++ rest := by
        rw [List.append_assoc, List.singleton_append]
      have restCloses : forall last, rest.getLast? = some last -> last.role = .trailer := by
        intro last isLast
        apply closes
        rw [List.getLast?_cons, isLast]
        rfl
      rw [placePieces, scanLines, scanLine_piece]
      cases role : piece.role with
      | data =>
          simp only
          rw [regroup] at trailed ⊢
          apply ih (tracks.data sealing role) trailed
          · rintro rfl
            have impossible := closes piece rfl
            rw [role] at impossible
            cases impossible
          · exact restCloses
          · intro impossible
            cases impossible
      | header =>
          exact absurd role (trailed.headless piece (List.mem_append_right done List.mem_cons_self))
      | trailer =>
          have fits : verifyTrailer sealing piece.body scan.state = .ok () := by
            rw [trailed.stated done piece rest rfl role, tracks.state]
            exact verifyTrailer_stated sealing _
          simp only [fits]
          rw [regroup] at trailed ⊢
          apply ih (tracks.trailer sealing role _) trailed
          · intro
            rfl
          · exact restCloses
          · intro
            exact ⟨_, _, rfl⟩

/-- What a scan has settled on belongs to a beginning of the file. -/
def Anchored (file : String) (offset : Nat) (done : List Piece) (scan : ScanState) : Prop :=
  forall state length start, scan.settled = some (state, length, start) ->
    exists before after, done = before ++ after ∧ state = stateOf sealing file before ∧
      start = offset + byteLength sealing before

theorem Anchored.grow {file : String} {offset : Nat} {done : List Piece} {scan next : ScanState} {piece : Piece}
    (anchored : Anchored sealing file offset done scan) (same : next.settled = scan.settled) :
    Anchored sealing file offset (done ++ [piece]) next := by
  intro state length start found
  rw [same] at found
  rcases anchored state length start found with ⟨before, after, rfl, isState, isStart⟩
  exact ⟨before, after ++ [piece], List.append_assoc before after [piece], isState, isStart⟩

/-- Whatever a writer resumes from is a beginning of the file it was given. -/
theorem anchored_result {file : String} {offset : Nat} {done rest : List Piece} {scan : ScanState}
    {state : LineSeal} {bodyLen : Nat} (anchored : Anchored sealing file offset done scan)
    (found : exists length, scan.settled = some (state, length, bodyLen)) :
    exists before after, done ++ rest = before ++ after ∧ state = stateOf sealing file before ∧
      bodyLen = offset + byteLength sealing before := by
  rcases found with ⟨length, settled⟩
  rcases anchored state length bodyLen settled with ⟨before, after, rfl, isState, isStart⟩
  exact ⟨before, after ++ rest, List.append_assoc before after rest, isState, isStart⟩

theorem onDamage_settled {recover : Bool} {rest : List PlacedLine} {scan : ScanState} {error : FaucetError}
    {plain : List UInt8} {state : LineSeal} {bodyLen : Nat}
    (opened : onDamage sealing recover rest scan error = .ok (.whole plain state bodyLen)) :
    exists length, scan.settled = some (state, length, bodyLen) := by
  unfold onDamage at opened
  cases found : scan.settled with
  | none =>
      rw [found] at opened
      cases opened
  | some settled =>
      rw [found] at opened
      simp only at opened
      split at opened
      · cases opened
        exact ⟨settled.2.1, rfl⟩
      · cases opened

theorem scanEnd_settled {recover : Bool} {scan : ScanState} {plain : List UInt8} {state : LineSeal} {bodyLen : Nat}
    (opened : scanLines sealing recover [] scan = .ok (.whole plain state bodyLen)) :
    exists length, scan.settled = some (state, length, bodyLen) := by
  rw [scanLines] at opened
  cases found : scan.settled with
  | none =>
      rw [found] at opened
      cases opened
  | some settled =>
      rw [found] at opened
      simp only at opened
      split at opened
      · cases opened
        exact ⟨settled.2.1, rfl⟩
      · split at opened
        · cases opened
          exact ⟨settled.2.1, rfl⟩
        · cases opened

/-- A scan over a file that breaks off inside a line: what it returns to
continue from is the state at some line of the file, and where that line
ends. -/
theorem scanLines_resume {file : String} {offset number : Nat} {done pieces : List Piece} {scan : ScanState}
    {recover : Bool} {tail : List PlacedLine} {plain : List UInt8} {state : LineSeal} {bodyLen : Nat}
    (tracks : Tracks sealing file done scan) (anchored : Anchored sealing file offset done scan)
    (torn : tail = [] ∨ exists line, tail = [line] ∧ line.start = offset + byteLength sealing (done ++ pieces))
    (opened : scanLines sealing recover
      (placePieces sealing number (offset + byteLength sealing done) pieces ++ tail) scan =
        .ok (.whole plain state bodyLen)) :
    exists before after, done ++ pieces = before ++ after ∧ state = stateOf sealing file before ∧
      bodyLen = offset + byteLength sealing before := by
  induction pieces generalizing done scan number with
  | nil =>
      rw [placePieces, List.nil_append] at opened
      rcases torn with rfl | ⟨line, rfl, start⟩
      · exact anchored_result sealing anchored (scanEnd_settled sealing opened)
      · rw [scanLines] at opened
        cases step : scanLine sealing scan line with
        | error error =>
            rw [step] at opened
            exact anchored_result sealing anchored (onDamage_settled sealing opened)
        | ok next =>
            rw [step] at opened
            rcases scanEnd_settled sealing opened with ⟨length, found⟩
            unfold scanLine at step
            split at step
            · cases step
            · cases step
              exact anchored_result sealing anchored ⟨length, found⟩
            · cases step
            · split at step
              · cases step
              · cases step
                cases found
                refine ⟨done, [], rfl, tracks.state, ?_⟩
                rw [start, List.append_nil]
  | cons piece rest ih =>
      have regroup : done ++ piece :: rest = (done ++ [piece]) ++ rest := by
        rw [List.append_assoc, List.singleton_append]
      have moved : offset + byteLength sealing done + (encodeUtf8 (piece.line sealing)).length =
          offset + byteLength sealing (done ++ [piece]) := by
        rw [byteLength_append, byteLength_singleton, Nat.add_assoc]
      rw [placePieces, List.cons_append, scanLines, scanLine_piece, moved] at opened
      rw [regroup] at torn ⊢
      cases role : piece.role with
      | data =>
          simp only [role] at opened
          exact ih (tracks.data sealing role) (anchored.grow sealing rfl) torn opened
      | header =>
          simp only [role] at opened
          rw [← regroup]
          exact anchored_result sealing anchored (onDamage_settled sealing opened)
      | trailer =>
          cases verified : verifyTrailer sealing piece.body scan.state with
          | error error =>
              simp only [role, verified] at opened
              rw [← regroup]
              exact anchored_result sealing anchored (onDamage_settled sealing opened)
          | ok checked =>
              simp only [role, verified] at opened
              refine ih (tracks.trailer sealing role _) ?_ torn opened
              intro settledState length start found
              cases found
              exact ⟨done, [piece], rfl, tracks.state, rfl⟩

/-! ## Files cut short -/

theorem joined_ascii (pieces : List Piece) :
    forall character, character ∈ joined sealing pieces -> character.toNat < 128 := by
  intro character member
  rcases List.mem_flatMap.mp member with ⟨piece, -, inside⟩
  rcases List.mem_append.mp inside with text | newline
  · exact sealing.sealed_ascii piece.role piece.body piece.nonce character text
  · rw [List.mem_singleton.mp newline]
    decide

/-- A file cut anywhere is some of its lines and the beginning of another. -/
theorem joined_take (pieces : List Piece) (count : Nat) :
    exists kept dropped torn, pieces = kept ++ dropped ∧
      (joined sealing pieces).take count = joined sealing kept ++ torn ∧
      forall character, character ∈ torn -> isWhitespace character = false := by
  induction pieces generalizing count with
  | nil =>
      refine ⟨[], [], [], rfl, List.take_nil, ?_⟩
      intro character member
      cases member
  | cons piece rest ih =>
      by_cases inside : count ≤ (piece.text sealing).length
      · refine ⟨[], piece :: rest, (piece.text sealing).take count, rfl, ?_, ?_⟩
        · rw [joined_cons, Piece.line, List.append_assoc, List.take_append_of_le_length inside]
          rfl
        · intro character member
          exact piece_visible sealing piece character (List.mem_of_mem_take member)
      · rcases ih (count - ((piece.text sealing).length + 1)) with ⟨kept, dropped, torn, rfl, cut, visible⟩
        refine ⟨piece :: kept, dropped, torn, rfl, ?_, visible⟩
        have length : (piece.line sealing).length = (piece.text sealing).length + 1 := by
          rw [Piece.line, List.length_append, List.length_singleton]
        rw [joined_cons, joined_cons, List.take_append, List.take_of_length_le (by omega), length, cut,
          List.append_assoc]

end SealedLines
end FaucetStream
