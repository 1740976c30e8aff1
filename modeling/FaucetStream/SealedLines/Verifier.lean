import FaucetStream.SealedLines.Assembled

namespace FaucetStream
namespace SealedLines

open Json
open Library

/-!
# The streaming verifier

A file too large to hold is checked one line at a time.  The verifier keeps the
running digest, the number of lines the last fitting trailer covers and the
first damage, and learns only from later lines whether the damage is the tail
of a crash.  It reaches the verdict that the scan of the whole file reaches.
-/

inductive Verdict where
  | whole
  | unfinishedTail (verifiedLines : Nat)
  | legacy
  | empty
  deriving DecidableEq

inductive VerifyState where
  | start
  | sealed (state : LineSeal)
  | legacy

structure Verifier where
  state : VerifyState
  lines : Nat
  settledLines : Option Nat
  endedOnTrailer : Bool
  damage : Option FaucetError
  trailerAfterDamage : Bool

variable (sealing : Sealing)

/-- One line of a file without a header. -/
def decryptLine (line : PlacedLine) : Except FaucetError Unit :=
  match sealedBytesOf sealing line with
  | .error error => .error error
  | .ok bytes => (sealing.decrypt bytes).map (fun _ => ())

namespace Verifier

def new : Verifier := ⟨.start, 0, none, false, none, false⟩

/-- What an undamaged line does, and whether it damages the file. -/
def step (verifier : Verifier) (line : PlacedLine) : Verifier × Except FaucetError Unit :=
  match verifier.state, openPlaced sealing line with
  | .start, .ok ⟨.header, body⟩ =>
      match sealing.readHeader body with
      | some header =>
          if header.version = version then
            ({ verifier with state := .sealed (LineSeal.new header.file) }, .ok ())
          else (verifier, .error (damaged "its header is unreadable"))
      | none => (verifier, .error (damaged "its header is unreadable"))
  | .start, .ok ⟨.trailer, _⟩ => (verifier, .error (damaged "it starts with its trailer"))
  | .start, _ => ({ verifier with state := .legacy }, decryptLine sealing line)
  | .legacy, _ => (verifier, decryptLine sealing line)
  | .sealed state, .ok ⟨.data, _⟩ =>
      ({ verifier with state := .sealed (state.fold line.text), endedOnTrailer := false }, .ok ())
  | .sealed _, .ok ⟨.header, _⟩ =>
      (verifier, .error (damaged ("line " ++ toString line.number ++ " is a second header")))
  | .sealed state, .ok ⟨.trailer, body⟩ =>
      match verifyTrailer sealing body state with
      | .ok () => ({ verifier with settledLines := some line.number, endedOnTrailer := true }, .ok ())
      | .error error => (verifier, .error error)
  | .sealed _, .error error => (verifier, .error error)

def counted (verifier : Verifier) : Verifier := { verifier with lines := verifier.lines + 1 }

/-- The next line.  The verifier numbers the lines it is given and does not
know where they start. -/
def lineOf (verifier : Verifier) (text : List Char) : PlacedLine := ⟨verifier.lines + 1, 0, text⟩

/-- A line that is not blank, trimmed. -/
def accept (verifier : Verifier) (text : List Char) : Verifier :=
  match verifier.damage with
  | some _ =>
      if isTrailerLine sealing (verifier.lineOf text) then { verifier.counted with trailerAfterDamage := true }
      else verifier.counted
  | none =>
      match verifier.counted.step sealing (verifier.lineOf text) with
      | (next, .ok ()) => next
      | (next, .error error) => { next with damage := some error }

def push (verifier : Verifier) (line : List Char) : Verifier :=
  if (trim line).isEmpty then verifier else verifier.accept sealing (trim line)

def finish (verifier : Verifier) : Except FaucetError Verdict :=
  match verifier.damage with
  | some error =>
      match verifier.state, verifier.settledLines with
      | .sealed _, some count =>
          if verifier.trailerAfterDamage then .error error else .ok (.unfinishedTail count)
      | _, _ => .error error
  | none =>
      match verifier.state, verifier.settledLines with
      | .start, _ => .ok .empty
      | .legacy, _ => .ok .legacy
      | .sealed _, some count => if verifier.endedOnTrailer then .ok .whole else .ok (.unfinishedTail count)
      | .sealed _, none => .error (damaged "it ends without its trailer — the file was cut short")

end Verifier

/-! ## What the lines of a file are -/

/-- The lines of a text, each given with or without its newline. -/
def Feeds (text : List Char) (lines : List (List Char)) : Prop :=
  List.Forall₂ (fun whole line => line = whole ∨ line ++ ['\n'] = whole) (everyLine '\n' text) lines

/-- The lines of a text that are not blank. -/
def placed (text : List Char) : List PlacedLine := placeLines 1 0 (everyLine '\n' text)

/-- The file that a header line names. -/
def headerFile (line : PlacedLine) : Option String :=
  match openPlaced sealing line with
  | .ok ⟨.header, body⟩ =>
      match sealing.readHeader body with
      | some header => if header.version = version then some header.file else none
      | none => none
  | _ => none

/-- The running state after the records among some lines. -/
def runningState (file : String) (lines : List PlacedLine) : LineSeal :=
  lines.foldl (fun state line =>
    match openPlaced sealing line with
    | .ok ⟨.data, _⟩ => state.fold line.text
    | _ => state) (LineSeal.new file)

/-- A trailer that states the records before it. -/
def trailerFits (file : String) (before : List PlacedLine) (line : PlacedLine) : Bool :=
  match openPlaced sealing line with
  | .ok ⟨.trailer, body⟩ => (verifyTrailer sealing body (runningState sealing file before)).isOk
  | _ => false

/-- The last line is a trailer that fits. -/
def EndsVerified (lines : List PlacedLine) : Prop :=
  exists first between last file, lines = first :: (between ++ [last]) ∧ headerFile sealing first = some file ∧
    trailerFits sealing file between last = true

/-- Lines stand after the trailer at an offset, which is the line of a number. -/
def DropsTail (lines : List PlacedLine) (bodyLen count : Nat) : Prop :=
  exists covered trailer dropped, lines = covered ++ trailer :: dropped ∧ dropped ≠ [] ∧
    trailer.start = bodyLen ∧ covered.length + 1 = count

/-! ## Lines as they are fed -/

theorem trim_newline (text : List Char) : trim (text ++ ['\n']) = trim text := by
  unfold trim
  rw [List.dropWhile_append]
  by_cases blank : (text.dropWhile isWhitespace).isEmpty = true
  · rw [if_pos blank, List.isEmpty_iff.mp blank]
    rfl
  · rw [if_neg blank, List.rdropWhile_concat_pos _ _ _ (by rfl)]

theorem push_feeds {whole line : List Char} (feeds : line = whole ∨ line ++ ['\n'] = whole) (verifier : Verifier) :
    verifier.push sealing line = verifier.push sealing whole := by
  rcases feeds with same | same
  · rw [same]
  · rw [← same]
    unfold Verifier.push
    rw [trim_newline]

/-- What a verifier holds after some lines of a file. -/
def accepted (verifier : Verifier) (lines : List PlacedLine) : Verifier :=
  lines.foldl (fun verifier line => verifier.accept sealing line.text) verifier

theorem foldl_push_placed (wholes lines : List (List Char))
    (feeds : List.Forall₂ (fun whole line => line = whole ∨ line ++ ['\n'] = whole) wholes lines)
    (verifier : Verifier) (number offset : Nat) :
    lines.foldl (Verifier.push sealing) verifier = accepted sealing verifier (placeLines number offset wholes) := by
  induction feeds generalizing verifier number offset with
  | nil => rfl
  | @cons whole line wholes lines first rest ih =>
      rw [List.foldl_cons, push_feeds sealing first, placeLines, Verifier.push]
      by_cases blank : (trim whole).isEmpty = true
      · rw [if_pos blank, if_pos blank]
        exact ih verifier _ _
      · rw [if_neg blank, if_neg blank]
        exact ih _ _ _

/-- What a line opens as does not depend on where it stands. -/
theorem openPlaced_ok_text {line other : PlacedLine} (same : line.text = other.text) {opened : SealedLine}
    (opens : openPlaced sealing line = .ok opened) : openPlaced sealing other = .ok opened := by
  unfold openPlaced sealedBytesOf at opens ⊢
  rw [← same]
  cases bytes : sealing.sealedBytes line.text with
  | none =>
      rw [bytes] at opens
      cases opens
  | some bytes' =>
      rw [bytes] at opens
      exact opens

theorem isTrailerLine_text {line other : PlacedLine} (same : line.text = other.text) :
    isTrailerLine sealing line = isTrailerLine sealing other := by
  unfold isTrailerLine
  cases opened : openPlaced sealing line with
  | ok result => rw [openPlaced_ok_text sealing same opened]
  | error error =>
      cases other_opened : openPlaced sealing other with
      | error _ => rfl
      | ok result =>
          rw [openPlaced_ok_text sealing same.symm other_opened] at opened
          cases opened

/-! ## Where lines start -/

theorem start_le_placed (number offset : Nat) (lines : List (List Char)) :
    forall line, line ∈ placeLines number offset lines -> offset ≤ line.start := by
  induction lines generalizing number offset with
  | nil =>
      intro line member
      cases member
  | cons whole rest ih =>
      intro line member
      rw [placeLines] at member
      have later := fun inside => ih (number + 1) (offset + (encodeUtf8 whole).length) line inside
      by_cases blank : (trim whole).isEmpty = true
      · rw [if_pos blank] at member
        exact Nat.le_trans (Nat.le_add_right _ _) (later member)
      · rw [if_neg blank] at member
        rcases List.mem_cons.mp member with here | inside
        · rw [here]
        · exact Nat.le_trans (Nat.le_add_right _ _) (later inside)

/-- Lines start one after the other. -/
theorem placed_sorted (number offset : Nat) (lines : List (List Char)) :
    (placeLines number offset lines).Pairwise (fun line later => line.start < later.start) := by
  induction lines generalizing number offset with
  | nil => exact List.Pairwise.nil
  | cons whole rest ih =>
      rw [placeLines]
      by_cases blank : (trim whole).isEmpty = true
      · rw [if_pos blank]
        exact ih _ _
      · rw [if_neg blank]
        apply List.pairwise_cons.mpr
        refine ⟨?_, ih _ _⟩
        intro line member
        have filled : whole ≠ [] := by
          intro nothing
          rw [nothing] at blank
          exact blank rfl
        have long : 0 < (encodeUtf8 whole).length :=
          List.length_pos_iff.mpr (fun nothing => filled (encodeUtf8_injective nothing))
        have after := start_le_placed _ _ _ line member
        exact Nat.lt_of_lt_of_le (Nat.lt_add_of_pos_right long) after

/-- A line is found again by where it starts. -/
theorem split_by_start {lines covered dropped covered' dropped' : List PlacedLine} {trailer trailer' : PlacedLine}
    (sorted : lines.Pairwise (fun line later => line.start < later.start))
    (first : lines = covered ++ trailer :: dropped) (second : lines = covered' ++ trailer' :: dropped')
    (same : trailer.start = trailer'.start) : covered = covered' ∧ dropped = dropped' := by
  induction covered generalizing lines covered' with
  | nil =>
      cases covered' with
      | nil =>
          rw [first] at second
          exact ⟨rfl, (List.cons.inj second).2⟩
      | cons line rest =>
          rw [second] at sorted
          have apart := List.rel_of_pairwise_cons sorted (List.mem_append_right rest List.mem_cons_self)
          rw [first] at second
          rw [← (List.cons.inj second).1, same] at apart
          exact absurd apart (Nat.lt_irrefl _)
  | cons line rest ih =>
      cases covered' with
      | nil =>
          rw [first] at sorted second
          have apart := List.rel_of_pairwise_cons sorted (List.mem_append_right rest List.mem_cons_self)
          rw [(List.cons.inj second).1, ← same] at apart
          exact absurd apart (Nat.lt_irrefl _)
      | cons line' rest' =>
          rw [first] at sorted second
          have tails := (List.cons.inj second).2
          rcases ih (List.pairwise_cons.mp sorted).2 rfl tails with ⟨fronts, backs⟩
          rw [(List.cons.inj second).1, fronts]
          exact ⟨rfl, backs⟩

/-! ## One line -/

variable {verifier : Verifier}

namespace Verifier

theorem lineOf_text (verifier : Verifier) (text : List Char) : (verifier.lineOf text).text = text := rfl

theorem accept_ok {verifier next : Verifier} {text : List Char} (sound : verifier.damage = none)
    (stepped : verifier.counted.step sealing (verifier.lineOf text) = (next, .ok ())) :
    verifier.accept sealing text = next := by
  unfold accept
  rw [sound]
  simp only [stepped]

theorem accept_error {verifier next : Verifier} {text : List Char} {error : FaucetError}
    (sound : verifier.damage = none)
    (stepped : verifier.counted.step sealing (verifier.lineOf text) = (next, .error error)) :
    verifier.accept sealing text = { next with damage := some error } := by
  unfold accept
  rw [sound]
  simp only [stepped]

/-- After damage only trailers are looked for. -/
theorem accept_damaged {error : FaucetError} (broken : verifier.damage = some error) (line : PlacedLine) :
    verifier.accept sealing line.text =
      { verifier with
        lines := verifier.lines + 1
        trailerAfterDamage := verifier.trailerAfterDamage || isTrailerLine sealing line } := by
  have same : isTrailerLine sealing (verifier.lineOf line.text) = isTrailerLine sealing line :=
    isTrailerLine_text sealing rfl
  unfold accept
  rw [broken]
  simp only [same]
  cases isTrailerLine sealing line with
  | true =>
      rw [if_pos rfl, Bool.or_true, counted, broken]
  | false =>
      rw [if_neg Bool.false_ne_true, Bool.or_false, counted, broken]

theorem accepted_damaged (lines : List PlacedLine) {error : FaucetError} (broken : verifier.damage = some error) :
    accepted sealing verifier lines =
      { verifier with
        lines := verifier.lines + lines.length
        trailerAfterDamage := verifier.trailerAfterDamage || lines.any (isTrailerLine sealing) } := by
  unfold accepted
  induction lines generalizing verifier with
  | nil => simp only [List.foldl_nil, List.length_nil, Nat.add_zero, List.any_nil, Bool.or_false]
  | cons line rest ih =>
      have still : (verifier.accept sealing line.text).damage = some error := by
        rw [accept_damaged sealing broken]
        exact broken
      rw [List.foldl_cons, ih still, accept_damaged sealing broken]
      simp only [List.length_cons, List.any_cons, Bool.or_assoc, Nat.add_assoc, Nat.add_comm 1]

end Verifier

/-! ## Along a sealed file -/

/-- The last trailer that fitted, as the scan and as the verifier keep it. -/
inductive Settles (file : String) (before : List PlacedLine) :
    Option (LineSeal × Nat × Nat) -> Option Nat -> Bool -> Prop where
  | nowhere : Settles file before none none false
  | settled (covered dropped : List PlacedLine) (trailer : PlacedLine) (state : LineSeal) (length : Nat)
      (split : before = covered ++ trailer :: dropped) (fits : trailerFits sealing file covered trailer = true)
      (records : forall line, line ∈ dropped -> isTrailerLine sealing line = false) :
      Settles file before (some (state, length, trailer.start)) (some (covered.length + 2)) dropped.isEmpty

/-- The scan and the verifier after the same lines of an undamaged file. -/
structure Follows (file : String) (before : List PlacedLine) (scan : ScanState) (verifier : Verifier) : Prop where
  lines : verifier.lines = before.length + 1
  state : verifier.state = .sealed scan.state
  running : scan.state = runningState sealing file before
  sound : verifier.damage = none
  intact : verifier.trailerAfterDamage = false
  ended : verifier.endedOnTrailer = scan.endedOnTrailer
  settles : Settles sealing file before scan.settled verifier.settledLines scan.endedOnTrailer

theorem runningState_concat (file : String) (before : List PlacedLine) (line : PlacedLine) :
    runningState sealing file (before ++ [line]) =
      match openPlaced sealing line with
      | .ok ⟨.data, _⟩ => (runningState sealing file before).fold line.text
      | _ => runningState sealing file before := by
  unfold runningState
  rw [List.foldl_append, List.foldl_cons, List.foldl_nil]

/-- A line that is no trailer stands after the last trailer that fitted. -/
theorem Settles.record {file : String} {before : List PlacedLine} {settled : Option (LineSeal × Nat × Nat)}
    {count : Option Nat} {ended : Bool} (settles : Settles sealing file before settled count ended) {line : PlacedLine}
    (records : isTrailerLine sealing line = false) : Settles sealing file (before ++ [line]) settled count false := by
  cases settles with
  | nowhere => exact .nowhere
  | settled covered dropped trailer state length split fits others =>
      have more : (dropped ++ [line]).isEmpty = false := by
        apply List.isEmpty_eq_false_iff.mpr
        exact List.append_ne_nil_of_right_ne_nil dropped (List.cons_ne_nil line [])
      have extended : before ++ [line] = covered ++ trailer :: (dropped ++ [line]) := by
        rw [split, List.append_assoc, List.cons_append]
      rw [← more]
      apply Settles.settled covered (dropped ++ [line]) trailer state length extended fits
      intro other member
      rcases List.mem_append.mp member with inside | last
      · exact others other inside
      · rw [List.mem_singleton.mp last, records]

/-- An undamaged line. -/
theorem Follows.accept {file : String} {before : List PlacedLine} {scan next : ScanState}
    (follows : Follows sealing file before scan verifier) {line : PlacedLine}
    (scanned : scanLine sealing scan line = .ok next) :
    Follows sealing file (before ++ [line]) next (verifier.accept sealing line.text) := by
  cases opened : openPlaced sealing line with
  | error error =>
      unfold scanLine at scanned
      rw [opened] at scanned
      cases scanned
  | ok result =>
      have here : openPlaced sealing (verifier.lineOf line.text) = .ok result :=
        openPlaced_ok_text sealing (verifier.lineOf_text line.text).symm opened
      have running := runningState_concat sealing file before line
      have length : verifier.lines + 1 = (before ++ [line]).length + 1 := by
        rw [follows.lines, List.length_append, List.length_singleton]
      rcases result with ⟨role, body⟩
      unfold scanLine at scanned
      rw [opened] at scanned running
      cases role with
      | header => cases scanned
      | data =>
          cases scanned
          have stepped : verifier.counted.step sealing (verifier.lineOf line.text) =
              ({ verifier.counted with state := .sealed (scan.state.fold line.text), endedOnTrailer := false },
                .ok ()) := by
            unfold Verifier.step Verifier.counted
            simp only [follows.state, here]
            rfl
          rw [Verifier.accept_ok sealing follows.sound stepped]
          refine ⟨length, rfl, ?_, follows.sound, follows.intact, rfl, ?_⟩
          · rw [running, follows.running]
          · have records : isTrailerLine sealing line = false := by
              unfold isTrailerLine
              rw [opened]
            exact follows.settles.record sealing records
      | trailer =>
          cases verified : verifyTrailer sealing body scan.state with
          | error error =>
              simp only [verified] at scanned
              cases scanned
          | ok done =>
              simp only [verified] at scanned
              cases scanned
              have stepped : verifier.counted.step sealing (verifier.lineOf line.text) =
                  ({ verifier.counted with settledLines := some (verifier.lines + 1), endedOnTrailer := true },
                    .ok ()) := by
                unfold Verifier.step Verifier.counted
                simp only [follows.state, here, verified]
                rfl
              rw [Verifier.accept_ok sealing follows.sound stepped]
              refine ⟨length, follows.state, ?_, follows.sound, follows.intact, rfl, ?_⟩
              · rw [running, follows.running]
              · have fits : trailerFits sealing file before line = true := by
                  unfold trailerFits
                  rw [opened, ← follows.running]
                  simp only [verified]
                  rfl
                have settled := Settles.settled before [] line scan.state scan.plain.length rfl fits
                  (fun _ member => nomatch member)
                rw [follows.lines]
                exact settled

theorem openPlaced_error_text {line other : PlacedLine} (same : line.text = other.text) {error : FaucetError}
    (opens : openPlaced sealing line = .error error) : exists error', openPlaced sealing other = .error error' := by
  cases opened : openPlaced sealing other with
  | error error' => exact ⟨error', rfl⟩
  | ok result =>
      rw [openPlaced_ok_text sealing same.symm opened] at opens
      cases opens

/-- A line that the scan stops at. -/
theorem Follows.damage {file : String} {before : List PlacedLine} {scan : ScanState}
    (follows : Follows sealing file before scan verifier) {line : PlacedLine} {error : FaucetError}
    (scanned : scanLine sealing scan line = .error error) :
    exists error', verifier.accept sealing line.text = { verifier.counted with damage := some error' } := by
  have stays : forall error', verifier.counted.step sealing (verifier.lineOf line.text) =
      (verifier.counted, .error error') -> exists error',
        verifier.accept sealing line.text = { verifier.counted with damage := some error' } :=
    fun error' stepped => ⟨error', Verifier.accept_error sealing follows.sound stepped⟩
  have state : verifier.counted.state = .sealed scan.state := follows.state
  cases opened : openPlaced sealing line with
  | error failure =>
      rcases openPlaced_error_text sealing (verifier.lineOf_text line.text).symm opened with ⟨failure', here⟩
      apply stays failure'
      unfold Verifier.step
      simp only [state, here]
  | ok result =>
      have here : openPlaced sealing (verifier.lineOf line.text) = .ok result :=
        openPlaced_ok_text sealing (verifier.lineOf_text line.text).symm opened
      rcases result with ⟨role, body⟩
      unfold scanLine at scanned
      rw [opened] at scanned
      cases role with
      | data => cases scanned
      | header =>
          apply stays
          unfold Verifier.step
          simp only [state, here]
          rfl
      | trailer =>
          cases verified : verifyTrailer sealing body scan.state with
          | ok done =>
              simp only [verified] at scanned
              cases scanned
          | error failure =>
              apply stays failure
              unfold Verifier.step
              simp only [state, here, verified]

/-- A line that the scan stops at is no trailer that fits. -/
theorem Follows.damage_unfit {file : String} {before : List PlacedLine} {scan : ScanState}
    (follows : Follows sealing file before scan verifier) {line : PlacedLine} {error : FaucetError}
    (scanned : scanLine sealing scan line = .error error) : trailerFits sealing file before line = false := by
  unfold trailerFits
  unfold scanLine at scanned
  cases opened : openPlaced sealing line with
  | error failure => rfl
  | ok result =>
      rcases result with ⟨role, body⟩
      rw [opened] at scanned
      cases role with
      | data => rfl
      | header => rfl
      | trailer =>
          rw [← follows.running]
          cases verified : verifyTrailer sealing body scan.state with
          | error failure =>
              simp only [verified]
              rfl
          | ok done =>
              simp only [verified] at scanned
              cases scanned

theorem trailerFits_isTrailerLine {file : String} {before : List PlacedLine} {line : PlacedLine}
    (fits : trailerFits sealing file before line = true) : isTrailerLine sealing line = true := by
  unfold trailerFits at fits
  unfold isTrailerLine
  cases opened : openPlaced sealing line with
  | error failure =>
      rw [opened] at fits
      cases fits
  | ok result =>
      rcases result with ⟨role, body⟩
      rw [opened] at fits
      cases role with
      | data => cases fits
      | header => cases fits
      | trailer => rfl

/-! ## The whole file -/

/-- A verdict that agrees with a scan of the lines. -/
inductive Agrees (lines : List PlacedLine) : Except FaucetError Verdict -> Except FaucetError Opened -> Prop where
  | whole (plain : List UInt8) (state : LineSeal) (covered : List PlacedLine) (trailer : PlacedLine)
      (split : lines = covered ++ [trailer]) (ends : EndsVerified sealing lines) :
      Agrees lines (.ok .whole) (.ok (.whole plain state trailer.start))
  | unfinishedTail (plain : List UInt8) (state : LineSeal) (bodyLen count : Nat)
      (drops : DropsTail lines bodyLen count) (torn : ¬ EndsVerified sealing lines) :
      Agrees lines (.ok (.unfinishedTail count)) (.ok (.whole plain state bodyLen))
  | legacy (plain : List UInt8) : Agrees lines (.ok .legacy) (.ok (.legacy plain))
  | empty : Agrees lines (.ok .empty) (.ok .empty)
  | failed (error error' : FaucetError) : Agrees lines (.error error) (.error error')

/-- A file whose last line does not fit as a trailer. -/
theorem not_endsVerified {first : PlacedLine} {file : String} {front : List PlacedLine} {last : PlacedLine}
    (headed : headerFile sealing first = some file) (unfit : trailerFits sealing file front last = false) :
    ¬ EndsVerified sealing (first :: (front ++ [last])) := by
  rintro ⟨first', between, last', file', same, headed', fits⟩
  rcases List.cons.inj same with ⟨firsts, rests⟩
  rcases List.append_inj' rests rfl with ⟨fronts, lasts⟩
  rw [← firsts, headed] at headed'
  rw [← fronts, ← (List.cons.inj lasts).1, ← Option.some.inj headed', unfit] at fits
  cases fits

theorem not_endsVerified_of_records {first : PlacedLine} {file : String} {front dropped : List PlacedLine}
    (headed : headerFile sealing first = some file) (filled : dropped ≠ [])
    (records : forall line, line ∈ dropped -> isTrailerLine sealing line = false) :
    ¬ EndsVerified sealing (first :: (front ++ dropped)) := by
  rcases List.eq_nil_or_concat dropped with nothing | ⟨others, last, split⟩
  · exact absurd nothing filled
  · rw [List.concat_eq_append] at split
    rw [split, ← List.append_assoc]
    apply not_endsVerified sealing headed
    apply Bool.eq_false_iff.mpr
    intro fits
    have trailer := trailerFits_isTrailerLine sealing fits
    rw [records last (by rw [split]; exact List.mem_append_right others List.mem_cons_self)] at trailer
    cases trailer

theorem not_endsVerified_of_damage {first : PlacedLine} {file : String} {before rest : List PlacedLine}
    {line : PlacedLine} (headed : headerFile sealing first = some file)
    (unfit : trailerFits sealing file before line = false) (later : rest.any (isTrailerLine sealing) = false) :
    ¬ EndsVerified sealing (first :: (before ++ line :: rest)) := by
  cases rest with
  | nil => exact not_endsVerified sealing headed unfit
  | cons next others =>
      rw [List.append_cons]
      apply not_endsVerified_of_records sealing headed (List.cons_ne_nil next others)
      intro record member
      exact Bool.eq_false_iff.mpr (List.any_eq_false.mp later record member)

theorem dropsTail_of_split {first : PlacedLine} {lines covered dropped : List PlacedLine} {trailer : PlacedLine}
    (split : lines = covered ++ trailer :: dropped) (filled : dropped ≠ []) :
    DropsTail (first :: lines) trailer.start (covered.length + 2) :=
  ⟨first :: covered, trailer, dropped, by rw [split, List.cons_append], filled, rfl, rfl⟩

/-- The verdict after the header of a sealed file.  The induction is on the
lines that are left; `Follows` carries what both have seen. -/
theorem Follows.agrees {first : PlacedLine} {file : String} (headed : headerFile sealing first = some file)
    (rest : List PlacedLine) {before : List PlacedLine} {scan : ScanState}
    (follows : Follows sealing file before scan verifier) :
    Agrees sealing (first :: (before ++ rest)) (accepted sealing verifier rest).finish
      (scanLines sealing true rest scan) := by
  induction rest generalizing before scan verifier with
  | nil =>
      have settles := follows.settles
      rw [List.append_nil]
      change Agrees sealing (first :: before) verifier.finish (scanLines sealing true [] scan)
      unfold Verifier.finish scanLines
      rw [follows.sound, follows.state, follows.ended]
      generalize scan.settled = settled at settles
      generalize verifier.settledLines = count at settles
      generalize scan.endedOnTrailer = ended at settles
      cases settles with
      | nowhere => exact .failed _ _
      | settled covered dropped trailer state length split fits records =>
          cases dropped with
          | nil =>
              apply Agrees.whole scan.plain state (first :: covered) trailer
              · rw [split, List.cons_append]
              · exact ⟨first, covered, trailer, file, by rw [split], headed, fits⟩
          | cons next others =>
              apply Agrees.unfinishedTail
              · exact dropsTail_of_split split (List.cons_ne_nil _ _)
              · rw [split, List.append_cons]
                exact not_endsVerified_of_records sealing headed (List.cons_ne_nil _ _) records
  | cons line rest ih =>
      change Agrees sealing _ (accepted sealing (verifier.accept sealing line.text) rest).finish _
      rw [scanLines]
      cases scanned : scanLine sealing scan line with
      | ok next =>
          have agrees := ih (follows.accept sealing scanned)
          rw [List.append_assoc, List.singleton_append] at agrees
          exact agrees
      | error error =>
          rcases follows.damage sealing scanned with ⟨error', broken⟩
          rw [broken, Verifier.accepted_damaged sealing rest rfl]
          have settles := follows.settles
          have state : verifier.state = .sealed scan.state := follows.state
          have intact := follows.intact
          unfold onDamage Verifier.finish Verifier.counted
          simp only [state, intact, Bool.false_or, Bool.true_and]
          generalize scan.settled = settled at settles
          generalize verifier.settledLines = count at settles
          generalize scan.endedOnTrailer = ended at settles
          cases settles with
          | nowhere => exact .failed _ _
          | settled covered dropped trailer state length split fits records =>
              cases later : rest.any (isTrailerLine sealing) with
              | true => exact .failed _ _
              | false =>
                  apply Agrees.unfinishedTail
                  · apply dropsTail_of_split _ (List.append_ne_nil_of_right_ne_nil dropped (List.cons_ne_nil line rest))
                    rw [split, List.append_assoc, List.cons_append]
                  · exact not_endsVerified_of_damage sealing headed (follows.damage_unfit sealing scanned) later

/-! ## Files without a header -/

theorem decryptLine_text {line other : PlacedLine} (same : line.text = other.text) :
    (decryptLine sealing line).isOk = (decryptLine sealing other).isOk := by
  unfold decryptLine sealedBytesOf
  rw [same]
  cases sealing.sealedBytes other.text <;> rfl

theorem openLegacy_cons {line : PlacedLine} (opens : (decryptLine sealing line).isOk = true) (rest : List PlacedLine)
    (plain : List UInt8) : exists more, openLegacy sealing (line :: rest) plain = openLegacy sealing rest more := by
  unfold decryptLine at opens
  rw [openLegacy]
  cases bytes : sealedBytesOf sealing line with
  | error error =>
      rw [bytes] at opens
      cases opens
  | ok given =>
      simp only [bytes] at opens
      cases body : sealing.decrypt given with
      | error error =>
          rw [body] at opens
          cases opens
      | ok found => exact ⟨plain ++ found ++ [newlineByte], by simp only [body]⟩

theorem openLegacy_cons_error {line : PlacedLine} (fails : (decryptLine sealing line).isOk = false)
    (rest : List PlacedLine) (plain : List UInt8) :
    exists error, openLegacy sealing (line :: rest) plain = .error error := by
  unfold decryptLine at fails
  rw [openLegacy]
  cases bytes : sealedBytesOf sealing line with
  | error error => exact ⟨error, rfl⟩
  | ok given =>
      simp only [bytes] at fails
      cases body : sealing.decrypt given with
      | error error => exact ⟨error, by simp only [body]⟩
      | ok found =>
          rw [body] at fails
          cases fails

theorem finish_after_damage {error : FaucetError} (broken : verifier.damage = some error)
    (headless : forall state, verifier.state ≠ .sealed state) (rest : List PlacedLine) :
    exists error', (accepted sealing verifier rest).finish = .error error' := by
  rw [Verifier.accepted_damaged sealing rest broken]
  unfold Verifier.finish
  simp only [broken]
  cases kind : verifier.state with
  | sealed state => exact absurd kind (headless state)
  | start => exact ⟨error, rfl⟩
  | legacy => exact ⟨error, rfl⟩

/-- A line of a file without a header, the first or a later one. -/
theorem agrees_legacy_line (lines : List PlacedLine) {line : PlacedLine} {rest : List PlacedLine}
    {plain : List UInt8} (sound : verifier.damage = none)
    (stepped : verifier.counted.step sealing (verifier.lineOf line.text) =
      ({ verifier.counted with state := .legacy }, decryptLine sealing (verifier.lineOf line.text)))
    (later : forall more, Agrees sealing lines
      (accepted sealing { verifier.counted with state := .legacy } rest).finish (openLegacy sealing rest more)) :
    Agrees sealing lines (accepted sealing (verifier.accept sealing line.text) rest).finish
      (openLegacy sealing (line :: rest) plain) := by
  have same : (decryptLine sealing (verifier.lineOf line.text)).isOk = (decryptLine sealing line).isOk :=
    decryptLine_text sealing rfl
  cases decrypted : decryptLine sealing (verifier.lineOf line.text) with
  | ok done =>
      rw [decrypted] at same stepped
      rcases openLegacy_cons sealing same.symm rest plain with ⟨more, opens⟩
      rw [Verifier.accept_ok sealing sound stepped, opens]
      exact later more
  | error error =>
      rw [decrypted] at same stepped
      rcases openLegacy_cons_error sealing same.symm rest plain with ⟨failure, opens⟩
      rw [Verifier.accept_error sealing sound stepped, opens]
      have headless : forall state, VerifyState.legacy ≠ .sealed state := fun _ kind => nomatch kind
      have broken : { verifier.counted with state := .legacy, damage := some error }.damage = some error := rfl
      rcases finish_after_damage sealing broken headless rest with ⟨failure', finished⟩
      rw [finished]
      exact .failed failure' failure

theorem agrees_legacy (lines rest : List PlacedLine) (sound : verifier.damage = none)
    (state : verifier.state = .legacy) (plain : List UInt8) :
    Agrees sealing lines (accepted sealing verifier rest).finish (openLegacy sealing rest plain) := by
  induction rest generalizing verifier plain with
  | nil =>
      change Agrees sealing lines verifier.finish (.ok (.legacy plain))
      unfold Verifier.finish
      rw [sound, state]
      exact .legacy plain
  | cons line rest ih =>
      apply agrees_legacy_line sealing lines sound
      · have kind : verifier.counted.state = .legacy := state
        have still : { verifier.counted with state := .legacy } = verifier.counted := by
          rw [← kind]
        unfold Verifier.step
        rw [kind, still]
      · intro more
        apply ih
        · exact sound
        · rfl

/-- A first line that is neither a header nor a trailer. -/
theorem agrees_headless (lines : List PlacedLine) {first : PlacedLine} {rest : List PlacedLine}
    (stepped : Verifier.new.counted.step sealing (Verifier.new.lineOf first.text) =
      ({ Verifier.new.counted with state := .legacy }, decryptLine sealing (Verifier.new.lineOf first.text))) :
    Agrees sealing lines (accepted sealing .new (first :: rest)).finish (openLegacy sealing (first :: rest) []) :=
  agrees_legacy_line sealing lines rfl stepped (fun more => agrees_legacy sealing lines rest rfl rfl more)

/-- A first line that damages the file. -/
theorem agrees_unreadable (lines : List PlacedLine) {first : PlacedLine} {rest : List PlacedLine}
    {error failure : FaucetError}
    (stepped : Verifier.new.counted.step sealing (Verifier.new.lineOf first.text) =
      (Verifier.new.counted, .error error)) :
    Agrees sealing lines (accepted sealing .new (first :: rest)).finish (.error failure) := by
  have broken : { Verifier.new.counted with damage := some error }.damage = some error := rfl
  rcases finish_after_damage sealing broken (fun _ kind => nomatch kind) rest with ⟨failure', finished⟩
  change Agrees sealing lines (accepted sealing (Verifier.new.accept sealing first.text) rest).finish _
  rw [Verifier.accept_error sealing rfl stepped, finished]
  exact .failed failure' failure

/-- A first line that is a header. -/
theorem agrees_sealed {first : PlacedLine} {body : List UInt8} {header : Header}
    (opened : openPlaced sealing first = .ok ⟨.header, body⟩) (read : sealing.readHeader body = some header)
    (fits : header.version = version) (rest : List PlacedLine) :
    Agrees sealing (first :: rest) (accepted sealing .new (first :: rest)).finish
      (scanLines sealing true rest ⟨LineSeal.new header.file, [], none, false⟩) := by
  have start : Verifier.new.counted.state = .start := rfl
  have here := openPlaced_ok_text sealing (Verifier.new.lineOf_text first.text).symm opened
  have headed : headerFile sealing first = some header.file := by
    unfold headerFile
    rw [opened]
    simp only [read, if_pos fits]
  have stepped : Verifier.new.counted.step sealing (Verifier.new.lineOf first.text) =
      ({ Verifier.new.counted with state := .sealed (LineSeal.new header.file) }, .ok ()) := by
    unfold Verifier.step
    simp only [start, here, read, if_pos fits]
  have follows : Follows sealing header.file [] ⟨LineSeal.new header.file, [], none, false⟩
      (Verifier.new.accept sealing first.text) := by
    rw [Verifier.accept_ok sealing rfl stepped]
    exact ⟨rfl, rfl, rfl, rfl, rfl, rfl, .nowhere⟩
  exact follows.agrees sealing headed rest

/-- The verifier fed the lines of a text and the scan of the text. -/
theorem accepted_agrees (text : List Char) :
    Agrees sealing (placed text) (accepted sealing .new (placed text)).finish (scanText sealing text true) := by
  have place : placeLines 1 0 (everyLine '\n' text) = placed text := rfl
  unfold scanText
  rw [place]
  cases lines : placed text with
  | nil => exact .empty
  | cons first rest =>
      have start : Verifier.new.counted.state = .start := rfl
      have text := (Verifier.new.lineOf_text first.text).symm
      simp only
      cases bytes : sealedBytesOf sealing first with
      | error error =>
          have unopened : openPlaced sealing first = .error error := by
            unfold openPlaced
            rw [bytes]
          rcases openPlaced_error_text sealing text unopened with ⟨error', here⟩
          have legacy : openLegacy sealing (first :: rest) [] = .error error := by
            rw [openLegacy, bytes]
          change Agrees sealing _ _ (.error error)
          rw [← legacy]
          apply agrees_headless
          unfold Verifier.step
          simp only [start, here]
      | ok given =>
          have placedAs : openPlaced sealing first = sealing.openLine given := by
            unfold openPlaced
            rw [bytes]
          cases opened : sealing.openLine given with
          | error error =>
              rw [opened] at placedAs
              rcases openPlaced_error_text sealing text placedAs with ⟨error', here⟩
              simp only [opened]
              apply agrees_headless
              unfold Verifier.step
              simp only [start, here]
          | ok result =>
              rw [opened] at placedAs
              have here := openPlaced_ok_text sealing text placedAs
              rcases result with ⟨role, body⟩
              simp only [opened]
              cases role with
              | data =>
                  apply agrees_headless
                  unfold Verifier.step
                  simp only [start, here]
              | trailer =>
                  apply agrees_unreadable
                  unfold Verifier.step
                  simp only [start, here]
                  rfl
              | header =>
                  cases read : sealing.readHeader body with
                  | none =>
                      simp only [read]
                      apply agrees_unreadable
                      unfold Verifier.step
                      simp only [start, here, read]
                      rfl
                  | some header =>
                      by_cases fits : header.version = version
                      · simp only [read, if_pos fits]
                        exact agrees_sealed sealing placedAs read fits rest
                      · simp only [read, if_neg fits]
                        apply agrees_unreadable
                        unfold Verifier.step
                        simp only [start, here, read, if_neg fits]
                        rfl

/-! ## Verdicts -/

/-- The verdict a verifier reaches on some lines. -/
def verdict (lines : List (List Char)) : Except FaucetError Verdict :=
  (lines.foldl (Verifier.push sealing) .new).finish

theorem verdict_agrees {raw : List UInt8} {lines : List (List Char)}
    (feeds : Feeds (sealing.fromUtf8Lossy raw) lines) :
    Agrees sealing (placed (sealing.fromUtf8Lossy raw)) (verdict sealing lines) (openForAppend sealing raw) := by
  unfold verdict openForAppend
  rw [foldl_push_placed sealing _ lines feeds .new 1 0]
  exact accepted_agrees sealing (sealing.fromUtf8Lossy raw)

/-- Where the file ends on the trailer at an offset, nothing was dropped. -/
theorem not_dropsTail {text : List Char} {covered : List PlacedLine} {trailer : PlacedLine} {count : Nat}
    (split : placed text = covered ++ [trailer]) : ¬ DropsTail (placed text) trailer.start count := by
  rintro ⟨covered', trailer', dropped, again, filled, position, _⟩
  exact filled (split_by_start (placed_sorted 1 0 _) split again position.symm).2.symm

theorem dropsTail_unique {text : List Char} {bodyLen count count' : Nat} (drops : DropsTail (placed text) bodyLen count)
    (drops' : DropsTail (placed text) bodyLen count') : count = count' := by
  rcases drops with ⟨covered, trailer, dropped, split, _, position, length⟩
  rcases drops' with ⟨covered', trailer', dropped', split', _, position', length'⟩
  have same := (split_by_start (placed_sorted 1 0 _) split split' (position.trans position'.symm)).1
  rw [← length, ← length', same]

namespace Agrees

variable {sealing} {lines : List PlacedLine} {reached : Except FaucetError Verdict} {opened : Except FaucetError Opened}

theorem whole_iff (agrees : Agrees sealing lines reached opened) :
    reached = .ok .whole <->
      (exists plain state bodyLen, opened = .ok (.whole plain state bodyLen)) ∧ EndsVerified sealing lines := by
  cases agrees with
  | whole plain state covered trailer split ends =>
      exact ⟨fun _ => ⟨⟨plain, state, trailer.start, rfl⟩, ends⟩, fun _ => rfl⟩
  | unfinishedTail plain state bodyLen count drops torn =>
      exact ⟨fun same => (nomatch same), fun both => absurd both.2 torn⟩
  | legacy plain => simp
  | empty => simp
  | failed error error' => simp

theorem unfinishedTail_iff {text : List Char} (agrees : Agrees sealing (placed text) reached opened) (count : Nat) :
    reached = .ok (.unfinishedTail count) <->
      exists plain state bodyLen, opened = .ok (.whole plain state bodyLen) ∧
        DropsTail (placed text) bodyLen count := by
  cases agrees with
  | whole plain state covered trailer split ends =>
      constructor
      · intro same
        cases same
      · rintro ⟨plain', state', bodyLen, same, drops⟩
        cases same
        exact absurd drops (not_dropsTail split)
  | unfinishedTail plain state bodyLen count' drops torn =>
      constructor
      · intro same
        cases same
        exact ⟨plain, state, bodyLen, rfl, drops⟩
      · rintro ⟨plain', state', bodyLen', same, drops'⟩
        cases same
        rw [dropsTail_unique drops drops']
  | legacy plain => simp
  | empty => simp
  | failed error error' => simp

theorem legacy_iff (agrees : Agrees sealing lines reached opened) :
    reached = .ok .legacy <-> exists plain, opened = .ok (.legacy plain) := by
  cases agrees with
  | legacy plain => exact ⟨fun _ => ⟨plain, rfl⟩, fun _ => rfl⟩
  | _ => simp

theorem empty_iff (agrees : Agrees sealing lines reached opened) :
    reached = .ok .empty <-> opened = .ok .empty := by
  cases agrees with
  | empty => exact ⟨fun _ => rfl, fun _ => rfl⟩
  | _ => simp

theorem error_iff (agrees : Agrees sealing lines reached opened) :
    (exists error, reached = .error error) <-> exists error, opened = .error error := by
  cases agrees with
  | failed error error' => exact ⟨fun _ => ⟨error', rfl⟩, fun _ => ⟨error, rfl⟩⟩
  | _ => simp

end Agrees

/-- The streaming verifier decides a file as the scan of the whole file does:
it finds the file whole, sees the same lines covered where the scan drops a
tail, and fails where the scan fails. -/
theorem verdict_eq_scan {raw : List UInt8} {lines : List (List Char)}
    (feeds : Feeds (sealing.fromUtf8Lossy raw) lines) :
    (verdict sealing lines = .ok .whole <->
      (exists plain state bodyLen, openForAppend sealing raw = .ok (.whole plain state bodyLen)) ∧
        EndsVerified sealing (placed (sealing.fromUtf8Lossy raw))) ∧
    (forall count, verdict sealing lines = .ok (.unfinishedTail count) <->
      exists plain state bodyLen, openForAppend sealing raw = .ok (.whole plain state bodyLen) ∧
        DropsTail (placed (sealing.fromUtf8Lossy raw)) bodyLen count) ∧
    (verdict sealing lines = .ok .legacy <-> exists plain, openForAppend sealing raw = .ok (.legacy plain)) ∧
    (verdict sealing lines = .ok .empty <-> openForAppend sealing raw = .ok .empty) ∧
    ((exists error, verdict sealing lines = .error error) <->
      exists error, openForAppend sealing raw = .error error) := by
  have agrees := verdict_agrees sealing feeds
  exact ⟨agrees.whole_iff, agrees.unfinishedTail_iff, agrees.legacy_iff, agrees.empty_iff, agrees.error_iff⟩

def sampleText : List Char := letterSealing.fromUtf8Lossy sampleExtended.raw

/-- A record after the only flush: three lines are covered, the fourth is not. -/
theorem verdict_eq_scan_extended :
    Feeds sampleText (everyLine '\n' sampleText) ∧
    verdict letterSealing (everyLine '\n' sampleText) = .ok (.unfinishedTail 3) ∧
    exists plain state bodyLen, openForAppend letterSealing sampleExtended.raw = .ok (.whole plain state bodyLen) ∧
      DropsTail (placed sampleText) bodyLen 3 := by
  have feeds : Feeds sampleText (everyLine '\n' sampleText) := List.forall₂_same.mpr (fun _ _ => Or.inl rfl)
  have reached : verdict letterSealing (everyLine '\n' sampleText) = .ok (.unfinishedTail 3) := by rfl
  exact ⟨feeds, reached, ((verdict_eq_scan letterSealing feeds).2.1 3).mp reached⟩

end SealedLines
end FaucetStream
