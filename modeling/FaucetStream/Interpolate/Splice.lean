import Mathlib.Data.List.Infix
import FaucetStream.Interpolate.Scan

namespace FaucetStream
namespace Interpolate

/-!
# Substituted text

A resolver answers each directive of a text with a value, or keeps it.  The
values are put in place, and a directive that begins in one segment of the
result and ends in another is written as an escape, where a segment is a value
or the text between two of them.
-/

/-- Answers the directives one after the other, by their number and body. -/
abbrev Resolver (Failure : Type) := Nat -> List Char -> Except Failure (Option (List Char))

/-- A rewritten text and the places of the substituted values. -/
structure Rewritten where
  out : List Char
  spans : List (Nat × Nat)
  deriving DecidableEq

def Rewritten.push (written : Rewritten) (text : List Char) : Rewritten :=
  { written with out := written.out ++ text }

def Rewritten.splice (written : Rewritten) (value : List Char) : Rewritten :=
  ⟨written.out ++ value, written.spans ++ [(written.out.length, written.out.length + value.length)]⟩

variable {Failure : Type}

def rewriteTracked (resolve : Resolver Failure) : (calls skip : Nat) -> Rewritten -> List Char ->
    Except Failure Rewritten
  | _, _, written, [] => .ok written
  | calls, skip + 1, written, _ :: rest => rewriteTracked resolve calls skip written rest
  | calls, 0, written, c :: rest =>
      match lookAt (c :: rest) with
      | .escape => rewriteTracked resolve calls 2 (written.push ['$', '$', '{']) rest
      | .unclosed => .ok (written.push (c :: rest))
      | .directive rel =>
          match resolve calls ((rest.drop 1).take rel) with
          | .error failure => .error failure
          | .ok (some value) => rewriteTracked resolve (calls + 1) (rel + 2) (written.splice value) rest
          | .ok none =>
              rewriteTracked resolve (calls + 1) (rel + 2) (written.push ((c :: rest).take (rel + 3))) rest
      | .plain => rewriteTracked resolve calls 0 (written.push [c]) rest

/-- The number of the segment a position lies in: even for text, odd for a
value. -/
def segment : List (Nat × Nat) -> Nat -> Nat
  | [], _ => 0
  | (start, finish) :: rest, pos =>
      if finish ≤ pos then segment rest pos + 2 else if start ≤ pos then 1 else 0

/-- The loop of `escape_formed`, which writes a dollar sign before a directive
whose ends lie in different segments. -/
def escapeFrom (segmentOf : Nat -> Nat) : (skip pos : Nat) -> List Char -> List Char
  | _, _, [] => []
  | skip + 1, pos, c :: rest => c :: escapeFrom segmentOf skip (pos + 1) rest
  | 0, pos, c :: rest =>
      match lookAt (c :: rest) with
      | .escape => c :: escapeFrom segmentOf 1 (pos + 1) rest
      | .unclosed => c :: rest
      | .directive rel =>
          if segmentOf pos = segmentOf (pos + 2 + rel) then c :: escapeFrom segmentOf (rel + 2) (pos + 1) rest
          else '$' :: c :: escapeFrom segmentOf 1 (pos + 1) rest
      | .plain => c :: escapeFrom segmentOf 0 (pos + 1) rest

def escapeFormed (written : Rewritten) : List Char :=
  if written.spans = [] ∨ ¬['$', '{'] <:+: written.out then written.out
  else escapeFrom (segment written.spans) 0 0 written.out

def rewriteSpliced (resolve : Resolver Failure) (input : List Char) : Except Failure (List Char) :=
  (rewriteTracked resolve 0 0 ⟨[], []⟩ input).map escapeFormed

/-! ## Segments -/

/-- A text cut where values were put in: the text before the first, and each
value with the text after it. -/
structure Spliced where
  head : List Char
  tail : List (List Char × List Char)
  deriving DecidableEq

namespace Spliced

def prepend (text : List Char) (spliced : Spliced) : Spliced := { spliced with head := text ++ spliced.head }

def substitute (value : List Char) (spliced : Spliced) : Spliced := ⟨[], (value, spliced.head) :: spliced.tail⟩

/-- The segments in order: text, value, text and so on. -/
def segments (spliced : Spliced) : List (List Char) :=
  spliced.head :: spliced.tail.flatMap (fun pair => [pair.1, pair.2])

end Spliced

def spansFrom : Nat -> List (List Char × List Char) -> List (Nat × Nat)
  | _, [] => []
  | start, (value, after) :: rest =>
      (start, start + value.length) :: spansFrom (start + value.length + after.length) rest

/-- How a resolver's answers cut a text. -/
def cutFrom (resolve : Resolver Failure) : (calls skip : Nat) -> List Char -> Except Failure Spliced
  | _, _, [] => .ok ⟨[], []⟩
  | calls, skip + 1, _ :: rest => cutFrom resolve calls skip rest
  | calls, 0, c :: rest =>
      match lookAt (c :: rest) with
      | .escape => (cutFrom resolve calls 2 rest).map (Spliced.prepend ['$', '$', '{'])
      | .unclosed => .ok ⟨c :: rest, []⟩
      | .directive rel =>
          match resolve calls ((rest.drop 1).take rel) with
          | .error failure => .error failure
          | .ok (some value) => (cutFrom resolve (calls + 1) (rel + 2) rest).map (Spliced.substitute value)
          | .ok none =>
              (cutFrom resolve (calls + 1) (rel + 2) rest).map (Spliced.prepend ((c :: rest).take (rel + 3)))
      | .plain => (cutFrom resolve calls 0 rest).map (Spliced.prepend [c])

def cut (resolve : Resolver Failure) (input : List Char) : Except Failure Spliced := cutFrom resolve 0 0 input

/-- The directives of a text, with those of a value in place of each directive
that it is substituted for. -/
def expectedDirectives (resolve : Resolver Failure) : Nat -> List Token -> List Token
  | _, [] => []
  | calls, token :: rest =>
      (match resolve calls ((token.1.drop 2).dropLast) with
        | .ok (some value) => iterDirectives value
        | _ => [token]) ++ expectedDirectives resolve (calls + 1) rest

/-! ## The rewriting is a cut -/

theorem map_then_map {α β γ : Type} (f : α -> β) (g : β -> γ) (x : Except Failure α) :
    (x.map f).map g = x.map (fun a => g (f a)) := by
  cases x with
  | error _ => rfl
  | ok _ => rfl

/-- What is written after a cut text is put behind what was there. -/
def Rewritten.extend (written : Rewritten) (spliced : Spliced) : Rewritten :=
  ⟨written.out ++ spliced.segments.flatten,
    written.spans ++ spansFrom (written.out.length + spliced.head.length) spliced.tail⟩

theorem extend_prepend (written : Rewritten) (text : List Char) (spliced : Spliced) :
    written.extend (spliced.prepend text) = (written.push text).extend spliced := by
  unfold Rewritten.extend Spliced.prepend Rewritten.push Spliced.segments
  dsimp only
  rw [List.flatten_cons, List.flatten_cons, List.length_append, List.length_append, List.append_assoc,
    List.append_assoc, Nat.add_assoc]

theorem extend_substitute (written : Rewritten) (value : List Char) (spliced : Spliced) :
    written.extend (spliced.substitute value) = (written.splice value).extend spliced := by
  unfold Rewritten.extend Spliced.substitute Rewritten.splice Spliced.segments
  dsimp only
  rw [List.length_append, List.length_nil, Nat.add_zero, List.append_assoc, List.append_assoc]
  rfl

theorem extend_empty (written : Rewritten) : written.extend ⟨[], []⟩ = written := by
  unfold Rewritten.extend
  change (⟨written.out ++ [], written.spans ++ []⟩ : Rewritten) = written
  rw [List.append_nil, List.append_nil]

theorem rewriteTracked_eq_cut (resolve : Resolver Failure) (calls skip : Nat) (written : Rewritten)
    (input : List Char) :
    rewriteTracked resolve calls skip written input =
      (cutFrom resolve calls skip input).map written.extend := by
  induction input generalizing calls skip written with
  | nil =>
      cases skip with
      | zero => exact congrArg Except.ok (extend_empty written).symm
      | succ skip => exact congrArg Except.ok (extend_empty written).symm
  | cons c rest ih =>
      cases skip with
      | succ skip => exact ih calls skip written
      | zero =>
          unfold rewriteTracked cutFrom
          cases lookAt (c :: rest) with
          | escape =>
              dsimp only
              rw [ih, map_then_map]
              simp only [extend_prepend]
          | unclosed =>
              refine congrArg Except.ok ?_
              unfold Rewritten.extend Rewritten.push Spliced.segments
              change (⟨_, _⟩ : Rewritten) = ⟨written.out ++ (c :: rest ++ []), written.spans ++ []⟩
              rw [List.append_nil, List.append_nil]
          | directive rel =>
              dsimp only
              cases resolve calls ((rest.drop 1).take rel) with
              | error failure => rfl
              | ok answer =>
                  cases answer with
                  | some value =>
                      dsimp only
                      rw [ih, map_then_map]
                      simp only [extend_substitute]
                  | none =>
                      dsimp only
                      rw [ih, map_then_map]
                      simp only [extend_prepend]
          | plain =>
              dsimp only
              rw [ih, map_then_map]
              simp only [extend_prepend]

/-! ## Where the segments lie -/

/-- The positions of a piece are told from all later ones of the text. -/
def Labelled (segmentOf : Nat -> Nat) : Nat -> List (List Char) -> Prop
  | _, [] => True
  | pos, piece :: rest =>
      (forall first other, first < piece.length -> other < piece.length + rest.flatten.length ->
        (segmentOf (pos + first) = segmentOf (pos + other) <-> other < piece.length)) ∧
        Labelled segmentOf (pos + piece.length) rest

theorem Labelled.of_shift {segmentOf other : Nat -> Nat} {pos : Nat} {pieces : List (List Char)}
    (shift : forall place, pos ≤ place -> segmentOf place = other place + 2)
    (labelled : Labelled other pos pieces) : Labelled segmentOf pos pieces := by
  induction pieces generalizing pos with
  | nil => trivial
  | cons piece rest ih =>
      refine ⟨?_, ?_⟩
      · intro first second within inside
        rw [shift _ (Nat.le_add_right pos first), shift _ (Nat.le_add_right pos second), Nat.add_right_cancel_iff]
        exact labelled.1 first second within inside
      · exact ih (fun place after => shift place (Nat.le_trans (Nat.le_add_right _ _) after))
          labelled.2

/-- The spans of a cut text tell its segments apart. -/
theorem labelled_segments (pos : Nat) (head : List Char) (tail : List (List Char × List Char)) :
    Labelled (segment (spansFrom (pos + head.length) tail)) pos
      (head :: tail.flatMap (fun pair => [pair.1, pair.2])) := by
  induction tail generalizing pos head with
  | nil =>
      refine ⟨?_, trivial⟩
      intro first other _ inside
      exact ⟨fun _ => inside, fun _ => rfl⟩
  | cons pair rest ih =>
      rcases pair with ⟨value, after⟩
      have onward := ih (pos + head.length + value.length) after
      change Labelled (segment ((pos + head.length, pos + head.length + value.length) ::
        spansFrom (pos + head.length + value.length + after.length) rest)) pos
          (head :: value :: after :: rest.flatMap (fun pair => [pair.1, pair.2]))
      have before : forall place, place < pos + head.length -> segment ((pos + head.length,
          pos + head.length + value.length) :: spansFrom (pos + head.length + value.length + after.length) rest)
            place = 0 := by
        intro place early
        unfold segment
        rw [if_neg (by omega), if_neg (by omega)]
      have inside : forall place, pos + head.length ≤ place -> place < pos + head.length + value.length ->
          segment ((pos + head.length, pos + head.length + value.length) ::
            spansFrom (pos + head.length + value.length + after.length) rest) place = 1 := by
        intro place late early
        unfold segment
        rw [if_neg (by omega), if_pos late]
      have beyond : forall place, pos + head.length + value.length ≤ place ->
          segment ((pos + head.length, pos + head.length + value.length) ::
            spansFrom (pos + head.length + value.length + after.length) rest) place =
              segment (spansFrom (pos + head.length + value.length + after.length) rest) place + 2 := by
        intro place late
        conv => lhs; unfold segment
        rw [if_pos late]
      generalize segment ((pos + head.length, pos + head.length + value.length) ::
        spansFrom (pos + head.length + value.length + after.length) rest) = segmentOf at before inside beyond ⊢
      refine ⟨?_, ?_, onward.of_shift beyond⟩
      · intro first other within _
        rw [before _ (by omega)]
        constructor
        · intro same
          by_contra outside
          rcases Nat.lt_or_ge (pos + other) (pos + head.length + value.length) with early | late
          · rw [inside _ (by omega) early] at same
            cases same
          · rw [beyond _ late] at same
            cases same
        · intro alsoWithin
          rw [before _ (by omega)]
      · intro first other within _
        rw [inside _ (by omega) (by omega)]
        constructor
        · intro same
          by_contra outside
          rw [beyond _ (by omega)] at same
          cases same
        · intro alsoWithin
          rw [inside _ (by omega) (by omega)]

theorem Labelled.drop {segmentOf : Nat -> Nat} {pos : Nat} (front : List Char) {piece : List Char}
    {rest : List (List Char)} (labelled : Labelled segmentOf pos ((front ++ piece) :: rest)) :
    Labelled segmentOf (pos + front.length) (piece :: rest) := by
  refine ⟨?_, ?_⟩
  · intro first other within inside
    have known := labelled.1 (front.length + first) (front.length + other)
    rw [List.length_append, ← Nat.add_assoc, ← Nat.add_assoc] at known
    rw [known (by omega) (by omega)]
    omega
  · have onward := labelled.2
    rw [List.length_append, ← Nat.add_assoc] at onward
    exact onward

theorem Clean.drop (front : List Char) {piece : List Char} {rest : List (List Char)}
    (clean : Clean ((front ++ piece) :: rest)) : Clean (piece :: rest) :=
  ⟨fun straddles => clean.1 (straddles.of_append front), clean.2⟩

/-! ## The loop over the formed directives -/

variable {segmentOf : Nat -> Nat}

theorem escapeFrom_skip (skip pos : Nat) (text : List Char) : escapeFrom segmentOf skip pos text =
    text.take skip ++ escapeFrom segmentOf 0 (pos + skip) (text.drop skip) := by
  induction skip generalizing pos text with
  | zero => rfl
  | succ skip ih =>
      cases text with
      | nil => rfl
      | cons c rest =>
          change c :: escapeFrom segmentOf skip (pos + 1) rest = c :: (rest.take skip ++ _)
          rw [ih, Nat.add_assoc, Nat.add_comm 1 skip]
          rfl

theorem escapeFrom_plain {c : Char} {rest : List Char} (plain : PlainAt c rest) (pos : Nat) :
    escapeFrom segmentOf 0 pos (c :: rest) = c :: escapeFrom segmentOf 0 (pos + 1) rest := by
  conv => lhs; unfold escapeFrom
  rw [lookAt_of_plain plain]

theorem escapeFrom_escape (pos : Nat) (rest : List Char) :
    escapeFrom segmentOf 0 pos ('$' :: '$' :: '{' :: rest) =
      '$' :: '$' :: '{' :: escapeFrom segmentOf 0 (pos + 3) rest := by
  change '$' :: '$' :: escapeFrom segmentOf 0 (pos + 2) ('{' :: rest) = _
  rw [escapeFrom_plain (.of_ne (by decide) rest)]

theorem escapeFrom_unclosed {rest : List Char} (absent : '}' ∉ rest) (pos : Nat) :
    escapeFrom segmentOf 0 pos ('$' :: '{' :: rest) = '$' :: '{' :: rest := by
  unfold escapeFrom
  rw [lookAt_unclosed absent]

theorem escapeFrom_kept {body : List Char} (absent : '}' ∉ body) (rest : List Char) {pos : Nat}
    (same : segmentOf pos = segmentOf (pos + 2 + body.length)) :
    escapeFrom segmentOf 0 pos ('$' :: '{' :: (body ++ '}' :: rest)) =
      '$' :: '{' :: (body ++ '}' :: escapeFrom segmentOf 0 (pos + (body.length + 3)) rest) := by
  conv => lhs; unfold escapeFrom
  rw [lookAt_directive absent]
  dsimp only
  rw [if_pos same, escapeFrom_skip]
  change '$' :: '{' :: ((body ++ '}' :: rest).take (body.length + 1) ++
    escapeFrom segmentOf 0 (pos + 1 + (body.length + 2)) ((body ++ '}' :: rest).drop (body.length + 1))) = _
  rw [List.take_length_add_append, List.drop_length_add_append, List.append_assoc, Nat.add_assoc pos 1,
    Nat.add_comm 1 (body.length + 2)]
  rfl

theorem escapeFrom_formed {body : List Char} (absent : '}' ∉ body) (rest : List Char) {pos : Nat}
    (different : segmentOf pos ≠ segmentOf (pos + 2 + body.length)) :
    escapeFrom segmentOf 0 pos ('$' :: '{' :: (body ++ '}' :: rest)) =
      '$' :: '$' :: '{' :: escapeFrom segmentOf 0 (pos + 2) (body ++ '}' :: rest) := by
  conv => lhs; unfold escapeFrom
  rw [lookAt_directive absent]
  dsimp only
  rw [if_neg different]
  rfl

/-- What is written begins a directive only where the text does. -/
theorem PlainAt.escapeFrom {c : Char} {text : List Char} (plain : PlainAt c text) (pos : Nat) :
    PlainAt c (escapeFrom segmentOf 0 pos text) := by
  induction size : text.length using Nat.strongRecOn generalizing c text pos with
  | ind size ih =>
      subst size
      intro dollar
      cases begins text with
      | ended => exact plain dollar
      | escape rest =>
          rw [escapeFrom_escape]
          refine ⟨?_, ?_⟩
          · intro tail same
            injection same with isBrace _
            exact absurd isBrace (by decide)
          · intro tail same
            injection same with _ same
            injection same with isBrace _
            exact absurd isBrace (by decide)
      | directive body rest absent => exact absurd rfl ((plain dollar).2 (body ++ '}' :: rest))
      | unclosed rest absent => exact absurd rfl ((plain dollar).2 rest)
      | plain d rest isPlain =>
          rw [escapeFrom_plain isPlain]
          refine ⟨?_, ?_⟩
          · intro tail same
            injection same with isBrace _
            rw [isBrace] at plain
            exact absurd rfl ((plain dollar).1 rest)
          · intro tail same
            injection same with isDollar begun
            exact (ih rest.length (Nat.lt_succ_self _) isPlain (pos + 1) rfl isDollar).1 tail begun

/-- The written escapes stand for what was there. -/
theorem unescape_escapeFrom (pos : Nat) (text : List Char) :
    unescape (escapeFrom segmentOf 0 pos text) = unescape text := by
  induction size : text.length using Nat.strongRecOn generalizing pos text with
  | ind size ih =>
      subst size
      cases begins text with
      | ended => rfl
      | escape rest =>
          rw [escapeFrom_escape, unescape_escape, unescape_escape,
            ih rest.length (by simp only [List.length_cons]; omega) _ rest rfl]
      | directive body rest absent =>
          by_cases same : segmentOf pos = segmentOf (pos + 2 + body.length)
          · rw [escapeFrom_kept absent rest same]
            have closes : forall back, unescape ('$' :: '{' :: (body ++ '}' :: back)) =
                unescape ('$' :: '{' :: body ++ ['}']) ++ unescape back := by
              intro back
              rw [← unescape_append (not_straddles_close _ back), List.append_assoc]
              rfl
            have fewer : rest.length < ('$' :: '{' :: (body ++ '}' :: rest)).length := by
              simp only [List.length_cons, List.length_append]
              omega
            rw [closes (escapeFrom segmentOf 0 _ rest), closes rest, ih rest.length fewer _ rest rfl]
          · rw [escapeFrom_formed absent rest same, unescape_escape, unescape_open,
              ih (body ++ '}' :: rest).length (by simp only [List.length_cons]; omega) _ _ rfl]
      | unclosed rest absent => rw [escapeFrom_unclosed absent]
      | plain c rest isPlain =>
          have outPlain : PlainAt c (escapeFrom segmentOf 0 (pos + 1) rest) := isPlain.escapeFrom (pos + 1)
          rw [escapeFrom_plain isPlain, unescape_plain (fun dollar => (outPlain dollar).2),
            unescape_plain (fun dollar => (isPlain dollar).2),
            ih rest.length (Nat.lt_succ_self _) _ rest rfl]

theorem split_front {front back text more : List Char} (same : front ++ back = text ++ more)
    (long : text.length ≤ front.length) : exists rest, front = text ++ rest ∧ rest ++ back = more := by
  rcases List.append_eq_append_iff.mp same with ⟨rest, isText, isBack⟩ | ⟨rest, isFront, isMore⟩
  · have none : rest = [] := by
      rw [isText, List.length_append] at long
      exact List.length_eq_zero_iff.mp (by omega)
    subst none
    rw [List.append_nil] at isText
    exact ⟨[], by rw [isText, List.append_nil], isBack⟩
  · exact ⟨rest, isFront, isMore.symm⟩

/-- An escape lies within the piece it begins in. -/
theorem escape_within {c : Char} {front back tail : List Char} (apart : ¬Straddles (c :: front) back)
    (same : c :: front ++ back = '$' :: '$' :: '{' :: tail) :
    exists rest, c :: front = '$' :: '$' :: '{' :: rest ∧ rest ++ back = tail := by
  injection same with isDollar same
  subst isDollar
  match front, same with
  | [], same => exact absurd (Or.inl ⟨List.suffix_rfl, ⟨tail, same.symm⟩⟩) apart
  | [second], same =>
      injection same with isSecond same
      subst isSecond
      exact absurd (Or.inr ⟨List.suffix_rfl, ⟨tail, same.symm⟩⟩) apart
  | second :: third :: rest, same =>
      injection same with isSecond same
      injection same with isThird same
      subst isSecond isThird
      exact ⟨rest, rfl, same⟩

theorem flatMap_iterDirectives_of_absent {pieces : List (List Char)} (absent : '}' ∉ pieces.flatten) :
    pieces.flatMap iterDirectives = [] := by
  rw [List.flatMap_eq_nil_iff]
  intro piece among
  exact iterDirectives_of_absent (fun closes => absent (List.mem_flatten.mpr ⟨piece, among, closes⟩))

/-- The directives of what is written are those of the pieces, one by one, when
the pieces make up no escape. -/
theorem iterDirectives_escapeFrom {pos : Nat} {piece : List Char} {rest : List (List Char)}
    (labelled : Labelled segmentOf pos (piece :: rest)) (clean : Clean (piece :: rest)) :
    iterDirectives (escapeFrom segmentOf 0 pos (piece ++ rest.flatten)) =
      iterDirectives piece ++ rest.flatMap iterDirectives := by
  induction size : (piece ++ rest.flatten).length + rest.length using Nat.strongRecOn
    generalizing pos piece rest with
  | ind size ih =>
      subst size
      cases piece with
      | nil =>
          cases rest with
          | nil => rfl
          | cons next rest =>
              rw [List.nil_append, List.flatten_cons]
              refine ih _ ?_ labelled.2 clean.2 rfl
              simp only [List.nil_append, List.flatten_cons, List.length_cons]
              omega
      | cons c front =>
          have shorter : (front ++ rest.flatten).length + rest.length <
              (c :: front ++ rest.flatten).length + rest.length := by
            rw [List.cons_append, List.length_cons]
            omega
          have onFront := ih _ shorter (.drop [c] labelled) (.drop [c] clean) rfl
          generalize isText : c :: front ++ rest.flatten = text
          cases begins text with
          | ended => cases isText
          | escape tail =>
              rcases escape_within clean.1 isText with ⟨after, isPiece, rfl⟩
              rw [isPiece] at labelled clean ⊢
              rw [escapeFrom_escape, iterDirectives_escape, iterDirectives_escape]
              have fewer : (after ++ rest.flatten).length + rest.length <
                  (c :: front ++ rest.flatten).length + rest.length := by
                rw [isPiece]
                simp only [List.length_cons, List.length_append]
                omega
              exact ih _ fewer (.drop ['$', '$', '{'] labelled) (.drop ['$', '$', '{'] clean) rfl
          | directive body tail absent =>
              have told := labelled.1 0 (2 + body.length) (Nat.succ_pos _) (by
                have sizes := congrArg List.length isText
                simp only [List.length_cons, List.length_append] at sizes
                rw [List.length_cons]
                omega)
              rw [Nat.add_zero, ← Nat.add_assoc] at told
              by_cases within : 2 + body.length < (c :: front).length
              · have whole : c :: front ++ rest.flatten = ('$' :: '{' :: (body ++ ['}'])) ++ tail := by
                  rw [isText, List.cons_append, List.cons_append, List.append_assoc]
                  rfl
                rcases split_front whole (by
                  simp only [List.length_cons, List.length_append, List.length_nil] at within ⊢
                  omega) with ⟨after, isPiece, rfl⟩
                have isDirective : c :: front = '$' :: '{' :: (body ++ '}' :: after) := by
                  rw [isPiece, List.cons_append, List.cons_append, List.append_assoc]
                  rfl
                have fewer : (after ++ rest.flatten).length + rest.length <
                    (c :: front ++ rest.flatten).length + rest.length := by
                  rw [isPiece]
                  simp only [List.length_cons, List.length_append]
                  omega
                rw [isPiece] at labelled clean
                have onAfter := ih _ fewer (.drop _ labelled) (.drop _ clean) rfl
                simp only [List.length_cons, List.length_append, List.length_nil] at onAfter
                rw [escapeFrom_kept absent _ (told.mpr within), iterDirectives_directive absent, isDirective,
                  iterDirectives_directive absent, onAfter]
                rfl
              · have ahead : '$' :: '{' :: body ++ '}' :: tail = c :: front ++ rest.flatten := isText.symm
                rcases split_front ahead (by
                  simp only [List.length_cons] at within ⊢
                  omega) with ⟨more, isPrefix, _⟩
                have none : '}' ∉ c :: front := by
                  intro closes
                  have among : '}' ∈ '$' :: '{' :: body := isPrefix ▸ List.mem_append_left more closes
                  rcases List.mem_cons.mp among with impossible | among
                  · exact absurd impossible (by decide)
                  · rcases List.mem_cons.mp among with impossible | among
                    · exact absurd impossible (by decide)
                    · exact absent among
                injection isText with _ isTail
                rw [escapeFrom_formed absent _ (fun same => within (told.mp same)), iterDirectives_escape,
                  iterDirectives_of_absent none]
                rw [List.append_eq] at isTail
                rw [isTail, escapeFrom_plain (.of_ne (by decide) _), iterDirectives_plain (.of_ne (by decide) _),
                  iterDirectives_of_absent (fun closes => none (List.mem_cons_of_mem c closes))] at onFront
                exact onFront
          | unclosed tail absent =>
              have none : '}' ∉ c :: front ++ rest.flatten := by
                rw [isText]
                intro closes
                rcases List.mem_cons.mp closes with impossible | closes
                · exact absurd impossible (by decide)
                · rcases List.mem_cons.mp closes with impossible | closes
                  · exact absurd impossible (by decide)
                  · exact absent closes
              rw [escapeFrom_unclosed absent, iterDirectives_unclosed absent,
                iterDirectives_of_absent (fun closes => none (List.mem_append_left _ closes)),
                flatMap_iterDirectives_of_absent (fun closes => none (List.mem_append_right _ closes))]
              rfl
          | plain d tail isPlain =>
              cases isText
              rw [escapeFrom_plain isPlain, iterDirectives_plain (isPlain.escapeFrom (pos + 1)),
                iterDirectives_plain (isPlain.of_isPrefix (List.prefix_append front rest.flatten))]
              exact onFront

/-! ## The cut, piece by piece -/

section Cut

variable {resolve : Resolver Failure} {calls : Nat}

theorem cutFrom_skip (skip : Nat) (text : List Char) :
    cutFrom resolve calls skip text = cutFrom resolve calls 0 (text.drop skip) := by
  induction skip generalizing text with
  | zero => rfl
  | succ skip ih =>
      cases text with
      | nil => rfl
      | cons c rest => exact ih rest

theorem cutFrom_plain {c : Char} {rest : List Char} (plain : PlainAt c rest) :
    cutFrom resolve calls 0 (c :: rest) = (cutFrom resolve calls 0 rest).map (Spliced.prepend [c]) := by
  conv => lhs; unfold cutFrom
  rw [lookAt_of_plain plain]

theorem cutFrom_escape (rest : List Char) : cutFrom resolve calls 0 ('$' :: '$' :: '{' :: rest) =
    (cutFrom resolve calls 0 rest).map (Spliced.prepend ['$', '$', '{']) := by
  change (cutFrom resolve calls 2 ('$' :: '{' :: rest)).map _ = _
  rw [cutFrom_skip]
  rfl

theorem cutFrom_unclosed {rest : List Char} (absent : '}' ∉ rest) :
    cutFrom resolve calls 0 ('$' :: '{' :: rest) = .ok ⟨'$' :: '{' :: rest, []⟩ := by
  unfold cutFrom
  rw [lookAt_unclosed absent]

/-- What a directive adds to a cut, by the answer to its body. -/
def cutDirective (body : List Char) (onward : Except Failure Spliced) :
    Except Failure (Option (List Char)) -> Except Failure Spliced
  | .error failure => .error failure
  | .ok (some value) => onward.map (Spliced.substitute value)
  | .ok none => onward.map (Spliced.prepend ('$' :: '{' :: (body ++ ['}'])))

theorem cutFrom_directive {body : List Char} (absent : '}' ∉ body) (rest : List Char) :
    cutFrom resolve calls 0 ('$' :: '{' :: (body ++ '}' :: rest)) =
      cutDirective body (cutFrom resolve (calls + 1) 0 rest) (resolve calls body) := by
  have isBody : (('{' :: (body ++ '}' :: rest)).drop 1).take body.length = body := List.take_left
  have isRest : ('{' :: (body ++ '}' :: rest)).drop (body.length + 2) = rest := List.drop_length_add_append 1
  have isToken : ('$' :: '{' :: (body ++ '}' :: rest)).take (body.length + 3) = '$' :: '{' :: (body ++ ['}']) :=
    congrArg (fun text => '$' :: '{' :: text) (List.take_length_add_append 1)
  conv => lhs; unfold cutFrom
  rw [lookAt_directive absent]
  dsimp only
  rw [isBody, cutFrom_skip, isRest, isToken]
  cases resolve calls body with
  | error failure => rfl
  | ok answer =>
      cases answer with
      | some value => rfl
      | none => rfl

theorem map_eq_ok {Value Result : Type} {outcome : Except Failure Value} {f : Value -> Result} {result : Result}
    (mapped : outcome.map f = .ok result) : exists value, outcome = .ok value ∧ f value = result := by
  cases outcome with
  | error failure => cases mapped
  | ok value => exact ⟨value, rfl, Except.ok.inj mapped⟩

theorem head_isPrefix {input : List Char} {spliced : Spliced} (isCut : cutFrom resolve calls 0 input = .ok spliced) :
    spliced.head <+: input := by
  induction size : input.length using Nat.strongRecOn generalizing calls input spliced with
  | ind size ih =>
      subst size
      cases begins input with
      | ended =>
          cases isCut
          exact List.prefix_rfl
      | escape rest =>
          rw [cutFrom_escape] at isCut
          rcases map_eq_ok isCut with ⟨after, isAfter, rfl⟩
          have front := ih rest.length (by simp only [List.length_cons]; omega) isAfter rfl
          exact (List.prefix_append_right_inj ['$', '$', '{']).mpr front
      | directive body rest absent =>
          rw [cutFrom_directive absent] at isCut
          have fewer : rest.length < ('$' :: '{' :: (body ++ '}' :: rest)).length := by
            simp only [List.length_cons, List.length_append]
            omega
          cases answer : resolve calls body with
          | error failure =>
              rw [answer] at isCut
              cases isCut
          | ok kept =>
              rw [answer] at isCut
              cases kept with
              | some value =>
                  rcases map_eq_ok isCut with ⟨after, _, rfl⟩
                  exact List.nil_prefix
              | none =>
                  rcases map_eq_ok isCut with ⟨after, isAfter, rfl⟩
                  have front := ih rest.length fewer isAfter rfl
                  have whole := (List.prefix_append_right_inj ('$' :: '{' :: (body ++ ['}']))).mpr front
                  rw [List.cons_append, List.cons_append, List.cons_append, List.cons_append, List.append_assoc,
                    List.append_assoc] at whole
                  change '$' :: '{' :: (body ++ ['}'] ++ after.head) <+: _
                  rw [List.append_assoc]
                  exact whole
      | unclosed rest absent =>
          rw [cutFrom_unclosed absent] at isCut
          cases isCut
          exact List.prefix_rfl
      | plain c rest isPlain =>
          rw [cutFrom_plain isPlain] at isCut
          rcases map_eq_ok isCut with ⟨after, isAfter, rfl⟩
          have front := ih rest.length (Nat.lt_succ_self _) isAfter rfl
          exact (List.prefix_append_right_inj [c]).mpr front

/-- The directives of the segments are those that are expected of the text. -/
theorem expectedDirectives_cut {input : List Char} {spliced : Spliced}
    (isCut : cutFrom resolve calls 0 input = .ok spliced) :
    expectedDirectives resolve calls (iterDirectives input) = spliced.segments.flatMap iterDirectives := by
  induction size : input.length using Nat.strongRecOn generalizing calls input spliced with
  | ind size ih =>
      subst size
      cases begins input with
      | ended =>
          cases isCut
          rfl
      | escape rest =>
          rw [cutFrom_escape] at isCut
          rcases map_eq_ok isCut with ⟨after, isAfter, rfl⟩
          rw [iterDirectives_escape,
            ih rest.length (by simp only [List.length_cons]; omega) isAfter rfl]
          change iterDirectives after.head ++ _ = iterDirectives ('$' :: '$' :: '{' :: after.head) ++ _
          rw [iterDirectives_escape]
          rfl
      | directive body rest absent =>
          rw [cutFrom_directive absent] at isCut
          have fewer : rest.length < ('$' :: '{' :: (body ++ '}' :: rest)).length := by
            simp only [List.length_cons, List.length_append]
            omega
          rw [iterDirectives_directive absent]
          change (match resolve calls ((body ++ ['}']).dropLast) with
            | .ok (some value) => iterDirectives value
            | _ => [tokenOf body]) ++ expectedDirectives resolve (calls + 1) (iterDirectives rest) = _
          rw [List.dropLast_concat]
          cases answer : resolve calls body with
          | error failure =>
              rw [answer] at isCut
              cases isCut
          | ok kept =>
              rw [answer] at isCut
              cases kept with
              | some value =>
                  rcases map_eq_ok isCut with ⟨after, isAfter, rfl⟩
                  rw [ih rest.length fewer isAfter rfl]
                  rfl
              | none =>
                  rcases map_eq_ok isCut with ⟨after, isAfter, rfl⟩
                  rw [ih rest.length fewer isAfter rfl]
                  change _ = iterDirectives ('$' :: '{' :: (body ++ ['}'] ++ after.head)) ++ _
                  rw [List.append_assoc]
                  change _ = iterDirectives ('$' :: '{' :: (body ++ '}' :: after.head)) ++ _
                  rw [iterDirectives_directive absent]
                  rfl
      | unclosed rest absent =>
          rw [cutFrom_unclosed absent] at isCut
          cases isCut
          rw [iterDirectives_unclosed absent]
          change [] = iterDirectives ('$' :: '{' :: rest) ++ []
          rw [iterDirectives_unclosed absent]
          rfl
      | plain c rest isPlain =>
          rw [cutFrom_plain isPlain] at isCut
          rcases map_eq_ok isCut with ⟨after, isAfter, rfl⟩
          rw [iterDirectives_plain isPlain, ih rest.length (Nat.lt_succ_self _) isAfter rfl]
          change iterDirectives after.head ++ _ = iterDirectives (c :: after.head) ++ _
          rw [iterDirectives_plain (isPlain.of_isPrefix (head_isPrefix isAfter))]
          rfl

end Cut

/-! ## The whole rewriting -/

theorem iterDirectives_of_no_open {text : List Char} (absent : ¬['$', '{'] <:+: text) : iterDirectives text = [] := by
  induction text with
  | nil => rfl
  | cons c rest ih =>
      have restAbsent : ¬['$', '{'] <:+: rest := fun among => absent (List.infix_cons among)
      rw [iterDirectives_plain, ih restAbsent]
      rintro rfl
      refine ⟨?_, ?_⟩
      · rintro tail rfl
        exact absent ⟨[], tail, rfl⟩
      · rintro tail rfl
        exact restAbsent ⟨[], tail, rfl⟩

theorem flatMap_iterDirectives_of_no_open {pieces : List (List Char)} (absent : ¬['$', '{'] <:+: pieces.flatten) :
    pieces.flatMap iterDirectives = [] := by
  rw [List.flatMap_eq_nil_iff]
  intro piece among
  exact iterDirectives_of_no_open (fun inside => absent (inside.trans (List.infix_of_mem_flatten among)))

/-- A text with its values in place. -/
def Spliced.rewritten (spliced : Spliced) : Rewritten :=
  ⟨spliced.segments.flatten, spansFrom spliced.head.length spliced.tail⟩

theorem rewriteSpliced_eq_cut (resolve : Resolver Failure) (input : List Char) :
    rewriteSpliced resolve input = (cut resolve input).map (fun spliced => escapeFormed spliced.rewritten) := by
  unfold rewriteSpliced cut
  rw [rewriteTracked_eq_cut, map_then_map]
  congr 1
  funext spliced
  unfold Rewritten.extend Spliced.rewritten
  dsimp only
  rw [List.nil_append, List.nil_append, List.length_nil, Nat.zero_add]

theorem unescape_escapeFormed (written : Rewritten) : unescape (escapeFormed written) = unescape written.out := by
  unfold escapeFormed
  split
  case isTrue => rfl
  case isFalse => exact unescape_escapeFrom 0 written.out

theorem iterDirectives_escapeFormed {spliced : Spliced} (clean : Clean spliced.segments) :
    iterDirectives (escapeFormed spliced.rewritten) = spliced.segments.flatMap iterDirectives := by
  unfold escapeFormed
  split
  case isTrue early =>
    rcases early with unsubstituted | absent
    · rcases spliced with ⟨head, tail⟩
      cases tail with
      | nil =>
          change iterDirectives (head ++ []) = iterDirectives head ++ []
          rw [List.append_nil, List.append_nil]
      | cons pair rest => cases unsubstituted
    · rw [flatMap_iterDirectives_of_no_open absent]
      exact iterDirectives_of_no_open absent
  case isFalse =>
    have labelled := labelled_segments 0 spliced.head spliced.tail
    rw [Nat.zero_add] at labelled
    exact iterDirectives_escapeFrom labelled clean

/-- The rewritten text holds the directives that the resolver kept and those of
the values, and every other character as it would be unescaped on its own, if
and only if no segment ends in a part of an escape that the text after it makes
whole. -/
theorem rewriteSpliced_iff {resolve : Resolver Failure} {input output : List Char}
    (ran : rewriteSpliced resolve input = .ok output) :
    exists spliced, cut resolve input = .ok spliced ∧
      ((iterDirectives output = expectedDirectives resolve 0 (iterDirectives input) ∧
        unescape output = spliced.segments.flatMap unescape) <-> Clean spliced.segments) := by
  rw [rewriteSpliced_eq_cut] at ran
  rcases map_eq_ok ran with ⟨spliced, isCut, rfl⟩
  refine ⟨spliced, isCut, ?_⟩
  rw [unescape_escapeFormed]
  constructor
  · rintro ⟨_, shown⟩
    exact (unescape_flatten_iff spliced.segments).mp shown
  · intro clean
    refine ⟨?_, (unescape_flatten_iff spliced.segments).mpr clean⟩
    rw [iterDirectives_escapeFormed clean]
    exact (expectedDirectives_cut isCut).symm

/-- The first directive is substituted by a dollar sign, and the others are
kept. -/
def dollarFirst : Resolver Unit := fun calls _ => .ok (if calls = 0 then some ['$'] else none)

def besideBraces : List Char := ['$', '{', 'a', '}', '{', 'b', '}']

def besideDirective : List Char := ['$', '{', 'a', '}', '$', '{', 'b', '}']

def escapedBraces : List Char := ['$', '$', '{', 'b', '}']

/-- A dollar sign and a brace that the text does not hold together stay
apart. -/
theorem rewriteSpliced_formed :
    exists spliced, cut dollarFirst besideBraces = .ok spliced ∧
      rewriteSpliced dollarFirst besideBraces = .ok escapedBraces ∧ iterDirectives escapedBraces = [] ∧
      unescape escapedBraces = spliced.segments.flatMap unescape := by
  have ran : rewriteSpliced dollarFirst besideBraces = .ok escapedBraces := by decide
  rcases rewriteSpliced_iff ran with ⟨spliced, isCut, whole⟩
  have known : cut dollarFirst besideBraces = .ok ⟨[], [(['$'], ['{', 'b', '}'])]⟩ := by decide
  have same := Except.ok.inj (isCut.symm.trans known)
  have clean : Clean spliced.segments := by
    rw [same]
    exact ⟨by decide, by decide, by decide, trivial⟩
  exact ⟨spliced, isCut, ran, (whole.mpr clean).1, (whole.mpr clean).2⟩

/-- The value and the directive after it make up an escape, and the directive
is lost. -/
theorem rewriteSpliced_loses_directive :
    rewriteSpliced dollarFirst besideDirective = .ok escapedBraces ∧ iterDirectives escapedBraces = [] ∧
      expectedDirectives dollarFirst 0 (iterDirectives besideDirective) = [tokenOf ['b']] := by
  decide

end Interpolate
end FaucetStream
