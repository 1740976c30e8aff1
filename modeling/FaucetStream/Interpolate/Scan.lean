import Mathlib.Data.List.Basic

namespace FaucetStream
namespace Interpolate

/-!
# Directives

A configuration text holds directives `${...}`, and the escape `$${`
for a literal dollar sign and brace.  The text is scanned from the left.  An
escape is stepped over, a directive reaches to the next closing brace, and a
directive that is not closed ends the scan.
-/

/-- What a scanner finds where it stands: an escape, a directive with a body of
some length, a directive that is not closed, or anything else. -/
inductive Look where
  | escape
  | directive (rel : Nat)
  | unclosed
  | plain
  deriving DecidableEq

def lookAt : List Char -> Look
  | '$' :: '$' :: '{' :: _ => .escape
  | '$' :: '{' :: rest =>
      match rest.findIdx? (fun c => c == '}') with
      | some rel => .directive rel
      | none => .unclosed
  | _ => .plain

inductive Directive where
  | loadTime (kind body : List Char)
  | deferred (id path : List Char)
  deriving DecidableEq

/-- `str::split_once` at a character. -/
def splitOnce (mark : Char) (text : List Char) : Option (List Char × List Char) :=
  match text.findIdx? (fun c => c == mark) with
  | some index => some (text.take index, text.drop (index + 1))
  | none => none

def classifyDirective (body : List Char) : Directive :=
  match splitOnce ':' body with
  | some (kind, rest) => .loadTime kind rest
  | none =>
      match splitOnce '.' body with
      | some (id, path) => .deferred id path
      | none => .deferred body []

/-- A directive's full text and what it is. -/
abbrev Token := List Char × Directive

def tokenOf (body : List Char) : Token := ('$' :: '{' :: (body ++ ['}']), classifyDirective body)

/-- The scan, with the number of characters that are still to be stepped over. -/
def iterFrom : Nat -> List Char -> List Token
  | _, [] => []
  | skip + 1, _ :: rest => iterFrom skip rest
  | 0, c :: rest =>
      match lookAt (c :: rest) with
      | .escape => iterFrom 1 rest
      | .directive rel => tokenOf ((rest.drop 1).take rel) :: iterFrom (rel + 2) rest
      | .unclosed => []
      | .plain => iterFrom 0 rest

def iterDirectives (text : List Char) : List Token := iterFrom 0 text

/-- `$${` is replaced by `${`. -/
def unescape : List Char -> List Char
  | '$' :: '$' :: '{' :: rest => '$' :: '{' :: unescape rest
  | c :: rest => c :: unescape rest
  | [] => []

/-! ## What a text begins with -/

/-- This character begins neither an escape nor a directive. -/
def PlainAt (c : Char) (rest : List Char) : Prop :=
  c = '$' -> (forall tail, rest ≠ '{' :: tail) ∧ (forall tail, rest ≠ '$' :: '{' :: tail)

theorem PlainAt.of_ne {c : Char} (other : c ≠ '$') (rest : List Char) : PlainAt c rest :=
  fun same => absurd same other

theorem PlainAt.of_isPrefix {c : Char} {text rest : List Char} (plain : PlainAt c text) (front : rest <+: text) :
    PlainAt c rest := by
  rcases front with ⟨more, rfl⟩
  intro dollar
  refine ⟨?_, ?_⟩
  · rintro tail rfl
    exact (plain dollar).1 (tail ++ more) rfl
  · rintro tail rfl
    exact (plain dollar).2 (tail ++ more) rfl

theorem lookAt_of_plain {c : Char} {rest : List Char} (plain : PlainAt c rest) : lookAt (c :: rest) = .plain := by
  unfold lookAt
  split
  case h_1 tail same =>
    cases same
    exact absurd rfl ((plain rfl).2 tail)
  case h_2 tail same =>
    cases same
    exact absurd rfl ((plain rfl).1 tail)
  case h_3 => rfl

theorem findIdx_of_first {body rest : List Char} (absent : '}' ∉ body) :
    (body ++ '}' :: rest).findIdx? (fun c => c == '}') = some body.length := by
  induction body with
  | nil => rfl
  | cons c body ih =>
      rw [List.mem_cons, not_or] at absent
      rw [List.cons_append, List.findIdx?_cons, ih absent.2]
      rw [if_neg (fun same => absent.1 (beq_iff_eq.mp same).symm)]
      rfl

theorem findIdx_of_absent {rest : List Char} (absent : '}' ∉ rest) :
    rest.findIdx? (fun c => c == '}') = none := by
  rw [List.findIdx?_eq_none_iff]
  intro c among
  exact beq_eq_false_iff_ne.mpr (fun same => absent (same ▸ among))

theorem lookAt_directive {body rest : List Char} (absent : '}' ∉ body) :
    lookAt ('$' :: '{' :: (body ++ '}' :: rest)) = .directive body.length := by
  change (match (body ++ '}' :: rest).findIdx? (fun c => c == '}') with
    | some rel => Look.directive rel
    | none => Look.unclosed) = _
  rw [findIdx_of_first absent]

theorem lookAt_unclosed {rest : List Char} (absent : '}' ∉ rest) : lookAt ('$' :: '{' :: rest) = .unclosed := by
  change (match rest.findIdx? (fun c => c == '}') with
    | some rel => Look.directive rel
    | none => Look.unclosed) = _
  rw [findIdx_of_absent absent]

/-- The ways a text can begin. -/
inductive Begins : List Char -> Prop
  | ended : Begins []
  | escape (rest : List Char) : Begins ('$' :: '$' :: '{' :: rest)
  | directive (body rest : List Char) (absent : '}' ∉ body) : Begins ('$' :: '{' :: (body ++ '}' :: rest))
  | unclosed (rest : List Char) (absent : '}' ∉ rest) : Begins ('$' :: '{' :: rest)
  | plain (c : Char) (rest : List Char) (isPlain : PlainAt c rest) : Begins (c :: rest)

theorem begins (text : List Char) : Begins text := by
  cases text with
  | nil => exact .ended
  | cons c rest =>
      by_cases plain : PlainAt c rest
      · exact .plain c rest plain
      · unfold PlainAt at plain
        rw [Classical.not_imp] at plain
        rcases plain with ⟨rfl, starts⟩
        by_cases brace : exists tail, rest = '{' :: tail
        · rcases brace with ⟨tail, rfl⟩
          by_cases closed : '}' ∈ tail
          · rcases List.eq_append_cons_of_mem closed with ⟨body, after, rfl, absent⟩
            exact .directive body after absent
          · exact .unclosed tail closed
        · have escaped : exists tail, rest = '$' :: '{' :: tail := by
            by_contra other
            exact starts ⟨fun tail same => brace ⟨tail, same⟩, fun tail same => other ⟨tail, same⟩⟩
          rcases escaped with ⟨tail, rfl⟩
          exact .escape tail

/-! ## The scan, piece by piece -/

theorem iterFrom_skip (skip : Nat) (text : List Char) : iterFrom skip text = iterDirectives (text.drop skip) := by
  induction skip generalizing text with
  | zero => rfl
  | succ skip ih =>
      cases text with
      | nil => rfl
      | cons c rest => exact ih rest

theorem iterDirectives_plain {c : Char} {rest : List Char} (plain : PlainAt c rest) :
    iterDirectives (c :: rest) = iterDirectives rest := by
  unfold iterDirectives
  conv => lhs; unfold iterFrom
  rw [lookAt_of_plain plain]

theorem iterDirectives_escape (rest : List Char) :
    iterDirectives ('$' :: '$' :: '{' :: rest) = iterDirectives rest := by
  change iterFrom 1 ('$' :: '{' :: rest) = _
  rw [iterFrom_skip]
  exact iterDirectives_plain (.of_ne (by decide) rest)

theorem iterDirectives_directive {body : List Char} (absent : '}' ∉ body) (rest : List Char) :
    iterDirectives ('$' :: '{' :: (body ++ '}' :: rest)) = tokenOf body :: iterDirectives rest := by
  unfold iterDirectives
  conv => lhs; unfold iterFrom
  rw [lookAt_directive absent]
  dsimp only
  rw [iterFrom_skip]
  change tokenOf ((body ++ '}' :: rest).take body.length) ::
    iterDirectives ((body ++ '}' :: rest).drop (body.length + 1)) = _
  rw [List.take_left, ← List.drop_drop, List.drop_left]
  rfl

theorem iterDirectives_unclosed {rest : List Char} (absent : '}' ∉ rest) :
    iterDirectives ('$' :: '{' :: rest) = [] := by
  unfold iterDirectives iterFrom
  rw [lookAt_unclosed absent]

/-- A text with no closing brace holds no directive. -/
theorem iterDirectives_of_absent {text : List Char} (absent : '}' ∉ text) : iterDirectives text = [] := by
  induction size : text.length using Nat.strongRecOn generalizing text with
  | ind size ih =>
      subst size
      cases begins text with
      | ended => rfl
      | escape rest =>
          rw [iterDirectives_escape]
          have restAbsent : '}' ∉ rest := fun among =>
            absent (List.mem_cons_of_mem _ (List.mem_cons_of_mem _ (List.mem_cons_of_mem _ among)))
          exact ih rest.length (by simp only [List.length_cons]; omega) restAbsent rfl
      | directive body rest _ =>
          exact absurd (List.mem_cons_of_mem _ (List.mem_cons_of_mem _ (List.mem_append_right body List.mem_cons_self)))
            absent
      | unclosed rest isAbsent => exact iterDirectives_unclosed isAbsent
      | plain c rest isPlain =>
          rw [iterDirectives_plain isPlain]
          exact ih rest.length (Nat.lt_succ_self _)
            (fun among => absent (List.mem_cons_of_mem c among)) rfl

/-! ## Escapes -/

theorem unescape_escape (rest : List Char) : unescape ('$' :: '$' :: '{' :: rest) = '$' :: '{' :: unescape rest := rfl

theorem unescape_plain {c : Char} {rest : List Char} (other : c = '$' -> forall tail, rest ≠ '$' :: '{' :: tail) :
    unescape (c :: rest) = c :: unescape rest := by
  conv => lhs; unfold unescape
  split
  case h_1 tail same =>
    cases same
    exact absurd rfl (other rfl tail)
  case h_2 same =>
    cases same
    rfl
  case h_3 same => cases same

/-- The end of one text and the beginning of another make up an escape. -/
def Straddles (front back : List Char) : Prop :=
  (['$'] <:+ front ∧ ['$', '{'] <+: back) ∨ (['$', '$'] <:+ front ∧ ['{'] <+: back)

instance (front back : List Char) : Decidable (Straddles front back) := by
  unfold Straddles
  infer_instance

theorem Straddles.of_append {front back : List Char} (more : List Char) (straddles : Straddles front back) :
    Straddles (more ++ front) back := by
  rcases straddles with ⟨ends, starts⟩ | ⟨ends, starts⟩
  · exact Or.inl ⟨ends.trans (List.suffix_append more front), starts⟩
  · exact Or.inr ⟨ends.trans (List.suffix_append more front), starts⟩

theorem Straddles.ends {front back : List Char} (straddles : Straddles front back) : ['$'] <:+ front := by
  rcases straddles with ⟨ends, _⟩ | ⟨ends, _⟩
  · exact ends
  · exact List.IsSuffix.trans ⟨['$'], rfl⟩ ends

theorem not_straddles_close (front back : List Char) : ¬Straddles (front ++ ['}']) back := by
  intro straddles
  have same := List.singleton_suffix_append_singleton_iff.mp straddles.ends
  exact absurd same (by decide)

theorem unescape_append {front back : List Char} (apart : ¬Straddles front back) :
    unescape (front ++ back) = unescape front ++ unescape back := by
  induction size : front.length using Nat.strongRecOn generalizing front with
  | ind size ih =>
      subst size
      cases front with
      | nil => rfl
      | cons c rest =>
          have tailApart : ¬Straddles rest back := fun straddles => apart (straddles.of_append [c])
          by_cases escaped : c = '$' ∧ exists tail, rest = '$' :: '{' :: tail
          · rcases escaped with ⟨rfl, tail, rfl⟩
            change '$' :: '{' :: unescape (tail ++ back) = '$' :: '{' :: (unescape tail ++ unescape back)
            have laterApart : ¬Straddles tail back := fun straddles => apart (straddles.of_append ['$', '$', '{'])
            rw [ih tail.length (by simp only [List.length_cons]; omega) laterApart rfl]
          · have otherFront : c = '$' -> forall tail, rest ≠ '$' :: '{' :: tail :=
              fun dollar tail same => escaped ⟨dollar, tail, same⟩
            have otherBoth : c = '$' -> forall tail, rest ++ back ≠ '$' :: '{' :: tail := by
              rintro rfl tail same
              apply apart
              match rest, same with
              | [], same => exact Or.inl ⟨List.suffix_rfl, ⟨tail, same.symm⟩⟩
              | [second], same =>
                  injection same with isDollar isBrace
                  rw [isDollar]
                  exact Or.inr ⟨List.suffix_rfl, ⟨tail, isBrace.symm⟩⟩
              | second :: third :: more, same =>
                  injection same with isDollar same
                  injection same with isBrace _
                  rw [isDollar, isBrace] at otherFront
                  exact absurd rfl (otherFront rfl more)
            rw [List.cons_append, unescape_plain otherBoth, unescape_plain otherFront,
              ih rest.length (Nat.lt_succ_self _) tailApart rfl]
            rfl

theorem unescape_brace (tail : List Char) : unescape ('{' :: tail) = '{' :: unescape tail :=
  unescape_plain (fun dollar => absurd dollar (by decide))

theorem unescape_open (tail : List Char) : unescape ('$' :: '{' :: tail) = '$' :: '{' :: unescape tail := by
  rw [unescape_plain, unescape_brace]
  intro _ other same
  injection same with brace _
  exact absurd brace (by decide)

theorem unescape_inside (front tail : List Char) :
    unescape (front ++ '$' :: '$' :: '{' :: tail) = unescape front ++ '$' :: '{' :: unescape tail := by
  rw [unescape_append, unescape_escape]
  rintro (⟨_, starts⟩ | ⟨_, starts⟩)
  · exact absurd (List.cons_prefix_cons.mp (List.cons_prefix_cons.mp starts).2).1 (by decide)
  · exact absurd (List.cons_prefix_cons.mp starts).1 (by decide)

theorem unescape_append_dollar (front : List Char) : unescape (front ++ ['$']) = unescape front ++ ['$'] := by
  rw [unescape_append]
  · rfl
  · rintro (⟨_, starts⟩ | ⟨_, starts⟩)
    · exact absurd starts (by decide)
    · exact absurd starts (by decide)

theorem unescape_append_dollars (front : List Char) :
    unescape (front ++ ['$', '$']) = unescape front ++ ['$', '$'] := by
  rw [unescape_append]
  · rfl
  · rintro (⟨_, starts⟩ | ⟨_, starts⟩)
    · exact absurd starts (by decide)
    · exact absurd starts (by decide)

/-- An escape that two texts make up loses a character that neither loses. -/
theorem length_unescape_of_straddles {front back : List Char} (straddles : Straddles front back) :
    (unescape (front ++ back)).length < (unescape front).length + (unescape back).length := by
  rcases straddles with ⟨⟨rest, rfl⟩, ⟨tail, rfl⟩⟩ | ⟨⟨rest, rfl⟩, ⟨tail, rfl⟩⟩
  · rw [List.append_assoc]
    change (unescape (rest ++ ('$' :: '$' :: '{' :: tail))).length < _ + (unescape ('$' :: '{' :: tail)).length
    rw [unescape_inside, unescape_append_dollar, unescape_open]
    simp only [List.length_append, List.length_cons, List.length_nil]
    omega
  · rw [List.append_assoc]
    change (unescape (rest ++ ('$' :: '$' :: '{' :: tail))).length < _ + (unescape ('{' :: tail)).length
    rw [unescape_inside, unescape_append_dollars, unescape_brace]
    simp only [List.length_append, List.length_cons, List.length_nil]
    omega

theorem length_unescape_append_le (front back : List Char) :
    (unescape (front ++ back)).length ≤ (unescape front).length + (unescape back).length := by
  by_cases straddles : Straddles front back
  · exact Nat.le_of_lt (length_unescape_of_straddles straddles)
  · exact Nat.le_of_eq (by rw [unescape_append straddles, List.length_append])

/-- No piece ends in a part of an escape that the text after it makes whole. -/
def Clean : List (List Char) -> Prop
  | [] => True
  | piece :: rest => ¬Straddles piece rest.flatten ∧ Clean rest

theorem length_unescape_flatten_le (pieces : List (List Char)) :
    (unescape pieces.flatten).length ≤ (pieces.flatMap unescape).length := by
  induction pieces with
  | nil => exact Nat.le_refl 0
  | cons piece rest ih =>
      rw [List.flatten_cons, List.flatMap_cons, List.length_append]
      exact Nat.le_trans (length_unescape_append_le piece rest.flatten) (Nat.add_le_add_left ih _)

/-- Pieces are unescaped one by one if and only if they make up no escape. -/
theorem unescape_flatten_iff (pieces : List (List Char)) :
    unescape pieces.flatten = pieces.flatMap unescape <-> Clean pieces := by
  induction pieces with
  | nil => exact ⟨fun _ => trivial, fun _ => rfl⟩
  | cons piece rest ih =>
      rw [List.flatten_cons, List.flatMap_cons]
      constructor
      · intro same
        have most := length_unescape_flatten_le rest
        have apart : ¬Straddles piece rest.flatten := by
          intro straddles
          have less := length_unescape_of_straddles straddles
          rw [same, List.length_append] at less
          omega
        rw [unescape_append apart] at same
        exact ⟨apart, ih.mp (List.append_cancel_left same)⟩
      · rintro ⟨apart, clean⟩
        rw [unescape_append apart, ih.mpr clean]

end Interpolate
end FaucetStream
