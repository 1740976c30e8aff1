import FaucetStream.OracleCdc.Redo

namespace FaucetStream
namespace OracleCdc

open Json Library

/-!
# Tokens and their texts

A list of tokens is read back from its text, whatever whitespace stands between
them, as long as there is some where two tokens would run together.
-/

variable {alphanumeric : Alphanumeric}

/-! ## Texts of tokens -/

def doubled (character : Char) : List Char := if character = '\'' then ['\'', '\''] else [character]

def Sym.text : Sym -> List Char
  | .leftParen => ['(']
  | .rightParen => [')']
  | .comma => [',']
  | .equals => ['=']
  | .dot => ['.']
  | .semicolon => [';']
  | .bars => ['|', '|']
  | .assigns => [':', '=']

def Tok.chars : Tok -> List Char
  | .ident name => '"' :: (name ++ ['"'])
  | .str text => '\'' :: (text.flatMap doubled ++ ['\''])
  | .word text => text
  | .sym mark => mark.text

def isPlainChar (character : Char) : Bool :=
  character.isAlphanum || character == '_' || character == '$' || character == '#'

/-- A word of ASCII letters, digits and the marks allowed in names. -/
def PlainWord : List Char -> Prop
  | [] => False
  | first :: rest => first.isAlpha = true ∧ rest.all isPlainChar = true

/-- A text the scanner takes for one number. -/
def NumberWord : List Char -> Prop
  | [] => False
  | first :: rest => startsNumber first rest = true ∧ scanNumber first rest = (rest, [])

def Tok.Legible : Tok -> Prop
  | .ident name => '"' ∉ name
  | .word text => PlainWord text ∨ NumberWord text
  | _ => True

/-! ## Where a token ends -/

def isPartOfWord (alphanumeric : Alphanumeric) (character : Char) : Bool :=
  isWordChar alphanumeric character || character == '.' || character == '+' || character == '-'

/-- What follows does not lengthen the token. -/
def Tok.EndsBefore (alphanumeric : Alphanumeric) (rest : List Char) : Tok -> Prop
  | .word _ => rest.head?.any (isPartOfWord alphanumeric) = false
  | .str _ => rest.head? ≠ some '\''
  | _ => True

theorem takeWhile_append_stop {A : Type} {holds : A -> Bool} {front rest : List A} (all : front.all holds = true)
    (stop : rest.head?.any holds = false) :
    (front ++ rest).takeWhile holds = front ∧ (front ++ rest).dropWhile holds = rest := by
  induction front with
  | nil =>
      cases rest with
      | nil => exact ⟨rfl, rfl⟩
      | cons item rest =>
          have off : holds item = false := stop
          rw [List.nil_append, List.takeWhile_cons, List.dropWhile_cons, off]
          exact ⟨rfl, rfl⟩
  | cons item front ih =>
      rw [List.all_cons, Bool.and_eq_true] at all
      rcases ih all.2 with ⟨taken, dropped⟩
      rw [List.cons_append, List.takeWhile_cons, List.dropWhile_cons, all.1, if_pos rfl, if_pos rfl, taken, dropped]
      exact ⟨rfl, rfl⟩

theorem isPartOfWord_of_ascii {character : Char} (small : character.toNat < 128)
    (part : (isPlainChar character || character == '.' || character == '+' || character == '-') = true) :
    isPartOfWord alphanumeric character = true := by
  unfold isPartOfWord isWordChar
  rw [alphanumeric.ascii character small]
  exact part

theorem isPartOfWord_of_continuesNumber {previous character : Char}
    (continues : continuesNumber previous character = true) : isPartOfWord alphanumeric character = true := by
  unfold continuesNumber at continues
  simp only [Bool.or_eq_true, Bool.and_eq_true, beq_iff_eq] at continues
  rcases continues with (((digit | rfl) | rfl) | rfl) | ⟨rfl | rfl, _⟩
  · have bounds : 48 ≤ character.toNat ∧ character.toNat ≤ 57 := Char.isDigit_iff_toNat.mp digit
    apply isPartOfWord_of_ascii (by omega)
    unfold isPlainChar Char.isAlphanum
    rw [digit]
    simp only [Bool.or_true, Bool.true_or]
  all_goals exact isPartOfWord_of_ascii (by decide) (by decide)

theorem scanNumber_append {previous : Char} {text rest : List Char} (whole : scanNumber previous text = (text, []))
    (stop : rest.head?.any (isPartOfWord alphanumeric) = false) :
    scanNumber previous (text ++ rest) = (text, rest) := by
  induction text generalizing previous with
  | nil =>
      cases rest with
      | nil => rfl
      | cons character rest =>
          have off : isPartOfWord alphanumeric character = false := stop
          have ends : ¬continuesNumber previous character = true := by
            intro continues
            rw [isPartOfWord_of_continuesNumber continues] at off
            cases off
          rw [List.nil_append, scanNumber, if_neg ends]
  | cons character text ih =>
      rw [scanNumber] at whole
      by_cases continues : continuesNumber previous character = true
      · rw [if_pos continues] at whole
        rcases split : scanNumber character text with ⟨more, remaining⟩
        rw [split] at whole
        cases whole
        rw [List.cons_append, scanNumber, if_pos continues, ih split]
      · rw [if_neg continues] at whole
        cases whole

theorem scanString_other {character : Char} (other : character ≠ '\'') (taken rest : List Char) :
    scanString taken (character :: rest) = scanString (taken ++ [character]) rest := by
  rw [scanString.eq_def]
  split
  · next empty => cases empty
  · next first shape => exact absurd (List.cons.inj shape).1 other
  · next first last shape => exact absurd (List.cons.inj shape).1 other
  · next first last shape =>
      rcases List.cons.inj shape with ⟨rfl, rfl⟩
      rfl

theorem scanString_doubled (taken text rest : List Char) :
    scanString taken (text.flatMap doubled ++ rest) = scanString (taken ++ text) rest := by
  induction text generalizing taken with
  | nil => rw [List.flatMap_nil, List.nil_append, List.append_nil]
  | cons character text ih =>
      have later := ih (taken ++ [character])
      rw [List.append_assoc, List.singleton_append] at later
      rw [List.flatMap_cons, ← later, List.append_assoc]
      unfold doubled
      by_cases quote : character = '\''
      · subst quote
        rfl
      · rw [if_neg quote, List.singleton_append]
        exact scanString_other quote taken _

theorem scanString_close {text rest : List Char} (ends : rest.head? ≠ some '\'') :
    scanString text ('\'' :: rest) = .ok (.str text, rest) := by
  cases rest with
  | nil => rfl
  | cons next rest =>
      have other : next ≠ '\'' := fun same => ends (congrArg some same)
      rw [scanString.eq_def]
      split
      · next empty => cases empty
      · next more shape => exact absurd (List.cons.inj (List.cons.inj shape).2).1 other
      · next more different shape => rw [(List.cons.inj shape).2]
      · next character more different quote shape => exact absurd (List.cons.inj shape).1.symm quote

/-- The characters a word or a number may begin with. -/
def isWordStart (character : Char) : Bool := character.isAlphanum || character == '+' || character == '-'

/-- None of the other marks is such a character. -/
structure Ordinary (character : Char) : Prop where
  visible : isWhitespace character = false
  name : character ≠ '"'
  literal : character ≠ '\''
  mark : symOf character = none
  bars : character ≠ '|'
  assigns : character ≠ ':'

theorem toNat_lt_of_isWordStart {character : Char} (starts : isWordStart character = true) : character.toNat < 128 := by
  unfold isWordStart Char.isAlphanum Char.isAlpha at starts
  simp only [Bool.or_eq_true, beq_iff_eq] at starts
  rcases starts with (((upper | lower) | digit) | rfl) | rfl
  · have bounds : 'A'.val ≤ character.val ∧ character.val ≤ 'Z'.val := of_decide_eq_true upper
    have numbers : 65 ≤ character.toNat ∧ character.toNat ≤ 90 :=
      ⟨UInt32.le_iff_toNat_le.mp bounds.1, UInt32.le_iff_toNat_le.mp bounds.2⟩
    omega
  · have both : (decide ('a'.val ≤ character.val) && decide (character.val ≤ 'z'.val)) = true := lower
    have bounds : 'a'.val ≤ character.val ∧ character.val ≤ 'z'.val := by
      simpa only [Bool.and_eq_true, decide_eq_true_eq] using both
    have numbers : 97 ≤ character.toNat ∧ character.toNat ≤ 122 :=
      ⟨UInt32.le_iff_toNat_le.mp bounds.1, UInt32.le_iff_toNat_le.mp bounds.2⟩
    omega
  · have bounds : 48 ≤ character.toNat ∧ character.toNat ≤ 57 := Char.isDigit_iff_toNat.mp digit
    omega
  · decide
  · decide

theorem ordinary_of_isWordStart {character : Char} (starts : isWordStart character = true) : Ordinary character := by
  have table : forall code, code < 128 -> isWordStart (Char.ofNat code) = true ->
      isWhitespace (Char.ofNat code) = false ∧ Char.ofNat code ≠ '"' ∧ Char.ofNat code ≠ '\'' ∧
        symOf (Char.ofNat code) = none ∧ Char.ofNat code ≠ '|' ∧ Char.ofNat code ≠ ':' := by
    decide
  have found := table character.toNat (toNat_lt_of_isWordStart starts)
  rw [Char.ofNat_toNat] at found
  rcases found starts with ⟨visible, name, literal, mark, bars, assigns⟩
  exact ⟨visible, name, literal, mark, bars, assigns⟩

theorem scan_ordinary {character : Char} (ordinary : Ordinary character) (rest : List Char) :
    scan alphanumeric character rest =
      if startsNumber character rest then
        .ok (some (.word (character :: (scanNumber character rest).1)), (scanNumber character rest).2)
      else if isWordChar alphanumeric character then
        .ok (some (.word (character :: rest.takeWhile (isWordChar alphanumeric))),
          rest.dropWhile (isWordChar alphanumeric))
      else .error (.unexpectedCharacter character) := by
  unfold scan
  rw [ordinary.visible, if_neg Bool.false_ne_true, if_neg ordinary.name, if_neg ordinary.literal, ordinary.mark]
  dsimp only
  rw [if_neg (fun both => ordinary.bars both.1), if_neg (fun both => ordinary.assigns both.1)]

theorem isWordStart_of_startsNumber {character : Char} {rest : List Char}
    (starts : startsNumber character rest = true) :
    isWordStart character = true := by
  unfold startsNumber at starts
  unfold isWordStart Char.isAlphanum
  simp only [Bool.or_eq_true, Bool.and_eq_true] at starts ⊢
  rcases starts with digit | ⟨minus | plus, _⟩
  · exact Or.inl (Or.inl (Or.inr digit))
  · exact Or.inr minus
  · exact Or.inl (Or.inr plus)

theorem startsNumber_append {character : Char} {text : List Char} (starts : startsNumber character text = true)
    (rest : List Char) : startsNumber character (text ++ rest) = true := by
  unfold startsNumber at starts ⊢
  cases text with
  | nil =>
      rw [List.head?_nil, Option.any_none, Bool.and_false, Bool.or_false] at starts
      rw [starts, Bool.true_or]
  | cons next text => exact starts

theorem startsNumber_of_isAlpha {character : Char} (alpha : character.isAlpha = true) (rest : List Char) :
    startsNumber character rest = false := by
  have starts : isWordStart character = true := by
    unfold isWordStart Char.isAlphanum
    rw [alpha]
    rfl
  have table : forall code, code < 128 -> (Char.ofNat code).isAlpha = true ->
      (Char.ofNat code).isDigit = false ∧ (Char.ofNat code == '-') = false ∧ (Char.ofNat code == '+') = false := by
    decide
  have found := table character.toNat (toNat_lt_of_isWordStart starts)
  rw [Char.ofNat_toNat] at found
  rcases found alpha with ⟨digit, minus, plus⟩
  unfold startsNumber
  rw [digit, minus, plus]
  rfl

theorem isWordChar_of_isPlainChar {character : Char} (plain : isPlainChar character = true) :
    isWordChar alphanumeric character = true := by
  unfold isPlainChar at plain
  simp only [Bool.or_eq_true, beq_iff_eq] at plain
  unfold isWordChar
  rcases plain with ((alphanum | rfl) | rfl) | rfl
  · have starts : isWordStart character = true := by
      unfold isWordStart
      rw [alphanum]
      rfl
    rw [alphanumeric.ascii character (toNat_lt_of_isWordStart starts), alphanum]
    rfl
  all_goals simp only [beq_self_eq_true, Bool.or_true, Bool.true_or]

theorem isWordStart_of_legible {first : Char} {more : List Char} (legible : (Tok.word (first :: more)).Legible) :
    isWordStart first = true := by
  rcases legible with ⟨alpha, _⟩ | ⟨starts, _⟩
  · unfold isWordStart Char.isAlphanum
    rw [alpha]
    rfl
  · exact isWordStart_of_startsNumber starts

theorem stop_of_isPartOfWord {rest : List Char} (stop : rest.head?.any (isPartOfWord alphanumeric) = false) :
    rest.head?.any (isWordChar alphanumeric) = false := by
  cases rest with
  | nil => rfl
  | cons character rest =>
      have off : isPartOfWord alphanumeric character = false := stop
      unfold isPartOfWord at off
      simp only [Bool.or_eq_false_iff] at off
      exact off.1.1.1

/-- A token is scanned from its text, up to what follows. -/
theorem scan_tok {tok : Tok} (legible : tok.Legible) {rest : List Char} (ends : tok.EndsBefore alphanumeric rest) :
    exists first more, tok.chars = first :: more ∧ scan alphanumeric first (more ++ rest) = .ok (some tok, rest) := by
  cases tok with
  | ident name =>
      refine ⟨'"', name ++ ['"'], rfl, ?_⟩
      have clean : name.all (· != '"') = true := by
        rw [List.all_eq_true]
        intro character member
        rw [bne_iff_ne]
        rintro rfl
        exact legible member
      have stop : ('"' :: rest).head?.any (· != '"') = false := rfl
      have split := takeWhile_append_stop clean stop
      have scanned : scanIdent (name ++ '"' :: rest) = .ok (.ident name, rest) := by
        unfold scanIdent
        rw [split.1, split.2]
      rw [List.append_assoc, List.singleton_append]
      change (scanIdent (name ++ '"' :: rest)).map _ = _
      rw [scanned]
      rfl
  | str text =>
      refine ⟨'\'', text.flatMap doubled ++ ['\''], rfl, ?_⟩
      rw [List.append_assoc, List.singleton_append]
      change (scanString [] (text.flatMap doubled ++ '\'' :: rest)).map _ = _
      rw [scanString_doubled, List.nil_append, scanString_close ends]
      rfl
  | word text =>
      cases text with
      | nil => rcases legible with impossible | impossible <;> cases impossible
      | cons first more =>
          refine ⟨first, more, rfl, ?_⟩
          rcases legible with ⟨alpha, plain⟩ | ⟨starts, whole⟩
          · have starts := isWordStart_of_legible (Or.inl ⟨alpha, plain⟩)
            have wordChar : isWordChar alphanumeric first = true := by
              apply isWordChar_of_isPlainChar
              unfold isPlainChar Char.isAlphanum
              rw [alpha]
              rfl
            have all : more.all (isWordChar alphanumeric) = true := by
              rw [List.all_eq_true] at plain ⊢
              exact fun character member => isWordChar_of_isPlainChar (plain character member)
            have split := takeWhile_append_stop all (stop_of_isPartOfWord ends)
            rw [scan_ordinary (ordinary_of_isWordStart starts), startsNumber_of_isAlpha alpha,
              if_neg Bool.false_ne_true, if_pos wordChar, split.1, split.2]
          · rw [scan_ordinary (ordinary_of_isWordStart (isWordStart_of_startsNumber starts)),
              if_pos (startsNumber_append starts rest), scanNumber_append whole ends]
  | sym mark => cases mark <;> exact ⟨_, _, rfl, rfl⟩

/-! ## Lists of tokens -/

theorem tokenize_cons (character : Char) (rest : List Char) :
    tokenize alphanumeric (character :: rest) =
      (scan alphanumeric character rest >>= fun found =>
        (tokenize alphanumeric found.2).map (found.1.toList ++ ·)) := by
  rw [tokenize.eq_def]
  dsimp only
  split
  · next cause failed =>
      rw [failed]
      rfl
  · next tok remaining scanned =>
      rw [scanned]
      change (tokenize alphanumeric remaining >>= fun toks => .ok (tok.toList ++ toks)) =
        (tokenize alphanumeric remaining).map (tok.toList ++ ·)
      cases tokenize alphanumeric remaining <;> rfl

theorem tokenize_whitespace {gap : List Char} (white : gap.all isWhitespace = true) (rest : List Char) :
    tokenize alphanumeric (gap ++ rest) = tokenize alphanumeric rest := by
  induction gap with
  | nil => rfl
  | cons character gap ih =>
      rw [List.all_cons, Bool.and_eq_true] at white
      have skipped : scan alphanumeric character (gap ++ rest) = .ok (none, gap ++ rest) := if_pos white.1
      rw [List.cons_append, tokenize_cons, skipped, ← ih white.2]
      change (tokenize alphanumeric (gap ++ rest)).map ([] ++ ·) = _
      cases tokenize alphanumeric (gap ++ rest) <;> rfl

theorem tokenize_tok {tok : Tok} (legible : tok.Legible) {rest : List Char}
    (ends : tok.EndsBefore alphanumeric rest) :
    tokenize alphanumeric (tok.chars ++ rest) = (tokenize alphanumeric rest).map (tok :: ·) := by
  rcases scan_tok legible ends with ⟨first, more, shape, scanned⟩
  rw [shape, List.cons_append, tokenize_cons, scanned]
  rfl

/-- Whether two tokens stay apart with nothing between them. -/
def mayTouch : Tok -> Tok -> Bool
  | .word _, .word _ => false
  | .word _, .sym .dot => false
  | .str _, .str _ => false
  | _, _ => true

/-- Tokens with the whitespace before each of them. -/
abbrev Parts := List (List Char × Tok)

def Parts.chars (parts : Parts) : List Char := parts.flatMap (fun part => part.1 ++ part.2.chars)

/-- Only whitespace stands between the tokens, and some where it is needed. -/
def Parts.Spaced : Parts -> Prop
  | [] => True
  | (gap, tok) :: rest =>
      gap.all isWhitespace = true ∧
        (forall part, rest.head? = some part -> part.1 = [] -> mayTouch tok part.2 = true) ∧ Parts.Spaced rest

instance Parts.decidableSpaced : (parts : Parts) -> Decidable parts.Spaced
  | [] => isTrue trivial
  | (_, tok) :: rest =>
      have following : Decidable (forall part, rest.head? = some part -> part.1 = [] -> mayTouch tok part.2 = true) :=
        inferInstanceAs (Decidable (forall part, part ∈ rest.head? -> part.1 = [] -> mayTouch tok part.2 = true))
      have others := Parts.decidableSpaced rest
      @instDecidableAnd _ _ inferInstance (@instDecidableAnd _ _ following others)

theorem endsBefore_whitespace {gap : List Char} (white : gap.all isWhitespace = true) (some : gap ≠ []) (tok : Tok)
    (rest : List Char) : tok.EndsBefore alphanumeric (gap ++ rest) := by
  cases gap with
  | nil => exact absurd rfl some
  | cons character gap =>
      rw [List.all_cons, Bool.and_eq_true] at white
      have other : forall mark, isWhitespace mark = false -> (character == mark) = false := by
        intro mark visible
        rw [beq_eq_false_iff_ne]
        rintro rfl
        rw [white.1] at visible
        cases visible
      cases tok with
      | word text =>
          change isPartOfWord alphanumeric character = false
          unfold isPartOfWord isWordChar
          rw [alphanumeric.visible character white.1, other '_' (by decide), other '$' (by decide),
            other '#' (by decide), other '.' (by decide), other '+' (by decide), other '-' (by decide)]
          rfl
      | str text =>
          intro quote
          exact absurd (other '\'' (by decide)) (by rw [Option.some.inj quote]; decide)
      | ident name => trivial
      | sym mark => trivial

theorem isPartOfWord_ascii_false {character : Char} (small : character.toNat < 128)
    (other : (isPlainChar character || character == '.' || character == '+' || character == '-') = false) :
    isPartOfWord alphanumeric character = false := by
  unfold isPartOfWord isWordChar
  rw [alphanumeric.ascii character small]
  exact other

theorem endsBefore_tok {tok next : Tok} (legible : next.Legible) (touch : mayTouch tok next = true)
    (rest : List Char) : tok.EndsBefore alphanumeric (next.chars ++ rest) := by
  cases tok with
  | ident name => trivial
  | sym mark => trivial
  | word text =>
      cases next with
      | word other => cases touch
      | ident name => exact isPartOfWord_ascii_false (by decide) (by decide)
      | str text => exact isPartOfWord_ascii_false (by decide) (by decide)
      | sym mark =>
          cases mark with
          | dot => cases touch
          | _ => exact isPartOfWord_ascii_false (by decide) (by decide)
  | str text =>
      cases next with
      | str other => cases touch
      | ident name => exact fun quote => absurd (Option.some.inj quote) (by decide)
      | sym mark => cases mark <;> exact fun quote => absurd (Option.some.inj quote) (by decide)
      | word other =>
          cases other with
          | nil => rcases legible with impossible | impossible <;> cases impossible
          | cons first more =>
              have ordinary := ordinary_of_isWordStart (isWordStart_of_legible legible)
              exact fun quote => ordinary.literal (Option.some.inj quote)

/-- What follows tokens ends the last of them. -/
def Parts.EndBefore (alphanumeric : Alphanumeric) (parts : Parts) (rest : List Char) : Prop :=
  forall part, parts.getLast? = some part -> part.2.EndsBefore alphanumeric rest

/-- Tokens are read back from their texts. -/
theorem tokenize_parts {parts : Parts} (spaced : parts.Spaced)
    (legible : forall part, part ∈ parts -> part.2.Legible) {rest : List Char}
    (ends : parts.EndBefore alphanumeric rest) :
    tokenize alphanumeric (parts.chars ++ rest) = (tokenize alphanumeric rest).map (parts.map Prod.snd ++ ·) := by
  induction parts with
  | nil =>
      change tokenize alphanumeric rest = (tokenize alphanumeric rest).map ([] ++ ·)
      cases tokenize alphanumeric rest <;> rfl
  | cons part parts ih =>
      rcases part with ⟨gap, tok⟩
      rcases spaced with ⟨white, apart, spaced⟩
      have later : tokenize alphanumeric (Parts.chars parts ++ rest) =
          (tokenize alphanumeric rest).map (parts.map Prod.snd ++ ·) := by
        apply ih spaced (fun other member => legible other (List.mem_cons_of_mem _ member))
        intro last found
        apply ends last
        rw [List.getLast?_cons, found]
        rfl
      have stops : tok.EndsBefore alphanumeric (Parts.chars parts ++ rest) := by
        cases parts with
        | nil => exact ends (gap, tok) rfl
        | cons next parts =>
            rcases next with ⟨between, following⟩
            have shape : Parts.chars ((between, following) :: parts) ++ rest =
                between ++ (following.chars ++ (Parts.chars parts ++ rest)) := by
              rw [Parts.chars, List.flatMap_cons, List.append_assoc, List.append_assoc]
              rfl
            rw [shape]
            by_cases touching : between = []
            · subst touching
              exact endsBefore_tok (legible ([], following) (List.mem_cons_of_mem _ List.mem_cons_self))
                (apart _ rfl rfl) _
            · exact endsBefore_whitespace spaced.1 touching tok _
      have shape : Parts.chars ((gap, tok) :: parts) ++ rest = gap ++ (tok.chars ++ (Parts.chars parts ++ rest)) := by
        rw [Parts.chars, List.flatMap_cons, List.append_assoc, List.append_assoc]
        rfl
      rw [shape, tokenize_whitespace white, tokenize_tok (legible (gap, tok) List.mem_cons_self) stops, later]
      cases tokenize alphanumeric rest <;> rfl

/-- The text of a list of tokens, with whitespace behind the last. -/
theorem tokenize_text {parts : Parts} (spaced : parts.Spaced)
    (legible : forall part, part ∈ parts -> part.2.Legible) {trailing : List Char}
    (white : trailing.all isWhitespace = true) :
    tokenize alphanumeric (parts.chars ++ trailing) = .ok (parts.map Prod.snd) := by
  have nothing : tokenize alphanumeric trailing = .ok [] := by
    have skipped : tokenize alphanumeric (trailing ++ []) = tokenize alphanumeric [] := tokenize_whitespace white []
    rw [List.append_nil] at skipped
    rw [skipped, tokenize.eq_def]
  rw [tokenize_parts spaced legible, nothing]
  · exact congrArg Except.ok (List.append_nil _)
  · intro part last
    cases trailing with
    | nil => cases part.2 <;> first | trivial | exact rfl | exact fun quote => nomatch quote
    | cons character trailing =>
        rw [← List.append_nil (character :: trailing)]
        exact endsBefore_whitespace white (List.cons_ne_nil _ _) part.2 []

/-! ## Texts cut inside quotes -/

theorem tokenize_open_ident {name : List Char} (quoteFree : '"' ∉ name) :
    tokenize alphanumeric ('"' :: name) = .error .unterminatedIdentifier := by
  have clean : name.all (· != '"') = true := by
    rw [List.all_eq_true]
    intro character member
    rw [bne_iff_ne]
    rintro rfl
    exact quoteFree member
  have stop : ([] : List Char).head?.any (· != '"') = false := rfl
  have split := takeWhile_append_stop clean stop
  rw [List.append_nil] at split
  have scanned : scanIdent name = .error .unterminatedIdentifier := by
    unfold scanIdent
    rw [split.2]
  rw [tokenize_cons]
  change ((scanIdent name).map _ >>= _) = _
  rw [scanned]
  rfl

theorem tokenize_open_literal (text : List Char) :
    tokenize alphanumeric ('\'' :: text.flatMap doubled) = .error .unterminatedLiteral := by
  have scanned := scanString_doubled [] text []
  rw [List.append_nil] at scanned
  rw [tokenize_cons]
  change ((scanString [] (text.flatMap doubled)).map _ >>= _) = _
  rw [scanned]
  rfl

end OracleCdc
end FaucetStream
