import FaucetStream.OracleCdc.RedoCuts

namespace FaucetStream
namespace OracleCdc

open Json Library

/-!
# Rendered statements

A statement is found again in its text, and a text that is cut inside a value, a
name or a parenthesis is refused.
-/

/-! ## The texts of statements -/

/-- Every token of the list is legible. -/
def AllLegible (toks : List Tok) : Prop := forall tok, tok ∈ toks -> tok.Legible

theorem AllLegible.append {left right : List Tok} (first : AllLegible left) (second : AllLegible right) :
    AllLegible (left ++ right) := by
  intro tok member
  rcases List.mem_append.mp member with before | behind
  · exact first tok before
  · exact second tok behind

theorem AllLegible.cons {tok : Tok} {toks : List Tok} (first : tok.Legible) (others : AllLegible toks) :
    AllLegible (tok :: toks) := by
  intro other member
  rcases List.mem_cons.mp member with rfl | behind
  · exact first
  · exact others other behind

theorem AllLegible.nil : AllLegible [] := fun _ member => nomatch member

theorem AllLegible.sym {toks : List Tok} (mark : Sym) (others : AllLegible toks) : AllLegible (.sym mark :: toks) :=
  AllLegible.cons trivial others

theorem AllLegible.ident {name : List Char} (clean : '"' ∉ name) {toks : List Tok} (others : AllLegible toks) :
    AllLegible (.ident name :: toks) :=
  AllLegible.cons clean others

theorem allLegible_separated {A : Type} {between : Tok} (legible : between.Legible) {toksOf : A -> List Tok} {first : A}
    {others : List A} (each : forall item, item ∈ first :: others -> AllLegible (toksOf item)) :
    AllLegible (separated between toksOf first others) := by
  apply AllLegible.append (each first List.mem_cons_self)
  intro tok member
  rcases List.mem_flatMap.mp member with ⟨item, found, inside⟩
  exact AllLegible.cons legible (each item (List.mem_cons_of_mem _ found)) tok inside

/-- A word of letters is legible. -/
theorem legible_keyword {text : String} {first : Char} {rest : List Char} (shape : text.toList = first :: rest)
    (alpha : first.isAlpha = true) (plain : rest.all isPlainChar = true) : (keyword text).Legible := by
  unfold keyword
  rw [shape]
  exact Or.inl ⟨alpha, plain⟩

theorem allLegible_callToks {name : String} (legible : (keyword name).Legible) (text : List Char) :
    AllLegible (callToks name text) :=
  AllLegible.cons legible (AllLegible.sym _ (AllLegible.cons trivial (AllLegible.sym _ AllLegible.nil)))

theorem allLegible_literal (literal : Literal) : AllLegible literal.toks := by
  cases literal with
  | null =>
      have null : (keyword "NULL").Legible := legible_keyword rfl rfl rfl
      exact AllLegible.cons null AllLegible.nil
  | quoted text => exact AllLegible.cons trivial AllLegible.nil
  | number numeral => exact AllLegible.cons (Or.inr numeral.numberWord) AllLegible.nil
  | hextoraw upper bytes => exact allLegible_callToks (legible_keyword rfl rfl rfl) _
  | unistr pieces => exact allLegible_callToks (legible_keyword rfl rfl rfl) _

theorem allLegible_assignmentToks {cell : Cell} (clean : '"' ∉ cell.1) : AllLegible (assignmentToks cell) :=
  AllLegible.ident clean (AllLegible.sym _ (allLegible_literal cell.2))

theorem allLegible_conditionToks {cell : Cell} (clean : '"' ∉ cell.1) : AllLegible (conditionToks cell) := by
  unfold conditionToks
  split
  · apply AllLegible.ident clean
    apply AllLegible.cons (legible_keyword rfl rfl rfl)
    exact AllLegible.cons (legible_keyword rfl rfl rfl) AllLegible.nil
  · exact allLegible_assignmentToks clean

theorem allLegible_whereToks {cells : List Cell} (clean : forall cell, cell ∈ cells -> '"' ∉ cell.1) :
    AllLegible (whereToks cells) := by
  cases cells with
  | nil => exact AllLegible.nil
  | cons first others =>
      apply AllLegible.cons (legible_keyword rfl rfl rfl)
      apply allLegible_separated (legible_keyword rfl rfl rfl)
      intro cell member
      exact allLegible_conditionToks (clean cell member)

theorem allLegible_tableToks {owner table : List Char} (ownerClean : '"' ∉ owner) (tableClean : '"' ∉ table) :
    AllLegible (tableToks owner table) :=
  AllLegible.ident ownerClean (AllLegible.sym _ (AllLegible.ident tableClean AllLegible.nil))

/-- The tokens of a statement are legible when none of its names has a quote. -/
theorem Statement.allLegible {statement : Statement} (clean : forall name, name ∈ statement.names -> '"' ∉ name) :
    AllLegible statement.toks := by
  cases statement with
  | insert owner table first others =>
      have cells : forall cell, cell ∈ first :: others -> '"' ∉ cell.1 := by
        intro cell member
        apply clean
        exact List.mem_cons_of_mem _ (List.mem_cons_of_mem _ (List.mem_map_of_mem member))
      have named := allLegible_tableToks (clean owner List.mem_cons_self)
        (clean table (List.mem_cons_of_mem _ List.mem_cons_self))
      have comma : (Tok.sym .comma).Legible := trivial
      have columns : AllLegible (separated (.sym .comma) (fun cell : Cell => [.ident cell.1]) first others) :=
        allLegible_separated comma (fun cell member => AllLegible.ident (cells cell member) AllLegible.nil)
      have values : AllLegible (separated (.sym .comma) (fun cell : Cell => cell.2.toks) first others) :=
        allLegible_separated comma (fun cell _ => allLegible_literal cell.2)
      apply AllLegible.cons (legible_keyword rfl rfl rfl)
      apply AllLegible.cons (legible_keyword rfl rfl rfl)
      apply named.append
      apply AllLegible.sym
      apply columns.append
      apply AllLegible.sym
      apply AllLegible.cons (legible_keyword rfl rfl rfl)
      apply AllLegible.sym
      exact values.append (AllLegible.sym _ AllLegible.nil)
  | update owner table first others conditions =>
      have named := allLegible_tableToks (clean owner List.mem_cons_self)
        (clean table (List.mem_cons_of_mem _ List.mem_cons_self))
      have comma : (Tok.sym .comma).Legible := trivial
      have assigned : AllLegible (separated (.sym .comma) assignmentToks first others) := by
        apply allLegible_separated comma
        intro cell member
        apply allLegible_assignmentToks
        apply clean
        exact List.mem_cons_of_mem _ (List.mem_cons_of_mem _ (List.mem_append_left _ (List.mem_map_of_mem member)))
      apply AllLegible.cons (legible_keyword rfl rfl rfl)
      apply named.append
      apply AllLegible.cons (legible_keyword rfl rfl rfl)
      apply assigned.append
      apply allLegible_whereToks
      intro cell member
      apply clean
      exact List.mem_cons_of_mem _ (List.mem_cons_of_mem _ (List.mem_append_right _ (List.mem_map_of_mem member)))
  | delete owner table conditions =>
      have named := allLegible_tableToks (clean owner List.mem_cons_self)
        (clean table (List.mem_cons_of_mem _ List.mem_cons_self))
      apply AllLegible.cons (legible_keyword rfl rfl rfl)
      apply AllLegible.cons (legible_keyword rfl rfl rfl)
      apply named.append
      apply allLegible_whereToks
      intro cell member
      apply clean
      exact List.mem_cons_of_mem _ (List.mem_cons_of_mem _ (List.mem_map_of_mem member))

/-! ## Cuts -/

/-- The tokens end inside a parenthesis, after the dot of a name, or after the
name of a call. -/
def EndsInside (toks : List Tok) : Prop :=
  toks.count (.sym .rightParen) < toks.count (.sym .leftParen) ∨
    toks.getLast? = some (.sym .dot) ∨
    toks.getLast? = some (.word "HEXTORAW".toList) ∨
    toks.getLast? = some (.word "UNISTR".toList)

theorem EndsInside.not_closed {toks : List Tok} (inside : EndsInside toks) : ¬Closed toks := by
  intro closed
  rcases inside with unbalanced | dot | hextoraw | unistr
  · exact absurd closed.balanced (by omega)
  · exact absurd (closed.complete _ dot) (by decide)
  · exact absurd (closed.complete _ hextoraw) (by decide)
  · exact absurd (closed.complete _ unistr) (by decide)

section Rendering

variable {alphanumeric : Alphanumeric}

theorem Parts.Spaced.left {left right : Parts} (spaced : Parts.Spaced (left ++ right)) : left.Spaced := by
  induction left with
  | nil => trivial
  | cons part left ih =>
      rcases part with ⟨gap, tok⟩
      rcases spaced with ⟨white, apart, spaced⟩
      refine ⟨white, ?_, ih spaced⟩
      intro next found
      cases left with
      | nil => cases found
      | cons other left => exact apart next found

/-- What comes after a gap does not lengthen the tokens before it. -/
theorem Parts.Spaced.endBefore {front : Parts} {gap : List Char} {tok : Tok} {rest : Parts}
    (spaced : Parts.Spaced (front ++ (gap, tok) :: rest)) {text : List Char}
    (starts : forall previous : Tok, mayTouch previous tok = true -> previous.EndsBefore alphanumeric text) :
    front.EndBefore alphanumeric (gap ++ text) := by
  induction front with
  | nil =>
      intro last found
      cases found
  | cons part front ih =>
      rcases part with ⟨before, previous⟩
      rcases spaced with ⟨_, apart, spaced⟩
      intro last found
      cases front with
      | nil =>
          cases Option.some.inj found
          by_cases touching : gap = []
          · rw [touching, List.nil_append]
            exact starts previous (apart (gap, tok) rfl touching)
          · exact endsBefore_whitespace spaced.1 touching previous text
      | cons next front =>
          apply ih spaced last
          rw [← found, List.getLast?_cons_cons]

theorem Parts.Spaced.white {front : Parts} {gap : List Char} {tok : Tok} {rest : Parts}
    (spaced : Parts.Spaced (front ++ (gap, tok) :: rest)) : gap.all isWhitespace = true := by
  induction front with
  | nil => exact spaced.1
  | cons part front ih => exact ih spaced.2.2

/-- Only the first character behind a token matters. -/
theorem Tok.EndsBefore.of_head {tok : Tok} {rest other : List Char} (same : rest.head? = other.head?)
    (ends : tok.EndsBefore alphanumeric rest) : tok.EndsBefore alphanumeric other := by
  unfold Tok.EndsBefore at ends ⊢
  rw [← same]
  exact ends

/-- An error of the token behind a list of tokens is the error of the text. -/
theorem tokenize_cut {front : Parts} {gap : List Char} {tok : Tok} {rest : Parts}
    (spaced : Parts.Spaced (front ++ (gap, tok) :: rest))
    (legible : forall part, part ∈ front -> part.2.Legible) {text : List Char} {cause : RedoError}
    (starts : forall previous : Tok, mayTouch previous tok = true -> previous.EndsBefore alphanumeric text)
    (failed : tokenize alphanumeric text = .error cause) :
    tokenize alphanumeric (front.chars ++ (gap ++ text)) = .error cause := by
  rw [tokenize_parts spaced.left legible (spaced.endBefore starts), tokenize_whitespace spaced.white, failed]
  rfl

theorem parseDml_of_error {sql : List Char} {cause : RedoError} (failed : tokenize alphanumeric sql = .error cause) :
    parseDml alphanumeric sql = .error cause := by
  unfold parseDml
  rw [failed]
  rfl

theorem parseDml_of_toks {sql : List Char} {toks : List Tok} (read : tokenize alphanumeric sql = .ok toks) :
    parseDml alphanumeric sql = parseTokens sql toks := by
  unfold parseDml
  rw [read]
  rfl

/-- A text whose tokens are not closed is refused, and not because the model
gives up. -/
theorem parseDml_refuses {sql : List Char} {toks : List Tok} (read : tokenize alphanumeric sql = .ok toks)
    (inside : EndsInside toks) :
    exists cause, parseDml alphanumeric sql = .error cause ∧ cause ≠ .unfinished := by
  rw [parseDml_of_toks read]
  cases parsed : parseTokens sql toks with
  | ok dml => exact absurd (parseTokens_closed parsed) inside.not_closed
  | error cause =>
      refine ⟨cause, rfl, ?_⟩
      rintro rfl
      exact parseTokens_settled sql toks parsed

theorem Statement.legible_parts {statement : Statement} (clean : forall name, name ∈ statement.names -> '"' ∉ name)
    {parts : Parts} (rendered : parts.map Prod.snd = statement.toks) : forall part, part ∈ parts -> part.2.Legible := by
  intro part member
  apply statement.allLegible clean
  rw [← rendered]
  exact List.mem_map_of_mem member

theorem Statement.parseDml_parts {statement : Statement} (clean : forall name, name ∈ statement.names -> '"' ∉ name)
    {parts : Parts} (rendered : parts.map Prod.snd = statement.toks) (spaced : parts.Spaced) {trailing : List Char}
    (white : trailing.all isWhitespace = true) :
    parseDml alphanumeric (parts.chars ++ trailing) = .ok statement.dml := by
  rw [parseDml_of_toks (tokenize_text spaced (statement.legible_parts clean rendered) white), rendered]
  exact parseTokens_toks _ statement

/-- The text of a statement, with any whitespace between its tokens, is parsed
to the statement.  Cut after a token inside a parenthesis, a qualified name or a
call, or inside the quotes of a name or a literal, it is refused. -/
theorem parseDml_rendering (statement : Statement) (clean : forall name, name ∈ statement.names -> '"' ∉ name)
    (parts : Parts) (rendered : parts.map Prod.snd = statement.toks) (spaced : parts.Spaced) (trailing : List Char)
    (white : trailing.all isWhitespace = true) :
    parseDml alphanumeric (parts.chars ++ trailing) = .ok statement.dml ∧
      (forall front gap, front <+: parts -> EndsInside (front.map Prod.snd) -> gap.all isWhitespace = true ->
        exists cause, parseDml alphanumeric (Parts.chars front ++ gap) = .error cause ∧ cause ≠ .unfinished) ∧
      (forall front gap name cut, front ++ [(gap, Tok.ident name)] <+: parts -> cut <+: name ->
        parseDml alphanumeric (Parts.chars front ++ (gap ++ '"' :: cut)) = .error .unterminatedIdentifier) ∧
      (forall front gap text cut, front ++ [(gap, Tok.str text)] <+: parts -> cut <+: text ->
        parseDml alphanumeric (Parts.chars front ++ (gap ++ '\'' :: cut.flatMap doubled)) =
          .error .unterminatedLiteral) := by
  have legible := statement.legible_parts clean rendered
  refine ⟨statement.parseDml_parts clean rendered spaced white, ?_, ?_, ?_⟩
  · rintro front gap ⟨rest, rfl⟩ inside gapWhite
    apply parseDml_refuses _ inside
    exact tokenize_text spaced.left (fun part member => legible part (List.mem_append_left rest member)) gapWhite
  · rintro front gap name cut ⟨rest, rfl⟩ ⟨remaining, rfl⟩
    rw [List.append_assoc, List.singleton_append] at spaced legible
    have member : (gap, Tok.ident (cut ++ remaining)) ∈ front ++ (gap, Tok.ident (cut ++ remaining)) :: rest :=
      List.mem_append_right _ List.mem_cons_self
    have quoteFree : '"' ∉ cut := fun quote => legible _ member (List.mem_append_left _ quote)
    apply parseDml_of_error
    refine tokenize_cut spaced (fun part found => legible part (List.mem_append_left _ found)) ?_
      (tokenize_open_ident quoteFree)
    intro previous touch
    exact Tok.EndsBefore.of_head rfl (endsBefore_tok (legible _ member) touch [])
  · rintro front gap text cut ⟨rest, rfl⟩ ⟨remaining, rfl⟩
    rw [List.append_assoc, List.singleton_append] at spaced legible
    apply parseDml_of_error
    refine tokenize_cut spaced (fun part found => legible part (List.mem_append_left _ found)) ?_
      (tokenize_open_literal cut)
    intro previous touch
    have literal : (Tok.str (cut ++ remaining)).Legible := trivial
    exact Tok.EndsBefore.of_head rfl (endsBefore_tok literal touch [])

/-- The text of a statement with a space before every token. -/
def Statement.text (statement : Statement) : List Char := Parts.chars (statement.toks.map (fun tok => ([' '], tok)))

theorem spaced_of_spaces (toks : List Tok) : Parts.Spaced (toks.map (fun tok => ([' '], tok))) := by
  induction toks with
  | nil => trivial
  | cons tok toks ih =>
      refine ⟨rfl, ?_, ih⟩
      intro next found touching
      cases toks with
      | nil => cases found
      | cons other toks =>
          cases Option.some.inj found
          cases touching

theorem Statement.parseDml_text {statement : Statement} (clean : forall name, name ∈ statement.names -> '"' ∉ name) :
    parseDml alphanumeric statement.text = .ok statement.dml := by
  have rendered : (statement.toks.map (fun tok => ([' '], tok))).map Prod.snd = statement.toks := by
    rw [List.map_map]
    exact List.map_id _
  have parsed : parseDml alphanumeric (statement.text ++ []) = .ok statement.dml :=
    statement.parseDml_parts clean rendered (spaced_of_spaces _) rfl
  rw [List.append_nil] at parsed
  exact parsed

end Rendering

/-- The letters and digits of ASCII alone. -/
def asciiAlphanumeric : Alphanumeric where
  holds := Char.isAlphanum
  ascii := fun _ _ => rfl
  visible := by
    intro character white
    rw [Bool.eq_false_iff]
    intro alphanum
    have starts : isWordStart character = true := by
      unfold isWordStart
      rw [alphanum]
      rfl
    rw [(ordinary_of_isWordStart starts).visible] at white
    cases white

def sampleStatement : Statement :=
  .update "APP".toList "T".toList ("NAME".toList, .quoted "it's".toList) [("DATA".toList, .hextoraw true [1, 171])]
    [("ID".toList, .number ⟨some true, [1], some [5], none, Or.inl (List.cons_ne_nil _ _)⟩), ("AMT".toList, .null)]

/-- A space before every token but the marks. -/
def sampleParts : Parts :=
  sampleStatement.toks.map (fun tok => match tok with
    | .sym _ => ([], tok)
    | _ => ([' '], tok))

theorem parseDml_rendering_sample :
    Parts.chars sampleParts = String.toList
    " update \"APP\". \"T\" set \"NAME\"= 'it''s', \"DATA\"= HEXTORAW( '01AB') where \"ID\"= -1.5 and \"AMT\" IS NULL" ∧
      parseDml asciiAlphanumeric (Parts.chars sampleParts ++ []) = .ok sampleStatement.dml ∧
      parseDml asciiAlphanumeric (Parts.chars (sampleParts.take 7) ++ ([' '] ++ '\'' :: ['i', 't'].flatMap doubled)) =
        .error .unterminatedLiteral := by
  have clean : forall name, name ∈ sampleStatement.names -> '"' ∉ name := by decide
  have rendered : sampleParts.map Prod.snd = sampleStatement.toks := by decide
  have spaced : sampleParts.Spaced := by decide
  have both := @parseDml_rendering asciiAlphanumeric sampleStatement clean sampleParts rendered spaced [] rfl
  refine ⟨by decide, both.1, ?_⟩
  exact both.2.2.2 (sampleParts.take 7) [' '] "it's".toList ['i', 't'] ⟨sampleParts.drop 8, by decide⟩
    ⟨['\'', 's'], by decide⟩

end OracleCdc
end FaucetStream
