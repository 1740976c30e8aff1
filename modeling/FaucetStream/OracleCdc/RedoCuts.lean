import FaucetStream.Error
import FaucetStream.OracleCdc.RedoText

namespace FaucetStream
namespace OracleCdc

open Json Library

/-!
# Statements cut short

Whatever the parser accepts has closed every parenthesis it opened, and ends
neither after a dot nor after the name of a function.
-/

/-! ## Closed lists of tokens -/

/-- Tokens after which a statement cannot end. -/
def dangles : Tok -> Bool
  | .sym .dot => true
  | .word text => !(startsAsNumber text || sameWord text "NULL" || sameWord text "where" || sameWord text "and")
  | _ => false

structure Closed (toks : List Tok) : Prop where
  balanced : toks.count (.sym .leftParen) = toks.count (.sym .rightParen)
  complete : forall last, toks.getLast? = some last -> dangles last = false

theorem Closed.nil : Closed [] := ⟨rfl, fun _ found => nomatch found⟩

theorem Closed.append {left right : List Tok} (first : Closed left) (second : Closed right) :
    Closed (left ++ right) := by
  constructor
  · rw [List.count_append, List.count_append, first.balanced, second.balanced]
  · intro last found
    rw [List.getLast?_append] at found
    cases ending : right.getLast? with
    | none =>
        rw [ending] at found
        exact first.complete last found
    | some final =>
        rw [ending] at found
        exact second.complete last (ending.trans found)

def isParen (tok : Tok) : Bool := tok == .sym .leftParen || tok == .sym .rightParen

theorem count_cons_plain {tok : Tok} (plain : isParen tok = false) (toks : List Tok) :
    (tok :: toks).count (.sym .leftParen) = toks.count (.sym .leftParen) ∧
      (tok :: toks).count (.sym .rightParen) = toks.count (.sym .rightParen) := by
  unfold isParen at plain
  rw [Bool.or_eq_false_iff, beq_eq_false_iff_ne, beq_eq_false_iff_ne] at plain
  exact ⟨List.count_cons_of_ne plain.1, List.count_cons_of_ne plain.2⟩

theorem Closed.cons {tok : Tok} (plain : isParen tok = false) {toks : List Tok} (nonempty : toks ≠ [])
    (closed : Closed toks) : Closed (tok :: toks) := by
  rcases count_cons_plain plain toks with ⟨left, right⟩
  constructor
  · rw [left, right, closed.balanced]
  · intro last found
    rw [List.getLast?_cons_of_ne_nil nonempty] at found
    exact closed.complete last found

theorem Closed.single {tok : Tok} (plain : isParen tok = false) (done : dangles tok = false) : Closed [tok] := by
  rcases count_cons_plain plain [] with ⟨left, right⟩
  refine ⟨left.trans right.symm, ?_⟩
  rintro last found
  cases Option.some.inj found
  exact done

theorem Closed.parens {toks : List Tok} (closed : Closed toks) :
    Closed (.sym .leftParen :: (toks ++ [.sym .rightParen])) := by
  constructor
  · rw [List.count_cons_self, List.count_cons_of_ne (by decide), List.count_append, List.count_append, closed.balanced]
    rfl
  · intro last found
    rw [← List.cons_append, List.getLast?_concat] at found
    cases Option.some.inj found
    rfl

theorem dangles_word {text : List Char}
    (done : startsAsNumber text = true ∨ sameWord text "NULL" = true ∨ sameWord text "where" = true ∨
      sameWord text "and" = true) : dangles (.word text) = false := by
  change (!(startsAsNumber text || sameWord text "NULL" || sameWord text "where" || sameWord text "and")) = false
  rw [Bool.not_eq_false', Bool.or_eq_true, Bool.or_eq_true, Bool.or_eq_true]
  rcases done with number | null | clause | joined
  · exact Or.inl (Or.inl (Or.inl number))
  · exact Or.inl (Or.inl (Or.inr null))
  · exact Or.inl (Or.inr clause)
  · exact Or.inr joined

/-! ## What a part of the parser takes -/

/-- The tokens between two places are closed. -/
def Takes (toks rest : List Tok) : Prop := exists taken, toks = taken ++ rest ∧ Closed taken

/-- The same, with at least one token. -/
def TakesSome (toks rest : List Tok) : Prop := exists taken, toks = taken ++ rest ∧ taken ≠ [] ∧ Closed taken

theorem Takes.refl (toks : List Tok) : Takes toks toks := ⟨[], rfl, Closed.nil⟩

variable {toks rest : List Tok}

theorem TakesSome.takes (some : TakesSome toks rest) : Takes toks rest := by
  rcases some with ⟨taken, split, _, closed⟩
  exact ⟨taken, split, closed⟩

theorem Takes.trans {toks middle rest : List Tok} (first : Takes toks middle) (second : Takes middle rest) :
    Takes toks rest := by
  rcases first with ⟨taken, rfl, closed⟩
  rcases second with ⟨more, rfl, closedMore⟩
  exact ⟨taken ++ more, (List.append_assoc _ _ _).symm, closed.append closedMore⟩

theorem TakesSome.trans {toks middle rest : List Tok} (first : TakesSome toks middle) (second : Takes middle rest) :
    TakesSome toks rest := by
  rcases first with ⟨taken, rfl, nonempty, closed⟩
  rcases second with ⟨more, rfl, closedMore⟩
  exact ⟨taken ++ more, (List.append_assoc _ _ _).symm, List.append_ne_nil_of_left_ne_nil nonempty more,
    closed.append closedMore⟩

theorem TakesSome.cons {tok : Tok} (plain : isParen tok = false) (some : TakesSome toks rest) :
    TakesSome (tok :: toks) rest := by
  rcases some with ⟨taken, rfl, nonempty, closed⟩
  exact ⟨tok :: taken, rfl, List.cons_ne_nil _ _, closed.cons plain nonempty⟩

theorem TakesSome.single {tok : Tok} (plain : isParen tok = false) (done : dangles tok = false) (rest : List Tok) :
    TakesSome (tok :: rest) rest :=
  ⟨[tok], rfl, List.cons_ne_nil _ _, Closed.single plain done⟩

theorem TakesSome.parens (inside : Takes toks (.sym .rightParen :: rest)) :
    TakesSome (.sym .leftParen :: toks) rest := by
  rcases inside with ⟨taken, rfl, closed⟩
  refine ⟨.sym .leftParen :: (taken ++ [.sym .rightParen]), ?_, List.cons_ne_nil _ _, closed.parens⟩
  rw [List.cons_append, List.append_assoc, List.singleton_append]

theorem TakesSome.length_lt (some : TakesSome toks rest) : rest.length < toks.length := by
  rcases some with ⟨taken, rfl, nonempty, _⟩
  have positive := List.length_pos_iff.mpr nonempty
  rw [List.length_append]
  omega

/-- A part of the parser that takes some tokens when it succeeds. -/
def Closes {A : Type} (parser : Parser A) : Prop :=
  forall toks found rest, parser toks = .ok (found, rest) -> TakesSome toks rest

theorem sym_ok {mark : Sym} (parsed : sym mark toks = .ok rest) : toks = .sym mark :: rest := by
  cases toks with
  | nil => cases parsed
  | cons tok toks =>
      cases tok with
      | sym found =>
          rw [sym] at parsed
          split at parsed
          · next same =>
              cases parsed
              rw [same]
          · cases parsed
      | _ => cases parsed

theorem word_ok {expected : String} (parsed : word expected toks = .ok rest) :
    exists text, sameWord text expected = true ∧ toks = .word text :: rest := by
  cases toks with
  | nil => cases parsed
  | cons tok toks =>
      cases tok with
      | word text =>
          rw [word] at parsed
          split at parsed
          · next same =>
              cases parsed
              exact ⟨text, same, rfl⟩
          · cases parsed
      | _ => cases parsed

theorem ident_closes : Closes ident := by
  intro toks found rest parsed
  cases toks with
  | nil => cases parsed
  | cons tok toks =>
      cases tok with
      | ident name =>
          cases parsed
          exact TakesSome.single rfl rfl _
      | _ => cases parsed

theorem tableRef_closes : Closes tableRef := by
  intro toks found rest parsed
  rcases bind_eq_ok parsed with ⟨⟨first, more⟩, owner, parsed⟩
  have taken := ident_closes toks first more owner
  dsimp only at parsed
  split at parsed
  · next others =>
      rcases bind_eq_ok parsed with ⟨⟨table, last⟩, second, parsed⟩
      cases parsed
      exact taken.trans ((ident_closes _ _ _ second).cons rfl).takes
  · cases parsed
    exact taken

theorem head_eq_some {toks : List Tok} {tok : Tok} (found : toks.head? = some tok) :
    exists rest, toks = tok :: rest := by
  cases toks with
  | nil => cases found
  | cons first rest =>
      cases Option.some.inj found
      exact ⟨rest, rfl⟩

theorem commaLoop_takes {A : Type} {item : Parser A} (closes : Closes item) {fuel : Nat} {items found : List A}
    (parsed : commaLoop item fuel items toks = .ok (found, rest)) : Takes toks rest := by
  induction fuel generalizing items toks with
  | zero => cases parsed
  | succ fuel ih =>
      by_cases more : toks.head? = some (.sym .comma)
      · rcases head_eq_some more with ⟨others, rfl⟩
        rcases bind_eq_ok parsed with ⟨⟨next, after⟩, one, parsed⟩
        exact ((closes _ _ _ one).cons rfl).takes.trans (ih parsed)
      · rw [commaLoop_done more] at parsed
        cases parsed
        exact Takes.refl _

theorem listOf_closes {A : Type} {item : Parser A} (closes : Closes item) : Closes (listOf item) := by
  intro toks found rest parsed
  rcases bind_eq_ok parsed with ⟨⟨first, more⟩, one, parsed⟩
  exact (closes _ _ _ one).trans (commaLoop_takes closes parsed)

theorem arguments_takes {inner : Parser Resolved} (closes : Closes inner)
    {found : List Resolved} (parsed : arguments inner toks = .ok (found, rest)) : Takes toks rest := by
  unfold arguments at parsed
  split at parsed
  · cases parsed
    exact Takes.refl _
  · exact (listOf_closes closes _ _ _ parsed).takes

/-- A word that is no number and no keyword may stand before a parenthesis. -/
theorem term_closes {inner : Parser Resolved} (closes : Closes inner) : Closes (term inner) := by
  intro toks found rest parsed
  unfold term at parsed
  split at parsed
  · cases parsed
    exact TakesSome.single rfl rfl _
  · next text others =>
      split at parsed
      · next named =>
          cases parsed
          exact TakesSome.single rfl (dangles_word (Or.inr (Or.inl named))) _
      · split at parsed
        · next inside =>
            rcases bind_eq_ok parsed with ⟨⟨args, after⟩, taken, parsed⟩
            rcases bind_eq_ok parsed with ⟨last, closing, parsed⟩
            rcases bind_eq_ok parsed with ⟨result, _, parsed⟩
            cases parsed
            have inner := arguments_takes closes taken
            rw [sym_ok closing] at inner
            exact (TakesSome.parens inner).cons rfl
        · split at parsed
          · next number =>
              cases parsed
              exact TakesSome.single rfl (dangles_word (Or.inl number)) _
          · cases parsed
  · cases parsed

theorem concatLoop_takes {operand : Parser Resolved} (closes : Closes operand) {fuel : Nat} {left found : Resolved}
    (parsed : concatLoop operand fuel left toks = .ok (found, rest)) : Takes toks rest := by
  induction fuel generalizing left toks with
  | zero => cases parsed
  | succ fuel ih =>
      by_cases more : toks.head? = some (.sym .bars)
      · rcases head_eq_some more with ⟨others, rfl⟩
        rcases bind_eq_ok parsed with ⟨⟨right, after⟩, one, parsed⟩
        rcases bind_eq_ok parsed with ⟨both, _, parsed⟩
        exact ((closes _ _ _ one).cons rfl).takes.trans (ih parsed)
      · rw [concatLoop_done more] at parsed
        cases parsed
        exact Takes.refl _

theorem valueWithin_closes (depth : Nat) : Closes (valueWithin depth) := by
  induction depth with
  | zero =>
      intro toks found rest parsed
      cases parsed
  | succ depth ih =>
      intro toks found rest parsed
      rcases bind_eq_ok parsed with ⟨⟨first, more⟩, one, parsed⟩
      have operand := term_closes ih
      exact (operand _ _ _ one).trans (concatLoop_takes operand parsed)

theorem value_closes : Closes value := fun _ _ _ parsed => valueWithin_closes _ _ _ _ parsed

theorem assignment_closes : Closes assignment := by
  intro toks found rest parsed
  rcases bind_eq_ok parsed with ⟨⟨column, more⟩, name, parsed⟩
  rcases bind_eq_ok parsed with ⟨others, equals, parsed⟩
  rcases bind_eq_ok parsed with ⟨⟨result, last⟩, valued, parsed⟩
  have tail := value_closes _ _ _ valued
  have middle : TakesSome more last := by
    rw [sym_ok equals]
    exact tail.cons rfl
  cases parsed
  exact (ident_closes _ _ _ name).trans middle.takes

theorem condition_closes : Closes condition := by
  intro toks found rest parsed
  unfold condition at parsed
  split at parsed
  · next text others =>
      split at parsed
      · rcases bind_eq_ok parsed with ⟨more, equals, parsed⟩
        rcases bind_eq_ok parsed with ⟨⟨result, last⟩, valued, parsed⟩
        have tail := value_closes _ _ _ valued
        cases parsed
        rw [sym_ok equals]
        exact (tail.cons rfl).cons rfl
      · cases parsed
  · rcases bind_eq_ok parsed with ⟨⟨column, more⟩, name, parsed⟩
    have first := ident_closes _ _ _ name
    dsimp only at parsed
    split at parsed
    · next text others =>
        split at parsed
        · rcases bind_eq_ok parsed with ⟨last, null, parsed⟩
          rcases word_ok null with ⟨literal, named, shape⟩
          have ending : TakesSome others last := by
            rw [shape]
            exact TakesSome.single rfl (dangles_word (Or.inr (Or.inl named))) last
          cases parsed
          exact first.trans (ending.cons rfl).takes
        · cases parsed
    · rcases bind_eq_ok parsed with ⟨others, equals, parsed⟩
      rcases bind_eq_ok parsed with ⟨⟨result, last⟩, valued, parsed⟩
      have tail := value_closes _ _ _ valued
      have middle : TakesSome more last := by
        rw [sym_ok equals]
        exact tail.cons rfl
      cases parsed
      exact first.trans middle.takes

theorem takes_word {text : List Char} (done : dangles (.word text) = false)
    (more : Takes toks rest) : TakesSome (.word text :: toks) rest :=
  (TakesSome.single rfl done toks).trans more

theorem conditionsLoop_takes {stop : Option String} {fuel : Nat} {out found : Image}
    (parsed : conditionsLoop stop fuel out toks = .ok (found, rest)) : Takes toks rest := by
  induction fuel generalizing out toks with
  | zero => cases parsed
  | succ fuel ih =>
      rw [conditionsLoop] at parsed
      split at parsed
      · cases parsed
        exact Takes.refl _
      · rcases bind_eq_ok parsed with ⟨⟨one, more⟩, first, parsed⟩
        have taken := condition_closes _ _ _ first
        dsimp only at parsed
        split at parsed
        · next text others =>
            split at parsed
            · next joined =>
                have done := dangles_word (Or.inr (Or.inr (Or.inr joined)))
                exact taken.takes.trans (takes_word done (ih parsed)).takes
            · cases parsed
              exact taken.takes
        · cases parsed
          exact taken.takes

theorem whereClause_takes {found : Image} (parsed : whereClause toks = .ok (found, rest)) :
    Takes toks rest := by
  unfold whereClause at parsed
  split at parsed
  · next text others =>
      split at parsed
      · next named =>
          have done := dangles_word (Or.inr (Or.inr (Or.inl named)))
          exact (takes_word done (conditionsLoop_takes parsed)).takes
      · cases parsed
        exact Takes.refl _
  · cases parsed
    exact Takes.refl _

theorem parseInsert_takes {dml : Dml} (parsed : parseInsert toks = .ok (dml, rest)) :
    TakesSome toks rest := by
  rcases bind_eq_ok parsed with ⟨afterInto, into, parsed⟩
  rcases bind_eq_ok parsed with ⟨⟨⟨owner, table⟩, afterTable⟩, named, parsed⟩
  rcases bind_eq_ok parsed with ⟨afterLeft, left, parsed⟩
  rcases bind_eq_ok parsed with ⟨⟨cols, afterCols⟩, columns, parsed⟩
  rcases bind_eq_ok parsed with ⟨afterRight, right, parsed⟩
  rcases bind_eq_ok parsed with ⟨afterValues, values, parsed⟩
  rcases bind_eq_ok parsed with ⟨beforeValues, second, parsed⟩
  rcases bind_eq_ok parsed with ⟨⟨vals, afterVals⟩, listed, parsed⟩
  rcases bind_eq_ok parsed with ⟨last, closing, parsed⟩
  rcases word_ok into with ⟨first, _, startShape⟩
  rcases word_ok values with ⟨middle, _, middleShape⟩
  have valueList := (listOf_closes value_closes _ _ _ listed).takes
  have columnList := (listOf_closes ident_closes _ _ _ columns).takes
  rw [sym_ok closing] at valueList
  rw [sym_ok right] at columnList
  have valuePart : TakesSome afterRight last := by
    rw [middleShape, sym_ok second]
    exact (TakesSome.parens valueList).cons rfl
  have columnPart : TakesSome afterTable afterRight := by
    rw [sym_ok left]
    exact TakesSome.parens columnList
  have tail := (tableRef_closes _ _ _ named).trans (columnPart.trans valuePart.takes).takes
  split at parsed
  · cases parsed
  · cases parsed
    rw [startShape]
    exact tail.cons rfl

theorem parseUpdate_takes {dml : Dml} (parsed : parseUpdate toks = .ok (dml, rest)) :
    TakesSome toks rest := by
  rcases bind_eq_ok parsed with ⟨⟨⟨owner, table⟩, afterTable⟩, named, parsed⟩
  rcases bind_eq_ok parsed with ⟨afterSet, set, parsed⟩
  rcases bind_eq_ok parsed with ⟨⟨cells, afterCells⟩, assigned, parsed⟩
  rcases bind_eq_ok parsed with ⟨⟨conditions, last⟩, clause, parsed⟩
  rcases word_ok set with ⟨text, _, shape⟩
  have cellPart : TakesSome afterTable last := by
    rw [shape]
    exact ((listOf_closes assignment_closes _ _ _ assigned).trans (whereClause_takes clause)).cons rfl
  cases parsed
  exact (tableRef_closes _ _ _ named).trans cellPart.takes

theorem parseDelete_takes {dml : Dml} (parsed : parseDelete toks = .ok (dml, rest)) :
    TakesSome toks rest := by
  rcases bind_eq_ok parsed with ⟨afterFrom, start, parsed⟩
  rcases bind_eq_ok parsed with ⟨⟨⟨owner, table⟩, afterTable⟩, named, parsed⟩
  rcases bind_eq_ok parsed with ⟨⟨conditions, last⟩, clause, parsed⟩
  rcases word_ok start with ⟨text, _, shape⟩
  have tail := (tableRef_closes _ _ _ named).trans (whereClause_takes clause)
  cases parsed
  rw [shape]
  exact tail.cons rfl

theorem expectEnd_takes {toks : List Tok} {done : Unit} (parsed : expectEnd toks = .ok done) : Takes toks [] := by
  induction toks with
  | nil => exact Takes.refl []
  | cons tok toks ih =>
      unfold expectEnd at parsed
      split at parsed
      · next empty => cases empty
      · next rest shape =>
          cases shape
          exact ((TakesSome.single rfl rfl toks).trans (ih parsed)).takes
      · cases parsed

/-- A statement that is accepted is closed. -/
theorem parseTokens_closed {sql : List Char} {toks : List Tok} {dml : Dml} (parsed : parseTokens sql toks = .ok dml) :
    Closed toks := by
  rcases bind_eq_ok parsed with ⟨⟨found, rest⟩, read, parsed⟩
  rcases bind_eq_ok parsed with ⟨done, ended, _⟩
  have taken : TakesSome toks rest := by
    unfold statement at read
    split at read
    · split at read
      · exact (parseInsert_takes read).cons rfl
      split at read
      · exact (parseUpdate_takes read).cons rfl
      split at read
      · exact (parseDelete_takes read).cons rfl
      · cases read
    · cases read
  rcases (taken.takes.trans (expectEnd_takes ended)) with ⟨all, rfl, closed⟩
  rw [List.append_nil]
  exact closed

/-! ## The recursion does not end early -/

/-- A result that is not owed to the bounds of the model. -/
def Decided {A : Type} (result : Except RedoError A) : Prop := result ≠ .error .unfinished

theorem Decided.bind {A B : Type} {first : Except RedoError A} {rest : A -> Except RedoError B}
    (settled : Decided first)
    (later : forall middle, first = .ok middle -> Decided (rest middle)) : Decided (first >>= rest) := by
  cases first with
  | error cause =>
      intro unfinished
      cases unfinished
      exact settled rfl
  | ok middle => exact later middle rfl

theorem Decided.ok {A : Type} (value : A) : Decided (.ok value) := fun unfinished => nomatch unfinished

theorem sym_settled (mark : Sym) (toks : List Tok) : Decided (sym mark toks) := by
  intro unfinished
  unfold sym at unfinished
  split at unfinished
  · split at unfinished <;> cases unfinished
  · cases unfinished

theorem word_settled (expected : String) (toks : List Tok) : Decided (word expected toks) := by
  intro unfinished
  unfold word at unfinished
  split at unfinished
  · split at unfinished <;> cases unfinished
  · cases unfinished

theorem ident_settled (toks : List Tok) : Decided (ident toks) := by
  intro unfinished
  unfold ident at unfinished
  split at unfinished <;> cases unfinished

theorem tableRef_settled (toks : List Tok) : Decided (tableRef toks) := by
  apply (ident_settled toks).bind
  rintro ⟨first, rest⟩ _
  dsimp only
  split
  · exact (ident_settled _).bind (fun _ _ => Decided.ok _)
  · exact Decided.ok _

theorem concat_settled (left right : Resolved) : Decided (concat left right) := by
  have text : forall operand, Decided (concatText operand) := by
    intro operand unfinished
    cases operand <;> cases unfinished
  exact (text left).bind (fun _ _ => (text right).bind (fun _ _ => Decided.ok _))

theorem flushUnits_settled (units : List UInt16) (out : List Char) : Decided (flushUnits units out) := by
  intro unfinished
  unfold flushUnits at unfinished
  split at unfinished
  · cases unfinished
  · split at unfinished <;> cases unfinished

theorem decodeUnistr_settled (units : List UInt16) (out text : List Char) : Decided (decodeUnistr units out text) := by
  fun_induction decodeUnistr units out text with
  | case1 units out => exact flushUnits_settled units out
  | case2 units out rest ih =>
      exact (flushUnits_settled units out).bind (fun more _ => ih more)
  | case3 units out first second third fourth rest different unit read ih => exact ih
  | case4 units out first second third fourth rest different read => exact fun unfinished => nomatch unfinished
  | case5 units out rest different long => exact fun unfinished => nomatch unfinished
  | case6 units out character rest different long other ih =>
      exact (flushUnits_settled units out).bind (fun more _ => ih more)

theorem applyFunction_settled (name : List Char) (args : List Resolved) : Decided (applyFunction name args) := by
  unfold applyFunction
  dsimp only
  split
  · exact Decided.ok _
  split
  · split
    · split
      · exact Decided.ok _
      · exact fun unfinished => nomatch unfinished
    · exact Decided.ok _
  split
  · split
    · exact (decodeUnistr_settled _ _ _).bind (fun _ _ => Decided.ok _)
    · exact Decided.ok _
  split
  · exact Decided.ok _
  · exact fun unfinished => nomatch unfinished

/-- A part of the parser that settles every list shorter than a bound. -/
def Finishes {A : Type} (parser : Parser A) (bound : Nat) : Prop :=
  forall toks, toks.length < bound -> Decided (parser toks)

theorem commaLoop_settled {A : Type} {item : Parser A} (closes : Closes item) {bound : Nat}
    (finishes : Finishes item bound) {fuel : Nat} {items : List A} {toks : List Tok} (enough : toks.length < fuel)
    (short : toks.length ≤ bound) : Decided (commaLoop item fuel items toks) := by
  induction fuel generalizing items toks with
  | zero => cases enough
  | succ fuel ih =>
      by_cases more : toks.head? = some (.sym .comma)
      · rcases head_eq_some more with ⟨others, rfl⟩
        rw [List.length_cons] at enough short
        apply (finishes others (by omega)).bind
        rintro ⟨next, after⟩ one
        have shorter := (closes _ _ _ one).length_lt
        exact ih (by omega) (by omega)
      · rw [commaLoop_done more]
        exact Decided.ok _

theorem listOf_finishes {A : Type} {item : Parser A} (closes : Closes item) {bound : Nat}
    (finishes : Finishes item bound) : Finishes (listOf item) bound := by
  intro toks short
  apply (finishes toks short).bind
  rintro ⟨first, rest⟩ one
  have shorter := (closes _ _ _ one).length_lt
  exact commaLoop_settled closes finishes (Nat.lt_succ_self _) (by omega)

theorem term_finishes {inner : Parser Resolved} (closes : Closes inner) {bound : Nat}
    (finishes : Finishes inner bound) :
    Finishes (term inner) (bound + 1) := by
  intro toks short
  unfold term
  split
  · exact Decided.ok _
  · split
    · exact Decided.ok _
    · split
      · next inside =>
          have argumentsSettled : Decided (arguments inner inside) := by
            unfold arguments
            split
            · exact Decided.ok _
            · apply listOf_finishes closes finishes
              rw [List.length_cons, List.length_cons] at short
              omega
          apply argumentsSettled.bind
          rintro ⟨args, rest⟩ _
          apply (sym_settled _ _).bind
          intro rest _
          exact (applyFunction_settled _ _).bind (fun _ _ => Decided.ok _)
      · split
        · exact Decided.ok _
        · exact fun unfinished => nomatch unfinished
  · exact fun unfinished => nomatch unfinished

theorem concatLoop_settled {operand : Parser Resolved} (closes : Closes operand) {bound : Nat}
    (finishes : Finishes operand bound) {fuel : Nat} {left : Resolved} {toks : List Tok} (enough : toks.length < fuel)
    (short : toks.length ≤ bound) : Decided (concatLoop operand fuel left toks) := by
  induction fuel generalizing left toks with
  | zero => cases enough
  | succ fuel ih =>
      by_cases more : toks.head? = some (.sym .bars)
      · rcases head_eq_some more with ⟨others, rfl⟩
        rw [List.length_cons] at enough short
        apply (finishes others (by omega)).bind
        rintro ⟨right, after⟩ one
        have shorter := (closes _ _ _ one).length_lt
        apply (concat_settled _ _).bind
        intro both _
        exact ih (by omega) (by omega)
      · rw [concatLoop_done more]
        exact Decided.ok _

theorem valueWithin_finishes (depth : Nat) : Finishes (valueWithin depth) depth := by
  induction depth with
  | zero =>
      intro toks short
      cases short
  | succ depth ih =>
      intro toks short
      have closes := term_closes (valueWithin_closes depth)
      have finishes := term_finishes (valueWithin_closes depth) ih
      apply (finishes toks short).bind
      rintro ⟨first, rest⟩ one
      have shorter := (closes _ _ _ one).length_lt
      exact concatLoop_settled closes finishes (Nat.lt_succ_self _) (by omega)

theorem value_settled (toks : List Tok) : Decided (value toks) := valueWithin_finishes _ toks (Nat.lt_succ_self _)

theorem assignment_settled (toks : List Tok) : Decided (assignment toks) := by
  apply (ident_settled toks).bind
  rintro ⟨column, rest⟩ _
  apply (sym_settled _ _).bind
  intro rest _
  exact (value_settled rest).bind (fun _ _ => Decided.ok _)

theorem condition_settled (toks : List Tok) : Decided (condition toks) := by
  unfold condition
  split
  · split
    · apply (sym_settled _ _).bind
      intro rest _
      exact (value_settled rest).bind (fun _ _ => Decided.ok _)
    · exact fun unfinished => nomatch unfinished
  · apply (ident_settled _).bind
    rintro ⟨column, rest⟩ _
    dsimp only
    split
    · split
      · exact (word_settled _ _).bind (fun _ _ => Decided.ok _)
      · exact fun unfinished => nomatch unfinished
    · apply (sym_settled _ _).bind
      intro rest _
      exact (value_settled rest).bind (fun _ _ => Decided.ok _)

theorem conditionsLoop_settled {stop : Option String} {fuel : Nat} {out : Image} {toks : List Tok}
    (enough : toks.length < fuel) : Decided (conditionsLoop stop fuel out toks) := by
  induction fuel generalizing out toks with
  | zero => cases enough
  | succ fuel ih =>
      rw [conditionsLoop]
      split
      · exact Decided.ok _
      · apply (condition_settled toks).bind
        rintro ⟨found, rest⟩ one
        have shorter := (condition_closes _ _ _ one).length_lt
        dsimp only
        split
        · split
          · rw [List.length_cons] at shorter
            exact ih (by omega)
          · exact Decided.ok _
        · exact Decided.ok _

theorem whereClause_settled (toks : List Tok) : Decided (whereClause toks) := by
  unfold whereClause
  split
  · split
    · exact conditionsLoop_settled (Nat.lt_succ_self _)
    · exact Decided.ok _
  · exact Decided.ok _

theorem parseInsert_settled (toks : List Tok) : Decided (parseInsert toks) := by
  have columns : forall toks, Decided (listOf ident toks) :=
    fun toks => listOf_finishes ident_closes (fun toks _ => ident_settled toks) toks (Nat.lt_succ_self _)
  have values : forall toks, Decided (listOf value toks) :=
    fun toks => listOf_finishes value_closes (fun toks _ => value_settled toks) toks (Nat.lt_succ_self _)
  refine (word_settled _ _).bind (fun rest _ => (tableRef_settled rest).bind (fun found _ => ?_))
  refine (sym_settled _ _).bind (fun rest _ => (columns rest).bind (fun found _ => ?_))
  refine (sym_settled _ _).bind (fun rest _ => (word_settled _ _).bind (fun rest _ => ?_))
  refine (sym_settled _ _).bind (fun rest _ => (values rest).bind (fun found _ => ?_))
  refine (sym_settled _ _).bind (fun rest _ => ?_)
  split
  · exact fun unfinished => nomatch unfinished
  · exact Decided.ok _

theorem parseUpdate_settled (toks : List Tok) : Decided (parseUpdate toks) := by
  have assignments : forall toks, Decided (listOf assignment toks) :=
    fun toks => listOf_finishes assignment_closes (fun toks _ => assignment_settled toks) toks (Nat.lt_succ_self _)
  refine (tableRef_settled _).bind (fun found _ => (word_settled _ _).bind (fun rest _ => ?_))
  refine (assignments rest).bind (fun found _ => ?_)
  exact (whereClause_settled _).bind (fun _ _ => Decided.ok _)

theorem parseDelete_settled (toks : List Tok) : Decided (parseDelete toks) := by
  refine (word_settled _ _).bind (fun rest _ => (tableRef_settled rest).bind (fun found _ => ?_))
  exact (whereClause_settled _).bind (fun _ _ => Decided.ok _)

theorem parseTokens_settled (sql : List Char) (toks : List Tok) : Decided (parseTokens sql toks) := by
  have read : Decided (statement sql toks) := by
    unfold statement
    split
    · split
      · exact parseInsert_settled _
      split
      · exact parseUpdate_settled _
      split
      · exact parseDelete_settled _
      · exact fun unfinished => nomatch unfinished
    · exact fun unfinished => nomatch unfinished
  have ended : forall toks, Decided (expectEnd toks) := by
    intro toks
    induction toks with
    | nil => exact Decided.ok _
    | cons tok toks ih =>
        unfold expectEnd
        split
        · next empty => cases empty
        · next rest shape =>
            cases shape
            exact ih
        · exact fun unfinished => nomatch unfinished
  exact read.bind (fun found _ => (ended _).bind (fun _ _ => Decided.ok _))

end OracleCdc
end FaucetStream
