import Mathlib.Data.List.Basic
import Mathlib.Data.String.Basic

namespace FaucetStream
namespace PostgresCdc

/-!
# Array literals

A column of an array type arrives as the text the server prints for it.  The
parser goes through it once with three things in hand: the element so far,
whether it is inside quotes, and whether the element had any.  Arrays of one
dimension come back element by element, and nested ones are left as text.
-/

/-! ## The parser -/

def finishArrayElement (raw : List Char) (quoted : Bool) : Option String :=
  if !quoted && raw == ['N', 'U', 'L', 'L'] then none else some (String.ofList raw)

/-- The loop of `parse_pg_array`; an escape takes the next character with it. -/
def parseChars (out : List (Option String)) (cur : List Char) (inQuotes quoted : Bool) :
    List Char -> Option (List (Option String))
  | [] => if inQuotes then none else some (out ++ [finishArrayElement cur quoted])
  | c :: rest =>
      if inQuotes then
        if c = '\\' then
          match rest with
          | [] => parseChars out cur true quoted []
          | next :: rest => parseChars out (cur ++ [next]) true quoted rest
        else if c = '"' then parseChars out cur false quoted rest
        else parseChars out (cur ++ [c]) true quoted rest
      else if c = '"' then parseChars out cur true true rest
      else if c = '{' then none
      else if c = ',' then parseChars (out ++ [finishArrayElement cur quoted]) [] false false rest
      else parseChars out (cur ++ [c]) false quoted rest

/-- The elements of a one-dimensional array, `none` for an unquoted `NULL`. -/
def parsePgArray (text : String) : Option (List (Option String)) :=
  let chars := text.toList
  if chars.head? ≠ some '{' ∨ chars.getLast? ≠ some '}' then none
  else
    let inner := (chars.drop 1).dropLast
    if inner.isEmpty then some [] else parseChars [] [] false false inner

/-! ## The server's `array_out` -/

section Rendering

-- which characters the server takes for whitespace
variable (isSpace : Char -> Bool)

def special (character : Char) : Bool :=
  ['{', '}', ',', '"', '\\'].contains character || isSpace character

/-- Whether the server puts an element into quotes. -/
def needsQuote (text : List Char) : Bool :=
  text.isEmpty || text.map Char.toLower == ['n', 'u', 'l', 'l'] || text.any (special isSpace)

def escapeChar (character : Char) : List Char :=
  if character = '"' ∨ character = '\\' then ['\\', character] else [character]

def renderElement : Option String -> List Char
  | none => ['N', 'U', 'L', 'L']
  | some text =>
      if needsQuote isSpace text.toList then '"' :: (text.toList.flatMap escapeChar ++ ['"'])
      else text.toList

def braced (parts : List (List Char)) : List Char := '{' :: ([','].intercalate parts ++ ['}'])

/-- An array of one dimension, counted from one. -/
def arrayOut (elements : List (Option String)) : String :=
  String.ofList (braced (elements.map (renderElement isSpace)))

/-- An array of some dimensions, none of them empty: the server has no other
arrays than these and the empty one, which has no dimension. -/
def Nested : Nat -> Type
  | 0 => Option String
  | dims + 1 => Nested dims × List (Nested dims)

def renderNested : (dims : Nat) -> Nested dims -> List Char
  | 0, element => renderElement isSpace element
  | dims + 1, (first, others) => braced ((first :: others).map (renderNested dims))

/-- The bounds of the dimensions, printed unless all of them start at one. -/
def renderBounds (bounds : List (Int × Int)) : List Char :=
  if bounds.all (fun bound => bound.1 == 1) then []
  else bounds.flatMap (fun bound =>
    ['['] ++ (toString bound.1).toList ++ [':'] ++ (toString bound.2).toList ++ [']']) ++ ['=']

def nestedOut (bounds : List (Int × Int)) {dims : Nat} (array : Nested dims) : String :=
  String.ofList (renderBounds bounds ++ renderNested isSpace dims array)

end Rendering

/-! ## One dimension -/

section OneDimension

variable {out : List (Option String)} {cur : List Char} {quoted : Bool}

theorem parseChars_escape (next : Char) (rest : List Char) :
    parseChars out cur true quoted ('\\' :: next :: rest) = parseChars out (cur ++ [next]) true quoted rest := rfl

theorem parseChars_quote (inQuotes : Bool) (rest : List Char) :
    parseChars out cur inQuotes quoted ('"' :: rest) =
      parseChars out cur (!inQuotes) (if inQuotes then quoted else true) rest := by
  cases inQuotes <;> cases rest <;> rfl

theorem parseChars_brace (rest : List Char) : parseChars out cur false quoted ('{' :: rest) = none := by
  cases rest <;> rfl

theorem parseChars_comma (rest : List Char) :
    parseChars out cur false quoted (',' :: rest) =
      parseChars (out ++ [finishArrayElement cur quoted]) [] false false rest := by
  cases rest <;> rfl

theorem parseChars_inside {character : Char} (escape : character ≠ '\\') (quote : character ≠ '"')
    (rest : List Char) :
    parseChars out cur true quoted (character :: rest) = parseChars out (cur ++ [character]) true quoted rest := by
  rw [parseChars.eq_def]
  dsimp only
  rw [if_pos rfl, if_neg escape, if_neg quote]

theorem parseChars_outside {character : Char} (quote : character ≠ '"') (brace : character ≠ '{')
    (comma : character ≠ ',') (rest : List Char) :
    parseChars out cur false quoted (character :: rest) = parseChars out (cur ++ [character]) false quoted rest := by
  rw [parseChars.eq_def]
  dsimp only
  rw [if_neg Bool.false_ne_true, if_neg quote, if_neg brace, if_neg comma]

/-- Inside quotes an escaped text is read as the text. -/
theorem parseChars_escaped (text rest : List Char) :
    parseChars out cur true quoted (text.flatMap escapeChar ++ '"' :: rest) =
      parseChars out (cur ++ text) false quoted rest := by
  induction text generalizing cur with
  | nil =>
      rw [List.flatMap_nil, List.nil_append, List.append_nil, parseChars_quote]
      rfl
  | cons character text ih =>
      have later : parseChars out (cur ++ [character]) true quoted (text.flatMap escapeChar ++ '"' :: rest) = _ :=
        ih
      rw [List.append_assoc, List.singleton_append] at later
      rw [List.flatMap_cons, ← later, List.append_assoc]
      unfold escapeChar
      by_cases escaped : character = '"' ∨ character = '\\'
      · rw [if_pos escaped, List.cons_append, List.singleton_append, parseChars_escape]
      · rw [if_neg escaped, List.singleton_append]
        rw [not_or] at escaped
        exact parseChars_inside escaped.2 escaped.1 _

/-- Outside quotes a text without special characters is read as it stands. -/
theorem parseChars_plain {text : List Char}
    (plain : forall character, character ∈ text -> character ≠ '"' ∧ character ≠ '{' ∧ character ≠ ',')
    (rest : List Char) :
    parseChars out cur false quoted (text ++ rest) = parseChars out (cur ++ text) false quoted rest := by
  induction text generalizing cur with
  | nil => rw [List.nil_append, List.append_nil]
  | cons character text ih =>
      rcases plain character List.mem_cons_self with ⟨quote, brace, comma⟩
      have later : parseChars out (cur ++ [character]) false quoted (text ++ rest) = _ :=
        ih (fun other member => plain other (List.mem_cons_of_mem character member))
      rw [List.append_assoc, List.singleton_append] at later
      rw [List.cons_append, parseChars_outside quote brace comma, later]

end OneDimension

theorem plain_of_special {isSpace : Char -> Bool} {text : List Char} (none : text.any (special isSpace) = false)
    (character : Char) (member : character ∈ text) : character ≠ '"' ∧ character ≠ '{' ∧ character ≠ ',' := by
  have ordinary := List.any_eq_false.mp none character member
  refine ⟨?_, ?_, ?_⟩ <;>
  · rintro rfl
    exact ordinary rfl

/-- An element is read up to where it ends, and becomes what was rendered. -/
theorem parseChars_element (isSpace : Char -> Bool) (element : Option String) (out : List (Option String)) :
    exists raw quoted, finishArrayElement raw quoted = element ∧ forall rest,
      parseChars out [] false false (renderElement isSpace element ++ rest) = parseChars out raw false quoted rest := by
  cases element with
  | none =>
      refine ⟨['N', 'U', 'L', 'L'], false, rfl, ?_⟩
      intro rest
      have plain : forall character, character ∈ ['N', 'U', 'L', 'L'] ->
          character ≠ '"' ∧ character ≠ '{' ∧ character ≠ ',' := by
        simp only [List.forall_mem_cons]
        exact ⟨by decide, by decide, by decide, by decide, nofun⟩
      exact parseChars_plain plain rest
  | some text =>
      unfold renderElement
      dsimp only
      cases quotes : needsQuote isSpace text.toList with
      | true =>
          refine ⟨text.toList, true, ?_, ?_⟩
          · unfold finishArrayElement
            rw [Bool.not_true, Bool.false_and, if_neg Bool.false_ne_true, String.ofList_toList]
          · intro rest
            rw [if_pos rfl, List.cons_append, List.append_assoc, parseChars_quote]
            exact parseChars_escaped text.toList rest
      | false =>
          unfold needsQuote at quotes
          rw [Bool.or_eq_false_iff, Bool.or_eq_false_iff] at quotes
          rcases quotes with ⟨⟨_, named⟩, plain⟩
          refine ⟨text.toList, false, ?_, ?_⟩
          · have other : (text.toList == ['N', 'U', 'L', 'L']) = false := by
              rw [beq_eq_false_iff_ne]
              intro same
              rw [same] at named
              exact absurd named (by decide)
            unfold finishArrayElement
            rw [other, Bool.and_false, if_neg Bool.false_ne_true, String.ofList_toList]
          · intro rest
            rw [if_neg Bool.false_ne_true]
            exact parseChars_plain (plain_of_special plain) rest

/-- The elements of a list, after those already read. -/
theorem parseChars_elements (isSpace : Char -> Bool) (element : Option String) (elements out : List (Option String)) :
    parseChars out [] false false ([','].intercalate ((element :: elements).map (renderElement isSpace))) =
      some (out ++ element :: elements) := by
  induction elements generalizing element out with
  | nil =>
      rcases parseChars_element isSpace element out with ⟨raw, quoted, finished, read⟩
      have last := read []
      rw [List.append_nil] at last
      rw [List.map_singleton, List.intercalate_singleton, last, parseChars, if_neg Bool.false_ne_true, finished]
  | cons next elements ih =>
      rcases parseChars_element isSpace element out with ⟨raw, quoted, finished, read⟩
      rw [List.map_cons, List.map_cons, List.intercalate_cons_cons, List.append_assoc, read, List.singleton_append,
        parseChars_comma, finished, ← List.map_cons, ih, List.append_assoc, List.singleton_append]

theorem renderElement_ne_nil (isSpace : Char -> Bool) (element : Option String) :
    renderElement isSpace element ≠ [] := by
  cases element with
  | none => exact List.cons_ne_nil _ _
  | some text =>
      unfold renderElement
      dsimp only
      split
      · exact List.cons_ne_nil _ _
      · next plain =>
          intro empty
          rw [empty] at plain
          exact plain rfl

theorem getLast?_braced (parts : List (List Char)) : (braced parts).getLast? = some '}' := by
  unfold braced
  rw [← List.cons_append]
  exact List.getLast?_concat

/-- What stands between the braces of a text decides what becomes of it. -/
theorem parsePgArray_braced (parts : List (List Char)) :
    parsePgArray (String.ofList (braced parts)) =
      if ([','].intercalate parts).isEmpty then some [] else parseChars [] [] false false
        ([','].intercalate parts) := by
  have inner : ((braced parts).drop 1).dropLast = [','].intercalate parts := by
    unfold braced
    rw [List.drop_succ_cons, List.drop_zero, List.dropLast_concat]
  unfold parsePgArray
  dsimp only
  rw [String.toList_ofList, inner, getLast?_braced, if_neg]
  rintro (other | other)
  · exact other rfl
  · exact other rfl

/-- A list comes back as it was rendered. -/
theorem parsePgArray_elements (isSpace : Char -> Bool) (elements : List (Option String)) :
    parsePgArray (arrayOut isSpace elements) = some elements := by
  unfold arrayOut
  rw [parsePgArray_braced]
  cases elements with
  | nil => rfl
  | cons element elements =>
      have nonempty : ¬([','].intercalate ((element :: elements).map (renderElement isSpace))).isEmpty = true := by
        rw [List.isEmpty_iff]
        intro empty
        cases elements with
        | nil =>
            rw [List.map_singleton, List.intercalate_singleton] at empty
            exact renderElement_ne_nil isSpace element empty
        | cons next elements =>
            rw [List.map_cons, List.map_cons, List.intercalate_cons_cons] at empty
            exact renderElement_ne_nil isSpace element
              (List.append_eq_nil_iff.mp (List.append_eq_nil_iff.mp empty).1).1
      rw [if_neg nonempty, parseChars_elements, List.nil_append]

/-! ## More dimensions -/

theorem intercalate_braced (parts others : List (List Char)) :
    exists rest, [','].intercalate (braced parts :: others) = '{' :: rest := by
  cases others with
  | nil =>
      rw [List.intercalate_singleton]
      exact ⟨_, rfl⟩
  | cons next others =>
      rw [List.intercalate_cons_cons]
      exact ⟨_, rfl⟩

theorem renderBounds_cases (bounds : List (Int × Int)) :
    renderBounds bounds = [] ∨ exists rest, renderBounds bounds = '[' :: rest := by
  unfold renderBounds
  cases bounds with
  | nil => exact Or.inl rfl
  | cons bound bounds =>
      split
      · exact Or.inl rfl
      · exact Or.inr ⟨_, rfl⟩

/-- Braces inside braces, or bounds in front: either way the text is left
alone. -/
theorem parsePgArray_nested (isSpace : Char -> Bool) (bounds : List (Int × Int)) {dims : Nat}
    (array : Nested (dims + 2)) : parsePgArray (nestedOut isSpace bounds array) = none := by
  rcases array with ⟨⟨first, siblings⟩, others⟩
  unfold nestedOut
  rcases renderBounds_cases bounds with plain | ⟨rest, bounded⟩
  · have shape : renderNested isSpace (dims + 2) ((first, siblings), others) =
        braced (braced ((first :: siblings).map (renderNested isSpace dims)) ::
          others.map (renderNested isSpace (dims + 1))) := rfl
    rcases intercalate_braced ((first :: siblings).map (renderNested isSpace dims))
      (others.map (renderNested isSpace (dims + 1))) with ⟨rest, nested⟩
    rw [plain, List.nil_append, shape, parsePgArray_braced, nested, parseChars_brace]
    rfl
  · rw [bounded]
    unfold parsePgArray
    dsimp only
    rw [String.toList_ofList, List.cons_append, List.head?_cons, if_pos (Or.inl (by decide))]

/-- A list of optional texts comes back from what the server prints for it, and
what it prints for an array of two or more dimensions is refused, whatever the
server takes for whitespace. -/
theorem parsePgArray_arrayOut (isSpace : Char -> Bool) :
    (forall elements, parsePgArray (arrayOut isSpace elements) = some elements) ∧
      forall (bounds : List (Int × Int)) (dims : Nat) (array : Nested (dims + 2)),
        parsePgArray (nestedOut isSpace bounds array) = none :=
  ⟨parsePgArray_elements isSpace, fun bounds _ array => parsePgArray_nested isSpace bounds array⟩

end PostgresCdc
end FaucetStream
