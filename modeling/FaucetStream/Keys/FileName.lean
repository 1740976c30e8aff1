import FaucetStream.Library.Fields
import FaucetStream.Library.Hex
import FaucetStream.Library.Utf8
import FaucetStream.Pipeline.Stream

namespace FaucetStream
namespace Keys

open Library

/-!
# State keys as file names

The file store keeps each key in a file of its own.  Colons, slashes and
capital letters are percent escapes in the stem, so that keys that differ only
in case have different files where names ignore case.  A stem that would be
too long keeps a readable start and ends in the digest of its key.

The digest is a parameter: 32 bytes for every text of bytes.
-/

/-- What SHA-256 answers. -/
structure Digest where
  bytes : List UInt8
  length_bytes : bytes.length = 32

def MAX_STEM : Nat := 160

/-! ## From keys to stems -/

def escaped (character : Char) : List Char :=
  if character = ':' then ['%', '3', 'A']
  else if character = '/' then ['%', '2', 'F']
  else if character.isUpper then '%' :: hexText 2 character.toNat
  else [character]

/-- Whether a cut behind a text would split an escape. -/
def splitsEscape (text : List Char) : Bool := (text.reverse.take 2).any (· == '%')

def cutBack (out : List Char) : (cut : Nat) -> Nat
  | 0 => 0
  | cut + 1 => if splitsEscape (out.take (cut + 1)) then cutBack out cut else cut + 1

def digestText (digest : Digest) : List Char := digest.bytes.flatMap (fun byte => hexDigits 2 byte.toNat)

def safeFilename (sha256 : List UInt8 -> Digest) (key : String) : String :=
  let out := key.toList.flatMap escaped
  if (String.ofList out).utf8ByteSize ≤ MAX_STEM then String.ofList out
  else
    let hex := digestText (sha256 (encodeUtf8 key.toList))
    let cut := cutBack out (MAX_STEM - hex.length - 1)
    String.ofList (out.take cut ++ '~' :: hex)

/-! ## From stems to keys -/

/-- `u8::from_str_radix` on two characters, base 16. -/
def readHexByte (high low : Char) : Option Nat :=
  if high = '+' then hexDigitValue low
  else (hexDigitValue high).bind (fun upper => (hexDigitValue low).map (fun lower => upper * 16 + lower))

/-- The characters of a stem.  The bytes of a character beyond ASCII are no
key characters, whether they are read one by one or together. -/
def decodeStem : List Char -> Option (List Char)
  | [] => some []
  | '%' :: high :: low :: rest =>
      (readHexByte high low).bind (fun code => (decodeStem rest).map (fun key => Char.ofNat code :: key))
  | '%' :: _ => none
  | character :: rest => (decodeStem rest).map (fun key => character :: key)

def keyFromFilename (stem : String) : Option String :=
  if stem.toList.contains '~' then none
  else
    (decodeStem stem.toList).bind (fun key =>
      match Pipeline.Run.validateStateKey (String.ofList key) with
      | .ok () => some (String.ofList key)
      | .error _ => none)

/-- `eq_ignore_ascii_case`. -/
def sameIgnoringCase (left right : String) : Bool :=
  left.toList.map Char.toLower == right.toList.map Char.toLower

example : safeFilename (fun _ => ⟨List.replicate 32 0, rfl⟩) "acme/Erp::r" = "acme%2F%45rp%3A%3Ar" := by
  decide +kernel

/-! ## Characters of a key -/

def isKeyCharacter (character : Char) : Bool :=
  (character.isAlphanum && decide (character.toNat < 128)) || character == '_' || character == '-' ||
    character == ':' || character == '.' || character == '/'

theorem isKeyCharacter_of_valid {key : String} (valid : Pipeline.Run.validateStateKey key = .ok ())
    {character : Char} (member : character ∈ key.toList) : isKeyCharacter character = true := by
  unfold Pipeline.Run.validateStateKey at valid
  dsimp only at valid
  split at valid
  · cases valid
  split at valid
  · cases valid
  split at valid
  · cases valid
  · rename_i legal
    have passed := List.findIdx?_eq_none_iff.mp legal character member
    rw [Bool.not_eq_false'] at passed
    exact passed

/-- What the escape of a key character is: the character itself, in lower
case, or two digits that are read back in either case. -/
def wellEscaped (character : Char) : Bool :=
  match escaped character with
  | [only] => only == character && character != '%' && character != '~' && character.toLower == character
  | [percent, high, low] =>
      percent == '%' && readHexByte high low == some character.toNat &&
        readHexByte high.toLower low.toLower == some character.toNat && high != '~' && low != '~' &&
        decide (high.toNat < 128) && decide (low.toNat < 128)
  | _ => false

theorem small_of_isKeyCharacter {character : Char} (legal : isKeyCharacter character = true) :
    character.toNat < 128 := by
  simp only [isKeyCharacter, Bool.or_eq_true, Bool.and_eq_true, beq_iff_eq, decide_eq_true_eq] at legal
  rcases legal with ((((⟨_, small⟩ | rfl) | rfl) | rfl) | rfl) | rfl
  · exact small
  all_goals decide

theorem wellEscaped_of_isKeyCharacter {character : Char} (legal : isKeyCharacter character = true) :
    wellEscaped character = true := by
  have checked : forall code, code < 128 -> isKeyCharacter (Char.ofNat code) = true ->
      wellEscaped (Char.ofNat code) = true := by
    decide +kernel
  have same := checked character.toNat (small_of_isKeyCharacter legal)
  rw [Char.ofNat_toNat] at same
  exact same legal

theorem escaped_cases {character : Char} (legal : isKeyCharacter character = true) :
    (escaped character = [character] ∧ character ≠ '%' ∧ character ≠ '~' ∧ character.toLower = character) ∨
      exists high low, escaped character = ['%', high, low] ∧ readHexByte high low = some character.toNat ∧
        readHexByte high.toLower low.toLower = some character.toNat ∧ high ≠ '~' ∧ low ≠ '~' ∧
        high.toNat < 128 ∧ low.toNat < 128 := by
  have well := wellEscaped_of_isKeyCharacter legal
  unfold wellEscaped at well
  split at well
  · rename_i only shape
    simp only [Bool.and_eq_true, beq_iff_eq, bne_iff_ne] at well
    rw [shape, well.1.1.1]
    exact Or.inl ⟨rfl, well.1.1.2, well.1.2, well.2⟩
  · rename_i percent high low shape
    simp only [Bool.and_eq_true, beq_iff_eq, bne_iff_ne, decide_eq_true_eq] at well
    rw [shape, well.1.1.1.1.1.1]
    exact Or.inr ⟨high, low, rfl, well.1.1.1.1.1.2, well.1.1.1.1.2, well.1.1.1.2, well.1.1.2, well.1.2, well.2⟩
  · cases well

/-! ## Stems read back -/

theorem decodeStem_cons {character : Char} (plain : character ≠ '%') (rest : List Char) :
    decodeStem (character :: rest) = (decodeStem rest).map (fun key => character :: key) := by
  rw [decodeStem]
  · intro high low others percent
    exact absurd percent plain
  · exact plain

/-- A stem is read back as it is and in lower case. -/
theorem decodeStem_map {fold : Char -> Char} (folds : fold = id ∨ fold = Char.toLower) {text : List Char}
    (legal : forall character, character ∈ text -> isKeyCharacter character = true) :
    decodeStem ((text.flatMap escaped).map fold) = some text := by
  induction text with
  | nil => rfl
  | cons character rest ih =>
      have later := ih (fun other member => legal other (List.mem_cons_of_mem _ member))
      rw [List.flatMap_cons, List.map_append]
      rcases escaped_cases (legal character List.mem_cons_self) with
        ⟨shape, plain, _, lower⟩ | ⟨high, low, shape, read, readLower, _⟩
      · have fixed : fold character = character := by
          rcases folds with rfl | rfl
          · rfl
          · exact lower
        rw [shape, List.map_singleton, fixed, List.singleton_append, decodeStem_cons plain, later, Option.map_some]
      · have percent : fold '%' = '%' := by
          rcases folds with rfl | rfl
          · rfl
          · rfl
        have folded : readHexByte (fold high) (fold low) = some character.toNat := by
          rcases folds with rfl | rfl
          · exact read
          · exact readLower
        rw [shape, List.map_cons, List.map_cons, List.map_singleton, percent]
        change decodeStem ('%' :: fold high :: fold low :: (rest.flatMap escaped).map fold) = _
        rw [decodeStem, folded, later, Option.bind_some, Option.map_some, Char.ofNat_toNat]

theorem tilde_not_mem_escaped {text : List Char}
    (legal : forall character, character ∈ text -> isKeyCharacter character = true) :
    '~' ∉ text.flatMap escaped := by
  intro member
  rcases List.mem_flatMap.mp member with ⟨character, listed, inside⟩
  rcases escaped_cases (legal character listed) with ⟨shape, _, other, _⟩ | ⟨high, low, shape, _, _, notHigh, notLow, _⟩
  · rw [shape] at inside
    exact other (List.mem_singleton.mp inside).symm
  · rw [shape] at inside
    simp only [List.mem_cons, List.not_mem_nil, or_false] at inside
    rcases inside with percent | isHigh | isLow
    · exact absurd percent (by decide)
    · exact notHigh isHigh.symm
    · exact notLow isLow.symm

theorem small_of_mem_escaped {text : List Char}
    (legal : forall character, character ∈ text -> isKeyCharacter character = true) {character : Char}
    (member : character ∈ text.flatMap escaped) : character.toNat < 128 := by
  rcases List.mem_flatMap.mp member with ⟨original, listed, inside⟩
  rcases escaped_cases (legal original listed) with ⟨shape, _⟩ | ⟨high, low, shape, _, _, _, _, smallHigh, smallLow⟩
  · rw [shape] at inside
    rw [List.mem_singleton.mp inside]
    exact small_of_isKeyCharacter (legal original listed)
  · rw [shape] at inside
    simp only [List.mem_cons, List.not_mem_nil, or_false] at inside
    rcases inside with rfl | rfl | rfl
    · decide
    · exact smallHigh
    · exact smallLow

/-! ## Digests -/

theorem length_digestText (digest : Digest) : (digestText digest).length = 64 := by
  have pieces : forall bytes : List UInt8,
      (bytes.flatMap (fun byte => hexDigits 2 byte.toNat)).length = bytes.length * 2 := by
    intro bytes
    induction bytes with
    | nil => rfl
    | cons byte rest ih =>
        rw [List.flatMap_cons, List.length_append, length_hexDigits, ih, List.length_cons]
        omega
  rw [digestText, pieces, digest.length_bytes]

theorem mem_digestText {digest : Digest} {character : Char} (member : character ∈ digestText digest) :
    character ≠ '~' ∧ character.toLower = character ∧ character.toNat < 128 := by
  have checked : forall digit, digit < 16 -> Nat.digitChar digit ≠ '~' ∧
      (Nat.digitChar digit).toLower = Nat.digitChar digit ∧ (Nat.digitChar digit).toNat < 128 := by decide
  rcases List.mem_flatMap.mp member with ⟨byte, _, inside⟩
  rcases mem_hexDigits inside with ⟨digit, small, rfl⟩
  exact checked digit small

theorem digestText_injective {left right : Digest} (same : digestText left = digestText right) : left = right := by
  have pieces : forall leftBytes rightBytes : List UInt8,
      leftBytes.flatMap (fun byte => hexDigits 2 byte.toNat) =
        rightBytes.flatMap (fun byte => hexDigits 2 byte.toNat) ->
        leftBytes.length = rightBytes.length -> leftBytes = rightBytes := by
    intro leftBytes
    induction leftBytes with
    | nil =>
        intro rightBytes _ lengths
        exact (List.length_eq_zero_iff.mp lengths.symm).symm
    | cons byte rest ih =>
        intro rightBytes texts lengths
        cases rightBytes with
        | nil => cases lengths
        | cons other others =>
            rw [List.flatMap_cons, List.flatMap_cons] at texts
            have widths : (hexDigits 2 byte.toNat).length = (hexDigits 2 other.toNat).length := by
              rw [length_hexDigits, length_hexDigits]
            rcases List.append_inj texts widths with ⟨first, later⟩
            have bytes : byte = other :=
              UInt8.toNat_inj.mp (hexDigits_injective 2 byte.toNat_lt other.toNat_lt first)
            rw [bytes, ih others later (Nat.succ.inj lengths)]
  have bytes := pieces left.bytes right.bytes same (left.length_bytes.trans right.length_bytes.symm)
  cases left
  cases right
  cases bytes
  rfl

/-! ## Stems -/

theorem cutBack_le (out : List Char) (cut : Nat) : cutBack out cut ≤ cut := by
  induction cut with
  | zero => exact le_refl 0
  | succ cut ih =>
      rw [cutBack]
      split
      · exact Nat.le_succ_of_le ih
      · exact le_refl _

section Stems

variable (sha256 : List UInt8 -> Digest) {key : String}

/-- A stem is the escaped key, or a start of it with the digest of the key. -/
theorem safeFilename_cases (key : String) :
    ((safeFilename sha256 key).toList = key.toList.flatMap escaped ∧
      (encodeUtf8 (key.toList.flatMap escaped)).length ≤ MAX_STEM) ∨
    exists cut, cut ≤ 95 ∧ (safeFilename sha256 key).toList =
      (key.toList.flatMap escaped).take cut ++ '~' :: digestText (sha256 (encodeUtf8 key.toList)) := by
  unfold safeFilename
  dsimp only
  rw [utf8ByteSize_ofList]
  split
  · rename_i short
    exact Or.inl ⟨String.toList_ofList, short⟩
  · refine Or.inr ⟨_, ?_, String.toList_ofList⟩
    have bound := cutBack_le (key.toList.flatMap escaped)
      (MAX_STEM - (digestText (sha256 (encodeUtf8 key.toList))).length - 1)
    rw [length_digestText] at bound ⊢
    exact bound

theorem tilde_mem_of_long (long : MAX_STEM < (encodeUtf8 (key.toList.flatMap escaped)).length) :
    '~' ∈ (safeFilename sha256 key).toList := by
  rcases safeFilename_cases sha256 key with ⟨_, short⟩ | ⟨cut, _, shape⟩
  · exact absurd long (Nat.not_lt.mpr short)
  · rw [shape]
    exact List.mem_append_right _ List.mem_cons_self

variable (legal : forall character, character ∈ key.toList -> isKeyCharacter character = true)

include legal in
theorem utf8ByteSize_safeFilename : (safeFilename sha256 key).utf8ByteSize ≤ MAX_STEM := by
  have bytes : (safeFilename sha256 key).utf8ByteSize = (encodeUtf8 (safeFilename sha256 key).toList).length := by
    rw [← utf8ByteSize_ofList, String.ofList_toList]
  rw [bytes]
  rcases safeFilename_cases sha256 key with ⟨shape, short⟩ | ⟨cut, small, shape⟩
  · rw [shape]
    exact short
  · have ascii : forall character, character ∈ (safeFilename sha256 key).toList -> character.toNat < 128 := by
      intro character member
      rw [shape] at member
      rcases List.mem_append.mp member with inStart | inEnd
      · exact small_of_mem_escaped legal (List.mem_of_mem_take inStart)
      · rcases List.mem_cons.mp inEnd with rfl | inDigest
        · decide
        · exact (mem_digestText inDigest).2.2
    have taken := List.length_take_le cut (key.toList.flatMap escaped)
    rw [length_encodeUtf8 ascii, shape, List.length_append, List.length_cons, length_digestText, MAX_STEM]
    omega

include legal in
/-- A tilde marks the stems that hold a digest. -/
theorem tilde_mem_safeFilename_iff :
    '~' ∈ (safeFilename sha256 key).toList <-> (safeFilename sha256 key).toList ≠ key.toList.flatMap escaped := by
  have none := tilde_not_mem_escaped legal
  rcases safeFilename_cases sha256 key with ⟨shape, _⟩ | ⟨cut, _, shape⟩
  · constructor
    · intro member
      rw [shape] at member
      exact absurd member none
    · intro different
      exact absurd shape different
  · have member : '~' ∈ (safeFilename sha256 key).toList := by
      rw [shape]
      exact List.mem_append_right _ List.mem_cons_self
    constructor
    · intro _ same
      rw [same] at member
      exact none member
    · intro _
      exact member

end Stems

theorem tilde_not_mem_lower {text : List Char}
    (legal : forall character, character ∈ text -> isKeyCharacter character = true) :
    '~' ∉ (text.flatMap escaped).map Char.toLower := by
  have checked : forall code, code < 128 -> (Char.ofNat code).toLower = '~' -> Char.ofNat code = '~' := by
    decide +kernel
  intro member
  rcases List.mem_map.mp member with ⟨character, listed, lower⟩
  have same := checked character.toNat (small_of_mem_escaped legal listed)
  rw [Char.ofNat_toNat] at same
  rw [same lower] at listed
  exact tilde_not_mem_escaped legal listed

theorem lower_digestText (digest : Digest) : (digestText digest).map Char.toLower = digestText digest := by
  have fixed : forall character, character ∈ digestText digest -> character.toLower = id character := by
    intro character member
    exact (mem_digestText member).2.1
  rw [List.map_congr_left fixed, List.map_id]

/-- An escaped key and a stem with a digest differ in more than case. -/
theorem lower_ne_of_digest {text out hex : List Char}
    (legal : forall character, character ∈ text -> isKeyCharacter character = true) :
    (text.flatMap escaped).map Char.toLower ≠ (out ++ '~' :: hex).map Char.toLower := by
  intro same
  apply tilde_not_mem_lower legal
  rw [same, List.map_append, List.map_cons]
  exact List.mem_append_right _ List.mem_cons_self

/-- Stems that agree up to case come from one key. -/
theorem eq_of_sameIgnoringCase (sha256 : List UInt8 -> Digest) {left right : String}
    (leftLegal : forall character, character ∈ left.toList -> isKeyCharacter character = true)
    (rightLegal : forall character, character ∈ right.toList -> isKeyCharacter character = true)
    (noCollision : sha256 (encodeUtf8 left.toList) = sha256 (encodeUtf8 right.toList) -> left = right)
    (same : sameIgnoringCase (safeFilename sha256 left) (safeFilename sha256 right) = true) : left = right := by
  have lowered := beq_iff_eq.mp same
  rcases safeFilename_cases sha256 left with ⟨leftShape, _⟩ | ⟨leftCut, _, leftShape⟩
  · rcases safeFilename_cases sha256 right with ⟨rightShape, _⟩ | ⟨rightCut, _, rightShape⟩
    · rw [leftShape, rightShape] at lowered
      have read := decodeStem_map (Or.inr rfl) leftLegal
      rw [lowered, decodeStem_map (Or.inr rfl) rightLegal] at read
      exact String.toList_inj.mp (Option.some.inj read).symm
    · rw [leftShape, rightShape] at lowered
      exact absurd lowered (lower_ne_of_digest leftLegal)
  · rcases safeFilename_cases sha256 right with ⟨rightShape, _⟩ | ⟨rightCut, _, rightShape⟩
    · rw [leftShape, rightShape] at lowered
      exact absurd lowered.symm (lower_ne_of_digest rightLegal)
    · rw [leftShape, rightShape, List.map_append, List.map_append, List.map_cons, List.map_cons, lower_digestText,
        lower_digestText, List.map_take, List.map_take] at lowered
      have leftFree : '~' ∉ ((left.toList.flatMap escaped).map Char.toLower).take leftCut :=
        fun member => tilde_not_mem_lower leftLegal (List.mem_of_mem_take member)
      have rightFree : '~' ∉ ((right.toList.flatMap escaped).map Char.toLower).take rightCut :=
        fun member => tilde_not_mem_lower rightLegal (List.mem_of_mem_take member)
      exact noCollision (digestText_injective (append_stop_inj leftFree rightFree lowered).2)

/-- A stem without a digest is read back, one with a digest is not read. -/
theorem keyFromFilename_safeFilename (sha256 : List UInt8 -> Digest) {key : String}
    (valid : Pipeline.Run.validateStateKey key = .ok ()) :
    keyFromFilename (safeFilename sha256 key) =
      if '~' ∈ (safeFilename sha256 key).toList then none else some key := by
  have legal : forall character, character ∈ key.toList -> isKeyCharacter character = true :=
    fun _ member => isKeyCharacter_of_valid valid member
  unfold keyFromFilename
  by_cases hashed : '~' ∈ (safeFilename sha256 key).toList
  · rw [if_pos (List.contains_iff_mem.mpr hashed), if_pos hashed]
  · have shape : (safeFilename sha256 key).toList = key.toList.flatMap escaped := by
      by_contra different
      exact hashed ((tilde_mem_safeFilename_iff sha256 legal).mpr different)
    have read := decodeStem_map (Or.inl rfl) legal
    rw [List.map_id] at read
    rw [if_neg (fun contained => hashed (List.contains_iff_mem.mp contained)), if_neg hashed, shape, read,
      Option.bind_some, String.ofList_toList, valid]

/-- Keys that are accepted have files of their own even where names ignore
case, names of at most 160 bytes, and unless their stem holds a digest they
are read back from it.  Two keys are told apart by their digests. -/
theorem safeFilename_distinct_and_reversible (sha256 : List UInt8 -> Digest) :
    (forall left right, Pipeline.Run.validateStateKey left = .ok () -> Pipeline.Run.validateStateKey right = .ok () ->
      (sha256 (encodeUtf8 left.toList) = sha256 (encodeUtf8 right.toList) -> left = right) ->
      sameIgnoringCase (safeFilename sha256 left) (safeFilename sha256 right) = true -> left = right) ∧
    (forall key, Pipeline.Run.validateStateKey key = .ok () -> (safeFilename sha256 key).utf8ByteSize ≤ MAX_STEM) ∧
    (forall key, Pipeline.Run.validateStateKey key = .ok () ->
      keyFromFilename (safeFilename sha256 key) =
        if '~' ∈ (safeFilename sha256 key).toList then none else some key) := by
  refine ⟨?_, ?_, ?_⟩
  · intro left right leftValid rightValid noCollision same
    exact eq_of_sameIgnoringCase sha256 (fun _ member => isKeyCharacter_of_valid leftValid member)
      (fun _ member => isKeyCharacter_of_valid rightValid member) noCollision same
  · intro key valid
    exact utf8ByteSize_safeFilename sha256 (fun _ member => isKeyCharacter_of_valid valid member)
  · intro key valid
    exact keyFromFilename_safeFilename sha256 valid

/-- Sixty capital letters behind a row. -/
def capitalKey : String := String.ofList ("p::r::".toList ++ List.replicate 60 'A')

/-- The last one small. -/
def smallKey : String := String.ofList ("p::r::".toList ++ List.replicate 59 'A' ++ ['a'])

/-- The digests of the two keys. -/
def twoDigests (bytes : List UInt8) : Digest :=
  if bytes = encodeUtf8 capitalKey.toList then
    ⟨[229, 193, 199, 94, 0, 159, 43, 142, 232, 32, 145, 243, 84, 0, 161, 205, 62, 28, 46, 11,
    115, 246, 211, 240, 163, 15, 168, 190, 19, 85, 140, 13], rfl⟩
  else if bytes = encodeUtf8 smallKey.toList then
    ⟨[190, 28, 57, 210, 28, 156, 51, 130, 98, 70, 185, 95, 110, 65, 4, 206, 227, 36, 33, 142,
    140, 78, 63, 96, 113, 104, 187, 112, 142, 92, 92, 103], rfl⟩
  else ⟨List.replicate 32 0, rfl⟩

/-- Two long keys that differ in case only. -/
theorem capitalKey_and_smallKey_kept_apart :
    Pipeline.Run.validateStateKey capitalKey = .ok () ∧ Pipeline.Run.validateStateKey smallKey = .ok () ∧
      sameIgnoringCase (safeFilename twoDigests capitalKey) (safeFilename twoDigests smallKey) = false ∧
      keyFromFilename (safeFilename twoDigests capitalKey) = none := by
  have capitalValid : Pipeline.Run.validateStateKey capitalKey = .ok () := by decide +kernel
  have smallValid : Pipeline.Run.validateStateKey smallKey = .ok () := by decide +kernel
  have different : capitalKey ≠ smallKey := by decide +kernel
  have bytes : encodeUtf8 smallKey.toList ≠ encodeUtf8 capitalKey.toList := by
    intro same
    exact different (String.toList_inj.mp (encodeUtf8_injective same)).symm
  have digests : (twoDigests (encodeUtf8 capitalKey.toList)).bytes ≠
      (twoDigests (encodeUtf8 smallKey.toList)).bytes := by
    unfold twoDigests
    rw [if_pos rfl, if_neg bytes, if_pos rfl]
    decide
  have noCollision : twoDigests (encodeUtf8 capitalKey.toList) = twoDigests (encodeUtf8 smallKey.toList) ->
      capitalKey = smallKey := by
    intro same
    exact absurd (congrArg Digest.bytes same) digests
  rcases safeFilename_distinct_and_reversible twoDigests with ⟨apart, _, reversible⟩
  refine ⟨capitalValid, smallValid, ?_, ?_⟩
  · rw [← Bool.not_eq_true]
    intro same
    exact different (apart capitalKey smallKey capitalValid smallValid noCollision same)
  · have hashed : '~' ∈ (safeFilename twoDigests capitalKey).toList := by
      apply tilde_mem_of_long
      decide +kernel
    rw [reversible capitalKey capitalValid, if_pos hashed]

end Keys
end FaucetStream
