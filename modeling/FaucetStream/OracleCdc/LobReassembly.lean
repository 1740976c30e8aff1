import FaucetStream.Library.Sorted
import FaucetStream.OracleCdc.Lob
import Mathlib.Data.List.Zip

namespace FaucetStream
namespace OracleCdc

open Library

/-!
# Pieces in any order

However the pieces of a text are shuffled over redo rows, their offsets in units
are found and the text is written where it belongs.
-/

/-- The pieces of a text as they are logged: each after the characters of the
one before. -/
def loggedFrom (offset : Nat) : List String -> List LobPiece
  | [] => []
  | piece :: rest => ⟨offset, .text piece⟩ :: loggedFrom (offset + piece.toList.length) rest

/-- Where the pieces belong: each after the units of the one before. -/
def unitsFrom (offset : Nat) : List String -> List Nat
  | [] => []
  | piece :: rest => offset :: unitsFrom (offset + (encodeUtf16 piece.toList).length) rest

theorem length_loggedFrom (offset : Nat) (pieces : List String) :
    (loggedFrom offset pieces).length = pieces.length := by
  induction pieces generalizing offset with
  | nil => rfl
  | cons piece rest ih => rw [loggedFrom, List.length_cons, ih, List.length_cons]

theorem length_unitsFrom (offset : Nat) (pieces : List String) : (unitsFrom offset pieces).length = pieces.length := by
  induction pieces generalizing offset with
  | nil => rfl
  | cons piece rest ih => rw [unitsFrom, List.length_cons, ih, List.length_cons]

variable {pieces : List String}

theorem le_offset_of_mem {offset : Nat} {write : LobPiece}
    (member : write ∈ loggedFrom offset pieces) : offset ≤ write.offset := by
  induction pieces generalizing offset with
  | nil => cases member
  | cons piece rest ih =>
      rcases List.mem_cons.mp member with rfl | later
      · exact le_rfl
      · exact Nat.le_trans (Nat.le_add_right _ _) (ih later)

theorem toList_length_pos {piece : String} (nonempty : piece ≠ "") : 0 < piece.toList.length := by
  rw [List.length_pos_iff, Ne, String.toList_eq_nil_iff]
  exact nonempty

theorem pairwise_loggedFrom (nonempty : forall piece, piece ∈ pieces -> piece ≠ "")
    (offset : Nat) : (loggedFrom offset pieces).Pairwise (fun first second => first.offset < second.offset) := by
  induction pieces generalizing offset with
  | nil => exact List.Pairwise.nil
  | cons piece rest ih =>
      have positive := toList_length_pos (nonempty piece List.mem_cons_self)
      refine List.pairwise_cons.mpr ⟨?_, ih (fun other member =>
        nonempty other (List.mem_cons_of_mem piece member)) _⟩
      intro write member
      have later := le_offset_of_mem member
      change offset < write.offset
      omega

/-! ## Offsets in units -/

/-- In order, each piece finds the shift of the chain so far. -/
theorem foldl_placeWrite {order : List (LobPiece × Nat)} {logged unit : Nat}
    (chain : order.map Prod.fst = loggedFrom logged pieces) (state : List (Nat × Nat) × List Nat)
    (shifted : logged + (state.1.lookup logged).getD 0 = unit) :
    (order.foldl placeWrite state).2 = setAll state.2 ((order.map Prod.snd).zip (unitsFrom unit pieces)) := by
  induction pieces generalizing order logged unit state with
  | nil =>
      rw [List.map_eq_nil_iff.mp chain]
      rfl
  | cons piece rest ih =>
      cases order with
      | nil => cases chain
      | cons entry order =>
          rcases entry with ⟨write, index⟩
          rcases List.cons.inj chain with ⟨rfl, others⟩
          have placed : placeWrite state (⟨logged, .text piece⟩, index) =
              (assign state.1 (logged + piece.toList.length)
                ((state.1.lookup logged).getD 0 + (encodeUtf16 piece.toList).length - piece.toList.length),
                state.2.set index (logged + (state.1.lookup logged).getD 0)) := rfl
          have longer := length_le_encodeUtf16 piece.toList
          have next : logged + piece.toList.length + ((assign state.1 (logged + piece.toList.length)
              ((state.1.lookup logged).getD 0 + (encodeUtf16 piece.toList).length - piece.toList.length)).lookup
                (logged + piece.toList.length)).getD 0 = unit + (encodeUtf16 piece.toList).length := by
            rw [lookup_assign, if_pos rfl, Option.getD_some]
            omega
          rw [List.foldl_cons, placed, shifted, ih others _ next]
          rfl

/-- Sorting the writes by their logged offsets puts the pieces in order. -/
theorem map_fst_order {writes : List LobPiece} {start : Nat}
    (nonempty : forall piece, piece ∈ pieces -> piece ≠ "") (logged : writes.Perm (loggedFrom start pieces)) :
    (writes.zipIdx.mergeSort (fun first second => decide (first.1.offset ≤ second.1.offset))).map Prod.fst =
      loggedFrom start pieces := by
  have perm : ((writes.zipIdx.mergeSort
      (fun first second => decide (first.1.offset ≤
        second.1.offset))).map Prod.fst).Perm (loggedFrom start pieces) := by
    refine ((List.mergeSort_perm _ _).map Prod.fst).trans ?_
    rw [List.zipIdx_map_fst]
    exact logged
  have weak := pairwise_mergeSort_key (fun entry : LobPiece × Nat => entry.1.offset) writes.zipIdx
  exact eq_of_sorted_perm (weak.map Prod.fst (fun _ _ before => before)) (pairwise_loggedFrom nonempty start) perm

theorem zip_eq_map_zipIdx {writes : List LobPiece} {offsets : List Nat} (same : offsets.length = writes.length) :
    writes.zip offsets = writes.zipIdx.map (fun entry => (entry.1, (offsets[entry.2]?).getD 0)) := by
  apply List.ext_getElem
  · rw [List.length_zip, List.length_map, List.length_zipIdx]
    omega
  · intro index left right
    rw [List.length_zip] at left
    rw [List.getElem_zip, List.getElem_map, List.getElem_zipIdx]
    dsimp only
    rw [Nat.zero_add, List.getElem?_eq_getElem (show index < offsets.length by omega), Option.getD_some]

/-- Offsets set in some order of the writes stand beside them in that order. -/
theorem zip_setAll_perm {writes chain : List LobPiece} {order : List (LobPiece × Nat)} {units : List Nat}
    (shuffled : order.Perm writes.zipIdx) (ordered : order.map Prod.fst = chain) (same : order.length = units.length) :
    (writes.zip (setAll (List.replicate writes.length 0) ((order.map Prod.snd).zip units))).Perm (chain.zip units) := by
  have indices : (order.map Prod.snd).Perm (List.range' 0 writes.length) := by
    have mapped := shuffled.map Prod.snd
    rw [List.zipIdx_map_snd] at mapped
    exact mapped
  have distinct : (((order.map Prod.snd).zip units).map Prod.fst).Nodup := by
    rw [List.map_fst_zip (by rw [List.length_map]; exact Nat.le_of_eq same)]
    exact indices.nodup_iff.mpr List.nodup_range'
  have total : (setAll (List.replicate writes.length 0) ((order.map Prod.snd).zip units)).length = writes.length := by
    rw [length_setAll, List.length_replicate]
  have found : forall entry, entry ∈ order.zip units ->
      (setAll (List.replicate writes.length 0) ((order.map Prod.snd).zip units))[entry.1.2]? = some entry.2 := by
    intro entry member
    have listed : (entry.1.2, entry.2) ∈ (order.map Prod.snd).zip units := by
      rw [List.zip_map_left]
      exact List.mem_map_of_mem member
    have inside : entry.1.2 < writes.length := by
      have mapped : entry.1.2 ∈ order.map Prod.snd := List.mem_map_of_mem (List.of_mem_zip member).1
      have ranged := (List.mem_range'_1.mp (indices.mem_iff.mp mapped)).2
      omega
    exact getElem?_setAll distinct listed (by rw [List.length_replicate]; exact inside)
  rw [zip_eq_map_zipIdx total]
  generalize setAll (List.replicate writes.length 0) ((order.map Prod.snd).zip units) = offsets at found
  have paired : order.map (fun entry => (entry.1, (offsets[entry.2]?).getD 0)) = chain.zip units := by
    calc order.map (fun entry => (entry.1, (offsets[entry.2]?).getD 0))
        = ((order.zip units).map Prod.fst).map (fun entry => (entry.1, (offsets[entry.2]?).getD 0)) := by
          rw [List.map_fst_zip (Nat.le_of_eq same)]
      _ = (order.zip units).map (fun entry => (entry.1.1, entry.2)) := by
          rw [List.map_map]
          apply List.map_congr_left
          intro entry member
          dsimp only [Function.comp]
          rw [found entry member, Option.getD_some]
      _ = chain.zip units := by
          rw [← ordered, List.zip_map_left]
          rfl
  rw [← paired]
  exact (shuffled.map _).symm

/-- Every write with its offset in units, up to order. -/
theorem zip_unitOffsets_perm {writes : List LobPiece} {start : Nat}
    (nonempty : forall piece, piece ∈ pieces -> piece ≠ "") (logged : writes.Perm (loggedFrom start pieces)) :
    (writes.zip (unitOffsets writes)).Perm ((loggedFrom start pieces).zip (unitsFrom start pieces)) := by
  have ordered := map_fst_order nonempty logged
  have placed := foldl_placeWrite ordered ([], List.replicate writes.length 0) rfl
  unfold unitOffsets
  dsimp only
  rw [placed]
  apply zip_setAll_perm (List.mergeSort_perm _ _) ordered
  have counted := congrArg List.length ordered
  rw [List.length_map, length_loggedFrom] at counted
  rw [counted, length_unitsFrom]

/-! ## Writing the pieces -/

/-- One write at its offset in units. -/
def writeUnits (units : List UInt16) (entry : LobPiece × Nat) : List UInt16 :=
  writeAt 0x20 units (entry.2 - 1) (unitsOf entry.1.data)

theorem zip_append_drop {A B : Type} (left right : List A) (others : List B) :
    (left ++ right).zip others = left.zip others ++ right.zip (others.drop left.length) := by
  induction left generalizing others with
  | nil => rfl
  | cons item left ih =>
      cases others with
      | nil => simp only [List.zip_nil_right, List.drop_nil, List.append_nil]
      | cons other others =>
          rw [List.cons_append, List.zip_cons_cons, ih, List.zip_cons_cons, List.cons_append]
          rfl

/-- Without trims the changes are their writes, one after the other. -/
theorem foldl_applyUnits {changes : List LobChange} (untrimmed : forall change, change ∈ changes -> change.trim = none)
    (units : List UInt16) (offsets : List Nat) :
    (changes.foldl applyUnits (units, offsets)).1 =
      ((changes.flatMap LobChange.writes).zip offsets).foldl writeUnits units := by
  induction changes generalizing units offsets with
  | nil => rfl
  | cons change rest ih =>
      have applied : applyUnits (units, offsets) change =
          ((change.writes.zip offsets).foldl writeUnits units, offsets.drop change.writes.length) := by
        unfold applyUnits truncateTo
        rw [untrimmed change List.mem_cons_self]
        rfl
      rw [List.foldl_cons, applied,
        ih (fun other member => untrimmed other (List.mem_cons_of_mem change member)),
        List.flatMap_cons, zip_append_drop, List.foldl_append]

/-- The pieces in order, after what one write has put before them. -/
theorem foldl_writeUnits (pieces : List String) (current before : List UInt16) (logged place : Nat) :
    ((loggedFrom logged pieces).zip (unitsFrom (place + before.length + 1) pieces)).foldl writeUnits
      (writeAt 0x20 current place before) =
      writeAt 0x20 current place (before ++ encodeUtf16 (pieces.flatMap String.toList)) := by
  induction pieces generalizing before logged with
  | nil => exact congrArg (writeAt 0x20 current place) (List.append_nil before).symm
  | cons piece rest ih =>
      have written : writeUnits (writeAt 0x20 current place before)
          (⟨logged, .text piece⟩, place + before.length + 1) =
            writeAt 0x20 current place (before ++ encodeUtf16 piece.toList) :=
        writeAt_append current before (encodeUtf16 piece.toList) place
      have next : place + before.length + 1 + (encodeUtf16 piece.toList).length =
          place + (before ++ encodeUtf16 piece.toList).length + 1 := by
        rw [List.length_append]
        omega
      rw [loggedFrom, unitsFrom, List.zip_cons_cons, List.foldl_cons, written, next, ih,
        List.flatMap_cons, encodeUtf16_append, List.append_assoc]

theorem le_of_mem_unitsFrom {unit place : Nat} (member : place ∈ unitsFrom unit pieces) :
    unit ≤ place := by
  induction pieces generalizing unit with
  | nil => cases member
  | cons piece rest ih =>
      rcases List.mem_cons.mp member with rfl | later
      · exact le_rfl
      · exact Nat.le_trans (Nat.le_add_right _ _) (ih later)

/-- Each piece ends where the later ones have not begun. -/
theorem pairwise_zip (logged unit : Nat) (pieces : List String) :
    ((loggedFrom logged pieces).zip (unitsFrom unit pieces)).Pairwise
      (fun first second => first.2 + (unitsOf first.1.data).length ≤ second.2) := by
  induction pieces generalizing logged unit with
  | nil => exact List.Pairwise.nil
  | cons piece rest ih =>
      rw [loggedFrom, unitsFrom, List.zip_cons_cons]
      exact List.pairwise_cons.mpr ⟨fun entry member => le_of_mem_unitsFrom (List.of_mem_zip member).2,
        ih _ _⟩

/-- The order of the pieces does not matter. -/
theorem foldl_writeUnits_perm {start : Nat} (positive : 1 ≤ start) {entries : List (LobPiece × Nat)}
    (perm : entries.Perm ((loggedFrom start pieces).zip (unitsFrom start pieces))) (units : List UInt16) :
    entries.foldl writeUnits units = ((loggedFrom start pieces).zip (unitsFrom start pieces)).foldl writeUnits units
      := by
  have separate : ((loggedFrom start pieces).zip (unitsFrom start pieces)).Pairwise (fun first second =>
      forall units, writeUnits (writeUnits units first) second = writeUnits (writeUnits units second) first) := by
    refine (pairwise_zip start start pieces).imp_of_mem ?_
    intro first second inside _ before units
    have begun := le_of_mem_unitsFrom (List.of_mem_zip inside).2
    exact writeAt_comm (by omega) units
  have commute := List.Pairwise.forall_of_forall_of_flip (fun entry _ units => rfl) separate
    (separate.imp (fun swap units => (swap units).symm))
  exact (perm.symm.foldl_eq' (fun first inside second within => commute inside within) units).symm

/-! ## Whole rewrites -/

theorem coversFrom_zip (logged unit : Nat) (pieces : List String) :
    coversFrom unit ((unitsFrom unit pieces).zip (loggedFrom logged pieces)) = true := by
  induction pieces generalizing logged unit with
  | nil => rfl
  | cons piece rest ih =>
      have reached : max unit (unit + dataLength (.text piece)) = unit + (encodeUtf16 piece.toList).length :=
        max_eq_right (Nat.le_add_right _ _)
      rw [loggedFrom, unitsFrom, List.zip_cons_cons, coversFrom, if_neg (lt_irrefl unit), reached]
      exact ih _ _

theorem zip_swap_perm {writes : List LobPiece} {start : Nat}
    (perm : (writes.zip (unitOffsets writes)).Perm ((loggedFrom start pieces).zip (unitsFrom start pieces))) :
    ((unitOffsets writes).zip writes).Perm ((unitsFrom start pieces).zip (loggedFrom start pieces)) := by
  have swapped := perm.map Prod.swap
  rw [List.zip_swap, List.zip_swap] at swapped
  exact swapped

theorem pairwise_units (nonempty : forall piece, piece ∈ pieces -> piece ≠ "")
    (logged unit : Nat) : ((unitsFrom unit pieces).zip (loggedFrom logged pieces)).Pairwise
      (fun first second => first.1 < second.1) := by
  induction pieces generalizing logged unit with
  | nil => exact List.Pairwise.nil
  | cons piece rest ih =>
      have positive := toList_length_pos (nonempty piece List.mem_cons_self)
      have longer := length_le_encodeUtf16 piece.toList
      rw [loggedFrom, unitsFrom, List.zip_cons_cons]
      refine List.pairwise_cons.mpr ⟨?_, ih (fun other member =>
        nonempty other (List.mem_cons_of_mem piece member)) _ _⟩
      intro entry member
      have later := le_of_mem_unitsFrom (List.of_mem_zip member).1
      change unit < entry.1
      omega

theorem any_trim_eq_false {changes : List LobChange}
    (untrimmed : forall change, change ∈ changes -> change.trim = none) :
    changes.any (fun change => change.trim.isSome) = false := by
  rw [List.any_eq_false]
  intro change member
  rw [untrimmed change member]
  exact Bool.false_ne_true

/-- Pieces rewrite the whole value exactly when they start with it. -/
theorem isFullRewriteAll_pieces {start : Nat} (positive : 1 ≤ start) (written : pieces ≠ [])
    (nonempty : forall piece, piece ∈ pieces -> piece ≠ "") {changes : List LobChange}
    (untrimmed : forall change, change ∈ changes -> change.trim = none)
    (logged : (changes.flatMap LobChange.writes).Perm (loggedFrom start pieces)) :
    isFullRewriteAll changes = true <-> start = 1 := by
  have perm := zip_swap_perm (zip_unitOffsets_perm nonempty logged)
  have sorted := pairwise_mergeSort_key (fun entry : Nat × LobPiece => entry.1)
    ((unitOffsets (changes.flatMap LobChange.writes)).zip (changes.flatMap LobChange.writes))
  have ordered := eq_of_sorted_perm sorted (pairwise_units nonempty start start)
    ((List.mergeSort_perm _ _).trans perm)
  have some : ¬(changes.flatMap LobChange.writes).isEmpty = true := by
    rw [List.isEmpty_iff]
    intro empty
    rw [empty] at logged
    have count := logged.length_eq
    rw [length_loggedFrom, List.length_nil] at count
    exact written (List.length_eq_zero_iff.mp count.symm)
  unfold isFullRewriteAll
  dsimp only
  rw [any_trim_eq_false untrimmed, if_neg Bool.false_ne_true, if_neg some, ordered]
  constructor
  · intro covers
    cases pieces with
    | nil => exact absurd rfl written
    | cons piece rest =>
        rw [loggedFrom, unitsFrom, List.zip_cons_cons, coversFrom] at covers
        by_cases later : start > 1
        · rw [if_pos later] at covers
          cases covers
        · omega
  · rintro rfl
    exact coversFrom_zip 1 1 pieces

/-! ## The value -/

theorem isBytes_eq_false {start : Nat} {write : LobPiece}
    (member : write ∈ loggedFrom start pieces) : isBytes write.data = false := by
  induction pieces generalizing start with
  | nil => cases member
  | cons piece rest ih =>
      rcases List.mem_cons.mp member with rfl | later
      · rfl
      · exact ih later

/-- The units of a value with data put at a place, and spaces before it where
the value ends earlier. -/
def overwritten (units : List UInt16) (place : Nat) (data : List UInt16) : List UInt16 :=
  (units ++ List.replicate (place - units.length) 0x20).take place ++ data ++ units.drop (place + data.length)

theorem foldl_pieces {start : Nat} (positive : 1 ≤ start) (written : pieces ≠ []) (units : List UInt16) :
    ((loggedFrom start pieces).zip (unitsFrom start pieces)).foldl writeUnits units =
      overwritten units (start - 1) (encodeUtf16 (pieces.flatMap String.toList)) := by
  cases pieces with
  | nil => exact absurd rfl written
  | cons piece rest =>
      have next : start + (encodeUtf16 piece.toList).length =
          start - 1 + (encodeUtf16 piece.toList).length + 1 := by
        omega
      rw [loggedFrom, unitsFrom, List.zip_cons_cons, List.foldl_cons, next]
      refine (foldl_writeUnits rest units (encodeUtf16 piece.toList) _ (start - 1)).trans ?_
      rw [writeAt_eq, ← encodeUtf16_append, ← List.flatMap_cons]
      rfl

theorem applyLobAll_pieces {current : Resolved} (text : isBytes current = false) {start : Nat} (positive : 1 ≤ start)
    (written : pieces ≠ []) (nonempty : forall piece, piece ∈ pieces -> piece ≠ "")
    {changes : List LobChange} (untrimmed : forall change, change ∈ changes -> change.trim = none)
    (logged : (changes.flatMap LobChange.writes).Perm (loggedFrom start pieces)) :
    applyLobAll current changes = .text (String.ofList (fromUtf16Lossy
      (overwritten (unitsOf current) (start - 1) (encodeUtf16 (pieces.flatMap String.toList))))) := by
  have texts : (changes.flatMap LobChange.writes).any (fun write => isBytes write.data) = false := by
    rw [List.any_eq_false]
    intro write member
    rw [isBytes_eq_false (logged.mem_iff.mp member)]
    exact Bool.false_ne_true
  have units := foldl_writeUnits_perm positive (zip_unitOffsets_perm nonempty logged) (unitsOf current)
  unfold applyLobAll
  dsimp only
  rw [text, texts, Bool.or_self, if_neg Bool.false_ne_true, foldl_applyUnits untrimmed, units,
    foldl_pieces positive written]

/-- The pieces of a text, shuffled over the changes of a transaction, put the
text at its place in units; a surrogate that loses its pair to them becomes
U+FFFD.  They rewrite the whole value exactly when they start with it. -/
theorem lobPieces_reassemble (current : Resolved) (text : isBytes current = false) (start : Nat) (positive : 1 ≤ start)
    (pieces : List String) (written : pieces ≠ []) (nonempty : forall piece, piece ∈ pieces -> piece ≠ "")
    (changes : List LobChange) (untrimmed : forall change, change ∈ changes -> change.trim = none)
    (logged : (changes.flatMap LobChange.writes).Perm (loggedFrom start pieces)) :
    applyLobAll current changes = .text (String.ofList (fromUtf16Lossy
        (overwritten (unitsOf current) (start - 1) (encodeUtf16 (pieces.flatMap String.toList))))) ∧
      (forall value : String, encodeUtf16 value.toList =
          overwritten (unitsOf current) (start - 1) (encodeUtf16 (pieces.flatMap String.toList)) ->
        applyLobAll current changes = .text value) ∧
      (isFullRewriteAll changes = true <-> start = 1) := by
  have applied := applyLobAll_pieces text positive written nonempty untrimmed logged
  refine ⟨applied, ?_, isFullRewriteAll_pieces positive written nonempty untrimmed logged⟩
  intro value whole
  rw [applied, ← whole, fromUtf16Lossy_encodeUtf16, String.ofList_toList]

/-- A change to some column with these writes. -/
def sampleChange (writes : List LobPiece) : LobChange := ⟨"A", "T", "C", [], writes, none⟩

/-- Three pieces of which the first has a character of two units, in two rows
and out of order. -/
theorem lobPieces_reassemble_sample :
    isFullRewriteAll [sampleChange [⟨5, .text (String.ofList ['c'])⟩, ⟨2, .text (String.ofList ['a', '😀'])⟩],
        sampleChange [⟨4, .text (String.ofList ['b'])⟩]] = false ∧
      applyLobAll .null [sampleChange [⟨5, .text (String.ofList ['c'])⟩, ⟨2, .text (String.ofList ['a', '😀'])⟩],
        sampleChange [⟨4, .text (String.ofList ['b'])⟩]] = .text (String.ofList [' ', 'a', '😀', 'b', 'c']) := by
  have reassembled := lobPieces_reassemble .null rfl 2 (by decide)
    [String.ofList ['a', '😀'], String.ofList ['b'], String.ofList ['c']] (by decide) (by decide)
    [sampleChange [⟨5, .text (String.ofList ['c'])⟩, ⟨2, .text (String.ofList ['a', '😀'])⟩],
      sampleChange [⟨4, .text (String.ofList ['b'])⟩]] (by decide) (by decide)
  rcases reassembled with ⟨_, value, whole⟩
  constructor
  · rw [Bool.eq_false_iff, Ne, whole]
    decide
  · apply value
    simp only [List.flatMap_cons, List.flatMap_nil, String.toList_ofList]
    decide

/-- An empty text leaves no piece, and no piece rewrites anything; a write that
begins inside a pair of surrogates changes the unit before it. -/
theorem lobPieces_edges :
    (loggedFrom 1 [] = [] ∧ ([] : List String).flatMap String.toList = [] ∧ isFullRewriteAll [] = false) ∧
      (sampleChange (loggedFrom 2 [String.ofList ['a']])).trim = none ∧
      unitsOf (applyLobAll (.text (String.ofList ['😀'])) [sampleChange (loggedFrom 2 [String.ofList ['a']])]) ≠
        overwritten (unitsOf (.text (String.ofList ['😀']))) (2 - 1) (encodeUtf16 (String.ofList ['a']).toList) := by
  refine ⟨⟨rfl, rfl, rfl⟩, rfl, ?_⟩
  have nonempty : forall piece, piece ∈ [String.ofList ['a']] -> piece ≠ "" := by decide
  have applied : applyLobAll (.text (String.ofList ['😀'])) [sampleChange (loggedFrom 2 [String.ofList ['a']])] = _ :=
    applyLobAll_pieces rfl (Nat.le_succ 1) (List.cons_ne_nil _ _) nonempty (by decide) (List.Perm.refl _)
  rw [applied]
  simp only [unitsOf, List.flatMap_cons, List.flatMap_nil, String.toList_ofList]
  decide

end OracleCdc
end FaucetStream
