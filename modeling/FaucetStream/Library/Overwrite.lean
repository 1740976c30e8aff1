import Mathlib.Data.List.Basic

namespace FaucetStream
namespace Library

/-!
# Overwriting parts of a list

Data is written into a list at a place, and the list grows with a filler when it
ends before the data does.  Writes to places apart from each other commute, and
a write that continues another extends it.
-/

universe u

variable {A : Type u} {fill : A}

/-- Overwrites from a place on, after filling up to the end of the data. -/
def writeAt (fill : A) (current : List A) (place : Nat) (data : List A) : List A :=
  let grown := current ++ List.replicate (place + data.length - current.length) fill
  grown.take place ++ data ++ grown.drop (place + data.length)

theorem getElem?_grown (current : List A) (count index : Nat) :
    (current ++ List.replicate (count - current.length) fill)[index]? =
      if index < count then some (current[index]?.getD fill) else current[index]? := by
  by_cases inside : index < current.length
  · have found : current[index]? = some current[index] := List.getElem?_eq_getElem inside
    rw [List.getElem?_append_left inside, found]
    split
    · rfl
    · rfl
  · have missing : current[index]? = none := List.getElem?_eq_none (Nat.not_lt.mp inside)
    rw [List.getElem?_append_right (Nat.not_lt.mp inside), List.getElem?_replicate, missing]
    by_cases below : index < count
    · rw [if_pos below, if_pos (by omega)]
      rfl
    · rw [if_neg below, if_neg (by omega)]

/-- What stands at each index after a write. -/
theorem getElem?_writeAt (current : List A) (place : Nat) (data : List A) (index : Nat) :
    (writeAt fill current place data)[index]? =
      if index < place then some (current[index]?.getD fill)
      else if index < place + data.length then data[index - place]?
      else current[index]? := by
  have length : (current ++ List.replicate (place + data.length - current.length) fill).length =
      max current.length (place + data.length) := by
    rw [List.length_append, List.length_replicate]
    omega
  have front : ((current ++ List.replicate (place + data.length - current.length) fill).take place).length = place := by
    rw [List.length_take, length]
    omega
  unfold writeAt
  dsimp only
  rw [List.append_assoc]
  by_cases before : index < place
  · rw [if_pos before, List.getElem?_append_left (by rw [front]; exact before), List.getElem?_take_of_lt before,
      getElem?_grown, if_pos (by omega)]
  · rw [if_neg before, List.getElem?_append_right (by rw [front]; exact Nat.not_lt.mp before), front]
    by_cases inside : index < place + data.length
    · rw [if_pos inside, List.getElem?_append_left (by omega)]
    · rw [if_neg inside, List.getElem?_append_right (by omega), List.getElem?_drop, getElem?_grown, if_neg (by omega)]
      congr 1
      omega

/-- The list up to the place, filled up to it, then the data, then what stood
behind it. -/
theorem writeAt_eq (current : List A) (place : Nat) (data : List A) :
    writeAt fill current place data =
      (current ++ List.replicate (place - current.length) fill).take place ++ data ++
        current.drop (place + data.length) := by
  apply List.ext_getElem?
  intro index
  have front : ((current ++ List.replicate (place - current.length) fill).take place).length = place := by
    rw [List.length_take, List.length_append, List.length_replicate]
    omega
  rw [getElem?_writeAt, List.append_assoc]
  by_cases before : index < place
  · rw [if_pos before, List.getElem?_append_left (by rw [front]; exact before), List.getElem?_take_of_lt before,
      getElem?_grown, if_pos before]
  · rw [if_neg before, List.getElem?_append_right (by rw [front]; exact Nat.not_lt.mp before), front]
    by_cases inside : index < place + data.length
    · rw [if_pos inside, List.getElem?_append_left (by omega)]
    · rw [if_neg inside, List.getElem?_append_right (by omega), List.getElem?_drop]
      congr 1
      omega

theorem writeAt_comm {left right : List A} {first second : Nat} (apart : first + left.length ≤ second)
    (current : List A) :
    writeAt fill (writeAt fill current first left) second right =
      writeAt fill (writeAt fill current second right) first left := by
  apply List.ext_getElem?
  intro index
  rw [getElem?_writeAt, getElem?_writeAt, getElem?_writeAt, getElem?_writeAt]
  by_cases before : index < first
  · rw [if_pos (show index < second by omega), if_pos before, if_pos before, if_pos (show index < second by omega)]
  · rw [if_neg before, if_neg before]
    by_cases inside : index < first + left.length
    · have found : left[index - first]? = some (left.get ⟨index - first, by omega⟩) := List.getElem?_eq_getElem _
      rw [if_pos inside, if_pos inside, if_pos (show index < second by omega), found]
      rfl
    · rw [if_neg inside, if_neg inside]

/-- A write that continues where the one before ended. -/
theorem writeAt_append (current left right : List A) (place : Nat) :
    writeAt fill (writeAt fill current place left) (place + left.length) right =
      writeAt fill current place (left ++ right) := by
  apply List.ext_getElem?
  intro index
  rw [getElem?_writeAt, getElem?_writeAt, getElem?_writeAt, List.length_append, Nat.add_assoc]
  by_cases before : index < place
  · rw [if_pos (show index < place + left.length by omega), if_pos before, if_pos before]
    rfl
  · rw [if_neg before, if_neg before]
    by_cases inside : index < place + left.length
    · have found : left[index - place]? = some (left.get ⟨index - place, by omega⟩) := List.getElem?_eq_getElem _
      rw [if_pos inside, if_pos inside, if_pos (show index < place + (left.length + right.length) by omega),
        List.getElem?_append_left (by omega), found]
      rfl
    · rw [if_neg inside, if_neg inside]
      by_cases within : index < place + (left.length + right.length)
      · rw [if_pos within, if_pos within, List.getElem?_append_right (by omega)]
        congr 1
        omega
      · rw [if_neg within, if_neg within]

/-! ## Single places -/

/-- Sets a list of places, one after the other. -/
def setAll (items : List A) (entries : List (Nat × A)) : List A :=
  entries.foldl (fun items entry => items.set entry.1 entry.2) items

theorem length_setAll (items : List A) (entries : List (Nat × A)) : (setAll items entries).length = items.length := by
  induction entries generalizing items with
  | nil => rfl
  | cons entry rest ih =>
      rw [setAll, List.foldl_cons]
      exact (ih _).trans List.length_set

theorem getElem?_setAll_of_not_mem {entries : List (Nat × A)} {index : Nat} (absent : index ∉ entries.map Prod.fst)
    (items : List A) : (setAll items entries)[index]? = items[index]? := by
  induction entries generalizing items with
  | nil => rfl
  | cons entry rest ih =>
      rw [List.map_cons, List.mem_cons, not_or] at absent
      rw [setAll, List.foldl_cons]
      exact (ih absent.2 _).trans (List.getElem?_set_ne (Ne.symm absent.1))

/-- Each place set once holds what was put there. -/
theorem getElem?_setAll {entries : List (Nat × A)} (distinct : (entries.map Prod.fst).Nodup) {entry : Nat × A}
    (member : entry ∈ entries) {items : List A} (inside : entry.1 < items.length) :
    (setAll items entries)[entry.1]? = some entry.2 := by
  induction entries generalizing items with
  | nil => cases member
  | cons other rest ih =>
      rw [List.map_cons, List.nodup_cons] at distinct
      rw [setAll, List.foldl_cons]
      rcases List.mem_cons.mp member with rfl | later
      · exact (getElem?_setAll_of_not_mem distinct.1 _).trans (List.getElem?_set_self inside)
      · exact ih distinct.2 later (by rw [List.length_set]; exact inside)

end Library
end FaucetStream
