import Mathlib.Data.List.Induction
import Mathlib.Data.List.Nodup
import Mathlib.Data.List.Perm.Basic
import Mathlib.Logic.Function.Basic
import Mathlib.Logic.Nontrivial.Defs

namespace FaucetStream
namespace Library

/-!
# Last write wins, in the slot of the first

A planner that keeps one entry per key holds an ordered list of values and
an index from each key to its slot.  A key seen again overwrites its slot,
a new key takes the next one.  Stripped of the index, the structure is an
association list in which a key keeps the place of its first write and the
value of its last.  Writing such a list to a table gives what the original
writes give one after the other.
-/

universe u v

variable {K : Type u} {A : Type v} [DecidableEq K]

/-- The value of the last pair under a key. -/
def lastWrite (pairs : List (K × A)) (key : K) : Option A := pairs.reverse.lookup key

theorem lastWrite_append (first second : List (K × A)) (key : K) :
    lastWrite (first ++ second) key = (lastWrite second key).or (lastWrite first key) := by
  unfold lastWrite
  rw [List.reverse_append, List.lookup_append]

theorem lastWrite_eq_some_iff (pairs : List (K × A)) (key : K) (value : A) :
    lastWrite pairs key = some value ↔
      exists earlier later, pairs = earlier ++ (key, value) :: later ∧
        forall pair, pair ∈ later -> pair.1 ≠ key := by
  unfold lastWrite
  rw [List.lookup_eq_some_iff]
  constructor
  · rintro ⟨later, earlier, split, absent⟩
    refine ⟨earlier.reverse, later.reverse, ?_, ?_⟩
    · rw [← List.reverse_reverse pairs, split, List.reverse_append, List.reverse_cons,
        List.append_assoc, List.singleton_append]
    · intro pair after same
      exact bne_iff_ne.mp (absent pair (List.mem_reverse.mp after)) same.symm
  · rintro ⟨earlier, later, split, absent⟩
    refine ⟨later.reverse, earlier.reverse, ?_, ?_⟩
    · rw [split, List.reverse_append, List.reverse_cons, List.append_assoc, List.singleton_append]
    · intro pair after
      exact bne_iff_ne.mpr (Ne.symm (absent pair (List.mem_reverse.mp after)))

theorem lastWrite_eq_none_iff (pairs : List (K × A)) (key : K) :
    lastWrite pairs key = none ↔ key ∉ pairs.map Prod.fst := by
  unfold lastWrite
  rw [List.lookup_eq_none_iff]
  constructor
  · intro absent member
    rcases List.mem_map.mp member with ⟨pair, listed, same⟩
    exact bne_iff_ne.mp (absent pair (List.mem_reverse.mpr listed)) same.symm
  · intro absent pair listed
    refine bne_iff_ne.mpr (fun same => absent ?_)
    exact List.mem_map.mpr ⟨pair, List.mem_reverse.mp listed, same.symm⟩

/-! ## Association lists with replacement in place -/

/-- Set the entry of a key: in place when the key has one, at the end
otherwise. -/
def assign : List (K × A) -> K -> A -> List (K × A)
  | [], key, value => [(key, value)]
  | (other, old) :: rest, key, value =>
      if other = key then (key, value) :: rest else (other, old) :: assign rest key value

def assignAll (entries pairs : List (K × A)) : List (K × A) :=
  pairs.foldl (fun entries pair => assign entries pair.1 pair.2) entries

theorem assignAll_append (entries first second : List (K × A)) :
    assignAll entries (first ++ second) = assignAll (assignAll entries first) second :=
  List.foldl_append

theorem lookup_assign (entries : List (K × A)) (key other : K) (value : A) :
    (assign entries key value).lookup other =
      if other = key then some value else entries.lookup other := by
  induction entries with
  | nil =>
      by_cases same : other = key
      · simp only [assign, List.lookup_cons, same, beq_self_eq_true, if_true]
      · simp only [assign, List.lookup_cons, beq_eq_false_iff_ne.mpr same, same, if_false]
  | cons entry rest ih =>
      rcases entry with ⟨name, old⟩
      by_cases found : name = key
      · subst found
        by_cases same : other = name
        · simp only [assign, if_true, List.lookup_cons, same, beq_self_eq_true]
        · simp only [assign, if_true, List.lookup_cons, beq_eq_false_iff_ne.mpr same, same, if_false]
      · simp only [assign, found, if_false, List.lookup_cons, ih]
        cases test : other == name with
        | true =>
            have different : other ≠ key := fun same => found ((beq_iff_eq.mp test).symm.trans same)
            simp only [different, if_false]
        | false => rfl

theorem map_fst_assign (entries : List (K × A)) (key : K) (value : A) :
    (assign entries key value).map Prod.fst =
      if key ∈ entries.map Prod.fst then entries.map Prod.fst
      else entries.map Prod.fst ++ [key] := by
  induction entries with
  | nil => rfl
  | cons entry rest ih =>
      rcases entry with ⟨name, old⟩
      by_cases found : name = key
      · subst found
        simp only [assign, if_true, List.map_cons, List.mem_cons, true_or]
      · have absent : ¬ key = name := fun same => found same.symm
        simp only [assign, found, if_false, List.map_cons, List.mem_cons, absent, false_or,
          ih]
        split <;> rfl

/-- Replacement is blind to the values. -/
theorem map_assignAll {B : Type v} (convert : A -> B) (entries pairs : List (K × A)) :
    (assignAll entries pairs).map (fun entry => (entry.1, convert entry.2)) =
      assignAll (entries.map (fun entry => (entry.1, convert entry.2)))
        (pairs.map (fun pair => (pair.1, convert pair.2))) := by
  induction pairs generalizing entries with
  | nil => rfl
  | cons pair rest ih =>
      change (assignAll (assign entries pair.1 pair.2) rest).map _ = assignAll (assign _ _ _) _
      rw [ih]
      congr 1
      clear ih
      induction entries with
      | nil => rfl
      | cons entry others ih =>
          by_cases found : entry.1 = pair.1
          · simp only [assign, found, if_true, List.map_cons]
          · simp only [assign, found, if_false, List.map_cons, ih]

variable {entries : List (K × A)}

theorem mem_assign {key : K} {value : A} {entry : K × A}
    (member : entry ∈ assign entries key value) : entry = (key, value) ∨ entry ∈ entries := by
  induction entries with
  | nil => exact .inl (List.mem_singleton.mp member)
  | cons first rest ih =>
      rw [assign] at member
      split at member
      · rcases List.mem_cons.mp member with same | later
        · exact .inl same
        · exact .inr (List.mem_cons_of_mem first later)
      · rcases List.mem_cons.mp member with same | later
        · exact .inr (same ▸ List.mem_cons_self)
        · exact (ih later).imp_right (List.mem_cons_of_mem first)

/-- Drop the entry of a key. -/
def unassign (entries : List (K × A)) (key : K) : List (K × A) :=
  entries.filter (fun entry => decide (entry.1 ≠ key))

theorem lookup_unassign (entries : List (K × A)) (key other : K) :
    (unassign entries key).lookup other = if other = key then none else entries.lookup other := by
  induction entries with
  | nil =>
      split <;> rfl
  | cons entry rest ih =>
      rcases entry with ⟨name, old⟩
      by_cases found : name = key
      · subst found
        rw [unassign, List.filter_cons_of_neg (by simp)]
        rw [unassign] at ih
        rw [ih]
        by_cases same : other = name
        · simp only [same, if_true]
        · simp only [same, if_false, List.lookup_cons, beq_eq_false_iff_ne.mpr same]
      · rw [unassign, List.filter_cons_of_pos (by simpa using found)]
        rw [unassign] at ih
        simp only [List.lookup_cons, ih]
        cases test : other == name with
        | true =>
            have different : other ≠ key := fun same => found ((beq_iff_eq.mp test).symm.trans same)
            simp only [different, if_false]
        | false => rfl

theorem nodup_map_fst_assign (nodup : (entries.map Prod.fst).Nodup)
    (key : K) (value : A) : ((assign entries key value).map Prod.fst).Nodup := by
  rw [map_fst_assign]
  split
  · exact nodup
  · next absent =>
    refine List.nodup_append.mpr ⟨nodup, List.nodup_singleton key, ?_⟩
    intro name member other single same
    exact absent (List.mem_singleton.mp single ▸ same ▸ member)

theorem nodup_map_fst_assignAll (nodup : (entries.map Prod.fst).Nodup)
    (pairs : List (K × A)) : ((assignAll entries pairs).map Prod.fst).Nodup := by
  induction pairs generalizing entries with
  | nil => exact nodup
  | cons pair rest ih =>
      exact ih (nodup_map_fst_assign nodup pair.1 pair.2)

theorem nodup_map_fst_assignAll_nil (pairs : List (K × A)) :
    ((assignAll [] pairs).map Prod.fst).Nodup := by
  apply nodup_map_fst_assignAll
  exact List.nodup_nil

/-- A key ends with the value of its last pair. -/
theorem lookup_assignAll (entries pairs : List (K × A)) (key : K) :
    (assignAll entries pairs).lookup key = (lastWrite pairs key).or (entries.lookup key) := by
  induction pairs generalizing entries with
  | nil => rfl
  | cons pair rest ih =>
      rcases pair with ⟨name, value⟩
      change (assignAll (assign entries name value) rest).lookup key =
        (lastWrite ([(name, value)] ++ rest) key).or _
      rw [ih, lookup_assign, lastWrite_append, Option.or_assoc]
      congr 1
      by_cases same : key = name
      · simp only [same, if_true, lastWrite, List.reverse_singleton, List.lookup_cons,
          beq_self_eq_true, Option.some_or]
      · simp only [same, if_false, lastWrite, List.reverse_singleton, List.lookup_cons,
          beq_eq_false_iff_ne.mpr same, List.lookup_nil, Option.none_or]

theorem lookup_eq_some_of_mem (nodup : (entries.map Prod.fst).Nodup)
    {key : K} {value : A} (member : (key, value) ∈ entries) : entries.lookup key = some value := by
  rcases List.append_of_mem member with ⟨earlier, later, split⟩
  refine List.lookup_eq_some_iff.mpr ⟨earlier, later, split, ?_⟩
  intro pair before
  rw [split, List.map_append, List.nodup_append] at nodup
  refine bne_iff_ne.mpr ?_
  intro same
  exact nodup.2.2 pair.1 (List.mem_map_of_mem before) key List.mem_cons_self same.symm

theorem mem_of_lookup_eq_some {key : K} {value : A}
    (found : entries.lookup key = some value) : (key, value) ∈ entries := by
  rcases List.lookup_eq_some_iff.mp found with ⟨earlier, later, split, _⟩
  rw [split]
  exact List.mem_append_right _ List.mem_cons_self

/-- Changing every value where it stands. -/
theorem lookup_map_entries (entries : List (K × A)) (change : K -> A -> A) (key : K) :
    (entries.map (fun entry => (entry.1, change entry.1 entry.2))).lookup key =
      (entries.lookup key).map (change key) := by
  induction entries with
  | nil => rfl
  | cons entry rest ih =>
      rcases entry with ⟨other, value⟩
      rw [List.map_cons, List.lookup_cons, List.lookup_cons]
      cases same : key == other with
      | true =>
          rw [eq_of_beq same]
          rfl
      | false => exact ih

/-- With distinct keys the last pair under a key is the first. -/
theorem lastWrite_eq_lookup {pairs : List (K × A)} (nodup : (pairs.map Prod.fst).Nodup) (key : K) :
    lastWrite pairs key = pairs.lookup key := by
  cases found : pairs.lookup key with
  | none =>
      rw [lastWrite_eq_none_iff]
      intro member
      rcases List.mem_map.mp member with ⟨pair, inside, rfl⟩
      rw [lookup_eq_some_of_mem nodup inside] at found
      cases found
  | some value =>
      have reversed : ((pairs.reverse).map Prod.fst).Nodup := by
        rw [List.map_reverse, List.nodup_reverse]
        exact nodup
      exact lookup_eq_some_of_mem reversed (List.mem_reverse.mpr (mem_of_lookup_eq_some found))

/-- The entries are the last pairs of their keys. -/
theorem mem_assignAll_nil_iff (pairs : List (K × A)) (key : K) (value : A) :
    (key, value) ∈ assignAll [] pairs ↔ lastWrite pairs key = some value := by
  have last : (assignAll [] pairs).lookup key = lastWrite pairs key := by
    rw [lookup_assignAll, List.lookup_nil, Option.or_none]
  rw [← last]
  constructor
  · exact lookup_eq_some_of_mem (nodup_map_fst_assignAll_nil pairs)
  · intro found
    rcases List.lookup_eq_some_iff.mp found with ⟨front, back, whole, _⟩
    rw [whole]
    exact List.mem_append_right front List.mem_cons_self

/-- The keys stand in the order of their first pairs. -/
theorem map_fst_assignAll_nil (pairs : List (K × A)) :
    (assignAll [] pairs).map Prod.fst = (pairs.map Prod.fst).eraseDups := by
  induction pairs using List.reverseRecOn with
  | nil => rfl
  | append_singleton earlier pair ih =>
      rw [assignAll_append]
      change (assign (assignAll [] earlier) pair.1 pair.2).map Prod.fst = _
      rw [map_fst_assign, ih, List.map_append, List.eraseDups_append]
      by_cases seen : pair.1 ∈ earlier.map Prod.fst
      · simp [seen, List.removeAll]
      · simp [seen, List.removeAll, List.eraseDups_cons]

/-! ## The indexed form -/

/-- An ordered list of values with an index from keys to positions. -/
structure Slots (K : Type u) (A : Type v) where
  index : List (K × Nat)
  order : List A

namespace Slots

def empty : Slots K A := ⟨[], []⟩

/-- Overwrite the slot of a known key; give a new key the next slot. -/
def put (slots : Slots K A) (key : K) (value : A) : Slots K A :=
  match slots.index.lookup key with
  | some slot => { slots with order := slots.order.set slot value }
  | none => { index := (key, slots.order.length) :: slots.index, order := slots.order ++ [value] }

/-- The association list an indexed form stands for. -/
structure Represents (slots : Slots K A) (entries : List (K × A)) : Prop where
  order : slots.order = entries.map Prod.snd
  index : forall key, slots.index.lookup key = (entries.map Prod.fst).idxOf? key

theorem represents_empty : Represents (empty : Slots K A) [] := ⟨rfl, fun _ => rfl⟩

private theorem assign_of_idxOf_none {key : K} (value : A) (absent : (entries.map Prod.fst).idxOf? key = none) :
    assign entries key value = entries ++ [(key, value)] := by
  induction entries with
  | nil => rfl
  | cons entry rest ih =>
      rcases entry with ⟨name, old⟩
      simp only [List.map_cons, List.idxOf?_cons] at absent
      by_cases found : name = key
      · simp only [beq_iff_eq.mpr found, if_true] at absent
        cases absent
      · simp only [beq_eq_false_iff_ne.mpr found, Bool.false_eq_true, if_false,
          Option.map_eq_none_iff] at absent
        simp only [assign, found, if_false, ih absent, List.cons_append]

private theorem assign_of_idxOf_some {key : K} (value : A) {slot : Nat}
    (found : (entries.map Prod.fst).idxOf? key = some slot) :
    (assign entries key value).map Prod.snd = (entries.map Prod.snd).set slot value ∧
      (assign entries key value).map Prod.fst = entries.map Prod.fst := by
  induction entries generalizing slot with
  | nil => cases found
  | cons entry rest ih =>
      rcases entry with ⟨name, old⟩
      simp only [List.map_cons, List.idxOf?_cons] at found
      by_cases same : name = key
      · simp only [beq_iff_eq.mpr same, if_true, Option.some.injEq] at found
        subst found
        simp only [assign, same, if_true, List.map_cons, List.set_cons_zero, and_self]
      · simp only [beq_eq_false_iff_ne.mpr same, Bool.false_eq_true, if_false,
          Option.map_eq_some_iff] at found
        rcases found with ⟨inner, position, rfl⟩
        have tail := ih position
        simp only [assign, same, if_false, List.map_cons, List.set_cons_succ, tail.1, tail.2, and_self]

private theorem idxOf_append_singleton (keys : List K) (key other : K)
    (absent : keys.idxOf? key = none) :
    (keys ++ [key]).idxOf? other = if other = key then some keys.length else keys.idxOf? other := by
  induction keys with
  | nil =>
      by_cases same : other = key
      · simp only [List.nil_append, List.idxOf?_cons, same, beq_self_eq_true, if_true,
          List.length_nil]
      · have different : (key == other) = false := beq_eq_false_iff_ne.mpr (Ne.symm same)
        simp only [List.nil_append, List.idxOf?_cons, different, same, if_false,
          Bool.false_eq_true, List.idxOf?_nil, Option.map_none]
  | cons name rest ih =>
      simp only [List.idxOf?_cons] at absent
      by_cases found : name = key
      · simp only [beq_iff_eq.mpr found, if_true] at absent
        cases absent
      · simp only [beq_eq_false_iff_ne.mpr found, Bool.false_eq_true, if_false,
          Option.map_eq_none_iff] at absent
        simp only [List.cons_append, List.idxOf?_cons, ih absent]
        by_cases same : other = key
        · simp only [same, beq_eq_false_iff_ne.mpr found, Bool.false_eq_true, if_false, if_true,
            Option.map_some, List.length_cons]
        · simp only [same, if_false]

theorem represents_put {slots : Slots K A} (represents : Represents slots entries) (key : K) (value : A) :
    Represents (slots.put key value) (assign entries key value) := by
  have position := represents.index key
  unfold put
  cases known : slots.index.lookup key with
  | some slot =>
      rw [known] at position
      have replaced := assign_of_idxOf_some value position.symm
      refine ⟨?_, ?_⟩
      · change slots.order.set slot value = _
        rw [replaced.1, represents.order]
      · intro other
        change slots.index.lookup other = _
        rw [replaced.2, represents.index]
  | none =>
      rw [known] at position
      have appended := assign_of_idxOf_none value position.symm
      refine ⟨?_, ?_⟩
      · change slots.order ++ [value] = _
        rw [appended, represents.order, List.map_append]
        rfl
      · intro other
        change ((key, slots.order.length) :: slots.index).lookup other = _
        rw [appended, List.map_append]
        change _ = (entries.map Prod.fst ++ [key]).idxOf? other
        rw [idxOf_append_singleton _ _ _ position.symm, represents.order, List.length_map,
          List.length_map, ← represents.index other]
        by_cases same : other = key
        · simp only [List.lookup_cons, same, beq_self_eq_true, if_true]
        · simp only [List.lookup_cons, beq_eq_false_iff_ne.mpr same, same, if_false]

/-- A whole run of writes leaves the index and the order of the association
list it assigns. -/
theorem represents_foldl_put {slots : Slots K A} (represents : Represents slots entries) (pairs : List (K × A)) :
    Represents (pairs.foldl (fun slots pair => slots.put pair.1 pair.2) slots)
      (assignAll entries pairs) := by
  induction pairs generalizing slots entries with
  | nil => exact represents
  | cons pair rest ih =>
      exact ih (represents_put represents pair.1 pair.2)

end Slots

/-! ## Writing to a table -/

/-- Write pairs one after the other. -/
def writeAll (table : K -> A) (pairs : List (K × A)) : K -> A :=
  pairs.foldl (fun table pair => Function.update table pair.1 pair.2) table

theorem writeAll_append (table : K -> A) (first second : List (K × A)) :
    writeAll table (first ++ second) = writeAll (writeAll table first) second :=
  List.foldl_append

/-- A key of the table holds its last write. -/
theorem writeAll_apply (table : K -> A) (pairs : List (K × A)) (key : K) :
    writeAll table pairs key = (lastWrite pairs key).getD (table key) := by
  induction pairs using List.reverseRecOn with
  | nil => rfl
  | append_singleton earlier pair ih =>
      rcases pair with ⟨name, value⟩
      rw [writeAll_append, lastWrite, List.reverse_append]
      change Function.update (writeAll table earlier) name value key =
        (((name, value) :: earlier.reverse).lookup key).getD (table key)
      by_cases same : key = name
      · subst same
        simp only [Function.update_self, List.lookup_cons, beq_self_eq_true, Option.getD_some]
      · rw [Function.update_of_ne same, ih, List.lookup_cons,
          beq_eq_false_iff_ne.mpr same, lastWrite]

/-- A place holds something that was written to it, or was never written. -/
theorem writeAll_written_or (table : K -> A) (pairs : List (K × A)) (key : K) :
    (exists pair, pair ∈ pairs ∧ pair.1 = key ∧ writeAll table pairs key = pair.2) ∨
      (key ∉ pairs.map Prod.fst ∧ writeAll table pairs key = table key) := by
  rw [writeAll_apply]
  cases found : lastWrite pairs key with
  | none => exact Or.inr ⟨(lastWrite_eq_none_iff pairs key).mp found, rfl⟩
  | some value =>
      rcases (lastWrite_eq_some_iff pairs key value).mp found with ⟨earlier, later, split, -⟩
      refine Or.inl ⟨(key, value), ?_, rfl, rfl⟩
      rw [split]
      exact List.mem_append_right earlier List.mem_cons_self

/-- Two sequences of writes are the same on every table exactly when they end
every key alike. -/
theorem writeAll_eq_iff [Nontrivial A] (first second : List (K × A)) :
    (forall table : K -> A, writeAll table first = writeAll table second) ↔
      forall key, lastWrite first key = lastWrite second key := by
  constructor
  · intro same key
    have values := fun value : A => congrFun (same (fun _ => value)) key
    simp only [writeAll_apply] at values
    cases left : lastWrite first key with
    | none =>
        cases right : lastWrite second key with
        | none => rfl
        | some value =>
            rcases exists_ne value with ⟨other, different⟩
            have impossible := values other
            simp only [left, right, Option.getD_none, Option.getD_some] at impossible
            exact absurd impossible different
    | some value =>
        have equal := values value
        cases right : lastWrite second key with
        | none =>
            rcases exists_ne value with ⟨other, different⟩
            have impossible := values other
            simp only [left, right, Option.getD_none, Option.getD_some] at impossible
            exact absurd impossible.symm different
        | some other =>
            simp only [left, right, Option.getD_some] at equal
            rw [equal]
  · intro same table
    funext key
    rw [writeAll_apply, writeAll_apply, same]

/-- Writes under pairwise distinct keys may be reordered. -/
theorem writeAll_perm {first second : List (K × A)} (same : first.Perm second)
    (nodup : (first.map Prod.fst).Nodup) (table : K -> A) :
    writeAll table first = writeAll table second := by
  refine List.Perm.foldl_eq' same ?_ table
  intro left leftMember right rightMember current
  by_cases equal : left.1 = right.1
  · have identical : left = right := List.inj_on_of_nodup_map nodup leftMember rightMember equal
    rw [identical]
  · exact Function.update_comm equal _ _ _

/-- One entry per key, with the last value, writes the same table as all the
pairs in turn. -/
theorem writeAll_assignAll (table : K -> A) (pairs : List (K × A)) :
    writeAll table (assignAll [] pairs) = writeAll table pairs := by
  funext key
  have nodup := nodup_map_fst_assignAll_nil pairs
  rw [← writeAll_perm (List.reverse_perm _) (by rw [List.map_reverse]; exact List.nodup_reverse.mpr nodup),
    writeAll_apply, writeAll_apply, lastWrite, List.reverse_reverse, lookup_assignAll, List.lookup_nil,
    Option.or_none]

/-! ## Keys seen through a coarser map

A table may identify keys that the association list keeps apart.  Then the
order of the entries matters, and it is the order of first writes. -/

section Coarser

variable {C : Type u} [DecidableEq C] (location : K -> C)

/-- The pairs as a table addressed through the map receives them. -/
def relocate (pairs : List (K × A)) : List (C × A) :=
  pairs.map (fun pair => (location pair.1, pair.2))

/-- The keys of one class, in order. -/
def classKeys (keys : List K) (cls : C) : List K :=
  keys.filter (fun key => decide (location key = cls))

private def classPairs (pairs : List (K × A)) (cls : C) : List (K × A) :=
  pairs.filter (fun pair => decide (location pair.1 = cls))

omit [DecidableEq K] in
private theorem map_fst_classPairs (pairs : List (K × A)) (cls : C) :
    (classPairs location pairs cls).map Prod.fst = classKeys location (pairs.map Prod.fst) cls := by
  unfold classPairs classKeys
  rw [List.filter_map]
  rfl

omit [DecidableEq K] in
private theorem lastWrite_relocate (pairs : List (K × A)) (cls : C) :
    lastWrite (relocate location pairs) cls = (classPairs location pairs cls).getLast?.map Prod.snd := by
  induction pairs using List.reverseRecOn with
  | nil => rfl
  | append_singleton earlier pair ih =>
      unfold relocate classPairs at *
      rw [List.map_append, lastWrite_append, ih, List.filter_append]
      by_cases same : location pair.1 = cls
      · simp [lastWrite, same]
      · have different : (cls == location pair.1) = false := beq_eq_false_iff_ne.mpr (Ne.symm same)
        simp [lastWrite, same, different, List.lookup_cons]

private theorem classPairs_assign (entries : List (K × A)) (key : K) (value : A) (cls : C) :
    classPairs location (assign entries key value) cls =
      if location key = cls then assign (classPairs location entries cls) key value
      else classPairs location entries cls := by
  induction entries with
  | nil =>
      by_cases same : location key = cls
      · simp [classPairs, assign, same]
      · simp [classPairs, assign, same]
  | cons entry rest ih =>
      rcases entry with ⟨name, old⟩
      unfold classPairs at *
      by_cases found : name = key
      · subst found
        by_cases same : location name = cls
        · simp [assign, same]
        · simp [assign, same]
      · by_cases same : location key = cls
        · by_cases inside : location name = cls
          · simp [assign, found, same, inside, ih]
          · simp [assign, found, same, inside, ih]
        · simp [assign, found, same, ih, List.filter_cons]

private theorem classPairs_assignAll (entries pairs : List (K × A)) (cls : C) :
    classPairs location (assignAll entries pairs) cls =
      assignAll (classPairs location entries cls) (classPairs location pairs cls) := by
  induction pairs generalizing entries with
  | nil => rfl
  | cons pair rest ih =>
      change classPairs location (assignAll (assign entries pair.1 pair.2) rest) cls = _
      rw [ih, classPairs_assign]
      by_cases same : location pair.1 = cls
      · simp only [same, if_true, classPairs, List.filter_cons, decide_true]
        rfl
      · simp only [same, if_false, classPairs, List.filter_cons, decide_false, Bool.false_eq_true]

/-- Deduplication drops no class. -/
theorem lastWrite_relocate_assignAll_eq_none_iff (pairs : List (K × A)) (cls : C) :
    lastWrite (relocate location (assignAll [] pairs)) cls = none ↔
      lastWrite (relocate location pairs) cls = none := by
  have keys : forall entries : List (K × A), (relocate location entries).map Prod.fst =
      (entries.map Prod.fst).map location := by
    intro entries
    rw [relocate, List.map_map, List.map_map]
    rfl
  rw [lastWrite_eq_none_iff, lastWrite_eq_none_iff, keys, keys, map_fst_assignAll_nil]
  simp only [List.mem_map, List.mem_eraseDups]

/-- A class ends with the same value, deduplicated or not, exactly when the
key of its last pair is also the last of its keys to appear.  Values are
supposed to tell keys apart. -/
theorem lastWrite_assignAll_eq_iff (pairs : List (K × A)) (cls : C)
    (telling : forall left right, left ∈ pairs -> right ∈ pairs -> left.2 = right.2 -> left.1 = right.1) :
    lastWrite (relocate location (assignAll [] pairs)) cls = lastWrite (relocate location pairs) cls ↔
      (classKeys location (pairs.map Prod.fst) cls).eraseDups.getLast? =
        (classKeys location (pairs.map Prod.fst) cls).getLast? := by
  have filtered : classPairs location (assignAll [] pairs) cls =
      assignAll [] (classPairs location pairs cls) := classPairs_assignAll location [] pairs cls
  rw [lastWrite_relocate, lastWrite_relocate, filtered, ← map_fst_classPairs, ← map_fst_assignAll_nil,
    List.getLast?_map, List.getLast?_map]
  have inside : forall pair, pair ∈ classPairs location pairs cls -> pair ∈ pairs :=
    fun pair member => List.mem_of_mem_filter member
  generalize classPairs location pairs cls = rows at inside
  rcases List.eq_nil_or_concat rows with empty | ⟨earlier, last, split⟩
  · subst empty
    exact ⟨fun _ => rfl, fun _ => rfl⟩
  · rw [List.concat_eq_append] at split
    rcases last with ⟨key, value⟩
    have written : lastWrite rows key = some value :=
      (lastWrite_eq_some_iff rows key value).mpr ⟨earlier, [], split, fun pair impossible => by cases impossible⟩
    have listed : (key, value) ∈ assignAll [] rows := (mem_assignAll_nil_iff rows key value).mpr written
    cases final : (assignAll [] rows).getLast? with
    | none =>
        rw [List.getLast?_eq_none_iff.mp final] at listed
        cases listed
    | some entry =>
        rcases entry with ⟨name, kept⟩
        have member : (name, kept) ∈ assignAll [] rows := List.mem_of_getLast? final
        have keptLast := (mem_assignAll_nil_iff rows name kept).mp member
        have ends : rows.getLast? = some (key, value) := by rw [split, List.getLast?_concat]
        rw [ends]
        simp only [Option.map_some, Option.some.injEq]
        constructor
        · intro equal
          rcases (lastWrite_eq_some_iff rows name kept).mp keptLast with ⟨front, back, whole, _⟩
          refine telling (name, kept) (key, value) (inside _ ?_) (inside _ ?_) equal
          · rw [whole]
            exact List.mem_append_right front List.mem_cons_self
          · exact List.mem_of_getLast? ends
        · intro equal
          rw [equal, written] at keptLast
          exact (Option.some.inj keptLast).symm

end Coarser

/-- Two ways of writing a sequence of blocks agree under a key exactly when
they agree on the last block that touches it. -/
theorem lastWrite_flatten_eq_iff {B : Type v} (blocks : List B) (left right : B -> List (K × A))
    (key : K) (touches : forall block, block ∈ blocks ->
      (lastWrite (left block) key = none ↔ lastWrite (right block) key = none)) :
    lastWrite (blocks.map left).flatten key = lastWrite (blocks.map right).flatten key ↔
      forall earlier block later, blocks = earlier ++ block :: later ->
        (forall other, other ∈ later -> lastWrite (right other) key = none) ->
        lastWrite (left block) key = lastWrite (right block) key := by
  induction blocks using List.reverseRecOn with
  | nil =>
      refine ⟨fun _ earlier block later impossible => ?_, fun _ => rfl⟩
      exact absurd impossible.symm (List.append_ne_nil_of_right_ne_nil _ (List.cons_ne_nil _ _))
  | append_singleton front last ih =>
      have frontTouches := fun block member => touches block (List.mem_append_left [last] member)
      have lastTouches := touches last (List.mem_append_right front (List.mem_singleton_self last))
      simp only [List.map_append, List.map_cons, List.map_nil, List.flatten_append,
        List.flatten_singleton, lastWrite_append]
      cases untouched : lastWrite (right last) key with
      | none =>
          rw [lastTouches.mpr untouched, Option.none_or, Option.none_or, ih frontTouches]
          constructor
          · intro agree earlier block later split quiet
            rcases List.eq_nil_or_concat later with empty | ⟨rest, final, shape⟩
            · subst empty
              have same := List.append_inj' split rfl
              have block_eq : last = block := (List.cons.inj same.2).1
              rw [← block_eq, lastTouches.mpr untouched, untouched]
            · rw [shape, List.concat_eq_append, ← List.cons_append, ← List.append_assoc] at split
              have same := List.append_inj' split rfl
              refine agree earlier block rest same.1 ?_
              intro other member
              apply quiet
              rw [shape, List.concat_eq_append]
              exact List.mem_append_left [final] member
          · intro agree earlier block later split quiet
            refine agree earlier block (later ++ [last]) ?_ ?_
            · rw [split, List.append_assoc, List.cons_append]
            · intro other member
              rcases List.mem_append.mp member with inner | single
              · exact quiet other inner
              · rw [List.mem_singleton.mp single, untouched]
      | some value =>
          cases written : lastWrite (left last) key with
          | none =>
              rw [lastTouches.mp written] at untouched
              cases untouched
          | some other =>
              rw [Option.some_or, Option.some_or]
              constructor
              · intro equal earlier block later split quiet
                rcases List.eq_nil_or_concat later with empty | ⟨rest, final, shape⟩
                · subst empty
                  have same := List.append_inj' split rfl
                  have block_eq : last = block := (List.cons.inj same.2).1
                  rw [← block_eq, written, untouched, equal]
                · rw [shape, List.concat_eq_append, ← List.cons_append, ← List.append_assoc] at split
                  have same := List.append_inj' split rfl
                  have final_eq : last = final := (List.cons.inj same.2).1
                  have quietLast := quiet final (by
                    rw [shape, List.concat_eq_append]
                    exact List.mem_append_right rest (List.mem_singleton_self final))
                  rw [← final_eq, untouched] at quietLast
                  cases quietLast
              · intro agree
                have final := agree front last [] rfl (fun other impossible => by cases impossible)
                rw [written, untouched] at final
                exact final

end Library
end FaucetStream
