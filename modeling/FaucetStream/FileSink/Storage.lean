import FaucetStream.FileSink.Writer

namespace FaucetStream
namespace FileSink

open Library

/-!
# Where published files go

A publish may return before its file has landed: the upload goes on by itself
and lands, or fails, at some later point.  A failed upload is found out by a
later publish or by waiting for all of them, which then fails.
-/

structure Store where
  destination : List FileName
  /-- Files accepted that have not landed. -/
  uploads : List FileName
  /-- The files the run published: those that landed. -/
  published : List FileName
  deriving DecidableEq

namespace Store

def start (earlier : List FileName) : Store := ⟨earlier, [], []⟩

def land (store : Store) (name : FileName) : Store :=
  { store with destination := name :: store.destination, published := name :: store.published }

def accept (store : Store) (name : FileName) : Store := { store with uploads := name :: store.uploads }

def delete (store : Store) (names : List FileName) : Store :=
  { store with destination := store.destination.filter (fun name => !names.contains name) }

theorem mem_delete (store : Store) (names : List FileName) (name : FileName) :
    name ∈ (store.delete names).destination <-> name ∈ store.destination ∧ name ∉ names := by
  unfold delete
  rw [List.mem_filter, Bool.not_eq_true', ← Bool.not_eq_true, List.contains_iff_mem]

theorem delete_nothing (store : Store) : store.delete [] = store := by
  unfold delete
  simp only [List.contains_nil, Bool.not_false, List.filter_true]

/-- What the run has given to the storage, landed or not. -/
def Holds (store : Store) (name : FileName) : Prop := name ∈ store.published ∨ name ∈ store.uploads

end Store

/-- Uploads land, some are lost, and the others go on. -/
def Passage (lost : List FileName) (before after : Store) : Prop :=
  exists landed, before.uploads.Perm (landed ++ (lost ++ after.uploads)) ∧
    after.destination = landed ++ before.destination ∧ after.published = landed ++ before.published

structure World where
  state : WriterState
  store : Store

def World.start (earlier : List FileName) : World := ⟨WriterState.new, Store.start earlier⟩

/-- What a question leaves in the storage. -/
def leaves (template : NameTemplate) {Row : Type} : (op : Op Row) -> op.Answer -> Store -> Store -> Prop
  | .prepare, _, before, after =>
      exists between scratch, Passage [] before between ∧ (forall name, name ∈ scratch -> template.partOf name = none) ∧
        after = between.delete scratch
  | .list, .ok names, before, after => Passage [] before after ∧ forall name, name ∈ names <-> name ∈ after.destination
  | .exists name, .ok found, before, after => Passage [] before after ∧ (found = true <-> name ∈ after.destination)
  | .publish name, .ok (), before, after =>
      exists between, Passage [] before between ∧ (after = between.land name ∨ after = between.accept name)
  | .publish _, .error _, before, after => exists lost, Passage lost before after
  | .finishStream name, .ok (), before, after => exists between, Passage [] before between ∧ after = between.land name
  | .settle, .ok (), before, after => Passage [] before after ∧ after.uploads = []
  | .settle, .error _, before, after => exists lost, Passage lost before after
  | .deleteMany names, .ok (), before, after => exists between, Passage [] before between ∧ after = between.delete names
  | .deleteMany names, .error _, before, after =>
      exists between part, Passage [] before between ∧ part ⊆ names ∧ after = between.delete part
  | _, _, before, after => Passage [] before after

/-- The surroundings of a writer: its state, which only it changes, and the
storage. -/
def stored (template : NameTemplate) {Row : Type} : Environment (@Op.Answer Row) World
  | .load, before, answer, after => answer = before.state ∧ after = before
  | .modify change, before, _, after => after = ⟨change before.state, before.store⟩
  | op, before, answer, after => after.state = before.state ∧ leaves template op answer before.store after.store

namespace Passage

variable {lost : List FileName} {before after : Store}

theorem none (store : Store) : Passage [] store store :=
  ⟨[], List.Perm.refl _, rfl, rfl⟩

/-- Nothing lands that was not given to the storage. -/
theorem holds (passage : Passage lost before after) {name : FileName} (held : after.Holds name) :
    before.Holds name := by
  rcases passage with ⟨landed, uploads, _, published⟩
  rcases held with landedOrBefore | waiting
  · rw [published, List.mem_append] at landedOrBefore
    rcases landedOrBefore with now | earlier
    · exact Or.inr (uploads.mem_iff.mpr (List.mem_append_left _ now))
    · exact Or.inl earlier
  · exact Or.inr (uploads.mem_iff.mpr (List.mem_append_right _ (List.mem_append_right _ waiting)))

/-- With nothing on its way, nothing changes. -/
theorem settled (passage : Passage [] before after) (idle : before.uploads = []) : after = before := by
  rcases passage with ⟨landed, uploads, destination, published⟩
  rw [idle, List.nil_append] at uploads
  have empty := List.append_eq_nil_iff.mp uploads.nil_eq.symm
  rcases before with ⟨beforeDestination, beforeUploads, beforePublished⟩
  rcases after with ⟨afterDestination, afterUploads, afterPublished⟩
  cases idle
  rw [empty.1, List.nil_append] at destination published
  cases destination
  cases published
  cases empty.2
  rfl

end Passage

end FileSink
end FaucetStream
