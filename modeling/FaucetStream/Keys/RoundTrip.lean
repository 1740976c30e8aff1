import FaucetStream.Keys.Parse

namespace FaucetStream
namespace Keys

open Json
open Library

/-!
# State keys read back

Whatever is read from a key renders as the key again.  The other way around,
the marker of an invocation is found again unless the row in front of it is
named like a marker of the pipeline: such a row is accepted, and its key is
read as the marker.
-/

section Namespace

variable (tenant : Option String) (pipeline : String)

/-- What every key of a pipeline starts from. -/
def baseKey : StateKey := (StateKey.pipeline pipeline).withTenant tenant

variable {pipeline}

theorem push_ne_empty_of_segment {out segment : String} (filled : segment ≠ "") : push out segment ≠ "" := by
  unfold push
  split
  · exact filled
  · intro empty
    have texts := congrArg String.toList empty
    rw [String.toList_append, String.toList_append] at texts
    have front := (List.append_eq_nil_iff.mp texts).1
    exact List.cons_ne_nil _ _ (List.append_eq_nil_iff.mp front).2

theorem keyNamespace_ne_empty (named : pipeline ≠ "") : (baseKey tenant pipeline).keyNamespace ≠ "" :=
  push_ne_empty_of_segment named

/-! ## Renderings, segment by segment -/

/-- The segments of a key of an invocation. -/
def keySegments (row : String) (sub : Option Sub) (suffix : Option KeySuffix) : List String :=
  row :: ((sub.map (fun sub => renderSub sub KEY_SCHEME_VERSION)).toList ++ suffix.elim [] KeySuffix.segments)

theorem toList_render_row (named : pipeline ≠ "") (row : String) (sub : Option Sub) (suffix : Option KeySuffix) :
    (StateKey.render ⟨.parts tenant pipeline (some row) sub, none, suffix⟩).toList =
      (baseKey tenant pipeline).keyNamespace.toList ++ spelled (keySegments row sub suffix) := by
  have base := keyNamespace_ne_empty tenant named
  have rowFilled := push_ne_empty base row
  have placed : exists out : String, out ≠ "" ∧
      StateKey.render ⟨.parts tenant pipeline (some row) sub, none, suffix⟩ =
        suffix.elim out (fun suffix => suffix.renderInto out) ∧
      out.toList = (baseKey tenant pipeline).keyNamespace.toList ++
        spelled (row :: (sub.map (fun sub => renderSub sub KEY_SCHEME_VERSION)).toList) := by
    cases sub with
    | none => exact ⟨_, rowFilled, rfl, toList_push base row⟩
    | some sub =>
        refine ⟨_, push_ne_empty rowFilled (renderSub sub KEY_SCHEME_VERSION), rfl, ?_⟩
        rw [toList_push rowFilled, toList_push base, List.append_assoc, ← spelled_append]
        rfl
  rcases placed with ⟨out, filled, rendered, text⟩
  rw [rendered]
  unfold keySegments
  cases suffix with
  | none =>
      rw [Option.elim_none, Option.elim_none, List.append_nil]
      exact text
  | some suffix =>
      rw [Option.elim_some, Option.elim_some, toList_renderInto suffix filled, text, List.append_assoc,
        ← spelled_append]
      rfl

theorem toList_render_marker (named : pipeline ≠ "") (suffix : KeySuffix) :
    ((baseKey tenant pipeline).withSuffix suffix).render.toList =
      (baseKey tenant pipeline).keyNamespace.toList ++ spelled suffix.segments :=
  toList_renderInto suffix (keyNamespace_ne_empty tenant named)

/-! ## A parsed key renders as it was -/

/-- The row and the component in front of a marker. -/
theorem spelled_take {all : List String} {rowEnd stop : Nat} (starts : 1 ≤ rowEnd) (ordered : rowEnd ≤ stop)
    (inside : stop ≤ all.length) :
    spelled (join (all.take rowEnd) ::
        (if rowEnd < stop then some (join ((all.take stop).drop rowEnd)) else none).toList) =
      spelled (all.take stop) := by
  have front : spelled [join (all.take rowEnd)] = spelled (all.take rowEnd) := by
    have filled : all.take rowEnd ≠ [] := by
      apply List.ne_nil_of_length_pos
      rw [List.length_take]
      omega
    rw [spelled_singleton, spelled_join filled]
  by_cases more : rowEnd < stop
  · have back : spelled [join ((all.take stop).drop rowEnd)] = spelled ((all.take stop).drop rowEnd) := by
      have filled : (all.take stop).drop rowEnd ≠ [] := by
        apply List.ne_nil_of_length_pos
        rw [List.length_drop, List.length_take]
        omega
      rw [spelled_singleton, spelled_join filled]
    have split := List.take_append_drop rowEnd (all.take stop)
    rw [List.take_take, Nat.min_eq_left ordered] at split
    rw [if_pos more]
    change spelled ([join (all.take rowEnd)] ++ [join ((all.take stop).drop rowEnd)]) = _
    rw [spelled_append, front, back, ← spelled_append, split]
  · have same : rowEnd = stop := by omega
    rw [if_neg more, ← same]
    exact front

/-- Where the segments of an invocation end: in front of its marker. -/
def markerPlace (later : List String) : Nat := (findMarker 1 later).elim (later.length + 1) Prod.fst

def rowEnd (first : String) (later : List String) : Nat :=
  if first = "backfill" ∧ 1 < markerPlace later then markerPlace later else 1

theorem parseInvocation_eq (first : String) (later : List String) :
    (baseKey tenant pipeline).parseInvocation first later =
      ⟨.parts tenant pipeline (some (join ((first :: later).take (rowEnd first later))))
        (if rowEnd first later < markerPlace later then
          some (.encoded (join (((first :: later).take (markerPlace later)).drop (rowEnd first later)))) else none),
        none, (findMarker 1 later).map Prod.snd⟩ := by
  have placed : forall (row sub : String) (further : Prop) [Decidable further] (marker : Option (Nat × KeySuffix)),
      marker.elim
        (if further then ((baseKey tenant pipeline).withRow row).withSub sub else (baseKey tenant pipeline).withRow row)
        (fun marker => (if further then ((baseKey tenant pipeline).withRow row).withSub sub
          else (baseKey tenant pipeline).withRow row).withSuffix marker.2) =
      ⟨.parts tenant pipeline (some row) (if further then some (.encoded sub) else none), none,
        marker.map Prod.snd⟩ := by
    intro row sub further _ marker
    by_cases holds : further
    · simp only [if_pos holds]
      cases marker with
      | none => rfl
      | some found => rfl
    · simp only [if_neg holds]
      cases marker with
      | none => rfl
      | some found => rfl
  exact placed _ _ _ (findMarker 1 later)

/-- The marker, where it was found, and the segments it stands for. -/
theorem markerPlace_spec (first : String) (later : List String) :
    1 ≤ markerPlace later ∧ markerPlace later ≤ (first :: later).length ∧
      spelled (((findMarker 1 later).map Prod.snd).elim [] KeySuffix.segments) =
        spelled ((first :: later).drop (markerPlace later)) := by
  unfold markerPlace
  cases found : findMarker 1 later with
  | none =>
      rw [Option.elim_none, Option.map_none, Option.elim_none, List.drop_of_length_le (le_of_eq (List.length_cons))]
      exact ⟨Nat.succ_pos _, le_of_eq (List.length_cons).symm, rfl⟩
  | some marker =>
      rcases marker with ⟨place, suffix⟩
      rcases findMarker_spelled found with ⟨skipped, rfl, inside, same, _⟩
      rw [Option.elim_some, Option.map_some, Option.elim_some, same, Nat.add_comm, List.drop_succ_cons,
        List.length_cons]
      exact ⟨Nat.succ_pos _, by omega, rfl⟩

theorem toList_render_parseInvocation (named : pipeline ≠ "") (first : String) (later : List String) :
    ((baseKey tenant pipeline).parseInvocation first later).render.toList =
      (baseKey tenant pipeline).keyNamespace.toList ++ spelled (first :: later) := by
  rcases markerPlace_spec first later with ⟨positive, inside, marker⟩
  have starts : 1 ≤ rowEnd first later ∧ rowEnd first later ≤ markerPlace later := by
    unfold rowEnd
    split
    · exact ⟨positive, le_refl _⟩
    · exact ⟨le_refl _, positive⟩
  have subs : (Option.map (fun sub => renderSub sub KEY_SCHEME_VERSION)
      (if rowEnd first later < markerPlace later then
        some (Sub.encoded (join (((first :: later).take (markerPlace later)).drop (rowEnd first later)))) else none)) =
      if rowEnd first later < markerPlace later then
        some (join (((first :: later).take (markerPlace later)).drop (rowEnd first later))) else none := by
    split
    · rfl
    · rfl
  rw [parseInvocation_eq, toList_render_row tenant named, keySegments, subs, ← List.cons_append, spelled_append,
    marker, spelled_take starts.1 starts.2 inside, ← spelled_append, List.take_append_drop]

theorem toList_render_parseSegments (named : pipeline ≠ "") (first : String) (later : List String) :
    ((baseKey tenant pipeline).parseSegments first later).render.toList =
      (baseKey tenant pipeline).keyNamespace.toList ++ spelled (first :: later) := by
  have tailed : forall marker : String, later ≠ [] ->
      spelled [marker, join later] = spelled (marker :: later) := by
    intro marker filled
    change spelled ([marker] ++ [join later]) = spelled ([marker] ++ later)
    rw [spelled_append, spelled_append, spelled_singleton (join later), spelled_join filled]
  unfold StateKey.parseSegments
  split
  · rename_i here
    rw [toList_render_marker tenant named, here.1, here.2]
    rfl
  split
  · rename_i here
    rw [toList_render_marker tenant named, here.1, ← tailed _ here.2]
    rfl
  split
  · rename_i here
    rw [toList_render_marker tenant named, here.1, ← tailed _ here.2]
    rfl
  · exact toList_render_parseInvocation tenant named first later

/-- The characters a key has behind its namespace. -/
theorem parse_eq_some_iff {key : String} {parsed : StateKey} :
    StateKey.parse tenant pipeline key = some parsed <->
      exists rest first later, rest ≠ [] ∧
        key.toList = (baseKey tenant pipeline).keyNamespace.toList ++ ':' :: ':' :: rest ∧
        segments (String.ofList rest) = first :: later ∧
        (baseKey tenant pipeline).parseSegments first later = parsed := by
  unfold baseKey
  have cut : forall rest, (key.toList.dropPrefix?
    ((StateKey.pipeline pipeline).withTenant tenant).keyNamespace.toList).bind (fun rest =>
      rest.dropPrefix? KEY_SEPARATOR.toList) = some rest <->
        key.toList = ((StateKey.pipeline pipeline).withTenant tenant).keyNamespace.toList ++ ':' :: ':' :: rest := by
    intro rest
    rw [Option.bind_eq_some_iff]
    simp only [List.dropPrefix?_eq_some_iff, beq_iff_eq]
    constructor
    · rintro ⟨middle, ⟨_, whole, rfl⟩, _, remaining, rfl⟩
      rw [whole, remaining]
      rfl
    · intro whole
      exact ⟨_, ⟨_, whole, rfl⟩, _, rfl, rfl⟩
  unfold StateKey.parse
  dsimp only
  constructor
  · intro read
    split at read
    · cases read
    · rename_i rest stripped
      split at read
      · cases read
      · rename_i filled
        split at read
        · cases read
        · rename_i first later split
          refine ⟨rest, first, later, ?_, (cut rest).mp stripped, split, Option.some.inj read⟩
          rintro rfl
          exact filled rfl
  · rintro ⟨rest, first, later, filled, whole, split, same⟩
    rw [(cut rest).mpr whole]
    have nonempty : ¬ rest.isEmpty = true := fun empty => filled (List.isEmpty_iff.mp empty)
    dsimp only
    rw [if_neg nonempty, split, ← same]

/-- A parsed key renders as the key it was read from. -/
theorem render_of_parse (named : pipeline ≠ "") {key : String} {parsed : StateKey}
    (read : StateKey.parse tenant pipeline key = some parsed) : parsed.render = key := by
  rcases (parse_eq_some_iff tenant).mp read with ⟨rest, first, later, _, whole, split, rfl⟩
  apply String.toList_inj.mp
  have text := spelled_segments (String.ofList rest)
  rw [split, String.toList_ofList] at text
  rw [toList_render_parseSegments tenant named, text, whole]

end Namespace

/-! ## The keys of invocations -/

/-- A parent key's value, as text or typed. -/
inductive Parent where
  | raw (text : String)
  | typed (value : Value)

namespace Parent

def sub : Parent -> Sub
  | .raw text => .parent text
  | .typed value => StateKey.typedSub value

/-- The value a parent stands for: a text is a string. -/
def asValue : Parent -> Value
  | .raw text => .string text
  | .typed value => value

/-- The component of a parent in a key. -/
def text (parent : Parent) : String := encodeComponent (component parent.asValue) true

theorem renderSub_sub (parent : Parent) : renderSub parent.sub KEY_SCHEME_VERSION = parent.text := by
  cases parent with
  | typed value => exact renderSub_typedSub value
  | raw text =>
      rw [Parent.text, asValue, ← renderSub_typedSub]
      simp only [sub, StateKey.typedSub, renderSub, KEY_SCHEME_VERSION]
      cases isMarkerName text with
      | true => rfl
      | false => rfl

theorem closed_text (parent : Parent) : Closed ':' parent.text.toList := by
  have separate := encodeComponent_not_infix (component parent.asValue)
  refine ⟨separate, ?_⟩
  unfold text encodeComponent
  split
  · rename_i kept
    simp only [isVerbatim, Bool.and_eq_true, bne_iff_ne] at kept
    exact kept.1.2
  · intro last
    exact absurd (isPlain_of_mem_hashedName (List.mem_of_getLast? last)) (by decide)

/-- No component is taken for a marker. -/
theorem suffixAt_text (parent : Parent) (behind : List String) : suffixAt parent.text behind = none := by
  have others : forall suffix : KeySuffix, parent.text ≠ suffix.marker :=
    encodeComponent_ne_marker parent.asValue
  have sla : parent.text ≠ "__sla__" := others .sla
  have profiling : parent.text ≠ "__profiling__" := others .profiling
  have status : parent.text ≠ "__status__" := others .status
  have lease : parent.text ≠ "__lease__" := others .lease
  have rollback : parent.text ≠ "__rollback__" := others .rollbackIndex
  simp only [suffixAt, sla, profiling, status, lease, rollback, false_and, if_false]

end Parent

namespace StateKey

/-- The key of a row, of a child of it, or of one of their markers. -/
def built (tenant : Option String) (pipeline row : String) (parent : Option Parent) (suffix : Option KeySuffix) :
    StateKey :=
  let named := ((StateKey.pipeline pipeline).withTenant tenant).withRow row
  let child := match parent with
    | none => named
    | some (.raw text) => named.withParentKey text
    | some (.typed value) => named.withParentValue value
  suffix.elim child child.withSuffix

theorem built_eq (tenant : Option String) (pipeline row : String) (parent : Option Parent)
    (suffix : Option KeySuffix) :
    built tenant pipeline row parent suffix =
      ⟨.parts tenant pipeline (some row) (parent.map Parent.sub), none, suffix⟩ := by
  rcases parent with _ | text | value
  · cases suffix with
    | none => rfl
    | some suffix => rfl
  · cases suffix with
    | none => rfl
    | some suffix => rfl
  · cases suffix with
    | none => rfl
    | some suffix => rfl

end StateKey

/-- The segments of a marker, once its tail is cut too. -/
def cutSegments (suffix : KeySuffix) : List String := suffix.marker :: suffix.tail.elim [] segments

/-- The segments behind the row. -/
def laterSegments (parent : Option Parent) (suffix : Option KeySuffix) : List String :=
  (parent.map Parent.text).toList ++ suffix.elim [] cutSegments

theorem closed_of_isRowId {row : String} (valid : isRowId row = true) : Closed ':' row.toList := by
  apply closed_of_not_mem
  intro member
  rw [isRowId, Bool.and_eq_true] at valid
  exact absurd (List.all_eq_true.mp valid.2 ':' member) (by decide)

theorem closed_marker (suffix : KeySuffix) : Closed ':' suffix.marker.toList := by
  have facts : forall name, name ∈ MARKER_NAMES -> ':' ∉ name.toList := by decide +kernel
  exact closed_of_not_mem ':' (facts _ (marker_mem suffix))

/-- Closed segments in front of a text are found again. -/
theorem segments_of_spelled {front : List String}
    (closed : forall segment, segment ∈ front -> Closed ':' segment.toList)
    {last text : String} (given : spelled front ++ ':' :: ':' :: last.toList = ':' :: ':' :: text.toList) :
    segments text = front ++ segments last := by
  have eachClosed : forall segment, segment ∈ front.map String.toList -> Closed ':' segment := by
    intro segment member
    rcases List.mem_map.mp member with ⟨name, listed, rfl⟩
    exact closed name listed
  have cut := splitDouble_behindMarks eachClosed given
  have same : String.ofList ∘ String.toList = id := funext (fun _ => String.ofList_toList)
  rw [segments, cut, List.map_append, List.map_map, same, List.map_id]
  rfl

theorem segments_closed {segment : String} (closed : Closed ':' segment.toList) : segments segment = [segment] := by
  rw [segments, splitDouble_closed closed, List.map_singleton, String.ofList_toList]

/-- The segments of an invocation's key, cut from its text. -/
theorem segments_of_keySegments {row : String} (valid : isRowId row = true) (parent : Option Parent)
    (suffix : Option KeySuffix) {rest : String}
    (given : spelled (keySegments row (parent.map Parent.sub) suffix) = ':' :: ':' :: rest.toList) :
    segments rest = row :: laterSegments parent suffix := by
  have closedHead : forall segment, segment ∈ row :: (parent.map Parent.text).toList -> Closed ':' segment.toList := by
    intro segment member
    rcases List.mem_cons.mp member with rfl | inParent
    · exact closed_of_isRowId valid
    · rcases Option.map_eq_some_iff.mp (Option.mem_toList.mp inParent) with ⟨value, _, rfl⟩
      exact value.closed_text
  have subs : (parent.map Parent.sub).map (fun sub => renderSub sub KEY_SCHEME_VERSION) = parent.map Parent.text := by
    rw [Option.map_map]
    exact congrArg (fun text => parent.map text) (funext Parent.renderSub_sub)
  rw [keySegments, subs, ← List.cons_append, spelled_append] at given
  unfold laterSegments
  cases suffix with
  | none =>
      rw [Option.elim_none, show spelled [] = [] from rfl, List.append_nil] at given
      rw [Option.elim_none, List.append_nil]
      cases parent with
      | none =>
          have same : rest = row := by
            rw [Option.map_none, Option.toList_none, spelled_singleton] at given
            exact String.toList_inj.mp (List.cons.inj (List.cons.inj given).2).2.symm
          rw [same]
          exact segments_closed (closed_of_isRowId valid)
      | some value =>
          have split : spelled [row] ++ ':' :: ':' :: value.text.toList = ':' :: ':' :: rest.toList := by
            rw [← given, ← spelled_singleton, ← spelled_append]
            rfl
          rw [segments_of_spelled (fun segment member => closedHead segment (List.mem_cons.mpr
            (Or.inl (List.mem_singleton.mp member)))) split, segments_closed value.closed_text]
          rfl
  | some marker =>
      rw [Option.elim_some] at given
      rw [Option.elim_some, ← List.cons_append, cutSegments]
      unfold KeySuffix.segments at given
      cases tail : marker.tail with
      | none =>
          rw [tail, Option.toList_none, spelled_singleton] at given
          rw [segments_of_spelled closedHead given, segments_closed (closed_marker marker)]
          rfl
      | some text =>
          have split : spelled ((row :: (parent.map Parent.text).toList) ++ [marker.marker]) ++
              ':' :: ':' :: text.toList = ':' :: ':' :: rest.toList := by
            rw [← given, tail, spelled_append, List.append_assoc, ← spelled_singleton, ← spelled_append]
            rfl
          have closed : forall segment, segment ∈ (row :: (parent.map Parent.text).toList) ++ [marker.marker] ->
              Closed ':' segment.toList := by
            intro segment member
            rcases List.mem_append.mp member with front | last
            · exact closedHead segment front
            · rw [List.mem_singleton.mp last]
              exact closed_marker marker
          rw [segments_of_spelled closed split, List.append_assoc]
          rfl

/-- The key of an invocation is read segment by segment. -/
theorem parse_built (tenant : Option String) {pipeline row : String} (named : pipeline ≠ "")
    (valid : isRowId row = true) (parent : Option Parent) (suffix : Option KeySuffix) :
    StateKey.parse tenant pipeline (StateKey.built tenant pipeline row parent suffix).render =
      some ((baseKey tenant pipeline).parseSegments row (laterSegments parent suffix)) := by
  have filled : exists rest : List Char,
      spelled (keySegments row (parent.map Parent.sub) suffix) = ':' :: ':' :: rest ∧ rest ≠ [] := by
    refine ⟨_, behindMarks_cons ':' row.toList _, ?_⟩
    apply List.append_ne_nil_of_left_ne_nil
    intro empty
    rw [isRowId, Bool.and_eq_true, Bool.not_eq_true', ← Bool.not_eq_true, String.isEmpty_iff] at valid
    exact valid.1 (String.toList_eq_nil_iff.mp empty)
  rcases filled with ⟨rest, shape, nonempty⟩
  refine (parse_eq_some_iff tenant).mpr ⟨rest, row, laterSegments parent suffix, nonempty, ?_, ?_, rfl⟩
  · rw [StateKey.built_eq, toList_render_row tenant named, shape]
  · apply segments_of_keySegments valid
    rw [String.toList_ofList]
    exact shape

/-! ## Markers found again -/

theorem suffixAt_marker {suffix : KeySuffix} (level : suffix.isPipelineLevel = false) :
    suffixAt suffix.marker (suffix.tail.elim [] segments) = some suffix := by
  cases suffix with
  | sla => rfl
  | profiling => rfl
  | status => rfl
  | lease => rfl
  | rollbackIndex => rfl
  | rollbackRun run =>
      have filled := segments_ne_nil run
      rw [KeySuffix.tail, Option.elim_some, KeySuffix.marker, suffixAt, if_neg (fun both => filled both.2),
        if_neg (fun both => filled both.2), if_neg (fun both => filled both.2), if_neg (fun both => filled both.2),
        if_pos ⟨rfl, filled⟩, join_segments]
  | replication => cases level
  | backfill rangeHash => cases level
  | serveBackfill rangeHash => cases level

/-- The marker of an invocation is the first one found. -/
theorem findMarker_laterSegments (parent : Option Parent) {suffix : Option KeySuffix}
    (level : forall marker, suffix = some marker -> marker.isPipelineLevel = false) :
    (findMarker 1 (laterSegments parent suffix)).map Prod.snd = suffix := by
  have cut : forall index, (findMarker index (suffix.elim [] cutSegments)).map Prod.snd = suffix := by
    intro index
    cases suffix with
    | none => rfl
    | some marker =>
        rw [Option.elim_some, cutSegments, findMarker, suffixAt_marker (level marker rfl)]
        rfl
  unfold laterSegments
  cases parent with
  | none => exact cut 1
  | some value =>
      change (findMarker 1 (value.text :: suffix.elim [] cutSegments)).map Prod.snd = suffix
      rw [findMarker, value.suffixAt_text]
      exact cut 2

theorem laterSegments_eq_nil_iff (parent : Option Parent) (suffix : Option KeySuffix) :
    laterSegments parent suffix = [] <-> parent = none ∧ suffix = none := by
  unfold laterSegments
  cases parent with
  | none =>
      cases suffix with
      | none => exact ⟨fun _ => ⟨rfl, rfl⟩, fun _ => rfl⟩
      | some marker => simp [cutSegments]
  | some value => simp

/-- What is read behind the name of a marker is longer than any tail. -/
theorem join_laterSegments_ne (parent : Option Parent) {suffix : KeySuffix} {text : String}
    (tail : suffix.tail = some text) : join (laterSegments parent (some suffix)) ≠ text := by
  intro same
  have filled : laterSegments parent (some suffix) ≠ [] := by
    rw [Ne, laterSegments_eq_nil_iff]
    rintro ⟨_, impossible⟩
    cases impossible
  have texts := spelled_join filled
  have cut : spelled (suffix.marker :: segments text) = spelled [suffix.marker] ++ ':' :: ':' :: text.toList := by
    rw [← spelled_segments, ← spelled_append]
    rfl
  rw [same, laterSegments, spelled_append, Option.elim_some, cutSegments, tail, Option.elim_some, cut,
    spelled_singleton] at texts
  have lengths := congrArg List.length texts
  simp only [List.length_append, List.length_cons] at lengths
  omega

theorem tailed_ne (parent : Option Parent) (suffix : Option KeySuffix) (make : String -> KeySuffix)
    (tails : forall text, (make text).tail = some text) :
    some (make (join (laterSegments parent suffix))) ≠ suffix := by
  intro same
  cases suffix with
  | none => cases same
  | some marker =>
      have tail := tails (join (laterSegments parent (some marker)))
      rw [Option.some.inj same] at tail
      exact join_laterSegments_ne parent tail rfl

/-- The row is not named like a marker of the pipeline where its key would be
read as one, and the suffix is one of an invocation. -/
structure ReadBack (row : String) (parent : Option Parent) (suffix : Option KeySuffix) : Prop where
  ofInvocation : forall marker, suffix = some marker -> marker.isPipelineLevel = false
  notReplication : row = "__replication__" -> ¬ (parent = none ∧ suffix = none)
  notBackfill : row = "__backfill__" ∨ row = "__serve_backfill__" -> parent = none ∧ suffix = none

theorem suffix_parseSegments_iff (tenant : Option String) (pipeline row : String) (parent : Option Parent)
    (suffix : Option KeySuffix) :
    ((baseKey tenant pipeline).parseSegments row (laterSegments parent suffix)).suffix = suffix <->
      ReadBack row parent suffix := by
  have alone := laterSegments_eq_nil_iff parent suffix
  unfold StateKey.parseSegments
  split
  · rename_i here
    rw [alone] at here
    constructor
    · intro same
      rw [here.2.2] at same
      cases same
    · intro back
      exact absurd here.2 (back.notReplication here.1)
  split
  · rename_i here
    rw [Ne, alone] at here
    constructor
    · intro same
      exact absurd same (tailed_ne parent suffix KeySuffix.backfill (fun _ => rfl))
    · intro back
      exact absurd (back.notBackfill (Or.inl here.1)) here.2
  split
  · rename_i here
    rw [Ne, alone] at here
    constructor
    · intro same
      exact absurd same (tailed_ne parent suffix KeySuffix.serveBackfill (fun _ => rfl))
    · intro back
      exact absurd (back.notBackfill (Or.inr here.1)) here.2
  · rename_i notReplication notBackfill notServe
    rw [parseInvocation_eq]
    dsimp only
    constructor
    · intro same
      refine ⟨?_, ?_, ?_⟩
      · intro marker given
        rw [given] at same
        rcases Option.map_eq_some_iff.mp same with ⟨⟨place, found⟩, search, rfl⟩
        rcases findMarker_spelled search with ⟨_, _, _, _, level⟩
        exact level
      · intro isReplication nothing
        exact notReplication ⟨isReplication, alone.mpr nothing⟩
      · rintro (isBackfill | isServe)
        · by_contra something
          exact notBackfill ⟨isBackfill, fun empty => something (alone.mp empty)⟩
        · by_contra something
          exact notServe ⟨isServe, fun empty => something (alone.mp empty)⟩
    · intro back
      exact findMarker_laterSegments parent back.ofInvocation

/-- Whatever is read from a key renders as the key, and the key of an
invocation is read with its suffix exactly when its row is not taken for a
marker of the pipeline. -/
theorem parse_roundTrips_iff (tenant : Option String) (pipeline : String) (named : pipeline ≠ "") :
    (forall key parsed, StateKey.parse tenant pipeline key = some parsed -> parsed.render = key) ∧
    (forall row parent suffix, acceptsRowId row = true ->
      ((exists parsed, StateKey.parse tenant pipeline (StateKey.built tenant pipeline row parent suffix).render =
          some parsed ∧ parsed.suffix = suffix) <->
        ReadBack row parent suffix)) := by
  constructor
  · intro key parsed read
    exact render_of_parse tenant named read
  · intro row parent suffix accepted
    rw [acceptsRowId, Bool.and_eq_true] at accepted
    rw [parse_built tenant named accepted.2, ← suffix_parseSegments_iff tenant pipeline]
    constructor
    · rintro ⟨parsed, read, same⟩
      rw [Option.some.inj read]
      exact same
    · intro same
      exact ⟨_, rfl, same⟩

deriving instance DecidableEq for KeySuffix

/-- A child of a row has its lease read back. -/
theorem childLease_roundTrips :
    "p" ≠ "" ∧ exists parsed, StateKey.parse none "p" "p::orders::a:b::__lease__" = some parsed ∧
      parsed.suffix = some .lease := by
  have named : "p" ≠ "" := by decide
  have back : ReadBack "orders" (some (.raw "a:b")) (some .lease) := by
    refine ⟨?_, ?_, ?_⟩
    · rintro _ ⟨⟩
      rfl
    · intro impossible
      exact absurd impossible (by decide)
    · rintro (impossible | impossible)
      · exact absurd impossible (by decide)
      · exact absurd impossible (by decide)
  have rendered : (StateKey.built none "p" "orders" (some (.raw "a:b")) (some .lease)).render =
      "p::orders::a:b::__lease__" := by decide +kernel
  refine ⟨named, ?_⟩
  rw [← rendered]
  exact ((parse_roundTrips_iff none "p" named).2 "orders" (some (.raw "a:b")) (some .lease) (by decide +kernel)).mpr
    back

/-- A row named like the phase marker of the pipeline is read as the marker. -/
theorem replicationRow_read_as_marker :
    acceptsRowId "__replication__" = true ∧
      (StateKey.parse none "p" (StateKey.built none "p" "__replication__" none none).render).map StateKey.suffix =
        some (some .replication) := by
  decide +kernel

end Keys
end FaucetStream
