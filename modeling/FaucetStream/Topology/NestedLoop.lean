import Mathlib.Algebra.BigOperators.Group.List.Basic
import Mathlib.Data.Finset.Card
import Mathlib.Data.Finset.Dedup
import FaucetStream.Topology.Join

namespace FaucetStream
namespace Topology

open Json
open KeyedWrites (keyScalarText)

/-!
# What a join is

A join compares every probe record with every build record.  The hash join does
the same work through its index, page by page, whatever the pages are.
-/

def isScalar : Value -> Bool
  | .string _ => true
  | .number _ => true
  | .bool _ => true
  | _ => false

/-- Two key values are one key.  Null, arrays and objects are no keys. -/
def sameKey : KeyNormalize -> Value -> Value -> Bool
  | .preserve, .string left, .string right => left == right
  | .preserve, .number left, .number right => keyScalarText (.number left) == keyScalarText (.number right)
  | .preserve, .bool left, .bool right => left == right
  | .preserve, _, _ => false
  | .stringify, left, right => isScalar left && isScalar right && keyScalarText left == keyScalarText right

section Specification

variable (config : JoinConfig) (builds : List Value)

def joins (right left : Value) : Bool :=
  match getPath right config.buildKey, getPath left config.probeKey with
  | some right, some left => sameKey config.keyNormalize right left
  | _, _ => false

/-- The build records that match a probe record, in build order. -/
def matchesOf (left : Value) : List Value := builds.filter (fun right => joins config right left)

def takenOf (left : Value) : List Value := config.onDuplicate.taken (matchesOf config builds left)

/-- What a projection copies. -/
def copied (right : Option Value) (projection : Projection) : Option Value :=
  right.elim (some config.onMissing) (fun right => getPath right projection.path)

def projected (right : Option Value) : List Projection -> Value -> Except FaucetError Value
  | [], left => .ok left
  | projection :: rest, left =>
      match copied config right projection with
      | none => projected right rest left
      | some value =>
          match setField left projection.name value config.onCollision with
          | .error error => .error error
          | .ok enriched => projected right rest enriched

/-- What comes out for one probe record. -/
def nestedRow (left : Value) : Except FaucetError (List Value) :=
  if (matchesOf config builds left).isEmpty then
    match config.mode with
    | .inner => .ok []
    | .left => (projected config none config.projections left).map (fun enriched => [enriched])
  else (takenOf config builds left).mapM (fun right => projected config (some right) config.projections left)

def nestedRows : List Value -> Except FaucetError (List Value)
  | [] => .ok []
  | left :: records => do
      let enriched <- nestedRow config builds left
      let others <- nestedRows records
      pure (enriched ++ others)

/-- The pages that come out before the first error, and that error. -/
def nestedPages : List Pipeline.StreamPage -> List Pipeline.StreamPage × Except FaucetError Unit
  | [] => ([], .ok ())
  | page :: pages =>
      match nestedRows config builds page.records with
      | .error error => ([], .error error)
      | .ok records =>
          let (rest, ending) := nestedPages pages
          (⟨records, page.bookmark⟩ :: rest, ending)

/-- The keys that more than one build record has. -/
def repeated (keys : List String) : Finset String := keys.toFinset.filter (fun key => 2 ≤ keys.count key)

def keysOf : List String := builds.filterMap (keyAt config.keyNormalize config.buildKey)

/-- The projections that find nothing on a build record. -/
def absent (right : Value) : Nat :=
  config.projections.countP (fun projection => (copied config (some right) projection).isNone)

/-- The counters of a join of `builds` with `probes`. -/
def statsOf (probes : List Value) : JoinStats where
  buildRecords := builds.length
  buildNulls := builds.countP (fun record => (keyAt config.keyNormalize config.buildKey record).isNone)
  duplicates := (repeated (keysOf config builds)).card
  probeRecords := probes.length
  matched := probes.countP (fun left => !(matchesOf config builds left).isEmpty)
  missed := probes.countP (fun left => (matchesOf config builds left).isEmpty)
  projectMisses := (probes.map (fun left => ((takenOf config builds left).map (absent config)).sum)).sum

/-- The whole join of `builds` with the pages of the probe side. -/
def nestedLoop (node : String) (failure : Option (String × String)) (cancelled : Bool)
    (pages : List Pipeline.StreamPage) : List Pipeline.StreamPage × Except FaucetError (Option JoinStats) :=
  if config.maxBuildRecords < builds.length then ([], .error (buildOverflow config))
  else
    match failure with
    | some (failed, error) => ([], .error (buildSideFailed node failed error))
    | none =>
        if cancelled then ([], .ok none)
        else ((nestedPages config builds pages).1, (nestedPages config builds pages).2.map
          (fun _ => some (statsOf config builds (pages.flatMap Pipeline.StreamPage.records))))

end Specification

/-! ## Keys -/

theorem tagged_ne {front other : String} (apart : front.toList.head? ≠ other.toList.head?)
    (tagged : front.toList ≠ []) (otherTagged : other.toList ≠ []) (left right : String) :
    front ++ left ≠ other ++ right := by
  intro same
  have chars : (front ++ left).toList.head? = (other ++ right).toList.head? := by rw [same]
  rw [String.toList_append, String.toList_append, List.head?_append_of_ne_nil _ tagged,
    List.head?_append_of_ne_nil _ otherTagged] at chars
  exact apart chars

theorem boolText_inj : forall left right : Bool, (Value.bool left).text = (Value.bool right).text <-> left = right := by
  decide

theorem exists_key_iff {right left : String} :
    (exists key, some right = some key ∧ some left = some key) <-> right = left := by
  constructor
  · rintro ⟨key, first, second⟩
    rw [Option.some_inj.mp first, Option.some_inj.mp second]
  · rintro rfl
    exact ⟨right, rfl, rfl⟩

/-- Two values are one key when the index has them under one key. -/
theorem sameKey_iff (mode : KeyNormalize) (right left : Value) : sameKey mode right left = true <->
    exists key, canonicalKey right mode = some key ∧ canonicalKey left mode = some key := by
  cases mode with
  | preserve =>
      cases right <;> cases left <;>
        simp only [sameKey, canonicalKey, exists_key_iff, String.append_right_inj, boolText_inj, beq_iff_eq,
          Bool.false_eq_true, reduceCtorEq, false_and, and_false, exists_false]
      all_goals exact ⟨False.elim, tagged_ne (by decide) (by decide) (by decide) _ _⟩
  | stringify =>
      cases right <;> cases left <;>
        simp only [sameKey, isScalar, canonicalKey, keyScalarText, exists_key_iff, boolText_inj, beq_iff_eq,
          Bool.true_and, Bool.false_and, Bool.and_false, Bool.and_true,
          Bool.false_eq_true, reduceCtorEq, false_and, and_false, exists_false]

/-! ## The index -/

section Index

variable {config : JoinConfig} {builds : List Value}

theorem keyAt_eq_some {path : String} {record : Value} {mode : KeyNormalize} {key : String} :
    keyAt mode path record = some key <->
      exists value, getPath record path = some value ∧ canonicalKey value mode = some key := by
  unfold keyAt
  cases getPath record path with
  | none =>
      constructor
      · intro impossible
        cases impossible
      · rintro ⟨value, impossible, _⟩
        cases impossible
  | some value =>
      rw [Option.filter_some]
      cases value with
      | null =>
          constructor
          · intro impossible
            cases impossible
          · rintro ⟨_, ⟨⟩, impossible⟩
            cases mode <;> cases impossible
      | _ =>
          constructor
          · intro found
            exact ⟨_, rfl, found⟩
          · rintro ⟨_, ⟨⟩, found⟩
            exact found

theorem joins_iff (right left : Value) : joins config right left = true <->
    exists key, keyAt config.keyNormalize config.buildKey right = some key ∧
      keyAt config.keyNormalize config.probeKey left = some key := by
  simp only [keyAt_eq_some]
  unfold joins
  cases getPath right config.buildKey with
  | none =>
      constructor
      · intro impossible
        cases impossible
      · rintro ⟨key, ⟨value, impossible, _⟩, _⟩
        cases impossible
  | some first =>
      cases getPath left config.probeKey with
      | none =>
          constructor
          · intro impossible
            cases impossible
          · rintro ⟨key, _, ⟨value, impossible, _⟩⟩
            cases impossible
      | some second =>
          dsimp only
          rw [sameKey_iff]
          constructor
          · rintro ⟨key, one, other⟩
            exact ⟨key, ⟨first, rfl, one⟩, ⟨second, rfl, other⟩⟩
          · rintro ⟨key, ⟨_, ⟨⟩, one⟩, ⟨_, ⟨⟩, other⟩⟩
            exact ⟨key, one, other⟩

/-- One more key is repeated when it was there once before. -/
theorem card_repeated (keys : List String) (key : String) :
    (repeated (keys ++ [key])).card = (repeated keys).card + (if keys.count key = 1 then 1 else 0) := by
  have counted : forall other, (keys ++ [key]).count other = keys.count other + (if other = key then 1 else 0) := by
    intro other
    rw [List.count_append, List.count_singleton]
    by_cases same : other = key
    · rw [if_pos same, if_pos (beq_iff_eq.mpr same.symm)]
    · rw [if_neg same, if_neg (fun equal => same (beq_iff_eq.mp equal).symm)]
  have mem_repeated : forall (all : List String) other, other ∈ repeated all <-> 2 ≤ all.count other := by
    intro all other
    unfold repeated
    rw [Finset.mem_filter, List.mem_toFinset]
    refine ⟨And.right, fun twice => ⟨?_, twice⟩⟩
    exact List.count_pos_iff.mp (lt_of_lt_of_le Nat.zero_lt_two twice)
  by_cases once : keys.count key = 1
  · have grown : repeated (keys ++ [key]) = insert key (repeated keys) := by
      ext other
      rw [Finset.mem_insert, mem_repeated, mem_repeated, counted]
      by_cases same : other = key
      · rw [if_pos same, same, once]
        exact ⟨fun _ => Or.inl rfl, fun _ => le_refl 2⟩
      · rw [if_neg same]
        exact ⟨Or.inr, fun either => either.resolve_left same⟩
    have fresh : key ∉ repeated keys := by
      rw [mem_repeated]
      omega
    rw [grown, Finset.card_insert_of_notMem fresh, if_pos once]
  · have same : repeated (keys ++ [key]) = repeated keys := by
      ext other
      rw [mem_repeated, mem_repeated, counted]
      by_cases same : other = key
      · rw [if_pos same, same]
        omega
      · rw [if_neg same]
        rfl
    rw [same, if_neg once]
    rfl

end Index

/-! ## The build side -/

section Build

variable (config : JoinConfig) (builds probes : List Value)

/-- The build records under a key. -/
def under (key : String) : List Value :=
  builds.filter (fun record => keyAt config.keyNormalize config.buildKey record == some key)

/-- The join after these build records and these probe records. -/
def joinOf : HashJoin := ⟨config, under config builds, statsOf config builds probes⟩

variable {config builds}

theorem under_snoc (record : Value) : under config (builds ++ [record]) =
    (keyAt config.keyNormalize config.buildKey record).elim (under config builds)
      (fun key => Function.update (under config builds) key (under config builds key ++ [record])) := by
  funext key
  unfold under
  rw [List.filter_append, List.filter_singleton]
  cases known : keyAt config.keyNormalize config.buildKey record with
  | none => exact List.append_nil _
  | some other =>
      rw [Option.elim_some]
      by_cases same : key = other
      · rw [same, Function.update_self, beq_self_eq_true]
        rfl
      · rw [Function.update_of_ne same, beq_eq_false_iff_ne.mpr (fun equal => same (Option.some_inj.mp equal).symm)]
        exact List.append_nil _

theorem count_keysOf (key : String) : (keysOf config builds).count key = (under config builds key).length := by
  unfold keysOf under
  rw [List.count_filterMap, List.countP_eq_length_filter]

theorem statsOf_snoc (record : Value) : statsOf config (builds ++ [record]) [] =
    { statsOf config builds [] with
      buildRecords := builds.length + 1
      buildNulls := builds.countP (fun record => (keyAt config.keyNormalize config.buildKey record).isNone) +
        (if (keyAt config.keyNormalize config.buildKey record).isNone then 1 else 0)
      duplicates := (repeated (keysOf config (builds ++ [record]))).card } := by
  unfold statsOf
  rw [List.length_append, List.countP_append, List.countP_singleton]
  rfl

/-- One build record. -/
theorem addBuildRecord_joinOf (record : Value) : (joinOf config builds []).addBuildRecord record =
    if config.maxBuildRecords < builds.length + 1 then .error (buildOverflow config)
    else .ok (joinOf config (builds ++ [record]) []) := by
  unfold HashJoin.addBuildRecord joinOf
  rw [under_snoc, statsOf_snoc]
  unfold keysOf
  rw [List.filterMap_append]
  cases known : keyAt config.keyNormalize config.buildKey record with
  | none =>
      rw [List.filterMap_cons_none known, List.filterMap_nil, List.append_nil]
      rfl
  | some key =>
      rw [List.filterMap_cons_some known, List.filterMap_nil, card_repeated, ← keysOf, count_keysOf]
      dsimp only
      by_cases once : (under config builds key).length = 1
      · rw [if_pos once, if_pos once]
        rfl
      · rw [if_neg once, if_neg once]
        rfl

/-- A run of build records, by induction on it. -/
theorem addBuildPage_joinOf (room : builds.length ≤ config.maxBuildRecords) (records : List Value) :
    (joinOf config builds []).addBuildPage records =
      if config.maxBuildRecords < builds.length + records.length then .error (buildOverflow config)
      else .ok (joinOf config (builds ++ records) []) := by
  unfold HashJoin.addBuildPage
  induction records generalizing builds with
  | nil =>
      rw [List.append_nil]
      exact (if_neg (Nat.not_lt.mpr room)).symm
  | cons record records ih =>
      rw [List.foldlM_cons, addBuildRecord_joinOf]
      by_cases full : config.maxBuildRecords < builds.length + 1
      · rw [if_pos full, if_pos (by rw [List.length_cons]; omega)]
        rfl
      · have next := @ih (builds ++ [record]) (by rw [List.length_append]; exact Nat.not_lt.mp full)
        rw [List.length_append, List.append_assoc, Nat.add_assoc, Nat.add_comm [record].length] at next
        rw [if_neg full]
        exact next

/-- The whole build side: how it is cut into pages does not count. -/
theorem buildPages_joinOf (pages : List (List Value)) :
    pages.foldlM HashJoin.addBuildPage (HashJoin.new config) =
      if config.maxBuildRecords < pages.flatten.length then .error (buildOverflow config)
      else .ok (joinOf config pages.flatten []) := by
  have whole : forall join : HashJoin, pages.foldlM HashJoin.addBuildPage join = join.addBuildPage pages.flatten := by
    unfold HashJoin.addBuildPage
    induction pages with
    | nil => exact fun _ => rfl
    | cons page pages ih =>
        intro join
        rw [List.foldlM_cons, List.flatten_cons, List.foldlM_append]
        exact congrArg _ (funext ih)
  have all := @addBuildPage_joinOf config [] (Nat.zero_le _) pages.flatten
  rw [List.length_nil, Nat.zero_add, List.nil_append] at all
  exact (whole _).trans all

end Build

/-! ## The probe side -/

section Probe

variable {config : JoinConfig} {builds probes : List Value}

def JoinStats.addMisses (stats : JoinStats) (count : Nat) : JoinStats :=
  { stats with projectMisses := stats.projectMisses + count }

theorem JoinStats.addMisses_add (stats : JoinStats) (first second : Nat) :
    (stats.addMisses first).addMisses second = stats.addMisses (first + second) := by
  unfold addMisses
  rw [Nat.add_assoc]

theorem applyProjection_eq (right : Option Value) (projections : List Projection) (stats : JoinStats) (left : Value) :
    applyProjection config right projections stats left =
      (projected config right projections left).map (fun enriched => (enriched,
        stats.addMisses (projections.countP (fun projection => (copied config right projection).isNone)))) := by
  induction projections generalizing stats left with
  | nil => rfl
  | cons projection projections ih =>
      unfold applyProjection projected
      rw [List.countP_cons]
      change (match copied config right projection with | none => _ | some value => _) = _
      cases found : copied config right projection with
      | none =>
          dsimp only
          rw [ih, Option.isNone_none, if_pos rfl, Nat.add_comm (projections.countP _),
            ← JoinStats.addMisses_add]
          rfl
      | some value =>
          dsimp only
          cases setField left projection.name value config.onCollision with
          | error error => rfl
          | ok enriched => exact ih stats enriched

theorem enrichAll_eq (left : Value) (rights : List Value) (stats : JoinStats) :
    HashJoin.enrichAll config left rights stats =
      (rights.mapM (fun right => projected config (some right) config.projections left)).map
        (fun rows => (rows, stats.addMisses (rights.map (absent config)).sum)) := by
  induction rights generalizing stats with
  | nil => rfl
  | cons right rights ih =>
      unfold HashJoin.enrichAll
      rw [applyProjection_eq, List.mapM_cons, List.map_cons, List.sum_cons]
      cases projected config (some right) config.projections left with
      | error error => rfl
      | ok enriched =>
          change (HashJoin.enrichAll config left rights (stats.addMisses (absent config right))).bind
            (fun others => .ok (enriched :: others.1, others.2)) = _
          rw [ih, JoinStats.addMisses_add]
          cases rights.mapM (fun right => projected config (some right) config.projections left) with
          | error error => rfl
          | ok rows => rfl

/-- The bucket of a probe record is what it matches. -/
theorem under_eq_matchesOf (left : Value) :
    (keyAt config.keyNormalize config.probeKey left).elim [] (under config builds) = matchesOf config builds left := by
  unfold matchesOf
  cases key : keyAt config.keyNormalize config.probeKey left with
  | none =>
      refine (List.filter_eq_nil_iff.mpr (fun right _ matched => ?_)).symm
      rcases (joins_iff right left).mp matched with ⟨_, _, found⟩
      rw [key] at found
      cases found
  | some key' =>
      refine List.filter_congr (fun right _ => ?_)
      rw [Bool.eq_iff_iff, beq_iff_eq, joins_iff, key]
      constructor
      · intro same
        exact ⟨key', same, rfl⟩
      · rintro ⟨_, same, ⟨⟩⟩
        exact same

theorem statsOf_probe (left : Value) : statsOf config builds (probes ++ [left]) =
    { (statsOf config builds probes).addMisses ((takenOf config builds left).map (absent config)).sum with
      probeRecords := probes.length + 1
      matched := (statsOf config builds probes).matched + (if (matchesOf config builds left).isEmpty then 0 else 1)
      missed := (statsOf config builds probes).missed +
        (if (matchesOf config builds left).isEmpty then 1 else 0) } := by
  unfold statsOf JoinStats.addMisses
  rw [List.length_append, List.countP_append, List.countP_append, List.countP_singleton, List.countP_singleton,
    List.map_append, List.sum_append, List.map_singleton, List.sum_singleton]
  cases (matchesOf config builds left).isEmpty <;> rfl

/-- What stands for a missing record is always there. -/
theorem countP_copied_none (projections : List Projection) :
    projections.countP (fun projection => (copied config none projection).isNone) = 0 :=
  List.countP_eq_zero.mpr (fun _ _ => Bool.false_ne_true)

/-- One probe record. -/
theorem probeRecord_joinOf (left : Value) : (joinOf config builds probes).probeRecord left =
    (nestedRow config builds left).map (fun rows => (rows, joinOf config builds (probes ++ [left]))) := by
  unfold nestedRow HashJoin.probeRecord joinOf
  rw [statsOf_probe]
  unfold takenOf
  dsimp only
  rw [under_eq_matchesOf left]
  cases empty : (matchesOf config builds left).isEmpty with
  | true =>
      have taken : config.onDuplicate.taken (matchesOf config builds left) = [] := by
        rw [List.isEmpty_iff.mp empty]
        cases config.onDuplicate <;> rfl
      rw [if_pos rfl, if_pos rfl, taken]
      cases config.mode with
      | inner => rfl
      | left =>
          rw [applyProjection_eq, countP_copied_none]
          cases projected config none config.projections left <;> rfl
  | false =>
      rw [if_neg Bool.false_ne_true, if_neg Bool.false_ne_true, enrichAll_eq]
      cases (config.onDuplicate.taken (matchesOf config builds left)).mapM
        (fun right => projected config (some right) config.projections left) <;> rfl

theorem probePage_joinOf (records : List Value) : (joinOf config builds probes).probePage records =
    (nestedRows config builds records).map (fun rows => (rows, joinOf config builds (probes ++ records))) := by
  induction records generalizing probes with
  | nil =>
      rw [List.append_nil]
      rfl
  | cons left records ih =>
      unfold HashJoin.probePage nestedRows
      rw [probeRecord_joinOf]
      cases nestedRow config builds left with
      | error error => rfl
      | ok enriched =>
          change Except.bind ((joinOf config builds (probes ++ [left])).probePage records) _ =
            (Except.bind (nestedRows config builds records) _).map _
          rw [ih, List.append_assoc]
          cases nestedRows config builds records <;> rfl

theorem probePages_joinOf (pages : List Pipeline.StreamPage) :
    (joinOf config builds probes).probePages pages = ((nestedPages config builds pages).1,
      (nestedPages config builds pages).2.map
        (fun _ => statsOf config builds (probes ++ pages.flatMap Pipeline.StreamPage.records))) := by
  induction pages generalizing probes with
  | nil =>
      rw [List.flatMap_nil, List.append_nil]
      rfl
  | cons page pages ih =>
      unfold HashJoin.probePages nestedPages
      rw [probePage_joinOf]
      cases nestedRows config builds page.records with
      | error error => rfl
      | ok records =>
          change (_ :: ((joinOf config builds (probes ++ page.records)).probePages pages).1,
            ((joinOf config builds (probes ++ page.records)).probePages pages).2) = _
          rw [ih, List.flatMap_cons, List.append_assoc]

end Probe

/-- A join node does what a nested loop over all its build and probe records
does, with the same counters, however the two sides are cut into pages.  It
forwards nothing when the build side is too large or was cut short. -/
theorem joinNode_eq_nestedLoop (node : String) (config : JoinConfig) (buildPages : List (List Value))
    (failure : Option (String × String)) (cancelled : Bool) (pages : List Pipeline.StreamPage) :
    joinNode node config buildPages failure cancelled pages =
      nestedLoop config buildPages.flatten node failure cancelled pages := by
  unfold joinNode nestedLoop
  rw [buildPages_joinOf]
  by_cases full : config.maxBuildRecords < buildPages.flatten.length
  · rw [if_pos full, if_pos full]
  · rw [if_neg full, if_neg full]
    cases failure with
    | some failed => rfl
    | none =>
        cases cancelled with
        | true => rfl
        | false =>
            dsimp only
            rw [if_neg Bool.false_ne_true, if_neg Bool.false_ne_true, probePages_joinOf, List.nil_append]
            cases (nestedPages config buildPages.flatten pages).2 <;> rfl

end Topology
end FaucetStream
