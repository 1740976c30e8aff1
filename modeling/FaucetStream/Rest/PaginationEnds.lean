import FaucetStream.Library.Descent
import FaucetStream.Replication.TotalOrder
import FaucetStream.Rest.Pagination

namespace FaucetStream
namespace Rest

open Json
open Library
open Replication

/-!
# Pagination ends

A server that has only finitely many answers cannot keep a walk going as long
as every page is checked by something: a token that was followed before, a
content that was met before, a total that the offset reaches, or a cursor that
only moves forward.  An offset walk that was told where to find a total trusts
it, also on pages that do not hold it.  A keyset walk trusts the order of its
values, which may run in a circle, and pages that lack the field.
-/

/-- An answer of the server, with the records taken from it. -/
structure Response where
  body : Value
  headers : Headers
  recordCount : Nat
  records : List Value
  recordsFingerprint : Option UInt64

variable (libs : Libraries) {Moment : Type} [LinearOrder Moment] (chrono : Chrono Moment)

/-- The state once the records of an answer are taken in. -/
def takenIn (style : PaginationStyle) (response : Response) (state : PaginationState) : PaginationState :=
  (style.keysetPage chrono response.records
    { state with currentRecordsFingerprint := response.recordsFingerprint }).2

/-- What the source does with one answer. -/
def turn (style : PaginationStyle) (response : Response) (state : PaginationState) :
    Except FaucetError (Bool × PaginationState) :=
  style.advance libs response.body response.headers (takenIn chrono style response state) response.recordCount

/-- The state in which the next page is asked for. -/
def goesOn (style : PaginationStyle) (response : Response) (state : PaginationState) : Option PaginationState :=
  match turn libs chrono style response state with
  | .ok (true, next) => some next
  | _ => none

/-- The turns after which another page is asked for. -/
def pagesFollowed (style : PaginationStyle) (responses : Nat -> Response) (seed : Option String) : Set Nat :=
  {count | (stateAt (goesOn libs chrono style) responses (.start seed false) (count + 1)).isSome = true}

/-! ## What checks a page -/

/-- A page with rows that an offset walk with a total goes past unchecked: the
total cannot be read. -/
def TotalMissing (limit : Nat) (totalPath : String) (rowsPath : Option String) (stopWhenShort : Bool)
    (response : Response) : Prop :=
  (exists results, libs.query response.body totalPath = .ok results) ∧
  totalReadable libs response.body (some totalPath) = false ∧
  exists count, countOf libs response.body rowsPath response.recordCount = .ok count ∧ count ≠ 0 ∧
    ¬ (stopWhenShort = true ∧ count < limit)

/-- A page that does not end a keyset walk by its size. -/
def Full (stopWhenShort : Bool) (pageSize : Nat) (response : Response) : Prop :=
  response.recordCount ≠ 0 ∧ ¬ (stopWhenShort = true ∧ response.recordCount < pageSize)

/-- The records a keyset walk that stands at a value keeps of a page. -/
def keptAt (field : String) (inclusive : Bool) (low : Value) (records : List Value) (emitted : Multiset String) :
    List Value :=
  if inclusive then (dropEmitted field low records emitted).1 else records

/-- A full page moves the cursor from a value to another. -/
def Overtakes (field : String) (agg : RecordCursorAgg) (stopWhenShort : Bool) (pageSize : Nat) (inclusive : Bool)
    (server : List Response) (low high : Value) : Prop :=
  exists response, response ∈ server ∧ Full stopWhenShort pageSize response ∧
    exists emitted, pageAggregate chrono field agg (keptAt field inclusive low response.records emitted) = some high ∧
      wins chrono agg high low = true ∧ valueToParamString high ≠ valueToParamString low

/-- Every page is checked: the total can be read wherever it is trusted, every
full page holds the cursor field, and no pages move the cursor in a circle. -/
def Guarded (style : PaginationStyle) (server : List Response) : Prop :=
  match style with
  | .offset limit (some totalPath) rowsPath stopWhenShort =>
      forall response, response ∈ server -> ¬ TotalMissing libs limit totalPath rowsPath stopWhenShort response
  | .recordFieldCursor field agg stopWhenShort pageSize inclusive =>
      (forall response, response ∈ server -> Full stopWhenShort pageSize response ->
        response.records.filterMap (fun record => record.get field) ≠ []) ∧
      forall value, ¬ Relation.TransGen
        (Overtakes chrono field agg stopWhenShort pageSize inclusive server) value value
  | _ => True

/-! ## Tokens -/

section Ends

variable {libs chrono} {style : PaginationStyle} {server : List Response} {responses : Nat -> Response}

variable {state next : PaginationState}

theorem followToken_true {token : String} (followed : followToken token state = (true, next)) :
    token ∉ state.seenTokens ∧ next.seenTokens = insert token state.seenTokens := by
  unfold followToken PaginationState.tokenRepeats at followed
  by_cases known : some token = state.previousToken ∨ token ∈ state.seenTokens
  · simp only [if_pos known] at followed
    cases followed
  · simp only [if_neg known] at followed
    cases followed
    exact ⟨fun seen => known (Or.inr seen), rfl⟩

theorem goesOn_eq_some {response : Response} (moved : goesOn libs chrono style response state = some next) :
    turn libs chrono style response state = .ok (true, next) := by
  unfold goesOn at moved
  cases turned : turn libs chrono style response state with
  | error error =>
      rw [turned] at moved
      cases moved
  | ok result =>
      rcases result with ⟨more, after⟩
      rw [turned] at moved
      cases more with
      | false => cases moved
      | true => rw [Option.some.inj moved]

/-- A walk that follows a new token of the page at every turn. -/
theorem stops_of_tokens (drawn : forall count, responses count ∈ server) (token : Response -> Option String)
    (follows : forall response state next, turn libs chrono style response state = .ok (true, next) ->
      exists followed, token response = some followed ∧ followed ∉ state.seenTokens ∧
        state.seenTokens ⊆ next.seenTokens ∧ followed ∈ next.seenTokens)
    (begins : PaginationState) :
    exists count, stateAt (goesOn libs chrono style) responses begins count = none := by
  apply stops_of_measure (fun _ => True)
    (fun state => unseen (server.filterMap token).toFinset state.seenTokens)
  · intro count state next _ moved
    rcases follows (responses count) state next (goesOn_eq_some moved) with ⟨followed, found, fresh, kept, met⟩
    have known : followed ∈ (server.filterMap token).toFinset :=
      List.mem_toFinset.mpr (List.mem_filterMap.mpr ⟨responses count, drawn count, found⟩)
    exact ⟨trivial, unseen_lt known fresh kept met⟩
  · trivial

theorem cursor_stops (path : String) (drawn : forall count, responses count ∈ server)
    (same : forall response state, turn libs chrono style response state =
      advanceCursor libs response.body path
        { state with currentRecordsFingerprint := response.recordsFingerprint })
    (begins : PaginationState) : exists count, stateAt (goesOn libs chrono style) responses begins count = none := by
  apply stops_of_tokens drawn (fun response => (nextTokenAt libs response.body path).toOption.join)
  intro response state next turned
  rw [same] at turned
  unfold advanceCursor at turned
  cases found : nextTokenAt libs response.body path with
  | error error =>
      rw [found] at turned
      cases turned
  | ok token =>
      rw [found] at turned
      cases token with
      | none => cases turned
      | some token =>
          rcases followToken_true (Except.ok.inj turned) with ⟨fresh, kept⟩
          refine ⟨token, rfl, fresh, ?_, ?_⟩
          · rw [kept]
            exact Finset.subset_insert token _
          · rw [kept]
            exact Finset.mem_insert_self token _

theorem seenTokens_noteRequestUrl (state : PaginationState) (headers : Headers) :
    state.seenTokens ⊆ (state.noteRequestUrl headers).seenTokens := by
  unfold PaginationState.noteRequestUrl
  cases headers.requestUrl with
  | none => exact Finset.Subset.refl _
  | some url => exact Finset.subset_insert url _

/-- A link is followed after the URL of its own page is noted. -/
theorem followToken_noted {link : String} {headers : Headers}
    (followed : followToken link (state.noteRequestUrl headers) = (true, next)) :
    link ∉ state.seenTokens ∧ state.seenTokens ⊆ next.seenTokens ∧ link ∈ next.seenTokens := by
  rcases followToken_true followed with ⟨fresh, kept⟩
  have noted := seenTokens_noteRequestUrl state headers
  rw [kept]
  exact ⟨fun seen => fresh (noted seen), noted.trans (Finset.subset_insert link _), Finset.mem_insert_self link _⟩

theorem linkHeader_stops (drawn : forall count, responses count ∈ server) (begins : PaginationState) :
    exists count, stateAt (goesOn libs chrono .linkHeader) responses begins count = none := by
  apply stops_of_tokens drawn (fun response =>
    (extractNextLink response.headers).bind (fun link => (resolveAgainstRequest libs response.headers link).toOption))
  intro response state next turned
  change advanceLinkHeader libs response.headers
    { state with currentRecordsFingerprint := response.recordsFingerprint } = _ at turned
  unfold advanceLinkHeader at turned
  cases found : extractNextLink response.headers with
  | none =>
      rw [found] at turned
      cases turned
  | some link =>
      simp only [found] at turned
      cases resolved : resolveAgainstRequest libs response.headers link with
      | error error =>
          rw [resolved] at turned
          cases turned
      | ok target =>
          simp only [resolved] at turned
          split at turned
          · cases turned
          · rename_i after followed
            cases turned
            have moved := followToken_noted followed
            refine ⟨target, ?_, moved⟩
            rw [Option.bind_some, resolved]
            rfl

theorem nextLinkInBody_stops (path : String) (drawn : forall count, responses count ∈ server)
    (begins : PaginationState) :
    exists count, stateAt (goesOn libs chrono (.nextLinkInBody path)) responses begins count = none := by
  apply stops_of_tokens drawn (fun response =>
    ((nextLinkAt libs response.body path).toOption.join).bind (fun link =>
      (resolveAgainstRequest libs response.headers link).toOption))
  intro response state next turned
  change advanceNextLink libs response.body response.headers path
    { state with currentRecordsFingerprint := response.recordsFingerprint } = _ at turned
  unfold advanceNextLink at turned
  cases found : nextLinkAt libs response.body path with
  | error error =>
      rw [found] at turned
      cases turned
  | ok token =>
      cases token with
      | none =>
          rw [found] at turned
          cases turned
      | some link =>
          simp only [found] at turned
          cases resolved : resolveAgainstRequest libs response.headers link with
          | error error =>
              rw [resolved] at turned
              cases turned
          | ok target =>
              simp only [resolved] at turned
              have moved := followToken_noted (Except.ok.inj turned)
              refine ⟨target, ?_, moved⟩
              change (resolveAgainstRequest libs response.headers link).toOption = some target
              rw [resolved]
              rfl

/-! ## Page contents -/

/-- The fingerprint a page is compared by. -/
def pageFingerprint (libs : Libraries) (response : Response) : UInt64 :=
  response.recordsFingerprint.getD (bodyFingerprint libs response.body)

theorem guardPage_true {name : String} {body : Value}
    (passed : guardPage libs name body state = .ok (true, next)) (refuses : state.allowRepeatedPages = false) :
    let fingerprint := state.currentRecordsFingerprint.getD (bodyFingerprint libs body)
    fingerprint ∉ state.seenPageFingerprints ∧
      next.seenPageFingerprints = insert fingerprint state.seenPageFingerprints ∧ next.allowRepeatedPages = false := by
  intro fingerprint
  unfold guardPage PaginationState.pageRepeats at passed
  by_cases adjacent : state.previousPageFingerprint = some fingerprint
  · simp only [fingerprint, adjacent, if_true] at passed
    cases passed
  · by_cases seen : fingerprint ∈ state.seenPageFingerprints
    · have known : ¬ (fingerprint ∉ state.seenPageFingerprints ∨ state.allowRepeatedPages = true) := by
        rw [refuses]
        rintro (fresh | allowed)
        · exact fresh seen
        · cases allowed
      simp only [fingerprint, if_neg adjacent, if_neg known] at passed
      cases passed
    · have fresh : fingerprint ∉ state.seenPageFingerprints ∨ state.allowRepeatedPages = true := Or.inl seen
      simp only [fingerprint, if_neg adjacent, if_pos fresh] at passed
      cases passed
      exact ⟨seen, rfl, refuses⟩

/-- A walk that meets a new page content at every turn. -/
theorem stops_of_contents (drawn : forall count, responses count ∈ server)
    (meets : forall response state next, state.allowRepeatedPages = false ->
      turn libs chrono style response state = .ok (true, next) ->
      pageFingerprint libs response ∉ state.seenPageFingerprints ∧
        next.seenPageFingerprints = insert (pageFingerprint libs response) state.seenPageFingerprints ∧
        next.allowRepeatedPages = false)
    {begins : PaginationState} (refuses : begins.allowRepeatedPages = false) :
    exists count, stateAt (goesOn libs chrono style) responses begins count = none := by
  apply stops_of_measure (fun state => state.allowRepeatedPages = false)
    (fun state => unseen (server.map (pageFingerprint libs)).toFinset state.seenPageFingerprints)
  · intro count state next refused moved
    rcases meets (responses count) state next refused (goesOn_eq_some moved) with ⟨fresh, kept, still⟩
    have known : pageFingerprint libs (responses count) ∈ (server.map (pageFingerprint libs)).toFinset :=
      List.mem_toFinset.mpr (List.mem_map.mpr ⟨responses count, drawn count, rfl⟩)
    refine ⟨still, unseen_lt known fresh ?_ ?_⟩
    · rw [kept]
      exact Finset.subset_insert _ _
    · rw [kept]
      exact Finset.mem_insert_self _ _
  · exact refuses

theorem pageNumber_stops (drawn : forall count, responses count ∈ server) {begins : PaginationState}
    (refuses : begins.allowRepeatedPages = false) :
    exists count, stateAt (goesOn libs chrono .pageNumber) responses begins count = none := by
  apply stops_of_contents drawn _ refuses
  intro response state next refused turned
  change advancePageNumber libs response.body
    { state with currentRecordsFingerprint := response.recordsFingerprint } response.recordCount = _ at turned
  unfold advancePageNumber at turned
  by_cases blank : response.recordCount = 0
  · simp only [if_pos blank] at turned
    cases turned
  · simp only [if_neg blank] at turned
    exact guardPage_true turned refused

theorem offsetInBody_stops (limit : Nat) (stopWhenShort : Bool) (rowsPath totalPath : Option String)
    (drawn : forall count, responses count ∈ server) {begins : PaginationState}
    (refuses : begins.allowRepeatedPages = false) :
    exists count, stateAt (goesOn libs chrono (.offsetInBody limit stopWhenShort rowsPath totalPath)) responses
      begins count = none := by
  apply stops_of_contents drawn _ refuses
  intro response state next refused turned
  change advanceOffsetInBody libs limit stopWhenShort rowsPath totalPath response.body
    { state with currentRecordsFingerprint := response.recordsFingerprint } response.recordCount = _ at turned
  unfold advanceOffsetInBody at turned
  split at turned
  · cases turned
  · split at turned
    · cases turned
    · simp only at turned
      split at turned
      · cases turned
      · split at turned
        · cases turned
        · exact guardPage_true turned refused
      · split at turned
        · cases turned
        · exact guardPage_true turned refused

theorem offset_stops (limit : Nat) (rowsPath : Option String) (stopWhenShort : Bool)
    (drawn : forall count, responses count ∈ server) {begins : PaginationState}
    (refuses : begins.allowRepeatedPages = false) :
    exists count, stateAt (goesOn libs chrono (.offset limit none rowsPath stopWhenShort)) responses
      begins count = none := by
  apply stops_of_contents drawn _ refuses
  intro response state next refused turned
  change advanceOffset libs limit none rowsPath stopWhenShort response.body
    { state with currentRecordsFingerprint := response.recordsFingerprint } response.recordCount = _ at turned
  unfold advanceOffset at turned
  split at turned
  · cases turned
  · split at turned
    · cases turned
    · simp only at turned
      split at turned
      · exact guardPage_true turned refused
      · cases turned

/-! ## Totals -/

/-- The total on a page. -/
def totalOn (libs : Libraries) (totalPath : String) (response : Response) : Option Nat :=
  match libs.query response.body totalPath with
  | .error _ => none
  | .ok results => results.head?.bind Value.asU64

theorem totalReadable_eq (libs : Libraries) (totalPath : String) (response : Response) :
    totalReadable libs response.body (some totalPath) = (totalOn libs totalPath response).isSome := by
  unfold totalReadable totalOn
  simp only
  cases libs.query response.body totalPath <;> rfl

/-- What an offset walk with a total does at a page with rows. -/
theorem advanceOffset_total (limit : Nat) {totalPath : String} {rowsPath : Option String} (stopWhenShort : Bool)
    {response : Response} (state : PaginationState) {count : Nat} {results : List Value}
    (counted : countOf libs response.body rowsPath response.recordCount = .ok count) (filled : count ≠ 0)
    (queried : libs.query response.body totalPath = .ok results) :
    advanceOffset libs limit (some totalPath) rowsPath stopWhenShort response.body state response.recordCount =
      .ok ((totalOn libs totalPath response).elim (!(stopWhenShort && decide (count < limit)))
          (fun total => decide (state.offset + count < total)),
        { state with offset := state.offset + count }) := by
  have found : totalOn libs totalPath response = results.head?.bind Value.asU64 := by
    unfold totalOn
    rw [queried]
  have readable := totalReadable_eq libs totalPath response
  unfold advanceOffset offsetAdvance stopsShort
  rw [readable, found]
  simp only [counted, if_neg filled, queried]
  cases results.head?.bind Value.asU64 with
  | none =>
      simp only [Option.isSome_none, Bool.not_false, Bool.and_true, Bool.true_and, Option.elim_none]
      cases stopWhenShort && decide (count < limit) <;> rfl
  | some total =>
      simp only [Option.isSome_some, Bool.not_true, Bool.and_false, Bool.not_false, Bool.and_true, Option.elim_some]
      cases decide (state.offset + count < total) <;> rfl

/-- A page after which an offset walk with a total goes on: the offset is below
the total, or the total is missing. -/
theorem advanceOffset_true {limit : Nat} {totalPath : String} {rowsPath : Option String} {stopWhenShort : Bool}
    {response : Response}
    (turned : advanceOffset libs limit (some totalPath) rowsPath stopWhenShort response.body state
      response.recordCount = .ok (true, next)) :
    TotalMissing libs limit totalPath rowsPath stopWhenShort response ∨
      exists total, totalOn libs totalPath response = some total ∧ state.offset < next.offset ∧
        next.offset < total := by
  cases counted : countOf libs response.body rowsPath response.recordCount with
  | error error =>
      unfold advanceOffset at turned
      rw [counted] at turned
      cases turned
  | ok count =>
      by_cases blank : count = 0
      · unfold advanceOffset offsetAdvance at turned
        simp only [counted, if_pos blank, Bool.false_and, Bool.false_eq_true, if_false] at turned
        cases turned
      · cases queried : libs.query response.body totalPath with
        | error message =>
            unfold advanceOffset offsetAdvance at turned
            simp only [counted, if_neg blank, queried] at turned
            cases turned
        | ok results =>
            rw [advanceOffset_total limit stopWhenShort state counted blank queried] at turned
            rcases Prod.mk.inj (Except.ok.inj turned) with ⟨more, moved⟩
            rw [← moved]
            cases stated : totalOn libs totalPath response with
            | none =>
                left
                rw [stated, Option.elim_none] at more
                refine ⟨⟨results, queried⟩, ?_, count, counted, blank, ?_⟩
                · rw [totalReadable_eq, stated]
                  rfl
                · rintro ⟨stops, short⟩
                  rw [stops, decide_eq_true short] at more
                  cases more
            | some total =>
                right
                rw [stated, Option.elim_some] at more
                exact ⟨total, rfl, Nat.lt_add_of_pos_right (Nat.pos_of_ne_zero blank), of_decide_eq_true more⟩

/-- The offset stays below the totals the server states. -/
theorem offset_total_stops (limit : Nat) (totalPath : String) (rowsPath : Option String) (stopWhenShort : Bool)
    (drawn : forall count, responses count ∈ server)
    (readable : forall response, response ∈ server ->
      ¬ TotalMissing libs limit totalPath rowsPath stopWhenShort response) (begins : PaginationState) :
    exists count, stateAt (goesOn libs chrono (.offset limit (some totalPath) rowsPath stopWhenShort)) responses
      begins count = none := by
  apply stops_of_measure (fun _ => True)
    (fun state => (server.filterMap (totalOn libs totalPath)).sum - state.offset)
  · intro count state next _ moved
    refine ⟨trivial, ?_⟩
    have turned := goesOn_eq_some moved
    change advanceOffset libs limit (some totalPath) rowsPath stopWhenShort (responses count).body
      { state with currentRecordsFingerprint := (responses count).recordsFingerprint } (responses count).recordCount =
        _ at turned
    rcases advanceOffset_true turned with missing | ⟨total, found, rises, below⟩
    · exact absurd missing (readable (responses count) (drawn count))
    · have bound : total ≤ (server.filterMap (totalOn libs totalPath)).sum :=
        List.single_le_sum (fun _ _ => Nat.zero_le _) total
          (List.mem_filterMap.mpr ⟨responses count, drawn count, found⟩)
      have rose : state.offset < next.offset := rises
      omega
  · trivial

/-! ## Keyset cursors -/

section Keyset

variable {field : String} {agg : RecordCursorAgg} {stopWhenShort : Bool} {pageSize : Nat} {inclusive : Bool}

/-- The last token a keyset walk remembers is its cursor. -/
def Synced (state : PaginationState) : Prop :=
  state.previousToken = state.recordFieldCursor.map valueToParamString

/-- The records a keyset walk keeps of a page. -/
def keptOf (field : String) (inclusive : Bool) (records : List Value) (state : PaginationState) : List Value :=
  match state.recordFieldCursor with
  | some low => keptAt field inclusive low records state.recordCursorBoundary
  | none => records

theorem takenIn_recordFieldCursor (chrono : Chrono Moment) (field : String) (agg : RecordCursorAgg)
    (stopWhenShort : Bool) (pageSize : Nat) (inclusive : Bool) (response : Response) (state : PaginationState) :
    let after := takenIn chrono (.recordFieldCursor field agg stopWhenShort pageSize inclusive) response state
    after.recordFieldCursor =
      updateRecordCursor chrono field agg (keptOf field inclusive response.records state) state.recordFieldCursor ∧
    after.previousToken = state.previousToken := by
  unfold takenIn PaginationStyle.keysetPage keptOf keptAt
  cases state.recordFieldCursor with
  | none =>
      cases inclusive with
      | false => exact ⟨rfl, rfl⟩
      | true =>
          simp only
          split <;> exact ⟨rfl, rfl⟩
  | some low =>
      cases inclusive with
      | false => exact ⟨rfl, rfl⟩
      | true =>
          simp only [if_true]
          split <;> exact ⟨rfl, rfl⟩

theorem advanceRecordCursor_true {recordCount : Nat}
    (turned : advanceRecordCursor libs stopWhenShort pageSize state recordCount = .ok (true, next)) :
    recordCount ≠ 0 ∧ ¬ (stopWhenShort = true ∧ recordCount < pageSize) ∧
      next.recordFieldCursor = state.recordFieldCursor ∧ Synced next ∧
      forall cursor, state.recordFieldCursor.map valueToParamString = some cursor ->
        state.previousToken ≠ some cursor := by
  unfold advanceRecordCursor at turned
  by_cases blank : recordCount = 0
  · rw [if_pos blank] at turned
    cases turned
  · rw [if_neg blank] at turned
    by_cases short : (stopWhenShort && decide (recordCount < pageSize)) = true
    · rw [if_pos short] at turned
      cases turned
    · rw [if_neg short] at turned
      have full : ¬ (stopWhenShort = true ∧ recordCount < pageSize) := by
        rintro ⟨stops, less⟩
        rw [stops, decide_eq_true less] at short
        exact short rfl
      refine ⟨blank, full, ?_⟩
      cases shown : state.recordFieldCursor.map valueToParamString with
      | none =>
          rw [shown] at turned
          cases turned
          exact ⟨rfl, shown.symm, fun cursor found => nomatch found⟩
      | some cursor =>
          simp only [shown] at turned
          by_cases again : state.previousToken = some cursor
          · rw [if_pos again] at turned
            split at turned <;> cases turned
          · rw [if_neg again] at turned
            cases turned
            refine ⟨rfl, shown.symm, ?_⟩
            intro other found
            rw [← Option.some.inj found]
            exact again

theorem advanceRecordCursor_moves (libs : Libraries) {state : PaginationState} {recordCount : Nat}
    (filled : recordCount ≠ 0)
    (full : ¬ (stopWhenShort = true ∧ recordCount < pageSize))
    (moved : forall cursor, state.recordFieldCursor.map valueToParamString = some cursor ->
      state.previousToken ≠ some cursor) :
    advanceRecordCursor libs stopWhenShort pageSize state recordCount =
      .ok (true, { state with previousToken := state.recordFieldCursor.map valueToParamString }) := by
  have long : ¬ (stopWhenShort && decide (recordCount < pageSize)) = true := by
    intro both
    rcases Bool.and_eq_true_iff.mp both with ⟨stops, less⟩
    exact full ⟨stops, of_decide_eq_true less⟩
  unfold advanceRecordCursor
  rw [if_neg filled, if_neg long]
  cases shown : state.recordFieldCursor.map valueToParamString with
  | none => rfl
  | some cursor => simp only [if_neg (moved cursor shown)]

/-- The values the cursor field takes on the pages of a server. -/
def fieldValues (field : String) (server : List Response) : Finset Value :=
  (server.flatMap (fun response => response.records.filterMap (fun record => record.get field))).toFinset

theorem foldl_pickCursor_mem (first : Value) (rest : List Value) :
    rest.foldl (pickCursor chrono agg) first ∈ first :: rest := by
  induction rest generalizing first with
  | nil => exact List.mem_cons_self
  | cons value rest ih =>
      rw [List.foldl_cons]
      rcases List.mem_cons.mp (ih (pickCursor chrono agg first value)) with picked | later
      · rw [picked]
        unfold pickCursor
        split
        · exact List.mem_cons_of_mem _ List.mem_cons_self
        · exact List.mem_cons_self
      · exact List.mem_cons_of_mem _ (List.mem_cons_of_mem _ later)

theorem pageAggregate_mem {records : List Value} {value : Value}
    (found : pageAggregate chrono field agg records = some value) :
    value ∈ records.filterMap (fun record => record.get field) := by
  unfold pageAggregate at found
  cases values : records.filterMap (fun record => record.get field) with
  | nil =>
      rw [values] at found
      cases found
  | cons first rest =>
      rw [values] at found
      rw [← Option.some.inj found]
      exact foldl_pickCursor_mem first rest

theorem pageAggregate_eq_none {records : List Value} :
    pageAggregate chrono field agg records = none <-> records.filterMap (fun record => record.get field) = [] := by
  unfold pageAggregate
  cases records.filterMap (fun record => record.get field) with
  | nil => exact ⟨fun _ => rfl, fun _ => rfl⟩
  | cons first rest => exact ⟨fun impossible => (nomatch impossible), fun impossible => (nomatch impossible)⟩

theorem dropEmitted_sublist (low : Value) (records : List Value) (emitted : Multiset String) :
    (dropEmitted field low records emitted).1.Sublist records := by
  induction records generalizing emitted with
  | nil => exact List.Sublist.refl _
  | cons record rest ih =>
      rw [dropEmitted]
      split
      · exact (ih _).cons record
      · exact (ih emitted).cons_cons record

theorem keptAt_sublist (field : String) (inclusive : Bool) (low : Value) (records : List Value)
    (emitted : Multiset String) :
    (keptAt field inclusive low records emitted).Sublist records := by
  unfold keptAt
  split
  · exact dropEmitted_sublist low records emitted
  · exact List.Sublist.refl _

theorem aggregate_mem_fieldValues {response : Response} (known : response ∈ server) {kept : List Value}
    (part : kept.Sublist response.records) {value : Value}
    (found : pageAggregate chrono field agg kept = some value) : value ∈ fieldValues field server := by
  apply List.mem_toFinset.mpr
  exact List.mem_flatMap.mpr ⟨response, known, (part.filterMap _).subset (pageAggregate_mem found)⟩

/-- How far a keyset walk can still go: the values above its cursor. -/
noncomputable def reach (chrono : Chrono Moment) (field : String) (agg : RecordCursorAgg) (stopWhenShort : Bool)
    (pageSize : Nat) (inclusive : Bool) (server : List Response) (cursor : Option Value) : Nat :=
  match cursor with
  | some value =>
      above (Overtakes chrono field agg stopWhenShort pageSize inclusive server) (fieldValues field server) value
  | none => (fieldValues field server).card + 1

/-- A full page that moves the cursor. -/
theorem reach_lt {count : Nat} {state : PaginationState} {cursor : Option Value} (known : responses count ∈ server)
    (present : forall response, response ∈ server -> Full stopWhenShort pageSize response ->
      response.records.filterMap (fun record => record.get field) ≠ [])
    (acyclic : forall value, ¬ Relation.TransGen
      (Overtakes chrono field agg stopWhenShort pageSize inclusive server) value value)
    (same : Synced state) (full : Full stopWhenShort pageSize (responses count))
    (after : cursor = updateRecordCursor chrono field agg (keptOf field inclusive (responses count).records state)
      state.recordFieldCursor)
    (moves : forall shown, cursor.map valueToParamString = some shown -> state.previousToken ≠ some shown) :
    reach chrono field agg stopWhenShort pageSize inclusive server cursor <
      reach chrono field agg stopWhenShort pageSize inclusive server state.recordFieldCursor := by
  unfold keptOf at after
  unfold Synced at same
  cases before : state.recordFieldCursor with
  | none =>
      rw [before] at after
      cases found : pageAggregate chrono field agg (responses count).records with
      | none => exact absurd (pageAggregate_eq_none.mp found) (present _ known full)
      | some value =>
          simp only [updateRecordCursor, found] at after
          rw [after]
          exact Nat.lt_succ_of_le (above_le _ _ value)
  | some low =>
      rw [before] at after same
      simp only at after
      have kept := keptAt_sublist field inclusive low (responses count).records
        state.recordCursorBoundary
      cases found : pageAggregate chrono field agg
          (keptAt field inclusive low (responses count).records state.recordCursorBoundary) with
      | none =>
          simp only [updateRecordCursor, found] at after
          rw [after] at moves
          exact absurd same (moves _ rfl)
      | some high =>
          simp only [updateRecordCursor, found, pickCursor] at after
          by_cases higher : wins chrono agg high low = true
          · rw [if_pos higher] at after
            rw [after] at moves ⊢
            have distinct : valueToParamString high ≠ valueToParamString low := by
              intro equal
              apply moves _ rfl
              rw [same, equal]
              rfl
            apply above_lt acyclic ⟨responses count, known, full, state.recordCursorBoundary, found, higher, distinct⟩
            exact aggregate_mem_fieldValues known kept found
          · rw [if_neg higher] at after
            rw [after] at moves
            exact absurd same (moves _ rfl)

/-- A keyset walk whose full pages hold the field and whose values do not run
in a circle. -/
theorem recordFieldCursor_stops (drawn : forall count, responses count ∈ server)
    (present : forall response, response ∈ server -> Full stopWhenShort pageSize response ->
      response.records.filterMap (fun record => record.get field) ≠ [])
    (acyclic : forall value, ¬ Relation.TransGen
      (Overtakes chrono field agg stopWhenShort pageSize inclusive server) value value)
    {begins : PaginationState} (synced : Synced begins) :
    exists count, stateAt (goesOn libs chrono (.recordFieldCursor field agg stopWhenShort pageSize inclusive))
      responses begins count = none := by
  apply stops_of_measure Synced
    (fun state => reach chrono field agg stopWhenShort pageSize inclusive server state.recordFieldCursor)
  · intro count state next same moved
    have turned := goesOn_eq_some moved
    change advanceRecordCursor libs stopWhenShort pageSize (takenIn chrono _ (responses count) state)
      (responses count).recordCount = _ at turned
    rcases advanceRecordCursor_true turned with ⟨filled, full, kept, still, moves⟩
    rcases takenIn_recordFieldCursor chrono field agg stopWhenShort pageSize inclusive (responses count) state with
      ⟨cursor, previous⟩
    rw [previous] at moves
    rw [cursor] at kept moves
    rw [← kept] at moves
    exact ⟨still, reach_lt (drawn count) present acyclic same (And.intro filled full) kept moves⟩
  · exact synced

/-! ## Walks without an end -/

theorem goesOn_of_turn {response : Response} (turned : turn libs chrono style response state = .ok (true, next)) :
    goesOn libs chrono style response state = some next := by
  unfold goesOn
  rw [turned]

/-- A full page after which a keyset walk goes on. -/
theorem goesOn_recordFieldCursor (libs : Libraries) {response : Response} {state : PaginationState}
    (full : Full stopWhenShort pageSize response) {cursor : Option Value}
    (after : updateRecordCursor chrono field agg (keptOf field inclusive response.records state)
      state.recordFieldCursor = cursor)
    (moves : forall shown, cursor.map valueToParamString = some shown -> state.previousToken ≠ some shown) :
    exists next, goesOn libs chrono (.recordFieldCursor field agg stopWhenShort pageSize inclusive) response state =
        some next ∧ next.recordFieldCursor = cursor ∧ Synced next := by
  rcases takenIn_recordFieldCursor chrono field agg stopWhenShort pageSize inclusive response state with
    ⟨reached, previous⟩
  rw [after] at reached
  rw [← reached, ← previous] at moves
  have turned := advanceRecordCursor_moves libs full.1 full.2 moves
  exact ⟨_, goesOn_of_turn turned, reached, rfl⟩

/-- A keyset walk whose pages lack the field has no cursor to compare. -/
theorem endless_of_fieldless {response : Response} (full : Full stopWhenShort pageSize response)
    (absent : response.records.filterMap (fun record => record.get field) = []) (seed : Option String) (count : Nat) :
    (stateAt (goesOn libs chrono (.recordFieldCursor field agg stopWhenShort pageSize inclusive))
      (fun _ => response) (.start seed false) count).isSome = true := by
  apply goes_on_of_invariant (fun _ state => state.recordFieldCursor = none)
  · intro turned state blank
    have after : updateRecordCursor chrono field agg (keptOf field inclusive response.records state)
        state.recordFieldCursor = none := by
      unfold keptOf
      rw [blank]
      simp only [updateRecordCursor, pageAggregate_eq_none.mpr absent]
    rcases goesOn_recordFieldCursor libs full after (fun shown found => nomatch found) with
      ⟨next, moved, cursor, _⟩
    exact ⟨next, moved, cursor⟩
  · rfl

variable (libs) in
/-- A keyset walk along values that run in a circle. -/
theorem endless_of_circle {value : Value}
    (circle : Relation.TransGen (Overtakes chrono field agg stopWhenShort pageSize false server) value value)
    (seed : Option String) :
    exists responses : Nat -> Response, (forall count, responses count ∈ server) ∧ forall count,
      (stateAt (goesOn libs chrono (.recordFieldCursor field agg stopWhenShort pageSize false)) responses
        (.start seed false) count).isSome = true := by
  rcases exists_endless_walk circle with ⟨walk, _, rises⟩
  choose responses known full emitted found higher distinct using rises
  refine ⟨responses, known, goes_on_of_invariant
    (fun count state => Synced state ∧ (state.recordFieldCursor = none ∨ state.recordFieldCursor = some (walk count)))
    ?_ ⟨rfl, Or.inl rfl⟩⟩
  intro count state held
  have page : pageAggregate chrono field agg (responses count).records = some (walk (count + 1)) := found count
  have after : updateRecordCursor chrono field agg (keptOf field false (responses count).records state)
      state.recordFieldCursor = some (walk (count + 1)) := by
    unfold keptOf
    rcases held.2 with blank | stands
    · rw [blank]
      simp only [updateRecordCursor, page]
    · rw [stands]
      simp only [keptAt, Bool.false_eq_true, if_false, updateRecordCursor, page, pickCursor, if_pos (higher count)]
  have moves : forall shown, (some (walk (count + 1))).map valueToParamString = some shown ->
      state.previousToken ≠ some shown := by
    intro shown rendered again
    rw [held.1, ← rendered] at again
    rcases held.2 with blank | stands
    · rw [blank] at again
      cases again
    · rw [stands] at again
      exact distinct count (Option.some.inj again).symm
  rcases goesOn_recordFieldCursor libs (full count) after moves with ⟨next, moved, cursor, synced⟩
  exact ⟨next, moved, synced, Or.inr cursor⟩

end Keyset

/-- An offset walk with a total on pages that do not hold it. -/
theorem endless_of_totalMissing {limit : Nat} {totalPath : String} {rowsPath : Option String} {stopWhenShort : Bool}
    {response : Response} (missing : TotalMissing libs limit totalPath rowsPath stopWhenShort response)
    (seed : Option String) (count : Nat) :
    (stateAt (goesOn libs chrono (.offset limit (some totalPath) rowsPath stopWhenShort)) (fun _ => response)
      (.start seed false) count).isSome = true := by
  rcases missing with ⟨⟨results, queried⟩, unread, rows, counted, filled, long⟩
  apply goes_on_of_invariant (fun _ _ => True)
  · intro turned state _
    rw [totalReadable_eq, Option.isSome_eq_false_iff, Option.isNone_iff_eq_none] at unread
    have moved := advanceOffset_total limit stopWhenShort
      { state with currentRecordsFingerprint := response.recordsFingerprint } counted filled queried
    have more : (!(stopWhenShort && decide (rows < limit))) = true := by
      rw [Bool.not_eq_true', Bool.eq_false_iff]
      intro both
      rcases Bool.and_eq_true_iff.mp both with ⟨stops, short⟩
      exact long ⟨stops, of_decide_eq_true short⟩
    rw [unread, Option.elim_none, more] at moved
    exact ⟨_, goesOn_of_turn moved, trivial⟩
  · trivial

theorem guarded_stops (drawn : forall count, responses count ∈ server) (guarded : Guarded libs chrono style server)
    (seed : Option String) :
    exists count, stateAt (goesOn libs chrono style) responses (.start seed false) count = none := by
  cases style with
  | none => exact ⟨1, rfl⟩
  | cursor path => exact cursor_stops path drawn (fun _ _ => rfl) _
  | cursorInBody path => exact cursor_stops path drawn (fun _ _ => rfl) _
  | linkHeader => exact linkHeader_stops drawn _
  | nextLinkInBody path => exact nextLinkInBody_stops path drawn _
  | pageNumber => exact pageNumber_stops drawn rfl
  | offset limit totalPath rowsPath stopWhenShort =>
      cases totalPath with
      | none => exact offset_stops limit rowsPath stopWhenShort drawn rfl
      | some totalPath => exact offset_total_stops limit totalPath rowsPath stopWhenShort drawn guarded _
  | offsetInBody limit stopWhenShort rowsPath totalPath =>
      exact offsetInBody_stops limit stopWhenShort rowsPath totalPath drawn rfl
  | recordFieldCursor field agg stopWhenShort pageSize inclusive =>
      exact recordFieldCursor_stops drawn guarded.1 guarded.2 rfl

end Ends

variable (style : PaginationStyle) (server : List Response) (seed : Option String)

/-- Every walk over a finite server ends where its pages are guarded.  For
every style but the keyset with an inclusive bound it also ends nowhere else. -/
theorem pagination_ends :
    (Guarded libs chrono style server -> forall responses : Nat -> Response,
      (forall count, responses count ∈ server) -> (pagesFollowed libs chrono style responses seed).Finite) ∧
    ((forall field agg stopWhenShort pageSize, style ≠ .recordFieldCursor field agg stopWhenShort pageSize true) ->
      (forall responses : Nat -> Response, (forall count, responses count ∈ server) ->
        (pagesFollowed libs chrono style responses seed).Finite) ->
      Guarded libs chrono style server) := by
  constructor
  · intro guarded responses drawn
    rcases guarded_stops drawn guarded seed with ⟨count, stopped⟩
    exact steps_finite stopped
  · intro exclusive finite
    cases style with
    | offset limit totalPath rowsPath stopWhenShort =>
        cases totalPath with
        | none => trivial
        | some totalPath =>
            intro response known missing
            exact steps_infinite (endless_of_totalMissing missing seed) (finite (fun _ => response) (fun _ => known))
    | recordFieldCursor field agg stopWhenShort pageSize inclusive =>
        cases inclusive with
        | true => exact absurd rfl (exclusive field agg stopWhenShort pageSize)
        | false =>
            constructor
            · intro response known full absent
              exact steps_infinite (endless_of_fieldless full absent seed) (finite (fun _ => response) (fun _ => known))
            · intro value circle
              rcases endless_of_circle libs circle seed with ⟨responses, known, endless⟩
              exact steps_infinite endless (finite responses known)
    | _ => trivial

/-! ## A server that never states its total -/

/-- One row a page, and no total. -/
def untotalled : Response := ⟨.object [("rows", .array [.object []])], ⟨[], none⟩, 1, [.object []], none⟩

def totalled : Response := ⟨.object [("total", .number (.int 3))], ⟨[], none⟩, 1, [.object []], none⟩

def totalStyle : PaginationStyle := .offset 1 (some "$.total") none false

/-- A total of three rows ends the walk. -/
theorem pagination_ends_totalled :
    Guarded entryLibraries noTimestamps totalStyle [totalled] ∧
      (pagesFollowed entryLibraries noTimestamps totalStyle (fun _ => totalled) none).Finite := by
  have guarded : Guarded entryLibraries noTimestamps totalStyle [totalled] := by
    intro response known missing
    rw [List.mem_singleton.mp known] at missing
    have unread : totalReadable entryLibraries totalled.body (some "$.total") = false := missing.2.1
    exact absurd unread (by decide)
  exact ⟨guarded, (pagination_ends entryLibraries noTimestamps totalStyle [totalled] none).1 guarded
    (fun _ => totalled) (fun _ => List.mem_singleton.mpr rfl)⟩

theorem untotalled_never_ends :
    ¬ (forall (style : PaginationStyle) (server : List Response) (responses : Nat -> Response),
      (forall count, responses count ∈ server) ->
        (pagesFollowed entryLibraries noTimestamps style responses none).Finite) := by
  intro ends
  have missing : TotalMissing entryLibraries 1 "$.total" none false untotalled :=
    ⟨⟨[], by rfl⟩, by rfl, 1, by rfl, by decide, by decide⟩
  exact steps_infinite (endless_of_totalMissing missing none)
    (ends totalStyle [untotalled] (fun _ => untotalled) (fun _ => List.mem_singleton.mpr rfl))

end Rest
end FaucetStream
