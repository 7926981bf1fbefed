import MapServiceAgent.ForStd.Dict
import MapServiceAgent.Native.SummaryNodes
import MapServiceAgent.Spec.AgentGraphCorrect

/-!
# Summaries by position

A place of a batch goes by its position in the request, whatever is skipped
before it. What the model returns under a position is looked for among those it
was shown, so no summary gets to another place.

## Key results

- `mem_preparedViews`, `preparedViews_increasing`: the places that are shown
- `lookup_collectedItems`: the first full item of a place counts
- `asked_summary`: every prompt lists the places that are shown
- `batch_summary`: the response to a batch
-/

namespace MapServiceAgent.Native

variable {env : SummaryEnv} {places : List SummaryPlace} {maxPlaces : Int}

/-! ### The places that are shown -/

/-- A place within the limit that has a snippet to go by. -/
structure Shown (maxPlaces : Int) (places : List SummaryPlace) (n : Nat) (place : SummaryPlace) :
    Prop where
  getElem : (pyTake maxPlaces places)[n]? = some place
  usable : ∃ s ∈ place.snippets, strip s ≠ ""

/-- What is taken are the elements at the first positions. -/
theorem getElem?_pyTake {α : Type} (hmax : 0 ≤ maxPlaces) {l : List α} {n : Nat} {a : α} :
    (pyTake maxPlaces l)[n]? = some a ↔ (n : Int) < maxPlaces ∧ l[n]? = some a := by
  unfold pyTake
  rw [if_pos hmax, List.getElem?_take]
  split
  · rename_i hlt
    exact ⟨fun h => ⟨by omega, h⟩, fun h => h.2⟩
  · rename_i hge
    constructor
    · intro h
      cases h
    · rintro ⟨hlt, -⟩
      omega

/-- A place has usable snippets when one of them is not blank. -/
theorem usableSnippets_ne_nil_iff {place : SummaryPlace} :
    usableSnippets place ≠ [] ↔ ∃ s ∈ place.snippets, strip s ≠ "" := by
  simp [usableSnippets, List.filter_eq_nil_iff]

/-- A place with a usable snippet is shown under its position, any other is not. -/
theorem preparePlace_eq_some {n : Nat} {place : SummaryPlace} {shown : Int × Json} :
    preparePlace n place = some shown ↔ (∃ s ∈ place.snippets, strip s ≠ "") ∧
      shown = ((n : Int), summaryPlaceView n place.name place.category (usableSnippets place)) := by
  rw [← usableSnippets_ne_nil_iff]
  unfold preparePlace
  split
  · rename_i hnil
    simp [hnil]
  · rename_i hne
    simp [hne, eq_comm]

/-- The places that are shown keep their positions. -/
theorem mem_preparedViews {shown : Int × Json} :
    shown ∈ preparedViews maxPlaces places ↔ ∃ n place, Shown maxPlaces places n place ∧
      shown = ((n : Int), summaryPlaceView n place.name place.category (usableSnippets place)) := by
  unfold preparedViews
  rw [List.mem_filterMap]
  constructor
  · -- what is shown is a place at a position within the bound
    rintro ⟨⟨place, n⟩, hmem, hshown⟩
    rw [List.mk_mem_zipIdx_iff_getElem?] at hmem
    obtain ⟨husable, rfl⟩ := preparePlace_eq_some.mp hshown
    exact ⟨n, place, ⟨hmem, husable⟩, rfl⟩
  · rintro ⟨n, place, hplace, rfl⟩
    refine ⟨(place, n), ?_, preparePlace_eq_some.mpr ⟨hplace.usable, rfl⟩⟩
    rw [List.mk_mem_zipIdx_iff_getElem?]
    exact hplace.getElem

/-- The positions of the places that are shown go up. -/
theorem preparedViews_increasing (maxPlaces : Int) (places : List SummaryPlace) :
    ((preparedViews maxPlaces places).map (·.1)).Pairwise (· < ·) := by
  rw [List.pairwise_map]
  unfold preparedViews
  apply (pairwise_zipIdx _).filterMap
  rintro ⟨a, n⟩ ⟨b, m⟩ hlt shown hshown shown' hshown'
  obtain ⟨-, rfl⟩ := preparePlace_eq_some.mp hshown
  obtain ⟨-, rfl⟩ := preparePlace_eq_some.mp hshown'
  exact Int.ofNat_lt.mpr hlt

/-! ### The items that are kept -/

/-- An item with lines enough. -/
def PlaceBullets.full (item : PlaceBullets) : Bool := bulletLines ≤ item.lines.length

/-- The first full item of a place. -/
def firstFull (items : List PlaceBullets) (pid : Int) : Option PlaceBullets :=
  items.find? fun item => item.full && decide (item.placeId = pid)

/-- The lines of each place that was shown. -/
def collectedItems (validIds : List Int) (items : List PlaceBullets) : List (Int × List String) :=
  items.foldl (collectItem validIds) []

/-- The entry an item makes, if its place was shown and it is full. -/
def entryOf (validIds : List Int) (item : PlaceBullets) : Option (Int × List String) :=
  if decide (item.placeId ∈ validIds) && item.full then
    some (item.placeId, item.lines.take bulletLines)
  else none

/-- An item sets the lines of its place when it is full, shown and the first. -/
theorem collectItem_eq (validIds : List Int) (collected : List (Int × List String))
    (item : PlaceBullets) :
    collectItem validIds collected item =
      (entryOf validIds item).elim collected (setDefault collected) := by
  unfold entryOf PlaceBullets.full
  by_cases hvalid : item.placeId ∈ validIds
  · by_cases hfull : bulletLines ≤ item.lines.length
    · -- full and shown: it counts unless there was one before
      rw [if_pos (by simp [hvalid, hfull]), Option.elim_some]
      unfold collectItem setDefault
      dsimp only
      cases hlookup : collected.lookup item.placeId with
      | none => rw [if_neg (by simp [hvalid]), if_neg (Nat.not_lt.mpr hfull),
        if_pos Option.isNone_none]
      | some lines => rw [if_pos (Or.inr Option.isSome_some), Option.isNone_some,
        if_neg Bool.false_ne_true]
    · -- too few lines: skipped, be there one before or not
      rw [if_neg (by simp [hfull]), Option.elim_none]
      unfold collectItem
      rw [if_pos (Nat.lt_of_not_le hfull)]
      exact ite_self _
  · -- about a place that was not shown
    rw [if_neg (by simp [hvalid]), Option.elim_none]
    unfold collectItem
    rw [if_pos (Or.inl hvalid)]

/-- The first full item of a place that was shown counts. -/
theorem lookup_collectedItems (validIds : List Int) (items : List PlaceBullets) (pid : Int) :
    (collectedItems validIds items).lookup pid =
      if pid ∈ validIds then (firstFull items pid).map (·.lines.take bulletLines) else none := by
  unfold collectedItems
  rw [foldl_eq_setDefault (collectItem_eq validIds), lookup_foldl_setDefault, List.lookup_nil,
    Option.none_or]
  unfold entryOf
  rw [lookup_filterMap]
  unfold firstFull
  -- an item counts only under a number that was shown
  by_cases hpid : pid ∈ validIds
  · rw [if_pos hpid]
    congr 2
    funext item
    by_cases hitem : item.placeId = pid <;> simp [hitem, hpid]
  · rw [if_neg hpid, Option.map_eq_none_iff, List.find?_eq_none]
    intro item _ hitem
    simp only [Bool.and_eq_true, decide_eq_true_eq] at hitem
    exact hpid (hitem.2 ▸ hitem.1.1)

/-- No place gets two summaries. -/
theorem nodup_collectedItems (validIds : List Int) (items : List PlaceBullets) :
    ((collectedItems validIds items).map (·.1)).Nodup := by
  unfold collectedItems
  rw [foldl_eq_setDefault (collectItem_eq validIds)]
  exact nodup_foldl_setDefault _ List.nodup_nil

/-! ### The question -/

/-- The run once the places are prepared. -/
def preparedRun (env : SummaryEnv) (places : List SummaryPlace) : SummaryRun :=
  (preparePlaces env { state := { places } }).2

/-- The prompt about the places that are shown. -/
def summaryPrompt (env : SummaryEnv) (places : List SummaryPlace) : String :=
  (buildSummaryPromptFromViews env.platform ((preparedViews env.maxPlaces places).map (·.2))).2

variable {system prompt : String} {r r' : SummaryRun} {answer : Except PyExn BulletsEnvelope}

/-- A question touches the ledger only, and what it asks begins with the prompt. -/
structure AskedBullets (prompt : String) (r r' : SummaryRun) : Prop where
  frame : r' = { r with
    state := { r.state with llmCallsUsed := r'.state.llmCallsUsed }, asked := r'.asked }
  asked : ∀ p ∈ r'.asked, p ∈ r.asked ∨ ∃ rest, p = prompt ++ rest

/-- Asking once more adds a prompt that begins with the one given. -/
theorem AskedBullets.generate {r₁ : SummaryRun} (h : AskedBullets prompt r r₁) {rest : String}
    (hgen : generateBullets env system (prompt ++ rest) r₁.spend = (answer, r')) :
    AskedBullets prompt r r' := by
  cases hgen
  constructor
  · rw [h.frame]
    rfl
  · intro p hp
    rcases List.mem_append.mp hp with hp | hp
    · exact h.asked p hp
    · exact Or.inr ⟨rest, List.mem_singleton.mp hp⟩

/-- Every prompt asked begins with the one given. -/
theorem askBullets_asked (h : askBullets env system prompt r = (answer, r')) :
    AskedBullets prompt r r' := by
  have hrefl : AskedBullets prompt r r := ⟨rfl, fun p hp => Or.inl hp⟩
  have hfirst : ∀ {answer r₁}, generateBullets env system prompt r.spend = (answer, r₁) →
      AskedBullets prompt r r₁ := by
    intro answer r₁ hgen
    rw [← String.append_empty (s := prompt)] at hgen
    exact hrefl.generate hgen
  unfold askBullets at h
  split at h
  · -- the budget refuses before anything is asked
    cases h
    exact hrefl
  · split at h
    · rename_i hgen
      split at h
      · cases h
        -- asked once, and no budget for a second time
        exact hfirst hgen
      · -- asked twice
        exact (hfirst hgen).generate h
    · rename_i hgen
      cases h
      exact hfirst hgen

/-! ### The run -/

/-- With nothing to show the graph ends after its first node. -/
theorem ainvokeSummary_nothing (h : preparedViews env.maxPlaces places = []) :
    ainvokeSummary env places = (.ok (), preparedRun env places) := by
  unfold ainvokeSummary
  simp [StateGraph.run, summaryGraph, preparePlaces, preparedRun, h]

/-- With something to show the first node leaves the views and their positions. -/
theorem preparedRun_eq (h : preparedViews env.maxPlaces places ≠ []) :
    preparedRun env places =
      { state :=
          { places := places, views := some ((preparedViews env.maxPlaces places).map (·.2))
            validIds := some ((preparedViews env.maxPlaces places).map (·.1)) } } := by
  unfold preparedRun preparePlaces
  dsimp only
  rw [if_neg h]

/-- The question of `summarize`. -/
theorem summarize_eq (h : preparedViews env.maxPlaces places ≠ [])
    (hask : askBullets env summarySystem (summaryPrompt env places) (preparedRun env places) =
      (answer, r)) :
    (∀ e, answer = .error e → summarize env (preparedRun env places) = (.error e, r)) ∧
      (∀ envelope, answer = .ok envelope → summarize env (preparedRun env places) =
        (.ok (), { r with state := { r.state with items := some envelope.items } })) := by
  have hviews : (preparedRun env places).state.views =
      some ((preparedViews env.maxPlaces places).map (·.2)) := by rw [preparedRun_eq h]
  have hprompt : buildSummaryPromptFromViews env.platform
      ((preparedViews env.maxPlaces places).map (·.2)) =
      (summarySystem, summaryPrompt env places) := rfl
  unfold summarize
  rw [hviews, Option.getD_some, hprompt]
  dsimp only
  rw [hask]
  -- the answer decides, nothing else is left open
  constructor
  · rintro e rfl
    rfl
  · rintro envelope rfl
    rfl

/-- A run whose question fails ends in its exception; one whose question is
    answered collects what the answer holds. -/
theorem ainvokeSummary_asking (h : preparedViews env.maxPlaces places ≠ [])
    (hask : askBullets env summarySystem (summaryPrompt env places) (preparedRun env places) =
      (answer, r)) :
    (∀ e, answer = .error e → ainvokeSummary env places = (.error e, r)) ∧
      (∀ envelope, answer = .ok envelope → ainvokeSummary env places =
        collectBullets { r with state := { r.state with items := some envelope.items } }) := by
  have hprepare : preparePlaces env { state := { places } } = (.ok (), preparedRun env places) := rfl
  -- there is something to summarize, so the graph goes on
  have hroute : ((preparedRun env places).state.views.getD [] = []) = False := by
    rw [preparedRun_eq h]
    simpa using h
  obtain ⟨hrefused, hanswered⟩ := summarize_eq h hask
  constructor
  · intro e he
    unfold ainvokeSummary
    simp [StateGraph.run, summaryGraph, hprepare, hroute, hrefused e he]
  · intro envelope he
    unfold ainvokeSummary
    simp [StateGraph.run, summaryGraph, hprepare, hroute, hanswered envelope he, collectBullets]

/-! ### The prompts -/

/-- The places as the prompt lists them. -/
def summaryEntries (maxPlaces : Int) (places : List SummaryPlace) : List Json :=
  pruneElems ((preparedViews maxPlaces places).map (·.2))

/-- The prompt holds the entries between their tags. -/
theorem summaryPrompt_eq (env : SummaryEnv) (places : List SummaryPlace) :
    summaryPrompt env places = "<places>" ++
      dumpJson env.platform (.arr (summaryEntries env.maxPlaces places)) ++ "</places>\n" := by
  unfold summaryPrompt buildSummaryPromptFromViews tagged dumpPromptJson summaryEntries
  rw [pruneEmpty]
  simp only [String.append_assoc]
  rfl

/-- Every prompt begins with the list of the places that are shown. -/
theorem asked_summary {p : String} (h : p ∈ (ainvokeSummary env places).2.asked) :
    preparedViews env.maxPlaces places ≠ [] ∧ ∃ rest, p = summaryPrompt env places ++ rest := by
  by_cases hnothing : preparedViews env.maxPlaces places = []
  · -- nothing to show, nothing asked
    rw [ainvokeSummary_nothing hnothing] at h
    cases h
  · refine ⟨hnothing, ?_⟩
    cases hask : askBullets env summarySystem (summaryPrompt env places)
      (preparedRun env places) with
    | mk answer r =>
    have hasked : ∀ p ∈ r.asked, ∃ rest, p = summaryPrompt env places ++ rest := by
      intro p hp
      rcases (askBullets_asked hask).asked p hp with hp | hp
      · cases hp
      · exact hp
    obtain ⟨hrefused, hanswered⟩ := ainvokeSummary_asking hnothing hask
    cases answer with
    | error e =>
      -- refused or answered, the prompts are those of the asking
      rw [hrefused e rfl] at h
      exact hasked p h
    | ok envelope =>
      rw [hanswered envelope rfl] at h
      exact hasked p h

/-- The number of an entry of the prompt. -/
def entryId : Json → Json
  | .obj m => dictGet m "place_id"
  | _ => .null

/-- Pruning keeps the number of a view, be it zero. -/
theorem pruneEmpty_summaryPlaceView (i : Int) (name : String) (category : Option String)
    (snippets : List String) :
    entryId (pruneEmpty (summaryPlaceView i name category snippets)) = .int i ∧
      isEmptyValue (pruneEmpty (summaryPlaceView i name category snippets)) = false := by
  unfold summaryPlaceView
  rw [pruneEmpty, pruneFields, pruneEmpty]
  · exact ⟨rfl, rfl⟩
  · intros; contradiction
  · intros; contradiction

/-- The entry under a position is that place's view. -/
theorem mem_summaryEntries {entry : Json} :
    entry ∈ summaryEntries maxPlaces places ↔ ∃ n place, Shown maxPlaces places n place ∧
      entry = pruneEmpty (summaryPlaceView n place.name place.category (usableSnippets place)) := by
  unfold summaryEntries
  rw [pruneElems_eq_map]
  · simp only [List.map_map, List.mem_map, mem_preparedViews]
    constructor
    · rintro ⟨_, ⟨n, place, hshown, rfl⟩, rfl⟩
      exact ⟨n, place, hshown, rfl⟩
    · rintro ⟨n, place, hshown, rfl⟩
      exact ⟨_, ⟨n, place, hshown, rfl⟩, rfl⟩
  · -- a view is never pruned away as a whole
    intro v hv
    obtain ⟨shown, hshown, rfl⟩ := List.mem_map.mp hv
    obtain ⟨n, place, -, rfl⟩ := mem_preparedViews.mp hshown
    exact (pruneEmpty_summaryPlaceView ..).2

/-! ### The response -/

/-- The model returns an envelope on the question about some places, if there is
    anything to ask. -/
def SummaryAnswered (env : SummaryEnv) (places : List SummaryPlace)
    (envelope : BulletsEnvelope) : Prop :=
  preparedViews env.maxPlaces places ≠ [] →
    (askBullets env summarySystem (summaryPrompt env places) (preparedRun env places)).1 =
      .ok envelope

/-- The results of a batch. -/
structure BatchSummary (maxPlaces : Int) (places : List SummaryPlace) (items : List PlaceBullets)
    (results : List (Int × List String)) : Prop where
  increasing : (results.map (·.1)).Pairwise (· < ·)
  index_iff : ∀ i : Int, i ∈ results.map (·.1) ↔ ∃ (n : Nat) (place : SummaryPlace),
    i = n ∧ (n : Int) < maxPlaces ∧ places[n]? = some place ∧
      (∃ s ∈ place.snippets, strip s ≠ "") ∧
      ∃ item ∈ items, item.placeId = i ∧ bulletLines ≤ item.lines.length
  bullets_eq : ∀ i lines, (i, lines) ∈ results →
    ∃ item, firstFull items i = some item ∧ lines = item.lines.take bulletLines

/-- There is a first full item when there is one at all. -/
theorem isSome_firstFull_iff {items : List PlaceBullets} {pid : Int} :
    (firstFull items pid).isSome ↔
      ∃ item ∈ items, item.placeId = pid ∧ bulletLines ≤ item.lines.length := by
  unfold firstFull PlaceBullets.full
  rw [List.find?_isSome]
  simp only [Bool.and_eq_true, decide_eq_true_eq]
  exact exists_congr fun item => and_congr_right fun _ => and_comm

/-- What was collected and sorted is the summary of the batch. -/
theorem sorted_batchSummary (hmax : 0 ≤ maxPlaces) (places : List SummaryPlace)
    (items : List PlaceBullets) :
    BatchSummary maxPlaces places items (sortedBy (·.1)
      (collectedItems ((preparedViews maxPlaces places).map (·.1)) items)) := by
  have hnodup := nodup_collectedItems ((preparedViews maxPlaces places).map (·.1)) items
  have hperm := sortedBy_perm (·.1)
    (collectedItems ((preparedViews maxPlaces places).map (·.1)) items)
  constructor
  · -- sorted, and no index twice
    have hle := sortedBy_pairwise (·.1)
      (collectedItems ((preparedViews maxPlaces places).map (·.1)) items)
    have hne : ((sortedBy (·.1) (collectedItems ((preparedViews maxPlaces places).map (·.1))
        items)).map (·.1)).Nodup := (hperm.map _).nodup_iff.mpr hnodup
    rw [List.pairwise_map]
    rw [List.nodup_iff_pairwise_ne, List.pairwise_map] at hne
    exact hle.imp₂ (fun _ _ hle hne => lt_of_le_of_ne hle hne) hne
  · intro i
    rw [(hperm.map _).mem_iff, ← isSome_lookup_iff, lookup_collectedItems]
    -- an index occurs if its place was shown and some item about it is full
    constructor
    · intro hsome
      split at hsome
      · rename_i hvalid
        obtain ⟨shown, hshown, hi⟩ := List.mem_map.mp hvalid
        obtain ⟨n, place, hplace, rfl⟩ := mem_preparedViews.mp hshown
        obtain ⟨hwithin, hget⟩ := (getElem?_pyTake hmax).mp hplace.getElem
        rw [Option.isSome_map, isSome_firstFull_iff] at hsome
        exact ⟨n, place, hi.symm, hwithin, hget, hplace.usable, hsome⟩
      · cases hsome
    · -- a place shown, with a full item about it, gets its lines
      rintro ⟨n, place, rfl, hwithin, hget, husable, hitem⟩
      rw [if_pos, Option.isSome_map, isSome_firstFull_iff]
      · exact hitem
      · exact List.mem_map.mpr ⟨_, mem_preparedViews.mpr
          ⟨n, place, ⟨(getElem?_pyTake hmax).mpr ⟨hwithin, hget⟩, husable⟩, rfl⟩, rfl⟩
  · -- the lines are those of the first full item
    intro i lines hmem
    rw [mem_sortedBy, mem_iff_lookup hnodup, lookup_collectedItems] at hmem
    split at hmem
    · obtain ⟨item, hitem, rfl⟩ := Option.map_eq_some_iff.mp hmem
      exact ⟨item, hitem, rfl⟩
    · cases hmem

/-- Of nothing shown nothing is collected. -/
theorem collectedItems_nil (items : List PlaceBullets) : collectedItems [] items = [] := by
  unfold collectedItems
  rw [foldl_eq_setDefault (collectItem_eq []), List.filterMap_eq_nil_iff.mpr]
  · rfl
  · intro item _
    unfold entryOf
    rw [if_neg (by simp)]

/-- What `collect_bullets` leaves. -/
theorem collectBullets_bullets (hbullets : r.state.bullets = none) :
    (collectBullets r).1 = .ok () ∧ (collectBullets r).2.state.bullets.getD [] =
      collectedItems (r.state.validIds.getD []) (r.state.items.getD []) := by
  refine ⟨rfl, ?_⟩
  unfold collectBullets
  dsimp only
  split
  · rename_i hnone
    rw [hbullets]
    exact hnone.symm
  · rfl

/-- What a run with an answer leaves. -/
theorem ainvokeSummary_bullets {envelope : BulletsEnvelope}
    (hanswer : SummaryAnswered env places envelope) :
    ∃ r, ainvokeSummary env places = (.ok (), r) ∧ r.state.bullets.getD [] =
      collectedItems ((preparedViews env.maxPlaces places).map (·.1)) envelope.items := by
  by_cases hnothing : preparedViews env.maxPlaces places = []
  · -- without views nothing is collected, and no item could be
    refine ⟨_, ainvokeSummary_nothing hnothing, ?_⟩
    have hbullets : (preparedRun env places).state.bullets = none := by
      unfold preparedRun preparePlaces
      dsimp only
      rw [if_pos hnothing]
    rw [hbullets, hnothing, List.map_nil, collectedItems_nil]
    rfl
  · cases hask : askBullets env summarySystem (summaryPrompt env places)
      (preparedRun env places) with
    | mk answer r =>
    have hok := hanswer hnothing
    rw [hask] at hok
    obtain ⟨-, hanswered⟩ := ainvokeSummary_asking hnothing hask
    -- the question leaves the valid ids of the preparation
    have hframe := (askBullets_asked hask).frame
    rw [preparedRun_eq hnothing] at hframe
    have hbullets : r.state.bullets = none := by rw [hframe]
    have hvalid : r.state.validIds = some ((preparedViews env.maxPlaces places).map (·.1)) := by
      rw [hframe]
    have hcollect := collectBullets_bullets
      (r := { r with state := { r.state with items := some envelope.items } }) hbullets
    refine ⟨_, (hanswered envelope hok).trans (Prod.ext hcollect.1 rfl), hcollect.2.trans ?_⟩
    dsimp only
    rw [hvalid]
    rfl

/-- The response to a batch is by index, each index with the first full lines on
    the place at that position, and each entry of the prompt is the view of the
    place its number points at. -/
theorem batch_summary (env : SummaryEnv) (henabled : env.enabled = true)
    (hmax : 0 ≤ env.maxPlaces) (req : ReviewsSummaryBatchRequest) (envelope : BulletsEnvelope)
    (hanswer : SummaryAnswered env (req.places.map SummaryPlaceRequest.toPlace) envelope) :
    (∃ results, summarizePlacesReviews env req = .ok results ∧
      BatchSummary env.maxPlaces (req.places.map SummaryPlaceRequest.toPlace) envelope.items
        results) ∧
    (∀ p ∈ (ainvokeSummary env (req.places.map SummaryPlaceRequest.toPlace)).2.asked,
      ∃ rest, p = "<places>" ++ dumpJson env.platform (.arr (summaryEntries env.maxPlaces
        (req.places.map SummaryPlaceRequest.toPlace))) ++ "</places>\n" ++ rest) ∧
    ∀ entry ∈ summaryEntries env.maxPlaces (req.places.map SummaryPlaceRequest.toPlace),
      ∃ (n : Nat) (place : SummaryPlaceRequest), entryId entry = .int n ∧
        req.places[n]? = some place ∧
        entry = pruneEmpty (summaryPlaceView n place.placeName place.category
          (place.reviews.filter fun s => strip s != "")) := by
  refine ⟨?_, ?_, ?_⟩
  · -- the response
    obtain ⟨r, hrun, hbullets⟩ := ainvokeSummary_bullets hanswer
    refine ⟨_, ?_, sorted_batchSummary hmax _ envelope.items⟩
    unfold summarizePlacesReviews runSummary
    rw [henabled, hrun, ← hbullets]
    rfl
  · -- every prompt shows the entries
    intro p hp
    obtain ⟨-, rest, rfl⟩ := asked_summary hp
    rw [summaryPrompt_eq]
    exact ⟨rest, rfl⟩
  · -- every entry was built from the request's own place
    intro entry hentry
    obtain ⟨n, place, hshown, rfl⟩ := mem_summaryEntries.mp hentry
    obtain ⟨-, hget⟩ := (getElem?_pyTake hmax).mp hshown.getElem
    rw [List.getElem?_map, Option.map_eq_some_iff] at hget
    obtain ⟨place, hget, rfl⟩ := hget
    exact ⟨n, place, (pruneEmpty_summaryPlaceView ..).1, hget, rfl⟩

/-- A place with one review. -/
def reviewedPlace (description : String) (h : lengthIn 1 500 description = true) :
    SummaryPlaceRequest where
  placeName := "a"
  category := none
  reviews := [description]
  placeName_valid := by decide
  category_valid := rfl
  reviews_valid := by simp [h]

/-- A blank review before a real one. -/
def skippingBatch : ReviewsSummaryBatchRequest where
  places := [reviewedPlace " " (by decide), reviewedPlace "quiet" (by decide)]
  places_valid := rfl

/-- An item with lines that pass the schema. -/
def sampleBullets (pid : Int) (bullets : List String)
    (hcount : (1 ≤ bullets.length && bullets.length ≤ 4) = true)
    (hvalid : bullets.all (fun b => strip b != "" && lengthIn 0 bulletMaxLen b && cleanText b) =
      true) : PlaceBullets :=
  ⟨pid, bullets, hcount, hvalid⟩

/-- One item is short, one is about a place nobody asked about. -/
def sampleItems : List PlaceBullets :=
  [sampleBullets 1 ["calm"] (by decide) (by decide),
    sampleBullets 0 ["loud", "busy"] (by decide) (by decide),
    sampleBullets 1 ["calm", " by the lake "] (by decide) (by decide)]

/-- The sample platform, with a model that gives the sample items. -/
def sampleSummaryEnv : SummaryEnv where
  platform := samplePlatform
  enabled := true
  maxPlaces := 7
  maxLlmCalls := 2
  ask _ _ _ := ([], .ok ⟨sampleItems⟩)

/-- The summary of the place behind the blank one stays with it. -/
theorem batch_summary_sample : ∃ results,
    summarizePlacesReviews sampleSummaryEnv skippingBatch = .ok results ∧
      0 ∉ results.map (·.1) ∧ (1, ["calm", "by the lake"]) ∈ results := by
  obtain ⟨⟨results, hresults, hbatch⟩, -⟩ := batch_summary sampleSummaryEnv rfl (by decide)
    skippingBatch ⟨sampleItems⟩ fun _ => rfl
  refine ⟨results, hresults, ?_, ?_⟩
  · intro h
    -- the first place has no review with anything in it
    obtain ⟨n, place, hn, -, hget, ⟨s, hs, hstrip⟩, -⟩ := (hbatch.index_iff 0).mp h
    obtain rfl : n = 0 := by omega
    cases hget
    cases List.mem_singleton.mp hs
    exact hstrip (by decide)
  · -- the second place is shown, and its item is full
    have hfull : firstFull sampleItems 1 =
        some (sampleBullets 1 ["calm", " by the lake "] (by decide) (by decide)) := by decide
    have hindex : 1 ∈ results.map (·.1) := (hbatch.index_iff 1).mpr
      ⟨1, (reviewedPlace "quiet" (by decide)).toPlace, rfl, by decide, rfl,
        ⟨"quiet", List.mem_singleton_self _, by decide⟩,
        isSome_firstFull_iff.mp (Option.isSome_of_eq_some hfull)⟩
    obtain ⟨⟨i, lines⟩, hmem, hi⟩ := List.mem_map.mp hindex
    cases hi
    obtain ⟨item, hitem, rfl⟩ := hbatch.bullets_eq _ _ hmem
    cases hfull.symm.trans hitem
    exact hmem

end MapServiceAgent.Native
