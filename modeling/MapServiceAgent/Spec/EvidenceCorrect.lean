import MapServiceAgent.Spec.SummaryCorrect

/-!
# No evidence, no question

A place is shown for a snippet that is more than blanks, but the sanitizer also
takes the control characters out, and pruning what is empty after that. A place
whose snippets hold blanks and control characters only is listed without any.

## Key results

- `sanitizeText_ne_empty_iff`: what the sanitizer leaves something of
- `carriesSnippet_iff`: which entries of the prompt come with a snippet
- `evidence_iff`: when every place that is asked about does
-/

namespace MapServiceAgent.Native

variable {env : SummaryEnv} {places : List SummaryPlace} {maxPlaces : Int}

/-! ### What the sanitizer leaves -/

/-- A text with a character that is neither a blank nor a control. -/
def Legible (s : String) : Prop := ∃ c ∈ s.toList, isSpace c = false ∧ isControl c = false

/-- Collapsing runs of blanks keeps every other character. -/
theorem mem_collapseSpaces_of_ink {cs : List Char} {c : Char} (hc : isSpace c = false)
    (inRun : Bool) : c ∈ collapseSpaces inRun cs ↔ c ∈ cs := by
  induction cs generalizing inRun with
  | nil => rfl
  | cons d cs ih =>
    rw [collapseSpaces, List.mem_cons]
    split
    · -- a run of blanks becomes one blank, which is not the character
      rename_i hd
      have hne : c ≠ d := by
        rintro rfl
        rw [hd] at hc
        cases hc
      split
      · rw [ih, or_iff_right hne]
      · have hblank : c ≠ ' ' := by
          rintro rfl
          cases hc
        rw [List.mem_cons, ih, or_iff_right hblank, or_iff_right hne]
    · rw [List.mem_cons, ih]

/-- No character is escaped to nothing. -/
theorem escapeTag_ne_nil (c : Char) : escapeTag c ≠ [] := by
  unfold escapeTag
  split
  · decide
  · split
    · decide
    · exact List.cons_ne_nil _ _

/-- Something is left of a text when one of its characters is neither blank nor control. -/
theorem sanitizeText_ne_empty_iff {s : String} {maxLen : Nat} (hmax : 0 < maxLen) :
    sanitizeText s maxLen ≠ "" ↔ Legible s := by
  -- the tag escapes and the cut leave something of anything
  have hnil : sanitizeText s maxLen = "" ↔
      stripChars (collapseSpaces false (s.toList.filter fun c => !isControl c)) = [] := by
    unfold sanitizeText
    dsimp only
    rw [← String.ofList_nil, String.ofList_inj, List.take_eq_nil_iff, or_iff_right (by omega),
      List.flatMap_eq_nil_iff]
    constructor
    · intro h
      exact List.eq_nil_iff_forall_not_mem.mpr fun c hc => escapeTag_ne_nil c (h c hc)
    · intro h c hc
      rw [h] at hc
      cases hc
  rw [ne_eq, hnil, stripChars_eq_nil_iff]
  unfold Legible
  push Not
  constructor
  · -- what is neither removed as a control nor collapsed nor stripped
    rintro ⟨c, hc, hspace⟩
    rw [ne_eq, Bool.not_eq_true] at hspace
    rw [mem_collapseSpaces_of_ink hspace, List.mem_filter, Bool.not_eq_true'] at hc
    exact ⟨c, hc.1, hspace, hc.2⟩
  · rintro ⟨c, hc, hspace, hcontrol⟩
    refine ⟨c, ?_, by simp [hspace]⟩
    rw [mem_collapseSpaces_of_ink hspace, List.mem_filter, Bool.not_eq_true']
    exact ⟨hc, hcontrol⟩

/-! ### What an entry comes with -/

/-- An entry of the prompt that shows a snippet. -/
def CarriesSnippet (entry : Json) : Prop :=
  ∃ m snippets s, entry = .obj m ∧ dictGet m "review_snippets" = .arr snippets ∧
    .str s ∈ snippets ∧ s ≠ ""

/-- What is left of an array are its elements, pruned, that are not empty then. -/
theorem mem_pruneElems {l : List Json} {v : Json} :
    v ∈ pruneElems l ↔ ∃ w ∈ l, v = pruneEmpty w ∧ isEmptyValue v = false := by
  induction l with
  | nil => simp [pruneElems]
  | cons w l ih =>
    rw [pruneElems, List.exists_mem_cons_iff]
    split
    · rename_i hempty
      rw [ih, or_iff_right]
      -- what was dropped is empty, so it is not the element
      rintro ⟨rfl, hne⟩
      rw [hempty] at hne
      cases hne
    · rename_i hne
      -- an element that stays
      rw [List.mem_cons, ih]
      refine or_congr_left ⟨?_, fun h => h.1⟩
      rintro rfl
      exact ⟨rfl, by simpa using hne⟩

/-- What a pruned dictionary holds under a key. -/
theorem lookup_pruneFields {m : List (String × Json)} (h : (m.map Prod.fst).Nodup) (k : String) :
    (pruneFields m).lookup k =
      ((m.lookup k).map pruneEmpty).filter fun v => !isEmptyValue v := by
  induction m with
  | nil => rfl
  | cons f m ih =>
    obtain ⟨key, v⟩ := f
    rw [List.map_cons, List.nodup_cons] at h
    rw [pruneFields]
    by_cases hk : k = key
    · subst hk
      rw [List.lookup_cons, beq_self_eq_true]
      split
      · -- pruned here, and no other entry has the key
        rename_i hempty
        have hnone : m.lookup k = none := by
          rw [← Option.not_isSome_iff_eq_none, isSome_lookup_iff]
          exact h.1
        rw [ih h.2, hnone, Option.map_some, Option.filter_some, if_neg (by simp [hempty])]
        rfl
      · -- kept under the same key
        rename_i hkept
        rw [Option.map_some, Option.filter_some, if_pos (by simp [hkept]), List.lookup_cons,
          beq_self_eq_true]
    · rw [lookup_cons_of_ne hk, ← ih h.2]
      split
      · rfl
      · rw [lookup_cons_of_ne hk]

/-- The snippets a view comes with. -/
theorem snippets_summaryPlaceView (i : Int) (name : String) (category : Option String)
    (snippets : List String) : ∃ m,
      pruneEmpty (summaryPlaceView i name category snippets) = .obj m ∧
      m.lookup "review_snippets" =
        (some (.arr (pruneElems (snippets.map fun s => .str (sanitizeText s summarySnippetMax))))
          ).filter fun v => !isEmptyValue v := by
  unfold summaryPlaceView
  refine ⟨_, by rw [pruneEmpty], ?_⟩
  rw [lookup_pruneFields]
  · rw [← pruneEmpty]
    rfl
  · show ["place_id", "name", "category", "review_snippets"].Nodup
    decide

/-- The snippets shown are the legible ones, sanitized. -/
theorem mem_shownSnippets {snippets : List String} {v : Json} :
    v ∈ pruneElems (snippets.map fun s => .str (sanitizeText s summarySnippetMax)) ↔
      ∃ s ∈ snippets, v = .str (sanitizeText s summarySnippetMax) ∧ Legible s := by
  have hempty : ∀ s, isEmptyValue (.str (sanitizeText s summarySnippetMax)) = false ↔ Legible s := by
    intro s
    rw [← sanitizeText_ne_empty_iff (show 0 < summarySnippetMax by decide)]
    exact beq_eq_false_iff_ne
  rw [mem_pruneElems]
  constructor
  · rintro ⟨w, hw, rfl, hne⟩
    obtain ⟨s, hs, rfl⟩ := List.mem_map.mp hw
    exact ⟨s, hs, rfl, (hempty s).mp hne⟩
  · rintro ⟨s, hs, rfl, hlegible⟩
    exact ⟨_, List.mem_map_of_mem hs, rfl, (hempty s).mpr hlegible⟩

/-- A view comes with a snippet if and only if one of its snippets is legible. -/
theorem carriesSnippet_iff (i : Int) (name : String) (category : Option String)
    (snippets : List String) :
    CarriesSnippet (pruneEmpty (summaryPlaceView i name category snippets)) ↔
      ∃ s ∈ snippets, Legible s := by
  obtain ⟨m, hm, hlookup⟩ := snippets_summaryPlaceView i name category snippets
  unfold CarriesSnippet dictGet
  rw [hm]
  constructor
  · -- a listed snippet is the sanitized form of a legible one
    rintro ⟨m', shown, s, hm', hshown, hs, hne⟩
    cases hm'
    rw [hlookup, Option.filter_some] at hshown
    split at hshown
    · cases hshown
      obtain ⟨t, ht, -, hlegible⟩ := mem_shownSnippets.mp hs
      exact ⟨t, ht, hlegible⟩
    · cases hshown
  · -- a legible snippet stays, and the list with it
    rintro ⟨s, hs, hlegible⟩
    have hmem := mem_shownSnippets.mpr ⟨s, hs, rfl, hlegible⟩
    refine ⟨m, _, _, rfl, ?_, hmem, (sanitizeText_ne_empty_iff (by decide)).mpr hlegible⟩
    rw [hlookup, Option.filter_some, if_pos]
    · rfl
    · have hne := List.ne_nil_of_mem hmem
      simpa [isEmptyValue] using hne

/-! ### The question -/

/-- Within the budget the model is asked. -/
theorem askBullets_asks {system prompt : String} {r r' : SummaryRun}
    {answer : Except PyExn BulletsEnvelope}
    (hbudget : (r.state.llmCallsUsed.getD 0 : Int) < env.maxLlmCalls)
    (h : askBullets env system prompt r = (answer, r')) : r'.asked ≠ [] := by
  -- whoever generates asks first
  have hgenerate : ∀ {prompt answer r r'}, generateBullets env system prompt r = (answer, r') →
      r'.asked ≠ [] := by
    intro prompt answer r r' hgen
    cases hgen
    simp
  unfold askBullets at h
  rw [if_neg (not_le.mpr hbudget)] at h
  split at h
  · rename_i hgen
    split at h
    · cases h
      exact hgenerate hgen
    · exact hgenerate h
  · rename_i hgen
    cases h
    exact hgenerate hgen

/-- Places to show and a budget are enough to ask. -/
theorem asked_ne_nil (h : preparedViews env.maxPlaces places ≠ []) (hcalls : 0 < env.maxLlmCalls) :
    (ainvokeSummary env places).2.asked ≠ [] := by
  cases hask : askBullets env summarySystem (summaryPrompt env places)
    (preparedRun env places) with
  | mk answer r =>
  have hasked : r.asked ≠ [] := askBullets_asks (by rw [preparedRun_eq h]; exact hcalls) hask
  obtain ⟨hrefused, hanswered⟩ := ainvokeSummary_asking h hask
  cases answer with
  | error e =>
    -- the summary failed, after it was asked for
    rw [hrefused e rfl]
    exact hasked
  | ok envelope =>
    -- the summary was written
    rw [hanswered envelope rfl]
    exact hasked

/-- Without a budget nothing is asked. -/
theorem asked_eq_nil (places : List SummaryPlace) (hcalls : env.maxLlmCalls ≤ 0) :
    (ainvokeSummary env places).2.asked = [] := by
  by_cases hnothing : preparedViews env.maxPlaces places = []
  · rw [ainvokeSummary_nothing hnothing]
    rfl
  · have hask : askBullets env summarySystem (summaryPrompt env places) (preparedRun env places) =
        (.error .llmBudgetExceeded, preparedRun env places) := by
      unfold askBullets
      rw [if_pos]
      rw [preparedRun_eq hnothing]
      exact hcalls
    rw [(ainvokeSummary_asking hnothing hask).1 _ rfl]
    rfl

/-! ### The places that come with a snippet -/

/-- No evidence, no question: each place a prompt lists comes with a snippet, and
    nothing is asked if none would. -/
structure NoEvidenceNoQuestion (env : SummaryEnv) (places : List SummaryPlace) : Prop where
  lists : ∀ p ∈ (ainvokeSummary env places).2.asked,
    (∃ rest, p = "<places>" ++
      dumpJson env.platform (.arr (summaryEntries env.maxPlaces places)) ++ "</places>\n" ++ rest) ∧
    ∀ entry ∈ summaryEntries env.maxPlaces places, CarriesSnippet entry
  asks : (∀ entry ∈ summaryEntries env.maxPlaces places, ¬ CarriesSnippet entry) →
    (ainvokeSummary env places).2.asked = []

/-- A place whose snippets, if they are not all blank, are not all made of blanks
    and controls either. -/
def Backed (place : SummaryPlace) : Prop :=
  (∃ s ∈ place.snippets, ∃ c ∈ s.toList, isSpace c = false) → ∃ s ∈ place.snippets, Legible s

/-- The entry of a place comes with a snippet if and only if one is legible. -/
theorem carriesSnippet_place_iff (n : Nat) (place : SummaryPlace) :
    CarriesSnippet (pruneEmpty (summaryPlaceView n place.name place.category
      (usableSnippets place))) ↔ ∃ s ∈ place.snippets, Legible s := by
  rw [carriesSnippet_iff]
  unfold usableSnippets
  constructor
  · rintro ⟨s, hs, hlegible⟩
    exact ⟨s, List.mem_of_mem_filter hs, hlegible⟩
  · rintro ⟨s, hs, c, hc, hspace, hcontrol⟩
    have husable : strip s ≠ "" := strip_ne_empty_iff.mpr ⟨c, hc, hspace⟩
    exact ⟨s, List.mem_filter.mpr ⟨hs, by simpa using husable⟩, c, hc, hspace, hcontrol⟩

/-- A place that is shown is backed if and only if its entry comes with a
    snippet. -/
theorem Shown.backed_iff {n : Nat} {place : SummaryPlace} (h : Shown maxPlaces places n place) :
    Backed place ↔ CarriesSnippet (pruneEmpty (summaryPlaceView n place.name place.category
      (usableSnippets place))) := by
  rw [carriesSnippet_place_iff]
  obtain ⟨s, hs, husable⟩ := h.usable
  exact ⟨fun hbacked => hbacked ⟨s, hs, strip_ne_empty_iff.mp husable⟩, fun h _ => h⟩

/-- With a budget, a place that is not backed is asked about without a snippet. -/
theorem NoEvidenceNoQuestion.backed (h : NoEvidenceNoQuestion env places)
    (hcalls : 0 < env.maxLlmCalls) {place : SummaryPlace}
    (hplace : place ∈ pyTake env.maxPlaces places) : Backed place := by
  intro hink
  obtain ⟨n, hn⟩ := List.mem_iff_getElem?.mp hplace
  obtain ⟨s, hs, husable⟩ := hink
  have hshown : Shown env.maxPlaces places n place := ⟨hn, s, hs, strip_ne_empty_iff.mpr husable⟩
  have hviews := mem_preparedViews.mpr ⟨n, place, hshown, rfl⟩
  obtain ⟨p, hp⟩ := List.exists_mem_of_ne_nil _ (asked_ne_nil (List.ne_nil_of_mem hviews) hcalls)
  have hcarries := (h.lists p hp).2 _ (mem_summaryEntries.mpr ⟨n, place, hshown, rfl⟩)
  exact hshown.backed_iff.mpr hcarries ⟨s, hs, husable⟩

/-- Every place that is asked about comes with a snippet if and only if no place
    within the limit has only blanks and controls to show, or nothing may be
    asked at all. -/
theorem evidence_iff (env : SummaryEnv) (places : List SummaryPlace) :
    NoEvidenceNoQuestion env places ↔
      env.maxLlmCalls ≤ 0 ∨ ∀ place ∈ pyTake env.maxPlaces places, Backed place := by
  constructor
  · intro h
    by_cases hcalls : env.maxLlmCalls ≤ 0
    · exact Or.inl hcalls
    · exact Or.inr fun place hplace => h.backed (not_le.mp hcalls) hplace
  · rintro (hcalls | hbacked)
    · -- without calls there is nothing to prove
      have hnone := asked_eq_nil places hcalls
      constructor
      · intro p hp
        rw [hnone] at hp
        cases hp
      · exact fun _ => hnone
    · have hcarries : ∀ entry ∈ summaryEntries env.maxPlaces places, CarriesSnippet entry := by
        intro entry hentry
        obtain ⟨n, place, hshown, rfl⟩ := mem_summaryEntries.mp hentry
        exact hshown.backed_iff.mp (hbacked place (List.mem_of_getElem? hshown.getElem))
      constructor
      · intro p hp
        obtain ⟨-, rest, rfl⟩ := asked_summary hp
        rw [summaryPrompt_eq]
        exact ⟨⟨rest, rfl⟩, hcarries⟩
      · intro hnone
        -- a question means a place, and that place carries a snippet
        by_contra hasked
        obtain ⟨p, hp⟩ := List.exists_mem_of_ne_nil _ hasked
        obtain ⟨hviews, -⟩ := asked_summary hp
        obtain ⟨shown, hshown⟩ := List.exists_mem_of_ne_nil _ hviews
        obtain ⟨n, place, hplace, -⟩ := mem_preparedViews.mp hshown
        have hentry := mem_summaryEntries.mpr ⟨n, place, hplace, rfl⟩
        exact hnone _ hentry (hcarries _ hentry)

/-- A review that is a zero-width space. -/
def invisibleReview : SummaryPlaceRequest := reviewedPlace "\u200b" (by decide)

/-- It is no blank, so the place is shown, and nothing of it is left when the
    model is asked. -/
theorem evidence_invisible :
    ¬ NoEvidenceNoQuestion sampleSummaryEnv [invisibleReview.toPlace] := by
  intro h
  have hbacked : Backed invisibleReview.toPlace := h.backed (by decide) (List.mem_singleton_self _)
  obtain ⟨s, hs, c, hc, -, hcontrol⟩ :=
    hbacked ⟨"\u200b", List.mem_singleton_self _, '\u200b', by decide, by decide⟩
  cases List.mem_singleton.mp hs
  cases List.mem_singleton.mp hc
  revert hcontrol
  decide

end MapServiceAgent.Native
