import MapServiceAgent.Spec.BudgetCorrect
import MapServiceAgent.Spec.CandidatesCorrect
import MapServiceAgent.Spec.ItineraryCorrect

/-!
# What the selection prompt shows

The prompt lists every candidate under its index, pruning or not, and the
model's answer is read against the same list.

## Key results

- `shown_index`: entry `k` of the prompt is candidate `k` under index `k`
- `recommendPlaces_asks`: the list that is shown is the one that is read
- `selection_candidates`: the candidates of a job, from the search to the answer
-/

namespace MapServiceAgent.Native

variable {pf : Platform} {env : Env} {jobId : String} {req : AgentRequest} {j j' : Job}

/-! ### Entries -/

/-- The entries of the candidate list in a prompt. -/
def shownCandidates (reviews : List (PyKey × List String)) (candidates : List Json) :
    Except PyExn (List Json) := do
  return pruneElems (← candidateViews reviews 0 candidates)

/-- The view of a candidate stands at its place in the list, under that number. -/
theorem candidateViews_getElem {reviews : List (PyKey × List String)} {i : Nat}
    {candidates views : List Json} (hdicts : ∀ c ∈ candidates, c.isDict = true)
    (h : candidateViews reviews i candidates = .ok views) (k : Nat) (m : List (String × Json))
    (hk : candidates[k]? = some (.obj m)) :
    ∃ view, views[k]? = some view ∧ candidateView reviews (i + k) m = .ok view := by
  induction candidates generalizing i k views with
  | nil => exact nomatch hk
  | cons c rest ih =>
    have hc := hdicts c List.mem_cons_self
    cases c with
    | obj fields =>
      rw [candidateViews] at h
      obtain ⟨view, hview, h⟩ := bind_eq_ok.mp h
      obtain ⟨views', hviews, h⟩ := bind_eq_ok.mp h
      cases h
      -- the number of a view is the place of its candidate in the list
      cases k with
      | zero =>
        cases hk
        exact ⟨view, rfl, hview⟩
      | succ k =>
        have h := ih (fun c hc => hdicts c (List.mem_cons_of_mem _ hc)) hviews k hk
        rwa [Nat.add_assoc, Nat.add_comm 1 k] at h
    | _ => exact nomatch hc

/-- A view keeps its index when it is pruned, the index 0 included. -/
theorem pruneEmpty_candidateView {reviews : List (PyKey × List String)} {i : Nat}
    {m : List (String × Json)} {view : Json} (h : candidateView reviews i m = .ok view) :
    ∃ fields, pruneEmpty view = .obj (("index", .int i) :: fields) := by
  obtain ⟨k, -, h⟩ := bind_eq_ok.mp h
  cases h
  exact ⟨_, rfl⟩

/-- Every view shows one of the candidates. -/
theorem mem_candidateViews {reviews : List (PyKey × List String)} {i : Nat}
    {candidates views : List Json} (h : candidateViews reviews i candidates = .ok views) :
    ∀ view ∈ views, ∃ k m, .obj m ∈ candidates ∧ candidateView reviews k m = .ok view := by
  induction candidates generalizing i views with
  | nil =>
    cases h
    exact fun _ h => nomatch h
  | cons c rest ih =>
    have hlater : ∀ {i views}, candidateViews reviews i rest = .ok views → ∀ view ∈ views,
        ∃ k m, .obj m ∈ c :: rest ∧ candidateView reviews k m = .ok view := by
      intro i views hviews view hview
      obtain ⟨k, m, hm, hk⟩ := ih hviews view hview
      exact ⟨k, m, List.mem_cons_of_mem _ hm, hk⟩
    cases c with
    | obj fields =>
      rw [candidateViews] at h
      obtain ⟨view, hview, h⟩ := bind_eq_ok.mp h
      obtain ⟨views', hviews, h⟩ := bind_eq_ok.mp h
      cases h
      intro v hv
      rcases List.mem_cons.mp hv with rfl | hv
      · exact ⟨i, fields, List.mem_cons_self, hview⟩
      · exact hlater hviews v hv
    -- what is no dictionary has no view
    | _ => exact hlater h

/-- Entry `k` of the prompt is the view of candidate `k`, under index `k`. -/
theorem shown_index {reviews : List (PyKey × List String)} {candidates shown : List Json}
    (hdicts : ∀ c ∈ candidates, c.isDict = true)
    (h : shownCandidates reviews candidates = .ok shown) (k : Nat) (m : List (String × Json))
    (hk : candidates[k]? = some (.obj m)) :
    ∃ view fields, candidateView reviews k m = .ok view ∧
      pruneEmpty view = .obj (("index", .int k) :: fields) ∧
      shown[k]? = some (.obj (("index", .int k) :: fields)) := by
  obtain ⟨views, hviews, h⟩ := bind_eq_ok.mp h
  cases h
  obtain ⟨view, hview, hcandidate⟩ := candidateViews_getElem hdicts hviews k m hk
  rw [Nat.zero_add] at hcandidate
  -- a number is never pruned, so every view keeps its own
  obtain ⟨fields, hfields⟩ := pruneEmpty_candidateView hcandidate
  refine ⟨view, fields, hcandidate, hfields, ?_⟩
  rw [pruneElems_eq_map fun v hv => ?_, List.getElem?_map, hview, Option.map_some, hfields]
  obtain ⟨_, _, -, hv⟩ := mem_candidateViews hviews v hv
  obtain ⟨_, hv⟩ := pruneEmpty_candidateView hv
  rw [hv]
  rfl

/-! ### Prompts -/

/-- The prompt lists these candidates. -/
def Shows (pf : Platform) (candidates : List Json) (prompt : String) : Prop :=
  ∃ reviews shown before after, shownCandidates reviews candidates = .ok shown ∧
    prompt = before ++ ("<candidates>" ++ dumpJson pf (.arr shown) ++ "</candidates>\n") ++ after

/-- A prompt that shows candidates shows them with more text after it. -/
theorem Shows.append {candidates : List Json} {prompt : String} (h : Shows pf candidates prompt)
    (rest : String) : Shows pf candidates (prompt ++ rest) := by
  obtain ⟨reviews, shown, before, after, hshown, rfl⟩ := h
  exact ⟨reviews, shown, before, after ++ rest, hshown, by rw [String.append_assoc]⟩

/-- The candidates stand between their tags, without what is empty. -/
theorem tagged_candidates (pf : Platform) (views : List Json) :
    tagged pf "candidates" (.arr views) =
      "<candidates>" ++ dumpJson pf (.arr (pruneElems views)) ++ "</candidates>\n" := by
  have hopen : "<" ++ "candidates" ++ ">" = "<candidates>" := by decide
  have hclose : "</" ++ "candidates" ++ ">\n" = "</candidates>\n" := by decide
  rw [tagged, dumpPromptJson, pruneEmpty, hopen, ← hclose, ← String.append_assoc,
    ← String.append_assoc]

/-- The selection prompt shows the candidates it was made from. -/
theorem buildSelectionPrompt_shows {weather : Json} {candidates : List Json}
    {reviews : List (PyKey × List String)} {plan : Option Plan} {system prompt : String}
    (h : buildSelectionPrompt pf req weather candidates reviews plan = .ok (system, prompt)) :
    Shows pf candidates prompt := by
  obtain ⟨views, hviews, h⟩ := bind_eq_ok.mp h
  have hshown : shownCandidates reviews candidates = .ok (pruneElems views) :=
    bind_eq_ok.mpr ⟨views, hviews, rfl⟩
  have hprompt := congrArg Prod.snd (Except.ok.inj h)
  dsimp only at hprompt
  rw [← hprompt, tagged_candidates]
  -- the candidates stand between what comes before and the plan, if there is one
  generalize tagged pf "user_input" _ ++ _ = before
  have hlist : Shows pf candidates (before ++
      ("<candidates>" ++ dumpJson pf (.arr (pruneElems views)) ++ "</candidates>\n")) :=
    ⟨reviews, _, before, "", hshown, by rw [String.append_empty]⟩
  cases plan with
  | none => exact hlist
  | some plan => exact hlist.append _

/-- A retry asks the same, with the error added. -/
theorem callStructured_invocations {α : Type} {ask : Ask α} {schema : ResponseSchema}
    {maxCalls : Int} {system prompt : String} {answer : Except PyExn α}
    (h : callStructured ask schema maxCalls system prompt j = (answer, j')) :
    ∀ inv ∈ j'.invocations, inv ∈ j.invocations ∨ ∃ rest, inv.prompt = prompt ++ rest := by
  intro inv hinv
  rcases callStructured_prompts h inv hinv with hold | hfirst | ⟨cause, rawText, hretry⟩
  · exact .inl hold
  · exact .inr ⟨"", by rw [hfirst, String.append_empty]⟩
  · exact .inr ⟨errorFeedback cause rawText, hretry⟩

/-! ### The list that is shown and read -/

/-- Every question of the selection lists the candidates its answer is read
    against. -/
theorem selectPlaces_asks {candidates : List Json} {out : Except PyExn Unit}
    (h : selectPlaces env candidates j = (out, j')) :
    ∀ inv ∈ j'.invocations, inv ∈ j.invocations ∨ Shows env.platform candidates inv.prompt := by
  unfold selectPlaces at h
  split at h
  · -- the reviews raised, so nothing was asked
    cases h
    exact fun _ hinv => .inl hinv
  · split at h
    · -- the prompt raised, so nothing was asked
      cases h
      exact fun _ hinv => .inl hinv
    · rename_i system prompt hprompt
      -- a corrective prompt begins with the prompt it corrects
      have hshows := buildSelectionPrompt_shows hprompt
      split at h
      · rename_i e j₁ hanswer
        have hinv := callStructured_invocations hanswer
        have hj' : j'.invocations = j₁.invocations := by
          split at h <;> cases h <;> rfl
        rw [hj']
        exact fun inv hmem => (hinv inv hmem).imp_right fun ⟨rest, hrest⟩ => hrest ▸ hshows.append rest
      · -- the answer is taken, and nothing more is asked
        rename_i envelope j₁ hanswer
        have hinv := callStructured_invocations hanswer
        have hj' : j'.invocations = j₁.invocations := by
          rcases ofState_frame h with ⟨-, _, -, rfl⟩ | ⟨_, -, -, rfl⟩ <;> rfl
        rw [hj']
        exact fun inv hmem => (hinv inv hmem).imp_right fun ⟨rest, hrest⟩ => hrest ▸ hshows.append rest

/-- Selecting fresh places shows the model the capped candidates, or nothing. -/
theorem selectFresh_asks {out : Except PyExn Unit} (h : selectFresh env j = (out, j')) :
    j'.invocations = j.invocations ∨ ∃ capped,
      capCandidates (j.state.candidates.getD []) (candidateLimit env j.state.request) = .ok capped ∧
      ∀ inv ∈ j'.invocations, inv ∈ j.invocations ∨ Shows env.platform capped inv.prompt := by
  unfold selectFresh at h
  dsimp only at h
  split at h
  · -- there are no candidates
    cases h
    exact .inl rfl
  · split at h
    · -- capping them raised
      cases h
      exact .inl rfl
    · -- what the model is shown is what was capped
      rename_i capped hcap
      have hasks := selectPlaces_asks h
      exact .inr ⟨capped, hcap, hasks⟩

/-- The list that is shown to the model is the one its answer is read against. -/
theorem recommendPlaces_asks {out : Except PyExn Unit} (h : recommendPlaces env j = (out, j')) :
    j'.invocations = j.invocations ∨ ∃ capped,
      capCandidates (j.state.candidates.getD []) (candidateLimit env j.state.request) = .ok capped ∧
      (∀ inv ∈ j'.invocations, inv ∈ j.invocations ∨ Shows env.platform capped inv.prompt) ∧
      (out = .ok () → j'.state.failed = false → ∃ pinned fresh,
        Selected env j.state.request capped fresh ∧
        j'.state.places = some (if pinned = [] then fresh else mergePinned pinned fresh)) := by
  -- the pins leave the request and the candidates alone
  have hstate : ∀ {pinned : List Place} {s s₁ : AgentState} {b : Bool},
      verifiedPins env j.state = .ok (pinned, s) → pinPlaces s pinned = (b, s₁) →
      s₁.request = j.state.request ∧ s₁.candidates = j.state.candidates := fun hpins hpin => by
    rw [pinned_frame hpins hpin]
    exact ⟨rfl, rfl⟩
  cases recommendPlaces_run h with
  | failed _ => exact .inl rfl
  | raisedPins _ => exact .inl rfl
  | unverified _ _ => exact .inl rfl
  | filled _ _ _ => exact .inl rfl
  | raised hpins _ hpin hfresh =>
    -- the questions may have been asked before the exception
    obtain ⟨hreq, hcands⟩ := hstate hpins hpin
    refine (selectFresh_asks hfresh).imp_right fun ⟨capped, hcap, hshows⟩ =>
      ⟨capped, ?_, hshows, fun hout => nomatch hout⟩
    rwa [hreq, hcands] at hcap
  | @selected pinned _ _ _ hpins _ hpin hfresh =>
    obtain ⟨hreq, hcands⟩ := hstate hpins hpin
    refine (selectFresh_asks hfresh).imp_right fun ⟨capped, hcap, hshows⟩ =>
      ⟨capped, ?_, hshows, fun _ hok => ?_⟩
    · rwa [hreq, hcands] at hcap
    · obtain ⟨capped', fresh, hcap', hselected, hplaces, -⟩ :=
        selectFresh_finished hpins hpin hfresh hok
      rw [hreq, hcands] at hcap
      obtain rfl : capped = capped' := Except.ok.inj (hcap.symm.trans hcap')
      exact ⟨pinned, fresh, hselected, hplaces⟩

/-- Candidate `sel.index` is the entry the model saw under that index. -/
structure SeenAs (reviews : List (PyKey × List String)) (candidates shown : List Json)
    (sel : PlaceSelection) (m : List (String × Json)) : Prop where
  candidate : candidates[sel.index.toNat]? = some (.obj m)
  entry : ∃ view fields, candidateView reviews sel.index.toNat m = .ok view ∧
    pruneEmpty view = .obj (("index", .int sel.index) :: fields) ∧
    shown[sel.index.toNat]? = some (.obj (("index", .int sel.index) :: fields))

/-- The candidates of a job, from the search to the model's answer. What the
    search keeps is the first of each identifier and all entries without one. What
    the model is shown has no identifier twice and none excluded. Its answer is
    read against that same list, where an index means the entry shown under it. -/
theorem selection_candidates (env : Env) (jobId : String) (req : AgentRequest)
    (hfilter : FilterSublist env.hub) (hids : TextIds env req) :
    (∀ s, Comes env jobId req .rulesFilter s → s.failed = false →
      ∃ results : List Json, searchThemes env req = results.map .ok ∧ s.candidates =
        some (firstAppearances (req.exclude.getD []) (results.flatMap listedPlaces))) ∧
    (∀ j out j', (agentGraph env).Reaches (Job.start jobId req) .recommendPlaces j →
      recommendPlaces env j = (out, j') → j'.invocations ≠ [] →
      ∃ candidates, Distinct (req.exclude.getD []) candidates ∧
        (∀ inv ∈ j'.invocations, Shows env.platform candidates inv.prompt) ∧
        (out = .ok () → j'.state.failed = false →
          ∃ pinned fresh selections prompt system n usage, Shows env.platform candidates prompt ∧
            env.gemini.selection n prompt system = (usage, .ok ⟨selections⟩) ∧
            Taken env req candidates selections fresh ∧
            j'.state.places = some (if pinned = [] then fresh else mergePinned pinned fresh))) ∧
    (∀ exclude candidates, Distinct exclude candidates → ∀ reviews shown,
      shownCandidates reviews candidates = .ok shown → ∀ selections fresh,
      Taken env req candidates selections fresh → ∀ p ∈ fresh, ∃ sel ∈ selections, ∃ m,
        SeenAs reviews candidates shown sel m ∧
        placeFromCandidate env.platform p.placeId (.obj m) sel.recommendedVisitTime sel.day =
          .ok p) := by
  refine ⟨?_, ?_, ?_⟩
  · -- what the search leaves
    rintro s ⟨j, hj, rfl⟩ hok
    obtain ⟨i, hi, hsearch, -⟩ := reaches_pred (n := .searchPlaces) hj (by decide)
      (by intro k; cases k <;> decide)
    have hreq : i.state.request = req := (budgetAt_of_reaches hi).request
    obtain ⟨results, candidates, hresults, hmerged, hcandidates⟩ :=
      searchPlaces_ok (ofState_ok hsearch) hok
    rw [hreq] at hresults hmerged
    exact ⟨results, hresults, by rw [hcandidates, mergedCandidates_eq (hids _ hresults) hmerged]⟩
  · -- what the selection is asked about
    intro j out j' hj hrun hasked
    have hbudget := budgetAt_of_reaches hj
    have hnone : j.invocations = [] := hbudget.unasked (by decide)
    have hreq := hbudget.request
    rcases recommendPlaces_asks hrun with hsame | ⟨capped, hcap, hshows, hfresh⟩
    · exact absurd (hsame.trans hnone) hasked
    · -- a failed state would not have asked
      have hok : j.state.failed = false := by
        cases hf : j.state.failed with
        | false => rfl
        | true =>
          exact absurd ((runNode_failed (n := .recommendPlaces) hrun hf).1.trans hnone) hasked
      obtain ⟨run⟩ := searchRun_of_reaches hj
      rw [hreq] at hfresh
      refine ⟨capped, (run.candidates hok hfilter).sublist (capCandidates_sublist hcap),
        fun inv hinv => (hshows inv hinv).resolve_left ?_, fun hout hok' => ?_⟩
      · rw [hnone]
        exact List.not_mem_nil
      · obtain ⟨pinned, fresh, ⟨selections, hanswered, htaken⟩, hplaces⟩ := hfresh hout hok'
        obtain ⟨weather, reviews, plan, system, prompt, rest, n, usage, hprompt, hask⟩ := hanswered
        exact ⟨pinned, fresh, selections, _, system, n, usage,
          (buildSelectionPrompt_shows hprompt).append rest, hask, htaken, hplaces⟩
  · -- the entry shown under an index is the candidate taken under it
    intro exclude candidates hdistinct reviews shown hshown selections fresh htaken p hp
    obtain ⟨used, hused, hmade, -⟩ := htaken.made
    obtain ⟨sel, hsel, i, c, hc, hplace⟩ := exists_of_mem_right hmade hp
    obtain ⟨hid, -, m, rfl, -⟩ := placeFromCandidate_backs hplace
    obtain ⟨view, fields, hview, hfields, hentry⟩ :=
      shown_index hdistinct.dicts hshown sel.index.toNat m hc
    rw [Int.toNat_of_nonneg sel.index_nonneg] at hfields hentry
    exact ⟨sel, hused hsel, m, ⟨hc, view, fields, hview, hfields, hentry⟩, hid ▸ hplace⟩

/-- The identifiers of the sample candidates are texts. -/
theorem sample_textIds (stage : Stage) : TextIds sampleEnv (sampleTrip stage) := by
  intro results hresults c hc m hm
  have hone : searchThemes sampleEnv (sampleTrip stage) =
      [Json.obj [("places", .arr [sampleCandidate "a", sampleCandidate "b"])]].map Except.ok := rfl
  obtain rfl := List.map_injective_iff.mpr (fun _ _ => Except.ok.inj) (hone.symm.trans hresults)
  subst hm
  rcases List.mem_cons.mp hc with h | h
  · cases h
    exact .inr ⟨"a", rfl⟩
  · cases List.mem_singleton.mp h
    exact .inr ⟨"b", rfl⟩

/-- The search of the sample trip keeps the first of each identifier. -/
theorem selection_candidates_sample : ∃ s, ∃ results : List Json,
    Comes sampleEnv "j" (sampleTrip .init) .rulesFilter s ∧
      searchThemes sampleEnv (sampleTrip .init) = results.map .ok ∧
      s.candidates = some (firstAppearances [] (results.flatMap listedPlaces)) := by
  obtain ⟨p, hp, hdone, -⟩ := sampleTrip_done .init
  obtain ⟨done⟩ := doneRun_of_mem (hp ▸ List.mem_singleton_self p) hdone
  have hok := done.drafted_ok
  have hdraft := done.draft
  generalize done.drafted = s at hok hdraft
  cases hdraft with
  -- the sample trip gives no route
  | given run => exact absurd (run.verified hok).2.1 (by decide)
  | @chosen j j' run comes choose =>
    have hranked := failed_of_runNode (n := .recommendPlaces) choose hok
    obtain ⟨-, -, -, hsearched, -⟩ := run.unfailed hranked
    obtain ⟨results, hresults, hcandidates⟩ := (selection_candidates sampleEnv "j" (sampleTrip .init)
      sampleHub_filterSublist (sample_textIds .init)).1 _ run.comesFilter hsearched
    exact ⟨_, results, run.comesFilter, hresults, hcandidates⟩

end MapServiceAgent.Native
