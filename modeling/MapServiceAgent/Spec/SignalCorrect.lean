import MapServiceAgent.Native.Judge
import MapServiceAgent.Spec.DoneStreamCorrect
import MapServiceAgent.Spec.PromptCorrect

/-!
# What the training signal says of a job

The training signal is made of the state a job ends in, long after the model was
asked. What it tells of the selection was written by the nodes that searched and
selected, and no later one writes over it.

## Key results

- `told_of_reaches`: a job that tells how its places were found has found them
- `admitsInvention_signal`: so its training signal admits no made-up places
- `traced_of_reaches`: what a job keeps of the selection is what the model was asked
- `signal_truthful`: what the training signal tells is what the job has done
-/

namespace MapServiceAgent.Native

variable {env : Env} {jobId : String} {req : AgentRequest} {s s' : AgentState} {j j' : Job}

/-! ### What a job tells of its places -/

/-- Nothing was searched for yet. -/
structure Unsearched (s : AgentState) : Prop where
  path : s.selectionPath = none
  candidates : s.candidates.getD [] = []

/-- Nothing was selected yet, and what was found was found at a source. -/
structure Searched (s : AgentState) : Prop where
  path : s.selectionPath = none
  grounded : s.candidates.getD [] ≠ [] → s.grounded = some true

/-- Places that a path is told for were found at a source. -/
def Told (s : AgentState) : Prop :=
  s.failed = false → s.selectionPath = none ∨
    (s.selectionPath = some "select" ∨ s.selectionPath = some "route") ∧ s.grounded = some true

/-- Before the search nothing was selected, and nothing found that was made up. -/
theorem Unsearched.searched (h : Unsearched s) : Searched s :=
  ⟨h.path, fun hne => absurd h.candidates hne⟩

/-- Before the selection no path is told. -/
theorem Searched.told (h : Searched s) : Told s := fun _ => .inl h.path

/-- A node that keeps the path and the sources, and no error away. -/
theorem Told.keep (h : Told s) (hpath : s'.selectionPath = s.selectionPath)
    (hgrounded : s'.grounded = s.grounded) (hfailed : s'.failed = false → s.failed = false) :
    Told s' := by
  intro hok
  rw [hpath, hgrounded]
  exact h (hfailed hok)

/-- A search that finds anything finds it at a source. -/
theorem searchPlaces_searched (h : searchPlaces env s = .ok s') (hs : Unsearched s) :
    Searched s' := by
  have hpath : s'.selectionPath = none := by
    rw [searchPlaces_frame h]
    exact hs.path
  refine ⟨hpath, fun hne => ?_⟩
  unfold searchPlaces at h
  dsimp only at h
  split at h
  · cases h
    -- a failed state is handed on
    exact absurd hs.candidates hne
  split at h
  · -- a search that failed leaves no candidates
    split at h
    · cases h
      -- found in the hub, so grounded
      exact absurd rfl hne
    · cases h
  split at h
  · obtain ⟨candidates, -, h⟩ := bind_eq_ok.mp h
    split at h
    · cases h
      -- the hub's places came to no candidate
      exact absurd rfl hne
    · cases h
      rfl
  · cases h
    exact absurd rfl hne

/-- The filter keeps candidates of a source only. -/
theorem rulesFilter_searched (h : rulesFilter env s = .ok s') (hs : Searched s) :
    Searched s' := by
  have hpath : s'.selectionPath = none := by
    rw [rulesFilter_frame h]
    exact hs.path
  refine ⟨hpath, ?_⟩
  unfold rulesFilter at h
  split at h
  · cases h
    -- a failed state is handed on
    exact hs.grounded
  obtain ⟨query, hquery, h⟩ := bind_eq_ok.mp h
  split at h
  · cases h
    -- nothing to ask: no candidates, no rules, no mobility
    exact hs.grounded
  · -- there were candidates to ask about
    have hne : s.candidates.getD [] ≠ [] := by
      intro hnil
      unfold filterQuery at hquery
      dsimp only at hquery
      rw [if_pos (.inl hnil)] at hquery
      cases hquery
    split at h
    · split at h
      · cases h
        -- the hub gave no answer, and all candidates stay
        exact hs.grounded
      · cases h
    · obtain ⟨filtered, -, h⟩ := bind_eq_ok.mp h
      split at h
      · cases h
        -- nobody is left
        exact fun hnil => absurd rfl hnil
      · cases h
        exact fun _ => hs.grounded hne

/-- The ranking rearranges them. -/
theorem scoreAndRank_searched (h : scoreAndRank env s = .ok s') (hs : Searched s) :
    Searched s' := by
  have hframe := scoreAndRank_frame h
  refine ⟨by rw [hframe]; exact hs.path, ?_⟩
  unfold scoreAndRank at h
  dsimp only at h
  split at h
  · cases h
    -- a failed state is handed on
    exact hs.grounded
  split at h
  · cases h
    -- nothing to rank
    exact hs.grounded
  · rename_i hsome
    rw [hframe]
    exact fun _ => hs.grounded (not_or.mp hsome).1

/-- What is selected was selected from candidates. -/
theorem selectFresh_told {out : Except PyExn Unit} (h : selectFresh env j = (out, j'))
    (hs : Searched j.state) : Told j'.state := by
  unfold selectFresh at h
  dsimp only at h
  split at h
  · cases h
    -- no candidates: the job fails
    exact fun hok => by cases hok
  · rename_i hne
    split at h
    · cases h
      -- the cap raises before the path is set
      exact hs.told
    · rw [selectPlaces_frame h]
      exact fun _ => .inr ⟨.inl rfl, hs.grounded fun hnil => hne hnil⟩

/-- Merging the pinned places takes no error away. -/
theorem finishPlaces_unfailed {pinned : List Place} (hok : (finishPlaces pinned s).failed = false) :
    s.failed = false := by
  cases hs : s.failed with
  | false => rfl
  | true =>
    rw [failed_finishPlaces hs] at hok
    exact hs.symm.trans hok

/-- The places the user gave need no path; the others were selected. -/
theorem recommendPlaces_told {out : Except PyExn Unit} (h : recommendPlaces env j = (out, j'))
    (hs : Searched j.state) : Told j'.state := by
  -- pinning places searches for none
  have hpinned : ∀ {pinned s s₁ b}, verifiedPins env j.state = .ok (pinned, s) →
      pinPlaces s pinned = (b, s₁) → Searched s₁ := fun hpins hpin => by
    rw [pinned_frame hpins hpin]
    exact ⟨hs.path, hs.grounded⟩
  cases recommendPlaces_run h with
  | failed _ => exact hs.told
  | raisedPins _ => exact hs.told
  | unverified _ hfailed => exact fun hok => absurd (hfailed.symm.trans hok) (by decide)
  | filled hpins _ hpin => exact fun _ => .inl (hpinned hpins hpin).path
  | raised hpins _ hpin hfresh => exact selectFresh_told hfresh (hpinned hpins hpin)
  | selected hpins _ hpin hfresh =>
    refine (selectFresh_told hfresh (hpinned hpins hpin)).keep ?_ ?_ finishPlaces_unfailed
    · rw [finishPlaces_frame]
    · rw [finishPlaces_frame]

/-- A route that was loaded is one of verified places. -/
theorem loadGivenPlaces_told (h : loadGivenPlaces env s = .ok s') (hs : Unsearched s) : Told s' := by
  unfold loadGivenPlaces at h
  split at h
  · cases h
    -- failed before
    exact hs.searched.told
  split at h
  · cases h
    -- no places given: the job fails
    exact fun hok => by cases hok
  · obtain ⟨⟨places, s₁⟩, hverify, h⟩ := bind_eq_ok.mp h
    cases h
    have hframe := verifySelectedPlaces_frame hverify
    intro hok
    have hs₁ : s₁.failed = false := hok
    refine .inr ⟨.inr ?_, ?_⟩
    · rw [hframe]
    · dsimp only
      rw [hs₁]
      rfl

/-- What is known of a job that comes to a node. -/
def Marked : AgentNode → AgentState → Prop
  | .parseInput, s | .fetchWeather, s | .planStrategy, s | .loadGivenPlaces, s
  | .searchPlaces, s => Unsearched s
  | .rulesFilter, s | .scoreAndRank, s | .recommendPlaces, s => Searched s
  | _, s => Told s

/-- What is known before the search is known of a job that comes past it, too. -/
theorem Unsearched.marked {m : AgentNode} (h : Unsearched s) : Marked m s := by
  cases m <;> first | exact h | exact h.searched | exact h.searched.told

/-- The nodes behind the selection. -/
def lateNodes : List AgentNode :=
  [.recommendRoute, .buildTimeline, .fitTimeBudget, .llmReason, .buildPayload, .publishDone]

/-- A job that tells the truth is known to, at each node behind the selection. -/
theorem Told.marked {m : AgentNode} (h : Told s) (hm : m ∈ lateNodes) : Marked m s := by
  simp only [lateNodes, List.mem_cons, List.not_mem_nil, or_false] at hm
  rcases hm with rfl | rfl | rfl | rfl | rfl | rfl <;> exact h

/-- A node hands on what is known of the job. -/
theorem marked_step {n m : AgentNode} (h : Marked n j.state) (hnode : runNode env n j = (.ok (), j'))
    (hedge : edge j'.state n = some m) : Marked m j'.state := by
  have hsucc := edge_mem_successors hedge
  have hfailed : j'.state.failed = false → j.state.failed = false := failed_of_runNode hnode
  -- before the search nothing is written, and behind the selection nothing is written over
  have hearly : j'.state.selectionPath = j.state.selectionPath →
      j'.state.candidates = j.state.candidates → Unsearched j.state → Marked m j'.state :=
    fun hpath hcandidates hs => Unsearched.marked
      ⟨hpath.trans hs.path, by rw [hcandidates]; exact hs.candidates⟩
  have hlate : n.successors ⊆ lateNodes → Told j'.state → Marked m j'.state :=
    fun hsub htold => htold.marked (hsub hsucc)
  have hkeep : n.successors ⊆ lateNodes → j'.state.selectionPath = j.state.selectionPath →
      j'.state.grounded = j.state.grounded → Told j.state → Marked m j'.state :=
    fun hsub hpath hgrounded htold => hlate hsub (htold.keep hpath hgrounded hfailed)
  have hnext : ∀ {k}, m ∈ [k] → Marked k j'.state → Marked m j'.state := fun hm hk => by
    rw [List.mem_singleton.mp hm]
    exact hk
  cases n with
  | parseInput =>
    have hframe := parseInput_frame (ofState_ok hnode)
    exact hearly (by rw [hframe]) (by rw [hframe]) h
  | fetchWeather =>
    have hframe := fetchWeather_frame (ofState_ok hnode)
    exact hearly (by rw [hframe]) (by rw [hframe]) h
  | planStrategy =>
    have hframe := planStrategy_frame (ofState_ok hnode)
    exact hearly (by rw [hframe]) (by rw [hframe]) h
  | searchPlaces => exact hnext hsucc (searchPlaces_searched (ofState_ok hnode) h)
  | rulesFilter => exact hnext hsucc (rulesFilter_searched (ofState_ok hnode) h)
  | scoreAndRank => exact hnext hsucc (scoreAndRank_searched (ofState_ok hnode) h)
  | loadGivenPlaces => exact hlate (by decide) (loadGivenPlaces_told (ofState_ok hnode) h)
  | recommendPlaces => exact hlate (by decide) (recommendPlaces_told hnode h)
  | recommendRoute =>
    -- from here on the path is only handed on
    have hframe := recommendRoute_frame (ofState_ok hnode)
    exact hkeep (by decide) (by rw [hframe]) (by rw [hframe]) h
  | buildTimeline =>
    have hframe := buildTimeline_frame (ofState_ok hnode)
    exact hkeep (by decide) (by rw [hframe]) (by rw [hframe]) h
  | fitTimeBudget =>
    have hframe := fitTimeBudget_frame (ofState_ok hnode)
    exact hkeep (by decide) (by rw [hframe]) (by rw [hframe]) h
  | llmReason =>
    have hframe := llmReason_frame hnode
    exact hkeep (by decide) (by rw [hframe]) (by rw [hframe]) h
  | buildPayload =>
    have hframe := buildPayload_frame (ofState_ok hnode)
    exact hkeep (by decide) (by rw [hframe]) (by rw [hframe]) h
  | publishDone => cases hedge

/-- What is known of a job holds at every node it comes to. -/
theorem marked_of_reaches {n : AgentNode} (h : (agentGraph env).Reaches (Job.start jobId req) n j) :
    Marked n j.state := by
  have hstart : Unsearched (Job.start jobId req).state := ⟨rfl, rfl⟩
  refine h.assert (fun n j => Marked n j.state) ?_ fun _ _ _ _ => marked_step
  exact hstart

/-- A job that comes to publish tells the truth about its places. -/
theorem told_of_reaches (h : (agentGraph env).Reaches (Job.start jobId req) .publishDone j) :
    Told j.state := marked_of_reaches h

/-! ### What a job has asked -/

/-- From one state of a job to a later one only questions of this kind were asked. -/
def AsksOnly (schema : ResponseSchema) (j j' : Job) : Prop :=
  ∃ asked, j'.invocations = j.invocations ++ asked ∧ ∀ inv ∈ asked, inv.schema = schema

section Asks

variable {schema : ResponseSchema} {j₁ j₂ : Job}

/-- Nothing was asked. -/
theorem AsksOnly.of_eq (h : j'.invocations = j.invocations) : AsksOnly schema j j' :=
  ⟨[], by rw [h, List.append_nil], fun _ hinv => absurd hinv List.not_mem_nil⟩

/-- What was asked on the way to a state and on from there. -/
theorem AsksOnly.trans (h₁ : AsksOnly schema j j₁) (h₂ : AsksOnly schema j₁ j₂) :
    AsksOnly schema j j₂ := by
  obtain ⟨asked₁, hasked₁, hschema₁⟩ := h₁
  obtain ⟨asked₂, hasked₂, hschema₂⟩ := h₂
  refine ⟨asked₁ ++ asked₂, by rw [hasked₂, hasked₁, List.append_assoc], fun inv hinv => ?_⟩
  exact (List.mem_append.mp hinv).elim (hschema₁ inv) (hschema₂ inv)

/-- Only the log of a job counts. -/
theorem AsksOnly.congr (h : AsksOnly schema j j') (h₁ : j₁.invocations = j.invocations)
    (h₂ : j₂.invocations = j'.invocations) : AsksOnly schema j₁ j₂ := by
  obtain ⟨asked, hasked, hschema⟩ := h
  exact ⟨asked, by rw [h₂, hasked, h₁], hschema⟩

/-- One answer of the model is to one question. -/
theorem generateStructured_asksOnly {α : Type} (ask : Ask α) (schema : ResponseSchema)
    (system prompt : String) (usage : List Json) (j : Job) :
    AsksOnly schema j (generateStructured ask schema system prompt usage j).2 :=
  ⟨[_], rfl, fun _ hinv => by rw [List.mem_singleton.mp hinv]⟩

/-- A structured call asks for one kind of answer, the retry included. -/
theorem callStructured_asksOnly {α : Type} {ask : Ask α} {maxCalls : Int} {system prompt : String}
    {answer : Except PyExn α}
    (h : callStructured ask schema maxCalls system prompt j = (answer, j')) :
    AsksOnly schema j j' := by
  unfold callStructured consumeBudget at h
  split at h
  · cases h
    -- the budget is spent, so the model is not asked
    exact .of_eq rfl
  · rename_i s hspend
    have hfirst := generateStructured_asksOnly ask schema system prompt []
      { j with state := s }
    dsimp only at h
    unfold callWithRetry at h
    generalize generateStructured ask schema system prompt [] { j with state := s } = r at h hfirst
    obtain ⟨⟨answer₁, usage⟩, j₁⟩ := r
    have hfirst : AsksOnly schema j j₁ := hfirst.congr rfl rfl
    dsimp only at h
    split at h
    · rename_i truncated rawText cause
      split at h
      · cases h
        -- a bad answer, and no call left for a retry
        exact hfirst.congr rfl rfl
      · -- the corrective retry asks for the same
        have hsecond := generateStructured_asksOnly ask schema system
          (correctivePrompt prompt cause rawText) usage { j₁ with state := j₁.state.spendCall }
        cases h
        exact hfirst.trans (hsecond.congr rfl rfl)
    · cases h
      exact hfirst.congr rfl rfl

/-- What is answered was asked. -/
theorem callStructured_grows {α : Type} {ask : Ask α} {maxCalls : Int} {system prompt : String}
    {a : α} (h : callStructured ask schema maxCalls system prompt j = (.ok a, j')) :
    j'.invocations ≠ j.invocations := by
  obtain ⟨new, hcalled⟩ := callStructured_called h
  have hlength := congrArg List.length hcalled.invocations_eq
  intro hsame
  rw [hsame, List.length_append] at hlength
  cases hcalled <;> simp at hlength

/-- The selection asks for a selection, and has asked where it has not failed. -/
theorem selectPlaces_asksOnly {candidates : List Json} {out : Except PyExn Unit}
    (h : selectPlaces env candidates j = (out, j')) :
    AsksOnly .placesSelection j j' ∧
      (out = .ok () → j'.state.failed = false → j'.invocations ≠ j.invocations) := by
  unfold selectPlaces at h
  split at h
  · cases h
    -- the reviews have raised
    exact ⟨.of_eq rfl, fun hout => by cases hout⟩
  · split at h
    · cases h
      -- the prompt could not be built
      exact ⟨.of_eq rfl, fun hout => by cases hout⟩
    · split at h
      · rename_i e j₁ hanswer
        have hasks := callStructured_asksOnly hanswer
        split at h
        · cases h
          -- a failed call fails the job
          exact ⟨hasks.congr rfl rfl, fun _ hok => by simp at hok⟩
        · cases h
          exact ⟨hasks.congr rfl rfl, fun hout => by cases hout⟩
      · rename_i envelope j₁ hanswer
        have hasks := callStructured_asksOnly hanswer
        have hgrows := callStructured_grows hanswer
        rcases ofState_frame h with ⟨-, _, -, rfl⟩ | ⟨_, rfl, -, rfl⟩
        · -- the answer is taken
          exact ⟨hasks.congr rfl rfl, fun _ _ => hgrows⟩
        · exact ⟨hasks.congr rfl rfl, fun hout => by cases hout⟩

/-- A selection that did not fail keeps the list it was asked about. -/
theorem selectFresh_asksOnly {out : Except PyExn Unit} (h : selectFresh env j = (out, j')) :
    AsksOnly .placesSelection j j' ∧ (out = .ok () → j'.state.failed = false →
      j'.invocations ≠ j.invocations ∧ j'.state.selectionPath = some "select" ∧
      ∃ capped, capCandidates (j.state.candidates.getD []) (candidateLimit env j.state.request) =
        .ok capped ∧ j'.state.candidates = some capped) := by
  unfold selectFresh at h
  dsimp only at h
  split at h
  · cases h
    -- no candidates: the job fails
    exact ⟨.of_eq rfl, fun _ hok => by cases hok⟩
  · split at h
    · cases h
      exact ⟨.of_eq rfl, fun hout => by cases hout⟩
    · rename_i capped hcap
      obtain ⟨hasks, hgrows⟩ := selectPlaces_asksOnly h
      refine ⟨hasks.congr rfl rfl, fun hout hok => ⟨hgrows hout hok, ?_, capped, hcap, ?_⟩⟩
      · rw [selectPlaces_frame h]
      · rw [selectPlaces_frame h]

/-- A question for reasons is asked as one. -/
theorem askReasons_asksOnly {targets : List Place} {suffix : String}
    {answer : Except PyExn ReasonEnvelope} (h : askReasons env targets suffix j = (answer, j')) :
    AsksOnly .reasonEnvelope j j' := by
  unfold askReasons at h
  dsimp only at h
  split at h
  · cases h
    exact .of_eq rfl
  · exact callStructured_asksOnly h

/-- The second question for reasons is asked as one, too. -/
theorem completeReasons_asksOnly {reasons : List (Int × String)} {clothing : String}
    {out : Except PyExn Unit} (h : completeReasons env reasons clothing j = (out, j')) :
    AsksOnly .reasonEnvelope j j' := by
  unfold completeReasons at h
  dsimp only at h
  split at h
  · cases h
    -- every place has its reason, or no call is left
    exact .of_eq rfl
  · split at h
    · rename_i hanswer
      cases h
      exact (askReasons_asksOnly hanswer).congr rfl rfl
    · rename_i hanswer
      split at h <;> cases h <;> exact (askReasons_asksOnly hanswer).congr rfl rfl

/-- The reasons are asked for as reasons. -/
theorem llmReason_asksOnly {out : Except PyExn Unit} (h : llmReason env j = (out, j')) :
    AsksOnly .reasonEnvelope j j' := by
  unfold llmReason at h
  dsimp only at h
  split at h
  · cases h
    -- failed, or no places
    exact .of_eq rfl
  · split at h
    · rename_i hanswer
      split at h <;> cases h <;> exact (askReasons_asksOnly hanswer).congr rfl rfl
    · rename_i hanswer
      exact (askReasons_asksOnly hanswer).trans (completeReasons_asksOnly h)

end Asks

/-! ### What a job has shown and taken -/

/-- The identifiers of the places of a job. -/
def chosenIds (s : AgentState) : List String := (s.places.getD []).filterMap Place.sourceId

/-- A candidate has the identifier, or the source gave it for a place the user picked. -/
def KnownId (env : Env) (req : AgentRequest) (candidates : List Json) (id : String) : Prop :=
  (∃ m, .obj m ∈ candidates ∧ dictGet m "content_id" = .str id) ∨
    ∃ g ∈ req.given.zipIdx, ∃ p, Verified env req g.2 g.1 p ∧ p.contentId = some id

/-- The model saw all candidates of the job in each question of the selection, the path
    tells whether there was one, and what was chosen is known. -/
structure Traced (env : Env) (req : AgentRequest) (j : Job) : Prop where
  shown : ∀ inv ∈ j.invocations, inv.schema = .placesSelection →
    Shows env.platform (j.state.candidates.getD []) inv.prompt
  asked : j.state.selectionPath = some "select" ↔
    ∃ inv ∈ j.invocations, inv.schema = .placesSelection
  route : j.state.selectionPath = some "route" → j.state.candidates.getD [] = []
  known : ∀ id ∈ chosenIds j.state, KnownId env req (j.state.candidates.getD []) id

/-- The identifiers of a job are those its places had at their source. -/
theorem mem_chosenIds {id : String} : id ∈ chosenIds s ↔
    ∃ p ∈ s.places.getD [], p.sourceId = some id := List.mem_filterMap

/-- What a place had at its source is what it goes by. -/
theorem contentId_of_sourceId {p : Place} {id : String} (h : p.sourceId = some id) :
    p.contentId = some id := (Option.filter_eq_some_iff.mp h).1

/-- The identifier of a verified place was given by the source. -/
theorem verified_known {places : List Place} {candidates : List Json}
    (h : List.Forall₂ (fun g p => Verified env req g.2 g.1 p) req.given.zipIdx places)
    {p : Place} (hp : p ∈ places) {id : String} (hid : p.sourceId = some id) :
    KnownId env req candidates id := by
  obtain ⟨g, hg, hverified⟩ := exists_of_mem_right h hp
  exact .inr ⟨g, hg, p, hverified, contentId_of_sourceId hid⟩

/-- The identifier of a selected place is that of a candidate. -/
theorem selected_known {candidates : List Json} {fresh : List Place}
    (h : Selected env req candidates fresh) {p : Place} (hp : p ∈ fresh) {id : String}
    (hid : p.sourceId = some id) : KnownId env req candidates id := by
  obtain ⟨used, hmade, -⟩ := h.made
  obtain ⟨sel, -, hfrom⟩ := exists_of_mem_right hmade hp
  obtain ⟨-, m, hm, hbacks⟩ := hfrom.place
  obtain ⟨cid, hcid, hp, -⟩ := hbacks.contentId
  obtain rfl := Option.some.inj (hp.symm.trans (contentId_of_sourceId hid))
  exact .inl ⟨m, List.mem_of_getElem? hm, hcid⟩

/-- The selection asks about the candidates it leaves, and takes only what is known. -/
theorem recommendPlaces_traced (h : recommendPlaces env j = (.ok (), j'))
    (hpath : j.state.selectionPath = none) (hnone : j.invocations = [])
    (hok : j'.state.failed = false) : Traced env j.state.request j' := by
  cases recommendPlaces_run h with
  | failed hfailed => exact absurd (hfailed.symm.trans hok) (by decide)
  | unverified _ hfailed => exact absurd (hfailed.symm.trans hok) (by decide)
  | @filled pinned s s₁ hpins hs hpin =>
    -- the model is not asked
    obtain ⟨-, hpinned⟩ := verifiedPins_ok hpins hs
    have hkeeps : s₁.selectionPath = none := by
      rw [pinned_frame hpins hpin]
      exact hpath
    refine ⟨fun inv hinv => absurd (hnone ▸ hinv) List.not_mem_nil, ?_, fun hroute => ?_,
      fun id hid => ?_⟩
    · exact iff_of_false (fun hselect => by cases hkeeps.symm.trans hselect)
        fun ⟨inv, hinv, _⟩ => absurd (hnone ▸ hinv) List.not_mem_nil
    · cases hkeeps.symm.trans hroute
    · obtain ⟨p, hp, hid⟩ := mem_chosenIds.mp hid
      exact verified_known (hpinned.forall₂ (List.ne_nil_of_mem hp)).2 hp hid
  | @selected pinned s s₁ j₁ hpins hs hpin hfresh =>
    obtain ⟨-, hpinned⟩ := verifiedPins_ok hpins hs
    obtain ⟨capped, fresh, hcap, hselected, hplaces, -⟩ :=
      selectFresh_finished hpins hpin hfresh hok
    have hframe := pinned_frame hpins hpin
    -- the model was asked, and about what was left after the cap
    obtain ⟨hasks, hgrows⟩ := selectFresh_asksOnly hfresh
    obtain ⟨hgrows, hselect, capped', hcap', hcandidates⟩ :=
      hgrows rfl (finishPlaces_unfailed hok)
    obtain ⟨asked, hasked, hschema⟩ := hasks
    have hasked : j₁.invocations = asked := by rw [hasked, hnone, List.nil_append]
    obtain rfl : capped = capped' := by
      rw [hframe] at hcap'
      exact Except.ok.inj (hcap.symm.trans hcap')
    have hleft : (finishPlaces pinned j₁.state).selectionPath = some "select" ∧
        (finishPlaces pinned j₁.state).candidates = some capped := by
      rw [finishPlaces_frame]
      exact ⟨hselect, hcandidates⟩
    refine ⟨fun inv hinv _ => ?_, iff_of_true hleft.1 ?_, fun hroute => ?_, fun id hid => ?_⟩
    · -- each question lists what was left of the candidates
      rw [hleft.2]
      rcases selectFresh_asks hfresh with hsame | ⟨shown, hshown, hshows⟩
      · exact absurd hsame hgrows
      · rw [hframe] at hshown
        obtain rfl : capped = shown := Except.ok.inj (hcap.symm.trans hshown)
        exact (hshows inv hinv).resolve_left fun hold => absurd (hnone ▸ hold) List.not_mem_nil
    · cases asked with
      | nil => exact absurd (hasked.trans hnone.symm) hgrows
      | cons inv rest =>
        exact ⟨inv, hasked ▸ List.mem_cons_self, hschema inv List.mem_cons_self⟩
    · exact absurd (hleft.1.symm.trans hroute) (by decide)
    · obtain ⟨p, hp, hid⟩ := mem_chosenIds.mp hid
      rw [hplaces, Option.getD_some] at hp
      rw [hleft.2, Option.getD_some]
      split at hp
      · exact selected_known hselected hp hid
      · -- a new number leaves a place its identifier
        obtain ⟨q, hq | hq, i, rfl⟩ := mem_mergePinned hp
        · exact verified_known (hpinned.forall₂ (List.ne_nil_of_mem hq)).2 hq hid
        · exact selected_known hselected hq hid

/-- A route that was loaded was not asked about, and is one of verified places. -/
theorem loadGivenPlaces_traced (h : loadGivenPlaces env j.state = .ok j'.state)
    (hs : Unsearched j.state) (hnone : j'.invocations = []) (hok : j'.state.failed = false) :
    Traced env j.state.request j' := by
  obtain ⟨places, hverify, hplaces⟩ := loadGivenPlaces_ok h hok
  have hcandidates : j'.state.candidates.getD [] = [] := by
    rw [loadGivenPlaces_frame h]
    exact hs.candidates
  have hpath : j'.state.selectionPath = none ∨ j'.state.selectionPath = some "route" := by
    unfold loadGivenPlaces at h
    split at h
    · -- failed before
      exact .inl (Except.ok.inj h ▸ hs.path)
    split at h
    · exact .inl (Except.ok.inj h ▸ hs.path)
    · obtain ⟨⟨_, s₁⟩, hrun, h⟩ := bind_eq_ok.mp h
      rw [← Except.ok.inj h, verifySelectedPlaces_frame hrun]
      -- the path is set before the places are verified
      exact .inr rfl
  refine ⟨fun inv hinv => absurd (hnone ▸ hinv) List.not_mem_nil, iff_of_false ?_ ?_,
    fun _ => hcandidates, fun id hid => ?_⟩
  · intro hselect
    rcases hpath with hpath | hpath
    · cases hpath.symm.trans hselect
    · exact absurd (hpath.symm.trans hselect) (by decide)
  · exact fun ⟨inv, hinv, _⟩ => absurd (hnone ▸ hinv) List.not_mem_nil
  · obtain ⟨p, hp, hid⟩ := mem_chosenIds.mp hid
    rw [hplaces, Option.getD_some] at hp
    exact verified_known (verifyFrom_verified hverify) hp hid

/-- A node behind the selection: of what was asked and chosen it leaves all, or less is
    chosen. -/
structure Follows (j j' : Job) : Prop where
  path : j'.state.selectionPath = j.state.selectionPath
  candidates : j'.state.candidates = j.state.candidates
  asks : AsksOnly .reasonEnvelope j j'
  chosen : chosenIds j'.state ⊆ chosenIds j.state

/-- What was asked and chosen stays so behind the selection. -/
theorem Traced.follows (h : Traced env req j) (hf : Follows j j') : Traced env req j' := by
  obtain ⟨asked, hasked, hschema⟩ := hf.asks
  -- a question of the selection is not among the new ones
  have hold : ∀ inv ∈ j'.invocations, inv.schema = .placesSelection → inv ∈ j.invocations := by
    intro inv hinv hselect
    rw [hasked] at hinv
    refine (List.mem_append.mp hinv).resolve_right fun hnew => ?_
    cases (hschema inv hnew).symm.trans hselect
  refine ⟨fun inv hinv hselect => ?_, ?_, fun hroute => ?_, fun id hid => ?_⟩
  · rw [hf.candidates]
    exact h.shown inv (hold inv hinv hselect) hselect
  · rw [hf.path, h.asked]
    constructor
    · rintro ⟨inv, hinv, hselect⟩
      exact ⟨inv, hasked ▸ List.mem_append_left _ hinv, hselect⟩
    · rintro ⟨inv, hinv, hselect⟩
      exact ⟨inv, hold inv hinv hselect, hselect⟩
  · rw [hf.candidates]
    exact h.route (hf.path.symm.trans hroute)
  · rw [hf.candidates]
    exact h.known id (hf.chosen hid)

/-- Of the places that are dropped the rest stay. -/
theorem dropPlaces_subset {pf : Platform} {dropped : List Int}
    (h : dropPlaces pf s dropped = .ok s') : s'.places.getD [] ⊆ s.places.getD [] := by
  unfold dropPlaces at h
  split at h
  · cases h
    exact List.Subset.refl _
  · obtain ⟨legs, -, h⟩ := bind_eq_ok.mp h
    cases h
    exact List.filter_subset_self _

/-- What does not fit is dropped. -/
theorem fitTimeBudget_subset (h : fitTimeBudget env s = .ok s') :
    s'.places.getD [] ⊆ s.places.getD [] := by
  unfold fitTimeBudget at h
  dsimp only at h
  repeat' split at h
  · cases h
    exact List.Subset.refl _
  · cases h
    exact List.Subset.refl _
  · cases h
    exact List.Subset.refl _
  · -- some day runs over, and places are dropped from it
    unfold trimTimeline at h
    obtain ⟨⟨stay, dropped⟩, -, h⟩ := bind_eq_ok.mp h
    obtain ⟨s₁, hdrop, h⟩ := bind_eq_ok.mp h
    obtain ⟨layout, -, h⟩ := bind_eq_ok.mp h
    have hsub := dropPlaces_subset hdrop
    split at h <;> cases h <;> exact hsub

/-- What is added to the places leaves their identifiers. -/
theorem buildPayload_chosenIds (h : buildPayload s = .ok s') : chosenIds s' = chosenIds s := by
  unfold buildPayload at h
  dsimp only at h
  split at h
  · cases h
    rfl
  · split at h
    · cases h
      rfl
    · -- reasons and times are added to the places
      rename_i places hplaces
      cases h
      unfold chosenIds
      rw [hplaces, Option.getD_some, Option.getD_some, List.filterMap_map]
      rfl

/-- The nodes behind the selection follow it. -/
theorem follows_of_runNode {n : AgentNode} (hn : n ∈ lateNodes) (hpublish : n ≠ .publishDone)
    (h : runNode env n j = (.ok (), j')) : Follows j j' := by
  have hstate : ∀ {f : AgentState → Except PyExn AgentState}, JobM.ofState f j = (.ok (), j') →
      (f j.state = .ok j'.state → j'.state.selectionPath = j.state.selectionPath ∧
        j'.state.candidates = j.state.candidates ∧ chosenIds j'.state ⊆ chosenIds j.state) →
      Follows j j' := by
    intro f hrun hkeeps
    obtain ⟨hpath, hcandidates, hchosen⟩ := hkeeps (ofState_ok hrun)
    refine ⟨hpath, hcandidates, .of_eq ?_, hchosen⟩
    rcases ofState_frame hrun with ⟨-, _, -, rfl⟩ | ⟨_, -, -, rfl⟩ <;> rfl
  have hids : ∀ {s s' : AgentState}, s'.places.getD [] ⊆ s.places.getD [] →
      chosenIds s' ⊆ chosenIds s := fun hsub => List.filterMap_subset _ hsub
  simp only [lateNodes, List.mem_cons, List.not_mem_nil, or_false] at hn
  rcases hn with rfl | rfl | rfl | rfl | rfl | rfl
  · refine hstate h fun hrun => ?_
    -- the route
    rw [recommendRoute_frame hrun]
    exact ⟨rfl, rfl, List.Subset.refl _⟩
  · refine hstate h fun hrun => ?_
    -- the timeline
    rw [buildTimeline_frame hrun]
    exact ⟨rfl, rfl, List.Subset.refl _⟩
  · refine hstate h fun hrun => ?_
    -- places may be dropped
    have hsub := hids (fitTimeBudget_subset hrun)
    have hframe := fitTimeBudget_frame hrun
    exact ⟨by rw [hframe], by rw [hframe], hsub⟩
  · -- the model is asked, but for reasons
    have hframe := llmReason_frame h
    refine ⟨by rw [hframe], by rw [hframe], llmReason_asksOnly h, ?_⟩
    rw [hframe]
    exact List.Subset.refl _
  · refine hstate h fun hrun => ?_
    have hframe := buildPayload_frame hrun
    refine ⟨by rw [hframe], by rw [hframe], ?_⟩
    rw [buildPayload_chosenIds hrun]
    exact List.Subset.refl _
  · exact absurd rfl hpublish

/-- A job without an error comes to a node behind the selection from another one, or from
    one of the two that select. -/
theorem late_pred {n m : AgentNode} (h : edge s n = some m) (hm : m ∈ lateNodes)
    (hok : s.failed = false) :
    n ∈ lateNodes ∧ n ≠ .publishDone ∨ n = .recommendPlaces ∨ n = .loadGivenPlaces := by
  have hsucc := edge_mem_successors h
  by_cases hpayload : m = .buildPayload
  · subst hpayload
    -- an unfailed job comes to its payload from two nodes only
    rcases edge_buildPayload hok h with rfl | rfl <;> exact .inl (by decide)
  · -- the other edges, one by one
    clear h
    cases n <;> cases m <;> first
      | exact absurd rfl hpayload
      | exact absurd hsucc (by decide)
      | exact absurd hm (by decide)
      | decide

/-- What a job that comes behind the selection tells of it is so. -/
theorem traced_of_reaches {n : AgentNode}
    (h : (agentGraph env).Reaches (Job.start jobId req) n j) (hn : n ∈ lateNodes)
    (hok : j.state.failed = false) : Traced env req j := by
  revert hn hok
  refine h.assert_reached
    (fun n j => n ∈ lateNodes → j.state.failed = false → Traced env req j) ?_ ?_
  · exact fun hn => absurd (show AgentNode.parseInput ∈ lateNodes from hn) (by decide)
  · intro n m j j' hreach ih hnode hedge hm hok
    have hbudget := budgetAt_of_reaches hreach
    have hmarked := marked_of_reaches hreach
    rcases late_pred hedge hm hok with ⟨hn, hne⟩ | rfl | rfl
    · -- behind the selection already
      exact (ih hn (failed_of_runNode hnode hok)).follows (follows_of_runNode hn hne hnode)
    · -- the places were recommended
      have htraced := recommendPlaces_traced hnode hmarked.path (hbudget.unasked (by decide)) hok
      rwa [hbudget.request] at htraced
    · -- the places were given
      have hquiet := (runNode_quiet (n := .loadGivenPlaces) rfl hnode).1
      have htraced := loadGivenPlaces_traced (ofState_ok hnode) hmarked
        (hquiet.trans (hbudget.unasked (by decide))) hok
      rwa [hbudget.request] at htraced

/-! ### The training signal -/

variable {stream : StreamEnv}

/-- What the training signal says, for what the calls cost. -/
def StreamEnv.signal (stream : StreamEnv) (s : AgentState) (usage : List (String × Json)) :
    List (String × Json) :=
  stream.signalHead s (s.selectionPath.getD "") ++
    ("candidates", .arr (trainingCandidates 0 (s.candidates.getD []))) :: stream.signalTail s usage

/-- A signal that is told is this text. -/
theorem trainingSignal_text {text : String} (h : trainingSignal stream s = .ok (some text)) :
    Collects stream s ∧ ∃ usage, usageFields (s.llmUsage.getD []) = .ok usage ∧
      text = dumpJson stream.platform (.obj (stream.signal s usage)) := by
  by_cases hcollects : Collects stream s
  · rw [trainingSignal_of_collects hcollects] at h
    obtain ⟨usage, husage, h⟩ := bind_eq_ok.mp h
    exact ⟨hcollects, usage, husage, (Option.some.inj (Except.ok.inj h)).symm⟩
  · rw [trainingSignal_of_not_collects hcollects] at h
    cases h

/-- The signal of a job that tells the truth admits no made-up places. -/
theorem admitsInvention_signal (htold : Told s) (hcollects : Collects stream s)
    (usage : List (String × Json)) :
    admitsInvention (.obj (stream.signal s usage)) = .ok false := by
  obtain ⟨-, hok, hpath⟩ := hcollects
  rcases htold hok with hnone | ⟨hpath, hgrounded⟩
  · rw [hnone] at hpath
    exact absurd rfl hpath
  · unfold StreamEnv.signal StreamEnv.signalHead
    rw [hgrounded]
    rcases hpath with hpath | hpath <;> rw [hpath] <;> rfl

/-! ### The entries of the signal -/

/-- An entry of the prompt and one of the training signal: of the same candidate, which the
    one has as its index and the other as its rank. -/
def SameEntry (reviews : List (PyKey × List String)) (shown entry : Json) : Prop :=
  ∃ i m view fields, candidateView reviews i m = .ok view ∧ pruneEmpty view = shown ∧
    shown = .obj (("index", .int i) :: fields) ∧ entry = trainingCandidate i m

/-- The candidates a prompt lists are those of the entries, in their order. -/
def ListsEntries (pf : Platform) (entries : List Json) (prompt : String) : Prop :=
  ∃ reviews shown before after, List.Forall₂ (SameEntry reviews) shown entries ∧
    prompt = before ++ ("<candidates>" ++ dumpJson pf (.arr shown) ++ "</candidates>\n") ++ after

/-- A prompt and the training signal list the same candidates, under the same numbers. -/
theorem sameEntry_views {reviews : List (PyKey × List String)} {i : Nat}
    {candidates views : List Json} (h : candidateViews reviews i candidates = .ok views) :
    List.Forall₂ (SameEntry reviews) (pruneElems views) (trainingCandidates i candidates) := by
  induction candidates generalizing i views with
  | nil =>
    cases h
    exact .nil
  | cons c rest ih =>
    cases c with
    | obj m =>
      rw [candidateViews] at h
      obtain ⟨view, hview, h⟩ := bind_eq_ok.mp h
      obtain ⟨views', hviews, h⟩ := bind_eq_ok.mp h
      cases h
      -- a view has its number, so it is not pruned away
      obtain ⟨fields, hfields⟩ := pruneEmpty_candidateView hview
      have hkept : pruneElems (view :: views') = pruneEmpty view :: pruneElems views' := by
        rw [pruneElems, hfields]
        rfl
      rw [hkept, trainingCandidates]
      exact .cons ⟨i, m, view, fields, hview, rfl, hfields, rfl⟩ (ih hviews)
    -- what is no dictionary is in neither, and uses up a number in both
    | _ => exact ih (i := i + 1) h

/-- A prompt that shows the candidates lists the entries of the signal. -/
theorem Shows.listsEntries {pf : Platform} {candidates : List Json} {prompt : String}
    (h : Shows pf candidates prompt) : ListsEntries pf (trainingCandidates 0 candidates) prompt := by
  obtain ⟨reviews, shown, before, after, hshown, hprompt⟩ := h
  obtain ⟨views, hviews, hshown⟩ := bind_eq_ok.mp hshown
  obtain rfl := Except.ok.inj hshown
  exact ⟨reviews, _, before, after, sameEntry_views hviews, hprompt⟩

/-- An identifier that some entry has. -/
def HasEntry (entries : List Json) (id : String) : Prop :=
  ∃ fields, .obj fields ∈ entries ∧ dictGet fields "content_id" = .str id

/-- A candidate with an identifier has its entry in the signal. -/
theorem hasEntry_of_mem {candidates : List Json} {m : List (String × Json)} {id : String}
    (hm : .obj m ∈ candidates) (hid : dictGet m "content_id" = .str id) (i : Nat) :
    HasEntry (trainingCandidates i candidates) id := by
  induction candidates generalizing i with
  | nil => exact absurd hm List.not_mem_nil
  | cons c rest ih =>
    rcases List.mem_cons.mp hm with rfl | hm
    · exact ⟨_, List.mem_cons_self, hid⟩
    · obtain ⟨fields, hfields, hcid⟩ := ih hm (i + 1)
      refine ⟨fields, ?_, hcid⟩
      cases c with
      | obj _ => exact List.mem_cons_of_mem _ hfields
      -- what is no dictionary has no entry
      | _ => exact hfields

/-! ### What the signal tells -/

/-- What a training signal with these candidates and these choices tells of a job is what
    the job has done. -/
structure Truthful (env : Env) (req : AgentRequest) (j : Job) (signal : List (String × Json))
    (entries : List Json) (ids : List String) : Prop where
  request : signal.lookup "request" = some (safeRequestView req)
  grounded : signal.lookup "grounded" = some (.bool true)
  candidates : signal.lookup "candidates" = some (.arr entries)
  chosen : signal.lookup "chosen_content_ids" = some (.arr (ids.map .str))
  /-- The path tells whether the model was asked to select. -/
  path : (signal.lookup "path" = some (.str "select") ∧
      ∃ inv ∈ j.invocations, inv.schema = .placesSelection) ∨
    (signal.lookup "path" = some (.str "route") ∧ entries = [] ∧
      ∀ inv ∈ j.invocations, inv.schema ≠ .placesSelection)
  /-- Whenever it was asked, it saw these candidates under these numbers. -/
  shown : ∀ inv ∈ j.invocations, inv.schema = .placesSelection →
    ListsEntries env.platform entries inv.prompt
  known : ∀ id ∈ ids, HasEntry entries id ∨
    ∃ g ∈ req.given.zipIdx, ∃ p, Verified env req g.2 g.1 p ∧ p.contentId = some id
  published : ∀ p, donePayload j.state = .ok p → ids = (p.places.getD []).filterMap Place.sourceId

/-- A result publishes the places of the state. -/
theorem donePayload_places {p : JobDonePayload} (h : donePayload s = .ok p)
    (hok : s.failed = false) : p.places = s.places := by
  unfold donePayload at h
  rw [if_neg (by simp [hok])] at h
  obtain ⟨places, hplaces, h⟩ := bind_eq_ok.mp h
  obtain ⟨order, -, h⟩ := bind_eq_ok.mp h
  obtain ⟨legs, -, h⟩ := bind_eq_ok.mp h
  cases h
  unfold item at hplaces
  split at hplaces
  · rename_i l hl
    rw [hl, Except.ok.inj hplaces]
  · cases hplaces

/-- The training signal of a job tells what the job has done: whether the model was asked
    to select, the candidates it then saw under the numbers it saw them under, and the
    identifiers of the published places, each that of such a candidate or one the source
    gave for a place the user picked. -/
theorem signal_truthful (h : (agentGraph env).Reaches (Job.start jobId req) .publishDone j)
    {text : String} (hsignal : trainingSignal stream j.state = .ok (some text)) :
    ∃ signal entries ids, text = dumpJson stream.platform (.obj signal) ∧
      Truthful env req j signal entries ids := by
  obtain ⟨hcollects, usage, -, htext⟩ := trainingSignal_text hsignal
  obtain ⟨-, hok, hpath⟩ := hcollects
  have htraced := traced_of_reaches h (by decide) hok
  have hrequest : j.state.request = req := (budgetAt_of_reaches h).request
  refine ⟨_, trainingCandidates 0 (j.state.candidates.getD []), chosenIds j.state, htext, ?_⟩
  rcases told_of_reaches h hok with hnone | ⟨hpath, hgrounded⟩
  · exact absurd (by rw [hnone]; rfl) hpath
  constructor
  · rw [← hrequest]
    rfl
  · unfold StreamEnv.signal StreamEnv.signalHead
    rw [hgrounded]
    rfl
  · rfl
  · rfl
  · rcases hpath with hselect | hroute
    · -- the places were selected
      refine .inl ⟨?_, htraced.asked.mp hselect⟩
      unfold StreamEnv.signal StreamEnv.signalHead
      rw [hselect]
      rfl
    · -- the route was given
      refine .inr ⟨?_, ?_, fun inv hinv hschema => ?_⟩
      · unfold StreamEnv.signal StreamEnv.signalHead
        rw [hroute]
        rfl
      · rw [htraced.route hroute]
        rfl
      · have hselect := htraced.asked.mpr ⟨inv, hinv, hschema⟩
        exact absurd (hroute.symm.trans hselect) (by decide)
  · exact fun inv hinv hschema => (htraced.shown inv hinv hschema).listsEntries
  · exact fun id hid => (htraced.known id hid).imp_left fun ⟨m, hm, hcid⟩ =>
      hasEntry_of_mem hm hcid 0
  · intro p hp
    rw [donePayload_places hp hok]
    rfl

/-- The training signal of the sample trip. -/
theorem signal_truthful_sample : ∃ j signal entries ids,
    (agentGraph sampleEnv).Reaches (Job.start "j" (sampleTrip .init)) .publishDone j ∧
      Truthful sampleEnv (sampleTrip .init) j signal entries ids := by
  have hends : (ainvoke sampleEnv "j" (sampleTrip .init)).1.toOption.isSome = true := by
    decide +kernel
  obtain ⟨u, hu⟩ := returns_of_isSome hends
  obtain ⟨j, hreaches, hstate⟩ := comes_publishDone hu
  have hcollects : Collects sampleStream j.state := by
    rw [hstate]
    exact ⟨rfl, by decide +kernel, by decide +kernel⟩
  have husage : j.state.llmUsage.getD [] = [] := by
    rw [hstate]
    exact List.isEmpty_iff.mp (by decide +kernel)
  have hsignal := trainingSignal_of_collects hcollects
  rw [husage] at hsignal
  obtain ⟨signal, entries, ids, -, htruthful⟩ := signal_truthful hreaches hsignal
  exact ⟨j, signal, entries, ids, hreaches, htruthful⟩

end MapServiceAgent.Native
