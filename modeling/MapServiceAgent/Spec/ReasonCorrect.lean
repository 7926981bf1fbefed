import MapServiceAgent.ForStd.Dict
import MapServiceAgent.Spec.AgentGraphCorrect
import MapServiceAgent.Spec.ItineraryCorrect
import MapServiceAgent.Spec.OptionalSteps

/-!
# The reasons of the places

Two answers of the model are put together by the rule that the first word about
a place counts. Whatever becomes of the two questions, the places stay as they
are, and the job is degraded exactly when one of them is left without a reason.

## Key results

- `lookup_collectReasons`, `lookup_mergeReasons`: the first word counts
- `Asked`: which questions are asked, and about which places
- `reasons_settled`: the places at the end of the two nodes
-/

namespace MapServiceAgent.Native

variable {env : Env} {j j' : Job} {places : List Place}

/-! ### The first word about a place -/

/-- The first reason the entries give a place. -/
def firstReason (entries : List PlaceReason) (pid : Int) : Option String :=
  (entries.find? fun r => r.placeId = pid).map (·.reason)

/-- The reason collected for a place is the first given for it, if it is one of the trip. -/
theorem lookup_collectReasons (validIds : List Int) (entries : List PlaceReason) (pid : Int) :
    (collectReasons validIds entries).lookup pid =
      if pid ∈ validIds then firstReason entries pid else none := by
  -- one entry is a `setDefault` under its place, or nothing
  have hstep : ∀ (d : List (Int × String)) (r : PlaceReason),
      (if r.placeId ∈ validIds ∧ (d.lookup r.placeId).isNone then d ++ [(r.placeId, r.reason)]
        else d) =
      ((if decide (r.placeId ∈ validIds) then some (r.placeId, r.reason) else none).elim d
        (setDefault d)) := by
    intro d r
    by_cases hvalid : r.placeId ∈ validIds
    · rw [if_pos (decide_eq_true hvalid), if_congr (and_iff_right hvalid) rfl rfl]
      rfl
    · rw [if_neg fun h => hvalid h.1, if_neg (by simpa using hvalid)]
      rfl
  unfold collectReasons
  rw [foldl_eq_setDefault hstep, lookup_foldl_setDefault, List.lookup_nil, Option.none_or,
    lookup_filterMap]
  unfold firstReason
  by_cases hpid : pid ∈ validIds
  · rw [if_pos hpid]
    congr 2
    funext r
    by_cases hr : r.placeId = pid <;> simp [hr, hpid]
  · -- an invented id is never collected
    rw [if_neg hpid, Option.map_eq_none_iff, List.find?_eq_none]
    intro r _ hr
    simp only [Bool.and_eq_true, decide_eq_true_eq] at hr
    exact hpid (hr.2 ▸ hr.1)

/-- Of two collections the earlier has the first word. -/
theorem lookup_mergeReasons (reasons more : List (Int × String)) (pid : Int) :
    (mergeReasons reasons more).lookup pid = (reasons.lookup pid).or (more.lookup pid) :=
  lookup_foldl_setDefault more reasons pid

/-! ### The questions -/

/-- The reason an answer gives a place. -/
def reasonIn : Except PyExn ReasonEnvelope → Int → Option String
  | .ok envelope, pid => firstReason envelope.reasons pid
  | .error _, _ => none

/-- The places an answer leaves without a reason. -/
def uncovered (answer : Except PyExn ReasonEnvelope) (places : List Place) : List Place :=
  places.filter fun p => (reasonIn answer p.placeId).isNone

/-- The questions of `llm_reason`: one about all places, and another about those
    left without a reason if there are any and the budget allows. -/
inductive Asked (env : Env) (places : List Place) (j : Job) : Except PyExn ReasonEnvelope →
    Option (Except PyExn ReasonEnvelope) → Job → Prop where
  | failed {e : PyExn} {j' : Job} : askReasons env places "" j = (.error e, j') →
      Asked env places j (.error e) none j'
  | once {envelope : ReasonEnvelope} {j' : Job} :
      askReasons env places "" j = (.ok envelope, j') →
      uncovered (.ok envelope) places = [] ∨
        env.settings.geminiMaxCallsPerRequest ≤ j'.state.callsUsed →
      Asked env places j (.ok envelope) none j'
  | again {envelope : ReasonEnvelope} {retry : Except PyExn ReasonEnvelope} {j₁ j' : Job} :
      askReasons env places "" j = (.ok envelope, j₁) → uncovered (.ok envelope) places ≠ [] →
      j₁.state.callsUsed < env.settings.geminiMaxCallsPerRequest →
      askReasons env (uncovered (.ok envelope) places) coverageFeedback j₁ = (retry, j') →
      Asked env places j (.ok envelope) (some retry) j'

/-- The reason a place ends with. -/
def finalReason (first : Except PyExn ReasonEnvelope) (retry : Option (Except PyExn ReasonEnvelope))
    (pid : Int) : Option String :=
  (reasonIn first pid).or (retry.bind fun answer => reasonIn answer pid)

/-- The answer that comes last. -/
def lastAnswer (first : Except PyExn ReasonEnvelope)
    (retry : Option (Except PyExn ReasonEnvelope)) : Except PyExn ReasonEnvelope :=
  retry.getD first

/-- Asking changes the budget, the usage and the invocations, and nothing else. -/
theorem Asked.frame {first : Except PyExn ReasonEnvelope}
    {retry : Option (Except PyExn ReasonEnvelope)} (h : Asked env places j first retry j') :
    j' = { j with
      state := { j.state with
        llmCallsUsed := j'.state.llmCallsUsed, llmUsage := j'.state.llmUsage }
      invocations := j'.invocations } := by
  cases h with
  | failed hask => exact askReasons_frame hask
  | once hask _ => exact askReasons_frame hask
  | again hask _ _ hretry =>
    -- what one asking leaves, two do
    have hframe := askReasons_frame hretry
    rw [askReasons_frame hask] at hframe
    exact hframe

/-! ### What the node leaves -/

/-- The places without a collected reason are those the answer says nothing about. -/
theorem withoutReason_collect (envelope : ReasonEnvelope) (places : List Place) :
    withoutReason (collectReasons (places.map (·.placeId)) envelope.reasons) places =
      uncovered (.ok envelope) places := by
  refine List.filter_congr fun p hp => ?_
  rw [lookup_collectReasons, if_pos (List.mem_map_of_mem hp)]
  rfl

/-- The reasons a state holds are those of a function, and the job is degraded
    if it leaves a place out. -/
structure Settled (places : List Place) (final : Int → Option String) (s s' : AgentState) :
    Prop where
  error_eq : s'.error = s.error
  places_eq : s'.places = s.places
  reasons_eq : ∀ p ∈ places, (s'.reasons.getD []).lookup p.placeId = final p.placeId
  covered : (∀ p ∈ places, (final p.placeId).isSome) → s'.degradedReason = s.degradedReason
  leftOut : ∀ p ∈ places, final p.placeId = none → s'.degradedReason.isSome

/-- The node ends with the reasons it has, degraded where a place has none. -/
theorem finishReasons_settled {reasons : List (Int × String)} {clothing : String} {s : AgentState}
    {final : Int → Option String} (hplaces : s.places = some places)
    (hnone : s.reasons.getD [] = [])
    (hfinal : ∀ p ∈ places, reasons.lookup p.placeId = final p.placeId) :
    Settled places final s (finishReasons reasons clothing s) := by
  have hframe := finishReasons_frame reasons clothing s
  -- the state is degraded exactly when somebody has no reason
  have hdegraded : (finishReasons reasons clothing s).degradedReason =
      if withoutReason reasons places = [] then s.degradedReason
      else some "reason_coverage_partial" := by
    unfold finishReasons
    rw [hplaces, Option.getD_some]
    dsimp only
    repeat' split
    all_goals rfl
  have hreasons : (finishReasons reasons clothing s).reasons.getD [] = reasons := by
    unfold finishReasons
    dsimp only
    by_cases hempty : reasons = []
    · -- nothing is written over the reasons the state came with
      rw [if_pos hempty, hempty]
      split
      · exact hnone
      · exact hnone
    · rw [if_neg hempty]
      rfl
  constructor
  · rw [hframe]
  · rw [hframe]
  · intro p hp
    -- each place has the reason found for it
    rw [hreasons]
    exact hfinal p hp
  · -- every place has a reason, so none is left out
    intro hall
    rw [hdegraded, if_pos]
    refine List.filter_eq_nil_iff.mpr fun p hp => ?_
    rw [hfinal p hp]
    have := hall p hp
    cases hp' : final p.placeId with
    | none => simp [hp'] at this
    | some _ => simp
  · -- the place left out is one of those without a reason
    intro p hp hleft
    rw [hdegraded, if_neg]
    · rfl
    · refine List.ne_nil_of_mem (a := p) (List.mem_filter.mpr ⟨hp, ?_⟩)
      rw [hfinal p hp, hleft]
      rfl

/-- Both answers collected, the first word about each place kept. -/
theorem lookup_collected {envelope more : ReasonEnvelope} {p : Place} (hp : p ∈ places) :
    (mergeReasons (collectReasons (places.map (·.placeId)) envelope.reasons)
        (collectReasons (places.map (·.placeId)) more.reasons)).lookup p.placeId =
      finalReason (.ok envelope) (some (.ok more)) p.placeId := by
  have hvalid : p.placeId ∈ places.map (·.placeId) := List.mem_map_of_mem hp
  rw [lookup_mergeReasons, lookup_collectReasons, lookup_collectReasons, if_pos hvalid,
    if_pos hvalid]
  rfl

/-- Without a word from the retry, the first answer decides. -/
theorem lookup_collected_first {envelope : ReasonEnvelope}
    {retry : Option (Except PyExn ReasonEnvelope)} {p : Place} (hp : p ∈ places)
    (hsilent : (retry.bind fun answer => reasonIn answer p.placeId) = none) :
    (collectReasons (places.map (·.placeId)) envelope.reasons).lookup p.placeId =
      finalReason (.ok envelope) retry p.placeId := by
  rw [lookup_collectReasons, if_pos (List.mem_map_of_mem hp), finalReason, hsilent, Option.or_none]
  rfl

/-- A run stops with an outcome no handler catches, and settles the reasons otherwise. -/
def SettledBy (places : List Place) (first : Except PyExn ReasonEnvelope)
    (retry : Option (Except PyExn ReasonEnvelope)) (j : Job) (run : Except PyExn Unit × Job) :
    Prop :=
  (∀ e, lastAnswer first retry = .error e → e.isException = false → run = (.error e, j)) ∧
    ((∀ e, lastAnswer first retry = .error e → e.isException = true) →
      ∃ s, run = (.ok (), { j with state := s }) ∧
        Settled places (finalReason first retry) j.state s)

/-- After a first answer: the retry, if there is one, and what it leaves. -/
theorem completeReasons_asked {envelope : ReasonEnvelope} {j₁ : Job}
    (hask : askReasons env places "" j = (.ok envelope, j₁))
    (hplaces : j₁.state.places = some places) (hnone : j₁.state.reasons.getD [] = []) :
    ∃ retry j₂, Asked env places j (.ok envelope) retry j₂ ∧
      SettledBy places (.ok envelope) retry j₂ (completeReasons env
        (collectReasons (places.map (·.placeId)) envelope.reasons) envelope.clothing j₁) := by
  unfold completeReasons
  rw [hplaces, Option.getD_some]
  dsimp only
  rw [withoutReason_collect]
  by_cases hstop : uncovered (.ok envelope) places = [] ∨
      env.settings.geminiMaxCallsPerRequest ≤ j₁.state.callsUsed
  · -- everybody has a reason, or the budget is spent
    rw [if_pos hstop]
    refine ⟨none, j₁, .once hask hstop, ?_, ?_⟩
    · intro e he
      cases he
    · intro _
      exact ⟨_, rfl, finishReasons_settled hplaces hnone fun p hp => lookup_collected_first hp rfl⟩
  · rw [if_neg hstop]
    rw [not_or, not_le] at hstop
    obtain ⟨hleft, hbudget⟩ := hstop
    cases hretry : askReasons env (uncovered (.ok envelope) places) coverageFeedback j₁ with
    | mk retry j₂ =>
    have hframe := askReasons_frame hretry
    have hplaces₂ : j₂.state.places = some places := by rw [hframe, hplaces]
    have hnone₂ : j₂.state.reasons.getD [] = [] := by rw [hframe, hnone]
    refine ⟨some retry, j₂, .again hask hleft hbudget hretry, ?_, ?_⟩
    · -- a cancelled retry is not caught
      intro e he hcancel
      replace he : retry = .error e := he
      subst he
      dsimp only
      rw [if_neg (by simp [hcancel])]
    · intro hcaught
      cases retry with
      | ok more =>
        exact ⟨_, rfl, finishReasons_settled hplaces₂ hnone₂ fun p hp => lookup_collected hp⟩
      | error e =>
        have he : e.isException = true := hcaught e rfl
        dsimp only
        rw [if_pos he]
        exact ⟨_, rfl,
          finishReasons_settled hplaces₂ hnone₂ fun p hp => lookup_collected_first hp rfl⟩

/-- What `llm_reason` makes of the answers. -/
theorem llmReason_asked (env : Env) (hs : j.state.failed = false)
    (hplaces : j.state.places = some places) (hne : places ≠ [])
    (hnone : j.state.reasons.getD [] = []) :
    ∃ first retry j₁, Asked env places j first retry j₁ ∧
      SettledBy places first retry j₁ (llmReason env j) := by
  unfold llmReason
  rw [hplaces, Option.getD_some]
  dsimp only
  rw [if_neg (by simp [hs, hne])]
  cases hask : askReasons env places "" j with
  | mk first j₁ =>
  have hframe := askReasons_frame hask
  have hplaces₁ : j₁.state.places = some places := by rw [hframe, hplaces]
  have hnone₁ : j₁.state.reasons.getD [] = [] := by rw [hframe, hnone]
  cases first with
  | ok envelope =>
    obtain ⟨retry, j₂, hasked, hsettled⟩ := completeReasons_asked hask hplaces₁ hnone₁
    exact ⟨.ok envelope, retry, j₂, hasked, hsettled⟩
  | error e =>
    -- the first question failed: no second one is asked
    refine ⟨.error e, none, j₁, .failed hask, ?_, ?_⟩
    · intro e' he' hcancel
      cases he'
      dsimp only
      rw [if_neg (by simp [hcancel])]
    · intro hcaught
      have he : e.isException = true := hcaught e rfl
      dsimp only
      rw [if_pos he]
      refine ⟨_, rfl, rfl, rfl, fun p _ => ?_, fun hall => ?_, fun _ _ _ => rfl⟩
      · -- nobody answered, and the state came without reasons
        exact (congrArg (List.lookup p.placeId) hnone₁).trans rfl
      · obtain ⟨p, hp⟩ := List.exists_mem_of_ne_nil places hne
        cases hall p hp

/-! ### The places with their reasons -/

/-- The places in their order, each with the reason a function gives it. -/
def WithReasons (final : Int → Option String) (places enriched : List Place) : Prop :=
  List.Forall₂ (fun p q => q.toPlaceFields = p.toPlaceFields ∧ q.reason = final p.placeId)
    places enriched

/-- `build_payload` writes the settled reasons on the places. -/
theorem buildPayload_settled {s s₁ : AgentState} {final : Int → Option String}
    (h : Settled places final s s₁) (hs : s.failed = false) (hplaces : s.places = some places)
    (hfresh : ∀ p ∈ places, p.reason = none) :
    ∃ s' enriched, buildPayload s₁ = .ok s' ∧ s'.error = s.error ∧
      s'.places = some enriched ∧ WithReasons final places enriched ∧
      s'.degradedReason = s₁.degradedReason := by
  have hs₁ : s₁.failed = false := by
    unfold AgentState.failed
    rw [h.error_eq]
    exact hs
  unfold buildPayload
  rw [if_neg (by simp [hs₁]), h.places_eq, hplaces]
  refine ⟨_, _, rfl, h.error_eq, rfl, ?_, rfl⟩
  refine List.forall₂_map_right_iff.mpr (List.forall₂_same.mpr fun p hp => ⟨rfl, ?_⟩)
  -- a place that had no reason gets the one that was settled
  show ((s₁.reasons.getD []).lookup p.placeId).or p.reason = final p.placeId
  rw [h.reasons_eq p hp, hfresh p hp, Option.or_none]

/-- What `llm_reason` and `build_payload` make of a trip without reasons. -/
structure PlacesReasoned (places : List Place) (final : Int → Option String) (s s' : AgentState) :
    Prop where
  error_eq : s'.error = s.error
  places_eq : ∃ enriched, s'.places = some enriched ∧ WithReasons final places enriched
  covered : (∀ p ∈ places, (final p.placeId).isSome) → s'.degradedReason = s.degradedReason
  leftOut : ∀ p ∈ places, final p.placeId = none → s'.degradedReason.isSome

/-- Whatever the model answers, or if it fails, the trip keeps its places in
    their order and stays without an error. Each has the first reason given for
    it, the question about those left out is asked once at most and within the
    budget, and the job is degraded if and only if a place ends without one. -/
theorem reasons_settled (env : Env) (j : Job) (places : List Place)
    (hs : j.state.failed = false) (hplaces : j.state.places = some places) (hne : places ≠ [])
    (hnone : j.state.reasons.getD [] = []) (hfresh : ∀ p ∈ places, p.reason = none) :
    ∃ first retry j₁, Asked env places j first retry j₁ ∧
      (∀ e, lastAnswer first retry = .error e → e.isException = false →
        llmReason env j = (.error e, j₁) ∧ j₁.state.error = j.state.error ∧
          j₁.state.places = some places) ∧
      ((∀ e, lastAnswer first retry = .error e → e.isException = true) →
        ∃ s₁ s', llmReason env j = (.ok (), { j₁ with state := s₁ }) ∧
          buildPayload s₁ = .ok s' ∧ PlacesReasoned places (finalReason first retry) j.state s') := by
  obtain ⟨first, retry, j₁, hasked, hcancel, hcaught⟩ :=
    llmReason_asked env hs hplaces hne hnone
  have hframe := hasked.frame
  have herror : j₁.state.error = j.state.error := by rw [hframe]
  have hplaces₁ : j₁.state.places = some places := by rw [hframe, hplaces]
  have hdegraded : j₁.state.degradedReason = j.state.degradedReason := by rw [hframe]
  have hs₁ : j₁.state.failed = false := by
    unfold AgentState.failed
    rw [herror]
    exact hs
  refine ⟨first, retry, j₁, hasked, ?_, ?_⟩
  · -- what is no exception goes on, after the asking
    intro e he hnot
    exact ⟨hcancel e he hnot, herror, hplaces₁⟩
  · intro hall
    -- whatever was raised is caught, and the payload is built
    obtain ⟨s₁, hnode, hsettled⟩ := hcaught hall
    obtain ⟨s', enriched, hbuild, herror', hplaces', hwith, hdegraded'⟩ :=
      buildPayload_settled hsettled hs₁ hplaces₁ hfresh
    refine ⟨s₁, s', hnode, hbuild, herror'.trans herror, ⟨enriched, hplaces', hwith⟩, ?_, ?_⟩
    · intro hcover
      rw [hdegraded', hsettled.covered hcover, hdegraded]
    · intro p hp hleft
      rw [hdegraded']
      exact hsettled.leftOut p hp hleft

/-- Asked first, the model speaks of one place twice and of one nobody asked
    about; asked again, of both. -/
def halfAnswer (n : Nat) : ReasonEnvelope where
  reasons :=
    if n = 0 then [⟨0, "sea", by decide⟩, ⟨0, "hill", by decide⟩, ⟨9, "gate", by decide⟩]
    else [⟨0, "lake", by decide⟩, ⟨1, "park", by decide⟩]
  clothing := "coat"
  clothing_valid := by decide

/-- A model that gives a reason for one place at a time. -/
def forgetfulGemini : Gemini :=
  { sampleGemini with reasons := fun n _ _ => ([], .ok (halfAnswer n)) }

/-- The sample environment with the forgetful model. -/
def forgetfulEnv : Env := { sampleEnv with gemini := forgetfulGemini }

/-- Two places of the sample trip. -/
def twoPlaces : List Place := [samplePlace, samplePlace.withId 1]

/-- A job with the two places, about to be given reasons. -/
def forgetfulJob : Job where
  state := sampleMidway (.obj []) twoPlaces

/-- Both places end with a reason, each with the first one given for it. -/
theorem reasons_settled_sample : ∃ (s₁ s' : AgentState) (j₁ : Job) (enriched : List Place),
    llmReason forgetfulEnv forgetfulJob = (.ok (), { j₁ with state := s₁ }) ∧
      buildPayload s₁ = .ok s' ∧ s'.places = some enriched ∧
      enriched.map (·.reason) = [some "sea", some "park"] ∧ s'.degradedReason = none := by
  obtain ⟨first, retry, j₁, hasked, -, hcaught⟩ :=
    reasons_settled forgetfulEnv forgetfulJob twoPlaces rfl rfl (List.cons_ne_nil _ _) rfl
      (by decide)
  have hfirst : (askReasons forgetfulEnv twoPlaces "" forgetfulJob).1 = .ok (halfAnswer 0) := rfl
  cases hasked with
  | failed hask =>
    -- the first answer is an envelope
    rw [hask] at hfirst
    cases hfirst
  | @once envelope _ hask hstop =>
    -- one place is uncovered and one call spent, so a second question follows
    have hused : j₁.state.callsUsed = 1 := by
      have hj : (askReasons forgetfulEnv twoPlaces "" forgetfulJob).2.state.callsUsed = 1 := rfl
      rwa [hask] at hj
    rw [hask] at hfirst
    cases hfirst
    rw [hused] at hstop
    exact absurd hstop (by decide)
  | @again envelope answer j₂ _ hask _ _ hretry =>
    have hsecond : (askReasons forgetfulEnv (uncovered (.ok (halfAnswer 0)) twoPlaces)
        coverageFeedback (askReasons forgetfulEnv twoPlaces "" forgetfulJob).2).1 =
        .ok (halfAnswer 1) := rfl
    rw [hask] at hfirst hsecond
    cases hfirst
    rw [hretry] at hsecond
    cases hsecond
    obtain ⟨s₁, s', hnode, hbuild, hreasoned⟩ := hcaught (by intro e he; cases he)
    obtain ⟨enriched, hplaces, hwith⟩ := hreasoned.places_eq
    refine ⟨s₁, s', j₁, enriched, hnode, hbuild, hplaces, ?_, ?_⟩
    · unfold WithReasons twoPlaces at hwith
      obtain ⟨a, rest, ⟨-, ha⟩, hrest, rfl⟩ := List.forall₂_cons_left_iff.mp hwith
      obtain ⟨b, rest, ⟨-, hb⟩, hnil, rfl⟩ := List.forall₂_cons_left_iff.mp hrest
      rw [List.forall₂_nil_left_iff.mp hnil, List.map_cons, List.map_cons, ha, hb]
      rfl
    · exact hreasoned.covered (by decide)

end MapServiceAgent.Native
