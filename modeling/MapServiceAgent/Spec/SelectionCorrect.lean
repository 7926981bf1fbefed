import Mathlib.Algebra.Order.BigOperators.Group.List
import MapServiceAgent.Spec.InputCorrect
import MapServiceAgent.Spec.NodeFrames
import MapServiceAgent.Spec.PlacesCorrect

/-!
# What the selection node leaves

An unfailed job leaves `recommend_places` with its verified pins alone, where
they fill the plan, or with them and a fresh selection merged.

## Key results

- `recommendPlaces_ok`: the two ways through the node
- `Recommended.wellPlaced`: numbers are distinct, days are days of the trip
- `Recommended.covers`: every day of the trip has a place
-/

namespace MapServiceAgent.Native

variable {env : Env} {s s' : AgentState} {j j' : Job}

/-! ### Pins -/

/-- The verified places a second search keeps. -/
inductive Pinned (env : Env) (req : AgentRequest) : List Place → Prop where
  | none : (req.stage = .mode1 → req.given = []) → Pinned env req []
  | verified {pinned : List Place} : req.stage = .mode1 → req.given ≠ [] →
      verifyFrom env req 0 req.given = .ok (some pinned) → Pinned env req pinned

/-- Places verified without a failure were all found, and the state is as it was. -/
theorem verifySelectedPlaces_ok {selected : List SelectedPlace} {places : List Place}
    (h : verifySelectedPlaces env s selected = .ok (places, s')) (hok : s'.failed = false) :
    s' = s ∧ verifyFrom env s.request 0 selected = .ok (some places) := by
  unfold verifySelectedPlaces at h
  split at h
  · -- all were found
    rename_i verified hverify
    cases h
    exact ⟨rfl, hverify⟩
  · -- one was not, which fails the state
    cases h
    exact nomatch hok
  · split at h
    · -- the hub could not be asked, which fails it too
      cases h
      simp at hok
    · exact nomatch h

/-- No places are made of no selection only. -/
theorem placesFromSelected_nil {selected : List SelectedPlace}
    (h : placesFromSelected selected = .ok []) : selected = [] := by
  have hlen := (mapM_eq_ok.mp h).length_eq
  simpa using hlen

/-- Pins without a failure are none, or the places given, verified. -/
theorem verifiedPins_ok {pinned : List Place} (h : verifiedPins env s = .ok (pinned, s'))
    (hok : s'.failed = false) : s' = s ∧ Pinned env s.request pinned := by
  unfold verifiedPins pinnedPlaces at h
  by_cases hstage : s.request.stage = .mode1
  · rw [if_pos hstage] at h
    obtain ⟨kept, hkept, h⟩ := bind_eq_ok.mp h
    split at h
    · -- no place was picked, so none is pinned
      rename_i hnil
      cases h
      exact ⟨rfl, .none fun _ => placesFromSelected_nil (hnil ▸ hkept)⟩
    · -- those picked were verified
      rename_i hne
      obtain ⟨rfl, hverify⟩ := verifySelectedPlaces_ok h hok
      refine ⟨rfl, .verified hstage (fun hnil => hne ?_) hverify⟩
      rw [hnil] at hkept
      exact (Except.ok.inj hkept).symm
  · -- the other stages pin nothing
    rw [if_neg hstage] at h
    obtain ⟨kept, hkept, h⟩ := bind_eq_ok.mp h
    cases hkept
    cases h
    exact ⟨rfl, .none fun h => absurd h hstage⟩

/-- Pins that are there were verified one by one. -/
theorem Pinned.forall₂ {req : AgentRequest} {pinned : List Place} (h : Pinned env req pinned)
    (hne : pinned ≠ []) :
    req.stage = .mode1 ∧
      List.Forall₂ (fun g p => Verified env req g.2 g.1 p) req.given.zipIdx pinned := by
  cases h with
  | none _ => exact absurd rfl hne
  | verified hstage _ hverify => exact ⟨hstage, verifyFrom_verified hverify⟩

/-! ### A fresh selection -/

/-- The model answered a prompt built of the candidates, a retry's or not, with
    these selections. -/
def Answered (env : Env) (req : AgentRequest) (candidates : List Json)
    (selections : List PlaceSelection) : Prop :=
  ∃ weather reviews plan system prompt rest n usage,
    buildSelectionPrompt env.platform req weather candidates reviews plan = .ok (system, prompt) ∧
    env.gemini.selection n (prompt ++ rest) system = (usage, .ok ⟨selections⟩)

/-- The places that selections make of the candidates. -/
def Taken (env : Env) (req : AgentRequest) (candidates : List Json)
    (selections : List PlaceSelection) (fresh : List Place) : Prop :=
  placesFromSelections env.platform candidates 0
    (sortedBy (·.day) (chosenSelections (numDays req) candidates.length [] selections)) = .ok fresh

/-- The places the model's answer makes of the candidates it was shown. -/
def Selected (env : Env) (req : AgentRequest) (candidates : List Json) (fresh : List Place) : Prop :=
  ∃ selections, Answered env req candidates selections ∧ Taken env req candidates selections fresh

/-- An answer is one the model gave to the prompt. -/
theorem generateStructured_answer {α : Type} {ask : Ask α} {schema : ResponseSchema}
    {system prompt : String} {usage usage' : List Json} {answer : Except PyExn α}
    (h : generateStructured ask schema system prompt usage j = ((answer, usage'), j')) :
    ∃ n used, ask n prompt system = (used, answer) := by
  unfold generateStructured at h
  cases hask : ask j.invocations.length prompt system with
  | mk used answer' =>
    rw [hask] at h
    cases h
    exact ⟨_, _, hask⟩

/-- An answer is one to the prompt, or to the prompt with the error added. -/
theorem callStructured_answer {α : Type} {ask : Ask α} {schema : ResponseSchema} {maxCalls : Int}
    {system prompt : String} {a : α}
    (h : callStructured ask schema maxCalls system prompt j = (.ok a, j')) :
    ∃ rest n usage, ask n (prompt ++ rest) system = (usage, .ok a) := by
  unfold callStructured consumeBudget at h
  split at h
  · exact nomatch h
  · -- the budget allows a call
    rename_i s₁ hspend
    cases hcall : callWithRetry ask schema maxCalls system prompt { j with state := s₁ } with
    | mk r j₁ =>
      obtain ⟨answer, usage⟩ := r
      rw [hcall] at h
      cases h
      simp only [callWithRetry] at hcall
      -- the answer is the first one, or the one to the corrective prompt
      cases hfirst : generateStructured ask schema system prompt [] { j with state := s₁ } with
      | mk r₁ j₂ =>
        obtain ⟨first, usage₁⟩ := r₁
        simp only [hfirst] at hcall
        split at hcall
        · split at hcall
          · exact nomatch hcall
          · obtain ⟨n, used, hask⟩ := generateStructured_answer hcall
            exact ⟨_, n, used, hask⟩
        · cases hcall
          obtain ⟨n, used, hask⟩ := generateStructured_answer hfirst
          exact ⟨"", n, used, by rwa [String.append_empty]⟩

/-- Without a failure the fresh places are a selection among the candidates. -/
theorem selectPlaces_ok {candidates : List Json} (h : selectPlaces env candidates j = (.ok (), j'))
    (hok : j'.state.failed = false) :
    ∃ fresh, j'.state.places = some fresh ∧ Selected env j.state.request candidates fresh := by
  unfold selectPlaces at h
  split at h
  · exact nomatch h
  · rename_i reviews s₁ henrich
    split at h
    · exact nomatch h
    · rename_i system prompt hprompt
      split at h
      · split at h
        · cases h
          -- the exception was caught, which fails the state
          simp at hok
        · exact nomatch h
      · -- an answer, read against the candidates it was asked about
        rename_i envelope j₁ hanswer
        obtain ⟨rest, n, usage, hask⟩ := callStructured_answer hanswer
        rw [enrichWithReviews_frame henrich] at hprompt
        have hreq : j₁.state.request = j.state.request := by
          rw [callStructured_frame hanswer, enrichWithReviews_frame henrich]
        rcases ofState_frame h with ⟨-, s₂, htake, rfl⟩ | ⟨e, hout, -, -⟩
        · unfold takeSelection at htake
          obtain ⟨fresh, hfresh, htake⟩ := bind_eq_ok.mp htake
          rw [hreq] at hfresh
          split at htake
          · cases htake
            exact nomatch hok
          · cases htake
            exact ⟨fresh, rfl, envelope.selections,
              ⟨_, reviews, _, system, prompt, rest, n, usage, hprompt, hask⟩, hfresh⟩
        · exact nomatch hout

/-- So are they where the candidates were capped first. -/
theorem selectFresh_ok (h : selectFresh env j = (.ok (), j')) (hok : j'.state.failed = false) :
    ∃ capped fresh, capCandidates (j.state.candidates.getD []) (candidateLimit env j.state.request) =
        .ok capped ∧
      j'.state.places = some fresh ∧ Selected env j.state.request capped fresh := by
  unfold selectFresh at h
  dsimp only at h
  split at h
  · -- there are no candidates, which fails the state
    cases h
    exact nomatch hok
  · split at h
    · exact nomatch h
    · rename_i capped hcap
      obtain ⟨fresh, hfresh, hselected⟩ := selectPlaces_ok h hok
      exact ⟨capped, fresh, hcap, hfresh, hselected⟩

/-- Selections that count point at different candidates, on days of the trip. -/
theorem chosenSelections_ok (days : Int) (count : Nat) (seen : List Int)
    (selections : List PlaceSelection) :
    (∀ sel ∈ chosenSelections days count seen selections,
      sel.day ≤ days ∧ sel.index < count ∧ sel.index ∉ seen) ∧
    ((chosenSelections days count seen selections).map (·.index)).Nodup := by
  induction selections generalizing seen with
  | nil => exact ⟨fun _ h => (nomatch h), .nil⟩
  | cons sel rest ih =>
    unfold chosenSelections
    split
    · -- a position taken is not taken again
      rename_i hsel
      obtain ⟨hall, hnodup⟩ := ih (sel.index :: seen)
      refine ⟨fun x hx => ?_, ?_⟩
      · rcases List.mem_cons.mp hx with rfl | hx
        · exact hsel
        · obtain ⟨hday, hcount, hnot⟩ := hall x hx
          exact ⟨hday, hcount, fun h => hnot (List.mem_cons_of_mem _ h)⟩
      · rw [List.map_cons, List.nodup_cons]
        refine ⟨fun hmem => ?_, hnodup⟩
        obtain ⟨x, hx, hindex⟩ := List.mem_map.mp hmem
        exact (hall x hx).2.2 (hindex ▸ List.mem_cons_self)
    · -- it is passed over
      exact ih seen

/-- Those chosen are some of the selections, in their order. -/
theorem chosenSelections_sublist (days : Int) (count : Nat) (seen : List Int)
    (selections : List PlaceSelection) :
    (chosenSelections days count seen selections).Sublist selections := by
  induction selections generalizing seen with
  | nil => exact .slnil
  | cons sel rest ih =>
    unfold chosenSelections
    split
    · exact (ih _).cons_cons _
    · exact (ih _).cons _

/-- The places of a fresh selection, each with the selection it comes from. -/
theorem Taken.made {req : AgentRequest} {candidates : List Json}
    {selections : List PlaceSelection} {fresh : List Place}
    (h : Taken env req candidates selections fresh) :
    ∃ used ⊆ selections, List.Forall₂ (MadeFrom env.platform candidates) used fresh ∧
      (used.map (·.index)).Nodup ∧ (∀ sel ∈ used, sel.day ≤ numDays req) ∧
      used.Pairwise (fun a b => a.day ≤ b.day) := by
  obtain ⟨⟨used, hsub, hmade⟩, -⟩ := placesFromSelections_made h
  obtain ⟨hall, hnodup⟩ := chosenSelections_ok (numDays req) candidates.length [] selections
  -- sorting by day only rearranges what was chosen
  have hperm := sortedBy_perm (fun sel : PlaceSelection => sel.day)
    (chosenSelections (numDays req) candidates.length [] selections)
  refine ⟨used, fun sel hsel => ?_, hmade, ?_, fun sel hsel => ?_, ?_⟩
  · exact (chosenSelections_sublist _ _ _ _).subset (hperm.mem_iff.mp (hsub.subset hsel))
  · exact (hsub.map _).nodup ((hperm.map _).nodup_iff.mpr hnodup)
  · exact (hall sel (hperm.mem_iff.mp (hsub.subset hsel))).1
  · exact (sortedBy_pairwise _ _).sublist hsub

/-- The fresh places are made of selections with different candidates, in day order. -/
theorem Selected.made {req : AgentRequest} {candidates : List Json} {fresh : List Place}
    (h : Selected env req candidates fresh) :
    ∃ used : List PlaceSelection, List.Forall₂ (MadeFrom env.platform candidates) used fresh ∧
      (used.map (·.index)).Nodup ∧ (∀ sel ∈ used, sel.day ≤ numDays req) ∧
      used.Pairwise (fun a b => a.day ≤ b.day) := by
  obtain ⟨selections, -, htaken⟩ := h
  obtain ⟨used, -, hused⟩ := htaken.made
  exact ⟨used, hused⟩

/-- They are numbered from 0 on. -/
theorem Selected.ids {req : AgentRequest} {candidates : List Json} {fresh : List Place}
    (h : Selected env req candidates fresh) :
    fresh.map (·.placeId) = (List.range' 0 fresh.length).map Int.ofNat := by
  obtain ⟨selections, -, htaken⟩ := h
  exact (placesFromSelections_made htaken).2

/-- A place made of a selection is on its day, and backed by its candidate. -/
theorem MadeFrom.place {candidates : List Json} {sel : PlaceSelection} {p : Place}
    (h : MadeFrom env.platform candidates sel p) :
    p.day = sel.day ∧ ∃ m, candidates[sel.index.toNat]? = some (.obj m) ∧
      Backs env.platform m p := by
  obtain ⟨i, c, hc, hplace⟩ := h
  obtain ⟨-, hday, m, rfl, hbacks⟩ := placeFromCandidate_backs hplace
  exact ⟨hday, m, hc, hbacks⟩

/-! ### The two ways through the node -/

/-- The places an unfailed job leaves the node with. -/
inductive Recommended (env : Env) (s : AgentState) (pinned : List Place) : List Place → Prop where
  /-- The pins fill the plan. -/
  | filled : pinned ≠ [] → (remainingTargets
      { s with pinnedContentIds := some (pinned.filterMap Place.sourceId) } pinned).1 = false →
      Recommended env s pinned pinned
  | merged {capped : List Json} {fresh : List Place} :
      capCandidates (s.candidates.getD []) (candidateLimit env s.request) = .ok capped →
      Selected env s.request capped fresh →
      lacksPlaces s.request (if pinned = [] then fresh else mergePinned pinned fresh) = false →
      Recommended env s pinned (if pinned = [] then fresh else mergePinned pinned fresh)

/-- The pins are written down by their sources. -/
theorem pinPlaces_pinnedContentIds (s : AgentState) (pinned : List Place) :
    (pinPlaces s pinned).2.pinnedContentIds = some (pinned.filterMap Place.sourceId) := by
  unfold pinPlaces remainingTargets
  dsimp only
  repeat' split
  all_goals rfl

/-- The model is not asked when the pins fill the plan. -/
theorem pinPlaces_false {pinned : List Place} (h : pinPlaces s pinned = (false, s')) :
    pinned ≠ [] ∧ (remainingTargets
      { s with pinnedContentIds := some (pinned.filterMap Place.sourceId) } pinned).1 = false := by
  unfold pinPlaces at h
  dsimp only at h
  split at h
  · exact nomatch h
  · rename_i hne
    exact ⟨hne, by rw [h]⟩

/-- Without a failure the places are the pins and the fresh ones, and enough. -/
theorem finishPlaces_ok {pinned fresh : List Place} (hplaces : s.places = some fresh)
    (hok : (finishPlaces pinned s).failed = false) :
    (finishPlaces pinned s).places = some (if pinned = [] then fresh else mergePinned pinned fresh) ∧
      lacksPlaces s.request (if pinned = [] then fresh else mergePinned pinned fresh) = false := by
  have hs : s.failed = false := by
    cases hs : s.failed with
    | false => rfl
    | true => simp [finishPlaces, hs] at hok
  unfold finishPlaces at hok ⊢
  rw [if_neg (by simp [hs])] at hok ⊢
  -- with nothing pinned, the fresh places are the places
  by_cases hpinned : pinned = []
  · simp only [hpinned, if_true, hplaces, Option.getD_some] at hok ⊢
    cases hlacks : lacksPlaces s.request fresh with
    | true => simp [hlacks] at hok
    | false => simp [hplaces]
  · simp only [hpinned, if_false, hplaces, Option.getD_some] at hok ⊢
    cases hlacks : lacksPlaces s.request (mergePinned pinned fresh) with
    | true => simp [hlacks] at hok
    | false => simp

/-- What a selection that went well adds to the pins. -/
theorem selectFresh_finished {pinned : List Place} {s₁ : AgentState} {j₁ : Job}
    (hpins : verifiedPins env j.state = .ok (pinned, s)) (hpin : pinPlaces s pinned = (true, s₁))
    (hfresh : selectFresh env { j with state := s₁ } = (.ok (), j₁))
    (hok : (finishPlaces pinned j₁.state).failed = false) :
    ∃ capped fresh, capCandidates (j.state.candidates.getD []) (candidateLimit env j.state.request) =
        .ok capped ∧ Selected env j.state.request capped fresh ∧
      (finishPlaces pinned j₁.state).places =
        some (if pinned = [] then fresh else mergePinned pinned fresh) ∧
      lacksPlaces j.state.request (if pinned = [] then fresh else mergePinned pinned fresh) =
        false := by
  -- the selection had not failed either
  have hj₁ : j₁.state.failed = false := by
    cases hf : j₁.state.failed with
    | false => rfl
    | true => simp [finishPlaces, hf] at hok
  obtain ⟨capped, fresh, hcap, hplaces, hselected⟩ := selectFresh_ok hfresh hj₁
  obtain ⟨hfinal, hlacks⟩ := finishPlaces_ok hplaces hok
  have hframe := pinned_frame hpins hpin
  -- the request and the candidates are those the node started with
  have hreq : j₁.state.request = j.state.request := by rw [selectFresh_frame hfresh, hframe]
  have hs₁ : s₁.request = j.state.request ∧ s₁.candidates = j.state.candidates := by
    rw [hframe]
    exact ⟨rfl, rfl⟩
  rw [hreq] at hlacks
  rw [hs₁.1, hs₁.2] at hcap
  rw [hs₁.1] at hselected
  exact ⟨capped, fresh, hcap, hselected, hfinal, hlacks⟩

/-- The node ends without a failure on verified pins and recommended places. -/
theorem recommendPlaces_ok (h : recommendPlaces env j = (.ok (), j'))
    (hok : j'.state.failed = false) :
    ∃ pinned places, Pinned env j.state.request pinned ∧ Recommended env j.state pinned places ∧
      j'.state.places = some places ∧
      j'.state.pinnedContentIds = some (pinned.filterMap Place.sourceId) := by
  cases recommendPlaces_run h with
  | failed hfailed => exact absurd (hfailed.symm.trans hok) (by decide)
  | unverified _ hfailed => exact absurd (hfailed.symm.trans hok) (by decide)
  | @filled pinned s s₁ hpins hs hpin =>
    obtain ⟨rfl, hpinned⟩ := verifiedPins_ok hpins hs
    have hids := pinPlaces_pinnedContentIds j.state pinned
    rw [hpin] at hids
    -- the pinned places fill every day, and the model is not asked
    obtain ⟨hne, hfilled⟩ := pinPlaces_false hpin
    exact ⟨pinned, pinned, hpinned, .filled hne hfilled, rfl, hids⟩
  | @selected pinned s s₁ j₁ hpins hs hpin hfresh =>
    -- the model chose what the pins left open
    obtain ⟨capped, fresh, hcap, hselected, hfinal, hlacks⟩ :=
      selectFresh_finished hpins hpin hfresh hok
    have hids := pinPlaces_pinnedContentIds s pinned
    rw [hpin] at hids
    refine ⟨pinned, _, (verifiedPins_ok hpins hs).2, .merged hcap hselected hlacks, hfinal, ?_⟩
    rw [finishPlaces_frame, selectFresh_frame hfresh]
    exact hids

/-! ### Numbers and days -/

/-- Distinct numbers, and only days of the trip. -/
structure WellPlaced (req : AgentRequest) (places : List Place) : Prop where
  ids_nodup : (places.map (·.placeId)).Nodup
  day_le : ∀ p ∈ places, p.day ≤ numDays req

/-- A place that was built is on the first day or a later one. -/
theorem Place.one_le_day (p : Place) : 1 ≤ p.day := by
  have h := p.valid
  simp only [PlaceFields.valid, Bool.and_eq_true, decide_eq_true_eq] at h
  omega

/-- A place that was built is in the country. -/
theorem Place.bounds (p : Place) : NumberIn 33 43 p.lat ∧ NumberIn 124 132 p.lng := by
  have hvalid := p.valid
  simp only [PlaceFields.valid, Bool.and_eq_true] at hvalid
  have hrange : floatIn 33 43 p.lat = true ∧ floatIn 124 132 p.lng = true := by tauto
  exact ⟨floatIn_iff.mp hrange.1, floatIn_iff.mp hrange.2⟩

/-- Verified places are numbered apart, and on days of the trip. -/
theorem verified_wellPlaced {req : AgentRequest} {places : List Place} (hreq : ValidRequest req)
    (h : List.Forall₂ (fun g p => Verified env req g.2 g.1 p) req.given.zipIdx places) :
    WellPlaced req places := by
  refine ⟨verified_ids_nodup h, fun p hp => ?_⟩
  have hday : p.day ∈ req.given.map (·.day) := by
    rw [← verified_days h]
    exact List.mem_map_of_mem hp
  obtain ⟨g, hg, hday⟩ := List.mem_map.mp hday
  rw [← hday]
  exact hreq.day_le g hg

/-- So are the fresh ones. -/
theorem Selected.wellPlaced {req : AgentRequest} {candidates : List Json} {fresh : List Place}
    (h : Selected env req candidates fresh) : WellPlaced req fresh := by
  refine ⟨by rw [h.ids]; exact nodup_range'_ofNat _ _, fun p hp => ?_⟩
  obtain ⟨used, hmade, -, hday, -⟩ := h.made
  obtain ⟨sel, hsel, hfrom⟩ := exists_of_mem_right hmade hp
  rw [hfrom.place.1]
  exact hday sel hsel

/-- Numbering places anew numbers them from 0 on. -/
theorem renumber_ids (places : List Place) :
    (renumber places).map (·.placeId) = (List.range' 0 places.length).map Int.ofNat := by
  rw [renumber, List.map_map, ← List.zipIdx_map_snd 0 places, List.map_map]
  rfl

/-- And changes nothing else about them. -/
theorem mem_renumber {places : List Place} {p : Place} (h : p ∈ renumber places) :
    ∃ q ∈ places, ∃ i : Int, p = q.withId i := by
  obtain ⟨⟨q, i⟩, hq, rfl⟩ := List.mem_map.mp h
  exact ⟨q, List.fst_mem_of_mem_zipIdx hq, i, rfl⟩

/-- A merged place is a pinned or a fresh one under a new number. -/
theorem mem_mergePinned {pinned fresh : List Place} {p : Place}
    (h : p ∈ mergePinned pinned fresh) :
    ∃ q, (q ∈ pinned ∨ q ∈ fresh) ∧ ∃ i : Int, p = q.withId i := by
  obtain ⟨q, hq, i, rfl⟩ := mem_renumber h
  rw [mem_sortedBy, List.mem_append] at hq
  exact ⟨q, hq.imp_right List.mem_of_mem_filter, i, rfl⟩

/-- And the recommended ones. -/
theorem Recommended.wellPlaced {pinned places : List Place} (hreq : ValidRequest s.request)
    (hpinned : Pinned env s.request pinned) (h : Recommended env s pinned places) :
    WellPlaced s.request places := by
  have hpins : pinned ≠ [] → WellPlaced s.request pinned := fun hne =>
    verified_wellPlaced hreq (hpinned.forall₂ hne).2
  cases h with
  | filled hne _ => exact hpins hne
  | @merged capped fresh _ hselected _ =>
    split
    · -- nothing was pinned
      exact hselected.wellPlaced
    · -- pins and fresh places, merged and numbered anew
      rename_i hne
      refine ⟨by rw [mergePinned, renumber_ids]; exact nodup_range'_ofNat _ _, fun p hp => ?_⟩
      obtain ⟨q, hq | hq, i, rfl⟩ := mem_mergePinned hp
      · exact (hpins hne).day_le q hq
      · exact hselected.wellPlaced.day_le q hq

/-! ### Coverage -/

/-- Two places at least, and one for every day of the trip. -/
structure Covers (req : AgentRequest) (places : List Place) : Prop where
  two_le : 2 ≤ places.length
  days : ∀ d, 1 ≤ d → d ≤ numDays req → ∃ p ∈ places, p.day = d

/-- Where no place is lacking, there are two at least, and one on every day. -/
theorem covers_of_lacksPlaces {req : AgentRequest} {places : List Place}
    (h : lacksPlaces req places = false) : Covers req places := by
  obtain ⟨hlen, hdays⟩ := Bool.or_eq_false_iff.mp h
  refine ⟨not_lt.mp (of_decide_eq_false hlen), fun d hd hle => ?_⟩
  have hday := List.any_eq_false.mp hdays (d - 1).toNat (List.mem_range.mpr (by omega))
  simp only [Bool.not_eq_true', Bool.not_eq_false, List.any_eq_true, decide_eq_true_eq] at hday
  obtain ⟨p, hp, hday⟩ := hday
  exact ⟨p, hp, by omega⟩

/-- Pins that leave no target are two or more on each day of the plan. -/
theorem two_le_pinnedOn {pinned : List Place} {plan : Plan} {n : Int} (hplan : plan.Covers n)
    (hne : plan.days ≠ []) (hs : s.plan = some plan) (h : (remainingTargets s pinned).1 = false)
    {d : Int} (hd : 1 ≤ d) (hle : d ≤ n) : 2 ≤ pinnedOn pinned d := by
  simp only [remainingTargets, hs, if_neg hne, decide_eq_false_iff_not, not_lt] at h
  obtain ⟨x, hx, rfl⟩ := hplan.days d hd hle
  have htwo := hplan.two_le x hx
  have hmem : max 0 (x.targetStops - pinnedOn pinned x.day) ∈
      (plan.without pinned).days.map (·.targetStops) := by
    rw [Plan.without, List.map_map]
    exact List.mem_map.mpr ⟨x, hx, rfl⟩
  -- what is left to find is nowhere negative, so a sum of 0 is 0 everywhere
  have hnonneg : ∀ t ∈ (plan.without pinned).days.map (·.targetStops), 0 ≤ t := by
    intro t ht
    rw [Plan.without, List.map_map] at ht
    obtain ⟨y, -, rfl⟩ := List.mem_map.mp ht
    exact le_max_left _ _
  have hsum := List.single_le_sum hnonneg _ hmem
  omega

/-- The recommended places cover the days of the plan. -/
theorem Recommended.covers {pinned places : List Place} {plan : Plan}
    (hreq : ValidRequest s.request) (hs : s.plan = some plan)
    (hplan : plan.Covers (numDays s.request)) (h : Recommended env s pinned places) :
    Covers s.request places := by
  cases h with
  -- the node has checked it
  | merged _ _ hlacks => exact covers_of_lacksPlaces hlacks
  | filled _ hfilled =>
    -- the pins alone put two places on every day
    have hone := hreq.one_le_numDays
    obtain ⟨x, hx, -⟩ := hplan.days 1 le_rfl hone
    have htwo : ∀ d, 1 ≤ d → d ≤ numDays s.request → 2 ≤ pinnedOn pinned d := fun d hd hle =>
      two_le_pinnedOn hplan (List.ne_nil_of_mem hx) (by exact hs) hfilled hd hle
    refine ⟨(htwo 1 le_rfl hone).trans List.countP_le_length, fun d hd hle => ?_⟩
    have hpos : 0 < pinned.countP fun p => p.day = d := by
      have := htwo d hd hle
      unfold pinnedOn at this
      omega
    obtain ⟨p, hp, hday⟩ := List.countP_pos_iff.mp hpos
    exact ⟨p, hp, of_decide_eq_true hday⟩

end MapServiceAgent.Native
