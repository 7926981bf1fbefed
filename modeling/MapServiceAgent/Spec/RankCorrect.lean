import Mathlib.Tactic.Linarith
import MapServiceAgent.Spec.AgentGraphCorrect
import MapServiceAgent.Spec.OptionalSteps

/-!
# The ranking

The hub's answer gives some candidates a score; the others keep the one of their
position. By falling score, and with equals as they were, that is what
`score_and_rank` leaves, and where no score is to be had it leaves everything as
it was.

## Key results

- `scoresOf_lookup`: the dictionary holds the last score of each identifier
- `rankBy_eq`: the sort by the dictionary is one by effective scores
- `ranking_outcomes`: what the node does with whatever the hub answers
-/

namespace MapServiceAgent.Native

variable {env : Env} {s : AgentState} {entries candidates : List Json}

/-! ### Scores -/

/-- The score an entry of the hub's answer gives an identifier. -/
def entryScore (cid : String) : Json → Option ℚ
  | .obj m =>
    if (dictGet m "content_id").eqStr cid then
      match (dictGet m "score").num? with
      | some (.fin q) => some q
      | _ => none
    else none
  | _ => none

/-- The last score the answer gives an identifier. -/
def lastScore (entries : List Json) (cid : String) : Option ℚ :=
  (entries.filterMap (entryScore cid)).getLast?

/-- The score the answer gives a candidate. -/
def givenScore (entries : List Json) : Json → Option ℚ
  | .obj m =>
    match dictGet m "content_id" with
    | .str cid => lastScore entries cid
    | _ => none
  | _ => none

/-- The score a candidate is ranked by: the one it was given, or else the one of
    its position. -/
def effectiveScore (entries : List Json) (x : Json × Nat) : ℚ :=
  (givenScore entries x.1).getD (rankDecay x.2)

/-- The entries that give a score give a finite one, to a text. -/
def WellScored (entries : List Json) : Prop :=
  ∀ m, Json.obj m ∈ entries → givesScore m →
    (∃ cid, dictGet m "content_id" = .str cid) ∧ ∃ q, (dictGet m "score").num? = some (.fin q)

/-- The last score is that of a later entry, if one has it, else of this one. -/
theorem lastScore_cons (entry : Json) (rest : List Json) (cid : String) :
    lastScore (entry :: rest) cid = (lastScore rest cid).or (entryScore cid entry) := by
  unfold lastScore
  cases hscore : entryScore cid entry with
  | none => rw [List.filterMap_cons_none hscore, Option.or_none]
  | some q =>
    rw [List.filterMap_cons_some hscore, List.getLast?_cons]
    cases (rest.filterMap (entryScore cid)).getLast? <;> rfl

/-- A score that was found is one that some entry gives. -/
theorem givesScore_of_lastScore {cid : String} {q : ℚ} (h : lastScore entries cid = some q) :
    ∃ m, Json.obj m ∈ entries ∧ givesScore m := by
  obtain ⟨entry, hentry, hscore⟩ := List.mem_filterMap.mp (List.mem_of_getLast? h)
  unfold entryScore at hscore
  split at hscore
  · rename_i m
    split at hscore
    · -- an entry counts under the identifier it names
      rename_i hcid
      refine ⟨m, hentry, fun hnull => ?_, ?_⟩
      · rw [hnull] at hcid
        cases hcid
      · split at hscore
        · rename_i hnum
          rw [hnum]
          rfl
        · cases hscore
    · cases hscore
  · cases hscore

/-- What one entry does to the dictionary of scores. -/
def noteScore (scores : List (PyKey × Json)) : Json → Except PyExn (List (PyKey × Json))
  | .obj m =>
    match dictGet m "content_id", (dictGet m "score").num? with
    | .null, _ => .ok scores
    | cid, some _ => do return dictSet scores (← cid.key) (dictGet m "score")
    | _, none => .ok scores
  | _ => .ok scores

/-- The scores are noted entry by entry. -/
theorem scoresOf_foldlM (entries : List Json) : scoresOf entries = entries.foldlM noteScore [] := rfl

/-- The dictionary holds these scores, in whatever way the hub writes its numbers. -/
def Holds (scores : List (PyKey × Json)) (score : String → Option ℚ) : Prop :=
  ∀ cid, (scores.lookup (.str cid)).map Json.num? = (score cid).map fun q => some (.fin q)

/-- An entry that is well scored goes before what was held under its identifier, and
    leaves the rest. -/
theorem noteScore_lookup {entry : Json} (hentry : WellScored [entry]) {d : List (PyKey × Json)}
    {score : String → Option ℚ} (hd : Holds d score) :
    ∃ d', noteScore d entry = .ok d' ∧ d'.lookup .null = d.lookup .null ∧
      Holds d' fun cid => (entryScore cid entry).or (score cid) := by
  cases entry with
  | obj m =>
    have hm := hentry m List.mem_cons_self
    unfold givesScore at hm
    simp only [noteScore, entryScore]
    cases hscore : (dictGet m "score").num? with
    | none =>
      -- no score is noted, whatever the identifier
      refine ⟨d, ?_, rfl, fun cid => ?_⟩
      · cases dictGet m "content_id" <;> rfl
      · dsimp only
        rw [ite_self, Option.none_or]
        exact hd cid
    | some x =>
      rw [hscore] at hm
      by_cases hcid : dictGet m "content_id" = .null
      · -- a score without an identifier is dropped
        rw [hcid]
        exact ⟨d, rfl, rfl, hd⟩
      · -- a usable entry overwrites what was noted under its identifier, and only that
        obtain ⟨⟨cid₀, hstr⟩, q, hq⟩ := hm ⟨hcid, rfl⟩
        cases hq
        rw [hstr]
        refine ⟨dictSet d (.str cid₀) (dictGet m "score"), rfl, lookup_dictSet_ne (by simp),
          fun cid => ?_⟩
        dsimp only
        by_cases heq : cid = cid₀
        · subst heq
          rw [lookup_dictSet_self, Json.eqStr, if_pos (by simp), Option.map_some, hscore]
          rfl
        · rw [lookup_dictSet_ne (by simpa using heq), Json.eqStr,
            if_neg (by simpa using fun h => heq h.symm), Option.none_or]
          exact hd cid
  | _ => exact ⟨d, rfl, rfl, hd⟩

/-- The dictionary holds the last score of each identifier. -/
theorem scoresOf_lookup (hentries : WellScored entries) :
    ∃ scores, scoresOf entries = .ok scores ∧ scores.lookup .null = none ∧
      Holds scores (lastScore entries) := by
  rw [scoresOf_foldlM]
  -- the dictionary of the entries before plays the part of the accumulator
  suffices h : ∀ d score, Holds d score → ∃ scores, entries.foldlM noteScore d = .ok scores ∧
      scores.lookup .null = d.lookup .null ∧
      Holds scores fun cid => (lastScore entries cid).or (score cid) by
    obtain ⟨scores, hfold, hnull, hstr⟩ := h [] (fun _ => none) fun _ => rfl
    simp only [Option.or_none] at hstr
    exact ⟨scores, hfold, hnull, hstr⟩
  induction entries with
  | nil => exact fun d score hd => ⟨d, rfl, rfl, hd⟩
  | cons entry rest ih =>
    intro d score hd
    have hentry : WellScored [entry] := fun m hm =>
      hentries m (List.mem_singleton.mp hm ▸ List.mem_cons_self)
    obtain ⟨d₁, hstep, hnull₁, hstr₁⟩ := noteScore_lookup hentry hd
    obtain ⟨scores, hfold, hnull, hstr⟩ :=
      ih (fun m hm => hentries m (List.mem_cons_of_mem _ hm)) d₁ _ hstr₁
    refine ⟨scores, ?_, hnull.trans hnull₁, fun cid => ?_⟩
    · rw [List.foldlM_cons]
      exact (bind_of_eq_ok hstep _).trans hfold
    · -- an entry later in the list has the last word
      refine (hstr cid).trans ?_
      dsimp only
      rw [lastScore_cons, Option.or_assoc]

/-! ### The sort -/

/-- A field that is a text, or not there. -/
def TextField (m : List (String × Json)) (k : String) : Prop :=
  dictGet m k = .null ∨ ∃ t, dictGet m k = .str t

/-- The score that is held is the one that is read. -/
theorem Holds.read {scores : List (PyKey × Json)} {score : String → Option ℚ}
    (h : Holds scores score) (cid : String) :
    (scores.lookup (.str cid)).bind Json.num? = (score cid).map .fin := by
  have hcid := h cid
  cases hscore : score cid with
  | none =>
    -- no entry gives a score
    rw [hscore, Option.map_none, Option.map_eq_none_iff] at hcid
    rw [hcid]
    rfl
  | some q =>
    rw [hscore, Option.map_some, Option.map_eq_some_iff] at hcid
    -- the value noted is the number last given
    obtain ⟨v, hv, hnum⟩ := hcid
    rw [hv]
    exact hnum

/-- A candidate is ranked by its score, or by its place in the list. -/
theorem rankKey_eq {scores : List (PyKey × Json)} (hnull : scores.lookup .null = none)
    (hstr : Holds scores (lastScore entries)) {c : Json}
    (hc : ∀ m, c = .obj m → TextField m "content_id") (i : Nat) :
    rankKey scores c i = .ok (.fin (-effectiveScore entries (c, i))) := by
  have hkey : ∀ k, ((scores.lookup k).bind Json.num?).getD (.fin (rankDecay i)) =
        .fin (effectiveScore entries (c, i)) →
      -(((scores.lookup k).bind Json.num?).getD (.fin (rankDecay i))) =
        .fin (-effectiveScore entries (c, i)) := by
    intro k h
    rw [h]
    rfl
  cases c with
  | obj m =>
    -- the two kinds of identifier: null, which no score has, and a string
    rcases hc m rfl with hcid | ⟨cid, hcid⟩
    · unfold rankKey
      dsimp only
      rw [hcid]
      refine congrArg Except.ok (hkey .null ?_)
      rw [hnull, effectiveScore, givenScore, hcid]
      rfl
    · unfold rankKey
      dsimp only
      rw [hcid]
      refine congrArg Except.ok (hkey (.str cid) ?_)
      rw [hstr.read, effectiveScore, givenScore, hcid]
      dsimp only
      cases lastScore entries cid <;> rfl
  | _ =>
    refine congrArg Except.ok (hkey .null ?_)
    rw [hnull]
    rfl

/-- The candidates with their positions, by falling effective score. -/
def rankOrder (entries candidates : List Json) : List (Json × Nat) :=
  sortedBy (fun x => -effectiveScore entries x) candidates.zipIdx

/-- The sort by the dictionary is one by effective scores. -/
theorem rankBy_eq {scores : List (PyKey × Json)} (hnull : scores.lookup .null = none)
    (hstr : Holds scores (lastScore entries))
    (htexts : ∀ m, Json.obj m ∈ candidates → TextField m "content_id") :
    rankBy scores candidates = .ok ((rankOrder entries candidates).map (·.1)) := by
  have hkeyed : (candidates.zipIdx.mapM fun x => do return (← rankKey scores x.1 x.2, x.1)) =
      .ok (candidates.zipIdx.map fun x => (PyFloat.fin (-effectiveScore entries x), x.1)) := by
    rw [mapM_eq_ok, List.forall₂_map_right_iff, List.forall₂_same]
    intro x hx
    have hmem := List.fst_mem_of_mem_zipIdx hx
    exact bind_of_eq_ok (rankKey_eq hnull hstr (fun m hm => htexts m (hm ▸ hmem)) x.2) _
  -- sorting what was paired is sorting by the same key
  have hsorted : sortedBy (·.1)
      (candidates.zipIdx.map fun x => (PyFloat.fin (-effectiveScore entries x), x.1)) =
      (rankOrder entries candidates).map fun x => (.fin (-effectiveScore entries x), x.1) :=
    sortedBy_map fun a _ b _ => PyFloat.fin_lt_fin _ _
  refine (bind_of_eq_ok hkeyed _).trans ?_
  rw [hsorted, List.map_map]
  rfl

/-- An order of the candidates and their positions: by falling effective score,
    equals and those without a score as they were. -/
structure RankedBy (entries candidates : List Json) (order : List (Json × Nat)) : Prop where
  perm : order.Perm candidates.zipIdx
  falls : order.Pairwise fun a b => effectiveScore entries b < effectiveScore entries a ∨
    effectiveScore entries b = effectiveScore entries a ∧ a.2 < b.2
  unscored : order.Pairwise fun a b => givenScore entries a.1 = none →
    givenScore entries b.1 = none → a.2 < b.2

/-- Sorting by the key ranks the candidates by effective score, the earlier first among
    equals. -/
theorem rankOrder_ranked (entries candidates : List Json) :
    RankedBy entries candidates (rankOrder entries candidates) := by
  have hfalls : (rankOrder entries candidates).Pairwise fun a b =>
      effectiveScore entries b < effectiveScore entries a ∨
        effectiveScore entries b = effectiveScore entries a ∧ a.2 < b.2 := by
    apply (sortedBy_stable (pairwise_zipIdx candidates)).imp
    rintro a b (hlt | ⟨heq, hpos⟩)
    · exact Or.inl (neg_lt_neg_iff.mp hlt)
    · exact Or.inr ⟨(neg_inj.mp heq).symm, hpos⟩
  refine ⟨sortedBy_perm _ _, hfalls, hfalls.imp ?_⟩
  -- without scores the rank decides
  intro a b hab ha hb
  unfold effectiveScore rankDecay at hab
  rw [ha, hb, Option.getD_none, Option.getD_none] at hab
  rcases hab with hlt | ⟨-, hpos⟩
  · -- the decay falls with the place in the list
    have hlt' : (a.2 : ℚ) < b.2 := by linarith
    exact_mod_cast hlt'
  · exact hpos

/-! ### The node -/

/-- What a source says of a candidate: texts, or nothing. -/
structure TextFields (m : List (String × Json)) : Prop where
  contentId : TextField m "content_id"
  category : TextField m "category"
  group : TextField m "category_group_code"

/-- A text, or null, can be a key. -/
theorem TextField.hashable {m : List (String × Json)} {k : String} (h : TextField m k) :
    (dictGet m k).hashable = true := by
  rcases h with h | ⟨t, h⟩ <;> rw [h] <;> rfl

/-- A text, or null, can be searched. -/
theorem TextField.loops {m : List (String × Json)} {k : String} (h : TextField m k) :
    (dictGet m k).loops = true := by
  rcases h with h | ⟨t, h⟩
  · rw [h]
    rfl
  · rw [h, loops_iff]
    exact Or.inr (returns_ok _)

/-- Candidates of texts can be offered to the hub. -/
theorem returns_pois (hstats : StatsLoaded env) (req : AgentRequest)
    (htexts : ∀ m, Json.obj m ∈ candidates → TextFields m) :
    Returns (poisOf env req candidates) := by
  rw [returns_poisOf hstats]
  intro m hm _
  have h := htexts m hm
  exact ⟨h.group.hashable, fun _ _ _ => h.category.loops, fun _ => h.contentId.hashable⟩

/-- With nothing to offer the node leaves everything as it was. -/
theorem scoreAndRank_nothing (hs : s.failed = false) (hrules : env.settings.rulesEnabled = true)
    (hcandidates : s.candidates = some candidates) {popMax : Option Json}
    (hpop : dayPopMax s = .ok popMax) (hpois : poisOf env s.request candidates = .ok []) :
    scoreAndRank env s = .ok s := by
  unfold scoreAndRank
  rw [hcandidates, Option.getD_some, if_neg (by simp [hs, hrules])]
  split
  · rfl
  · rw [bind_of_eq_ok hpop, bind_of_eq_ok hpois, if_pos rfl]
    rfl

/-- What `score_and_rank` does when it asks the hub. -/
theorem scoreAndRank_asking (hstats : StatsLoaded env) (hs : s.failed = false)
    (hrules : env.settings.rulesEnabled = true) (hgrounded : s.grounded = some true) (hcandidates : s.candidates = some candidates)
    {popMax : Option Json} {pois : List Json} (hpop : dayPopMax s = .ok popMax)
    (hpois : poisOf env s.request candidates = .ok pois) (hne : pois ≠ []) :
    scoreAndRank env s =
      match env.hub.scoreIndoorBonus pois popMax with
      | .error e => if degradesRules e then .ok s else .error e
      | .ok resp => scoredEntries resp >>= rankWith s candidates := by
  -- points of interest come from candidates
  have hcne : candidates ≠ [] := by
    rintro rfl
    rw [poisOf_eq hstats] at hpois
    cases hpois
    exact hne rfl
  unfold scoreAndRank
  rw [hcandidates, Option.getD_some, if_neg (by simp [hs, hrules]),
    if_neg (by simp [hcne, hgrounded]), bind_of_eq_ok hpop, bind_of_eq_ok hpois, if_neg hne]
  rfl

/-- What the ranking leaves behind with a readable answer of the hub. -/
theorem rankWith_outcomes (s : AgentState) (hentries : WellScored entries)
    (htexts : ∀ m, Json.obj m ∈ candidates → TextFields m) :
    ((∀ m, Json.obj m ∈ entries → ¬ givesScore m) → rankWith s candidates entries = .ok s) ∧
    ((∃ m, Json.obj m ∈ entries ∧ givesScore m) → ∃ scores order,
      RankedBy entries candidates order ∧ Holds scores (lastScore entries) ∧
      rankWith s candidates entries =
        .ok { s with scores := some scores, candidates := some (order.map (·.1)) }) := by
  obtain ⟨scores, hscores, hnull, hstr⟩ := scoresOf_lookup hentries
  have hsome := scoresOf_ne_nil hscores
  constructor
  · -- no usable score: the dictionary stays empty, and the node returns its state
    intro hnone
    have hnil : scores = [] := by
      by_contra hne
      obtain ⟨m, hm, hgives⟩ := hsome.mp hne
      exact hnone m hm hgives
    unfold rankWith
    rw [bind_of_eq_ok hscores, if_pos hnil]
    rfl
  · -- some score: the dictionary is not empty, and the candidates are ranked by it
    intro hgives
    refine ⟨scores, rankOrder entries candidates, rankOrder_ranked _ _, hstr, ?_⟩
    have hranked := rankBy_eq hnull hstr fun m hm => (htexts m hm).contentId
    unfold rankWith
    rw [bind_of_eq_ok hscores, if_neg (hsome.mpr hgives), bind_of_eq_ok hranked]
    rfl

/-- With the rules on, the node leaves the grounded candidates ranked by the
    hub's scores, and everything as it was when there are none. -/
theorem ranking_outcomes (env : Env) (s : AgentState) (candidates : List Json)
    (hs : s.failed = false) (hrules : env.settings.rulesEnabled = true)
    (hgrounded : s.grounded = some true) (hcandidates : s.candidates = some candidates)
    (htexts : ∀ m, Json.obj m ∈ candidates → TextFields m) (hstats : StatsLoaded env)
    (hpop : Returns (dayPopMax s)) :
    ∃ popMax pois, dayPopMax s = .ok popMax ∧ poisOf env s.request candidates = .ok pois ∧
      (pois = [] → scoreAndRank env s = .ok s) ∧
      (pois ≠ [] →
        (∀ e, env.hub.scoreIndoorBonus pois popMax = .error e → degradesRules e = true →
          scoreAndRank env s = .ok s) ∧
        ∀ resp entries, env.hub.scoreIndoorBonus pois popMax = .ok resp →
          scoredEntries resp = .ok entries → WellScored entries →
          ((∀ m, Json.obj m ∈ entries → ¬ givesScore m) → scoreAndRank env s = .ok s) ∧
          ((∃ m, Json.obj m ∈ entries ∧ givesScore m) → ∃ scores order,
            RankedBy entries candidates order ∧ Holds scores (lastScore entries) ∧
            scoreAndRank env s =
              .ok { s with scores := some scores, candidates := some (order.map (·.1)) })) := by
  obtain ⟨popMax, hpop⟩ := hpop
  obtain ⟨pois, hpois⟩ := returns_pois hstats s.request htexts
  refine ⟨popMax, pois, hpop, hpois, fun hnil => ?_, fun hne => ?_⟩
  · exact scoreAndRank_nothing hs hrules hcandidates hpop (hnil ▸ hpois)
  have hasking := scoreAndRank_asking hstats hs hrules hgrounded hcandidates hpop hpois hne
  refine ⟨fun e he hdegrades => ?_, fun resp entries hresp hentries hscored => ?_⟩
  · -- a failure of the hub that is handled leaves all as it was
    rw [hasking, he]
    exact if_pos hdegrades
  · -- with an answer, the entries decide
    rw [hasking, hresp]
    dsimp only
    rw [bind_of_eq_ok hentries]
    exact rankWith_outcomes s hscored htexts

/-- An answer with a score for one place, and an entry that names none. -/
def sampleScored : List Json :=
  [.obj [("content_id", .str "b"), ("score", .int 2)], .obj [("score", .int 3)]]

/-- The sample environment with a hub that scores one candidate. -/
def scoringEnv : Env :=
  { sampleEnv with hub := { sampleHub with
      scoreIndoorBonus := fun _ _ => .ok (.obj [("scored", .arr sampleScored)]) } }

/-- Two candidates, ready to be ranked. -/
def sampleFound : AgentState where
  jobId := "j"
  request := sampleTrip .init
  candidates := some [sampleCandidate "a", sampleCandidate "b"]
  grounded := some true

/-- The sample candidates have texts where they are read. -/
theorem sampleFound_texts : ∀ m, Json.obj m ∈ [sampleCandidate "a", sampleCandidate "b"] →
    TextFields m := by
  intro m hm
  rcases List.mem_cons.mp hm with h | h
  · cases h
    exact ⟨Or.inr ⟨"a", rfl⟩, Or.inl rfl, Or.inl rfl⟩
  · cases List.mem_singleton.mp h
    exact ⟨Or.inr ⟨"b", rfl⟩, Or.inl rfl, Or.inl rfl⟩

/-- The entry of the sample with a score names a candidate. -/
theorem sampleScored_wellScored : WellScored sampleScored := by
  intro m hm hgives
  rcases List.mem_cons.mp hm with h | h
  · cases h
    exact ⟨⟨"b", rfl⟩, 2, rfl⟩
  · cases List.mem_singleton.mp h
    exact absurd rfl hgives.1

/-- The place with a score is ranked by it, the other by its position. -/
theorem ranking_outcomes_sample : ∃ scores order,
    RankedBy sampleScored [sampleCandidate "a", sampleCandidate "b"] order ∧
    scoreAndRank scoringEnv sampleFound =
      .ok { sampleFound with scores := some scores, candidates := some (order.map (·.1)) } := by
  obtain ⟨popMax, pois, -, hpois, -, hasked⟩ := ranking_outcomes scoringEnv sampleFound
    [sampleCandidate "a", sampleCandidate "b"] rfl rfl rfl rfl sampleFound_texts ⟨[], rfl⟩
    ⟨none, rfl⟩
  -- both candidates are points of interest, so the hub is asked
  have hne : pois ≠ [] := by
    rintro rfl
    have hlen : ((poisOf scoringEnv sampleFound.request
        [sampleCandidate "a", sampleCandidate "b"]).toOption.map List.length) = some 2 := by
      decide +kernel
    rw [hpois] at hlen
    cases hlen
  obtain ⟨scores, order, hranked, -, h⟩ :=
    ((hasked hne).2 _ sampleScored rfl rfl sampleScored_wellScored).2
      ⟨_, List.mem_cons_self, by simp [dictGet], rfl⟩
  exact ⟨scores, order, hranked, h⟩

end MapServiceAgent.Native
