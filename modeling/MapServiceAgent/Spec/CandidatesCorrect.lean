import MapServiceAgent.Spec.AgentGraphCorrect
import MapServiceAgent.Spec.SelectionCorrect

/-!
# Candidates from the search to the prompt

Merging, exclusion, the hub's filter, the ranking and the cap neither double nor
revive a candidate.

## Key results

- `mergedCandidates_eq`: what the search keeps is the first of each identifier
- `SearchRun.candidates`: the candidates on their way to the selection
- `capCandidates_sublist`: the cap picks a sublist
-/

namespace MapServiceAgent.Native

variable {env : Env} {jobId : String} {req : AgentRequest} {s s' : AgentState} {j j' : Job}

/-! ### Identifiers -/

/-- The identifier of a candidate that has one. -/
def contentId? : Json → Option String
  | .obj m =>
    match dictGet m "content_id" with
    | .str cid => some cid
    | _ => none
  | _ => none

/-- Where the identifier of a candidate stands. -/
theorem dictGet_of_contentId? {m : List (String × Json)} {cid : String}
    (h : contentId? (.obj m) = some cid) : dictGet m "content_id" = .str cid := by
  unfold contentId? at h
  dsimp only at h
  split at h
  · rename_i hcid
    rw [hcid, Option.some.inj h]
  · exact nomatch h

/-- The entry is no dictionary, or its identifier is a text or missing. -/
def HasTextId (c : Json) : Prop :=
  ∀ m, c = .obj m → dictGet m "content_id" = .null ∨ ∃ cid, dictGet m "content_id" = .str cid

/-- The searches list no entry with another kind of identifier. -/
def TextIds (env : Env) (req : AgentRequest) : Prop :=
  ∀ results : List Json, searchThemes env req = results.map .ok →
    ∀ c ∈ results.flatMap listedPlaces, HasTextId c

/-- What the hub's filter is trusted with: it only leaves candidates out. -/
def FilterSublist (hub : Hub) : Prop :=
  ∀ lat lng mobility sent response filtered,
    hub.filterMobilityRadius lat lng mobility sent = .ok response →
    filteredCandidates response = .ok filtered → filtered.Sublist sent

/-- The hub of the sample trip returns what it was sent. -/
theorem sampleHub_filterSublist : FilterSublist sampleHub := by
  rintro lat lng mobility sent _ filtered ⟨⟩ h
  obtain ⟨listed, hlisted, h⟩ := bind_eq_ok.mp h
  obtain rfl := Except.ok.inj ((Json.iter_orElse_arr sent).symm.trans hlisted)
  cases h
  exact List.filter_sublist

/-! ### Merging -/

/-- Whether entry `i` of a list is the first with its identifier. -/
def isFirst (all : List Json) (c : Json) (i : Nat) : Bool :=
  (contentId? c).all fun cid => cid ∉ (all.take i).filterMap contentId?

/-- After the entries `before`, merging keeps the dictionaries that are the first with
    their identifier or have none. -/
theorem mergeUnseen_eq (before : List Json) {rest out : List Json} {seen : List PyKey}
    (hids : ∀ c ∈ rest, HasTextId c)
    (hseen : ∀ cid, .str cid ∈ seen ↔ cid ∈ before.filterMap contentId?)
    (h : mergeUnseen seen rest = .ok out) :
    out = ((rest.zipIdx before.length).filter fun (c, i) =>
      c.isDict && isFirst (before ++ rest) c i).map (·.1) := by
  induction rest generalizing before seen out with
  | nil =>
    cases h
    rfl
  | cons c rest ih =>
    have hrest := fun c' hc' => hids c' (List.mem_cons_of_mem _ hc')
    have hassoc : before ++ c :: rest = (before ++ [c]) ++ rest := by simp
    have htake : (before ++ c :: rest).take before.length = before := by simp
    rw [List.zipIdx_cons, List.filter_cons]
    -- the step for an entry that adds no identifier to those seen
    have hskip : ∀ out', contentId? c = none → mergeUnseen seen rest = .ok out' →
        out' = ((rest.zipIdx (before.length + 1)).filter fun (c', i) =>
          c'.isDict && isFirst (before ++ c :: rest) c' i).map (·.1) := by
      intro out' hnone h'
      rw [hassoc]
      simpa using ih (before ++ [c]) hrest (by simp [hseen, hnone]) h'
    unfold mergeUnseen at h
    cases c with
    | obj m =>
      dsimp only at h
      rcases hids _ List.mem_cons_self m rfl with hnull | ⟨cid, hcid⟩
      · have hnone : contentId? (.obj m) = none := by simp [contentId?, hnull]
        rw [hnull] at h
        obtain ⟨out', hout', h⟩ := bind_eq_ok.mp h
        cases h
        have hfirst : isFirst (before ++ .obj m :: rest) (.obj m) before.length = true := by
          simp [isFirst, hnone]
        rw [if_pos (by simp [Json.isDict, hfirst]), List.map_cons, hskip out' hnone hout']
      · have hsome : contentId? (.obj m) = some cid := by simp [contentId?, hcid]
        rw [hcid] at h
        dsimp only at h
        obtain ⟨k, hk, h⟩ := bind_eq_ok.mp h
        cases hk
        have hfirst : isFirst (before ++ .obj m :: rest) (.obj m) before.length =
            decide (cid ∉ before.filterMap contentId?) := by
          rw [isFirst, hsome, htake]
          rfl
        by_cases hmem : PyKey.str cid ∈ seen
        · -- the identifier was seen: the entry is left out
          rw [if_pos hmem] at h
          rw [if_neg (by simp [Json.isDict, hfirst, (hseen cid).mp hmem])]
          rw [hassoc]
          refine (ih (before ++ [.obj m]) hrest (fun cid' => ?_) h).trans (by simp)
          have hold := (hseen cid).mp hmem
          rw [hseen, List.filterMap_append, List.mem_append]
          exact ⟨.inl, fun h => h.elim id fun h => by simp_all⟩
        · -- a new identifier: the entry is kept, and the identifier seen
          rw [if_neg hmem] at h
          obtain ⟨out', hout', h⟩ := bind_eq_ok.mp h
          cases h
          have hnot : cid ∉ before.filterMap contentId? := mt (hseen cid).mpr hmem
          rw [if_pos (by simp only [Json.isDict, hfirst, hnot, not_false_eq_true, decide_true,
            Bool.and_self]), List.map_cons, hassoc]
          refine congrArg (List.cons _) ((ih (before ++ [.obj m]) hrest
            (fun cid' => ?_) hout').trans (by simp))
          simp [hsome, hseen, or_comm]
    | null => exact hskip _ rfl h
    | bool b => exact hskip _ rfl h
    | int i => exact hskip _ rfl h
    | float x => exact hskip _ rfl h
    | str t => exact hskip _ rfl h
    | arr l => exact hskip _ rfl h

/-- The dictionaries among the entries that are neither excluded nor repeat an
    identifier. -/
def firstAppearances (exclude : List String) (entries : List Json) : List Json :=
  (entries.zipIdx.filter fun (c, i) =>
    !isExcluded exclude c && (c.isDict && isFirst entries c i)).map (·.1)

/-- What the search keeps is the first of each identifier, and all without one. -/
theorem mergedCandidates_eq {results candidates : List Json}
    (hids : ∀ c ∈ results.flatMap listedPlaces, HasTextId c)
    (h : mergedCandidates req results = .ok candidates) :
    candidates = firstAppearances (req.exclude.getD []) (results.flatMap listedPlaces) := by
  obtain ⟨merged, hmerged, h⟩ := bind_eq_ok.mp h
  cases h
  rw [mergeUnseen_eq [] hids (by simp) hmerged, List.filter_map, List.filter_filter]
  rfl

/-- No identifier twice, none excluded, and only dictionaries. -/
structure Distinct (exclude : List String) (candidates : List Json) : Prop where
  ids_nodup : (candidates.filterMap contentId?).Nodup
  not_excluded : ∀ c ∈ candidates, ∀ cid, contentId? c = some cid → cid ∉ exclude
  dicts : ∀ c ∈ candidates, c.isDict = true

/-- Leaving candidates out keeps them distinct. -/
theorem Distinct.sublist {exclude : List String} {l l' : List Json} (h : Distinct exclude l)
    (hsub : l'.Sublist l) : Distinct exclude l' :=
  ⟨(hsub.filterMap _).nodup h.ids_nodup, fun c hc => h.not_excluded c (hsub.subset hc),
    fun c hc => h.dicts c (hsub.subset hc)⟩

/-- Rearranging candidates keeps them distinct. -/
theorem Distinct.perm {exclude : List String} {l l' : List Json} (h : Distinct exclude l)
    (hperm : l'.Perm l) : Distinct exclude l' :=
  ⟨(hperm.filterMap _).nodup_iff.mpr h.ids_nodup, fun c hc => h.not_excluded c (hperm.mem_iff.mp hc),
    fun c hc => h.dicts c (hperm.mem_iff.mp hc)⟩

/-- A candidate is excluded by its identifier. -/
theorem isExcluded_of_contentId? {exclude : List String} {c : Json} {cid : String}
    (h : contentId? c = some cid) (hmem : cid ∈ exclude) : isExcluded exclude c = true := by
  cases c with
  | obj m => simp [isExcluded, dictGet_of_contentId? h, Json.eqStr, hmem]
  | _ => exact nomatch h

/-- Merging keeps one entry of each identifier, and none seen before. -/
theorem mergeUnseen_distinct {seen : List PyKey} {rest out : List Json}
    (h : mergeUnseen seen rest = .ok out) :
    (out.filterMap contentId?).Nodup ∧ (∀ cid ∈ out.filterMap contentId?, .str cid ∉ seen) ∧
      ∀ c ∈ out, c.isDict = true := by
  induction rest generalizing seen out with
  | nil =>
    cases h
    exact ⟨.nil, fun _ h => (nomatch h), fun _ h => nomatch h⟩
  | cons c rest ih =>
    unfold mergeUnseen at h
    split at h
    · rename_i m
      split at h
      · -- no identifier: kept, and nothing is seen
        rename_i hnull
        obtain ⟨out', hout', h⟩ := bind_eq_ok.mp h
        cases h
        obtain ⟨hnodup, hunseen, hdicts⟩ := ih hout'
        rw [List.filterMap_cons_none (by simp [contentId?, hnull])]
        exact ⟨hnodup, hunseen, List.forall_mem_cons.mpr ⟨rfl, hdicts⟩⟩
      · obtain ⟨k, hk, h⟩ := bind_eq_ok.mp h
        split at h
        · -- the key was seen
          exact ih h
        · -- a new key: kept, and seen from here on
          rename_i hnew
          obtain ⟨out', hout', h⟩ := bind_eq_ok.mp h
          cases h
          obtain ⟨hnodup, hunseen, hdicts⟩ := ih hout'
          have hdicts' : ∀ c ∈ Json.obj m :: out', c.isDict = true :=
            List.forall_mem_cons.mpr ⟨rfl, hdicts⟩
          cases hid : contentId? (.obj m) with
          | none =>
            rw [List.filterMap_cons_none hid]
            exact ⟨hnodup, fun cid hcid => fun h => hunseen cid hcid (List.mem_cons_of_mem _ h), hdicts'⟩
          | some cid =>
            -- the identifier is the key the entry was seen under
            obtain rfl : k = .str cid := by
              rw [dictGet_of_contentId? hid] at hk
              exact (Except.ok.inj hk).symm
            rw [List.filterMap_cons_some hid]
            refine ⟨List.nodup_cons.mpr ⟨fun h => hunseen cid h List.mem_cons_self, hnodup⟩, ?_, hdicts'⟩
            exact List.forall_mem_cons.mpr
              ⟨hnew, fun x hx h => hunseen x hx (List.mem_cons_of_mem _ h)⟩
    · exact ih h

/-- The candidates of the search are distinct, and none is excluded. -/
theorem mergedCandidates_distinct {results candidates : List Json}
    (h : mergedCandidates req results = .ok candidates) :
    Distinct (req.exclude.getD []) candidates := by
  obtain ⟨merged, hmerged, h⟩ := bind_eq_ok.mp h
  cases h
  obtain ⟨hnodup, -, hdicts⟩ := mergeUnseen_distinct hmerged
  refine ⟨(List.filter_sublist.filterMap _).nodup hnodup, fun c hc cid hcid hex => ?_,
    fun c hc => hdicts c (List.mem_of_mem_filter hc)⟩
  exact absurd (isExcluded_of_contentId? hcid hex) (by simpa using (List.mem_filter.mp hc).2)

/-! ### The nodes on the way -/

/-- What `asyncio.gather` returns are the values of calls none of which failed. -/
theorem gather_ok {α : Type} {n : Nat} {results : List (Except PyExn α)} {values : List α}
    (h : gather n results = .ok values) : results = values.map .ok := by
  unfold gather at h
  dsimp only at h
  split at h
  · cases h
  · rename_i hnone
    rw [← Except.ok.inj h]
    -- some failure would have been the first
    have hnil : ∀ failures : List PyExn, failures.length ≤ n % failures.length → failures = [] := by
      intro failures hle
      by_contra hne
      have hpos := List.length_pos_iff.mpr hne
      exact absurd (Nat.mod_lt n hpos) (not_lt.mpr hle)
    have hfail := hnil _ (List.getElem?_eq_none_iff.mp hnone)
    rw [List.filterMap_eq_nil_iff] at hfail
    clear h hnone
    -- without failures every result is a value
    induction results with
    | nil => rfl
    | cons r results ih =>
      cases r with
      | error e =>
        have hnone := hfail _ List.mem_cons_self
        cases hnone
      | ok v =>
        rw [List.filterMap_cons, Except.toOption, List.map_cons,
          ← ih fun r hr => hfail r (List.mem_cons_of_mem _ hr)]

/-- A search that did not fail merges what every theme was answered. -/
theorem searchPlaces_ok (h : searchPlaces env s = .ok s') (hok : s'.failed = false) :
    ∃ results candidates, searchThemes env s.request = results.map .ok ∧
      mergedCandidates s.request results = .ok candidates ∧ s'.candidates = some candidates := by
  unfold searchPlaces at h
  split at h
  · rename_i hs
    cases h
    -- failed before
    exact absurd (hs.symm.trans hok) (by decide)
  · split at h
    · dsimp only at h
      split at h
      · cases h
        -- a search that failed writes its error, which is no empty one
        rw [AgentState.failed, AgentState.update, AgentState.fail] at hok
        dsimp only at hok
        split at hok
        · cases hok
        · simp [exceptionFailure_error_ne] at hok
      · cases h
    · -- all searches answered, and something was found
      rename_i results hresults
      split at h
      · obtain ⟨candidates, hcandidates, h⟩ := bind_eq_ok.mp h
        refine ⟨results, candidates, gather_ok hresults, hcandidates, ?_⟩
        split at h
        · rename_i hnil
          cases h
          rw [hnil]
        · cases h
          rfl
      · cases h
        cases hok

/-- What the hub was asked to filter, and left. -/
def Filtered (env : Env) (s : AgentState) (filtered : List Json) : Prop :=
  ∃ lat lng mobility sent response,
    filterQuery s = .ok (some (lat, lng, mobility, sent)) ∧
    env.hub.filterMobilityRadius lat lng mobility sent = .ok response ∧
    filteredCandidates response = .ok filtered

/-- The hub is asked about all candidates. -/
theorem filterQuery_sent {lat lng : PyFloat} {mobility : String} {sent : List Json}
    (h : filterQuery s = .ok (some (lat, lng, mobility, sent))) : sent = s.candidates.getD [] := by
  unfold filterQuery at h
  dsimp only at h
  split at h
  · exact nomatch h
  · split at h
    · exact nomatch h
    · split at h
      · exact nomatch h
      · -- there is something to filter, a mobility and a point to filter around
        iterate 4 obtain ⟨_, -, h⟩ := bind_eq_ok.mp h
        cases h
        rfl

/-- The filter leaves the candidates, or what the hub left of them. -/
theorem rulesFilter_ok (h : rulesFilter env s = .ok s') :
    s'.candidates = s.candidates ∨
      ∃ filtered, Filtered env s filtered ∧ s'.candidates = some filtered := by
  unfold rulesFilter at h
  split at h
  · cases h
    exact .inl rfl
  · obtain ⟨query, hquery, h⟩ := bind_eq_ok.mp h
    split at h
    · -- there is nothing to ask
      cases h
      exact .inl rfl
    · rename_i lat lng mobility sent
      split at h
      · split at h
        · -- the hub gave no answer
          cases h
          exact .inl rfl
        · exact nomatch h
      · -- an answer replaces the candidates
        rename_i response hresponse
        obtain ⟨filtered, hfiltered, h⟩ := bind_eq_ok.mp h
        refine .inr ⟨filtered, ⟨lat, lng, mobility, sent, response, hquery, hresponse, hfiltered⟩, ?_⟩
        split at h
        · rename_i hnil
          cases h
          rw [hnil]
        · cases h
          rfl

/-- Ranking rearranges the candidates. -/
theorem rankBy_perm {scores : List (PyKey × Json)} {candidates ranked : List Json}
    (h : rankBy scores candidates = .ok ranked) : ranked.Perm candidates := by
  obtain ⟨keyed, hkeyed, hranked⟩ := bind_eq_ok.mp h
  cases hranked
  clear h
  -- pairing with a score leaves the candidates as they were
  have hsame : keyed.map (·.2) = candidates := by
    rw [← List.zipIdx_map_fst 0 candidates]
    have hall := mapM_eq_ok.mp hkeyed
    generalize candidates.zipIdx = entries at hall
    clear hkeyed
    induction hall with
    | nil => rfl
    | @cons a b _ _ hab _ ih =>
      obtain ⟨k, -, hab⟩ := bind_eq_ok.mp hab
      cases hab
      rw [List.map_cons, List.map_cons, ih]
  exact hsame ▸ (sortedBy_perm _ keyed).map _

/-- The node leaves the candidates, or ranks them. -/
theorem scoreAndRank_ok (h : scoreAndRank env s = .ok s') :
    s'.candidates = s.candidates ∨
      ∃ ranked, s'.candidates = some ranked ∧ ranked.Perm (s.candidates.getD []) := by
  unfold scoreAndRank at h
  dsimp only at h
  split at h
  · cases h
    exact .inl rfl
  · split at h
    · -- there is nothing to rank
      cases h
      exact .inl rfl
    · obtain ⟨popMax, -, h⟩ := bind_eq_ok.mp h
      obtain ⟨pois, -, h⟩ := bind_eq_ok.mp h
      split at h
      · -- no candidate can be scored
        cases h
        exact .inl rfl
      · split at h
        · split at h
          · -- the hub gave no answer
            cases h
            exact .inl rfl
          · exact nomatch h
        · obtain ⟨entries, -, h⟩ := bind_eq_ok.mp h
          obtain ⟨scores, -, h⟩ := bind_eq_ok.mp h
          split at h
          · -- no entry gives a score
            cases h
            exact .inl rfl
          · -- a ranking reorders them; every other way leaves them
            obtain ⟨ranked, hranked, h⟩ := bind_eq_ok.mp h
            cases h
            exact .inr ⟨ranked, rfl, rankBy_perm hranked⟩

/-! ### The cap -/

/-- The positions with a flag, and those without, share none. -/
theorem capPositions_nodup (limit : Nat) (flags : List Bool) :
    (capPositions limit flags).Nodup := by
  -- a slice and its refill are one slice of the positions
  have hslice : ∀ (l : List Nat) (k n : Nat),
      (l.take k ++ (l.drop (l.take k).length).take n).Sublist l := by
    intro l k n
    have h := (List.take_sublist n (l.drop (l.take k).length)).append_left (l.take k)
    rwa [List.prefix_iff_eq_append.mp (List.take_prefix k l)] at h
  have hnodup : ∀ p : Bool → Bool, (positionsOf p flags).Nodup :=
    fun p => (positionsOf_pairwise p flags).imp Nat.ne_of_lt
  unfold capPositions
  rw [(sortedBy_perm _ _).nodup_iff, List.nodup_append]
  refine ⟨(hslice _ _ _).nodup (hnodup id), (List.take_sublist _ _).nodup (hnodup (!·)), ?_⟩
  intro i hi k hk hik
  subst hik
  obtain ⟨f, hf, hflag⟩ := getElem?_of_mem_positionsOf (p := id) ((hslice _ _ _).subset hi)
  obtain ⟨g, hg, hflag'⟩ := getElem?_of_mem_positionsOf (p := (!·)) (List.mem_of_mem_take hk)
  obtain rfl := Option.some.inj (hf.symm.trans hg)
  cases f with
  | false => cases hflag
  | true => cases hflag'

/-- The cap picks a sublist. -/
theorem capCandidates_sublist {candidates capped : List Json} {limit : Int}
    (h : capCandidates candidates limit = .ok capped) : capped.Sublist candidates := by
  unfold capCandidates at h
  split at h
  · cases h
    exact .refl _
  · obtain ⟨flags, -, h⟩ := bind_eq_ok.mp h
    cases h
    refine filterMap_getElem?_sublist ?_ candidates
    -- the positions that are kept go up
    have hsorted : (capPositions limit.toNat flags).Pairwise (· ≤ ·) := by
      unfold capPositions
      exact sortedBy_pairwise id _
    exact hsorted.imp₂ (fun _ _ hle hne => lt_of_le_of_ne hle hne) (capPositions_nodup _ _)

/-! ### The whole way -/

/-- The candidates that come to the selection. -/
theorem SearchRun.candidates (run : SearchRun env jobId req s) (hok : s.failed = false)
    (hfilter : FilterSublist env.hub) :
    Distinct (req.exclude.getD []) (s.candidates.getD []) := by
  obtain ⟨-, hreq, -, -, -⟩ := run.request hok
  obtain ⟨-, -, -, hsearched, -⟩ := run.unfailed hok
  have hfirst : Distinct (req.exclude.getD []) (run.searched.candidates.getD []) := by
    obtain ⟨results, candidates, -, hmerged, hcandidates⟩ := searchPlaces_ok run.search hsearched
    rw [hreq] at hmerged
    rw [hcandidates]
    exact mergedCandidates_distinct hmerged
  -- the hub may only leave candidates out
  have hfiltered : Distinct (req.exclude.getD []) (run.filtered.candidates.getD []) := by
    rcases rulesFilter_ok run.filter with h | ⟨filtered, ⟨_, _, _, sent, _, hquery, hresponse, hleft⟩, h⟩
    · rwa [h]
    · rw [h, Option.getD_some]
      have hsub := hfilter _ _ _ _ _ _ hresponse hleft
      rw [filterQuery_sent hquery] at hsub
      exact hfirst.sublist hsub
  -- ranking rearranges them at most
  rcases scoreAndRank_ok run.rank with h | ⟨ranked, h, hperm⟩
  · rwa [h]
  · rw [h]
    exact hfiltered.perm hperm

end MapServiceAgent.Native
