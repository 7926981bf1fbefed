import MapServiceAgent.Spec.CandidatesCorrect
import MapServiceAgent.Spec.OptionalSteps

/-!
# The cap on the candidates

A list longer than the limit is cut to it from both sides of the door: the
indoor candidates get half of the limit, and what the outdoor ones leave. Either
side keeps its best, and all keep their order. What stands in the way is a
category group code that cannot be looked up in a set.

## Key results

- `capPositions_split`: the two slices and the refill are one slice of each side
- `caps_iff`: when the cap does all that
-/

namespace MapServiceAgent.Native

variable {candidates : List Json}

/-! ### Two sides -/

/-- Whether a candidate is of a category indoors. -/
def isIndoorCandidate : Json → Bool
  | .obj m => indoorCategoryGroups.any fun g => (dictGet m "category_group_code").eqStr g
  | _ => false

/-- How many of the candidates kept are indoors. -/
def indoorShare (indoor outdoor limit : Nat) : Nat := max (min indoor (limit / 2)) (limit - outdoor)

/-- What is left of the candidates under a limit. -/
structure Capped (candidates : List Json) (limit : Int) (kept : List Json) : Prop where
  untouched : limit ≤ 0 ∨ candidates.length ≤ limit → kept = candidates
  sublist : kept.Sublist candidates
  length : 0 < limit → limit < candidates.length → kept.length = limit
  indoor : 0 < limit → limit < candidates.length →
    kept.filter isIndoorCandidate = (candidates.filter isIndoorCandidate).take
      (indoorShare (candidates.countP isIndoorCandidate)
        (candidates.countP (!isIndoorCandidate ·)) limit.toNat)
  outdoor : 0 < limit → limit < candidates.length →
    kept.filter (!isIndoorCandidate ·) = (candidates.filter (!isIndoorCandidate ·)).take
      (limit.toNat - indoorShare (candidates.countP isIndoorCandidate)
        (candidates.countP (!isIndoorCandidate ·)) limit.toNat)
  /-- No side is cut to nothing. -/
  bothSides : 2 ≤ limit → ∀ side : Bool, (∃ c ∈ candidates, isIndoorCandidate c = side) →
    ∃ c ∈ kept, isIndoorCandidate c = side

/-- The cap returns, with that. -/
def Caps (candidates : List Json) (limit : Int) : Prop :=
  ∃ kept, capCandidates candidates limit = .ok kept ∧ Capped candidates limit kept

/-! ### The slices -/

/-- The two slices and the refill are one slice of each side. -/
theorem capPositions_split (limit : Nat) (flags : List Bool) :
    ∃ s : List Nat, capPositions limit flags = s ∧ s.Pairwise (· ≤ ·) ∧
      s.Perm ((positionsOf id flags).take
          (indoorShare (flags.countP id) (flags.countP (!·)) limit) ++
        (positionsOf (!·) flags).take
          (limit - indoorShare (flags.countP id) (flags.countP (!·)) limit)) := by
  have hin : (positionsOf id flags).length = flags.countP id := by
    rw [length_positionsOf, List.countP_eq_length_filter]
  have hout : (positionsOf (!·) flags).length = flags.countP (!·) := by
    rw [length_positionsOf, List.countP_eq_length_filter]
  refine ⟨_, rfl, sortedBy_pairwise id _, ?_⟩
  unfold capPositions
  apply (sortedBy_perm id _).trans
  -- a slice and what the refill appends to it are one longer slice
  have hslices : ∀ p q : List Nat, p.length = flags.countP id → q.length = flags.countP (!·) →
      p.take (limit / 2) ++ (p.drop (p.take (limit / 2)).length).take
          (limit - (p.take (limit / 2)).length -
            (q.take (limit - (p.take (limit / 2)).length)).length) ++
        q.take (limit - (p.take (limit / 2)).length) =
      p.take (indoorShare (flags.countP id) (flags.countP (!·)) limit) ++
        q.take (limit - indoorShare (flags.countP id) (flags.countP (!·)) limit) := by
    intro p q hp hq
    have hhalf : p.take (limit / 2) = p.take (min (limit / 2) p.length) :=
      List.take_eq_take_iff.mpr (by omega)
    rw [List.length_take, hhalf, ← List.take_add, List.length_take]
    unfold indoorShare
    congr 1 <;> apply List.take_eq_take_iff.mpr <;> omega
  exact .of_eq (hslices _ _ hin hout)

/-! ### The cap -/

/-- A code that can be looked up tells whether a candidate is indoors. -/
theorem indoorFlag_ok {c : Json}
    (hc : ∀ m, c = .obj m → (dictGet m "category_group_code").hashable = true) :
    indoorFlag c = .ok (isIndoorCandidate c) := by
  cases c with
  | obj m =>
    have hcode := hc m rfl
    unfold indoorFlag isIndoor isIndoorCandidate
    dsimp only
    cases hv : dictGet m "category_group_code" with
    | str code =>
      -- a string is compared with the codes of the group
      refine congrArg Except.ok (congrArg (List.any _) (funext fun g => ?_))
      by_cases heq : code = g <;> simp [Json.eqStr, heq]
    | arr l =>
      -- what cannot be hashed is excluded
      rw [hv] at hcode
      cases hcode
    | obj d =>
      rw [hv] at hcode
      cases hcode
    | _ => rfl
  | _ => rfl

/-- A code that was looked up can be. -/
theorem hashable_of_indoorFlag {m : List (String × Json)} {b : Bool}
    (h : indoorFlag (.obj m) = .ok b) : (dictGet m "category_group_code").hashable = true := by
  rw [← returns_key]
  obtain ⟨k, hk, -⟩ := bind_eq_ok.mp h
  exact ⟨k, hk⟩

/-- The positions kept of a list that is too long, side by side. -/
theorem capPositions_sides (n : Nat) (candidates : List Json) :
    ((capPositions n (candidates.map isIndoorCandidate)).filterMap (candidates[·]?)).filter
        isIndoorCandidate = (candidates.filter isIndoorCandidate).take
      (indoorShare (candidates.countP isIndoorCandidate)
        (candidates.countP (!isIndoorCandidate ·)) n) ∧
    ((capPositions n (candidates.map isIndoorCandidate)).filterMap (candidates[·]?)).filter
        (!isIndoorCandidate ·) = (candidates.filter (!isIndoorCandidate ·)).take
      (n - indoorShare (candidates.countP isIndoorCandidate)
        (candidates.countP (!isIndoorCandidate ·)) n) := by
  obtain ⟨s, hs, hordered, hperm⟩ := capPositions_split n (candidates.map isIndoorCandidate)
  rw [positionsOf_map, positionsOf_map, List.countP_map, List.countP_map] at hperm
  rw [hs]
  have hany : ∀ (p q : Json → Bool) (b : Bool) (k : Nat), (∀ c, p c = true → q c = b) →
      ∀ i ∈ (positionsOf p candidates).take k, (candidates[i]?).any q = b := by
    intro p q b k hpq i hi
    obtain ⟨c, hc, hp⟩ := getElem?_of_mem_positionsOf (List.mem_of_mem_take hi)
    rw [hc]
    exact hpq c hp
  have hrising : ∀ (p : Json → Bool) (k : Nat),
      ((positionsOf p candidates).take k).Pairwise (· < ·) :=
    fun p k => (positionsOf_pairwise p candidates).sublist (List.take_sublist _ _)
  constructor
  · -- the indoor ones are those at the positions of the indoor slice
    rw [filter_filterMap_getElem? hordered hperm (hrising _ _)
      (hany _ isIndoorCandidate true _ fun _ h => h)
      (hany _ _ false _ fun c h => by simpa using h), ← filterMap_take_positionsOf]
    rfl
  · -- and the outdoor ones those of the other
    rw [filter_filterMap_getElem? hordered (hperm.trans List.perm_append_comm) (hrising _ _)
      (hany _ (!isIndoorCandidate ·) true _ fun _ h => h)
      (hany _ _ false _ fun c h => by simpa using h), ← filterMap_take_positionsOf]
    rfl

/-- The cap on candidates whose codes can be looked up. -/
theorem capped_of_hashable {limit : Int} (hpos : 0 < limit) (hlong : limit < candidates.length)
    (hcodes : ∀ m, Json.obj m ∈ candidates → (dictGet m "category_group_code").hashable = true) :
    Caps candidates limit := by
  have hflags : candidates.mapM indoorFlag = .ok (candidates.map isIndoorCandidate) := by
    rw [mapM_eq_ok, List.forall₂_map_right_iff, List.forall₂_same]
    intro c hc
    exact indoorFlag_ok fun m hm => hcodes m (hm ▸ hc)
  -- the list is too long, so positions are picked
  have hcap : capCandidates candidates limit = .ok ((capPositions limit.toNat
      (candidates.map isIndoorCandidate)).filterMap (candidates[·]?)) := by
    unfold capCandidates
    rw [if_neg (by omega), bind_of_eq_ok hflags]
    rfl
  refine ⟨_, hcap, ?_⟩
  have hsub := capCandidates_sublist hcap
  obtain ⟨hin, hout⟩ := capPositions_sides limit.toNat candidates
  generalize (capPositions limit.toNat (candidates.map isIndoorCandidate)).filterMap
    (candidates[·]?) = kept at hsub hin hout
  -- the rest is counting
  have hcountIn : kept.countP isIndoorCandidate = min (indoorShare (candidates.countP
      isIndoorCandidate) (candidates.countP (!isIndoorCandidate ·)) limit.toNat)
      (candidates.countP isIndoorCandidate) := by
    rw [List.countP_eq_length_filter, hin, List.length_take, ← List.countP_eq_length_filter]
  have hcountOut : kept.countP (!isIndoorCandidate ·) = min (limit.toNat - indoorShare
      (candidates.countP isIndoorCandidate) (candidates.countP (!isIndoorCandidate ·)) limit.toNat)
      (candidates.countP (!isIndoorCandidate ·)) := by
    rw [List.countP_eq_length_filter, hout, List.length_take, ← List.countP_eq_length_filter]
  have hkept := kept.length_eq_length_filter_add isIndoorCandidate
  have hall := candidates.length_eq_length_filter_add isIndoorCandidate
  simp only [← List.countP_eq_length_filter] at hkept hall
  have hbound : indoorShare (candidates.countP isIndoorCandidate)
      (candidates.countP (!isIndoorCandidate ·)) limit.toNat =
      max (min (candidates.countP isIndoorCandidate) (limit.toNat / 2))
        (limit.toNat - candidates.countP (!isIndoorCandidate ·)) := rfl
  refine ⟨fun h => absurd h (by omega), hsub, fun _ _ => by omega, fun _ _ => hin, fun _ _ => hout,
    fun htwo side hside => ?_⟩
  -- with two slots or more, each side that has a candidate gets one
  cases side with
  | true =>
    have hsome := List.countP_pos_iff.mpr hside
    exact List.countP_pos_iff.mp (show 0 < kept.countP isIndoorCandidate by omega)
  | false =>
    have hsome : 0 < candidates.countP (!isIndoorCandidate ·) :=
      List.countP_pos_iff.mpr (by simpa using hside)
    have hleft := List.countP_pos_iff.mp (show 0 < kept.countP (!isIndoorCandidate ·) by omega)
    simpa using hleft

/-- The cap does what it says exactly when it has nothing to do, or every
    category group code can be looked up. -/
theorem caps_iff (candidates : List Json) (limit : Int) :
    Caps candidates limit ↔ limit ≤ 0 ∨ candidates.length ≤ limit ∨
      ∀ m, Json.obj m ∈ candidates → (dictGet m "category_group_code").hashable = true := by
  by_cases hshort : limit ≤ 0 ∨ (candidates.length : Int) ≤ limit
  · -- nothing to cut: the codes are not even looked at
    have hcap : capCandidates candidates limit = .ok candidates := if_pos hshort
    apply iff_of_true
    · refine ⟨candidates, hcap, fun _ => rfl, .refl _, fun _ _ => by omega, fun _ _ => by omega,
        fun _ _ => by omega, fun _ _ h => h⟩
    · exact hshort.imp_right Or.inl
  · constructor
    · -- a result means that every code was looked up
      rintro ⟨kept, hcap, -⟩
      refine Or.inr (Or.inr fun m hm => ?_)
      unfold capCandidates at hcap
      rw [if_neg hshort] at hcap
      obtain ⟨flags, hflags, -⟩ := bind_eq_ok.mp hcap
      obtain ⟨b, -, hb⟩ := exists_of_mem_left (mapM_eq_ok.mp hflags) hm
      exact hashable_of_indoorFlag hb
    · intro h
      have hcodes := (h.resolve_left fun h => hshort (Or.inl h)).resolve_left
        fun h => hshort (Or.inr h)
      -- the list is too long, and all codes can be looked up
      exact capped_of_hashable (by omega) (by omega) hcodes

/-- A list of two with a limit of one, and a code that is a list: the cap raises. -/
theorem caps_unhashable :
    ¬ Caps [.obj [("category_group_code", .arr [])], .obj []] 1 := by
  rintro ⟨kept, hcap, -⟩
  cases hcap

end MapServiceAgent.Native
