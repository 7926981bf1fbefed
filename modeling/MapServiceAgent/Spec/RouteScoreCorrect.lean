import MapServiceAgent.ForStd.Except
import MapServiceAgent.Native.Scorer
import MapServiceAgent.Spec.AgentGraphCorrect

/-!
# The judge of a route

`score_route` counts, compares lengths and looks identifiers up; it never
compares the route with the places. On a message of the right form that comes to
the same: it finds nothing wrong exactly with a route that visits every place
once and is joined up by its legs.

## Key results

- `perm_iff_of_nodup`: as long as, without repetition and within
- `scoreSchema_ok`: what a message of the right form has
- `legProblems_eq_nil_iff`, `routeProblems_eq_nil_iff`: when nothing is wrong
- `scoreRoute_ok_iff`: when the judge says so
-/

namespace MapServiceAgent.Native

variable {pf : Platform} {payload : List (String × Json)}

/-! ### What the judge is for -/

/-- The identifier of a place, if it is an integer. -/
def placeId? : Json → Option Int
  | .obj m => (dictGet m "place_id").int?
  | _ => none

/-- The identifiers of the places of a message. -/
def placeIds (payload : List (String × Json)) : List Int :=
  match dictGet payload "places" with
  | .arr l => l.filterMap placeId?
  | _ => []

/-- The legs of a message; a message may have none. -/
def legList (payload : List (String × Json)) : List Json :=
  match dictGet payload "legs" with
  | .arr l => l
  | _ => []

/-- One leg less than visits, each joining a visit to the next. -/
def Joined (legs : List Json) (order : List Int) : Prop :=
  legs.length + 1 = order.length ∧
  ∀ (i : Nat) (u v : Int), order[i]? = some u → order[i + 1]? = some v →
    ∃ leg, legs[i]? = some (.obj leg) ∧
      (dictGet leg "from").eqInt u = true ∧ (dictGet leg "to").eqInt v = true

/-- A route that visits every place once and is joined up by its legs. -/
structure SoundRoute (payload : List (String × Json)) (order : List Int) : Prop where
  order_eq : dictGet payload "visit_order" = .arr (order.map .int)
  perm : order.Perm (placeIds payload)
  joined : Joined (legList payload) order

/-! ### Counting -/

/-- Among distinct elements, a list without repetition that is as long as they
    are rearranges them. -/
theorem perm_iff_of_nodup {α : Type} {l r : List α} (hr : r.Nodup) :
    l.Perm r ↔ l.length = r.length ∧ l.Nodup ∧ l ⊆ r := by
  constructor
  · intro h
    exact ⟨h.length_eq, h.nodup_iff.mpr hr, h.subset⟩
  · rintro ⟨hlength, hl, hsub⟩
    exact (List.subperm_of_subset hl hsub).perm_of_length_le hlength.ge

/-- Where each element gives a result, the results are all there is. -/
theorem filterMap_of_forall₂ {α β : Type} {f : α → Option β} {l : List α} {r : List β}
    (h : List.Forall₂ (fun a b => f a = some b) l r) : l.filterMap f = r := by
  induction h with
  | nil => rfl
  | cons hab _ ih => rw [List.filterMap_cons_some hab, ih]

/-! ### A message of the right form -/

/-- A number that passes is an integer. -/
theorem checkInt_ok {lo i : Int} {reason : String} {v : Json}
    (h : checkInt lo reason v = .ok i) : v = .int i := by
  unfold checkInt at h
  split at h
  · split at h <;> cases h
    rfl
  · cases h

/-- A place that passes is a dictionary with its identifier. -/
theorem checkPlace_ok {v : Json} {pid : Int} (h : checkPlace v = .ok pid) :
    placeId? v = some pid ∧ v.get "place_id" = .ok (.int pid) := by
  unfold checkPlace at h
  split at h
  · obtain ⟨-, -, h⟩ := bind_eq_ok.mp h
    obtain ⟨i, hi, h⟩ := bind_eq_ok.mp h
    obtain ⟨-, -, h⟩ := bind_eq_ok.mp h
    obtain ⟨-, -, h⟩ := bind_eq_ok.mp h
    obtain ⟨-, -, h⟩ := bind_eq_ok.mp h
    cases h
    have hi := checkInt_ok hi
    simp only [placeId?, Json.get, Json.int?, hi, and_self]
  · cases h

/-- A message of the right form has places, each a dictionary with an identifier
    of its own. -/
theorem scoreSchema_ok {n : Nat} (h : scoreSchema pf (.obj payload) = .ok (.ok n)) :
    ∃ places, dictGet payload "places" = .arr places ∧ places ≠ [] ∧
      places.mapM (·.get "place_id") = .ok ((placeIds payload).map .int) ∧
      (placeIds payload).length = places.length ∧ (placeIds payload).Nodup := by
  unfold scoreSchema at h
  dsimp only at h
  split at h
  · split at h
    · rename_i p ps hplaces
      split at h
      · cases h
      · cases h
      · rename_i ids hids
        split at h
        · rename_i hnodup
          have hpass := mapM_eq_ok.mp hids
          -- the identifiers that passed are the ones of the message
          have hsame : placeIds payload = ids := by
            rw [placeIds, hplaces]
            exact filterMap_of_forall₂ (hpass.imp fun _ _ h => (checkPlace_ok h).1)
          rw [hsame]
          refine ⟨p :: ps, hplaces, List.cons_ne_nil _ _, mapM_eq_ok.mpr ?_,
            hpass.length_eq.symm, hnodup⟩
          rw [List.forall₂_map_right_iff]
          exact hpass.imp fun _ _ h => (checkPlace_ok h).2
        · cases h
    · cases h
  · cases h

/-! ### What is wrong with a route -/

/-- An integer is read from an integer only. -/
theorem Json.int?_eq_some_iff {v : Json} {i : Int} : v.int? = some i ↔ v = .int i := by
  cases v <;> simp [Json.int?]

/-- A list of integers is read from an array of integers only. -/
theorem Json.ints?_eq_some_iff {v : Json} {order : List Int} :
    v.ints? = some order ↔ v = .arr (order.map .int) := by
  cases v with
  | arr l =>
    simp only [Json.ints?, mapM_eq_some, Json.int?_eq_some_iff, Json.arr.injEq]
    rw [← List.forall₂_map_right_iff (R := Eq), List.forall₂_eq_eq_eq]
  | _ => simp [Json.ints?]

/-- A number is among the identifiers when one of them is it. -/
theorem any_eqInt_iff {ids : List Int} {i : Int} :
    (ids.map Json.int).any (·.eqInt i) = true ↔ i ∈ ids := by
  simp [Json.eqInt]

/-- A leg joins two visits when it is from the one to the other. -/
theorem connects_iff {leg : Json} {a b : Int} : connects leg (a, b) = true ↔
    ∃ m, leg = .obj m ∧ (dictGet m "from").eqInt a = true ∧ (dictGet m "to").eqInt b = true := by
  cases leg <;> simp [connects]

/-- A field reads null when it is missing or null. -/
theorem dictGet_eq_null_iff {k : String} :
    dictGet payload k = .null ↔ payload.lookup k = none ∨ payload.lookup k = some .null := by
  unfold dictGet
  cases payload.lookup k with
  | none => simp
  | some v => simp

/-- Legs that are missing read as none, a list as it is. -/
theorem orElse_legs
    (hlegs : dictGet payload "legs" = .null ∨ ∃ l, dictGet payload "legs" = .arr l) :
    (dictGet payload "legs").orElse (.arr []) = .arr (legList payload) := by
  unfold legList
  rcases hlegs with hnull | ⟨l, hl⟩
  · rw [hnull]
    rfl
  · rw [hl]
    cases l <;> rfl

/-- Beside as many legs as there are pairs of visits, each leg stands beside its
    pair. -/
theorem forall_mem_zip_pairs_iff {legs : List Json} {order : List Int}
    (hlength : legs.length + 1 = order.length) :
    (∀ p ∈ legs.zip (pairs order), connects p.1 p.2 = true) ↔ Joined legs order := by
  constructor
  · intro hall
    refine ⟨hlength, fun i u v hu hv => ?_⟩
    have hi : i < legs.length := by
      obtain ⟨hlt, -⟩ := List.getElem?_eq_some_iff.mp hv
      omega
    -- the leg at a position stands beside the pair that begins there
    have hmem : (legs[i], (u, v)) ∈ legs.zip (pairs order) :=
      List.mem_of_getElem? (List.getElem?_zip_eq_some.mpr
        ⟨List.getElem?_eq_getElem hi, getElem?_pairs_eq_some.mpr ⟨hu, hv⟩⟩)
    obtain ⟨m, hm, hends⟩ := connects_iff.mp (hall _ hmem)
    dsimp only at hm
    exact ⟨m, by rw [List.getElem?_eq_getElem hi, hm], hends⟩
  · -- a pair stands at some position, and the leg there joins it
    rintro ⟨-, hall⟩ p hp
    obtain ⟨i, hi⟩ := List.mem_iff_getElem?.mp hp
    obtain ⟨hleg, hends⟩ := List.getElem?_zip_eq_some.mp hi
    obtain ⟨hu, hv⟩ := getElem?_pairs_eq_some.mp hends
    obtain ⟨m, hm, hjoin⟩ := hall i p.2.1 p.2.2 hu hv
    rw [hleg] at hm
    rw [Option.some.inj hm]
    exact connects_iff.mpr ⟨m, rfl, hjoin⟩

/-- Nothing is wrong with the legs when there are as many as there should be and
    each joins its two visits. -/
theorem legProblems_eq_nil_iff {order : List Int} (horder : order ≠ [])
    (hlegs : dictGet payload "legs" = .null ∨ ∃ l, dictGet payload "legs" = .arr l) :
    legProblems order (dictGet payload "legs") = [] ↔ Joined (legList payload) order := by
  have hpos := List.length_pos_of_ne_nil horder
  unfold legProblems
  rw [orElse_legs hlegs]
  dsimp only
  split
  · rename_i hlength
    have hlength : (legList payload).length + 1 = order.length := by omega
    rw [List.map_eq_nil_iff, List.filter_eq_nil_iff, ← forall_mem_zip_pairs_iff hlength]
    simp
  · rename_i hlength
    -- the count alone is wrong
    apply iff_of_false (List.cons_ne_nil _ _)
    rintro ⟨h, -⟩
    omega

/-- Nothing is wrong with a route that rearranges the places and is joined up. -/
theorem routeProblems_eq_nil_iff {ids order : List Int} (hids : ids.Nodup) (hne : ids ≠ [])
    (hlegs : dictGet payload "legs" = .null ∨ ∃ l, dictGet payload "legs" = .arr l) :
    routeProblems (ids.map .int) order (dictGet payload "legs") = [] ↔
      order.Perm ids ∧ Joined (legList payload) order := by
  have hunknown : (order.filter fun i => !(ids.map Json.int).any (·.eqInt i)) = [] ↔
      order ⊆ ids := by
    rw [List.filter_eq_nil_iff]
    simp only [Bool.not_eq_true', Bool.not_eq_false, any_eqInt_iff]
    rfl
  -- the first three checks together ask for a rearrangement
  have hcounts : routeProblems (ids.map .int) order (dictGet payload "legs") = [] ↔
      order.Perm ids ∧ legProblems order (dictGet payload "legs") = [] := by
    unfold routeProblems
    dsimp only
    rw [List.append_eq_nil_iff, List.append_eq_nil_iff, List.append_eq_nil_iff,
      perm_iff_of_nodup hids, List.length_map]
    simp only [ite_eq_right_iff, List.cons_ne_nil, imp_false, ne_eq, not_not, hunknown, and_assoc]
  rw [hcounts]
  refine and_congr_right fun hperm => legProblems_eq_nil_iff ?_ hlegs
  rintro rfl
  exact hne hperm.symm.eq_nil

/-! ### The verdict -/

/-- An order the judge can read is the only one that may be sound. -/
theorem exists_soundRoute_iff : (∃ order, SoundRoute payload order) ↔
    ∃ order, (dictGet payload "visit_order").ints? = some order ∧
      order.Perm (placeIds payload) ∧ Joined (legList payload) order := by
  constructor
  · rintro ⟨order, hsound⟩
    exact ⟨order, Json.ints?_eq_some_iff.mpr hsound.order_eq, hsound.perm, hsound.joined⟩
  · rintro ⟨order, horder, hperm, hjoined⟩
    exact ⟨order, Json.ints?_eq_some_iff.mp horder, hperm, hjoined⟩

/-- On a message of the right form whose legs are a list, if there are any, the
    judge finds a route whenever there is an order, and finds nothing wrong with
    it exactly when it is sound. -/
theorem scoreRoute_ok_iff (pf : Platform) (payload : List (String × Json)) (n : Nat)
    (hschema : scoreSchema pf (.obj payload) = .ok (.ok n))
    (hlegs : dictGet payload "legs" = .null ∨ ∃ l, dictGet payload "legs" = .arr l) :
    ∃ score, scoreRoute payload = .ok score ∧
      (score.ok = true ↔ ∃ order, SoundRoute payload order) ∧
      (score.present = false ↔
        payload.lookup "visit_order" = none ∨ payload.lookup "visit_order" = some .null) := by
  obtain ⟨places, hplaces, hne, hids, hlength, hnodup⟩ := scoreSchema_ok hschema
  have hidsNe : placeIds payload ≠ [] := by
    rw [← List.length_pos_iff, hlength]
    exact List.length_pos_of_ne_nil hne
  have hiter : ((dictGet payload "places").orElse (.arr [])).iter = .ok places := by
    rw [hplaces, Json.iter_orElse_arr]
  rw [← dictGet_eq_null_iff, exists_soundRoute_iff]
  unfold scoreRoute
  rw [bind_of_eq_ok hiter, bind_of_eq_ok hids]
  by_cases hnull : dictGet payload "visit_order" = .null
  · -- no order at all
    rw [hnull]
    exact ⟨_, rfl, by simp [Json.ints?], by simp⟩
  · split
    · rename_i hnull'
      exact absurd hnull' hnull
    cases horder : (dictGet payload "visit_order").ints? with
    | none =>
      -- an order that is no list of integers
      exact ⟨_, rfl, by simp, by simp [hnull]⟩
    | some order =>
      refine ⟨_, rfl, ?_, by simp [hnull]⟩
      rw [List.isEmpty_iff, routeProblems_eq_nil_iff hnodup hidsNe hlegs]
      simp

/-- A place of the sample message. -/
def sampleSpot (pid : Int) : Json :=
  .obj [("place_id", .int pid), ("day", .int 1), ("name", .str "a"),
    ("lat", .float 37), ("lng", .float 127)]

/-- A message whose route goes back to front, joined up by its one leg. -/
def sampleMessage : List (String × Json) :=
  [("status", .str "done"), ("places", .arr [sampleSpot 0, sampleSpot 1]),
   ("visit_order", .arr [.int 1, .int 0]),
   ("legs", .arr [.obj [("from", .int 1), ("to", .int 0)]])]

/-- The two places of the sample message are joined by its leg. -/
theorem sampleMessage_sound : SoundRoute sampleMessage [1, 0] where
  order_eq := rfl
  perm := List.Perm.swap 0 1 []
  joined := by
    refine ⟨rfl, fun i u v hu hv => ?_⟩
    cases i with
    | zero =>
      cases hu
      cases hv
      exact ⟨[("from", .int 1), ("to", .int 0)], rfl, rfl, rfl⟩
    | succ i => cases hv

/-- The route of the sample message is fine. -/
theorem scoreRoute_ok_sample : ∃ score, scoreRoute sampleMessage = .ok score ∧ score.ok = true := by
  obtain ⟨score, hscore, hok, -⟩ :=
    scoreRoute_ok_iff samplePlatform sampleMessage 2 rfl (Or.inr ⟨_, rfl⟩)
  exact ⟨score, hscore, hok.mpr ⟨_, sampleMessage_sound⟩⟩

end MapServiceAgent.Native
