import MapServiceAgent.ForStd.List
import Mathlib.Data.List.Chain

/-!
# Timetables

Visits with a start and a stay, spread over days. A timetable can be kept when
every visit lies inside the daily window and leaves time for the way to the next
one of its day.

## Key results

- `OnTime.cons_iff`: a timetable is kept visit by visit
- `endToEnd_congr`: visits laid end to end depend on their own stays and gaps
-/

namespace MapServiceAgent

/-- A stay at a place. -/
structure Visit (α : Type) where
  place : α
  start : Int
  stay : Int

/-- The minute a visit ends. -/
def Visit.stop {α : Type} (v : Visit α) : Int := v.start + v.stay

/-- The same visit of another description of the place. -/
def Visit.map {α β : Type} (f : α → β) (v : Visit α) : Visit β := { v with place := f v.place }

section OnTime

variable {α β : Type}

/-- The second visit is on a later day, or late enough on the same day. -/
def Visit.Follows (day : α → Int) (travel : α → α → Int) (u v : Visit α) : Prop :=
  day u.place < day v.place ∨
    day u.place = day v.place ∧ u.stop + travel u.place v.place ≤ v.start

/-- A timetable that can be kept. -/
structure OnTime (day : α → Int) (travel : α → α → Int) (lo hi : Int) (visits : List (Visit α)) :
    Prop where
  stay_nonneg : ∀ v ∈ visits, 0 ≤ v.stay
  window : ∀ v ∈ visits, lo ≤ v.start ∧ v.stop ≤ hi
  follows : visits.IsChain (Visit.Follows day travel)

variable {day : α → Int} {travel : α → α → Int} {lo hi : Int}

/-- No visits are on time. -/
theorem OnTime.nil : OnTime day travel lo hi ([] : List (Visit α)) :=
  ⟨fun _ h => (nomatch h), fun _ h => (nomatch h), .nil⟩

/-- A timetable is kept visit by visit. -/
theorem OnTime.cons_iff {v : Visit α} {visits : List (Visit α)} :
    OnTime day travel lo hi (v :: visits) ↔
      (0 ≤ v.stay ∧ lo ≤ v.start ∧ v.stop ≤ hi) ∧
        (∀ w ∈ visits.head?, v.Follows day travel w) ∧ OnTime day travel lo hi visits := by
  constructor
  · rintro ⟨hstay, hwindow, hchain⟩
    -- a chain is its first link and the chain behind it
    obtain ⟨hnext, hchain⟩ := List.isChain_cons.mp hchain
    exact ⟨⟨hstay v List.mem_cons_self, hwindow v List.mem_cons_self⟩, hnext,
      fun w hw => hstay w (List.mem_cons_of_mem _ hw),
      fun w hw => hwindow w (List.mem_cons_of_mem _ hw), hchain⟩
  · rintro ⟨⟨hstay, hwindow⟩, hnext, hstays, hwindows, hchain⟩
    exact ⟨List.forall_mem_cons.mpr ⟨hstay, hstays⟩, List.forall_mem_cons.mpr ⟨hwindow, hwindows⟩,
      List.isChain_cons.mpr ⟨hnext, hchain⟩⟩

/-- What the days and the ways do not depend on may change. -/
theorem OnTime.map {f : α → β} {day' : β → Int} {travel' : β → β → Int} {visits : List (Visit α)}
    (h : OnTime day travel lo hi visits) (hday : ∀ x, day' (f x) = day x)
    (htravel : ∀ x y, travel' (f x) (f y) = travel x y) :
    OnTime day' travel' lo hi (visits.map (Visit.map f)) := by
  refine ⟨List.forall_mem_map.mpr h.stay_nonneg, List.forall_mem_map.mpr h.window, ?_⟩
  -- only the chain looks at the days and the ways
  refine List.isChain_map_of_isChain _ (fun u v huv => ?_) h.follows
  simpa only [Visit.Follows, Visit.map, Visit.stop, hday, htravel] using huv

end OnTime

/-! ### Visits laid end to end -/

section EndToEnd

variable {α β : Type}

/-- Visits one after the other, with a gap between any two. -/
def endToEnd (gap : α → α → Int) (stay : α → Int) (start : Int) : List α → List (Visit α)
  | [] => []
  | [x] => [⟨x, start, stay x⟩]
  | x :: y :: rest =>
    ⟨x, start, stay x⟩ :: endToEnd gap stay (start + stay x + gap x y) (y :: rest)

variable {gap gap' : α → α → Int} {stay stay' : α → Int}

/-- Laid end to end, the places are visited in their order. -/
@[simp] theorem map_place_endToEnd (start : Int) (l : List α) :
    (endToEnd gap stay start l).map (·.place) = l := by
  fun_induction endToEnd gap stay start l with
  | case1 => rfl
  | case2 => rfl
  | case3 start x y rest ih => rw [List.map_cons, ih]

/-- Each of them as long as it is to be stayed. -/
theorem stay_endToEnd {start : Int} {l : List α} {v : Visit α}
    (hv : v ∈ endToEnd gap stay start l) : v.stay = stay v.place := by
  fun_induction endToEnd gap stay start l with
  | case1 => exact absurd hv List.not_mem_nil
  -- the last visit stands alone
  | case2 start x =>
    rw [List.mem_singleton.mp hv]
  | case3 start x y rest ih =>
    rcases List.mem_cons.mp hv with rfl | hv
    · rfl
    · exact ih hv

/-- Every place has a visit. -/
theorem exists_mem_endToEnd {start : Int} {l : List α} {x : α} (hx : x ∈ l) :
    ∃ v ∈ endToEnd gap stay start l, v.place = x := by
  have hmap : x ∈ (endToEnd gap stay start l).map (·.place) := by rwa [map_place_endToEnd]
  exact List.mem_map.mp hmap

/-- Every visit has a place. -/
theorem place_mem_of_mem_endToEnd {start : Int} {l : List α} {v : Visit α}
    (hv : v ∈ endToEnd gap stay start l) : v.place ∈ l := by
  have h := List.mem_map_of_mem (f := fun v : Visit α => v.place) hv
  rwa [map_place_endToEnd] at h

/-- They depend on their own stays and the gaps between them. -/
theorem endToEnd_congr {start : Int} {l : List α}
    (hgap : ∀ p ∈ pairs l, gap p.1 p.2 = gap' p.1 p.2) (hstay : ∀ x ∈ l, stay x = stay' x) :
    endToEnd gap stay start l = endToEnd gap' stay' start l := by
  fun_induction endToEnd gap stay start l with
  | case1 => rfl
  | case2 start x =>
    rw [endToEnd, hstay x List.mem_cons_self]
  | case3 start x y rest ih =>
    have hx := hstay x List.mem_cons_self
    -- the first gap is one of the pairs
    have hxy : gap x y = gap' x y := hgap (x, y) List.mem_cons_self
    rw [ih (fun p hp => hgap p (List.mem_cons_of_mem _ hp))
      fun z hz => hstay z (List.mem_cons_of_mem _ hz), endToEnd, hx, hxy]

/-- Describing the places in another way changes nothing else. -/
theorem endToEnd_map {f : α → β} {gap : β → β → Int} {stay : β → Int} {start : Int} {l : List α} :
    endToEnd gap stay start (l.map f) =
      (endToEnd (fun x y => gap (f x) (f y)) (fun x => stay (f x)) start l).map (Visit.map f) := by
  induction l generalizing start with
  | nil => rfl
  | cons x l ih =>
    -- the definition looks two places ahead
    cases l with
    | nil => rfl
    | cons y l =>
      rw [List.map_cons, List.map_cons, endToEnd, ← List.map_cons, ih, endToEnd, List.map_cons]
      rfl

end EndToEnd

end MapServiceAgent
