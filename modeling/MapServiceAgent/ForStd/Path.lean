import Mathlib.Algebra.Order.Group.Defs
import Mathlib.Tactic.Abel

/-!
# Paths through a list of stops

The length of an open path, what turning a stretch of it around does to that
length, and the path that always goes on to the nearest of the stops left.

## Key results

- `pathLength_append`: the length of two paths joined
- `pathLength_reverse`: a path is as long the other way round
- `pathLength_turn`, `pathLength_turn_end`: only the ends of a turned stretch count
-/

namespace MapServiceAgent

variable {α K : Type} [AddCommGroup K] {d : α → α → K}

/-- The length of the path through the stops in their order. -/
def pathLength (d : α → α → K) : List α → K
  | a :: b :: l => d a b + pathLength d (b :: l)
  | _ => 0

/-! ### Joining and turning -/

/-- Two paths joined are as long as both and the stretch between them. -/
theorem pathLength_append {l r : List α} {x y : α} (hx : l.getLast? = some x)
    (hy : r.head? = some y) :
    pathLength d (l ++ r) = pathLength d l + d x y + pathLength d r := by
  induction l with
  | nil => cases hx
  | cons a l ih =>
    cases l with
    | nil =>
      cases hx
      cases r with
      | nil => cases hy
      | cons b r =>
        cases hy
        simp [pathLength]
    | cons b l =>
      -- the joint lies further on
      rw [List.getLast?_cons_cons] at hx
      have hrest := ih hx
      simp only [List.cons_append, pathLength] at hrest ⊢
      rw [hrest]
      abel

/-- A path is as long the other way round. -/
theorem pathLength_reverse (hd : ∀ x y, d x y = d y x) (l : List α) :
    pathLength d l.reverse = pathLength d l := by
  induction l with
  | nil => rfl
  | cons a l ih =>
    cases l with
    | nil => rfl
    | cons b l =>
      have hlast : (b :: l).reverse.getLast? = some b := by simp
      rw [List.reverse_cons, pathLength_append hlast (show [a].head? = some a from rfl), ih, hd b a]
      simp only [pathLength]
      abel

/-- Turning the end of a path around replaces the stretch that leads to it. -/
theorem pathLength_turn_end (hd : ∀ x y, d x y = d y x) {l m : List α} {a b c : α}
    (ha : l.getLast? = some a) (hb : m.head? = some b) (hc : m.getLast? = some c) :
    pathLength d (l ++ m.reverse) + d a b = pathLength d (l ++ m) + d a c := by
  have hc' : m.reverse.head? = some c := by rw [List.head?_reverse, hc]
  rw [pathLength_append ha hc', pathLength_append ha hb, pathLength_reverse hd]
  abel

/-- Turning the middle of a path around replaces the two stretches beside it. -/
theorem pathLength_turn (hd : ∀ x y, d x y = d y x) {l m r : List α} {a b c e : α}
    (ha : l.getLast? = some a) (hb : m.head? = some b) (hc : m.getLast? = some c)
    (he : r.head? = some e) :
    pathLength d (l ++ m.reverse ++ r) + (d a b + d c e) =
      pathLength d (l ++ m ++ r) + (d a c + d b e) := by
  have hturn := pathLength_turn_end hd ha hb hc
  have hlast : (l ++ m.reverse).getLast? = some b := by
    rw [List.getLast?_append, List.getLast?_reverse, hb]
    rfl
  have hlast' : (l ++ m).getLast? = some c := by
    rw [List.getLast?_append, hc]
    rfl
  -- what is turned ends in the element it began with
  rw [pathLength_append hlast he, pathLength_append hlast' he]
  calc pathLength d (l ++ m.reverse) + d b e + pathLength d r + (d a b + d c e)
    _ = pathLength d (l ++ m.reverse) + d a b + (d b e + d c e + pathLength d r) := by abel
    _ = pathLength d (l ++ m) + d a c + (d b e + d c e + pathLength d r) := by rw [hturn]
    _ = pathLength d (l ++ m) + d c e + pathLength d r + (d a c + d b e) := by abel

/-! ### The nearest stop first -/

/-- The path from `last` through the stops that always goes on to the nearest of
    those left, to the first of them if there are several. -/
inductive NearestFrom [LT K] [LE K] (d : α → α → K) : α → List α → List α → Prop where
  | done (last : α) : NearestFrom d last [] []
  | step {last next : α} {before after path : List α} :
      (∀ x ∈ before, d last next < d last x) → (∀ x ∈ after, d last next ≤ d last x) →
      NearestFrom d next (before ++ after) path →
      NearestFrom d last (before ++ next :: after) (next :: path)

end MapServiceAgent
