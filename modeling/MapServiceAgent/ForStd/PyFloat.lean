import Mathlib.Data.Rat.Floor

/-!
# Floats with the rounding left out

A double is read as the number it stands for, plus the three values that stand
for none. Finite arithmetic is exact; comparisons are the IEEE ones, so every
comparison with `nan` is false.
-/

namespace MapServiceAgent

/-- A number, one of the infinities, or no number. -/
inductive PyFloat where
  | fin (q : ℚ)
  | inf
  | ninf
  | nan
deriving DecidableEq, Repr

namespace PyFloat

/-- `x < y`. -/
def ltb : PyFloat → PyFloat → Bool
  | fin a, fin b => decide (a < b)
  | fin _, inf => true
  | ninf, fin _ => true
  | ninf, inf => true
  | _, _ => false

/-- `x <= y`. -/
def leb : PyFloat → PyFloat → Bool
  | fin a, fin b => decide (a ≤ b)
  | nan, _ => false
  | _, nan => false
  | _, inf => true
  | ninf, _ => true
  | _, _ => false

instance : LT PyFloat := ⟨fun x y => x.ltb y = true⟩
instance : LE PyFloat := ⟨fun x y => x.leb y = true⟩
instance (x y : PyFloat) : Decidable (x < y) := inferInstanceAs (Decidable (x.ltb y = true))
instance (x y : PyFloat) : Decidable (x ≤ y) := inferInstanceAs (Decidable (x.leb y = true))
instance (n : Nat) : OfNat PyFloat n := ⟨fin n⟩

/-- Numbers are compared as they are. -/
@[simp] theorem fin_lt_fin (a b : ℚ) : fin a < fin b ↔ a < b := by
  show decide (a < b) = true ↔ a < b
  exact decide_eq_true_iff

/-- With equality as well. -/
@[simp] theorem fin_le_fin (a b : ℚ) : fin a ≤ fin b ↔ a ≤ b := by
  show decide (a ≤ b) = true ↔ a ≤ b
  exact decide_eq_true_iff

/-- Python's `math.isfinite`. -/
def isFinite : PyFloat → Bool
  | fin _ => true
  | _ => false

/-- Negation; the infinities are each other's. -/
def neg : PyFloat → PyFloat
  | fin a => fin (-a)
  | inf => ninf
  | ninf => inf
  | nan => nan

instance : Neg PyFloat := ⟨neg⟩

/-- Addition; the sum of both infinities is no number. -/
def add : PyFloat → PyFloat → PyFloat
  | fin a, fin b => fin (a + b)
  | nan, _ => nan
  | _, nan => nan
  | inf, ninf => nan
  | ninf, inf => nan
  | inf, _ => inf
  | _, inf => inf
  | ninf, _ => ninf
  | _, ninf => ninf

instance : Add PyFloat := ⟨add⟩

/-- Multiplication by a positive constant. -/
def scale (c : ℚ) : PyFloat → PyFloat
  | fin a => fin (a * c)
  | x => x

end PyFloat

/-- Python's `round` to the nearest integer, ties to even. -/
def roundHalfEven (q : ℚ) : Int :=
  let f := q.floor
  let r := q - f
  if r < 1 / 2 then f
  else if 1 / 2 < r then f + 1
  else if f % 2 = 0 then f else f + 1

/-- Rounding leaves what is not negative. -/
theorem roundHalfEven_nonneg {q : ℚ} (hq : 0 ≤ q) : 0 ≤ roundHalfEven q := by
  have hfloor : 0 ≤ q.floor := Rat.le_floor_iff.mpr (by simpa using hq)
  unfold roundHalfEven
  dsimp only
  repeat' split
  all_goals omega

/-- Rounding does not pass an integer. -/
theorem roundHalfEven_le {q : ℚ} {n : Int} (hq : q ≤ n) : roundHalfEven q ≤ n := by
  have hfloor : q.floor ≤ n := by exact_mod_cast (Rat.floor_le q).trans hq
  unfold roundHalfEven
  dsimp only
  split
  · exact hfloor
  · -- beyond its floor the number is no integer, so the floor is not the bound
    rename_i hhalf
    have hne : q.floor ≠ n := by
      rintro heq
      rw [heq] at hhalf
      linarith
    repeat' split
    all_goals omega

/-- `round(x, 2)`. -/
def PyFloat.round2 : PyFloat → PyFloat
  | .fin q => .fin (roundHalfEven (q * 100) / 100)
  | x => x

/-- Truncation towards zero. -/
def truncate (q : ℚ) : Int :=
  if 0 ≤ q then q.floor else -(-q).floor

end MapServiceAgent
