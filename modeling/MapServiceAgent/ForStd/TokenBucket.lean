import Mathlib.Algebra.Order.Field.Basic
import Mathlib.Tactic.Linarith
import Mathlib.Tactic.Ring

/-!
# Token buckets

A bucket is refilled at a constant rate up to a capacity, but only written when
a request comes: what it holds at any time follows from its last writing. A
request takes one token or is denied; either way the bucket may be rewritten.

## Key results

- `Step.avail_add`: a step takes from what is available exactly what it grants
- `avail_settle`: rewriting a bucket changes nothing for later
- `Run.grants_le`: grants in a window are at most capacity plus refill
- `one_le_avail_of_wait`: after the time a missing part of a token takes, there
  is a whole one
- `write_holds_le_iff`: when a writing that may come from a clock set back
  credits nothing twice
-/

namespace MapServiceAgent.TokenBucket

variable {K : Type} [Field K] [LinearOrder K]

/-- How many tokens a bucket holds, and how fast they come. -/
structure Params (K : Type) where
  cap : K
  rate : K

/-- A bucket as last written: its level, and when. -/
structure Bucket (K : Type) where
  level : K
  stamp : K

/-- What the bucket holds at time `t`. -/
def Bucket.avail (p : Params K) (b : Bucket K) (t : K) : K :=
  min (b.level + (t - b.stamp) * p.rate) p.cap

/-- One request at time `t`, with whether it was granted. -/
inductive Step (p : Params K) (b : Bucket K) (t : K) : Bool → Bucket K → Prop where
  /-- Refused for another reason; the bucket is not looked at. -/
  | refuse : Step p b t false b
  | deny : b.avail p t < 1 → Step p b t false ⟨b.avail p t, t⟩
  | grant : 1 ≤ b.avail p t → Step p b t true ⟨b.avail p t - 1, t⟩

/-- The bucket is sound at time `t`: written before, within its bounds. -/
structure Bucket.Sound (p : Params K) (b : Bucket K) (t : K) : Prop where
  nonneg : 0 ≤ b.level
  le_cap : b.level ≤ p.cap
  stamp_le : b.stamp ≤ t

variable {p : Params K} {b b' : Bucket K} {t t' : K} {granted : Bool}

/-- No more is available than the bucket holds. -/
theorem avail_le_cap : b.avail p t ≤ p.cap := min_le_right _ _

/-- Just written, a bucket holds what was written. -/
theorem avail_self {x : K} (hx : x ≤ p.cap) : Bucket.avail p ⟨x, t⟩ t = x := by
  simp [Bucket.avail, hx]

/-- A sound bucket stays sound as time passes. -/
theorem Bucket.Sound.mono (h : b.Sound p t) (htt' : t ≤ t') : b.Sound p t' :=
  ⟨h.nonneg, h.le_cap, h.stamp_le.trans htt'⟩

variable [IsStrictOrderedRing K]

/-- What was left is still available. -/
theorem Bucket.Sound.level_le_avail (hrate : 0 ≤ p.rate) (h : b.Sound p t) :
    b.level ≤ b.avail p t := by
  have hgrow : 0 ≤ (t - b.stamp) * p.rate := mul_nonneg (sub_nonneg.mpr h.stamp_le) hrate
  exact le_min (le_add_of_nonneg_right hgrow) h.le_cap

/-- What is available is not negative. -/
theorem Bucket.Sound.avail_nonneg (hrate : 0 ≤ p.rate) (h : b.Sound p t) : 0 ≤ b.avail p t :=
  h.nonneg.trans (h.level_le_avail hrate)

/-- In time `t' - t` at most the refill comes in. -/
theorem avail_le_add (hrate : 0 ≤ p.rate) (htt' : t ≤ t') :
    b.avail p t' ≤ b.avail p t + (t' - t) * p.rate := by
  have hgrow : 0 ≤ (t' - t) * p.rate := mul_nonneg (sub_nonneg.mpr htt') hrate
  unfold Bucket.avail
  rcases min_cases (b.level + (t - b.stamp) * p.rate) p.cap with ⟨h, _⟩ | ⟨h, _⟩
  · rw [h]
    refine (min_le_left _ _).trans (le_of_eq ?_)
    ring
  · rw [h]
    exact (min_le_right _ _).trans (le_add_of_nonneg_right hgrow)

/-- Rewriting a bucket changes nothing for later. -/
theorem avail_settle (hrate : 0 ≤ p.rate) (htt' : t ≤ t') :
    Bucket.avail p ⟨b.avail p t, t⟩ t' = b.avail p t' := by
  have hgrow : 0 ≤ (t' - t) * p.rate := mul_nonneg (sub_nonneg.mpr htt') hrate
  have hsum : b.level + (t - b.stamp) * p.rate + (t' - t) * p.rate =
      b.level + (t' - b.stamp) * p.rate := by ring
  simp only [Bucket.avail]
  rw [← min_add_add_right, hsum, min_assoc, min_eq_right (le_add_of_nonneg_right hgrow)]

/-- After the time the missing part of a token takes, there is a whole one. -/
theorem one_le_avail_of_wait (hrate : 0 < p.rate) (hcap : 1 ≤ p.cap)
    (hwait : t + (1 - b.avail p t) / p.rate ≤ t') : 1 ≤ Bucket.avail p ⟨b.avail p t, t⟩ t' := by
  have hrefill : 1 - b.avail p t ≤ (t' - t) * p.rate := by
    rw [← div_le_iff₀ hrate]
    linarith
  refine le_min ?_ hcap
  linarith

/-- A step takes from what is available exactly what it grants. -/
theorem Step.avail_add (h : Step p b t granted b') :
    b'.avail p t + (if granted then 1 else 0) = b.avail p t := by
  cases h with
  | refuse => simp
  | deny _ => simp [avail_self avail_le_cap]
  | grant _ =>
    have hle : b.avail p t - 1 ≤ p.cap := by linarith [avail_le_cap (b := b) (p := p) (t := t)]
    simp [avail_self hle]

/-- A request leaves a sound bucket. -/
theorem Step.sound (hrate : 0 ≤ p.rate) (h : Step p b t granted b') (hb : b.Sound p t) :
    b'.Sound p t := by
  cases h with
  | refuse => exact hb
  -- denied, the bucket is filled up to now
  | deny _ => exact ⟨hb.avail_nonneg hrate, avail_le_cap, le_rfl⟩
  | grant hone =>
    -- granted, at least one was there
    have hle := avail_le_cap (b := b) (p := p) (t := t)
    exact ⟨by linarith, by linarith, le_rfl⟩

/-- Requests one after the other, each with its time and whether it was
    granted. -/
inductive Run (p : Params K) : Bucket K → List (K × Bool) → Bucket K → Prop where
  | nil {b : Bucket K} : Run p b [] b
  | cons {b b' b'' : Bucket K} {t : K} {granted : Bool} {rest : List (K × Bool)} :
      Step p b t granted b' → Run p b' rest b'' → Run p b ((t, granted) :: rest) b''

/-- The number of grants. -/
def grants (requests : List (K × Bool)) : Nat := requests.countP (·.2)

/-- Along a run, what is available plus what was granted grows by the refill
    at most. -/
theorem Run.avail_add_grants_le (hrate : 0 ≤ p.rate) {requests : List (K × Bool)} {stop : K}
    (h : Run p b requests b') (hb : b.Sound p t)
    (hsorted : (requests.map (·.1)).Pairwise (· ≤ ·)) (hstart : ∀ x ∈ requests, t ≤ x.1)
    (hstop : ∀ x ∈ requests, x.1 ≤ stop) (htstop : t ≤ stop) :
    b'.avail p stop + grants requests ≤ b.avail p t + (stop - t) * p.rate := by
  induction h generalizing t with
  | nil => simpa [grants] using avail_le_add hrate htstop
  | @cons b b₁ b₂ u granted rest hstep hrun ih =>
    simp only [List.map_cons, List.pairwise_cons, List.mem_map, forall_exists_index, and_imp,
      forall_apply_eq_imp_iff₂] at hsorted
    simp only [List.mem_cons, forall_eq_or_imp] at hstart hstop
    -- the rest of the run starts at this request
    have hrest := ih (hstep.sound hrate (hb.mono hstart.1)) hsorted.2 hsorted.1 hstop.2 hstop.1
    have htaken := hstep.avail_add
    have hrefill : b.avail p u ≤ b.avail p t + (u - t) * p.rate := avail_le_add hrate hstart.1
    have hcount : (grants ((u, granted) :: rest) : K) =
        grants rest + (if granted then 1 else 0) := by
      cases granted <;> simp [grants]
    rw [hcount]
    linarith

/-- So do several, in order of time. -/
theorem Run.sound (hrate : 0 ≤ p.rate) {requests : List (K × Bool)} {stop : K}
    (h : Run p b requests b') (hb : b.Sound p t)
    (hsorted : (requests.map (·.1)).Pairwise (· ≤ ·)) (hstart : ∀ x ∈ requests, t ≤ x.1)
    (hstop : ∀ x ∈ requests, x.1 ≤ stop) (htstop : t ≤ stop) : b'.Sound p stop := by
  induction h generalizing t with
  | nil => exact hb.mono htstop
  | @cons b b₁ b₂ u granted rest hstep hrun ih =>
    -- the first request is before the others, which start from what it leaves
    simp only [List.map_cons, List.pairwise_cons, List.mem_map, forall_exists_index, and_imp,
      forall_apply_eq_imp_iff₂] at hsorted
    simp only [List.mem_cons, forall_eq_or_imp] at hstart hstop
    exact ih (hstep.sound hrate (hb.mono hstart.1)) hsorted.2 hsorted.1 hstop.2 hstop.1

/-- Grants in a window are at most the capacity plus the refill. -/
theorem Run.grants_le (hrate : 0 ≤ p.rate) {requests : List (K × Bool)} {stop : K}
    (h : Run p b requests b') (hb : b.Sound p t)
    (hsorted : (requests.map (·.1)).Pairwise (· ≤ ·)) (hstart : ∀ x ∈ requests, t ≤ x.1)
    (hstop : ∀ x ∈ requests, x.1 ≤ stop) (htstop : t ≤ stop) :
    (grants requests : K) ≤ p.cap + (stop - t) * p.rate := by
  have hsum := h.avail_add_grants_le hrate hb hsorted hstart hstop htstop
  have hleft := (h.sound hrate hb hsorted hstart hstop htstop).avail_nonneg hrate
  linarith [avail_le_cap (b := b) (p := p) (t := t)]

/-! ### Clocks that disagree -/

/-- What the bucket holds at time `t`, also where `t` lies before its writing. -/
def Bucket.holds (p : Params K) (b : Bucket K) (t : K) : K :=
  min (b.level + max 0 (t - b.stamp) * p.rate) p.cap

/-- The bucket as a request at time `now` writes it that takes `taken`. -/
def Bucket.write (p : Params K) (b : Bucket K) (now taken : K) : Bucket K :=
  ⟨b.holds p now - taken, now⟩

/-- At a time after the stamp a bucket holds what has come since, up to its size. -/
theorem holds_of_le (ht : b.stamp ≤ t) :
    b.holds p t = min (b.level + (t - b.stamp) * p.rate) p.cap := by
  rw [Bucket.holds, max_eq_right (sub_nonneg.mpr ht)]

/-- A writing at `now` leaves no more for any later time than there was, exactly
    when it does not set the stamp back, or the bucket was full, or what was
    taken makes up for the time set back. -/
theorem write_holds_le_iff (now : K) {taken : K} (htaken : 0 ≤ taken) :
    (∀ t, now ≤ t → b.stamp ≤ t → (b.write p now taken).holds p t ≤ b.holds p t) ↔
      b.stamp ≤ now ∨ p.cap ≤ b.level ∨ (b.stamp - now) * p.rate ≤ taken := by
  constructor
  · intro h
    by_contra hnot
    simp only [not_or, not_le] at hnot
    obtain ⟨hback, hlevel, hrefill⟩ := hnot
    -- at the old stamp the time set back has been credited a second time
    have hat := h b.stamp hback.le le_rfl
    have hold : b.holds p b.stamp = b.level := by
      rw [holds_of_le le_rfl, sub_self, zero_mul, add_zero, min_eq_left hlevel.le]
    have hnow : b.holds p now = b.level := by
      rw [Bucket.holds, max_eq_left (by linarith), zero_mul, add_zero, min_eq_left hlevel.le]
    rw [hold, holds_of_le (show (b.write p now taken).stamp ≤ b.stamp from hback.le)] at hat
    simp only [Bucket.write, hnow] at hat
    rcases min_le_iff.mp hat with hle | hle
    · linarith
    · linarith
  · intro h t hnow hstamp
    rw [holds_of_le hstamp, holds_of_le (show (b.write p now taken).stamp ≤ t from hnow)]
    refine le_min ?_ (min_le_right _ _)
    simp only [Bucket.write]
    by_cases hback : b.stamp ≤ now
    · -- the clock went on: what came in until now and from now on is all there is
      apply (min_le_left _ _).trans
      have hheld : b.holds p now ≤ b.level + (now - b.stamp) * p.rate := by
        rw [holds_of_le hback]
        exact min_le_left _ _
      have hsplit : (now - b.stamp) * p.rate + (t - now) * p.rate = (t - b.stamp) * p.rate := by
        ring
      linarith
    · have hheld : b.holds p now = min b.level p.cap := by
        rw [Bucket.holds, max_eq_left (by linarith), zero_mul, add_zero]
      have hsplit : (b.stamp - now) * p.rate + (t - b.stamp) * p.rate = (t - now) * p.rate := by
        ring
      by_cases hmade : (b.stamp - now) * p.rate ≤ taken
      · apply (min_le_left _ _).trans
        have := min_le_left b.level p.cap
        linarith
      · -- a full bucket stays full until then
        have hfull : p.cap ≤ b.level := (h.resolve_left hback).resolve_right hmade
        apply (min_le_right _ _).trans
        have hrate : 0 ≤ p.rate := by
          by_contra hneg
          refine hmade (le_trans ?_ htaken)
          exact mul_nonpos_of_nonneg_of_nonpos (by linarith) (by linarith)
        have := mul_nonneg (sub_nonneg.mpr hstamp) hrate
        linarith

end MapServiceAgent.TokenBucket
