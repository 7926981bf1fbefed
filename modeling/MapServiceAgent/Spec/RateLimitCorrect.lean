import MapServiceAgent.ForStd.TokenBucket
import MapServiceAgent.Native.RateLimit
import Mathlib.Tactic.FieldSimp

/-!
# The call limiter, correct

The script refines a token bucket, which bounds its grants over any window.
The daily cap is the work of a counter that may lapse before its date is over,
so it holds of the runs that never meet a lapsed counter.

## Key results

- `acquireScript_step`: one script call is one step of a token bucket
- `acquire_sound`: window bound, balance, frame and wait of every run
- `ok_le_dailyCap`: the daily cap, for runs that meet no lapsed counter
- `neverLapsed_of_prompt`: prompt calls outside the last second of a date do not
-/

namespace MapServiceAgent.Native

/-! ### One call -/

/-- What one call can do, with everything it checked. -/
inductive Replied (lim : Limits) (st : Store) (c : Call) : Reply → Store → Prop where
  | rpd : lim.dailyCap ≤ st.count c.time c.date → Replied lim st c .rpd st
  | wait : st.count c.time c.date < lim.dailyCap → available lim st.bucket c.nowMs < 1 →
      Replied lim st c
        (.wait ⌈(1 - available lim st.bucket c.nowMs) * 60000 / lim.refillPerMin⌉)
        { st with bucket := some ⟨available lim st.bucket c.nowMs, c.nowMs⟩ }
  | ok : st.count c.time c.date < lim.dailyCap → 1 ≤ available lim st.bucket c.nowMs →
      Replied lim st c .ok
        ({ st with bucket := some ⟨available lim st.bucket c.nowMs - 1, c.nowMs⟩ }.incr c)

/-- Every call is one of these. -/
theorem acquireScript_replied (lim : Limits) (st : Store) (c : Call) :
    Replied lim st c (acquireScript lim st c).1 (acquireScript lim st c).2 := by
  simp only [acquireScript]
  by_cases hcap : lim.dailyCap ≤ st.count c.time c.date
  · rw [if_pos hcap]
    -- the day's calls are spent
    exact .rpd hcap
  · rw [if_neg hcap]
    by_cases htokens : available lim st.bucket c.nowMs < 1
    · rw [if_pos htokens]
      -- too few tokens
      exact .wait (not_le.mp hcap) htokens
    · rw [if_neg htokens]
      exact .ok (not_le.mp hcap) (not_lt.mp htokens)

/-- Who is told to wait found too little, is told how long, and leaves the balance
    written down. -/
theorem of_wait {lim : Limits} {st : Store} {c : Call} {w : Int}
    (h : (acquireScript lim st c).1 = .wait w) :
    available lim st.bucket c.nowMs < 1 ∧
      w = ⌈(1 - available lim st.bucket c.nowMs) * 60000 / lim.refillPerMin⌉ ∧
      (acquireScript lim st c).2.bucket = some ⟨available lim st.bucket c.nowMs, c.nowMs⟩ := by
  have hr := acquireScript_replied lim st c
  generalize (acquireScript lim st c).1 = r, (acquireScript lim st c).2 = st' at h hr ⊢
  cases hr with
  | rpd _ => exact nomatch h
  | ok _ _ => exact nomatch h
  | wait _ hlt => exact ⟨hlt, (Reply.wait.inj h).symm, rfl⟩

@[simp] theorem length_acquireRun (lim : Limits) (st : Store) (cs : List Call) :
    (acquireRun lim st cs).1.length = cs.length := by
  induction cs generalizing st with
  | nil => rfl
  | cons c cs ih => simp [acquireRun, ih]

/-! ### The script is a token bucket -/

/-- The bucket's capacity, and its refill in a millisecond. -/
def Limits.params (lim : Limits) : TokenBucket.Params ℚ where
  cap := lim.capacity
  rate := lim.refillPerMin / 60000

/-- The stored bucket; none yet is a full one written at `start`. -/
def bucketView (lim : Limits) (start : ℚ) : Option Bucket → TokenBucket.Bucket ℚ
  | none => ⟨lim.capacity, start⟩
  | some b => ⟨b.tokens, b.ts⟩

section Refinement

variable {lim : Limits} {start : ℚ}

/-- The bucket refills. -/
theorem rate_pos (hrefill : 1 ≤ lim.refillPerMin) : 0 < lim.params.rate := by
  have : (1 : ℚ) ≤ lim.refillPerMin := by exact_mod_cast hrefill
  simp only [Limits.params]
  linarith

/-- The script's balance is what the token bucket holds. -/
theorem available_eq_avail (start : ℚ) (hrefill : 1 ≤ lim.refillPerMin) {bucket : Option Bucket} {nowMs : Int}
    (hstamp : (bucketView lim start bucket).stamp ≤ nowMs) :
    available lim bucket nowMs = (bucketView lim start bucket).avail lim.params nowMs := by
  cases bucket with
  | none =>
    -- a bucket not written yet is full, and stays full
    have hgrow : 0 ≤ ((nowMs : ℚ) - start) * lim.params.rate :=
      mul_nonneg (sub_nonneg.mpr hstamp) (rate_pos hrefill).le
    simp only [available, TokenBucket.Bucket.avail, bucketView]
    exact (min_eq_right (le_add_of_nonneg_right hgrow)).symm
  | some b =>
    -- the clock is not behind the stamp, so the time since counts
    have hts : b.ts ≤ nowMs := by
      have : (b.ts : ℚ) ≤ nowMs := hstamp
      exact_mod_cast this
    simp only [available, TokenBucket.Bucket.avail, bucketView, Limits.params,
      max_eq_right (sub_nonneg.mpr hts)]
    push_cast
    congr 2
    ring

/-- Counting a call leaves the bucket. -/
theorem incr_bucket (st : Store) (c : Call) : (st.incr c).bucket = st.bucket := rfl

/-- One script call is one step of the token bucket, granted if answered `ok`. -/
theorem acquireScript_step (hrefill : 1 ≤ lim.refillPerMin) (st : Store) (c : Call)
    (hstamp : (bucketView lim start st.bucket).stamp ≤ c.nowMs) :
    TokenBucket.Step lim.params (bucketView lim start st.bucket) c.nowMs
      ((acquireScript lim st c).1 == .ok)
      (bucketView lim start (acquireScript lim st c).2.bucket) := by
  have havail := available_eq_avail start hrefill hstamp
  have h := acquireScript_replied lim st c
  generalize (acquireScript lim st c).1 = r, (acquireScript lim st c).2 = st' at h ⊢
  -- each reply is a step of the bucket: refused, denied or granted
  cases h with
  | rpd _ => exact .refuse
  | wait _ hlt =>
    rw [havail] at hlt ⊢
    -- told to wait
    exact .deny hlt
  | ok _ hone =>
    rw [incr_bucket, havail] at *
    exact .grant hone

/-- The requests a run of calls amounts to. -/
def requestsOf (lim : Limits) (st : Store) (cs : List Call) : List (ℚ × Bool) :=
  cs.zipWith (fun c r => ((c.nowMs : ℚ), r == .ok)) (acquireRun lim st cs).1

/-- The requests come at the times of the calls. -/
theorem map_fst_requestsOf (st : Store) (cs : List Call) :
    (requestsOf lim st cs).map (·.1) = cs.map fun c => (c.nowMs : ℚ) := by
  induction cs generalizing st with
  | nil => rfl
  | cons c cs ih => simp [requestsOf, acquireRun] at ih ⊢; exact ih _

/-- What holds of the time of every call holds of the time of every request. -/
theorem forall_requestsOf {st : Store} {cs : List Call} {P : ℚ → Prop}
    (h : ∀ c ∈ cs, P c.nowMs) : ∀ x ∈ requestsOf lim st cs, P x.1 := by
  intro x hx
  have hmem : x.1 ∈ (requestsOf lim st cs).map (·.1) := List.mem_map_of_mem hx
  rw [map_fst_requestsOf] at hmem
  obtain ⟨c, hc, hcx⟩ := List.mem_map.mp hmem
  exact hcx ▸ h c hc

/-- The requests come in order if the calls do. -/
theorem pairwise_requestsOf {st : Store} {cs : List Call}
    (h : cs.Pairwise (·.nowMs ≤ ·.nowMs)) :
    ((requestsOf lim st cs).map (·.1)).Pairwise (· ≤ ·) := by
  rw [map_fst_requestsOf, List.pairwise_map]
  exact h.imp fun h => by exact_mod_cast h

/-- Granted are the calls answered `ok`. -/
theorem grants_requestsOf (st : Store) (cs : List Call) :
    TokenBucket.grants (requestsOf lim st cs) = (acquireRun lim st cs).1.count .ok := by
  induction cs generalizing st with
  | nil => rfl
  | cons c cs ih =>
    have h := ih (acquireScript lim st c).2
    simp only [requestsOf, TokenBucket.grants, acquireRun, List.zipWith_cons_cons,
      List.countP_cons, List.count_cons] at h ⊢
    rw [h]

/-- A run of calls is a run of the token bucket. -/
theorem acquireRun_run (hrefill : 1 ≤ lim.refillPerMin) (st : Store) {cs : List Call} {t : ℚ}
    (hsound : (bucketView lim start st.bucket).Sound lim.params t)
    (hstart : ∀ c ∈ cs, t ≤ c.nowMs) (hsorted : cs.Pairwise (·.nowMs ≤ ·.nowMs)) :
    TokenBucket.Run lim.params (bucketView lim start st.bucket) (requestsOf lim st cs)
      (bucketView lim start (acquireRun lim st cs).2.bucket) := by
  induction cs generalizing st t with
  | nil => exact .nil
  | cons c cs ih =>
    simp only [List.mem_cons, forall_eq_or_imp, List.pairwise_cons] at hstart hsorted
    have hnow := hsound.mono hstart.1
    have hstep := acquireScript_step hrefill st c hnow.stamp_le
    -- the first call is a step, and leaves a bucket that is sound for the rest
    refine .cons hstep (ih _ (hstep.sound (rate_pos hrefill).le hnow) (fun d hd => ?_) hsorted.2)
    exact_mod_cast hsorted.1 d hd

end Refinement

/-! ### Runs from an empty store -/

/-- The store after a run from an empty one. -/
def storeAfter (lim : Limits) (cs : List Call) : Store := (acquireRun lim {} cs).2

/-- The first replies of a run are those of its first calls. -/
theorem take_acquireRun (lim : Limits) (st : Store) (cs : List Call) (n : Nat) :
    (acquireRun lim st cs).1.take n = (acquireRun lim st (cs.take n)).1 := by
  induction cs generalizing st n with
  | nil => simp [acquireRun]
  | cons c cs ih =>
    cases n with
    | zero => rfl
    | succ n => simp [acquireRun, ih]

/-- The later replies of a run are those of its later calls, from the store in between. -/
theorem drop_acquireRun (lim : Limits) (st : Store) (cs : List Call) (n : Nat) :
    (acquireRun lim st cs).1.drop n =
      (acquireRun lim (acquireRun lim st (cs.take n)).2 (cs.drop n)).1 := by
  induction cs generalizing st n with
  | nil => simp [acquireRun]
  | cons c cs ih =>
    cases n with
    | zero => rfl
    | succ n => simp [acquireRun, ih]

section Runs

variable {lim : Limits}

/-- There is a time before all calls. -/
private theorem exists_start (pre : List Call) (t : ℚ) :
    ∃ start : ℚ, start ≤ t ∧ ∀ c ∈ pre, start ≤ c.nowMs := by
  induction pre with
  | nil => exact ⟨t, le_rfl, by simp⟩
  | cons c pre ih =>
    obtain ⟨start, ht, hpre⟩ := ih
    refine ⟨min start c.nowMs, (min_le_left _ _).trans ht, ?_⟩
    simp only [List.mem_cons, forall_eq_or_imp]
    exact ⟨min_le_right _ _, fun d hd => (min_le_left _ _).trans (hpre d hd)⟩

/-- There is a time after all calls. -/
private theorem exists_stop (pre : List Call) : ∃ stop : ℚ, ∀ c ∈ pre, (c.nowMs : ℚ) ≤ stop := by
  induction pre with
  | nil => exact ⟨0, by simp⟩
  | cons c pre ih =>
    obtain ⟨stop, hpre⟩ := ih
    refine ⟨max stop c.nowMs, ?_⟩
    simp only [List.mem_cons, forall_eq_or_imp]
    exact ⟨le_max_right _ _, fun d hd => (hpre d hd).trans (le_max_left _ _)⟩

/-- The bucket of a reached store is sound from the last call on. -/
theorem storeAfter_sound (hcap : 1 ≤ lim.capacity) (hrefill : 1 ≤ lim.refillPerMin)
    {pre : List Call} (hsorted : pre.Pairwise (·.nowMs ≤ ·.nowMs)) {t : ℚ}
    (hpre : ∀ c ∈ pre, (c.nowMs : ℚ) ≤ t) :
    ∃ start, (bucketView lim start (storeAfter lim pre).bucket).Sound lim.params t := by
  obtain ⟨start, hstart, hstarts⟩ := exists_start pre t
  refine ⟨start, ?_⟩
  -- the run starts at a full bucket
  have hfull : (bucketView lim start none).Sound lim.params start := by
    have : (1 : ℚ) ≤ lim.capacity := by exact_mod_cast hcap
    exact ⟨by simp only [bucketView]; linarith, le_rfl, le_rfl⟩
  have hrun := acquireRun_run hrefill {} hfull hstarts hsorted
  exact hrun.sound (rate_pos hrefill).le hfull (pairwise_requestsOf hsorted)
    (forall_requestsOf hstarts) (forall_requestsOf (P := (· ≤ t)) hpre) hstart

/-- Grants of a window, once the calls before it have run. -/
theorem ok_count_le (hcap : 1 ≤ lim.capacity) (hrefill : 1 ≤ lim.refillPerMin)
    {pre window : List Call} (t stop : ℚ) (hsorted : (pre ++ window).Pairwise (·.nowMs ≤ ·.nowMs))
    (hpre : ∀ c ∈ pre, (c.nowMs : ℚ) ≤ t) (hstart : ∀ c ∈ window, t ≤ c.nowMs)
    (hstop : ∀ c ∈ window, (c.nowMs : ℚ) ≤ stop) (htstop : t ≤ stop) :
    ((acquireRun lim (storeAfter lim pre) window).1.count .ok : ℚ) ≤
      lim.capacity + (stop - t) * lim.refillPerMin / 60000 := by
  rw [List.pairwise_append] at hsorted
  obtain ⟨start, hsound⟩ := storeAfter_sound hcap hrefill hsorted.1 hpre
  have hrun := acquireRun_run hrefill _ hsound hstart hsorted.2.1
  -- what is granted in the window are the grants of its run
  have hbound := hrun.grants_le (rate_pos hrefill).le hsound (pairwise_requestsOf hsorted.2.1)
    (forall_requestsOf hstart) (forall_requestsOf (P := (· ≤ stop)) hstop) htstop
  rw [grants_requestsOf] at hbound
  refine hbound.trans (le_of_eq ?_)
  simp only [Limits.params]
  ring

/-- A call that is not granted leaves the counters, and the balance of every
    later time. -/
theorem not_ok_frame (hrefill : 1 ≤ lim.refillPerMin) {start : ℚ} {st : Store} {c : Call}
    (hsound : (bucketView lim start st.bucket).Sound lim.params c.nowMs)
    (hne : (acquireScript lim st c).1 ≠ .ok) :
    (acquireScript lim st c).2.daily = st.daily ∧
      ∀ t, c.nowMs ≤ t →
        available lim (acquireScript lim st c).2.bucket t = available lim st.bucket t := by
  have h := acquireScript_replied lim st c
  generalize (acquireScript lim st c).1 = r, (acquireScript lim st c).2 = st' at h hne ⊢
  cases h with
  | rpd _ => exact ⟨rfl, fun _ _ => rfl⟩
  | ok _ _ => exact absurd rfl hne
  | wait _ _ =>
    -- the bucket was only brought up to date
    refine ⟨rfl, fun t ht => ?_⟩
    have ht' : (c.nowMs : ℚ) ≤ t := by exact_mod_cast ht
    rw [available_eq_avail start hrefill ht',
      available_eq_avail start hrefill (hsound.mono ht').stamp_le,
      available_eq_avail start hrefill hsound.stamp_le]
    exact TokenBucket.avail_settle (rate_pos hrefill).le ht'

/-- Who waits as long as told is not told to wait again. -/
theorem not_wait_after (hcap : 1 ≤ lim.capacity) (hrefill : 1 ≤ lim.refillPerMin) {start : ℚ}
    {st : Store} {c : Call} (hsound : (bucketView lim start st.bucket).Sound lim.params c.nowMs)
    {w : Int} (hwait : (acquireScript lim st c).1 = .wait w) {c' : Call}
    (hc' : c.nowMs + w ≤ c'.nowMs) (w' : Int) :
    (acquireScript lim (acquireScript lim st c).2 c').1 ≠ .wait w' := by
  intro hagain
  obtain ⟨hlt, hw, hbucket⟩ := of_wait hwait
  obtain ⟨hlt', -, -⟩ := of_wait hagain
  have hrate := rate_pos hrefill
  have hcap' : (1 : ℚ) ≤ lim.params.cap := by simp only [Limits.params]; exact_mod_cast hcap
  rw [available_eq_avail start hrefill hsound.stamp_le] at hlt hw hbucket
  -- the wait was long enough for one token
  have hceil : (1 - (bucketView lim start st.bucket).avail lim.params c.nowMs) /
      lim.params.rate ≤ w := by
    refine le_trans (le_of_eq ?_) (Int.ceil_le.mp hw.ge)
    simp only [Limits.params]
    field_simp
  have htime : (c.nowMs : ℚ) + w ≤ c'.nowMs := by exact_mod_cast hc'
  -- so the second call does not come before the first
  have hw0 : (0 : ℚ) ≤ w := (div_nonneg (by linarith) hrate.le).trans hceil
  have hle : (c.nowMs : ℚ) ≤ c'.nowMs := by linarith
  rw [hbucket, available_eq_avail start hrefill hle] at hlt'
  exact absurd (TokenBucket.one_le_avail_of_wait hrate hcap' (by linarith)) (not_le.mpr hlt')

/-- Every run of the script whose timestamps do not decrease: grants in any
    window stay within the capacity plus the refill, the stored balance within
    its bounds; a refusal changes neither the counters nor any later balance;
    and who waits as told is served or out of daily calls. -/
theorem acquire_sound (lim : Limits) (hcap : 1 ≤ lim.capacity) (hrefill : 1 ≤ lim.refillPerMin)
    (cs : List Call) (hsorted : cs.Pairwise (·.nowMs ≤ ·.nowMs)) :
    (∀ i j, (hij : i ≤ j) → (hj : j < cs.length) →
      ((((acquireRun lim {} cs).1.drop i).take (j + 1 - i)).count .ok : ℚ) ≤
        lim.capacity + ((cs[j].nowMs : ℚ) - cs[i].nowMs) * lim.refillPerMin / 60000) ∧
    (∀ k b, (storeAfter lim (cs.take k)).bucket = some b →
      0 ≤ b.tokens ∧ b.tokens ≤ lim.capacity) ∧
    ∀ k, (hk : k < cs.length) →
      let st := storeAfter lim (cs.take k)
      let reply := (acquireScript lim st cs[k]).1
      let st' := (acquireScript lim st cs[k]).2
      (reply ≠ .ok → st'.daily = st.daily ∧
        ∀ t, cs[k].nowMs ≤ t → available lim st'.bucket t = available lim st.bucket t) ∧
      (∀ w, reply = .wait w → ∀ c', cs[k].nowMs + w ≤ c'.nowMs →
        ∀ w', (acquireScript lim st' c').1 ≠ .wait w') := by
  have hle : ∀ i j, (hij : i ≤ j) → (hj : j < cs.length) → cs[i].nowMs ≤ cs[j].nowMs := by
    intro i j hij hj
    rcases hij.eq_or_lt with rfl | hlt
    · exact le_rfl
    · exact List.pairwise_iff_getElem.mp hsorted i j (by omega) hj hlt
  refine ⟨fun i j hij hj => ?_, fun k b hb => ?_, fun k hk => ?_⟩
  · -- a window is a run of its own, from the store before it
    rw [drop_acquireRun, take_acquireRun]
    refine ok_count_le hcap hrefill cs[i].nowMs cs[j].nowMs ?_ ?_ ?_ ?_ ?_
    · rw [← List.take_append_drop i cs] at hsorted
      exact hsorted.sublist ((List.take_sublist _ _).append_left _)
    · intro c hc
      obtain ⟨n, hn, rfl⟩ := List.mem_take_iff_getElem.mp hc
      exact_mod_cast hle n i (by omega) (by omega)
    · intro c hc
      obtain ⟨n, hn, rfl⟩ := List.mem_take_iff_getElem.mp hc
      rw [List.getElem_drop]
      simp only [List.length_drop] at hn
      exact_mod_cast hle i (i + n) (by omega) (by omega)
    · intro c hc
      obtain ⟨n, hn, rfl⟩ := List.mem_take_iff_getElem.mp hc
      rw [List.getElem_drop]
      simp only [List.length_drop] at hn
      exact_mod_cast hle (i + n) j (by omega) hj
    · -- the window itself
      exact_mod_cast hle i j hij hj
  · -- the bucket stays between empty and full
    obtain ⟨stop, hpre⟩ := exists_stop (cs.take k)
    obtain ⟨start, hsound⟩ := storeAfter_sound hcap hrefill
      (hsorted.sublist (List.take_sublist k cs)) hpre
    rw [hb] at hsound
    exact ⟨hsound.nonneg, hsound.le_cap⟩
  · -- the next call: what a refusal leaves, and how long to wait
    have hpre : ∀ c ∈ cs.take k, (c.nowMs : ℚ) ≤ (cs[k].nowMs : ℚ) := by
      intro c hc
      obtain ⟨n, hn, rfl⟩ := List.mem_take_iff_getElem.mp hc
      exact_mod_cast hle n k (by omega) hk
    obtain ⟨start, hsound⟩ := storeAfter_sound hcap hrefill
      (hsorted.sublist (List.take_sublist k cs)) hpre
    exact ⟨not_ok_frame hrefill hsound,
      fun w hw c' hc' => not_wait_after hcap hrefill hsound hw hc'⟩

/-- A run that drains a bucket of one, waits as told, and is served. -/
theorem acquire_sound_drained :
    let lim : Limits := ⟨1, 1, 5⟩
    let cs : List Call := [⟨0, 0, 0, 60⟩, ⟨1, 0, 0, 60⟩, ⟨2, 0, 60000, 60⟩]
    (acquireRun lim {} cs).1 = [.ok, .wait 60000, .ok] ∧
      (((acquireRun lim {} cs).1.drop 0).take 3).count .ok ≤
        (1 : ℚ) + ((60000 : ℚ) - 0) * 1 / 60000 :=
  ⟨by decide +kernel, by
    have h := (acquire_sound ⟨1, 1, 5⟩ (by decide) (by decide)
      [⟨0, 0, 0, 60⟩, ⟨1, 0, 0, 60⟩, ⟨2, 0, 60000, 60⟩] (by decide)).1 0 2 (by decide) (by decide)
    simpa using h⟩

end Runs

/-! ### The daily cap -/

/-- Replies `ok` to calls whose clock showed `date`. -/
def okOn (date : Nat) (cs : List Call) (replies : List Reply) : Nat :=
  (cs.zip replies).countP fun x => x.1.date = date ∧ x.2 = .ok

/-- The call meets a counter of its date that has lapsed. -/
def Store.lapsed (st : Store) (c : Call) : Bool :=
  (st.daily c.date).any fun k => !k.live c.time

/-- No call of the run meets a lapsed counter. -/
def neverLapsed (lim : Limits) (st : Store) : List Call → Bool
  | [] => true
  | c :: cs => !st.lapsed c && neverLapsed lim (acquireScript lim st c).2 cs

/-- The stored count of a date, lapsed or not. -/
def Store.stored (st : Store) (date : Nat) : Int := (st.daily date).elim 0 (·.count)

section DailyCap

variable {lim : Limits} {st : Store} {c : Call}

/-- A counter that has not lapsed is read in full. -/
theorem count_eq_stored (h : st.lapsed c = false) : st.count c.time c.date = st.stored c.date := by
  cases hk : st.daily c.date with
  | none => simp [Store.count, Store.get, Store.stored, hk]
  | some k =>
    have hlive : k.live c.time = true := by simpa [Store.lapsed, hk] using h
    simp [Store.count, Store.get, Store.stored, hk, Option.filter_some, hlive]

/-- Counting a call starts from what is read of its date, and leaves the other dates. -/
theorem stored_incr (st : Store) (c : Call) (date : Nat) :
    (st.incr c).stored date =
      if date = c.date then st.count c.time c.date + 1 else st.stored date := by
  by_cases h : date = c.date
  · subst h
    cases hk : st.get c.time c.date <;>
      simp [Store.incr, Store.setCounter, Store.stored, Store.count, hk]
  · simp [Store.incr, Store.setCounter, Store.stored, h]

/-- One call counts itself, if granted, and is granted only below the cap. -/
theorem acquireScript_stored (lim : Limits) (h : st.lapsed c = false) (date : Nat) :
    (acquireScript lim st c).2.stored date =
        st.stored date + (if c.date = date ∧ (acquireScript lim st c).1 = .ok then 1 else 0) ∧
      ((acquireScript lim st c).1 = .ok → st.stored c.date < lim.dailyCap) := by
  have hr := acquireScript_replied lim st c
  generalize (acquireScript lim st c).1 = r, (acquireScript lim st c).2 = st' at hr ⊢
  cases hr with
  | rpd _ => simp
  | wait _ _ => exact ⟨by simp [Store.stored], fun h => nomatch h⟩
  | ok hlt _ =>
    -- what was read is what is stored, as nothing has lapsed
    rw [count_eq_stored h] at hlt
    refine ⟨?_, fun _ => hlt⟩
    -- taking a token leaves the counters of the days alone
    have hcount : ({ st with bucket := some ⟨available lim st.bucket c.nowMs - 1, c.nowMs⟩ } :
        Store).count c.time c.date = st.stored c.date := count_eq_stored h
    rw [stored_incr, hcount]
    by_cases hd : date = c.date
    · simp [hd, Store.stored]
    · simp [hd, Ne.symm hd, Store.stored]

/-- Along a run that meets no lapsed counter the stored counts are the grants,
    and stay below the cap. -/
theorem stored_acquireRun {cs : List Call} (h : neverLapsed lim st cs = true) (date : Nat)
    (hcap : st.stored date ≤ max 0 lim.dailyCap) :
    (acquireRun lim st cs).2.stored date =
        st.stored date + okOn date cs (acquireRun lim st cs).1 ∧
      (acquireRun lim st cs).2.stored date ≤ max 0 lim.dailyCap := by
  induction cs generalizing st with
  | nil => simpa [acquireRun, okOn] using hcap
  | cons c cs ih =>
    simp only [neverLapsed, Bool.and_eq_true, Bool.not_eq_eq_eq_not, Bool.not_true] at h
    obtain ⟨hstored, hbelow⟩ := acquireScript_stored lim h.1 date
    -- a granted call was below the cap before
    have hcap' : (acquireScript lim st c).2.stored date ≤ max 0 lim.dailyCap := by
      rw [hstored]
      split
      · rename_i hok
        have := hbelow hok.2
        rw [hok.1] at this
        omega
      · simpa using hcap
    obtain ⟨hrun, hle⟩ := ih h.2 hcap'
    refine ⟨?_, hle⟩
    -- the grants of the run are those of the first call and of the rest
    have hcons : okOn date (c :: cs) (acquireRun lim st (c :: cs)).1 =
        okOn date cs (acquireRun lim (acquireScript lim st c).2 cs).1 +
          (if c.date = date ∧ (acquireScript lim st c).1 = .ok then 1 else 0) := by
      simp [okOn, acquireRun, List.countP_cons]
    show (acquireRun lim (acquireScript lim st c).2 cs).2.stored date = _
    rw [hrun, hstored, hcons]
    push_cast
    ring

/-- The daily cap, in every run of calls none of which meets a lapsed counter:
    `clock` is what the caller's clock shows, `time` when Redis runs the
    script. -/
theorem ok_le_dailyCap (lim : Limits) (calls : List (Nat × Nat))
    (h : neverLapsed lim {} (calls.map fun x => callAt x.1 x.2) = true) (date : Nat) :
    let cs := calls.map fun x => callAt x.1 x.2
    (okOn date cs (acquireRun lim {} cs).1 : Int) ≤ max 0 lim.dailyCap := by
  -- an empty store has counted nothing
  obtain ⟨hrun, hle⟩ := stored_acquireRun h date (le_max_left _ _)
  rw [hrun] at hle
  simpa [Store.stored] using hle

/-- Half a second past noon, and 300 ms before midnight. -/
def noonAndLate : List (Nat × Nat) :=
  [(43200500000, 43200500000), (86399700000, 86399700000)]

/-- Two calls a second apart, at noon. -/
theorem ok_le_dailyCap_noon :
    let cs := [(43200500000, 43200500000), (43201500000, 43201500000)].map
      fun (x : Nat × Nat) => callAt x.1 x.2
    neverLapsed ⟨10, 10, 1⟩ {} cs = true ∧
      (okOn 0 cs (acquireRun ⟨10, 10, 1⟩ {} cs).1 : Int) ≤ max 0 1 :=
  ⟨by decide +kernel, ok_le_dailyCap ⟨10, 10, 1⟩ _ (by decide +kernel) 0⟩

/-- The counter of a first grant at 12:00:00.5 lapses at 23:59:59.5, and a call
    300 ms before midnight is granted beyond the cap. -/
theorem dailyCap_exceeded :
    let cs := noonAndLate.map fun x => callAt x.1 x.2
    (∀ c ∈ cs, c.date = 0) ∧ okOn 0 cs (acquireRun ⟨10, 10, 1⟩ {} cs).1 = 2 ∧
      ¬ (okOn 0 cs (acquireRun ⟨10, 10, 1⟩ {} cs).1 : Int) ≤ 1 := by
  decide +kernel

/-! ### Which runs meet a lapsed counter -/

/-- A call that Redis runs at the moment the clock was read. -/
def promptCall (clock : Nat) : Call := callAt clock clock

/-- A counter set by a prompt call lapses within the last second of its date,
    or later. -/
def Store.Late (st : Store) : Prop :=
  ∀ date k t, st.daily date = some k → k.live t = false → (date + 1) * dayMicros < t + secondMicros

/-- The seconds left of a day, cut to whole ones, end less than a second too early. -/
theorem secondsUntilMidnight_late (t : Nat) :
    (dateOf t + 1) * dayMicros < t + secondsUntilMidnight t * secondMicros + secondMicros := by
  simp only [dateOf, secondsUntilMidnight, dayMicros, secondMicros]
  omega

/-- A counter has lapsed from its expiry on. -/
theorem live_eq_false_iff {n : Int} {e t : Nat} :
    Counter.live ⟨n, some e⟩ t = false ↔ e ≤ t := by
  simp [Counter.live]

/-- A counter is set to lapse late if its call was prompt. -/
theorem incr_late (st : Store) (hc : (c.date + 1) * dayMicros < c.time + c.dailyTtl * secondMicros + secondMicros)
    (h : st.Late) : (st.incr c).Late := by
  intro date k t hk hdead
  by_cases hd : date = c.date
  · subst hd
    have hnew : (st.incr c).daily c.date = some _ := if_pos rfl
    rw [hnew, Option.some.injEq] at hk
    subst hk
    -- a counter gets its expiry with the first call of the day
    by_cases hone : ((st.get c.time c.date).getD { count := 0 }).count + 1 = 1
    · rw [if_pos hone, live_eq_false_iff] at hdead
      omega
    · rw [if_neg hone] at hdead
      cases hget : st.get c.time c.date with
      | none => simp [hget] at hone
      | some old =>
        rw [hget] at hdead
        exact h _ old t (Option.filter_eq_some_iff.mp hget).1 hdead
  · -- another date keeps its counter
    have hsame : (st.incr c).daily date = st.daily date := if_neg hd
    exact h date k t (hsame ▸ hk) hdead

/-- A prompt call leaves the counters lapsing late. -/
theorem acquireScript_late {clock : Nat} (h : st.Late) :
    (acquireScript lim st (promptCall clock)).2.Late := by
  have hr := acquireScript_replied lim st (promptCall clock)
  generalize (acquireScript lim st _).1 = r, (acquireScript lim st _).2 = st' at hr ⊢
  cases hr with
  | rpd _ => exact h
  | wait _ _ => exact h
  | ok _ _ => exact incr_late { st with bucket := _ } (secondsUntilMidnight_late clock) h

/-- Prompt calls outside the last second of a date meet no lapsed counter. -/
theorem neverLapsed_of_prompt {clocks : List Nat} (hlate : st.Late)
    (h : ∀ t ∈ clocks, t + secondMicros ≤ (dateOf t + 1) * dayMicros) :
    neverLapsed lim st (clocks.map promptCall) = true := by
  induction clocks generalizing st with
  | nil => rfl
  | cons t clocks ih =>
    simp only [List.mem_cons, forall_eq_or_imp] at h
    simp only [List.map_cons, neverLapsed, Bool.and_eq_true, Bool.not_eq_eq_eq_not, Bool.not_true]
    refine ⟨?_, ih (acquireScript_late hlate) h.2⟩
    cases hk : st.daily (dateOf t) with
    | none => simp [Store.lapsed, promptCall, callAt, hk]
    | some k =>
      simp only [Store.lapsed, promptCall, callAt, hk, Option.any_some, Bool.not_eq_eq_eq_not,
        Bool.not_false]
      -- a counter that is dead belongs to a day that is over
      by_contra hdead
      have := hlate _ k t hk (by simpa using hdead)
      omega

end DailyCap

end MapServiceAgent.Native
