import Mathlib.Algebra.Order.Floor.Semiring
import MapServiceAgent.Spec.RateLimitCorrect

/-!
# Callers of the limiter, correct

`acquire` runs the script with its own process's clock, so the script meets
clocks that run behind the stored stamp; and it runs it again until it is served
or has waited too long.

## Key results

- `balance_le_iff`: when one execution credits no time twice
- `clock_behind_credits_twice`: a denied caller whose clock is behind refills
  the bucket for the next one
- `acquireLoop_ended`: the loop ends, within its waiting budget
- `acquire_bounded`: executions, sleeps and tokens of one `acquire`
-/

namespace MapServiceAgent.Native

/-! ### Clocks that run behind -/

/-- What a stored bucket offers at the moment `t`, in milliseconds. -/
def balanceAt (lim : Limits) (b : Bucket) (t : ℚ) : ℚ :=
  min lim.capacity (b.tokens + max 0 (t - b.ts) * lim.refillPerMin / 60000)

section ClockSkew

variable {lim : Limits} {st : Store} {b : Bucket} {c : Call}

/-- The stored bucket as one of the library. -/
def Bucket.view (b : Bucket) : TokenBucket.Bucket ℚ := ⟨b.tokens, b.ts⟩

/-- What a bucket offers is what it holds in the library. -/
theorem balanceAt_eq_holds (lim : Limits) (b : Bucket) (t : ℚ) :
    balanceAt lim b t = b.view.holds lim.params t := by
  simp only [balanceAt, TokenBucket.Bucket.holds, Bucket.view, Limits.params]
  rw [min_comm, mul_div_assoc]

/-- So is what the script finds. -/
theorem available_eq_holds (lim : Limits) (b : Bucket) (nowMs : Int) :
    available lim (some b) nowMs = b.view.holds lim.params nowMs := by
  simp only [available, TokenBucket.Bucket.holds, Bucket.view, Limits.params]
  push_cast
  rw [mul_div_assoc]

/-- The tokens a call takes from a bucket. -/
def takenFrom (lim : Limits) (b : Bucket) (c : Call) : ℚ :=
  if available lim (some b) c.nowMs < 1 then 0 else 1

/-- Below the daily cap the script writes the bucket, whatever the clocks say. -/
theorem acquireScript_write (hcap : st.count c.time c.date < lim.dailyCap)
    (hbucket : st.bucket = some b) :
    ∃ b', (acquireScript lim st c).2.bucket = some b' ∧
      b'.view = b.view.write lim.params c.nowMs (takenFrom lim b c) := by
  have h := acquireScript_replied lim st c
  generalize (acquireScript lim st c).1 = r, (acquireScript lim st c).2 = st' at h ⊢
  cases h with
  -- there was room for the day
  | rpd hle => omega
  | wait _ hlt =>
    rw [hbucket] at hlt ⊢
    -- a caller that must wait takes no token
    refine ⟨_, rfl, ?_⟩
    rw [TokenBucket.Bucket.write, takenFrom, if_pos hlt, sub_zero, ← available_eq_holds]
    rfl
  | ok _ hone =>
    rw [hbucket] at hone
    -- one that is served takes one
    refine ⟨⟨available lim (some b) c.nowMs - 1, c.nowMs⟩, ?_, ?_⟩
    · rw [incr_bucket, hbucket]
    · rw [TokenBucket.Bucket.write, takenFrom, if_neg (not_lt.mpr hone), ← available_eq_holds]
      rfl

/-- One execution of the script raises no later balance exactly when it does not
    touch the bucket, the caller's clock is not behind the stored stamp, the
    bucket was full, or the refill of the time set back is no more than the
    token taken. -/
theorem balance_le_iff (lim : Limits) (st : Store) (b : Bucket) (c : Call) :
    (∃ b', (acquireScript lim { st with bucket := some b } c).2.bucket = some b' ∧
      ∀ t : ℚ, c.nowMs ≤ t → b.ts ≤ t → balanceAt lim b' t ≤ balanceAt lim b t) ↔
    lim.dailyCap ≤ st.count c.time c.date ∨ b.ts ≤ c.nowMs ∨ lim.capacity ≤ b.tokens ∨
      ((b.ts - c.nowMs) * lim.refillPerMin / 60000 : ℚ) ≤ if b.tokens < 1 then 0 else 1 := by
  have hcount : Store.count { st with bucket := some b } c.time c.date = st.count c.time c.date := rfl
  by_cases hcap : lim.dailyCap ≤ st.count c.time c.date
  · -- nothing is written
    have hsame : (acquireScript lim { st with bucket := some b } c).2 =
        { st with bucket := some b } := by
      rw [acquireScript, hcount, if_pos hcap]
    rw [hsame]
    exact ⟨fun _ => .inl hcap, fun _ => ⟨b, rfl, fun _ _ _ => le_rfl⟩⟩
  · obtain ⟨b', hb', hwrite⟩ : ∃ b', (acquireScript lim { st with bucket := some b } c).2.bucket =
        some b' ∧ b'.view = b.view.write lim.params c.nowMs (takenFrom lim b c) :=
      acquireScript_write (not_le.mp hcap) rfl
    have htaken : 0 ≤ takenFrom lim b c := by
      unfold takenFrom
      split <;> norm_num
    -- the bucket is written as in the library, where the law is known
    have hiff := TokenBucket.write_holds_le_iff (p := lim.params) (b := b.view) c.nowMs htaken
    simp only [← hwrite, ← balanceAt_eq_holds] at hiff
    rw [hb']
    simp only [Option.some.injEq, exists_eq_left', hcap, false_or]
    refine hiff.trans ?_
    have hstamp : b.view.stamp ≤ (c.nowMs : ℚ) ↔ b.ts ≤ c.nowMs := Int.cast_le
    show b.view.stamp ≤ (c.nowMs : ℚ) ∨ (lim.capacity : ℚ) ≤ b.tokens ∨
      ((b.ts : ℚ) - c.nowMs) * (lim.refillPerMin / 60000) ≤ takenFrom lim b c ↔ _
    rw [hstamp, mul_div_assoc]
    by_cases hback : b.ts ≤ c.nowMs
    · simp only [hback, true_or]
    by_cases hfull : (lim.capacity : ℚ) ≤ b.tokens
    · simp only [hfull, true_or, or_true]
    -- behind the stamp a bucket that is not full offers what was stored
    have hsame : available lim (some b) c.nowMs = b.tokens := by
      simp only [available]
      rw [max_eq_left (by omega), Int.cast_zero, zero_mul, zero_div, add_zero,
        min_eq_left (not_le.mp hfull).le]
    rw [takenFrom, hsame]

/-- Two callers, one a minute behind the other. The denied one sets the stamp
    back, and that minute is credited to the bucket again. -/
theorem clock_behind_credits_twice :
    let lim : Limits := ⟨10, 10, 200⟩
    let b : Bucket := ⟨0, 120000⟩
    let c : Call := ⟨0, 0, 60000, 60⟩
    ∃ b', acquireScript lim { bucket := some b } c = (.wait 6000, { bucket := some b' }) ∧
      balanceAt lim b 120000 = 0 ∧ balanceAt lim b' 120000 = 10 := by
  refine ⟨⟨0, 60000⟩, ?_, by norm_num [balanceAt], by norm_num [balanceAt]⟩
  simp only [acquireScript, available, Store.count, Store.get, Option.filter_none, Option.elim_none]
  norm_num

end ClockSkew

/-! ### The loop -/

section Loop

variable {maxWait : ℚ} {results : Nat → ScriptResult}

/-- How a loop ended that began with execution `i` and `waited` seconds behind
    it. -/
structure Ended (maxWait : ℚ) (results : Nat → ScriptResult) (i : Nat) (waited : ℚ)
    (run : AcquireRun) : Prop where
  lt_executions : i < run.executions
  executions_le : run.executions ≤ i + ⌊(maxWait - waited) * 20⌋₊ + 1
  sleeps_le : waited + run.sleeps.sum ≤ maxWait
  /-- Every execution but the last told the caller to wait. -/
  waits : ∀ k, i ≤ k → k + 1 < run.executions →
    (results k).status ≠ "ok" ∧ (results k).status ≠ "rpd"
  /-- The last one ended the loop. -/
  last : (results (run.executions - 1)).status = "ok" ∧ run.outcome = .ok () ∨
    (results (run.executions - 1)).status = "rpd" ∧
      run.outcome = .error (.geminiQuota "gemini_rpd_exceeded") ∨
    ((results (run.executions - 1)).status ≠ "ok" ∧ (results (run.executions - 1)).status ≠ "rpd") ∧
      run.outcome = .error (.geminiQuota "gemini_rpm_exceeded")

/-- Every sleep is a twentieth of a second at least. -/
theorem waitSeconds_ge (result : ScriptResult) : 1 / 20 ≤ waitSeconds result := le_max_left _ _

/-- A round of sleep leaves at least one execution less to come. -/
theorem floor_after_sleep {waited seconds : ℚ} (hseconds : 1 / 20 ≤ seconds)
    (hfits : waited + seconds ≤ maxWait) :
    ⌊(maxWait - (waited + seconds)) * 20⌋₊ + 1 ≤ ⌊(maxWait - waited) * 20⌋₊ := by
  have hnonneg : 0 ≤ (maxWait - (waited + seconds)) * 20 := by linarith
  rw [← Nat.floor_add_one hnonneg]
  apply Nat.floor_le_floor
  linarith

/-- The loop ends, given a round for each twentieth of a second it may still
    wait and one more. -/
theorem acquireLoop_ended (results : Nat → ScriptResult) {waited : ℚ} (hwaited : waited ≤ maxWait)
    {fuel : Nat} (i : Nat) (hfuel : ⌊(maxWait - waited) * 20⌋₊ + 1 ≤ fuel) :
    ∃ run, acquireLoop maxWait results fuel i waited = some run ∧
      Ended maxWait results i waited run := by
  induction fuel generalizing i waited with
  | zero => omega
  | succ fuel ih =>
    -- nothing came before the first execution
    have hnone : ∀ k, i ≤ k → k + 1 < i + 1 →
        (results k).status ≠ "ok" ∧ (results k).status ≠ "rpd" := by
      intro k _ _
      omega
    have hempty : waited + ([] : List ℚ).sum ≤ maxWait := by simpa using hwaited
    have hfirst : i + 1 ≤ i + ⌊(maxWait - waited) * 20⌋₊ + 1 := by omega
    rw [acquireLoop]
    by_cases hok : (results i).status = "ok"
    · rw [if_pos hok]
      -- served
      exact ⟨_, rfl, Nat.lt_succ_self i, hfirst, hempty, hnone, .inl ⟨hok, rfl⟩⟩
    rw [if_neg hok]
    by_cases hrpd : (results i).status = "rpd"
    · rw [if_pos hrpd]
      -- out of daily calls
      exact ⟨_, rfl, Nat.lt_succ_self i, hfirst, hempty, hnone, .inr (.inl ⟨hrpd, rfl⟩)⟩
    rw [if_neg hrpd]
    dsimp only
    by_cases hlate : maxWait < waited + waitSeconds (results i)
    · rw [if_pos hlate]
      -- the sleep would be too long
      exact ⟨_, rfl, Nat.lt_succ_self i, hfirst, hempty, hnone, .inr (.inr ⟨⟨hok, hrpd⟩, rfl⟩)⟩
    · rw [if_neg hlate]
      -- the sleep still fits, and takes at least one round off the bound
      have hfits := not_lt.mp hlate
      have hless := floor_after_sleep (waitSeconds_ge (results i)) hfits
      obtain ⟨run, hrun, hended⟩ := ih hfits (i + 1) (by omega)
      refine ⟨{ run with sleeps := waitSeconds (results i) :: run.sleeps }, ?_, ?_, ?_, ?_, ?_,
        hended.last⟩
      · rw [hrun, Option.map_some]
      · show i < run.executions
        have := hended.lt_executions
        omega
      · show run.executions ≤ _
        have := hended.executions_le
        omega
      · show waited + (waitSeconds (results i) :: run.sleeps).sum ≤ maxWait
        rw [List.sum_cons, ← add_assoc]
        exact hended.sleeps_le
      · intro k hk hlt
        by_cases hki : k = i
        · subst hki
          -- this execution told the caller to wait, the others did by induction
          exact ⟨hok, hrpd⟩
        · exact hended.waits k (by omega) hlt

/-- More rounds than the loop needs change nothing. -/
theorem acquireLoop_mono {fuel fuel' i : Nat} {waited : ℚ} {run : AcquireRun} (hle : fuel ≤ fuel')
    (h : acquireLoop maxWait results fuel i waited = some run) :
    acquireLoop maxWait results fuel' i waited = some run := by
  induction fuel generalizing fuel' i waited run with
  | zero => cases h
  | succ fuel ih =>
    -- with fuel left the loop takes the same branch
    obtain ⟨fuel', rfl⟩ : ∃ n, fuel' = n + 1 := ⟨fuel' - 1, by omega⟩
    rw [acquireLoop] at h ⊢
    split
    · rwa [if_pos (by assumption)] at h
    rename_i hok
    rw [if_neg hok] at h
    split
    · rwa [if_pos (by assumption)] at h
    rename_i hrpd
    rw [if_neg hrpd] at h
    dsimp only at h ⊢
    split
    · rwa [if_pos (by assumption)] at h
    rename_i hlate
    rw [if_neg hlate] at h
    obtain ⟨rest, hrest, rfl⟩ := Option.map_eq_some_iff.mp h
    rw [ih (by omega) hrest, Option.map_some]

/-! ### What an `acquire` takes -/

/-- One execution of the script: the store it finds, whatever others did to it,
    the caller's clock, and when Redis runs it. -/
structure Execution where
  store : Store
  clock : Nat
  time : Nat

/-- What it replies, and the store it leaves. -/
def Execution.run (lim : Limits) (x : Execution) : Reply × Store :=
  acquireScript lim x.store (callAt x.clock x.time)

/-- The tokens it takes from what the bucket offers at that moment. -/
def Execution.tokens (lim : Limits) (x : Execution) : ℚ :=
  available lim x.store.bucket (callAt x.clock x.time).nowMs -
    available lim (x.run lim).2.bucket (callAt x.clock x.time).nowMs

/-- What it adds to the count of the caller's date. -/
def Execution.daily (lim : Limits) (x : Execution) : Int :=
  (x.run lim).2.count x.time (dateOf x.clock) - x.store.count x.time (dateOf x.clock)

/-- A bucket offers no more than it can hold. -/
theorem available_le_capacity (lim : Limits) (bucket : Option Bucket) (nowMs : Int) :
    available lim bucket nowMs ≤ lim.capacity := by
  cases bucket with
  | none => exact le_rfl
  | some b => exact min_le_right _ _

/-- Just written, a bucket offers what was written. -/
theorem available_written {lim : Limits} {tokens : ℚ} {nowMs : Int} (h : tokens ≤ lim.capacity) :
    available lim (some ⟨tokens, nowMs⟩) nowMs = tokens := by
  simp [available, h]

/-- A second has microseconds. -/
theorem secondMicros_pos : 0 < secondMicros := by norm_num [secondMicros]

/-- `INCR` writes a counter that has not lapsed. -/
theorem live_incr {old : Counter} {t expireAt : Nat} (hexpire : t < expireAt)
    (hold : old.count + 1 ≠ 1 → old.live t = true) :
    Counter.live ⟨old.count + 1, if old.count + 1 = 1 then some expireAt else old.expireAt⟩ t =
      true := by
  by_cases hone : old.count + 1 = 1
  · -- a first count gets a time to live
    rw [if_pos hone]
    exact decide_eq_true hexpire
  · rw [if_neg hone]
    exact hold hone

/-- A counter that `INCR` has just written counts one more. -/
theorem count_incr (st : Store) {c : Call} (httl : 0 < c.dailyTtl) :
    (st.incr c).count c.time c.date = st.count c.time c.date + 1 := by
  have hnew : (st.incr c).daily c.date = some ⟨_, _⟩ := if_pos rfl
  rw [Store.count, Store.get, hnew, Option.filter_some, if_pos, Option.elim_some, Store.count]
  · cases st.get c.time c.date <;> rfl
  · apply live_incr (Nat.lt_add_of_pos_right (Nat.mul_pos httl secondMicros_pos))
    cases hold : st.get c.time c.date with
    | none => exact fun h => absurd rfl h
    | some k =>
      -- the counter was read, so it had not lapsed
      intro _
      exact (Option.filter_eq_some_iff.mp hold).2

/-- An execution takes one token and one daily call if it replies `ok`, and else
    neither. -/
theorem Execution.takes (lim : Limits) (x : Execution) :
    x.tokens lim = (if (x.run lim).1 = .ok then 1 else 0) ∧
      x.daily lim = if (x.run lim).1 = .ok then 1 else 0 := by
  have h := acquireScript_replied lim x.store (callAt x.clock x.time)
  have hle := available_le_capacity lim x.store.bucket (callAt x.clock x.time).nowMs
  unfold Execution.tokens Execution.daily Execution.run
  generalize (acquireScript lim x.store (callAt x.clock x.time)).1 = r,
    (acquireScript lim x.store (callAt x.clock x.time)).2 = st' at h ⊢
  cases h with
  | rpd _ => simp
  | wait _ _ =>
    -- told to wait: the balance is only brought up to date
    rw [available_written hle]
    simp [Store.count, Store.get]
  | ok _ _ =>
    -- the counter of the day does not expire while it is read back
    have httl : 0 < (callAt x.clock x.time).dailyTtl := lt_of_lt_of_le Nat.one_pos (le_max_left _ _)
    rw [incr_bucket, available_written (by linarith)]
    refine ⟨by simp, ?_⟩
    rw [if_pos rfl]
    refine Eq.trans (congrArg (· - _) (count_incr _ httl)) ?_
    show x.store.count x.time (dateOf x.clock) + 1 - x.store.count x.time (dateOf x.clock) = 1
    omega

/-- The status says `ok` for a grant alone. -/
theorem result_status_ok {reply : Reply} : reply.result.status = "ok" ↔ reply = .ok := by
  cases reply <;> simp [Reply.result]

/-- All but the last of the terms of a sum are zero. -/
theorem sum_range_last {M : Type} [AddMonoid M] {f : Nat → M} {n : Nat} (hn : 0 < n)
    (hzero : ∀ k, k + 1 < n → f k = 0) : ((List.range n).map f).sum = f (n - 1) := by
  obtain ⟨m, rfl⟩ : ∃ m, n = m + 1 := ⟨n - 1, by omega⟩
  rw [List.range_succ, List.map_append, List.sum_append]
  have hinit : ((List.range m).map f).sum = 0 := by
    apply List.sum_eq_zero
    intro x hx
    obtain ⟨k, hk, rfl⟩ := List.mem_map.mp hx
    exact hzero k (by simpa using hk)
  simp [hinit]

/-- One `acquire`: it ends after few executions of the script whatever they
    reply, sleeps no longer than it may, returns exactly after a first `ok`, and
    takes one token and one daily call then and nothing else. -/
theorem acquire_bounded (maxWait : ℚ) (h : 0 ≤ maxWait) (results : Nat → ScriptResult) :
    ∃ run, (∀ fuel, ⌊maxWait / (1 / 20)⌋₊ + 1 ≤ fuel → acquire maxWait results fuel = some run) ∧
      1 ≤ run.executions ∧ run.executions ≤ ⌊maxWait / (1 / 20)⌋₊ + 1 ∧
      run.sleeps.sum ≤ maxWait ∧
      (run.outcome = .ok () ↔ (results (run.executions - 1)).status = "ok") ∧
      (∀ k, k + 1 < run.executions → (results k).status ≠ "ok") ∧
      (∀ e, run.outcome = .error e →
        (e = .geminiQuota "gemini_rpd_exceeded" ∨ e = .geminiQuota "gemini_rpm_exceeded") ∧
        ∀ k < run.executions, (results k).status ≠ "ok") ∧
      ∀ lim (world : Nat → Execution), (∀ k, results k = ((world k).run lim).1.result) →
        (run.outcome = .ok () →
          ((List.range run.executions).map fun k => (world k).tokens lim).sum = 1 ∧
          ((List.range run.executions).map fun k => (world k).daily lim).sum = 1) ∧
        (run.outcome ≠ .ok () →
          ((List.range run.executions).map fun k => (world k).tokens lim).sum = 0 ∧
          ((List.range run.executions).map fun k => (world k).daily lim).sum = 0) := by
  have hrounds : ⌊(maxWait - 0) * 20⌋₊ = ⌊maxWait / (1 / 20)⌋₊ := by
    congr 1
    ring
  obtain ⟨run, hrun, hended⟩ := acquireLoop_ended results h 0 (Nat.le_of_eq (congrArg (· + 1) hrounds))
  have hpos := hended.lt_executions
  have hle := hended.executions_le
  rw [hrounds] at hle
  have hsleeps := hended.sleeps_le
  rw [zero_add] at hsleeps
  have hbefore : ∀ k, k + 1 < run.executions → (results k).status ≠ "ok" :=
    fun k hk => (hended.waits k (Nat.zero_le k) hk).1
  -- the outcome is that of the last execution
  have hlast : run.outcome = .ok () ↔ (results (run.executions - 1)).status = "ok" := by
    rcases hended.last with ⟨hok, hout⟩ | ⟨hrpd, hout⟩ | ⟨⟨hok, -⟩, hout⟩
    · simp [hok, hout]
    · simp [hrpd, hout]
    · simp [hok, hout]
  have hnone : run.outcome ≠ .ok () → ∀ k < run.executions, (results k).status ≠ "ok" := by
    intro hout k hk
    by_cases hkl : k + 1 < run.executions
    · -- no execution but the last can have been served
      exact hbefore k hkl
    · rw [show k = run.executions - 1 by omega]
      exact fun hok => hout (hlast.mpr hok)
  refine ⟨run, fun fuel hle' => ?_, hpos, by omega, hsleeps, hlast, hbefore, fun e he => ⟨?_, ?_⟩, ?_⟩
  · exact acquireLoop_mono hle' hrun
  · rcases hended.last with ⟨-, hout⟩ | ⟨-, hout⟩ | ⟨-, hout⟩ <;> rw [he] at hout <;> cases hout
    · exact .inl rfl
    · exact .inr rfl
  · exact hnone (by rw [he]; simp)
  · intro lim world hworld
    -- an execution that is not granted takes nothing
    have htakes : ∀ k, (results k).status ≠ "ok" →
        (world k).tokens lim = 0 ∧ (world k).daily lim = 0 := by
      intro k hk
      rw [hworld, Ne, result_status_ok] at hk
      obtain ⟨htokens, hdaily⟩ := (world k).takes lim
      rw [if_neg hk] at htokens hdaily
      exact ⟨htokens, hdaily⟩
    rw [sum_range_last hpos fun k hk => (htakes k (hbefore k hk)).1,
      sum_range_last hpos fun k hk => (htakes k (hbefore k hk)).2]
    refine ⟨fun hout => ?_, fun hout => htakes _ (hnone hout _ (by omega))⟩
    have hok := hlast.mp hout
    rw [hworld, result_status_ok] at hok
    obtain ⟨htokens, hdaily⟩ := (world (run.executions - 1)).takes lim
    rw [if_pos hok] at htokens hdaily
    exact ⟨htokens, hdaily⟩

/-- Told to wait for no time at all, a caller with a minute gives up in time. -/
theorem acquire_bounded_busy :
    ∃ run, acquire 60 (fun _ => ⟨"wait", 0⟩) 1201 = some run ∧ run.sleeps.sum ≤ 60 := by
  obtain ⟨run, hrun, -, -, hsleeps, -⟩ := acquire_bounded 60 (by norm_num) fun _ => ⟨"wait", 0⟩
  refine ⟨run, hrun 1201 ?_, hsleeps⟩
  norm_num

end Loop

end MapServiceAgent.Native
