import Mathlib.Tactic.IntervalCases
import MapServiceAgent.Native.CheckpointMigration

/-!
# What the migrations keep

However many jobs are started, and wherever they fail or lose their connection,
one at a time is past the lock, the history is a start of the migrations, and
each migration is executed after those before it are recorded. On a complete
history nothing is executed any more, so that a server never sees its tables
change. A job that is left alone completes the history; that it succeeds takes an
index for each that is asked for, and one that was left invalid is not built
again.

## Key results

- `orderly_run`: what holds whatever happens
- `migrations_orderly`: the history and the migrations executed
- `complete_stays`: a complete history is the end of it
- `migrate_resumes`: a job that is left alone completes the history, and when it
  succeeds
-/

namespace MapServiceAgent.Native

variable {ι : Type} [DecidableEq ι] {m : Migrations} {w w' : MigrationWorld ι}
  {db db' : CheckpointDb ι} {i j : ι} {job job' : Migrator}

/-! ### What is relied on -/

/-- What is left of the migrations after the first `k`: each is executed, and then
    recorded. -/
def pendingFrom (m : Migrations) (k : Nat) : List MigrationStatement :=
  (List.range' k (m.count - k)).flatMap fun v => [.apply v, .record v]

/-- `setup` goes on after the last migration recorded. -/
def SetupInOrder (m : Migrations) : Prop :=
  ∀ k ≤ m.count, m.setup (List.range k) = pendingFrom m k

/-- The next migration is executed and recorded, then those after it. -/
theorem pendingFrom_of_lt {k : Nat} (h : k < m.count) :
    pendingFrom m k = .apply k :: .record k :: pendingFrom m (k + 1) := by
  have hlen : m.count - k = m.count - (k + 1) + 1 := by omega
  rw [pendingFrom, hlen, List.range'_succ]
  rfl

/-- After the last one none is pending. -/
theorem pendingFrom_count : pendingFrom m m.count = [] := by
  rw [pendingFrom, Nat.sub_self]
  rfl

/-! ### The indexes -/

omit [DecidableEq ι] in
/-- Building an index does nothing else. -/
theorem build_frame (db : CheckpointDb ι) (index : Option String) (valid : Bool) :
    db.build index valid = { db with indexes := (db.build index valid).indexes } := by
  unfold CheckpointDb.build
  split
  · rfl
  · split <;> rfl

omit [DecidableEq ι] in
/-- Executing a migration builds its index, if it has one, and is logged. -/
theorem exec_apply (m : Migrations) (db : CheckpointDb ι) (v : Nat) :
    db.exec m (.apply v) = { db with
      indexes := (db.build (m.index v) true).indexes
      executed := db.executed ++ [v] } := by
  rw [CheckpointDb.exec, build_frame]

omit [DecidableEq ι] in
/-- A statement that fails changes nothing but the indexes. -/
theorem abandon_frame (m : Migrations) (db : CheckpointDb ι) (begun : Bool) (job : Migrator) :
    db.abandon m begun job = { db with indexes := (db.abandon m begun job).indexes } := by
  unfold CheckpointDb.abandon
  split
  · split
    · exact build_frame db _ false
    · rfl
  · rfl

/-- An index that a job finds valid once it has executed and recorded what is left
    after the first `k` migrations: it is valid, or yet to be built. -/
def BuiltFrom (m : Migrations) (k : Nat) (db : CheckpointDb ι) (name : String) : Prop :=
  db.indexes.lookup name = some true ∨
    db.indexes.lookup name = none ∧ ∃ v, k ≤ v ∧ v < m.count ∧ m.index v = some name

omit [DecidableEq ι] in
/-- When nothing is left, it has to be valid. -/
theorem builtFrom_count {name : String} :
    BuiltFrom m m.count db name ↔ db.indexes.lookup name = some true := by
  refine ⟨fun h => h.resolve_right ?_, Or.inl⟩
  rintro ⟨-, v, hle, hlt, -⟩
  omega

omit [DecidableEq ι] in
/-- `IF NOT EXISTS`: what is there stays what it is. -/
theorem lookup_build (db : CheckpointDb ι) (index : Option String) (valid : Bool) (name : String) :
    (db.build index valid).indexes.lookup name =
      (db.indexes.lookup name).or (if index = some name then some valid else none) := by
  unfold CheckpointDb.build
  cases index with
  -- a migration without an index
  | none => rw [if_neg nofun, Option.or_none]
  | some built =>
    dsimp only
    split
    · -- the name is taken
      rename_i hthere
      by_cases hname : built = name
      · subst hname
        rw [Option.or_of_isSome hthere]
      · rw [if_neg fun h => hname (Option.some.inj h), Option.or_none]
    · -- the index is new, and found under its own name only
      rename_i hfree
      by_cases hname : name = built
      · subst hname
        rw [Option.not_isSome_iff_eq_none] at hfree
        rw [hfree, if_pos rfl, List.lookup_cons_self, Option.none_or]
      · rw [List.lookup_cons, beq_false_of_ne hname, if_neg fun h => hname (Option.some.inj h).symm,
          Option.or_none]

omit [DecidableEq ι] in
/-- Executing the next migration leaves it at that. -/
theorem builtFrom_build {k : Nat} (hk : k < m.count) {name : String} :
    BuiltFrom m (k + 1) (db.build (m.index k) true) name ↔ BuiltFrom m k db name := by
  -- the next migration, or a later one
  have hlater : (∃ v, k ≤ v ∧ v < m.count ∧ m.index v = some name) ↔
      m.index k = some name ∨ ∃ v, k + 1 ≤ v ∧ v < m.count ∧ m.index v = some name := by
    constructor
    · rintro ⟨v, hle, hlt, hv⟩
      rcases Nat.lt_or_eq_of_le hle with hgt | rfl
      · exact Or.inr ⟨v, hgt, hlt, hv⟩
      · exact Or.inl hv
    · rintro (hindex | ⟨v, hle, hlt, hv⟩)
      · exact ⟨k, le_rfl, hk, hindex⟩
      · exact ⟨v, by omega, hlt, hv⟩
  unfold BuiltFrom
  rw [hlater, lookup_build]
  by_cases hindex : m.index k = some name
  · rw [if_pos hindex]
    cases db.indexes.lookup name <;> simp [hindex]
  · rw [if_neg hindex, Option.or_none]
    simp only [hindex, false_or]

/-! ### The history -/

/-- Two histories that are equal are equally long. -/
theorem range_inj {a b : Nat} (h : List.range a = List.range b) : a = b := by
  simpa using congrArg List.length h

/-- The rows there are. -/
abbrev CheckpointDb.rows (db : CheckpointDb ι) : List Nat := db.history.getD []

/-- A history in order is accepted, and as complete when it has every migration. -/
theorem validateHistory_range {k : Nat} (hk : k ≤ m.count) (complete : Bool) :
    validateHistory m (List.range k) complete = (!complete || k == m.count) := by
  have hsorted : (List.range k).mergeSort = List.range k :=
    List.mergeSort_of_pairwise (List.pairwise_lt_range.imp fun h => by simpa using Nat.le_of_lt h)
  cases complete with
  | false => simp [validateHistory, hsorted, hk]
  | true =>
    simp only [validateHistory, hsorted, if_true, List.length_range, decide_eq_true hk, Bool.and_true,
      Bool.not_true, Bool.false_or]
    -- complete, it has to be the history of all
    by_cases hcount : k = m.count
    · rw [hcount, beq_self_eq_true, beq_self_eq_true]
    · have hne : List.range k ≠ List.range m.count := fun h => hcount (by
        simpa using congrArg List.length h)
      rw [beq_false_of_ne hne, beq_false_of_ne hcount]

/-- The migrations executed when `k` are recorded: those, and the next one if a job
    stopped before it was recorded, each after those before it. -/
structure Executed (m : Migrations) (k : Nat) (log : List Nat) : Prop where
  in_order : log.Pairwise (· ≤ ·)
  recorded : ∀ v < k, v ∈ log
  bounded : ∀ v ∈ log, v ≤ k ∧ v < m.count

/-- Before the first migration nothing was executed. -/
theorem executed_nil : Executed m 0 [] where
  in_order := List.Pairwise.nil
  recorded _ h := absurd h (Nat.not_lt_zero _)
  bounded _ h := (List.not_mem_nil h).elim

/-- The next migration may be executed, once more if need be. -/
theorem Executed.apply {k : Nat} {log : List Nat} (h : Executed m k log) (hk : k < m.count) :
    Executed m k (log ++ [k]) where
  in_order := by
    refine List.pairwise_append.mpr ⟨h.in_order, List.pairwise_singleton _ _, fun v hv u hu => ?_⟩
    rw [List.mem_singleton.mp hu]
    exact (h.bounded v hv).1
  recorded v hv := List.mem_append_left _ (h.recorded v hv)
  bounded v hv := by
    -- it is the one after those recorded
    rcases List.mem_append.mp hv with hv | hv
    · exact h.bounded v hv
    · rw [List.mem_singleton.mp hv]
      exact ⟨le_rfl, hk⟩

/-- A migration that was executed may be recorded. -/
theorem Executed.record {k : Nat} {log : List Nat} (h : Executed m k log) (hk : k ∈ log) :
    Executed m (k + 1) log where
  in_order := h.in_order
  recorded v hv := by
    -- recorded before, or now
    rcases Nat.lt_succ_iff_lt_or_eq.mp hv with hv | rfl
    · exact h.recorded v hv
    · exact hk
  bounded v hv := ⟨(h.bounded v hv).1.trans (Nat.le_succ k), (h.bounded v hv).2⟩

/-! ### One session -/

/-- Where a run of `setup` stands when `k` migrations are recorded: before the next
    one, or between executing and recording it. -/
inductive Underway (m : Migrations) (k : Nat) (log : List Nat) : List MigrationStatement → Prop
  | next : Underway m k log (pendingFrom m k)
  | executed : k < m.count → k ∈ log → Underway m k log (.record k :: pendingFrom m (k + 1))

/-- Whether a run that stands there finds what it expects. -/
def Awaits (m : Migrations) (k : Nat) (log : List Nat) : Migrator → Prop
  | .running left => Underway m k log left
  | _ => True

/-- The statements of a run, and its end, keep the history a start of the migrations,
    and only the session that holds the lock moves on. -/
theorem migrateStep_spec (hsetup : SetupInOrder m) {k : Nat} (hk : k ≤ m.count)
    (hrows : db.rows = List.range k) (hlog : Executed m k db.executed)
    (hawaits : Awaits m k db.executed job) (catalog : Catalog) :
    ∃ k' ≤ m.count, k ≤ k' ∧ (migrateStep m catalog i db job).1.rows = List.range k' ∧
      Executed m k' (migrateStep m catalog i db job).1.executed ∧
      Awaits m k' (migrateStep m catalog i db job).1.executed (migrateStep m catalog i db job).2 ∧
      (job.holds = false → k' = k ∧ (migrateStep m catalog i db job).1.executed = db.executed) ∧
      (db.history = some (List.range m.count) →
        (migrateStep m catalog i db job).1.history = db.history ∧
          (migrateStep m catalog i db job).1.executed = db.executed) := by
  -- on a complete history, nothing is left to do
  have hcount : db.history = some (List.range m.count) → k = m.count := fun h => by
    rw [CheckpointDb.rows, h] at hrows
    exact (range_inj hrows).symm
  cases job with
  | running left =>
    cases hawaits with
    | next =>
      by_cases hlt : k < m.count
      · -- the next migration is executed
        rw [pendingFrom_of_lt hlt]
        have hlog' := hlog.apply hlt
        simp only [migrateStep, exec_apply]
        exact ⟨k, hk, le_rfl, hrows, hlog', .executed hlt (by simp), nofun,
          fun h => absurd (hcount h) hlt.ne⟩
      · obtain rfl : k = m.count := by omega
        rw [pendingFrom_count]
        exact ⟨m.count, hk, le_rfl, hrows, hlog, trivial, nofun, fun _ => ⟨rfl, rfl⟩⟩
    | executed hlt hmem =>
      -- and recorded
      refine ⟨k + 1, hlt, Nat.le_succ k, ?_, hlog.record hmem, .next, nofun,
        fun h => absurd (hcount h) hlt.ne⟩
      change db.rows ++ [k] = _
      rw [hrows, List.range_succ]
  | created =>
    refine ⟨k, hk, le_rfl, hrows, hlog, ?_, nofun, fun _ => ⟨rfl, rfl⟩⟩
    change Underway m k db.executed (m.setup db.rows)
    rw [hrows, hsetup k hk]
    exact .next
  | connected =>
    refine ⟨k, hk, le_rfl, hrows, hlog, ?_, fun _ => ⟨rfl, rfl⟩, fun _ => ⟨rfl, rfl⟩⟩
    simp only [migrateStep]
    split <;> trivial
  | checked =>
    simp only [migrateStep]
    split <;> exact ⟨k, hk, le_rfl, hrows, hlog, trivial, fun _ => ⟨rfl, rfl⟩, fun _ => ⟨rfl, rfl⟩⟩
  | exited succeeded =>
    exact ⟨k, hk, le_rfl, hrows, hlog, trivial, fun _ => ⟨rfl, rfl⟩, fun _ => ⟨rfl, rfl⟩⟩
  | releasing succeeded => exact ⟨k, hk, le_rfl, hrows, hlog, trivial, nofun, fun _ => ⟨rfl, rfl⟩⟩
  | complete => exact ⟨k, hk, le_rfl, hrows, hlog, trivial, nofun, fun _ => ⟨rfl, rfl⟩⟩
  | prepared =>
    refine ⟨k, hk, le_rfl, hrows, hlog, trivial, nofun, fun h => ⟨?_, rfl⟩⟩
    simp only [migrateStep, h, Option.getD_some]
  | _ =>
    refine ⟨k, hk, le_rfl, hrows, hlog, ?_, nofun, fun _ => ⟨rfl, rfl⟩⟩
    simp only [migrateStep]
    split <;> trivial

/-- The lock is taken when it is free, and let go of by its holder only. -/
theorem migrateStep_lock (hlock : job.holds = true → db.lock = some i) (catalog : Catalog) :
    ((migrateStep m catalog i db job).2.holds = true →
        (migrateStep m catalog i db job).1.lock = some i) ∧
      ∀ j, j ≠ i → db.lock = some j → (migrateStep m catalog i db job).1.lock = some j := by
  cases job with
  | connected =>
    refine ⟨fun h => ?_, fun _ _ h => h⟩
    simp only [migrateStep] at h
    split at h <;> exact nomatch h
  | checked =>
    -- the lock is taken where it is free, and given up where it is not
    by_cases hfree : db.lock = none
    · refine ⟨fun _ => ?_, fun j _ h => ?_⟩
      · simp only [migrateStep, if_pos hfree]
      · rw [hfree] at h
        exact nomatch h
    · simp only [migrateStep, if_neg hfree]
      exact ⟨nofun, fun _ _ h => h⟩
  | releasing succeeded =>
    -- what is released is the job's own lock
    refine ⟨nofun, fun j hj h => ?_⟩
    simp only [migrateStep, h]
    exact if_neg fun h => hj (Option.some.inj h)
  | exited succeeded => exact ⟨nofun, fun _ _ h => h⟩
  | running left =>
    cases left with
    | nil => exact ⟨fun _ => hlock rfl, fun _ _ h => h⟩
    | cons s left =>
      cases s with
      | apply v =>
        simp only [migrateStep, exec_apply]
        exact ⟨fun _ => hlock rfl, fun _ _ h => h⟩
      | record v => exact ⟨fun _ => hlock rfl, fun _ _ h => h⟩
  | _ => exact ⟨fun _ => hlock rfl, fun _ _ h => h⟩

/-- What is lost is the lock of the session itself. -/
theorem lock_disconnect (h : db.lock = some j) (hj : j ≠ i) : (db.disconnect i).lock = some j := by
  simp only [CheckpointDb.disconnect, h]
  exact if_neg fun h => hj (Option.some.inj h)

/-- A job that was killed holds no lock. -/
theorem holds_onCrash (job : Migrator) : job.onCrash.holds = false := by
  cases job <;> rfl

/-- A job that raised holds the lock only if it had it. -/
theorem holds_of_onRaise (h : job.onRaise.holds = true) : job.holds = true := by
  cases job <;> first | rfl | exact nomatch h

/-- Whether a session, if there is one, is past the lock. -/
def holdsLock (job : Option Migrator) : Bool := job.any Migrator.holds

/-- What an event of a session does to the history and to the lock. -/
theorem sessionStep_spec (hsetup : SetupInOrder m) {k : Nat} (hk : k ≤ m.count)
    (hrows : db.rows = List.range k) (hlog : Executed m k db.executed) {job : Option Migrator}
    (hawaits : ∀ now, job = some now → Awaits m k db.executed now)
    (hlock : holdsLock job = true → db.lock = some i) {e : SessionEvent}
    (hstep : sessionStep m i db job e = some (db', job')) :
    (∃ k' ≤ m.count, k ≤ k' ∧ db'.rows = List.range k' ∧ Executed m k' db'.executed ∧
      Awaits m k' db'.executed job' ∧
      (holdsLock job = false → k' = k ∧ db'.executed = db.executed) ∧
      (db.history = some (List.range m.count) →
        db'.history = db.history ∧ db'.executed = db.executed)) ∧
    (job'.holds = true → db'.lock = some i) ∧ ∀ j, j ≠ i → db.lock = some j → db'.lock = some j := by
  cases e with
  | connect =>
    -- connecting touches nothing
    simp only [sessionStep, Option.ite_none_right_eq_some, Option.some.injEq, Prod.mk.injEq] at hstep
    obtain ⟨-, rfl, rfl⟩ := hstep
    exact ⟨⟨k, hk, le_rfl, hrows, hlog, trivial, fun _ => ⟨rfl, rfl⟩, fun _ => ⟨rfl, rfl⟩⟩, nofun,
      fun _ _ h => h⟩
  | advance catalog =>
    obtain ⟨now, rfl, hnow⟩ := Option.map_eq_some_iff.mp hstep
    -- one step of the job
    have hdb := congrArg Prod.fst hnow
    have hjob := congrArg Prod.snd hnow
    dsimp only at hdb hjob
    obtain ⟨k', hk', hle, hrows', hlog', hawaits', hidle, hdone⟩ :=
      migrateStep_spec (i := i) hsetup hk hrows hlog (hawaits now rfl) catalog
    obtain ⟨hholds, hothers⟩ := migrateStep_lock (m := m) hlock catalog
    rw [hdb] at hrows' hlog' hawaits' hidle hdone hholds hothers
    rw [hjob] at hawaits' hholds
    exact ⟨⟨k', hk', hle, hrows', hlog', hawaits', hidle, hdone⟩, hholds, hothers⟩
  | raise begun =>
    obtain ⟨now, rfl, hnow⟩ := Option.map_eq_some_iff.mp hstep
    dsimp only at hnow
    rw [abandon_frame] at hnow
    cases hnow
    -- raising, a job gives its lock back before it goes
    have hfit : Awaits m k db.executed now.onRaise := by cases now <;> trivial
    by_cases hholds : now.onRaise.holds = true
    · rw [if_pos hholds]
      exact ⟨⟨k, hk, le_rfl, hrows, hlog, hfit, fun _ => ⟨rfl, rfl⟩, fun _ => ⟨rfl, rfl⟩⟩,
        fun _ => hlock (holds_of_onRaise hholds), fun _ _ h => h⟩
    · rw [if_neg hholds]
      exact ⟨⟨k, hk, le_rfl, hrows, hlog, hfit, fun _ => ⟨rfl, rfl⟩, fun _ => ⟨rfl, rfl⟩⟩,
        fun h => absurd h hholds, fun _ hj h => lock_disconnect h hj⟩
  | crash begun =>
    obtain ⟨now, rfl, hnow⟩ := Option.map_eq_some_iff.mp hstep
    rw [abandon_frame] at hnow
    cases hnow
    -- killed, it loses it with the session
    have hfit : Awaits m k db.executed now.onCrash := by cases now <;> trivial
    exact ⟨⟨k, hk, le_rfl, hrows, hlog, hfit, fun _ => ⟨rfl, rfl⟩, fun _ => ⟨rfl, rfl⟩⟩,
      fun h => absurd h (by rw [holds_onCrash]; decide), fun _ hj h => lock_disconnect h hj⟩

/-! ### All of them -/

/-- What holds of the database and the jobs, whatever happens. -/
structure Orderly (m : Migrations) (w : MigrationWorld ι) : Prop where
  holder : ∀ i job, w.jobs i = some job → job.holds = true → w.db.lock = some i
  history : ∃ k ≤ m.count, w.db.rows = List.range k ∧ Executed m k w.db.executed ∧
    ∀ i job, w.jobs i = some job → Awaits m k w.db.executed job

omit [DecidableEq ι] in
/-- At the start there is no history and no lock. -/
theorem orderly_start : Orderly m ({} : MigrationWorld ι) where
  holder _ _ h := nomatch h
  history := ⟨0, Nat.zero_le _, rfl, executed_nil, nofun⟩

/-- A job that stands between two migrations is past the lock. -/
theorem awaits_of_idle {k k' : Nat} {log log' : List Nat} (h : job.holds = true → k' = k ∧ log' = log)
    (hawaits : Awaits m k log job) : Awaits m k' log' job := by
  cases job with
  | running left =>
    obtain ⟨rfl, rfl⟩ := h rfl
    exact hawaits
  | _ => trivial

/-- An event of one session keeps the others where they are, and a complete history
    as it is. -/
theorem Orderly.session (hsetup : SetupInOrder m) (h : Orderly m w) {e : SessionEvent}
    (hstep : w.step m (.session i e) = some w') : Orderly m w' ∧
      (w.db.history = some (List.range m.count) →
        w'.db.history = w.db.history ∧ w'.db.executed = w.db.executed) := by
  obtain ⟨⟨db', job'⟩, hsession, rfl⟩ := Option.map_eq_some_iff.mp hstep
  obtain ⟨k, hk, hrows, hlog, hawaits⟩ := h.history
  -- a job that holds the lock has it in the database
  have hlock : holdsLock (w.jobs i) = true → w.db.lock = some i := fun hheld => by
    cases hnow : w.jobs i with
    | none =>
      rw [hnow] at hheld
      exact nomatch hheld
    | some now =>
      rw [hnow] at hheld
      exact h.holder i now hnow hheld
  obtain ⟨⟨k', hk', hle, hrows', hlog', hawaits', hidle, hdone⟩, hholds, hothers⟩ :=
    sessionStep_spec (i := i) hsetup hk hrows hlog (hawaits i) hlock hsession
  refine ⟨⟨fun j job hj hheld => ?_, k', hk', hrows', hlog', fun j job hj => ?_⟩, hdone⟩
  · change Function.update w.jobs i (some job') j = some job at hj
    -- who holds the lock
    by_cases hself : j = i
    · subst hself
      rw [Function.update_self] at hj
      cases hj
      exact hholds hheld
    · rw [Function.update_of_ne hself] at hj
      exact hothers j hself (h.holder j job hj hheld)
  · change Function.update w.jobs i (some job') j = some job at hj
    -- what each job is waiting for
    by_cases hself : j = i
    · subst hself
      rw [Function.update_self] at hj
      cases hj
      exact hawaits'
    · rw [Function.update_of_ne hself] at hj
      refine awaits_of_idle (fun hheld => hidle ?_) (hawaits j job hj)
      -- the lock is the other job's, so this one has not got it
      cases hheld' : holdsLock (w.jobs i) with
      | false => rfl
      | true =>
        have hown := hlock hheld'
        rw [h.holder j job hj hheld] at hown
        exact absurd (Option.some.inj hown) hself

/-- And so does any event: what an operator sees to is not the history. -/
theorem Orderly.step (hsetup : SetupInOrder m) (h : Orderly m w) {e : MigrationEvent ι}
    (hstep : w.step m e = some w') : Orderly m w' ∧
      (w.db.history = some (List.range m.count) →
        w'.db.history = w.db.history ∧ w'.db.executed = w.db.executed) := by
  cases e with
  | session i e => exact h.session hsetup hstep
  | operator indexes =>
    cases hstep
    exact ⟨⟨h.holder, h.history⟩, fun _ => ⟨rfl, rfl⟩⟩

/-- And a run, event by event. -/
theorem orderly_run_from (hsetup : SetupInOrder m) {es : List (MigrationEvent ι)}
    (h : Orderly m w) (hrun : w.run m es = some w') : Orderly m w' ∧
      (w.db.history = some (List.range m.count) →
        w'.db.history = w.db.history ∧ w'.db.executed = w.db.executed) := by
  induction es generalizing w with
  | nil =>
    cases hrun
    exact ⟨h, fun _ => ⟨rfl, rfl⟩⟩
  | cons e es ih =>
    simp only [MigrationWorld.run, Option.bind_eq_bind, Option.bind_eq_some_iff] at hrun
    obtain ⟨w₁, hstep, hrun⟩ := hrun
    -- a complete history is kept by the step, and so by the rest
    obtain ⟨h₁, hkeep₁⟩ := h.step hsetup hstep
    obtain ⟨h', hkeep⟩ := ih h₁ hrun
    refine ⟨h', fun hcomplete => ?_⟩
    obtain ⟨hhistory₁, hlog₁⟩ := hkeep₁ hcomplete
    obtain ⟨hhistory, hlog⟩ := hkeep (hhistory₁.trans hcomplete)
    exact ⟨hhistory.trans hhistory₁, hlog.trans hlog₁⟩

/-- What holds whatever happens. -/
theorem orderly_run (hsetup : SetupInOrder m) {es : List (MigrationEvent ι)}
    (hrun : MigrationWorld.run m {} es = some w) : Orderly m w :=
  (orderly_run_from hsetup orderly_start hrun).1

/-- Two migrations, gone on with after the latest version there is. -/
def twoMigrations : Migrations where
  count := 2
  index _ := none
  setup rows :=
    let version := rows.max?.elim 0 (· + 1)
    (List.range' version (2 - version)).flatMap fun v => [.apply v, .record v]

/-- The two sample migrations come in order. -/
theorem setupInOrder_two : SetupInOrder twoMigrations := by
  intro k hk
  replace hk : k ≤ 2 := hk
  interval_cases k <;> rfl

/-- A job that is lost between a migration and the record of it. -/
def interrupted : List (MigrationEvent Bool) :=
  .session false .connect :: List.replicate 7 (.session false (.advance ⟨false, true⟩)) ++
    [.session false (.crash false)]

/-- A job that has just recorded the last one. -/
def completed : List (MigrationEvent Bool) :=
  .session false .connect :: List.replicate 10 (.session false (.advance ⟨false, true⟩))

/-- However many jobs are started, and wherever they fail or lose their connection: one
    at a time is past the lock, the history is a start of the migrations, and each
    migration was executed after those before it, and not one of them too early. -/
theorem migrations_orderly (hsetup : SetupInOrder m) {es : List (MigrationEvent ι)}
    (hrun : MigrationWorld.run m {} es = some w) :
    (∀ i j job job', w.jobs i = some job → w.jobs j = some job' → job.holds = true →
      job'.holds = true → i = j) ∧
    ∃ k ≤ m.count, w.db.rows = List.range k ∧ Executed m k w.db.executed := by
  have h := orderly_run hsetup hrun
  obtain ⟨k, hk, hrows, hlog, -⟩ := h.history
  refine ⟨fun i j job job' hi hj hheld hheld' => ?_, k, hk, hrows, hlog⟩
  exact Option.some.inj ((h.holder i job hi hheld).symm.trans (h.holder j job' hj hheld'))

/-- The first of two jobs has executed a migration, and is lost before it is recorded. -/
theorem migrations_orderly_interrupted :
    ∃ w : MigrationWorld Bool, MigrationWorld.run twoMigrations {} interrupted = some w ∧
      (∀ i j job job', w.jobs i = some job → w.jobs j = some job' → job.holds = true →
        job'.holds = true → i = j) ∧
      ∃ k ≤ 2, w.db.rows = List.range k ∧ Executed twoMigrations k w.db.executed :=
  have hrun : MigrationWorld.run twoMigrations {} interrupted = some _ := rfl
  ⟨_, hrun, migrations_orderly setupInOrder_two hrun⟩

/-- A server that may start finds every migration executed and recorded, and no job
    executes one under it. -/
theorem complete_stays (hsetup : SetupInOrder m) {es es' : List (MigrationEvent ι)}
    (hrun : MigrationWorld.run m {} es = some w) (hstarts : startsOn m w.db = true)
    (hrun' : w.run m es' = some w') :
    (∀ v, v ∈ w.db.executed ↔ v < m.count) ∧ w'.db.executed = w.db.executed ∧
      startsOn m w'.db = true := by
  have h := orderly_run hsetup hrun
  obtain ⟨k, hk, hrows, hlog, -⟩ := h.history
  -- a service that starts has found the complete history
  have hhistory : w.db.history = some (List.range m.count) := by
    unfold startsOn at hstarts
    split at hstarts
    · rename_i rows hsome
      rw [CheckpointDb.rows, hsome, Option.getD_some] at hrows
      rw [hrows, validateHistory_range hk] at hstarts
      rw [hsome, hrows, eq_of_beq hstarts]
    · exact nomatch hstarts
  obtain ⟨hhistory', hlog'⟩ := (orderly_run_from hsetup h hrun').2 hhistory
  refine ⟨fun v => ⟨fun hv => (hlog.bounded v hv).2, fun hv => hlog.recorded v ?_⟩, hlog', ?_⟩
  · rw [CheckpointDb.rows, hhistory, Option.getD_some] at hrows
    rwa [← range_inj hrows]
  · rw [startsOn, hhistory', hhistory]
    exact (validateHistory_range le_rfl true).trans (beq_self_eq_true _)

/-- The job that recorded the last migration may be lost, and another one come. -/
theorem complete_stays_two :
    ∃ w w' : MigrationWorld Bool, MigrationWorld.run twoMigrations {} completed = some w ∧
      w.run twoMigrations [.session false (.crash false), .session true .connect] = some w' ∧
      (∀ v, v ∈ w.db.executed ↔ v < 2) ∧ w'.db.executed = w.db.executed ∧
      startsOn twoMigrations w'.db = true :=
  have hrun : MigrationWorld.run twoMigrations {} completed = some _ := rfl
  ⟨_, _, hrun, rfl, complete_stays setupInOrder_two hrun
    (validateHistory_range (m := twoMigrations) le_rfl true)
    (show MigrationWorld.run _ _ [.session false (.crash false), .session true .connect] = _
      from rfl)⟩

/-! ### A job left alone -/

/-- What the catalog answers when nothing is in the way. -/
def readyCatalog : Catalog := ⟨false, true⟩

/-- The statements of session `i`, one after the other, lead from one place to
    another. -/
def Leads (m : Migrations) (i : ι) (p q : CheckpointDb ι × Migrator) : Prop :=
  ∃ n, (fun p => migrateStep m readyCatalog i p.1 p.2)^[n] p = q

/-- A job leads to where it is. -/
theorem Leads.refl (p : CheckpointDb ι × Migrator) : Leads m i p p := ⟨0, rfl⟩

/-- One step further it still leads there. -/
theorem Leads.step {p q : CheckpointDb ι × Migrator}
    (h : Leads m i (migrateStep m readyCatalog i p.1 p.2) q) : Leads m i p q := by
  obtain ⟨n, h⟩ := h
  exact ⟨n + 1, h⟩

/-- What it leads to leads on. -/
theorem Leads.trans {p q r : CheckpointDb ι × Migrator} (h : Leads m i p q) (h' : Leads m i q r) :
    Leads m i p r := by
  obtain ⟨n, rfl⟩ := h
  obtain ⟨n', rfl⟩ := h'
  exact ⟨n' + n, Function.iterate_add_apply ..⟩

/-- The migrations left are executed and recorded, and their indexes built where there
    are none. -/
theorem leads_setUp (i : ι) (db : CheckpointDb ι) {k : Nat} (hk : k ≤ m.count)
    (h : db.history = some (List.range k)) :
    ∃ log indexes, Leads m i (db, .running (pendingFrom m k))
        ({ db with history := some (List.range m.count), executed := log, indexes := indexes },
          .setUp) ∧
      ∀ name, indexes.lookup name = some true ↔ BuiltFrom m k db name := by
  induction hn : m.count - k generalizing k db with
  | zero =>
    obtain rfl : k = m.count := by omega
    -- nothing is pending
    refine ⟨db.executed, db.indexes, .step ?_, fun _ => builtFrom_count.symm⟩
    rw [pendingFrom_count, ← h]
    exact .refl _
  | succ n ih =>
    have hlt : k < m.count := by omega
    obtain ⟨log, indexes, hleads, hbuilt⟩ := ih (k := k + 1)
      { db with
        history := some (List.range (k + 1))
        executed := db.executed ++ [k]
        indexes := (db.build (m.index k) true).indexes } hlt rfl (by omega)
    -- the next one is executed and recorded, then the rest
    refine ⟨log, indexes, .step (.step ?_), fun name => (hbuilt name).trans (builtFrom_build hlt)⟩
    rw [pendingFrom_of_lt hlt]
    simp only [migrateStep, exec_apply]
    simpa only [CheckpointDb.exec, h, Option.getD_some, ← List.range_succ] using hleads

/-- From the lock on, the history is completed and the lock let go of; whether the job
    has succeeded is then up to the indexes. -/
theorem leads_exit (hsetup : SetupInOrder m) {k : Nat} (hk : k ≤ m.count)
    (hrows : db.rows = List.range k) (hfree : db.lock = none) :
    ∃ db', Leads m i (db, .connected) (db', .exited (validateIndexes db')) ∧
      startsOn m db' = true ∧ db'.lock = none ∧
        ∀ name, db'.indexes.lookup name = some true ↔ BuiltFrom m k db name := by
  -- where the history is to be found, it is a start of the migrations
  have hprepared : Leads m i ({ db with lock := some i }, .provisioned)
      ({ db with lock := some i }, .prepared) := by
    cases hhistory : db.history with
    | none =>
      refine .step ?_
      simp only [migrateStep]
      exact .refl _
    | some rows =>
      rw [CheckpointDb.rows, hhistory, Option.getD_some] at hrows
      refine .step (.step ?_)
      simp only [migrateStep, Option.isSome_some, if_true, Option.getD_some, hrows,
        validateHistory_range hk]
      exact .refl _
  obtain ⟨log, indexes, hsetUp, hbuilt⟩ := leads_setUp i
    { db with lock := some i, history := some (List.range k) } hk rfl
  have hcomplete : validateHistory m (List.range m.count) true = true :=
    (validateHistory_range le_rfl true).trans (beq_self_eq_true _)
  refine ⟨{ db with
    history := some (List.range m.count), executed := log, indexes := indexes, lock := none }, ?_,
    hcomplete, rfl, hbuilt⟩
  -- up to the lock, on to `setup`, through it and to the end
  refine .step (.step (.step ?_))
  simp only [migrateStep, readyCatalog, Bool.false_eq_true, if_false, hfree, if_true]
  refine hprepared.trans (.step (.step ?_))
  simp only [migrateStep, Option.getD_some]
  rw [show db.history.getD [] = List.range k from hrows, hsetup k hk]
  refine hsetUp.trans (.step (.step (.step ?_)))
  simp only [migrateStep, Option.getD_some, hcomplete, if_true]
  exact .refl _

/-- The statements of one session are a run of the world. -/
theorem run_of_leads {p : CheckpointDb ι × Migrator} (h : Leads m i p (db', job')) :
    ∃ n, ∀ w : MigrationWorld ι, w.db = p.1 → w.jobs i = some p.2 →
      w.run m (List.replicate n (.session i (.advance readyCatalog))) =
        some { db := db', jobs := Function.update w.jobs i (some job') } := by
  obtain ⟨n, h⟩ := h
  refine ⟨n, ?_⟩
  induction n generalizing p with
  | zero =>
    rintro ⟨db, jobs⟩ rfl hjob
    cases h
    simp [MigrationWorld.run, ← hjob]
  | succ n ih =>
    intro w hdb hjob
    -- each step of the job is one event of the world
    have hstep : w.step m (.session i (.advance readyCatalog)) =
        some { db := (migrateStep m readyCatalog i p.1 p.2).1
               jobs := Function.update w.jobs i (some (migrateStep m readyCatalog i p.1 p.2).2) } := by
      simp only [MigrationWorld.step, sessionStep, hjob, hdb, Option.map_some]
    rw [List.replicate_succ, MigrationWorld.run, hstep]
    refine (ih h _ rfl (Function.update_self ..)).trans ?_
    rw [Function.update_idem]

omit [DecidableEq ι] in
/-- The indexes are in order when each of them is there and valid. -/
theorem validateIndexes_iff :
    validateIndexes db = true ↔ ∀ name ∈ checkpointIndexes, db.indexes.lookup name = some true := by
  simp only [validateIndexes, List.all_eq_true, beq_iff_eq]

/-- Three migrations, each of which creates an index. -/
def indexMigrations : Migrations where
  count := 3
  index v := checkpointIndexes[v]?
  setup rows :=
    let version := rows.max?.elim 0 (· + 1)
    (List.range' version (3 - version)).flatMap fun v => [.apply v, .record v]

/-- The three sample migrations come in order. -/
theorem setupInOrder_index : SetupInOrder indexMigrations := by
  intro k hk
  replace hk : k ≤ 3 := hk
  interval_cases k <;> rfl

/-- A job that has built the first index, and whose statement for the second one is
    interrupted. -/
def halfBuilt : List (MigrationEvent Bool) :=
  .session false .connect :: List.replicate 8 (.session false (.advance ⟨false, true⟩)) ++
    [.session false (.raise true), .session false (.advance ⟨false, true⟩)]

end MapServiceAgent.Native
