import Mathlib.Data.List.Sort
import Mathlib.Logic.Function.Basic
import MapServiceAgent.Native.Python

/-!
# Migrating the checkpoint schema

The migrations of the checkpoint tables are run by a job of its own, under a lock
that its session holds: several jobs may be started, each may fail at any
statement or lose its connection, and the next one goes on where the last one
stopped. An index that was being built when its statement failed is left behind
invalid, and is not built again: that is left to an operator. A server only starts
on a complete history.
-/

namespace MapServiceAgent.Native

/-! ### The database -/

/-- What the migrations do to the tables, and to the history of them. -/
inductive MigrationStatement where
  | apply (v : Nat)
  | record (v : Nat)
deriving DecidableEq, Repr

/-- The migrations pinned with the checkpointer. -/
structure Migrations where
  /-- How many there are. -/
  count : Nat
  /-- The index one of them creates, concurrently and if it does not exist. -/
  index : Nat → Option String
  /-- What `setup` executes, once the history table is there, when it finds these
      versions in it. -/
  setup : List Nat → List MigrationStatement

/-- The database, to sessions `ι`. -/
structure CheckpointDb (ι : Type) where
  /-- The rows of `checkpoint_migrations`, once there is such a table. -/
  history : Option (List Nat) := none
  /-- The migrations executed, as they came. -/
  executed : List Nat := []
  /-- The indexes there are, and whether each is valid and ready. -/
  indexes : List (String × Bool) := []
  /-- The session that holds the advisory lock. -/
  lock : Option ι := none

/-- `CREATE INDEX CONCURRENTLY IF NOT EXISTS`: an index of that name stays what it is,
    valid or not. -/
def CheckpointDb.build {ι : Type} (db : CheckpointDb ι) (index : Option String) (valid : Bool) :
    CheckpointDb ι :=
  match index with
  | none => db
  | some name =>
    -- an invalid index of that name is taken for one that is there
    if (db.indexes.lookup name).isSome then db
    else { db with indexes := (name, valid) :: db.indexes }

/-- Every statement is committed by itself. -/
def CheckpointDb.exec {ι : Type} (m : Migrations) (db : CheckpointDb ι) :
    MigrationStatement → CheckpointDb ι
  | .apply v => { db.build (m.index v) true with executed := db.executed ++ [v] }
  | .record v => { db with history := some (db.history.getD [] ++ [v]) }

/-- `INDEXES`. -/
def checkpointIndexes : List String :=
  ["checkpoints_thread_id_idx", "checkpoint_blobs_thread_id_idx", "checkpoint_writes_thread_id_idx"]

/-- `validate_indexes`. -/
def validateIndexes {ι : Type} (db : CheckpointDb ι) : Bool :=
  checkpointIndexes.all fun name => db.indexes.lookup name == some true

/-- `validate_history`, on the rows it selects. -/
def validateHistory (m : Migrations) (rows : List Nat) (complete : Bool) : Bool :=
  let versions := rows.mergeSort
  -- no version is missing and none is there twice
  versions == List.range (if complete then m.count else versions.length) &&
    decide (versions.length ≤ m.count)

/-! ### The job -/

/-- Where a run of `migrate` stands, between its statements. -/
inductive Migrator where
  | connected
  /-- The login is restricted. -/
  | checked
  | locked
  /-- The schema is provisioned. -/
  | provisioned
  /-- There is a history table. -/
  | found
  /-- The history is a start of the migrations. -/
  | prepared
  /-- `setup` has seen to the history table. -/
  | created
  | running (left : List MigrationStatement)
  | setUp
  | complete
  /-- The `finally` clause. -/
  | releasing (succeeded : Bool)
  | exited (succeeded : Bool)
deriving DecidableEq, Repr

/-- Whether a run is past the lock and has not let go of it. -/
def Migrator.holds : Migrator → Bool
  | connected | checked | exited _ => false
  | _ => true

/-- What the catalog answers a run. -/
structure Catalog where
  elevated : Bool
  hasSchema : Bool

/-- The next statement of the run of session `i`. -/
def migrateStep {ι : Type} [DecidableEq ι] (m : Migrations) (catalog : Catalog) (i : ι)
    (db : CheckpointDb ι) : Migrator → CheckpointDb ι × Migrator
  -- a login that may do more than migrate is turned down
  | .connected => (db, if catalog.elevated then .exited false else .checked)
  | .checked =>
    -- `pg_try_advisory_lock` does not wait
    if db.lock = none then ({ db with lock := some i }, .locked) else (db, .exited false)
  | .locked => (db, if catalog.hasSchema then .provisioned else .releasing false)
  | .provisioned => (db, if db.history.isSome then .found else .prepared)
  | .found =>
    (db, if validateHistory m (db.history.getD []) false then .prepared else .releasing false)
  -- `CREATE TABLE IF NOT EXISTS`
  | .prepared => ({ db with history := some (db.history.getD []) }, .created)
  -- from here the saver decides what is still to do
  | .created => (db, .running (m.setup (db.history.getD [])))
  | .running [] => (db, .setUp)
  | .running (s :: left) => (db.exec m s, .running left)
  | .setUp =>
    (db, if validateHistory m (db.history.getD []) true then .complete else .releasing false)
  -- the indexes are looked at last, before the lock is let go
  | .complete => (db, .releasing (validateIndexes db))
  | .releasing succeeded =>
    ({ db with lock := if db.lock = some i then none else db.lock }, .exited succeeded)
  | .exited succeeded => (db, .exited succeeded)

/-! ### Jobs side by side -/

/-- What happens to a session. -/
inductive SessionEvent where
  | connect
  /-- The next statement of its run comes back. -/
  | advance (catalog : Catalog)
  /-- It raises, and has done nothing, but for an index it may have begun to build. -/
  | raise (begun : Bool)
  /-- The connection is lost, and the lock of the session with it. -/
  | crash (begun : Bool)

/-- What is left of a statement that fails: an index that was begun is there, but not
    valid. -/
def CheckpointDb.abandon {ι : Type} (m : Migrations) (db : CheckpointDb ι) (begun : Bool) :
    Migrator → CheckpointDb ι
  -- only an index is built without a transaction around it
  | .running (.apply v :: _) => if begun then db.build (m.index v) false else db
  | _ => db

/-- The lock, when session `i` is over. -/
def CheckpointDb.disconnect {ι : Type} [DecidableEq ι] (db : CheckpointDb ι) (i : ι) :
    CheckpointDb ι :=
  { db with lock := if db.lock = some i then none else db.lock }

/-- Where an exception takes a run: inside the `try`, to its `finally` clause. -/
def Migrator.onRaise : Migrator → Migrator
  -- before the `try`, and in the `finally` clause itself
  | connected | checked | releasing _ => exited false
  | exited succeeded => exited succeeded
  | _ => releasing false

/-- Where a lost connection takes it. -/
def Migrator.onCrash : Migrator → Migrator
  | exited succeeded => exited succeeded
  | _ => exited false

/-- An event of session `i`, if it can happen. -/
def sessionStep {ι : Type} [DecidableEq ι] (m : Migrations) (i : ι) (db : CheckpointDb ι)
    (job : Option Migrator) : SessionEvent → Option (CheckpointDb ι × Migrator)
  | .connect => if job.isNone then some (db, .connected) else none
  | .advance catalog => job.map (migrateStep m catalog i db)
  | .raise begun => job.map fun job =>
    let db := db.abandon m begun job
    -- without a `finally` clause left, the connection is closed
    (if job.onRaise.holds then db else db.disconnect i, job.onRaise)
  | .crash begun => job.map fun job => ((db.abandon m begun job).disconnect i, job.onCrash)

/-- The database, and the migrators that run against it. -/
structure MigrationWorld (ι : Type) where
  db : CheckpointDb ι := {}
  jobs : ι → Option Migrator := fun _ => none

/-- What may happen next: something to one session, or to the indexes from outside. -/
inductive MigrationEvent (ι : Type) where
  | session (i : ι) (e : SessionEvent)
  /-- An operator sees to the indexes, in whatever way. -/
  | operator (indexes : List (String × Bool))

/-- An event of one session touches that session and the database only. -/
def MigrationWorld.step {ι : Type} [DecidableEq ι] (m : Migrations) (w : MigrationWorld ι) :
    MigrationEvent ι → Option (MigrationWorld ι)
  | .session i e =>
    (sessionStep m i w.db (w.jobs i) e).map fun (db, job) =>
      { db := db, jobs := Function.update w.jobs i (some job) }
  | .operator indexes => some { w with db := { w.db with indexes := indexes } }

/-- The world after all events, if each of them can happen. -/
def MigrationWorld.run {ι : Type} [DecidableEq ι] (m : Migrations) :
    MigrationWorld ι → List (MigrationEvent ι) → Option (MigrationWorld ι)
  | w, [] => some w
  | w, e :: es => do (← w.step m e).run m es

/-- What `validate_runtime_schema` asks of the history before a server starts. -/
def startsOn {ι : Type} (m : Migrations) (db : CheckpointDb ι) : Bool :=
  match db.history with
  | some rows => validateHistory m rows true
  -- there is no table to select from
  | none => false

end MapServiceAgent.Native
