import MapServiceAgent.ForStd.Feed
import MapServiceAgent.Native.Python

/-!
# Collecting results

The offline evaluation hands its cases in as jobs and then listens on the done
stream, under a group of its own, until it has a message of each or its time is
up.
-/

namespace MapServiceAgent.Native

/-- The fields of an entry of a stream. -/
abbrev StreamFields := List (String × String)

/-- What `collect` has at hand: the stream with the cursor of its group, the jobs
    still waited for with their cases, and the results so far. -/
structure Collector where
  feed : Feed StreamFields
  wanted : List (String × String)
  out : List (String × StreamFields) := []

/-- One entry of a batch: acknowledged, and kept if it is of a job waited for. -/
def collectEntry (st : List (String × String) × List (String × StreamFields))
    (fields : StreamFields) : List (String × String) × List (String × StreamFields) :=
  match fields.lookup "job_id" with
  -- an entry of another kind, read and acknowledged all the same
  | none => st
  | some jobId =>
    match st.1.lookup jobId with
    | none => st
    -- the job is waited for no longer
    | some caseId => (st.1.filter (·.1 ≠ jobId), dictSet st.2 caseId fields)

/-- What may happen while `collect` runs. -/
inductive CollectEvent where
  | publish (fields : StreamFields)
  /-- A publisher trims the stream as it appends to it. -/
  | trim (place : Nat)
  /-- Another consumer of the same group reads. -/
  | other (count : Nat)
  /-- One round of the loop. -/
  | poll

/-- How many entries a batch has at most. -/
def batchSize : Nat := 10

/-- One event. Once no job is waited for, the loop is over. -/
def Collector.step (c : Collector) : CollectEvent → Collector
  | .publish fields => { c with feed := (c.feed.step (.add fields)).2 }
  | .trim place => { c with feed := (c.feed.step (.trim place)).2 }
  | .other count => { c with feed := (c.feed.step (.read false count)).2 }
  | .poll =>
    if c.wanted = [] then c
    else
      let batch := c.feed.step (.read true batchSize)
      let st := batch.1.foldl collectEntry (c.wanted, c.out)
      { feed := batch.2, wanted := st.1, out := st.2 }

/-- The collector after all events. -/
def Collector.run (c : Collector) : List CollectEvent → Collector
  | [] => c
  | e :: es => (c.step e).run es

/-- `xgroup_create` at the end of the stream; a group that is there stays where it
    is. -/
def joinGroup (feed : Feed StreamFields) (isThere : Bool) : Feed StreamFields :=
  -- `BUSYGROUP`
  if isThere then feed else feed.fromEnd

/-- `collect`, in a world where `es` happens. -/
def collect (feed : Feed StreamFields) (isThere : Bool) (wanted : List (String × String))
    (es : List CollectEvent) : Collector :=
  Collector.run { feed := joinGroup feed isThere, wanted := wanted } es

end MapServiceAgent.Native
