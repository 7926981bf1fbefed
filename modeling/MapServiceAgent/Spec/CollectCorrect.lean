import MapServiceAgent.ForStd.Dict
import MapServiceAgent.Native.Collect

/-!
# What the evaluation collects

A case gets a message of its own job, the first one the collector is handed.
Unless another consumer reads under the same group or the stream forgets entries
before they are read, that is the first one published since the group was there;
what was published before is never collected.

## Key results

- `foldl_collectEntry`: the first message of a job counts
- `collect_feed`: what the collector is handed
- `collect_first`: what a case gets
-/

namespace MapServiceAgent.Native

variable {wanted : List (String × String)} {out : List (String × StreamFields)}

/-! ### Entries -/

/-- Whether an entry is of a job. -/
def isOf (jobId : String) (fields : StreamFields) : Bool := fields.lookup "job_id" == some jobId

/-- A job no longer waited for leaves the others waited for. -/
theorem lookup_filter_ne {j k : String} (h : j ≠ k) :
    (wanted.filter (·.1 ≠ k)).lookup j = wanted.lookup j := by
  induction wanted with
  | nil => rfl
  | cons e wanted ih =>
    obtain ⟨key, v⟩ := e
    by_cases hkey : key = k
    · subst hkey
      rw [List.filter_cons_of_neg (by simp), ih, lookup_cons_of_ne h]
    · rw [List.filter_cons_of_pos (by simpa using hkey)]
      by_cases hj : j = key
      · subst hj
        simp
      · rw [lookup_cons_of_ne hj, lookup_cons_of_ne hj, ih]

/-- It is not waited for itself. -/
theorem lookup_filter_self (k : String) : (wanted.filter (·.1 ≠ k)).lookup k = none := by
  rw [List.lookup_eq_none_iff]
  intro e he
  have hne := of_decide_eq_true (List.mem_filter.mp he).2
  exact bne_iff_ne.mpr (Ne.symm hne)

/-- What one entry does: it is put down to the case of its job and that job is no
    longer waited for, or it changes nothing. -/
theorem collectEntry_cases (wanted : List (String × String)) (out : List (String × StreamFields))
    (fields : StreamFields) :
    (∃ jobId caseId, isOf jobId fields = true ∧ wanted.lookup jobId = some caseId ∧
      collectEntry (wanted, out) fields =
        (wanted.filter (·.1 ≠ jobId), dictSet out caseId fields)) ∨
    (∀ jobId, isOf jobId fields = true → wanted.lookup jobId = none) ∧
      collectEntry (wanted, out) fields = (wanted, out) := by
  unfold collectEntry isOf
  split
  · -- an entry without a job
    rename_i hnone
    refine .inr ⟨fun jobId h => ?_, rfl⟩
    rw [hnone] at h
    exact nomatch h
  · rename_i jobId hjob
    dsimp only
    split
    · -- nobody waits for the job
      rename_i hnone
      refine .inr ⟨fun jobId' h => ?_, rfl⟩
      rw [hjob] at h
      rw [← Option.some.inj (eq_of_beq h)]
      exact hnone
    · -- it is put down to the case
      rename_i caseId hcase
      exact .inl ⟨jobId, caseId, by rw [hjob]; exact beq_self_eq_true _, hcase, rfl⟩

/-- A case nobody is waited for keeps what it has. -/
theorem foldl_collectEntry_other {caseId : String} (entries : List StreamFields)
    (h : ∀ j, wanted.lookup j ≠ some caseId) :
    (entries.foldl collectEntry (wanted, out)).2.lookup caseId = out.lookup caseId := by
  induction entries generalizing wanted out with
  | nil => rfl
  | cons fields entries ih =>
    rw [List.foldl_cons]
    rcases collectEntry_cases wanted out fields with ⟨k, c, -, hc, hst⟩ | ⟨-, hst⟩
    · -- the entry goes to another case
      have hne : caseId ≠ c := by
        rintro rfl
        exact h k hc
      rw [hst, ih, lookup_dictSet_ne hne]
      intro j
      by_cases hj : j = k
      · rw [hj, lookup_filter_self]
        exact nofun
      · rw [lookup_filter_ne hj]
        exact h j
    · rw [hst, ih h]

/-- A job not waited for is not waited for later on. -/
theorem foldl_collectEntry_gone {jobId : String} (entries : List StreamFields)
    (h : wanted.lookup jobId = none) :
    (entries.foldl collectEntry (wanted, out)).1.lookup jobId = none := by
  induction entries generalizing wanted out with
  | nil => exact h
  | cons fields entries ih =>
    rw [List.foldl_cons]
    rcases collectEntry_cases wanted out fields with ⟨k, c, -, -, hst⟩ | ⟨-, hst⟩
    · -- an entry takes another job off the list
      rw [hst]
      refine ih ?_
      by_cases hj : jobId = k
      · rw [hj, lookup_filter_self]
      · rw [lookup_filter_ne hj, h]
    · rw [hst]
      exact ih h

/-- A case gets the first message of its job. -/
theorem foldl_collectEntry {jobId caseId : String} (out : List (String × StreamFields))
    (entries : List StreamFields) (hjob : wanted.lookup jobId = some caseId)
    (hown : ∀ j, wanted.lookup j = some caseId → j = jobId) :
    (entries.foldl collectEntry (wanted, out)).2.lookup caseId =
        (entries.find? (isOf jobId)).or (out.lookup caseId) ∧
      (entries.foldl collectEntry (wanted, out)).1.lookup jobId =
        if entries.any (isOf jobId) then none else some caseId := by
  induction entries generalizing wanted out with
  | nil => exact ⟨rfl, hjob⟩
  | cons fields entries ih =>
    rw [List.foldl_cons]
    rcases collectEntry_cases wanted out fields with ⟨k, c, hk, hc, hst⟩ | ⟨hnone, hst⟩
    · by_cases hself : k = jobId
      · -- the first message of the job: nobody is waited for under the case any more
        subst hself
        obtain rfl : c = caseId := Option.some.inj (hc.symm.trans hjob)
        have hgone : ∀ j, (wanted.filter (·.1 ≠ k)).lookup j ≠ some c := by
          intro j
          by_cases hj : j = k
          · rw [hj, lookup_filter_self]
            exact nofun
          · rw [lookup_filter_ne hj]
            exact fun h => hj (hown j h)
        rw [hst, foldl_collectEntry_other entries hgone, lookup_dictSet_self,
          List.find?_cons_of_pos hk, List.any_cons, hk]
        exact ⟨rfl, foldl_collectEntry_gone entries (lookup_filter_self k)⟩
      · -- a message of another job waited for
        have hne : caseId ≠ c := by
          rintro rfl
          exact hself (hown k hc)
        have hnot : isOf jobId fields = false := by
          rw [isOf, eq_of_beq hk]
          exact beq_false_of_ne fun h => hself (Option.some.inj h)
        have hjob' : (wanted.filter (·.1 ≠ k)).lookup jobId = some caseId := by
          rw [lookup_filter_ne (Ne.symm hself)]
          exact hjob
        have hown' : ∀ j, (wanted.filter (·.1 ≠ k)).lookup j = some caseId → j = jobId := by
          intro j hj
          by_cases hjk : j = k
          · rw [hjk, lookup_filter_self] at hj
            exact nomatch hj
          · rw [lookup_filter_ne hjk] at hj
            exact hown j hj
        rw [hst, List.find?_cons_of_neg (by rw [hnot]; decide), List.any_cons, hnot, Bool.false_or]
        obtain ⟨hout, hleft⟩ := ih (dictSet out c fields) hjob' hown'
        rw [lookup_dictSet_ne hne] at hout
        exact ⟨hout, hleft⟩
    · -- an entry of a job nobody waits for
      have hnot : isOf jobId fields = false := by
        cases hself : isOf jobId fields with
        | false => rfl
        | true => exact absurd ((hnone jobId hself).symm.trans hjob) nofun
      rw [hst, List.find?_cons_of_neg (by rw [hnot]; decide), List.any_cons, hnot, Bool.false_or]
      exact ih out hjob hown

/-! ### Runs -/

/-- The messages published while `collect` runs. -/
def publishes (es : List CollectEvent) : List StreamFields :=
  es.filterMap fun
    | .publish fields => some fields
    | _ => none

/-- Nobody else reads under the group, and nothing is forgotten before it is read. -/
def Undisturbed : Collector → List CollectEvent → Prop
  | _, [] => True
  | c, e :: es =>
    (match e with
    | .other _ => False
    | .trim place => place ≤ c.feed.cursor
    | _ => True) ∧ Undisturbed (c.step e) es

/-- A run of the collector is one of its feed: what it is handed there is what it
    puts down. -/
theorem collect_feed (c : Collector) (es : List CollectEvent) :
    ∃ fes, (c.feed.run fes).2 = (c.run es).feed ∧ Feed.adds fes = publishes es ∧
      (c.feed.run fes).1.foldl collectEntry (c.wanted, c.out) =
        ((c.run es).wanted, (c.run es).out) ∧
      (Undisturbed c es → Feed.Quiet c.feed fes) := by
  induction es generalizing c with
  | nil => exact ⟨[], rfl, rfl, rfl, fun _ => trivial⟩
  | cons e es ih =>
    obtain ⟨fes, hfeed, hadds, hfold, hquiet⟩ := ih (c.step e)
    cases e with
    | publish fields =>
      -- an entry is published
      refine ⟨.add fields :: fes, hfeed, ?_, hfold, fun h => ⟨trivial, hquiet h.2⟩⟩
      rw [Feed.adds, publishes, List.filterMap_cons, List.filterMap_cons]
      exact congrArg _ hadds
    | trim place => exact ⟨.trim place :: fes, hfeed, hadds, hfold, fun h => ⟨h.1, hquiet h.2⟩⟩
    -- another consumer takes entries away
    | other count => exact ⟨.read false count :: fes, hfeed, hadds, hfold, fun h => h.1.elim⟩
    | poll =>
      by_cases hdone : c.wanted = []
      · -- the loop is over
        have hstep : c.step .poll = c := if_pos hdone
        rw [hstep] at hfeed hfold hquiet
        refine ⟨fes, ?_, hadds, ?_, fun h => hquiet ?_⟩
        · rw [Collector.run, hstep]
          exact hfeed
        · rw [Collector.run, hstep]
          exact hfold
        · rw [← hstep]
          exact h.2
      · have hstep : c.step .poll =
            { feed := (c.feed.step (.read true batchSize)).2
              wanted := ((c.feed.step (.read true batchSize)).1.foldl collectEntry
                (c.wanted, c.out)).1
              out := ((c.feed.step (.read true batchSize)).1.foldl collectEntry
                (c.wanted, c.out)).2 } := if_neg hdone
        rw [hstep] at hfeed hfold hquiet
        refine ⟨.read true batchSize :: fes, ?_, hadds, ?_, fun h => ⟨rfl, hquiet ?_⟩⟩
        · rw [Collector.run, hstep]
          exact hfeed
        · rw [Collector.run, hstep, Feed.run, List.foldl_append]
          exact hfold
        · rw [← hstep]
          exact h.2

/-- What the case of a job gets, in any run: nothing, or a message of the job that was
    published after the group's place; something, if the loop is over before its time.
    If nothing is lost, it is the first such message, once the loop is over or the
    group is at the end of the stream. -/
theorem collect_first (feed : Feed StreamFields) (isThere : Bool) {jobId caseId : String}
    (hjob : wanted.lookup jobId = some caseId)
    (hown : ∀ j, wanted.lookup j = some caseId → j = jobId) (es : List CollectEvent) :
    let joined := joinGroup feed isThere
    let c := collect feed isThere wanted es
    let news := (feed.added ++ publishes es).drop joined.cursor
    (∀ fields, c.out.lookup caseId = some fields → fields ∈ news ∧ isOf jobId fields = true) ∧
      (c.wanted = [] → (c.out.lookup caseId).isSome) ∧
      (joined.trimmed ≤ joined.cursor → Undisturbed { feed := joined, wanted := wanted } es →
        c.feed.cursor = c.feed.added.length ∨ c.wanted = [] →
          c.out.lookup caseId = news.find? (isOf jobId)) := by
  intro joined c news
  obtain ⟨fes, hend, hadds, hfold, hquiet⟩ := collect_feed { feed := joined, wanted := wanted } es
  obtain ⟨hout, hleft⟩ := foldl_collectEntry [] (joined.run fes).1 hjob hown
  rw [hfold] at hout hleft
  change c.out.lookup caseId = _ at hout
  change c.wanted.lookup jobId = _ at hleft
  rw [List.lookup_nil, Option.or_none] at hout
  have hadded : c.feed.added = feed.added ++ publishes es := by
    have hjoined : joined.added = feed.added := by
      unfold joined joinGroup
      split <;> rfl
    change (Collector.run _ es).feed.added = _
    rw [← hend, Feed.added_run, hadds, hjoined]
  have hslice : ∀ b,
      Feed.slice (joined.run fes).2.added joined.cursor b = news.take (b - joined.cursor) := by
    intro b
    rw [hend]
    change Feed.slice c.feed.added _ _ = _
    rw [hadded]
    rfl
  -- a job that is no longer waited for has had its first message
  have hover : c.wanted = [] → ((joined.run fes).1.find? (isOf jobId)).isSome := by
    intro hdone
    have hnone : c.wanted.lookup jobId = none := by rw [hdone]; rfl
    rw [List.find?_isSome]
    refine List.any_eq_true.mp (by_contra fun hany => ?_)
    rw [hnone, if_neg hany] at hleft
    exact nomatch hleft
  refine ⟨fun fields h => ?_, fun hdone => hout ▸ hover hdone, fun htrim hund hdone => ?_⟩
  · -- what the case has was handed to the collector, in the order of the stream
    rw [hout] at h
    obtain ⟨-, hsub⟩ := joined.delivered_run fes
    rw [hslice] at hsub
    exact ⟨List.mem_of_mem_take (hsub.subset (List.mem_of_find?_eq_some h)), List.find?_some h⟩
  · have hall := Feed.delivered_quiet htrim (hquiet hund)
    rw [hslice] at hall
    rcases hdone with hcursor | hdone
    · -- the group is at the end: it has been handed all the news
      have hlen : news.length = (joined.run fes).2.cursor - joined.cursor := by
        rw [hend, List.length_drop, ← hadded]
        exact congrArg (· - joined.cursor) hcursor.symm
      rw [hout, hall, ← hlen, List.take_length]
    · -- the loop is over: the first message was among what it was handed
      obtain ⟨fields, hfirst⟩ := Option.isSome_iff_exists.mp (hover hdone)
      have hnewest : (joined.run fes).1 <+: news := by
        rw [hall]
        exact List.take_prefix ..
      rw [hout, hfirst]
      exact (hnewest.find?_eq_some hfirst).symm

/-- A job that reports twice, after another one. -/
def sampleDone : List CollectEvent :=
  [.publish [("job_id", "i")], .publish [("job_id", "j"), ("status", "done")], .poll,
    .publish [("job_id", "j"), ("status", "failed")]]

/-- The case gets the first of the two reports. -/
theorem collect_first_sample : (collect {} false [("j", "case")] sampleDone).out.lookup "case" =
    some [("job_id", "j"), ("status", "done")] := by
  have hjob : [("j", "case")].lookup "j" = some "case" := rfl
  have hown : ∀ j, [("j", "case")].lookup j = some "case" → j = "j" := fun j hj => by
    by_contra hne
    rw [lookup_cons_of_ne hne] at hj
    exact nomatch hj
  have hfirst := (collect_first {} false hjob hown sampleDone).2.2 le_rfl
    ⟨trivial, trivial, trivial, trivial, trivial⟩ (.inr (by decide))
  exact hfirst.trans (by decide)

end MapServiceAgent.Native
