import MapServiceAgent.Native.Evaluation
import MapServiceAgent.Spec.JsonCorrect
import MapServiceAgent.Spec.JudgeCorrect
import MapServiceAgent.Spec.SealCorrect
import MapServiceAgent.Spec.SignalCorrect

/-!
# From jobs to scores

The evaluation scores what the jobs of its cases have left on the done stream.
What went out in plain text is read back as it was, and no training signal
admits made-up places, so the cases below the standard are those whose job left
no result, or one that is not presentable. What went out sealed is not read, and
every case is reported missing.

## Key results

- `EvaluatedJob.Legible.read`: a message in plain text is read back as it was
- `EvaluatedJob.Read.scored`: its score meets the standard if its result is presentable
- `evaluation_of_jobs`: what the evaluation says of a list of jobs
-/

namespace MapServiceAgent.Native

variable {env : Env} {jobId : String} {req : AgentRequest} {s : AgentState} {stream : StreamEnv}

/-! ### Messages -/

/-- What a job has left on the done stream: the message of its run or, where something
    has struck it from outside, as its timer does, the one of a failure. -/
def LeftBy (stream : StreamEnv) (env : Env) (jobId : String) (req : AgentRequest)
    (m : DoneMessage) : Prop :=
  jobMessage stream env jobId req = .ok m ∨ ∃ f, failureMessage stream jobId f = .ok m

/-- That is the message of a payload the nodes came to, or of a failure. -/
theorem LeftBy.cases {m : DoneMessage} (h : LeftBy stream env jobId req m) :
    (∃ j p training, (agentGraph env).Reaches (Job.start jobId req) .publishDone j ∧
      runJob env jobId req = [p] ∧ donePayload j.state = .ok p ∧
      j.state = (ainvoke env jobId req).2.state ∧
      trainingSignal stream j.state = .ok training ∧
      publish stream j.state.jobId p.status.value (stream.modelDumpJson p) training = .ok m) ∨
    ∃ f, failureMessage stream jobId f = .ok m := by
  rcases h with h | hfailed
  rotate_left
  · exact .inr hfailed
  -- a job that was not struck leaves its result, or why there is none
  unfold jobMessage at h
  split at h
  · -- a node raised
    exact .inr ⟨_, h⟩
  · rename_i j hrun
    split at h
    · rename_i m' hmessage
      obtain rfl := Except.ok.inj h
      -- the payload, the signal beside it and the message of the two
      obtain ⟨p, hp, hmessage⟩ := bind_eq_ok.mp hmessage
      obtain ⟨training, htraining, hpublish⟩ := bind_eq_ok.mp hmessage
      rcases runJob_eq env jobId req with ⟨i, p', hi, hp', -, hstate, hjob⟩ | ⟨e, herror, -⟩
      · rw [hrun] at hstate
        have hstate : j.state = i.state := hstate
        rw [hstate] at hp htraining hpublish
        obtain rfl := Except.ok.inj (hp.symm.trans hp')
        refine .inl ⟨i, p, training, hi, hjob, hp', ?_, htraining, hpublish⟩
        rw [hrun]
        exact hstate.symm
      · -- the graph was said to return, so it did not raise
        rw [hrun] at herror
        cases herror
    · -- the result could not be published
      exact .inr ⟨_, h⟩

/-- What is published is the text it was given, or an envelope. -/
theorem publish_ok {id status text : String} {training : Option String} {m : DoneMessage}
    (h : publish stream id status text training = .ok m) :
    m.status = status ∧ m.training = stream.fitting training ∧
      (stream.wire.enabled = false → m.payload = text) ∧
      (stream.wire.enabled = true → ∃ rest, m.payload.toList = 'v' :: rest) := by
  unfold publish at h
  split at h
  · rename_i henabled
    -- with a key the message is an envelope, and begins with its version
    obtain ⟨body, hbody, h⟩ := bind_eq_ok.mp h
    obtain rfl := Except.ok.inj h
    refine ⟨rfl, rfl, fun hoff => absurd (henabled.symm.trans hoff) (by decide), fun _ => ?_⟩
    obtain ⟨key, -, hbody⟩ := bind_eq_ok.mp hbody
    obtain rfl := Except.ok.inj hbody
    simp [String.toList_append, sealVersion]
  · rename_i hoff
    obtain rfl := Except.ok.inj h
    exact ⟨rfl, rfl, fun _ => rfl, fun hon => absurd hon hoff⟩

/-! ### Files -/

/-- An envelope is no JSON. -/
theorem jsonLoads_envelope (pf : Platform) (depth : Nat) (rest : List Char) :
    jsonLoads pf depth ('v' :: rest) = .error jsonDecodeError := by
  have hscan : scanOnce pf depth ('v' :: rest) = .error jsonDecodeError := by
    cases depth <;> rfl
  have hblank : ('v' :: rest).dropWhile isBlank = 'v' :: rest := rfl
  rw [jsonLoads, hblank, hscan]
  rfl

/-- A job's file holds its field of that name, where there is one and it is not blank. -/
theorem lookup_collectedFiles {results : List (String × StreamFields)} {key id : String}
    {fields : StreamFields} (hdict : (results.map Prod.fst).Nodup)
    (h : results.lookup id = some fields) :
    (collectedFiles key results).lookup (id ++ ".json") =
      (fields.lookup key).filter (· ≠ "") := by
  have hjson : Function.Injective (· ++ ".json") := fun _ _ => String.append_left_inj _ |>.mp
  have hlookup := lookup_filterMap_of hjson
    (fun fields : StreamFields => (fields.lookup key).filter (· ≠ "")) hdict id
  rw [h] at hlookup
  exact hlookup

/-- Every message has a payload. -/
theorem lookup_payload (m : DoneMessage) : m.fields.lookup "payload" = some m.payload := rfl

/-- A message has a training field when a signal was sent along. -/
theorem lookup_training (m : DoneMessage) : m.fields.lookup "training" = m.training := by
  unfold DoneMessage.fields
  cases m.training <;> rfl

variable {pf : Platform} {L : JsonLayout} {depth : Nat} {p : JobDonePayload}

/-- A file is read back as the value that was written to it. -/
theorem loadJson_dump {v : Json} {text : String} (htext : text.toList = L.dump v)
    (h : Writable pf L depth v) : loadJson pf depth (some text) = .ok v := by
  unfold loadJson
  dsimp only
  rw [htext, jsonLoads_dump h]

/-- An envelope is not JSON, so it is read as nothing. -/
theorem loadJson_envelope {text : String} {rest : List Char} (h : text.toList = 'v' :: rest) :
    loadJson pf depth (some text) = .ok .null := by
  unfold loadJson
  dsimp only
  rw [h, jsonLoads_envelope]
  rfl

/-- A failed payload can be written and read back. -/
theorem writable_failed (L : JsonLayout) (depth : Nat) (jobId : String) (f : Failure) :
    Writable pf L (depth + 1) (.obj (failedPayload jobId f).jsonFields) := by
  refine .obj (by simp [JobDonePayload.jsonFields]) ?_
  simp only [JobDonePayload.jsonFields, List.forall_mem_cons]
  exact ⟨.str _, .str _, .null, .null, .null, .null, .null, .null, .str _, .str _, .bool _,
    fun f hf => absurd hf List.not_mem_nil⟩

/-! ### Scores -/

/-- A failure is scored, and does not meet the standard. -/
theorem scoreCase_failed (hstatus : p.status = .failed) (hplaces : p.places = none)
    (case : List (String × Json)) (training : Json) :
    ∃ score, scoreCase pf case (.obj p.jsonFields) training = .ok score ∧
      score.caseId = dictGet case "id" ∧ score.meetsStandard = false := by
  -- it is not done, so its form is wrong
  have hschema : scoreSchema pf (.obj p.jsonFields) =
      .ok (.failed ("status=" ++ pyStr pf (.str "failed"))) := by
    unfold scoreSchema
    dsimp only
    rw [dictGet_status, hstatus]
    rfl
  -- without places nothing is backed by a source
  have hgrounded : scoreGrounded (.obj p.jsonFields) training = .ok ⟨true, false, true⟩ := by
    have hnone : messagePlaces (.obj p.jsonFields) = .null := by
      change jsonOption _ p.places = _
      rw [hplaces]
      rfl
    unfold scoreGrounded
    rw [hnone]
    rfl
  refine ⟨{ caseId := dictGet case "id", schema := .failed ("status=" ++ pyStr pf (.str "failed"))
            grounded := ⟨true, false, true⟩ }, ?_, rfl, rfl⟩
  unfold scoreCase
  rw [bind_of_eq_ok hschema, bind_of_eq_ok hgrounded]
  rfl

/-- A case of the evaluation, the job it was handed in as, and what that has left. -/
structure EvaluatedJob where
  id : String
  case : List (String × Json)
  maxRadiusKm : Json
  env : Env
  jobId : String
  request : AgentRequest
  message : DoneMessage

/-- The job was run on the case, and what it wrote can be read: `number` is how
    `model_dump_json` writes a number. -/
structure EvaluatedJob.Legible (stream : StreamEnv) (number : PyFloat → String) (depth : Nat)
    (x : EvaluatedJob) : Prop where
  id : dictItem x.case "id" = .ok (.str x.id)
  case : CaseOf x.case x.request x.maxRadiusKm
  radius : x.maxRadiusKm = .null ∨ ∃ limit, x.maxRadiusKm.num? = some limit
  platform : x.env.platform = stream.platform
  dwell : DwellMinutes x.env.hub
  message : LeftBy stream x.env x.jobId x.request x.message
  payload : ∀ p ∈ runJob x.env x.jobId x.request,
    Writable stream.platform (.compact number) (depth + 1) (.obj p.jsonFields)
  training : ∀ usage,
    usageFields ((ainvoke x.env x.jobId x.request).2.state.llmUsage.getD []) = .ok usage →
      Writable stream.platform (.compact (dumpFloat stream.platform)) (depth + 1)
        (.obj (stream.signal (ainvoke x.env x.jobId x.request).2.state usage))

/-- A job that has left a result, and one that is presentable. -/
def EvaluatedJob.Presents (x : EvaluatedJob) : Prop :=
  x.message.status = "done" ∧ ∃ p ∈ runJob x.env x.jobId x.request, ∃ places,
    p.places = some places ∧ Presentable x.env.platform x.request x.maxRadiusKm p places

/-- What was published of a state. -/
theorem donePayload_status (h : donePayload s = .ok p) :
    (p.status = .failed ∧ p.places = none) ∨ (p.status = .done ∧ s.failed = false) := by
  unfold donePayload at h
  split at h
  · cases h
    exact .inl ⟨rfl, rfl⟩
  · rename_i hok
    obtain ⟨places, -, h⟩ := bind_eq_ok.mp h
    obtain ⟨order, -, h⟩ := bind_eq_ok.mp h
    obtain ⟨legs, -, h⟩ := bind_eq_ok.mp h
    cases h
    exact .inr ⟨rfl, by simpa using hok⟩

section Read

variable {number : PyFloat → String} {x : EvaluatedJob}

/-- What is in the files of a job, as it was published in plain text. -/
structure EvaluatedJob.Read (stream : StreamEnv) (depth : Nat) (x : EvaluatedJob)
    (p : JobDonePayload) (signal : Json) : Prop where
  payload : loadJson stream.platform (depth + 1) (some x.message.payload) = .ok (.obj p.jsonFields)
  payload_ne : x.message.payload ≠ ""
  training : loadJson stream.platform (depth + 1) (x.message.training.filter (· ≠ "")) =
    .ok signal
  honest : admitsInvention signal = .ok false
  status : x.message.status = p.status.value
  result : (p.status = .failed ∧ p.places = none) ∨ (p.status = .done ∧
    Nonempty (DoneRun x.env x.jobId x.request p) ∧ p ∈ runJob x.env x.jobId x.request)

/-- A written object is not blank. -/
theorem ne_empty_of_dump {text : String} {m : List (String × Json)}
    (h : text.toList = L.dump (.obj m)) : text ≠ "" := by
  rintro rfl
  rw [JsonLayout.dump] at h
  cases h

/-- The training signal that is sent reads back as one that admits no made-up places. -/
theorem EvaluatedJob.Legible.signal (hx : x.Legible stream number depth)
    (hj : (agentGraph x.env).Reaches (Job.start x.jobId x.request) .publishDone j)
    (hlast : j.state = (ainvoke x.env x.jobId x.request).2.state) {training : Option String}
    (htraining : trainingSignal stream j.state = .ok training) :
    ∃ v, loadJson stream.platform (depth + 1) ((stream.fitting training).filter (· ≠ "")) = .ok v ∧
      admitsInvention v = .ok false := by
  cases hsent : stream.fitting training with
  -- no signal was sent, or none that fits
  | none => exact ⟨.null, rfl, rfl⟩
  | some sent =>
    cases training with
    | none =>
      unfold StreamEnv.fitting at hsent
      split at hsent <;> cases hsent
    | some text =>
      obtain rfl := fitting_eq_some hsent
      obtain ⟨hcollects, usage, husage, htext⟩ := trainingSignal_text htraining
      refine ⟨_, ?_, admitsInvention_signal (told_of_reaches hj) hcollects usage⟩
      have hdump : sent.toList = (JsonLayout.compact (dumpFloat stream.platform)).dump
          (.obj (stream.signal j.state usage)) := by
        rw [htext, dumpJson_layout]
      rw [Option.filter_some, if_pos (by simpa using ne_empty_of_dump hdump)]
      rw [hlast] at husage hdump ⊢
      exact loadJson_dump hdump (hx.training usage husage)

/-- A message in plain text is read back as it was. -/
theorem EvaluatedJob.Legible.read (hx : x.Legible stream number depth)
    (hoff : stream.wire.enabled = false)
    (hdump : ∀ p, (stream.modelDumpJson p).toList =
      (JsonLayout.compact number).dump (.obj p.jsonFields)) :
    ∃ p signal, x.Read stream depth p signal := by
  rcases hx.message.cases with
    ⟨j, p, training, hj, hjob, hp, hlast, htraining, hpublish⟩ | ⟨f, hpublish⟩
  · -- the job's own result
    have hmem : p ∈ runJob x.env x.jobId x.request := hjob ▸ List.mem_singleton_self p
    obtain ⟨hstatus, hsent, hpayload, -⟩ := publish_ok hpublish
    obtain ⟨v, hv, honest⟩ := hx.signal hj hlast htraining
    refine ⟨p, v, ?_, ?_, hsent ▸ hv, honest, hstatus, ?_⟩
    · rw [hpayload hoff]
      exact loadJson_dump (hdump p) (hx.payload p hmem)
    · rw [hpayload hoff]
      exact ne_empty_of_dump (hdump p)
    · rcases donePayload_status hp with hfailed | ⟨hdone, hok⟩
      · exact .inl hfailed
      · exact .inr ⟨hdone, doneRun_of_reaches hj hok hp, hmem⟩
  · -- a failure, which tells its code and takes no signal along
    obtain ⟨hstatus, hsent, hpayload, -⟩ := publish_ok hpublish
    have hnone : stream.fitting none = none := by
      unfold StreamEnv.fitting
      split <;> rfl
    refine ⟨failedPayload x.jobId f, .null, ?_, ?_, ?_, rfl, hstatus, .inl ⟨rfl, rfl⟩⟩
    · rw [hpayload hoff]
      exact loadJson_dump (hdump _) (writable_failed _ depth _ f)
    · rw [hpayload hoff]
      exact ne_empty_of_dump (hdump _)
    · rw [hsent, hnone]
      rfl

/-- The score of a job, with its training signal or without. -/
theorem EvaluatedJob.Read.scored {signal t : Json} (hx : x.Legible stream number depth)
    (h : x.Read stream depth p signal) (ht : t = .null ∨ t = signal) :
    ∃ score, scoreCase stream.platform x.case (.obj p.jsonFields) t = .ok score ∧
      score.caseId = .str x.id ∧ (score.meetsStandard = true ↔ x.Presents) := by
  have hid : dictGet x.case "id" = .str x.id := by
    have hitem := hx.id
    unfold dictItem at hitem
    split at hitem
    · rename_i v hv
      rw [dictGet, hv]
      exact Except.ok.inj hitem
    · cases hitem
  rcases h.result with ⟨hfailed, hplaces⟩ | ⟨hdone, ⟨run⟩, hmem⟩
  · -- a failed result is below standard, and presents nothing
    obtain ⟨score, hscore, hcase, hstandard⟩ := scoreCase_failed hfailed hplaces x.case t
    refine ⟨score, hscore, hcase.trans hid, ?_⟩
    rw [hstandard]
    refine iff_of_false (by decide) fun hpresents => ?_
    have hstatus := h.status.symm.trans hpresents.1
    rw [hfailed] at hstatus
    exact absurd hstatus (by decide)
  · -- a done one is judged on what it shows
    have honest : admitsInvention t = .ok false := by
      rcases ht with rfl | rfl
      · rfl
      · exact h.honest
    obtain ⟨places, score, hplaces, hscore, hcase, hstandard⟩ :=
      run.scoreCase hx.dwell hdone hx.case hx.radius honest
    rw [hx.platform] at hscore
    refine ⟨score, hscore, hcase.trans hid, hstandard.trans ?_⟩
    constructor
    · rintro ⟨-, hpresentable⟩
      refine ⟨?_, p, hmem, places, hplaces, hpresentable⟩
      rw [h.status, hdone]
      rfl
    · -- a job has one result
      rintro ⟨-, p', hmem', places', hplaces', hpresentable⟩
      obtain ⟨q, hjob⟩ := runJob_single x.env x.jobId x.request
      rw [hjob, List.mem_singleton] at hmem hmem'
      obtain rfl := hmem.trans hmem'.symm
      obtain rfl := Option.some.inj (hplaces.symm.trans hplaces')
      exact ⟨rfl, hpresentable⟩

end Read

/-! ### The evaluation -/

/-- The evaluation of these jobs: it reads the files the collector has written of what
    it got of them. -/
structure Evaluates (stream : StreamEnv) (depth : Nat) (jobs : List EvaluatedJob)
    (results : List (String × StreamFields)) (args : EvalArgs) : Prop where
  cases : args.cases = jobs.map fun x => .obj x.case
  dict : (results.map Prod.fst).Nodup
  collected : ∀ x ∈ jobs, results.lookup x.id = some x.message.fields
  payloads : ∀ x ∈ jobs, loadJson stream.platform (depth + 1)
    ((collectedFiles "payload" results).lookup (x.id ++ ".json")) =
      .ok (args.results (x.id ++ ".json"))
  signals : ∀ dir, args.training = some dir → ∀ x ∈ jobs, loadJson stream.platform (depth + 1)
    ((collectedFiles "training" results).lookup (x.id ++ ".json")) = .ok (dir (x.id ++ ".json"))

section Evaluation

variable {number : PyFloat → String} {x : EvaluatedJob} {jobs : List EvaluatedJob}
  {results : List (String × StreamFields)} {args : EvalArgs}

/-- The file of a message that is not empty. -/
theorem Evaluates.results_eq (h : Evaluates stream depth jobs results args) (hmem : x ∈ jobs)
    (hne : x.message.payload ≠ "") {v : Json}
    (hv : loadJson stream.platform (depth + 1) (some x.message.payload) = .ok v) :
    args.results (x.id ++ ".json") = v := by
  have hfile := h.payloads x hmem
  rw [lookup_collectedFiles h.dict (h.collected x hmem), lookup_payload, Option.filter_some,
    if_pos (decide_eq_true hne), hv] at hfile
  exact (Except.ok.inj hfile).symm

/-- What stands for the training signal of a job. -/
theorem Evaluates.training_eq (h : Evaluates stream depth jobs results args) (hmem : x ∈ jobs)
    {v : Json} (hv : loadJson stream.platform (depth + 1)
      (x.message.training.filter (· ≠ "")) = .ok v) :
    (args.training.map (· (x.id ++ ".json"))).getD .null = .null ∨
      (args.training.map (· (x.id ++ ".json"))).getD .null = v := by
  cases hdir : args.training with
  | none => exact .inl rfl
  | some dir =>
    have hfile := h.signals dir hdir x hmem
    rw [lookup_collectedFiles h.dict (h.collected x hmem), lookup_training, hv] at hfile
    exact .inr (Except.ok.inj hfile).symm

/-- A case without a result is missing, and one with a result is scored. -/
theorem judgeCase_eq {case : List (String × Json)} {id : String}
    (hid : dictItem case "id" = .ok (.str id)) :
    judgeCase pf args (.obj case) =
      match args.results (id ++ ".json") with
      | .null => .ok (.inl (.str id))
      | payload => return .inr (← scoreCase pf case payload
          ((args.training.map (· (id ++ ".json"))).getD .null)) := by
  unfold judgeCase Json.item
  rw [bind_of_eq_ok hid]
  dsimp only [pyStr]
  cases args.results (id ++ ".json") <;> rfl

/-- Names that are strings can be joined. -/
theorem joinable_ids (ids : List String) : joinable (ids.map .str) = .ok ids := by
  refine mapM_eq_ok.mpr ?_
  rw [List.forall₂_map_left_iff]
  exact List.forall₂_same.mpr fun _ _ => rfl

/-- Cases that are judged one by one. -/
theorem judged_of {outcome : EvaluatedJob → Json ⊕ CaseScore}
    (hcases : args.cases = jobs.map fun x => .obj x.case)
    (h : ∀ x ∈ jobs, judgeCase pf args (.obj x.case) = .ok (outcome x)) :
    args.cases.mapM (judgeCase pf args) = .ok (jobs.map outcome) := by
  rw [hcases]
  refine mapM_eq_ok.mpr ?_
  rw [List.forall₂_map_left_iff, List.forall₂_map_right_iff]
  exact List.forall₂_same.mpr h

/-- What the evaluation says of cases that are all missing. -/
theorem evalMain_missing (hne : jobs ≠ [])
    (hcases : args.cases = jobs.map fun x => .obj x.case)
    (h : ∀ x ∈ jobs, judgeCase pf args (.obj x.case) = .ok (.inl (.str x.id))) :
    evalMain pf args = .ok (.missing jobs.length ((jobs.map (·.id)).take 5)) := by
  have hsome : ¬ args.cases.isEmpty = true := by simpa [hcases] using hne
  have hmissing : (jobs.map fun x => (.inl (.str x.id) : Json ⊕ CaseScore)).filterMap
      (·.getLeft?) = (jobs.map (·.id)).map .str := by
    simp [List.filterMap_map, Function.comp_def]
  unfold evalMain
  rw [if_neg hsome, bind_of_eq_ok (judged_of hcases h)]
  dsimp only
  rw [hmissing, if_pos (by simpa using hne), ← List.map_take, bind_of_eq_ok (joinable_ids _)]
  simp only [List.length_map]
  rfl

/-- What it says of cases that are all scored. -/
theorem evalMain_scored {score : EvaluatedJob → CaseScore} (hne : jobs ≠ [])
    (hcases : args.cases = jobs.map fun x => .obj x.case)
    (h : ∀ x ∈ jobs, judgeCase pf args (.obj x.case) = .ok (.inr (score x)))
    (hids : ∀ x ∈ jobs, (score x).caseId = .str x.id) :
    ((jobs.any fun x => !(score x).meetsStandard) = true → evalMain pf args =
      .ok (.belowStandard ((jobs.filter fun x => !(score x).meetsStandard).map (·.id)))) ∧
    ((jobs.any fun x => !(score x).meetsStandard) = false → args.baseline = none →
      evalMain pf args = .ok .passed) := by
  have hsome : ¬ args.cases.isEmpty = true := by simpa [hcases] using hne
  -- every message was read, so none is missing
  have hmissing : (jobs.map fun x => (.inr (score x) : Json ⊕ CaseScore)).filterMap
      (·.getLeft?) = [] := by
    simp [List.filterMap_map, Function.comp_def]
  have hscored : (jobs.map fun x => (.inr (score x) : Json ⊕ CaseScore)).filterMap
      (·.getRight?) = jobs.map score := by
    simp [List.filterMap_map, Function.comp_def]
  -- the cases named are those below standard
  have hfailed : ((jobs.map score).filter fun s => !s.meetsStandard).map (·.caseId) =
      ((jobs.filter fun x => !(score x).meetsStandard).map (·.id)).map .str := by
    rw [List.filter_map, List.map_map, List.map_map]
    exact List.map_congr_left fun x hx => hids x (List.mem_of_mem_filter hx)
  unfold evalMain
  rw [if_neg hsome, bind_of_eq_ok (judged_of hcases h)]
  dsimp only
  rw [hmissing, hscored, hfailed, if_neg (by simp)]
  constructor
  · -- a score below the standard ends it before the baseline is looked at
    intro hbad
    rw [if_pos, bind_of_eq_ok (joinable_ids _)]
    · rfl
    · obtain ⟨x, hx, hxbad⟩ := List.any_eq_true.mp hbad
      simp only [Bool.or_eq_true, Bool.not_eq_true', List.isEmpty_eq_false_iff, ne_eq,
        List.map_eq_nil_iff, List.filter_eq_nil_iff]
      exact .inl fun hnone => hnone x hx (by simpa using hxbad)
  · -- without a baseline to compare with it passes
    intro hgood hbaseline
    rw [hbaseline, if_neg]
    · rfl
    · simpa [hne] using hgood

/-- The evaluation of what some jobs have left: sealed messages are not read, and every
    case is missing. Of messages in plain text it names the cases whose job left no
    result, or one that is not presentable, and where there is none, and no baseline to
    compare with, it passes. -/
theorem evaluation_of_jobs (hne : jobs ≠ []) (hjobs : ∀ x ∈ jobs, x.Legible stream number depth)
    (hdump : ∀ p, (stream.modelDumpJson p).toList =
      (JsonLayout.compact number).dump (.obj p.jsonFields))
    (h : Evaluates stream depth jobs results args) :
    (stream.wire.enabled = true → evalMain stream.platform args =
      .ok (.missing jobs.length ((jobs.map (·.id)).take 5))) ∧
    (stream.wire.enabled = false → ∃ bad : EvaluatedJob → Bool,
      (∀ x ∈ jobs, bad x = true ↔ ¬ x.Presents) ∧
      (jobs.any bad = true → evalMain stream.platform args =
        .ok (.belowStandard ((jobs.filter bad).map (·.id)))) ∧
      (jobs.any bad = false → args.baseline = none → evalMain stream.platform args =
        .ok .passed)) := by
  constructor
  · intro hon
    refine evalMain_missing hne h.cases fun x hmem => ?_
    -- whichever message it is, it is an envelope
    obtain ⟨rest, hrest⟩ : ∃ rest, x.message.payload.toList = 'v' :: rest := by
      rcases (hjobs x hmem).message.cases with
        ⟨_, _, _, -, -, -, -, -, hpublish⟩ | ⟨_, hpublish⟩
      · exact (publish_ok hpublish).2.2.2 hon
      · exact (publish_ok hpublish).2.2.2 hon
    have hempty : x.message.payload ≠ "" := by
      intro hnil
      rw [hnil] at hrest
      cases hrest
    rw [judgeCase_eq (hjobs x hmem).id, h.results_eq hmem hempty (loadJson_envelope hrest)]
  · intro hoff
    -- without a key every message is read and scored
    have hscored : ∀ x, ∃ score, x ∈ jobs →
        judgeCase stream.platform args (.obj x.case) = .ok (.inr score) ∧
          score.caseId = .str x.id ∧ (score.meetsStandard = true ↔ x.Presents) := by
      intro x
      by_cases hmem : x ∈ jobs
      · have hx := hjobs x hmem
        obtain ⟨p, signal, hread⟩ := hx.read hoff hdump
        obtain ⟨score, hscore, hid, hstandard⟩ :=
          hread.scored hx (h.training_eq hmem hread.training)
        refine ⟨score, fun _ => ⟨?_, hid, hstandard⟩⟩
        rw [judgeCase_eq hx.id, h.results_eq hmem hread.payload_ne hread.payload]
        exact bind_of_eq_ok hscore _
      · exact ⟨{ caseId := .null, schema := .ok 0, grounded := ⟨true, true, true⟩ },
          fun hx => absurd hx hmem⟩
    choose score hscore using hscored
    refine ⟨fun x => !(score x).meetsStandard, fun x hmem => ?_,
      evalMain_scored hne h.cases (fun x hmem => (hscore x hmem).1)
        fun x hmem => (hscore x hmem).2.1⟩
    rw [← (hscore x hmem).2.2]
    simp

end Evaluation

/-! ### An evaluation that passes -/

/-- A platform that writes whole numbers as the real ones do, and reads those. -/
def wholePlatform : Platform :=
  { samplePlatform with
    floatOfStr := fun s =>
      let (digits, rest) := s.toList.span Char.isDigit
      if rest = ['.', '0'] then (digits? digits).map fun n => .fin n else none
    floatRepr := fun
      | .fin q => toString q.num ++ ".0"
      | _ => "nan" }

/-- A float that is a natural number. -/
def isWhole : PyFloat → Bool
  | .fin q => decide (q.den = 1 ∧ 0 ≤ q.num)
  | _ => false

/-- The sample platform reads a whole number followed by `.0`. -/
theorem floatOfStr_whole (n : Nat) :
    wholePlatform.floatOfStr (String.ofList (Nat.toDigits 10 n ++ ['.', '0'])) = some (.fin n) := by
  have hspan : (Nat.toDigits 10 n ++ ['.', '0']).span Char.isDigit =
      (Nat.toDigits 10 n, ['.', '0']) :=
    Scanner.span_append
      (fun c hc => Nat.isDigit_of_mem_toDigits (by decide) (by decide) hc)
      (Scanner.endsRun_cons rfl _)
  unfold wholePlatform
  dsimp only
  rw [String.toList_ofList, hspan]
  dsimp only
  rw [if_pos rfl, digits?_toDigits]
  rfl

/-- What is written of a whole number reads back as it. -/
theorem readsFloat_whole {x : PyFloat} (h : isWhole x = true) :
    ReadsFloat wholePlatform (wholePlatform.floatRepr x).toList x := by
  cases x with
  | fin q =>
    obtain ⟨hden, hnum⟩ := of_decide_eq_true h
    obtain ⟨n, hn⟩ := Int.eq_ofNat_of_zero_le hnum
    have hq : q = n := by
      rw [← Rat.num_div_den q, hden, hn]
      simp
    have hchars : (toString q.num).toList = Nat.toDigits 10 n := by
      rw [hn, ← chars_ofInt]
      simp [Numeral.chars, Numeral.ofInt]
    have htext : (wholePlatform.floatRepr (.fin q)).toList = Nat.toDigits 10 n ++ ['.', '0'] := by
      rw [← hchars]
      exact String.toList_append
    -- it is a numeral with a fraction of one zero
    have hnumeral : Numeral.chars { Numeral.ofInt n with
        fraction := ['.', '0']
        fraction_form := .inr ⟨['0'], rfl, by decide, List.all_eq_true.mp rfl⟩ } =
          Nat.toDigits 10 n ++ ['.', '0'] := by
      simp [Numeral.chars, Numeral.ofInt]
    refine .inr ⟨_, hnumeral.trans htext.symm, ?_⟩
    unfold Numeral.value
    rw [if_neg (by simp), hnumeral, floatOfStr_whole, hq]
  | _ => cases h

/-- So does what `json.dumps` writes of it. -/
theorem readsFloat_dumpFloat {x : PyFloat} (h : isWhole x = true) :
    ReadsFloat wholePlatform (dumpFloat wholePlatform x).toList x := by
  cases x with
  | fin q => exact readsFloat_whole h
  | _ => cases h

/-- The sample environment on a platform that writes whole numbers. -/
def wholeEnv : Env := { sampleEnv with platform := wholePlatform }

/-- The stream of a deployment without a wire key. -/
def wholeStream : StreamEnv :=
  { sampleStream with
    platform := wholePlatform
    wire := { sampleWire with wireKey := "" }
    modelDumpJson := fun p => String.ofList
      ((JsonLayout.compact wholePlatform.floatRepr).dump (.obj p.jsonFields)) }

/-- The sample trip, handed in as a case of this name, once it has left this message. -/
def evaluatedTrip (id : String) (m : DoneMessage) : EvaluatedJob where
  id := id
  case := sampleCase id
  maxRadiusKm := .null
  env := wholeEnv
  jobId := "j"
  request := sampleTrip .init
  message := m

/-- The messages of the sample trip can all be read. -/
theorem evaluatedTrip_legible (id : String) {m : DoneMessage}
    (hm : LeftBy wholeStream wholeEnv "j" (sampleTrip .init) m) :
    (evaluatedTrip id m).Legible wholeStream wholePlatform.floatRepr 4 := by
  -- all numbers in the payload and in the signal are whole
  have hpayload : (runJob wholeEnv "j" (sampleTrip .init)).all
      (fun p => (Json.obj p.jsonFields).reads isWhole 5) = true := by decide +kernel
  have husage : (ainvoke wholeEnv "j" (sampleTrip .init)).2.state.llmUsage.getD [] = [] :=
    List.isEmpty_iff.mp (by decide +kernel)
  have hsignal : (Json.obj (wholeStream.signal
      (ainvoke wholeEnv "j" (sampleTrip .init)).2.state [])).reads isWhole 5 = true := by
    decide +kernel
  constructor
  · rfl
  · exact sampleCase_of id
  · exact .inl rfl
  · rfl
  · exact sampleHub_dwellMinutes
  · exact hm
  · intro p hp
    exact writable_of_reads (fun x => readsFloat_whole) _ (List.all_eq_true.mp hpayload p hp)
  · intro usage h
    dsimp only [evaluatedTrip] at h ⊢
    rw [husage] at h
    obtain rfl : [] = usage := Except.ok.inj h
    exact writable_of_reads (fun x => readsFloat_dumpFloat) _ hsignal

/-- The sample trip presents a result. -/
theorem evaluatedTrip_presents {id : String} {m : DoneMessage}
    (hm : jobMessage wholeStream wholeEnv "j" (sampleTrip .init) = .ok m) :
    (evaluatedTrip id m).Presents := by
  have hstatus : (jobMessage wholeStream wholeEnv "j" (sampleTrip .init)).toOption.map (·.status) =
      some "done" := by
    decide +kernel
  have hall : (runJob wholeEnv "j" (sampleTrip .init)).all (fun p =>
      decide (p.timelineStatus = some .ok) &&
        p.places.any fun l => l.all fun x => decide (Showable x)) = true := by
    decide +kernel
  obtain ⟨p, hp⟩ := runJob_single wholeEnv "j" (sampleTrip .init)
  have hmem : p ∈ runJob wholeEnv "j" (sampleTrip .init) := hp ▸ List.mem_singleton_self p
  have hgood := List.all_eq_true.mp hall p hmem
  rw [Bool.and_eq_true, decide_eq_true_eq] at hgood
  obtain ⟨htimed, hplaces⟩ := hgood
  obtain ⟨places, hplaces, hshowable⟩ := (Option.any_eq_true _ _).mp hplaces
  rw [hm] at hstatus
  refine ⟨Option.some.inj hstatus, p, hmem, places, hplaces, ?_, .inl htimed, nofun, nofun⟩
  exact fun x hx => of_decide_eq_true (List.all_eq_true.mp hshowable x hx)

/-- What the files hold of a job whose message is read. -/
theorem EvaluatedJob.Read.files {x : EvaluatedJob} {signal : Json}
    (h : x.Read stream depth p signal) {results : List (String × StreamFields)}
    (hdict : (results.map Prod.fst).Nodup) (hgot : results.lookup x.id = some x.message.fields) :
    loadJson stream.platform (depth + 1)
        ((collectedFiles "payload" results).lookup (x.id ++ ".json")) = .ok (.obj p.jsonFields) ∧
      loadJson stream.platform (depth + 1)
        ((collectedFiles "training" results).lookup (x.id ++ ".json")) = .ok signal := by
  constructor
  · rw [lookup_collectedFiles hdict hgot, lookup_payload, Option.filter_some,
      if_pos (decide_eq_true h.payload_ne)]
    exact h.payload
  · rw [lookup_collectedFiles hdict hgot, lookup_training]
    exact h.training

/-- The sample trip meets the standard, and the same trip stopped by its timer does not. -/
theorem evaluation_of_jobs_sample : ∃ m m' args,
    jobMessage wholeStream wholeEnv "j" (sampleTrip .init) = .ok m ∧
      failureMessage wholeStream "j" (jobFailure .timerCancelled) = .ok m' ∧
      Evaluates wholeStream 4 [evaluatedTrip "a" m, evaluatedTrip "b" m']
        [("a", m.fields), ("b", m'.fields)] args ∧
      evalMain wholePlatform args = .ok (.belowStandard ["b"]) := by
  obtain ⟨m, hm⟩ : Returns (jobMessage wholeStream wholeEnv "j" (sampleTrip .init)) :=
    returns_of_isSome (by decide +kernel)
  obtain ⟨m', hm'⟩ : Returns (failureMessage wholeStream "j" (jobFailure .timerCancelled)) :=
    ⟨_, rfl⟩
  have hdump : ∀ p, (wholeStream.modelDumpJson p).toList =
      (JsonLayout.compact wholePlatform.floatRepr).dump (.obj p.jsonFields) :=
    fun p => String.toList_ofList
  have hlegible := evaluatedTrip_legible "a" (.inl hm)
  have hlegible' := evaluatedTrip_legible "b" (.inr ⟨_, hm'⟩)
  obtain ⟨p, signal, hread⟩ := hlegible.read rfl hdump
  obtain ⟨p', signal', hread'⟩ := hlegible'.read rfl hdump
  have hdict : ([("a", m.fields), ("b", m'.fields)].map Prod.fst).Nodup := by simp
  have hfiles := hread.files hdict rfl
  have hfiles' := hread'.files hdict rfl
  -- the program reads what was collected
  let args : EvalArgs :=
    { cases := [.obj (sampleCase "a"), .obj (sampleCase "b")]
      results := fun name => if name = "a.json" then .obj p.jsonFields else .obj p'.jsonFields
      training := some fun name => if name = "a.json" then signal else signal'
      baseline := none, tolerance := 0, writeBaseline := false }
  have hargs : Evaluates wholeStream 4 [evaluatedTrip "a" m, evaluatedTrip "b" m']
      [("a", m.fields), ("b", m'.fields)] args := by
    refine ⟨rfl, hdict, ?_, ?_, fun dir hdir => ?_⟩
    · exact List.forall_mem_cons.mpr ⟨rfl, List.forall_mem_singleton.mpr rfl⟩
    · exact List.forall_mem_cons.mpr ⟨hfiles.1, List.forall_mem_singleton.mpr hfiles'.1⟩
    · obtain rfl := Option.some.inj hdir
      exact List.forall_mem_cons.mpr ⟨hfiles.2, List.forall_mem_singleton.mpr hfiles'.2⟩
  obtain ⟨bad, hbad, hbelow, -⟩ := (evaluation_of_jobs (List.cons_ne_nil _ _)
    (List.forall_mem_cons.mpr ⟨hlegible, List.forall_mem_singleton.mpr hlegible'⟩) hdump hargs).2 rfl
  -- one job presents its result, the other was struck
  have hgood : bad (evaluatedTrip "a" m) = false := by
    rw [← Bool.not_eq_true, hbad _ List.mem_cons_self, not_not]
    exact evaluatedTrip_presents hm
  have hstruck : bad (evaluatedTrip "b" m') = true := by
    rw [hbad _ (List.mem_cons_of_mem _ (List.mem_singleton_self _))]
    rintro ⟨hdone, -⟩
    -- a failure is no result
    cases hm'
    exact absurd hdone (by decide)
  have hany : [evaluatedTrip "a" m, evaluatedTrip "b" m'].any bad = true := by simp [hstruck]
  have hfilter : [evaluatedTrip "a" m, evaluatedTrip "b" m'].filter bad =
      [evaluatedTrip "b" m'] := by simp [hgood, hstruck]
  refine ⟨m, m', args, hm, hm', hargs, (hbelow hany).trans ?_⟩
  rw [hfilter]
  rfl

end MapServiceAgent.Native
