import MapServiceAgent.ForStd.Except
import MapServiceAgent.ForStd.List
import MapServiceAgent.Native.DoneStream
import MapServiceAgent.Spec.AgentGraphCorrect

/-!
# What the done stream tells of coordinates

The payload is sealed; the training signal beside it is not. Two states that
differ in coordinates only send the same plain fields exactly when the training
signal is not sent, or has no coordinates in it.

## Key results

- `doneMessage_ok`: what a message carries in plain text
- `signalText_twin`: where the signals of two such states can differ
- `conceals_iff`: when the plain fields tell nothing
-/

namespace MapServiceAgent.Native

variable {env : StreamEnv} {s s' : AgentState}

/-! ### States that differ in coordinates -/

/-- The same entry, but for what stands under `lat` and `lng`. -/
def FieldTwin (f f' : String × Json) : Prop :=
  f.1 = f'.1 ∧ (f.1 = "lat" ∨ f.1 = "lng" ∨ f.2 = f'.2)

/-- The same candidate, but for its coordinates. -/
inductive CandidateTwin : Json → Json → Prop where
  | located {m m' : List (String × Json)} (h : List.Forall₂ FieldTwin m m') :
    CandidateTwin (.obj m) (.obj m')
  | same (c : Json) : CandidateTwin c c

/-- The same place, but for its coordinates. -/
def PlaceTwin (p p' : Place) : Prop :=
  ∃ lat lng, ∃ h : ({ p.toPlaceFields with lat := lat, lng := lng } : PlaceFields).valid = true,
    p' = { p with lat := lat, lng := lng, valid := h }

/-- The same state, but for the coordinates of places and candidates. -/
structure StateTwin (s s' : AgentState) : Prop where
  candidates : Option.Rel (List.Forall₂ CandidateTwin) s.candidates s'.candidates
  places : Option.Rel (List.Forall₂ PlaceTwin) s.places s'.places
  rest : s' = { s with candidates := s'.candidates, places := s'.places }

/-- A place differs from itself in nothing. -/
theorem PlaceTwin.refl (p : Place) : PlaceTwin p p := ⟨p.lat, p.lng, p.valid, rfl⟩

/-- Places that differ in coordinates have one identifier. -/
theorem PlaceTwin.sourceId_eq {p p' : Place} (h : PlaceTwin p p') : p'.sourceId = p.sourceId := by
  obtain ⟨lat, lng, hvalid, rfl⟩ := h
  rfl

/-- Dictionaries that differ in coordinates have the same under every other key. -/
theorem dictGet_of_fieldTwin {m m' : List (String × Json)} (h : List.Forall₂ FieldTwin m m')
    {k : String} (hlat : k ≠ "lat") (hlng : k ≠ "lng") : dictGet m' k = dictGet m k := by
  unfold dictGet
  congr 1
  induction h with
  | nil => rfl
  | @cons f f' m m' hf _ ih =>
    obtain ⟨hkey, hvalue⟩ := hf
    obtain ⟨k₁, v₁⟩ := f
    obtain ⟨k₂, v₂⟩ := f'
    cases hkey
    rw [List.lookup_cons, List.lookup_cons, ih]
    cases hk : k == k₁ with
    | false => rfl
    | true =>
      rw [beq_iff_eq] at hk
      subst hk
      -- twins differ under the coordinates alone
      have hsame : v₁ = v₂ := hvalue.resolve_left hlat |>.resolve_left hlng
      rw [hsame]

/-! ### The message -/

/-- The fields of a message beside the sealed payload. -/
def DoneMessage.plain (m : DoneMessage) : String × String × Option String :=
  (m.jobId, m.status, m.training)

/-- Sealing takes place, if it is to. -/
def StreamEnv.seals (env : StreamEnv) : Prop := env.wire.enabled = true → Returns env.wire.key

/-- Sealing fails on the key alone. -/
theorem returns_sealed {w : Wire} {payload : List (String × Json)} :
    Returns (w.sealed payload) ↔ Returns w.key := by
  unfold Wire.sealed
  exact returns_bind_of fun _ => returns_pure _

/-- What a message carries in plain text is what `publish` was given. -/
theorem publish_plain {jobId status payloadJson : String} {training : Option String}
    {m : DoneMessage} (h : publish env jobId status payloadJson training = .ok m) :
    m.plain = (jobId, status, env.fitting training) := by
  unfold publish at h
  dsimp only at h
  split at h
  all_goals
    obtain ⟨body, -, h⟩ := bind_eq_ok.mp h
    cases h
    rfl

/-- A message goes out unless it is to be sealed and cannot be. -/
theorem returns_publish {jobId status payloadJson : String} {training : Option String}
    (hseals : env.seals) : Returns (publish env jobId status payloadJson training) := by
  unfold publish
  dsimp only
  split
  · rename_i henabled
    apply (returns_bind_of fun _ => returns_pure _).mpr
    exact returns_sealed.mpr (hseals henabled)
  · -- without a key nothing is sealed
    exact returns_ok _

/-- What a message carries in plain text. -/
theorem doneMessage_ok {m : DoneMessage} (h : doneMessage env s = .ok m) :
    ∃ payload training, donePayload s = .ok payload ∧ trainingSignal env s = .ok training ∧
      m.plain = (s.jobId, payload.status.value, env.fitting training) := by
  obtain ⟨payload, hpayload, h⟩ := bind_eq_ok.mp h
  obtain ⟨training, htraining, h⟩ := bind_eq_ok.mp h
  exact ⟨payload, training, hpayload, htraining, publish_plain h⟩

/-- A message goes out when there is a payload, and a training signal or none to
    be told. -/
theorem doneMessage_returns {payload : JobDonePayload} {training : Option String}
    (hpayload : donePayload s = .ok payload) (htraining : trainingSignal env s = .ok training)
    (hseals : env.seals) : ∃ m, doneMessage env s = .ok m ∧
      m.plain = (s.jobId, payload.status.value, env.fitting training) := by
  obtain ⟨m, hm⟩ := returns_publish hseals
  refine ⟨m, ?_, publish_plain hm⟩
  rw [doneMessage, hpayload, htraining]
  exact hm

/-- The payloads of two states that differ in coordinates have the same
    status. -/
theorem donePayload_twin (h : StateTwin s s') {payload : JobDonePayload}
    (hpayload : donePayload s = .ok payload) :
    ∃ payload', donePayload s' = .ok payload' ∧ payload'.status = payload.status := by
  have hrest := h.rest
  have hplaces := h.places
  generalize s'.candidates = candidates at hrest
  generalize s'.places = places' at hrest hplaces
  subst hrest
  unfold donePayload at hpayload ⊢
  by_cases hfailed : s.failed = true
  · -- a failure has no places
    rw [if_pos hfailed] at hpayload
    rw [if_pos (by exact hfailed)]
    cases hpayload
    exact ⟨_, rfl, rfl⟩
  · rw [if_neg hfailed] at hpayload
    rw [if_neg (by exact hfailed)]
    obtain ⟨places, hitem, hpayload⟩ := bind_eq_ok.mp hpayload
    obtain ⟨order, horder, hpayload⟩ := bind_eq_ok.mp hpayload
    obtain ⟨legs, hlegs, hpayload⟩ := bind_eq_ok.mp hpayload
    cases hpayload
    -- the places were there to be published
    have hplaces₀ : s.places = some places := by
      cases hs : s.places with
      | none =>
        rw [hs] at hitem
        cases hitem
      | some p =>
        rw [hs] at hitem
        cases hitem
        rfl
    rw [hplaces₀] at hplaces
    cases hplaces
    dsimp only
    rw [horder, hlegs]
    exact ⟨_, rfl, rfl⟩

/-! ### The training signal -/

/-- The signal of a job is told: capturing is on, and the job came to a
    selection. -/
def Collects (env : StreamEnv) (s : AgentState) : Prop :=
  env.trainingCaptureEnabled = true ∧ s.failed = false ∧ s.selectionPath.getD "" ≠ ""

/-- The training signal when `usage` is what the calls cost. -/
def signalText (env : StreamEnv) (s : AgentState) (usage : List (String × Json)) : String :=
  dumpJson env.platform (.obj (env.signalHead s (s.selectionPath.getD "") ++
    ("candidates", .arr (trainingCandidates 0 (s.candidates.getD []))) :: env.signalTail s usage))

/-- The signal of a job that is told. -/
theorem trainingSignal_of_collects (h : Collects env s) : trainingSignal env s = (do
    let usage ← usageFields (s.llmUsage.getD [])
    return some (signalText env s usage)) := by
  obtain ⟨hcapture, hfailed, hpath⟩ := h
  unfold trainingSignal
  dsimp only
  rw [if_neg (by simp [hcapture, hfailed, hpath])]
  rfl

/-- Of any other job no signal is told. -/
theorem trainingSignal_of_not_collects (h : ¬ Collects env s) : trainingSignal env s = .ok none := by
  unfold trainingSignal
  dsimp only
  rw [if_pos]
  by_contra hnone
  apply h
  simp only [Bool.or_eq_true, not_or, Bool.not_eq_true, beq_eq_false_iff_ne] at hnone
  obtain ⟨⟨hcapture, hfailed⟩, hpath⟩ := hnone
  exact ⟨by simpa using hcapture, hfailed, hpath⟩

/-- The states of one request. -/
theorem StateTwin.request_eq (h : StateTwin s s') : s'.request = s.request := by rw [h.rest]

/-- As many candidates. -/
theorem length_candidates_twin (h : StateTwin s s') :
    (s'.candidates.getD []).length = (s.candidates.getD []).length := by
  have hcandidates := h.candidates
  generalize s.candidates = c at hcandidates
  generalize s'.candidates = c' at hcandidates
  cases hcandidates with
  | none => rfl
  | some hall => exact hall.length_eq.symm

/-- Places with the same identifiers. -/
theorem sourceIds_twin (h : StateTwin s s') : (s'.places.getD []).filterMap Place.sourceId =
    (s.places.getD []).filterMap Place.sourceId := by
  have hplaces := h.places
  generalize s.places = p at hplaces
  generalize s'.places = p' at hplaces
  cases hplaces with
  | none => rfl
  | some hall =>
    rw [Option.getD_some, Option.getD_some]
    induction hall with
    | nil => rfl
    | cons hp _ ih => rw [List.filterMap_cons, List.filterMap_cons, hp.sourceId_eq, ih]

/-- Everything in the signal but the candidates is the same. -/
theorem signalHead_twin (h : StateTwin s s') (path : String) :
    env.signalHead s' path = env.signalHead s path := by
  have hgrounded : s'.grounded = s.grounded := by rw [h.rest]
  rw [StreamEnv.signalHead, length_candidates_twin h, hgrounded]
  rfl

/-- What stands behind the candidates in the signal is the same. -/
theorem signalTail_twin (h : StateTwin s s') (usage : List (String × Json)) :
    env.signalTail s' usage = env.signalTail s usage := by
  have hscores : s'.scores = s.scores := by rw [h.rest]
  rw [StreamEnv.signalTail, sourceIds_twin h, h.request_eq, hscores]
  rfl

/-- The signals of two such states can differ in the candidates only. -/
theorem signalText_twin (h : StateTwin s s') (usage : List (String × Json)) :
    signalText env s' usage = dumpJson env.platform (.obj
      (env.signalHead s (s.selectionPath.getD "") ++
        ("candidates", .arr (trainingCandidates 0 (s'.candidates.getD []))) ::
          env.signalTail s usage)) := by
  have hpath : s'.selectionPath = s.selectionPath := by rw [h.rest]
  rw [signalText, hpath, signalHead_twin h, signalTail_twin h]

/-- The signal of both is told, or of neither. -/
theorem collects_twin (h : StateTwin s s') : Collects env s' ↔ Collects env s := by
  rw [h.rest]
  rfl

/-! ### Candidates without coordinates -/

/-- A dictionary with a coordinate in it. -/
def locates (m : List (String × Json)) : Prop := ∃ f ∈ m, f.1 = "lat" ∨ f.1 = "lng"

/-- Some candidate has a coordinate. -/
def Located (s : AgentState) : Prop := ∃ m, Json.obj m ∈ s.candidates.getD [] ∧ locates m

/-- Dictionaries without coordinates that differ in coordinates only are the same. -/
theorem eq_of_fieldTwin {m m' : List (String × Json)} (h : List.Forall₂ FieldTwin m m')
    (hno : ¬ locates m) : m' = m := by
  induction h with
  | nil => rfl
  | @cons f f' m m' hf _ ih =>
    rw [ih fun ⟨g, hg, hcoord⟩ => hno ⟨g, List.mem_cons_of_mem _ hg, hcoord⟩]
    obtain ⟨hkey, hlat | hlng | hvalue⟩ := hf
    · -- no entry is a coordinate
      exact absurd ⟨f, List.mem_cons_self .., Or.inl hlat⟩ hno
    · exact absurd ⟨f, List.mem_cons_self .., Or.inr hlng⟩ hno
    · rw [Prod.ext hkey.symm hvalue.symm]

/-- Without coordinates the candidates of two such states are the same. -/
theorem candidates_eq_of_not_located (h : StateTwin s s') (hno : ¬ Located s) :
    s'.candidates = s.candidates := by
  have hcandidates := h.candidates
  have hnone : ∀ m, Json.obj m ∈ s.candidates.getD [] → ¬ locates m :=
    fun m hm hlocates => hno ⟨m, hm, hlocates⟩
  generalize s.candidates = c at hcandidates hnone
  generalize s'.candidates = c' at hcandidates
  cases hcandidates with
  | none => rfl
  | @some l l' hall =>
    congr 1
    induction hall with
    | nil => rfl
    | @cons a b l l' hab _ ih =>
      rw [ih fun m hm => hnone m (List.mem_cons_of_mem _ hm)]
      cases hab with
      | same c => rfl
      -- a twin without coordinates is the candidate itself
      | located hm => rw [eq_of_fieldTwin hm (hnone _ (List.mem_cons_self ..))]

/-! ### Candidates moved elsewhere -/

/-- An entry with its coordinate set to `v`. -/
def relocateField (v : Json) (f : String × Json) : String × Json :=
  if f.1 = "lat" ∨ f.1 = "lng" then (f.1, v) else f

/-- A candidate with its coordinates set to `v`. -/
def relocate (v : Json) : Json → Json
  | .obj m => .obj (m.map (relocateField v))
  | c => c

/-- The state with the coordinates of all candidates set to `v`. -/
def AgentState.relocated (s : AgentState) (v : Json) : AgentState :=
  { s with candidates := s.candidates.map (·.map (relocate v)) }

/-- Setting a coordinate changes nothing else of an entry. -/
theorem fieldTwin_relocateField (v : Json) (f : String × Json) : FieldTwin f (relocateField v f) := by
  unfold relocateField
  split
  · rename_i hcoord
    exact ⟨rfl, hcoord.imp_right Or.inl⟩
  · exact ⟨rfl, Or.inr (Or.inr rfl)⟩

/-- A relocated candidate differs in its coordinates only. -/
theorem candidateTwin_relocate (v : Json) (c : Json) : CandidateTwin c (relocate v c) := by
  cases c with
  | obj m =>
    apply CandidateTwin.located
    rw [List.forall₂_map_right_iff]
    exact List.forall₂_same.mpr fun f _ => fieldTwin_relocateField v f
  | _ => exact CandidateTwin.same _

/-- A relocated state differs in its coordinates only. -/
theorem stateTwin_relocated (s : AgentState) (v : Json) : StateTwin s (s.relocated v) := by
  constructor
  · unfold AgentState.relocated
    cases s.candidates with
    | none => exact Option.Rel.none
    | some l =>
      apply Option.Rel.some
      rw [List.forall₂_map_right_iff]
      exact List.forall₂_same.mpr fun c _ => candidateTwin_relocate v c
  · unfold AgentState.relocated
    cases s.places with
    | none => exact Option.Rel.none
    | some l => exact Option.Rel.some (List.forall₂_same.mpr fun p _ => PlaceTwin.refl p)
  · rfl

/-- An entry keeps its key. -/
theorem relocateField_key (v : Json) (f : String × Json) : (relocateField v f).1 = f.1 := by
  unfold relocateField
  split <;> rfl

/-- A coordinate of a relocated candidate, if it has one. -/
theorem dictGet_relocateField {m : List (String × Json)} (v : Json) {k : String}
    (hk : k = "lat" ∨ k = "lng") : dictGet (m.map (relocateField v)) k =
      if k ∈ m.map (·.1) then v else .null := by
  induction m with
  | nil => rfl
  | cons f m ih =>
    have hpair : relocateField v f = (f.1, (relocateField v f).2) :=
      Prod.ext (relocateField_key v f) rfl
    unfold dictGet at ih ⊢
    rw [List.map_cons, hpair, List.lookup_cons]
    by_cases hf : k = f.1
    · -- the first entry under the key decides
      have hvalue : (relocateField v f).2 = v := by
        rw [relocateField, if_pos (hf ▸ hk)]
      rw [hf, beq_self_eq_true, hvalue]
      simp
    · -- the rest of the dictionary has it, or nothing
      rw [beq_false_of_ne hf]
      dsimp only
      have hmem : k ∈ (f :: m).map (·.1) ↔ k ∈ m.map (·.1) := by
        rw [List.map_cons, List.mem_cons]
        exact or_iff_right hf
      rw [ih, if_congr hmem rfl rfl]

/-! ### Layout of the signal -/

section Layout

variable {pf : Platform}

/-- Two values written in the same length. -/
def SameLayout (pf : Platform) (v w : Json) : Prop :=
  (dumpJson pf v).toList.length = (dumpJson pf w).toList.length

/-- A value is as long as itself. -/
theorem SameLayout.refl (v : Json) : SameLayout pf v v := rfl

/-- How an entry of a dictionary is written. -/
def entryChars (pf : Platform) (f : String × Json) : List Char :=
  (dumpString f.1 ++ ":").toList ++ (dumpJson pf f.2).toList

/-- A dictionary is written entry by entry. -/
theorem dumpFields_eq (m : List (String × Json)) :
    (dumpFields pf m).map String.toList = m.map (entryChars pf) := by
  induction m with
  | nil => rfl
  | cons f m ih =>
    rw [dumpFields, List.map_cons, List.map_cons, ih, String.toList_append]
    rfl

/-- A list is written element by element. -/
theorem dumpElems_eq (l : List Json) :
    (dumpElems pf l).map String.toList = l.map fun v => (dumpJson pf v).toList := by
  induction l with
  | nil => rfl
  | cons v l ih => rw [dumpElems, List.map_cons, List.map_cons, ih]

/-- How a dictionary is written. -/
theorem toList_dump_obj (m : List (String × Json)) : (dumpJson pf (.obj m)).toList =
    "\x7b".toList ++ ",".toList.intercalate (m.map (entryChars pf)) ++ "\x7d".toList := by
  rw [dumpJson, String.toList_append, String.toList_append, String.toList_intercalate, dumpFields_eq]

/-- How a list is written. -/
theorem toList_dump_arr (l : List Json) : (dumpJson pf (.arr l)).toList =
    "[".toList ++ ",".toList.intercalate (l.map fun v => (dumpJson pf v).toList) ++ "]".toList := by
  rw [dumpJson, String.toList_append, String.toList_append, String.toList_intercalate, dumpElems_eq]

/-- Entries under the same keys, written in the same length. -/
def EntryLayout (pf : Platform) (f g : String × Json) : Prop :=
  f.1 = g.1 ∧ SameLayout pf f.2 g.2

/-- Such entries take as many characters. -/
theorem EntryLayout.length_eq {f g : String × Json} (h : EntryLayout pf f g) :
    (entryChars pf f).length = (entryChars pf g).length := by
  rw [entryChars, entryChars, h.1, List.length_append, List.length_append, h.2]

/-- Dictionaries of such entries take as many characters entry by entry. -/
theorem entries_length_eq {m m' : List (String × Json)} (h : List.Forall₂ (EntryLayout pf) m m') :
    List.Forall₂ (fun a b => a.length = b.length) (m.map (entryChars pf))
      (m'.map (entryChars pf)) := by
  rw [List.forall₂_map_left_iff, List.forall₂_map_right_iff]
  exact h.imp fun _ _ hentry => hentry.length_eq

/-- Lists of such elements take as many characters element by element. -/
theorem elems_length_eq {l l' : List Json} (h : List.Forall₂ (SameLayout pf) l l') :
    List.Forall₂ (fun a b => a.length = b.length) (l.map fun v => (dumpJson pf v).toList)
      (l'.map fun v => (dumpJson pf v).toList) := by
  rw [List.forall₂_map_left_iff, List.forall₂_map_right_iff]
  exact h

/-- Dictionaries of such entries are written in one length. -/
theorem sameLayout_obj {m m' : List (String × Json)} (h : List.Forall₂ (EntryLayout pf) m m') :
    SameLayout pf (.obj m) (.obj m') := by
  unfold SameLayout
  rw [toList_dump_obj, toList_dump_obj]
  simp only [List.length_append, length_intercalate_eq (entries_length_eq h)]

/-- Lists of such elements are written in one length. -/
theorem sameLayout_arr {l l' : List Json} (h : List.Forall₂ (SameLayout pf) l l') :
    SameLayout pf (.arr l) (.arr l') := by
  unfold SameLayout
  rw [toList_dump_arr, toList_dump_arr]
  simp only [List.length_append, length_intercalate_eq (elems_length_eq h)]

/-- Dictionaries of one length written alike have their values written alike. -/
theorem dump_obj_inj {m m' : List (String × Json)} (h : List.Forall₂ (EntryLayout pf) m m')
    (heq : dumpJson pf (.obj m) = dumpJson pf (.obj m')) :
    List.Forall₂ (fun f g => dumpJson pf f.2 = dumpJson pf g.2) m m' := by
  have hchars := congrArg String.toList heq
  rw [toList_dump_obj, toList_dump_obj] at hchars
  -- entries of equal lengths can be told apart in the text
  have hentries := intercalate_inj (entries_length_eq h)
    (List.append_cancel_left (List.append_cancel_right hchars))
  clear heq hchars
  induction h with
  | nil => exact List.Forall₂.nil
  | cons hentry _ ih =>
    rw [List.map_cons, List.map_cons, List.cons.injEq] at hentries
    apply List.Forall₂.cons _ (ih hentries.2)
    have hvalue := hentries.1
    rw [entryChars, entryChars, hentry.1] at hvalue
    exact String.toList_inj.mp (List.append_cancel_left hvalue)

/-- Lists of one length written alike have their elements written alike. -/
theorem dump_arr_inj {l l' : List Json} (h : List.Forall₂ (SameLayout pf) l l')
    (heq : dumpJson pf (.arr l) = dumpJson pf (.arr l')) :
    List.Forall₂ (fun v w => dumpJson pf v = dumpJson pf w) l l' := by
  have hchars := congrArg String.toList heq
  rw [toList_dump_arr, toList_dump_arr] at hchars
  have helems := intercalate_inj (elems_length_eq h)
    (List.append_cancel_left (List.append_cancel_right hchars))
  rw [← List.forall₂_eq_eq_eq, List.forall₂_map_left_iff, List.forall₂_map_right_iff] at helems
  exact helems.imp fun _ _ hchars => String.toList_inj.mp hchars

/-- The two digits are written in one length. -/
theorem sameLayout_int : SameLayout pf (.int 0) (.int 1) := by
  unfold SameLayout
  simp only [dumpJson]
  decide

/-- They are written differently. -/
theorem dump_int_ne : dumpJson pf (.int 0) ≠ dumpJson pf (.int 1) := by
  simp only [dumpJson]
  decide

/-- The candidate with its coordinates set to a digit. -/
def relocatedFields (digit : Int) (m : List (String × Json)) : List (String × Json) :=
  m.map (relocateField (.int digit))

/-- Under a coordinate, the two relocated candidates are written in one length. -/
theorem sameLayout_coordinate (m : List (String × Json)) {k : String} (hk : k = "lat" ∨ k = "lng") :
    SameLayout pf (dictGet (relocatedFields 0 m) k) (dictGet (relocatedFields 1 m) k) := by
  unfold relocatedFields
  rw [dictGet_relocateField _ hk, dictGet_relocateField _ hk]
  split
  · exact sameLayout_int
  · -- the candidate has no such coordinate
    exact SameLayout.refl _

/-- Under every other key they are the same. -/
theorem dictGet_relocatedFields (m : List (String × Json)) {k : String} (hlat : k ≠ "lat")
    (hlng : k ≠ "lng") : dictGet (relocatedFields 0 m) k = dictGet (relocatedFields 1 m) k := by
  have hsame : ∀ digit, dictGet (relocatedFields digit m) k = dictGet m k := by
    intro digit
    apply dictGet_of_fieldTwin _ hlat hlng
    unfold relocatedFields
    rw [List.forall₂_map_right_iff]
    exact List.forall₂_same.mpr fun f _ => fieldTwin_relocateField _ f
  rw [hsame, hsame]

/-- The two relocated candidates enter the signal in one length. -/
theorem entryLayout_candidate (i : Nat) (m : List (String × Json)) :
    ∃ fields fields', trainingCandidate i (relocatedFields 0 m) = .obj fields ∧
      trainingCandidate i (relocatedFields 1 m) = .obj fields' ∧
      List.Forall₂ (EntryLayout pf) fields fields' ∧
      (locates m → ¬ List.Forall₂ (fun f g => dumpJson pf f.2 = dumpJson pf g.2) fields fields') := by
  have hother : ∀ k, k ≠ "lat" → k ≠ "lng" → EntryLayout pf
      (k, dictGet (relocatedFields 0 m) k) (k, dictGet (relocatedFields 1 m) k) := by
    intro k hlat hlng
    rw [dictGet_relocatedFields m hlat hlng]
    exact ⟨rfl, SameLayout.refl _⟩
  refine ⟨_, _, rfl, rfl, ?_, ?_⟩
  · -- seven fields, of which only the coordinates were written over
    apply List.Forall₂.cons ⟨rfl, SameLayout.refl _⟩
    apply List.Forall₂.cons (hother _ (by decide) (by decide))
    apply List.Forall₂.cons (hother _ (by decide) (by decide))
    apply List.Forall₂.cons (hother _ (by decide) (by decide))
    apply List.Forall₂.cons (hother _ (by decide) (by decide))
    apply List.Forall₂.cons ⟨rfl, sameLayout_coordinate m (Or.inl rfl)⟩
    apply List.Forall₂.cons ⟨rfl, sameLayout_coordinate m (Or.inr rfl)⟩
    exact List.Forall₂.nil
  · -- one of the coordinates is there, and written as the digit it was set to
    rintro ⟨f, hf, hcoord⟩ hall
    simp only [List.forall₂_cons] at hall
    obtain ⟨-, -, -, -, -, hlat, hlng, -⟩ := hall
    have hmem : f.1 ∈ m.map (·.1) := List.mem_map_of_mem hf
    unfold relocatedFields at hlat hlng
    rw [dictGet_relocateField _ (Or.inl rfl), dictGet_relocateField _ (Or.inl rfl)] at hlat
    rw [dictGet_relocateField _ (Or.inr rfl), dictGet_relocateField _ (Or.inr rfl)] at hlng
    rcases hcoord with hcoord | hcoord
    · rw [if_pos (hcoord ▸ hmem), if_pos (hcoord ▸ hmem)] at hlat
      exact dump_int_ne hlat
    · rw [if_pos (hcoord ▸ hmem), if_pos (hcoord ▸ hmem)] at hlng
      exact dump_int_ne hlng

/-- The relocated candidates enter the signal in one length, and differ there if
    one of them had a coordinate. -/
theorem sameLayout_candidates (i : Nat) (l : List Json) :
    List.Forall₂ (SameLayout pf) (trainingCandidates i (l.map (relocate (.int 0))))
      (trainingCandidates i (l.map (relocate (.int 1)))) ∧
    ((∃ m, Json.obj m ∈ l ∧ locates m) →
      ¬ List.Forall₂ (fun v w => dumpJson pf v = dumpJson pf w)
        (trainingCandidates i (l.map (relocate (.int 0))))
        (trainingCandidates i (l.map (relocate (.int 1))))) := by
  induction l generalizing i with
  | nil =>
    refine ⟨List.Forall₂.nil, ?_⟩
    rintro ⟨m, hm, -⟩
    cases hm
  | cons c l ih =>
    obtain ⟨hlayout, hdiffer⟩ := ih (i + 1)
    cases c with
    | obj m =>
      -- an object becomes an entry; anything else is left out
      obtain ⟨fields, fields', h₀, h₁, hentries, hne⟩ := entryLayout_candidate i m
      simp only [List.map_cons, relocate, trainingCandidates]
      change List.Forall₂ _ (trainingCandidate i (relocatedFields 0 m) :: _)
        (trainingCandidate i (relocatedFields 1 m) :: _) ∧ (_ →
          ¬ List.Forall₂ _ (trainingCandidate i (relocatedFields 0 m) :: _)
            (trainingCandidate i (relocatedFields 1 m) :: _))
      rw [h₀, h₁]
      refine ⟨List.Forall₂.cons (sameLayout_obj hentries) hlayout, ?_⟩
      rintro ⟨m', hm', hlocates⟩ hall
      rw [List.forall₂_cons] at hall
      rcases List.mem_cons.mp hm' with hhere | hlater
      · cases hhere
        exact hne hlocates (dump_obj_inj hentries hall.1)
      · exact hdiffer ⟨m', hlater, hlocates⟩ hall.2
    | _ =>
      refine ⟨hlayout, ?_⟩
      rintro ⟨m', hm', hlocates⟩
      rcases List.mem_cons.mp hm' with hhere | hlater
      · cases hhere
      · exact hdiffer ⟨m', hlater, hlocates⟩

/-- Dictionaries that differ in one list only, of one length, are written alike
    only if its elements are. -/
theorem dump_list_inj {k : String} {head tail : List (String × Json)} {l l' : List Json}
    (h : List.Forall₂ (SameLayout pf) l l')
    (heq : dumpJson pf (.obj (head ++ (k, .arr l) :: tail)) =
      dumpJson pf (.obj (head ++ (k, .arr l') :: tail))) :
    List.Forall₂ (fun v w => dumpJson pf v = dumpJson pf w) l l' := by
  have hrefl : ∀ m : List (String × Json), List.Forall₂ (EntryLayout pf) m m :=
    fun m => List.forall₂_same.mpr fun _ _ => ⟨rfl, SameLayout.refl _⟩
  have hlayout : List.Forall₂ (EntryLayout pf) (head ++ (k, .arr l) :: tail)
      (head ++ (k, .arr l') :: tail) := by
    apply List.rel_append (hrefl head)
    exact List.Forall₂.cons ⟨rfl, sameLayout_arr h⟩ (hrefl tail)
  have hlater := List.forall₂_drop head.length (dump_obj_inj hlayout heq)
  rw [List.drop_left, List.drop_left, List.forall₂_cons] at hlater
  exact dump_arr_inj h hlater.1

/-- The signals of the two relocated states are written differently if a
    candidate had a coordinate. -/
theorem signalText_relocated_ne {usage : List (String × Json)} (h : Located s) :
    signalText env (s.relocated (.int 0)) usage ≠ signalText env (s.relocated (.int 1)) usage := by
  intro heq
  have hcandidates : ∀ v, (s.relocated v).candidates.getD [] =
      (s.candidates.getD []).map (relocate v) := by
    intro v
    unfold AgentState.relocated
    cases s.candidates <;> rfl
  obtain ⟨hlayout, hdiffer⟩ := sameLayout_candidates 0 (s.candidates.getD [])
  rw [signalText_twin (stateTwin_relocated s _), signalText_twin (stateTwin_relocated s _),
    hcandidates, hcandidates] at heq
  exact hdiffer h (dump_list_inj hlayout heq)

end Layout

/-! ### What the plain fields tell -/

/-- No state that differs in coordinates only has other plain fields in its
    message. -/
def Conceals (env : StreamEnv) (s : AgentState) : Prop :=
  ∀ s', StateTwin s s' → ∀ m m', doneMessage env s = .ok m → doneMessage env s' = .ok m' →
    m'.plain = m.plain

/-- The training signal is told, has coordinates in it, and is short enough to
    be sent for some choice of them. -/
structure Exposes (env : StreamEnv) (s : AgentState) : Prop where
  collects : Collects env s
  payload : Returns (donePayload s)
  seals : env.seals
  located : Located s
  fits : ∃ usage, usageFields (s.llmUsage.getD []) = .ok usage ∧ ∃ s', StateTwin s s' ∧
    utf8Length (signalText env s' usage) ≤ trainingFieldMaxBytes

/-- A signal is never empty. -/
theorem signalText_ne_empty {usage : List (String × Json)} : signalText env s usage ≠ "" := by
  intro hempty
  have hchars := congrArg String.toList hempty
  rw [signalText, toList_dump_obj] at hchars
  cases hchars

/-- A signal is sent as it is, or not at all. -/
theorem fitting_eq_some {text sent : String} (h : env.fitting (some text) = some sent) :
    sent = text := by
  unfold StreamEnv.fitting at h
  split at h
  · rw [Option.filter_some] at h
    split at h
    · exact (Option.some.inj h).symm
    · cases h
  · cases h

/-- A signal that is short enough is sent. -/
theorem fitting_of_fits (hcapture : env.trainingCaptureEnabled = true)
    {usage : List (String × Json)}
    (h : utf8Length (signalText env s usage) ≤ trainingFieldMaxBytes) :
    env.fitting (some (signalText env s usage)) = some (signalText env s usage) := by
  rw [StreamEnv.fitting, if_pos hcapture, Option.filter_some, if_pos]
  simp [signalText_ne_empty, h]

/-- A state whose signal has coordinates in it and can be sent is told apart
    from another. -/
theorem not_conceals_of_exposes (h : Exposes env s) : ¬ Conceals env s := by
  intro hconceals
  obtain ⟨hcollects, ⟨payload, hpayload⟩, hseals, hlocated, usage, husage, s₁, htwin, hfits⟩ := h
  -- every variant of the state sends what the state sends
  have hsent : ∀ s', StateTwin s s' → env.fitting (some (signalText env s' usage)) =
      env.fitting (some (signalText env s usage)) := by
    intro s' h'
    have husage' : usageFields (s'.llmUsage.getD []) = .ok usage := by
      rw [h'.rest]
      exact husage
    obtain ⟨payload', hpayload', -⟩ := donePayload_twin h' hpayload
    have htraining : trainingSignal env s = .ok (some (signalText env s usage)) := by
      rw [trainingSignal_of_collects hcollects, husage]
      rfl
    have htraining' : trainingSignal env s' = .ok (some (signalText env s' usage)) := by
      rw [trainingSignal_of_collects ((collects_twin h').mpr hcollects), husage']
      rfl
    obtain ⟨m, hm, hplain⟩ := doneMessage_returns hpayload htraining hseals
    obtain ⟨m', hm', hplain'⟩ := doneMessage_returns hpayload' htraining' hseals
    have hsame := hconceals s' h' m m' hm hm'
    rw [hplain, hplain'] at hsame
    exact (Prod.mk.inj (Prod.mk.inj hsame).2).2
  -- one variant is short enough to be sent, so the state's own signal is that text
  have hsome : env.fitting (some (signalText env s usage)) = some (signalText env s₁ usage) :=
    (hsent s₁ htwin).symm.trans (fitting_of_fits hcollects.1 hfits)
  -- but two variants have different signals
  apply signalText_relocated_ne hlocated
  rw [← fitting_eq_some ((hsent _ (stateTwin_relocated s (.int 0))).trans hsome),
    ← fitting_eq_some ((hsent _ (stateTwin_relocated s (.int 1))).trans hsome)]

/-- A state differs from itself in nothing. -/
theorem StateTwin.refl (s : AgentState) : StateTwin s s := by
  constructor
  · cases s.candidates with
    | none => exact Option.Rel.none
    | some l => exact Option.Rel.some (List.forall₂_same.mpr fun c _ => CandidateTwin.same c)
  · cases s.places with
    | none => exact Option.Rel.none
    | some l => exact Option.Rel.some (List.forall₂_same.mpr fun p _ => PlaceTwin.refl p)
  · rfl

/-- Where a message goes out, it could be sealed if it was to be. -/
theorem seals_of_doneMessage {m : DoneMessage} (h : doneMessage env s = .ok m) : env.seals := by
  obtain ⟨payload, -, h⟩ := bind_eq_ok.mp h
  obtain ⟨training, -, h⟩ := bind_eq_ok.mp h
  intro henabled
  unfold publish at h
  dsimp only at h
  rw [if_pos henabled] at h
  obtain ⟨body, hbody, -⟩ := bind_eq_ok.mp h
  exact returns_sealed.mp ⟨body, hbody⟩

/-- The plain fields of a message tell nothing of the coordinates exactly when
    no training signal with coordinates in it can be sent. -/
theorem conceals_iff (env : StreamEnv) (s : AgentState) : Conceals env s ↔ ¬ Exposes env s := by
  refine ⟨fun h hexposes => not_conceals_of_exposes hexposes h, fun hnot => ?_⟩
  intro s' htwin m m' hm hm'
  obtain ⟨payload, training, hpayload, htraining, hplain⟩ := doneMessage_ok hm
  obtain ⟨payload', training', hpayload', htraining', hplain'⟩ := doneMessage_ok hm'
  obtain ⟨payload₁, hpayload₁, hstatus⟩ := donePayload_twin htwin hpayload
  cases hpayload₁.symm.trans hpayload'
  have hjob : s'.jobId = s.jobId := by rw [htwin.rest]
  -- job and status are the same; what is left is the signal
  suffices hfitting : env.fitting training' = env.fitting training by
    rw [hplain, hplain', hjob, hstatus, hfitting]
  by_cases hcollects : Collects env s
  swap
  · -- no signal is told of either
    rw [trainingSignal_of_not_collects hcollects] at htraining
    rw [trainingSignal_of_not_collects (mt (collects_twin htwin).mp hcollects)] at htraining'
    cases htraining
    cases htraining'
    rfl
  rw [trainingSignal_of_collects hcollects] at htraining
  rw [trainingSignal_of_collects ((collects_twin htwin).mpr hcollects)] at htraining'
  obtain ⟨usage, husage, htraining⟩ := bind_eq_ok.mp htraining
  obtain ⟨usage', husage', htraining'⟩ := bind_eq_ok.mp htraining'
  cases htraining
  cases htraining'
  have hllm : s'.llmUsage = s.llmUsage := by rw [htwin.rest]
  rw [hllm, husage] at husage'
  cases husage'
  -- without a coordinate all variants have one signal
  by_cases hlocated : Located s
  swap
  · rw [signalText_twin htwin, candidates_eq_of_not_located htwin hlocated]
    rfl
  -- neither of the two signals is short enough
  have hlong : ∀ s', StateTwin s s' → env.fitting (some (signalText env s' usage)) = none := by
    intro s₁ h₁
    rw [StreamEnv.fitting, if_pos hcollects.1, Option.filter_some, if_neg]
    intro hfits
    rw [Bool.and_eq_true, decide_eq_true_eq] at hfits
    exact hnot ⟨hcollects, ⟨payload, hpayload⟩, seals_of_doneMessage hm, hlocated, usage, husage,
      s₁, h₁, hfits.2⟩
  rw [hlong s' htwin, hlong s (StateTwin.refl s)]

/-! ### A job that tells -/

/-- A wire with a key, on which sealing is the identity. -/
def sampleWire : Wire where
  platform := samplePlatform
  wireKey := "AAAAAAAAAAAAAAAAAAAAAAAAAAAAAAAAAAAAAAAAAAA="
  encrypt _ _ plaintext _ := plaintext
  decrypt _ _ ciphertext _ := .ok ciphertext
  loads _ := .ok .null
  now := 0
  iv := []

/-- A stream on that wire that captures training signals. -/
def sampleStream : StreamEnv where
  platform := samplePlatform
  settings := sampleSettings
  wire := sampleWire
  trainingCaptureEnabled := true
  geminiModel := "gemini"
  modelDumpJson _ := ""
  numberKey _ := ""

/-- What the sample trip hands to `publish_done`. -/
def sampleSelected : AgentState := (ainvoke sampleEnv "j" (sampleTrip .init)).2.state

/-- The state a job that ends ends in came to `publish_done`. -/
theorem comes_publishDone {env : Env} {jobId : String} {req : AgentRequest}
    (h : (ainvoke env jobId req).1 = .ok ()) :
    Comes env jobId req .publishDone (ainvoke env jobId req).2.state := by
  obtain ⟨n, t, hreaches, hnode, hlast⟩ :=
    StateGraph.run_sound StateGraph.Reaches.entry (ainvoke_run env jobId req)
  -- only one node has no edge out
  have hend : n = .publishDone := by
    have hroute : edge (ainvoke env jobId req).2.state n = none := hlast h
    cases n <;> first | rfl | cases hroute
  subst hend
  have hstate : (ainvoke env jobId req).2.state = t.state := by
    have hpublish : publishDone t = ((ainvoke env jobId req).1, (ainvoke env jobId req).2) := hnode
    unfold publishDone at hpublish
    split at hpublish <;> rw [← (Prod.mk.inj hpublish).2]
  rw [hstate]
  exact ⟨t, hreaches, rfl⟩

/-- Whether a candidate has a coordinate. -/
def hasCoordinate : Json → Bool
  | .obj m => m.any fun f => f.1 == "lat" || f.1 == "lng"
  | _ => false

/-- The check finds a candidate with a coordinate. -/
theorem located_of_hasCoordinate (h : (s.candidates.getD []).any hasCoordinate = true) :
    Located s := by
  obtain ⟨c, hc, hcoord⟩ := List.any_eq_true.mp h
  cases c with
  | obj m =>
    obtain ⟨f, hf, hkey⟩ := List.any_eq_true.mp hcoord
    rw [Bool.or_eq_true, beq_iff_eq, beq_iff_eq] at hkey
    exact ⟨m, hc, f, hf, hkey⟩
  | _ => cases hcoord

/-- The calls of the sample trip report no usage. -/
theorem sampleSelected_usage : sampleSelected.llmUsage.getD [] = [] :=
  List.isEmpty_iff.mp (by decide +kernel)

/-- With the wire key set, the training signal of a job tells where its
    candidates are. -/
theorem training_tells_coordinates : sampleStream.wire.enabled = true ∧
    ∃ s, Comes sampleEnv "j" (sampleTrip .init) .publishDone s ∧ ¬ Conceals sampleStream s := by
  refine ⟨rfl, sampleSelected, comes_publishDone ?_, not_conceals_of_exposes ?_⟩
  · have hends : (ainvoke sampleEnv "j" (sampleTrip .init)).1.toOption.isSome = true := by
      decide +kernel
    obtain ⟨u, hu⟩ := returns_of_isSome hends
    exact hu
  constructor
  · exact ⟨rfl, by decide +kernel, by decide +kernel⟩
  · exact returns_of_isSome (by decide +kernel)
  · exact fun _ => returns_of_isSome (by decide +kernel)
  · exact located_of_hasCoordinate (by decide +kernel)
  · refine ⟨[], ?_, sampleSelected, StateTwin.refl _, by decide +kernel⟩
    rw [sampleSelected_usage]
    rfl

end MapServiceAgent.Native
