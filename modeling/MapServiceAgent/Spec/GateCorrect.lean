import MapServiceAgent.ForStd.Except
import MapServiceAgent.Native.JsonText
import MapServiceAgent.Native.RecommendRequest
import MapServiceAgent.Spec.DoneStreamCorrect

/-!
# Places come out of the envelope

With a wire key set, a request keeps the places of its envelope or none, and
whatever it names in plain text makes no difference. The gate fails where
opening the envelope raises what it does not catch, and nowhere else.

## Key results

- `modelValidate_dump`: a dumped request reads back as itself, with the places
  put in
- `openSeal_raised`: what opening an envelope lets through
- `gate_iff`: when the gate does what it is for
-/

namespace MapServiceAgent.Native

variable {w : Wire} {req : RecommendRequest}

/-! ### What the gate is for -/

/-- The answer is HTTP 400. -/
def TurnedAway (answer : Except Refusal RecommendRequest) : Prop :=
  ∃ detail, answer = .error (.http 400 detail)

/-- The request with these places, and no envelope. -/
def RecommendRequest.withPlaces (req : RecommendRequest) (places : List SelectedPlace)
    (h : (1 ≤ places.length && places.length ≤ 10) = true) : RecommendRequest :=
  { req with places := some places, places_valid := h, loc := none, loc_valid := rfl }

/-- What may come out for a request: itself, when it names no place at all, or
    itself with the places of its envelope. -/
inductive Resolved (w : Wire) (req : RecommendRequest) : RecommendRequest → Prop where
  | none (hloc : req.loc.getD "" = "") (hplaces : req.places = none) : Resolved w req req
  | opened {payload : List (String × Json)} {l : List Json} {places : List SelectedPlace}
    (hopen : w.openSeal (req.loc.getD "") = .ok payload) (hlist : dictGet payload "places" = .arr l)
    (hread : readPlaces w.platform (some (.arr l)) = some (some places))
    (hrange : ∀ p ∈ places, NumberIn 33 43 p.lat ∧ NumberIn 124 132 p.lng)
    (hcount : (1 ≤ places.length && places.length ≤ 10) = true) :
    Resolved w req (req.withPlaces places hcount)

/-- The same request, but for the places in plain text. -/
def SameButPlaces (req req' : RecommendRequest) : Prop :=
  ∃ places h, req' = { req with places := places, places_valid := h }

/-- The gate does what it is for: it refuses or resolves, places in plain text
    make no difference beside an envelope, and are refused without one. -/
structure Gated (w : Wire) (req : RecommendRequest) : Prop where
  answer : TurnedAway (resolvePlaces w req) ∨
    ∃ resolved, resolvePlaces w req = .ok resolved ∧ Resolved w req resolved
  blind : req.loc.getD "" ≠ "" → ∀ req', SameButPlaces req req' →
    resolvePlaces w req' = resolvePlaces w req
  sealedOnly : req.loc.getD "" = "" → req.places.getD [] ≠ [] → TurnedAway (resolvePlaces w req)

/-- An envelope that opens as it should: its plaintext decodes or is no JSON, and
    it was issued at no integer beyond the doubles. -/
structure EnvelopeSound (w : Wire) (loc : String) : Prop where
  decodes : ∀ iv ciphertext plain e, sealParts loc = some (iv, ciphertext) →
    w.plaintext iv ciphertext = some plain → w.loads plain = .error e → isJsonDecodeError e = true
  issued : ∀ iv ciphertext plain payload i, sealParts loc = some (iv, ciphertext) →
    w.plaintext iv ciphertext = some plain → w.loads plain = .ok (.obj payload) →
    dictGet payload "iat" = .int i → Returns (floatOfInt i)

/-! ### Reading a dumped request -/

/-- A list of places that can be read is read as given. -/
theorem readPlaces_arr {pf : Platform} {l : List Json} {read : Option (List SelectedPlace)}
    (h : readPlaces pf (some (.arr l)) = some read) : ∃ places, read = some places := by
  obtain ⟨places, -, rfl⟩ := Option.map_eq_some_iff.mp h
  exact ⟨places, rfl⟩

/-- A dumped request reads back as itself, with the places put in. -/
theorem modelValidate_dump {pf : Platform} {l : List Json} {resolved : RecommendRequest} :
    { req.modelDump with places := some (.arr l), loc := none }.modelValidate pf = some resolved ↔
      ∃ places h, readPlaces pf (some (.arr l)) = some (some places) ∧
        resolved = req.withPlaces places h := by
  unfold RequestDump.modelValidate
  dsimp only
  cases hread : readPlaces pf (some (.arr l)) with
  | none =>
    -- the places do not read
    apply iff_of_false
    · intro h
      cases h
    · rintro ⟨places, h, hplaces, -⟩
      cases hplaces
  | some read =>
    obtain ⟨places, rfl⟩ := readPlaces_arr hread
    by_cases hcount : (1 ≤ places.length && places.length ≤ 10) = true
    · -- the other fields carry the checks they passed before
      have hvalid : lengthIn 1 20 req.modelDump.province = true ∧
          lengthIn 1 20 req.modelDump.city = true ∧
          req.modelDump.exclude.all (fun l => l.all (lengthIn 1 64) && l.length ≤ 50) = true ∧
          (some places).all (fun l => 1 ≤ l.length && l.length ≤ 10) = true ∧
          req.modelDump.scheduleId.all (lengthIn 0 64) = true ∧
          (none : Option String).all (lengthIn 0 8192) = true :=
        ⟨req.province_valid, req.city_valid, req.exclude_valid, hcount, req.scheduleId_valid, rfl⟩
      rw [Option.bind_eq_bind, Option.bind_some, dif_pos hvalid]
      constructor
      · intro h
        exact ⟨places, hcount, rfl, (Option.some.inj h).symm⟩
      · rintro ⟨places', h', hplaces, rfl⟩
        cases hplaces
        rfl
    · -- too few places, or too many
      rw [Option.bind_eq_bind, Option.bind_some, dif_neg fun h => hcount h.2.2.2.1]
      apply iff_of_false
      · intro h
        cases h
      · rintro ⟨places', h', hplaces, -⟩
        cases hplaces
        exact hcount h'

/-! ### Opening an envelope -/

/-- An envelope raises something else than `SealError` when its plaintext fails
    to decode in another way than as JSON, or was issued at an integer no double
    holds. -/
theorem openSeal_raised {token : String} {e : PyExn} (h : w.openSeal token = .error (.raised e)) :
    ∃ iv ciphertext plain, sealParts token = some (iv, ciphertext) ∧
      w.plaintext iv ciphertext = some plain ∧
      ((w.loads plain = .error e ∧ isJsonDecodeError e = false) ∨
        ∃ payload i, w.loads plain = .ok (.obj payload) ∧ dictGet payload "iat" = .int i ∧
          floatOfInt i = .error e) := by
  unfold Wire.openSeal at h
  split at h
  · cases h
  rename_i iv ciphertext hparts
  split at h
  · cases h
  rename_i plain hplain
  refine ⟨iv, ciphertext, plain, hparts, hplain, ?_⟩
  split at h
  · rename_i e' hloads
    split at h
    · cases h
    · -- `json.loads` raised something that is no decoding error
      rename_i hdecode
      cases h
      exact Or.inl ⟨hloads, by simpa using hdecode⟩
  · rename_i payload hloads
    apply Or.inr
    cases hage : sealAge w.now (dictGet payload "iat") with
    | ok age =>
      rw [hage] at h
      dsimp only [bind, Except.bind] at h
      split at h <;> cases h
    | error failure =>
      rw [hage] at h
      cases h
      unfold sealAge at hage
      split at hage
      · -- the only other exception is the overflow of an integer `iat`
        rename_i i hissued
        split at hage
        · cases hage
        · rename_i e' hfloat
          cases hage
          exact ⟨payload, i, hloads, hissued, hfloat⟩
      · cases hage
      · cases hage
  · cases h

/-- And then it does. -/
theorem openSeal_of_loads {token : String} {iv ciphertext : List Char} {plain : List UInt8}
    {e : PyExn} (hparts : sealParts token = some (iv, ciphertext))
    (hplain : w.plaintext iv ciphertext = some plain) (hloads : w.loads plain = .error e)
    (hdecode : isJsonDecodeError e = false) : w.openSeal token = .error (.raised e) := by
  unfold Wire.openSeal
  rw [hparts]
  dsimp only
  rw [hplain]
  dsimp only
  rw [hloads]
  dsimp only
  rw [if_neg (by simp [hdecode])]

/-- What holds an object opens, unless its age is against it. -/
theorem openSeal_of_obj {token : String} {iv ciphertext : List Char} {plain : List UInt8}
    {payload : List (String × Json)} (hparts : sealParts token = some (iv, ciphertext))
    (hplain : w.plaintext iv ciphertext = some plain) (hloads : w.loads plain = .ok (.obj payload)) :
    w.openSeal token = (do
      let age ← sealAge w.now (dictGet payload "iat")
      if maxAgeSeconds < age ∨ age < -60 then throw .sealError else return payload) := by
  unfold Wire.openSeal
  rw [hparts]
  dsimp only
  rw [hplain]
  dsimp only
  rw [hloads]

/-- A date no double holds makes the opening raise. -/
theorem openSeal_of_issued {token : String} {iv ciphertext : List Char} {plain : List UInt8}
    {payload : List (String × Json)} {i : Int} {e : PyExn}
    (hparts : sealParts token = some (iv, ciphertext))
    (hplain : w.plaintext iv ciphertext = some plain) (hloads : w.loads plain = .ok (.obj payload))
    (hissued : dictGet payload "iat" = .int i) (hfloat : floatOfInt i = .error e) :
    w.openSeal token = .error (.raised e) := by
  have hage : sealAge w.now (dictGet payload "iat") = .error (.raised e) := by
    rw [hissued]
    unfold sealAge
    dsimp only
    rw [hfloat]
  rw [openSeal_of_obj hparts hplain hloads, hage]
  rfl

/-! ### The gate -/

/-- A list of places is never empty. -/
theorem places_eq_none (h : req.places.getD [] = []) : req.places = none := by
  have hvalid := req.places_valid
  cases hplaces : req.places with
  | none => rfl
  | some l =>
    rw [hplaces] at h hvalid
    rw [Option.getD_some] at h
    subst h
    exact absurd hvalid (by decide)

section Enabled

variable (hkey : w.enabled = true)
include hkey

/-- A request without an envelope keeps no place, or is refused. -/
theorem resolvePlaces_plain (hloc : req.loc.getD "" = "") : resolvePlaces w req =
    if req.places.getD [] = [] then .ok req else .error invalidLocation := by
  unfold resolvePlaces
  rw [if_neg (by simp [hkey]), if_pos hloc]

/-- A request with an envelope that does not open is refused. -/
theorem resolvePlaces_sealError (hloc : req.loc.getD "" ≠ "")
    (hopen : w.openSeal (req.loc.getD "") = .error .sealError) :
    resolvePlaces w req = .error invalidLocation := by
  unfold resolvePlaces
  rw [if_neg (by simp [hkey]), if_neg hloc, hopen]

/-- What the opening raises, reading the places raises. -/
theorem resolvePlaces_raised (hloc : req.loc.getD "" ≠ "") {e : PyExn}
    (hopen : w.openSeal (req.loc.getD "") = .error (.raised e)) :
    resolvePlaces w req = .error (.raised e) := by
  unfold resolvePlaces
  rw [if_neg (by simp [hkey]), if_neg hloc, hopen]

/-- A request whose envelope opens gets the places in it, if they pass. -/
theorem resolvePlaces_opened (hloc : req.loc.getD "" ≠ "") {payload : List (String × Json)}
    (hopen : w.openSeal (req.loc.getD "") = .ok payload) :
    resolvePlaces w req = .error invalidLocation ∨ ∃ l places h,
      dictGet payload "places" = .arr l ∧
        readPlaces w.platform (some (.arr l)) = some (some places) ∧
        resolvePlaces w req = .ok (req.withPlaces places h) := by
  unfold resolvePlaces
  rw [if_neg (by simp [hkey]), if_neg hloc, hopen]
  dsimp only
  split
  · -- the envelope holds a list of places; anything else is refused
    rename_i l hlist
    split
    · rename_i resolved hvalid
      obtain ⟨places, h, hread, rfl⟩ := modelValidate_dump.mp hvalid
      exact Or.inr ⟨l, places, h, hlist, hread, rfl⟩
    · exact Or.inl rfl
  · exact Or.inl rfl

/-- Places in plain text make no difference beside an envelope: the ones in it
    are put in their place before the request is read back. -/
theorem resolvePlaces_blind (hloc : req.loc.getD "" ≠ "") {places : Option (List SelectedPlace)}
    {h : places.all (fun l => 1 ≤ l.length && l.length ≤ 10) = true} :
    resolvePlaces w { req with places := places, places_valid := h } = resolvePlaces w req := by
  have hon : ¬ (!w.enabled) = true := by simp [hkey]
  unfold resolvePlaces
  simp only [if_neg hon, if_neg hloc]
  rfl

/-- A gated request gets an answer: no exception comes out of its envelope. -/
theorem Gated.openSeal_ne_raised (h : Gated w req) (hloc : req.loc.getD "" ≠ "") (e : PyExn) :
    w.openSeal (req.loc.getD "") ≠ .error (.raised e) := by
  intro hopen
  have hraised := resolvePlaces_raised hkey hloc hopen
  rcases h.answer with ⟨detail, hdetail⟩ | ⟨resolved, hresolved, -⟩
  · rw [hraised] at hdetail
    cases hdetail
  · rw [hraised] at hresolved
    cases hresolved

/-- So its envelope is sound. -/
theorem Gated.envelopeSound (h : Gated w req) (hloc : req.loc.getD "" ≠ "") :
    EnvelopeSound w (req.loc.getD "") := by
  constructor
  · intro iv ciphertext plain e hparts hplain hloads
    -- an exception of the decoder would reach the caller
    by_contra hdecode
    rw [Bool.not_eq_true] at hdecode
    exact h.openSeal_ne_raised hkey hloc e (openSeal_of_loads hparts hplain hloads hdecode)
  · intro iv ciphertext plain payload i hparts hplain hloads hissued
    cases hfloat : floatOfInt i with
    | ok x => exact returns_ok x
    | error e =>
      exact absurd (openSeal_of_issued hparts hplain hloads hissued hfloat)
        (h.openSeal_ne_raised hkey hloc e)

/-- A sound envelope is refused, or opens to places that pass. -/
theorem EnvelopeSound.answer (h : EnvelopeSound w (req.loc.getD ""))
    (hloc : req.loc.getD "" ≠ "") :
    TurnedAway (resolvePlaces w req) ∨
      ∃ resolved, resolvePlaces w req = .ok resolved ∧ Resolved w req resolved := by
  cases hopen : w.openSeal (req.loc.getD "") with
  | error failure =>
    cases failure with
    | sealError => exact Or.inl ⟨_, resolvePlaces_sealError hkey hloc hopen⟩
    | raised e =>
      -- the two ways out with an exception are both shut
      obtain ⟨iv, ciphertext, plain, hparts, hplain, hwhy⟩ := openSeal_raised hopen
      rcases hwhy with ⟨hloads, hdecode⟩ | ⟨payload, i, hloads, hissued, hfloat⟩
      · rw [h.decodes iv ciphertext plain e hparts hplain hloads] at hdecode
        cases hdecode
      · obtain ⟨x, hx⟩ := h.issued iv ciphertext plain payload i hparts hplain hloads hissued
        rw [hfloat] at hx
        cases hx
  | ok payload =>
    rcases resolvePlaces_opened hkey hloc hopen with haway | ⟨l, places, hcount, hlist, hread, hok⟩
    · exact Or.inl ⟨_, haway⟩
    · -- a place that was read has passed the checks of its coordinates
      have hrange : ∀ p ∈ places, NumberIn 33 43 p.lat ∧ NumberIn 124 132 p.lng := fun p _ =>
        ⟨floatIn_iff.mp p.lat_valid, floatIn_iff.mp p.lng_valid⟩
      exact Or.inr ⟨_, hok, Resolved.opened hopen hlist hread hrange hcount⟩

end Enabled

/-- With a wire key set, the gate does what it is for exactly when the envelope,
    if there is one, is sound. -/
theorem gate_iff (w : Wire) (req : RecommendRequest) (hkey : w.enabled = true) :
    Gated w req ↔ (req.loc.getD "" ≠ "" → EnvelopeSound w (req.loc.getD "")) := by
  constructor
  · exact fun hgated hloc => hgated.envelopeSound hkey hloc
  · intro hsound
    constructor
    · by_cases hloc : req.loc.getD "" = ""
      · rw [resolvePlaces_plain hkey hloc]
        split
        · rename_i hnone
          exact Or.inr ⟨req, rfl, Resolved.none hloc (places_eq_none hnone)⟩
        · exact Or.inl ⟨_, rfl⟩
      · exact (hsound hloc).answer hkey hloc
    · -- places in plain text are not looked at beside an envelope
      intro hloc req' hsame
      obtain ⟨places, h, rfl⟩ := hsame
      exact resolvePlaces_blind hkey hloc
    · intro hloc hplaces
      rw [resolvePlaces_plain hkey hloc, if_neg hplaces]
      exact ⟨_, rfl⟩

/-! ### A sound envelope -/

/-- The sample trip with an envelope. -/
def sampleGated (loc : Option String) (h : loc.all (lengthIn 0 8192) = true) : RecommendRequest :=
  { sampleTrip .mode1 with scheduleId := none, loc := loc, scheduleId_valid := rfl, loc_valid := h }

/-- A platform that takes numbers for coordinates. -/
def countingPlatform : Platform := { samplePlatform with coerceFloat := Json.num? }

/-- A wire whose decoder reads JSON text. -/
def decodingWire : Wire :=
  { sampleWire with
    platform := countingPlatform
    loads := fun bytes => jsonLoads countingPlatform 4 (bytes.map fun b => Char.ofNat b.toNat) }

/-- An envelope of one place, sealed at the second 0. -/
def sampleToken : String :=
  "v1..eyJwbGFjZXMiOiBbeyJuYW1lIjogImEiLCAibGF0IjogMzcsICJsbmciOiAxMjd9XSwgImlhdCI6IDB9"

/-- The second a plaintext says it was issued at. -/
def issuedAt : Except PyExn Json → Option Int
  | .ok (.obj payload) =>
    match dictGet payload "iat" with
    | .int i => some i
    | _ => none
  | _ => none

/-- The sample envelope holds an object issued at second 0. -/
theorem sampleToken_sound : EnvelopeSound decodingWire sampleToken := by
  have hread : ((sealParts sampleToken).bind fun parts => decodingWire.plaintext parts.1 parts.2).map
      (fun plain => issuedAt (decodingWire.loads plain)) = some (some 0) := by
    decide +kernel
  -- whatever its parts and its plaintext are, it is an object of the second 0
  have hissued : ∀ {iv ciphertext plain}, sealParts sampleToken = some (iv, ciphertext) →
      decodingWire.plaintext iv ciphertext = some plain →
        issuedAt (decodingWire.loads plain) = some 0 := by
    intro iv ciphertext plain hparts hplain
    rw [hparts, Option.bind_some, hplain, Option.map_some] at hread
    exact Option.some.inj hread
  constructor
  · intro iv ciphertext plain e hparts hplain hloads
    have h := hissued hparts hplain
    rw [hloads] at h
    exact nomatch h
  · -- second 0 is within what a double holds
    intro iv ciphertext plain payload i hparts hplain hloads hiat
    have h := hissued hparts hplain
    rw [hloads, issuedAt, hiat] at h
    obtain rfl := Option.some.inj h
    exact ⟨_, if_pos (show (0 : Int).natAbs < doubleLimit.natAbs by decide +kernel)⟩

/-- A request that names two places in plain text, and another one in its envelope,
    is gated: the one in the envelope counts. -/
theorem gate_iff_sample : Gated decodingWire (sampleGated (some sampleToken) (by decide)) ∧
    (resolvePlaces decodingWire (sampleGated (some sampleToken) (by decide))).toOption.map
      (fun resolved => (resolved.places.getD []).map (·.name)) = some ["a"] :=
  ⟨(gate_iff decodingWire (sampleGated (some sampleToken) (by decide)) rfl).mpr fun _ =>
    sampleToken_sound, by decide +kernel⟩

/-! ### Envelopes that slip through -/

/-- The wire of a sender that seals a single byte no encoding has. -/
def strayWire : Wire :=
  { sampleWire with loads := fun plain =>
      if plain = [255] then .error (.valueError "UnicodeDecodeError") else .ok .null }

/-- An envelope of that byte is neither refused nor resolved. -/
theorem stray_envelope_raises : strayWire.enabled = true ∧
    ¬ Gated strayWire (sampleGated (some "v1.AAAAAAAAAAAAAAAA._w") (by decide)) := by
  constructor
  · rfl
  intro hgated
  have hraised : resolvePlaces strayWire (sampleGated (some "v1.AAAAAAAAAAAAAAAA._w") (by decide)) =
      .error (.raised (.valueError "UnicodeDecodeError")) :=
    -- a byte that begins no character
    have hplain : strayWire.plaintext "AAAAAAAAAAAAAAAA".toList "_w".toList = some [255] := by
      decide +kernel
    resolvePlaces_raised rfl (by decide) (openSeal_of_loads (by decide +kernel) hplain rfl rfl)
  rcases hgated.answer with ⟨detail, hdetail⟩ | ⟨resolved, hresolved, -⟩
  · rw [hraised] at hdetail
    cases hdetail
  · rw [hraised] at hresolved
    cases hresolved

end MapServiceAgent.Native
