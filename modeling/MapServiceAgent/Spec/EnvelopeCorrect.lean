import MapServiceAgent.Spec.JsonCorrect
import MapServiceAgent.Spec.SealCorrect

/-!
# What travels in an envelope

The text of an envelope is printable ASCII, which `json.loads` reads back. So
places that come sealed count for a request as they would in plain text, and a
result that goes out sealed is there to be read, each for its time.

## Key results

- `printable_dump`: what `json.dumps` writes
- `openSeal_token`: an envelope opens to what was sealed
- `sealed_request`: sealed places count as plain ones
- `sealed_done`: a sealed result opens to the one published
-/

namespace MapServiceAgent.Native

variable {pf : Platform} {w : Wire}

/-! ### Printable text -/

/-- A character `json.dumps` writes as it is: ASCII, and no control. -/
def isPrintable (c : Char) : Bool := 0x20 ≤ c.toNat && c.toNat < 0x7f

/-- A decimal digit is printable. -/
theorem isPrintable_of_isDigit {c : Char} (h : c.isDigit = true) : isPrintable c = true := by
  have hbounds : 48 ≤ c.toNat ∧ c.toNat ≤ 57 := by
    simpa [Char.isDigit, UInt32.le_iff_toNat_le] using h
  simp only [isPrintable, Bool.and_eq_true, decide_eq_true_eq]
  omega

/-- So is a hexadecimal one. -/
theorem isPrintable_hexDigit {n : Nat} (h : n < 16) : isPrintable (hexDigit n) = true := by
  have hall : ∀ n : Fin 16, isPrintable (hexDigit n) = true := by decide
  exact hall ⟨n, h⟩

/-- A `\u` escape is written in printable characters. -/
theorem isPrintable_escapeUnit (n : Nat) : ∀ c ∈ escapeUnit n, isPrintable c = true := by
  intro c hc
  have hdigit : ∀ m, isPrintable (hexDigit (m % 16)) = true := fun m =>
    isPrintable_hexDigit (Nat.mod_lt _ (by decide))
  -- a backslash, a `u` and four digits
  simp only [escapeUnit, List.mem_cons, List.not_mem_nil, or_false] at hc
  rcases hc with rfl | rfl | rfl | rfl | rfl | rfl
  · rfl
  · rfl
  all_goals exact hdigit _

/-- The escape of an ASCII character is printable. -/
theorem isPrintable_escapeJsonChar {c : Char} (h : c.toNat < 0x7f) :
    ∀ d ∈ escapeJsonChar c, isPrintable d = true := by
  have hpair : ∀ e, isPrintable e = true → ∀ d ∈ ['\\', e], isPrintable d = true := fun e he =>
    List.forall_mem_cons.mpr ⟨rfl, List.forall_mem_singleton.mpr he⟩
  unfold escapeJsonChar
  -- the characters with an escape of their own
  iterate 7
    split
    · exact hpair _ rfl
  split
  · -- a control is written as its unit
    intro d hd
    simp only [List.mem_cons, List.not_mem_nil, or_false] at hd
    rcases hd with rfl | rfl | rfl | rfl | rfl | rfl
    any_goals rfl
    all_goals exact isPrintable_hexDigit (by omega)
  · -- any other one stands for itself
    refine List.forall_mem_singleton.mpr ?_
    simp only [isPrintable, Bool.and_eq_true, decide_eq_true_eq]
    omega

/-- So is that of any character. -/
theorem isPrintable_escapeAscii (c : Char) : ∀ d ∈ escapeAscii c, isPrintable d = true := by
  unfold escapeAscii
  dsimp only
  split
  · -- within ASCII
    exact isPrintable_escapeJsonChar (by assumption)
  split
  · -- one unit
    exact isPrintable_escapeUnit _
  · -- a pair of surrogates
    intro d hd
    exact (List.mem_append.mp hd).elim (isPrintable_escapeUnit _ d) (isPrintable_escapeUnit _ d)

/-- A number is written in printable characters. -/
theorem isPrintable_numeral (n : Numeral) : ∀ c ∈ n.chars, isPrintable c = true := by
  -- part by part: sign, digits, fraction and exponent
  have hsign : ∀ c ∈ n.sign, isPrintable c = true := by
    rcases n.sign_form with h | h <;> rw [h] <;> exact List.all_eq_true.mp rfl
  have hdigits : ∀ c ∈ n.digits, isPrintable c = true := by
    rcases n.digits_form with h | ⟨d, ds, -, -, hall⟩
    · rw [h]
      exact List.all_eq_true.mp rfl
    · exact fun c hc => isPrintable_of_isDigit (hall c hc)
  have hfraction : ∀ c ∈ n.fraction, isPrintable c = true := by
    rcases n.fraction_form with h | ⟨ds, h, -, hall⟩ <;> rw [h]
    · exact List.all_eq_true.mp rfl
    · exact List.forall_mem_cons.mpr ⟨rfl, fun c hc => isPrintable_of_isDigit (hall c hc)⟩
  have hexponent : ∀ c ∈ n.exponent, isPrintable c = true := by
    rcases n.exponent_form with h | ⟨e, sign, ds, h, he, hsign, -, hall⟩ <;> rw [h]
    · exact List.all_eq_true.mp rfl
    · refine List.forall_mem_cons.mpr ⟨by rcases he with rfl | rfl <;> rfl, fun c hc => ?_⟩
      -- the letter is followed by a sign, or none, and digits
      rcases List.mem_append.mp hc with hc | hc
      · rcases hsign with rfl | rfl | rfl
        · exact absurd hc List.not_mem_nil
        · rw [List.mem_singleton.mp hc]
          rfl
        · rw [List.mem_singleton.mp hc]
          rfl
      · exact isPrintable_of_isDigit (hall c hc)
  unfold Numeral.chars
  simp only [List.forall_mem_append]
  exact ⟨⟨⟨hsign, hdigits⟩, hfraction⟩, hexponent⟩

/-- Printable texts joined by a printable separator are printable. -/
theorem isPrintable_intercalate {sep : List Char} {texts : List (List Char)}
    (hsep : ∀ c ∈ sep, isPrintable c = true)
    (h : ∀ text ∈ texts, ∀ c ∈ text, isPrintable c = true) :
    ∀ c ∈ sep.intercalate texts, isPrintable c = true := by
  cases texts with
  | nil => exact fun c hc => absurd hc List.not_mem_nil
  | cons text texts =>
    rw [Scanner.intercalate_cons_eq]
    refine List.forall_mem_append.mpr ⟨h text List.mem_cons_self, fun c hc => ?_⟩
    obtain ⟨piece, hpiece, hc⟩ := List.mem_flatten.mp hc
    obtain ⟨text', htext', rfl⟩ := List.mem_map.mp hpiece
    exact (List.mem_append.mp hc).elim (hsep c) (h text' (List.mem_cons_of_mem _ htext') c)

/-- What `json.dumps` writes is printable. -/
theorem printable_dump {depth : Nat} {v : Json} (h : Writable pf (.ascii pf) depth v) :
    ∀ c ∈ (JsonLayout.ascii pf).dump v, isPrintable c = true := by
  have hstring : ∀ s, ∀ c ∈ (JsonLayout.ascii pf).string s, isPrintable c = true := by
    intro s
    refine List.forall_mem_cons.mpr ⟨rfl, List.forall_mem_append.mpr
      ⟨fun c hc => ?_, List.all_eq_true.mp rfl⟩⟩
    obtain ⟨d, -, hc⟩ := List.mem_flatMap.mp hc
    exact isPrintable_escapeAscii d c hc
  -- what stands between elements, and between a key and its value
  have hcomma : ∀ c ∈ (JsonLayout.ascii pf).comma, isPrintable c = true := by
    change ∀ c ∈ [',', ' '], isPrintable c = true
    exact List.all_eq_true.mp rfl
  have hcolon : ∀ c ∈ ':' :: (JsonLayout.ascii pf).gap, isPrintable c = true := by
    change ∀ c ∈ [':', ' '], isPrintable c = true
    exact List.all_eq_true.mp rfl
  induction h with
  | null =>
    rw [JsonLayout.dump]
    exact List.all_eq_true.mp rfl
  | bool b => cases b <;> rw [JsonLayout.dump] <;> exact List.all_eq_true.mp rfl
  | int h =>
    -- an integer is a numeral
    rw [JsonLayout.dump, ← chars_ofInt]
    exact isPrintable_numeral _
  | float h =>
    rw [JsonLayout.dump]
    -- a float is one of the words, or a numeral
    rcases h with hword | ⟨n, hn, -⟩
    · simp only [jsonWords, List.mem_cons, List.not_mem_nil, or_false, Prod.mk.injEq] at hword
      rcases hword with h | h | h | h | h | h <;> rw [h.1] <;>
        exact List.all_eq_true.mp rfl
    · rw [← hn]
      exact isPrintable_numeral n
  | str s => exact hstring s
  | arr h ih =>
    rw [JsonLayout.dump, JsonLayout.dumpElems_eq]
    refine List.forall_mem_cons.mpr ⟨rfl, List.forall_mem_append.mpr
      ⟨isPrintable_intercalate hcomma fun text ht => ?_, List.all_eq_true.mp rfl⟩⟩
    obtain ⟨v, hv, rfl⟩ := List.mem_map.mp ht
    exact ih v hv
  | obj hkeys h ih =>
    rw [JsonLayout.dump, JsonLayout.dumpFields_eq]
    refine List.forall_mem_cons.mpr ⟨rfl, List.forall_mem_append.mpr
      ⟨isPrintable_intercalate hcomma fun text ht => ?_, List.all_eq_true.mp rfl⟩⟩
    obtain ⟨f, hf, rfl⟩ := List.mem_map.mp ht
    refine List.forall_mem_append.mpr ⟨?_, ih f hf⟩
    exact List.forall_mem_append.mpr ⟨hstring f.1, hcolon⟩

/-! ### The wire -/

/-- A wire whose cipher opens what it has sealed, and whose decoder reads printable
    text as `json.loads` does. -/
structure Wire.Sound (w : Wire) (depth : Nat) : Prop where
  opens : ∃ key, w.key = .ok key ∧ ∀ iv plain,
    w.decrypt key iv (w.encrypt key iv plain sealAad) sealAad = .ok plain
  decodes : ∀ text : List Char, (∀ c ∈ text, isPrintable c = true) →
    w.loads (text.map fun c => UInt8.ofNat c.toNat) = jsonLoads w.platform depth text

/-- The second an envelope is stamped with has not too many digits. -/
theorem natAbs_truncate_lt {q : ℚ} (h : |q| < doubleLimit) :
    (truncate q).natAbs < 10 ^ maxStrDigits := by
  have hpow : ∀ n k : Nat, n ≤ k → 2 ^ n ≤ 10 ^ k := fun n k h =>
    (Nat.pow_le_pow_left (by decide) n).trans (Nat.pow_le_pow_right (by decide) h)
  have hlimit : doubleLimit ≤ ((2 ^ 1024 : Nat) : Int) := by
    rw [doubleLimit, Nat.cast_pow]
    exact sub_le_self _ (by positivity)
  have habs : |truncate q| < doubleLimit := by exact_mod_cast (abs_truncate_le q).trans_lt h
  have hnat : ((truncate q).natAbs : Int) < ((2 ^ 1024 : Nat) : Int) := by
    rw [Int.natCast_natAbs]
    exact habs.trans_le hlimit
  exact (Int.ofNat_lt.mp hnat).trans_le (hpow 1024 maxStrDigits (by decide))

section Sound

variable {depth : Nat} {t₀ : ℚ} {token : String}

/-- What is sealed comes back with its stamp, or not at all. -/
theorem openSeal_token (hw : w.Sound depth) (hclock : |t₀| < doubleLimit) (t₁ : ℚ)
    {payload : List (String × Json)}
    (hpayload : Writable w.platform (.ascii w.platform) depth (.obj (stamped t₀ payload)))
    (hseal : (w.atTime t₀).sealed payload = .ok token) :
    (w.atTime t₁).openSeal token =
      if -60 ≤ t₁ - truncate t₀ ∧ t₁ - truncate t₀ ≤ 300 then .ok (stamped t₀ payload)
      else .error .sealError := by
  obtain ⟨key, hkey, hcipher⟩ := hw.opens
  -- the token is the cipher text of the stamped payload
  have htoken := (sealed_eq (w := w.atTime t₀) hkey payload).symm.trans hseal
  obtain rfl := Except.ok.inj htoken
  -- what was written reads back
  have hloads : w.loads (w.written (stamped t₀ payload)) = .ok (.obj (stamped t₀ payload)) := by
    rw [Wire.written, dumpAscii_layout, hw.decodes _ (printable_dump hpayload)]
    exact jsonLoads_dump hpayload
  have hplain := plaintext_token (w := w.atTime t₁) hkey w.iv
    (hcipher w.iv (w.written (stamped t₀ payload)))
  exact openSeal_of_plaintext (w := w.atTime t₁) (sealParts_token _ _) hplain hloads
    (dictGet_dictSet_self _ _ _) (floatOfInt_truncate hclock)

/-- A token is never blank: it begins with the version. -/
theorem token_ne_empty {payload : List (String × Json)} (hseal : w.sealed payload = .ok token) :
    token ≠ "" := by
  obtain ⟨key, -, h⟩ := bind_eq_ok.mp hseal
  obtain rfl := Except.ok.inj h
  intro hnil
  have hlength := congrArg (fun s : String => s.toList.length) hnil
  simp [String.toList_append, sealVersion] at hlength

/-- A value under one key, and the stamp. -/
theorem writable_stamped (hclock : |t₀| < doubleLimit) {key : String} {v : Json}
    (hkey : key ≠ "iat") (hv : Writable w.platform (.ascii w.platform) depth v) :
    Writable w.platform (.ascii w.platform) (depth + 1) (.obj (stamped t₀ [(key, v)])) := by
  have hstamped : stamped t₀ [(key, v)] = [(key, v), ("iat", .int (truncate t₀))] := by
    rw [stamped, dictSet, if_neg hkey, dictSet]
  rw [hstamped]
  refine .obj (by simp [hkey]) (List.forall_mem_cons.mpr ⟨hv, List.forall_mem_singleton.mpr ?_⟩)
  exact .int (natAbs_truncate_lt hclock)

/-- A wire that opens what it sealed has a key. -/
theorem Wire.Sound.enabled (hw : w.Sound depth) : w.enabled = true := by
  obtain ⟨key, hkey, -⟩ := hw.opens
  unfold Wire.key at hkey
  split at hkey
  · cases hkey
  · rename_i hne
    exact bne_iff_ne.mpr hne

end Sound

/-! ### A wire that decodes -/

/-- The sample wire decodes every printable text. -/
theorem decodingWire_sound : decodingWire.Sound 4 where
  opens := ⟨List.replicate 32 0, rfl, fun _ _ => rfl⟩
  decodes text h := by
    -- a printable character is one byte, and back
    have htext : (text.map fun c => UInt8.ofNat c.toNat).map (fun b => Char.ofNat b.toNat) =
        text := by
      rw [List.map_map]
      refine (List.map_congr_left fun c hc => ?_).trans (List.map_id _)
      have hc := h c hc
      simp only [isPrintable, Bool.and_eq_true, decide_eq_true_eq] at hc
      rw [Function.comp_apply, UInt8.toNat_ofNat', Nat.mod_eq_of_lt (by omega), Char.ofNat_toNat, id]
    exact congrArg (jsonLoads countingPlatform 4) htext

/-- The sample clock is within what a double holds. -/
theorem sampleClock : |(0 : ℚ)| < doubleLimit := by
  rw [abs_zero]
  exact_mod_cast (show (0 : Int) < doubleLimit by decide +kernel)

/-! ### Requests and results -/

variable {depth : Nat} {t₀ : ℚ} {token : String}

/-- Places that come sealed count for a request as in plain text, for the time of the
    envelope: it becomes the request with them in plain text, and is refused where
    that one is not valid. -/
theorem sealed_request (hw : w.Sound (depth + 1)) (t₁ : ℚ) (hclock : |t₀| < doubleLimit)
    (req : RecommendRequest) {l : List Json}
    (hl : Writable w.platform (.ascii w.platform) depth (.arr l))
    (hseal : (w.atTime t₀).sealed [("places", .arr l)] = .ok token) (hloc : req.loc = some token) :
    resolvePlaces (w.atTime t₁) req =
      if -60 ≤ t₁ - truncate t₀ ∧ t₁ - truncate t₀ ≤ 300 then
        match { req.modelDump with places := some (.arr l), loc := none }.modelValidate
          w.platform with
        | some plain => .ok plain
        | none => .error invalidLocation
      else .error invalidLocation := by
  have hpayload := writable_stamped hclock (show "places" ≠ "iat" by decide) hl
  have hopen := openSeal_token hw hclock t₁ hpayload hseal
  have henabled : ¬ (!(w.atTime t₁).enabled) = true := by
    rw [show (w.atTime t₁).enabled = true from hw.enabled]
    decide
  -- neither guard refuses: a key is set and an envelope is there
  have hne : ¬ req.loc.getD "" = "" := by
    rw [hloc]
    exact token_ne_empty hseal
  unfold resolvePlaces
  rw [if_neg henabled, if_neg hne, hloc, Option.getD_some, hopen]
  -- in the window the places are read, outside it the request is refused
  by_cases htime : -60 ≤ t₁ - truncate t₀ ∧ t₁ - truncate t₀ ≤ 300
  · rw [if_pos htime, if_pos htime]
    rfl
  · rw [if_neg htime, if_neg htime]

/-- Ten seconds later, the place in it counts. -/
theorem sealed_request_sample : ∃ plain,
    resolvePlaces (decodingWire.atTime 10) (sampleGated (some sampleToken) (by decide)) = .ok plain ∧
      (plain.places.getD []).map (·.name) = ["a"] := by
  have hl : Writable countingPlatform (.ascii countingPlatform) 3
      (.arr [.obj [("name", .str "a"), ("lat", .int 37), ("lng", .int 127)]]) :=
    writable_of_reads (fun _ h => absurd h Bool.false_ne_true) _
      (show Json.reads (fun _ => false) 3 _ = true by decide +kernel)
  have hseal : (decodingWire.atTime 0).sealed [("places",
      .arr [.obj [("name", .str "a"), ("lat", .int 37), ("lng", .int 127)]])] = .ok sampleToken := by
    rfl
  have hstamp : truncate 0 = 0 := by decide +kernel
  -- opened ten seconds after it was sealed
  have hopened := sealed_request decodingWire_sound 10 sampleClock
    (sampleGated (some sampleToken) (by decide)) hl hseal rfl
  rw [hstamp, if_pos (by norm_num)] at hopened
  exact ⟨_, hopened, rfl⟩

/-- A result that goes out sealed opens, for the time of its envelope, to the one
    that was published, and not at all afterwards. -/
theorem sealed_done {env : StreamEnv} {s : AgentState} {m : DoneMessage}
    (hw : env.wire.Sound (depth + 1)) (hclock : |env.wire.now| < doubleLimit)
    (h : doneMessage env s = .ok m) (t₁ : ℚ) :
    ∃ p, donePayload s = .ok p ∧ m.jobId = s.jobId ∧ m.status = p.status.value ∧
      (env.wire.atTime t₁).openSeal m.payload =
        if -60 ≤ t₁ - truncate env.wire.now ∧ t₁ - truncate env.wire.now ≤ 300 then
          .ok [("payload", .str (env.modelDumpJson p)), ("iat", .int (truncate env.wire.now))]
        else .error .sealError := by
  obtain ⟨p, hp, h⟩ := bind_eq_ok.mp h
  obtain ⟨training, -, h⟩ := bind_eq_ok.mp h
  unfold publish at h
  dsimp only at h
  -- with a key the payload is sealed
  rw [if_pos hw.enabled] at h
  obtain ⟨body, hbody, h⟩ := bind_eq_ok.mp h
  obtain rfl := Except.ok.inj h
  have hpayload : Writable env.wire.platform (.ascii env.wire.platform) (depth + 1)
      (.obj (stamped env.wire.now [("payload", .str (env.modelDumpJson p))])) :=
    writable_stamped hclock (by decide) (.str _)
  exact ⟨p, hp, rfl, rfl, openSeal_token hw hclock t₁ hpayload hbody⟩

/-- A stream that seals what the job publishes, written as `model_dump_json` does. -/
def sealingStream : StreamEnv :=
  { sampleStream with
    wire := decodingWire
    modelDumpJson := fun p => String.ofList
      ((JsonLayout.compact samplePlatform.floatRepr).dump (.obj p.jsonFields)) }

/-- The message of the sample trip opens to the itinerary it published. -/
theorem sealed_done_sample : ∃ m p, doneMessage sealingStream sampleSelected = .ok m ∧
    m.status = "done" ∧ donePayload sampleSelected = .ok p ∧
    (decodingWire.atTime 10).openSeal m.payload =
      .ok [("payload", .str (String.ofList
        ((JsonLayout.compact samplePlatform.floatRepr).dump (.obj p.jsonFields)))),
        ("iat", .int 0)] := by
  have hdone : (doneMessage sealingStream sampleSelected).toOption.map (·.status) =
      some "done" := by
    decide +kernel
  obtain ⟨m, hm⟩ : Returns (doneMessage sealingStream sampleSelected) :=
    returns_of_isSome (by rw [← Option.isSome_map, hdone]; rfl)
  rw [hm] at hdone
  have hsound : sealingStream.wire.Sound (3 + 1) := decodingWire_sound
  have hnow : sealingStream.wire.now = 0 := rfl
  have hclock : |sealingStream.wire.now| < doubleLimit := by
    rw [hnow]
    exact sampleClock
  obtain ⟨p, hp, -, -, hopen⟩ := sealed_done hsound hclock hm 10
  -- ten seconds old, and restamped with the second it was sealed in
  have hstamp : truncate 0 = 0 := by decide +kernel
  rw [hnow, hstamp, if_pos (by norm_num)] at hopen
  exact ⟨m, p, hm, Option.some.inj hdone, hp, hopen⟩

end MapServiceAgent.Native
