import MapServiceAgent.Native.SummaryNodes
import MapServiceAgent.Spec.AgentGraphCorrect
import MapServiceAgent.Spec.BudgetCorrect
import MapServiceAgent.Spec.PromptCorrect

/-!
# Data stays inside its fence

Every prompt is a fixed sequence of pieces with data between them, and no data
holds an angle bracket, a line end or a control character. So the fences of a
prompt are those of its pieces, whatever the user, the hub, a blog or the model
wrote.

## Key results

- `safe_sanitizeText`, `sanitizeStruct_safe`: sanitized texts and structures are safe
- `safe_dumpPromptJson`: the JSON of safe texts is safe
- `prompts_fenced`: the four prompts
-/

namespace MapServiceAgent.Native

variable {pf : Platform}

/-! ### Safe texts -/

/-- No angle bracket of either width, no line end, no control character. -/
def safeChar (c : Char) : Bool := !(isTagChar c || c == '\n' || c == '\r' || isControl c)

/-- A text that can neither open nor close a fence. -/
abbrev Safe (s : String) : Prop := Only safeChar s

/-- A digit is safe. -/
theorem safeChar_of_isDigit {c : Char} (h : c.isDigit = true) : safeChar c = true := by
  have hc : 48 ≤ c.toNat ∧ c.toNat ≤ 57 := by
    simpa [Char.isDigit, Char.le_def, UInt32.le_iff_toNat_le] using h
  -- every character that is not safe lies outside the digits
  have hne : ∀ d : Char, d.toNat < 48 ∨ 57 < d.toNat → (c == d) = false := by
    intro d hd
    rw [beq_eq_false_iff_ne]
    rintro rfl
    omega
  have hlt := hne '<' (by decide)
  have hgt := hne '>' (by decide)
  have hnl := hne '\n' (by decide)
  have hcr := hne '\r' (by decide)
  simp only [safeChar, isTagChar, isControl, hlt, hgt, hnl, hcr]
  simp
  omega

/-! ### The sanitizers -/

/-- What is left when white space is collapsed is a blank, or a character of the text
    that is no white space. -/
theorem mem_collapseSpaces {inRun : Bool} {cs : List Char} {c : Char}
    (h : c ∈ collapseSpaces inRun cs) : c = ' ' ∨ (c ∈ cs ∧ isSpace c = false) := by
  induction cs generalizing inRun with
  | nil => exact absurd h List.not_mem_nil
  | cons d cs ih =>
    -- whatever the run, the rest is a part of the text
    have hrest : ∀ {inRun}, c ∈ collapseSpaces inRun cs → c = ' ' ∨ (c ∈ d :: cs ∧ isSpace c = false) :=
      fun h => (ih h).imp_right fun h => ⟨List.mem_cons_of_mem _ h.1, h.2⟩
    rw [collapseSpaces] at h
    split at h
    · split at h
      · -- a run goes on: this one is dropped
        exact hrest h
      · rcases List.mem_cons.mp h with h | h
        · -- a run begins with a blank in place of it
          exact .inl h
        · exact hrest h
    · rename_i hd
      rcases List.mem_cons.mp h with rfl | h
      · exact .inr ⟨List.mem_cons_self, by simpa using hd⟩
      · exact hrest h

/-- An entity is safe, and what is not written as one was no bracket. -/
theorem safe_of_mem_escapeTag {c d : Char} (hspace : c = ' ' ∨ isSpace c = false)
    (hcontrol : isControl c = false) (h : d ∈ escapeTag c) : safeChar d = true := by
  unfold escapeTag at h
  split at h
  · -- an opening bracket
    exact (by decide : Safe "&lt;") d h
  · split at h
    · -- a closing bracket
      exact (by decide : Safe "&gt;") d h
    · -- any other character is copied: line breaks were collapsed before
      rename_i hlt hgt
      rw [List.mem_singleton] at h
      subst h
      have htag : isTagChar d = false := by
        simp only [Bool.or_eq_true, not_or, Bool.not_eq_true] at hlt hgt
        simp only [isTagChar, hlt, hgt, Bool.or_false]
      have hnl : (d == '\n') = false := by
        rcases hspace with rfl | hspace
        · rfl
        · exact beq_eq_false_iff_ne.mpr fun h => by rw [h] at hspace; cases hspace
      have hcr : (d == '\r') = false := by
        rcases hspace with rfl | hspace
        · rfl
        · exact beq_eq_false_iff_ne.mpr fun h => by rw [h] at hspace; cases hspace
      rw [safeChar, htag, hnl, hcr, hcontrol]
      rfl

/-- A sanitized text is safe, whatever was in it. -/
theorem safe_sanitizeText (s : String) (maxLen : Nat) : Safe (sanitizeText s maxLen) := by
  refine Only.ofList fun d hd => ?_
  obtain ⟨c, hc, hd⟩ := List.mem_flatMap.mp (List.mem_of_mem_take hd)
  rcases mem_collapseSpaces (mem_of_mem_stripChars hc) with rfl | ⟨hc, hspace⟩
  · exact safe_of_mem_escapeTag (.inl rfl) rfl hd
  · -- the control characters are gone before
    rw [List.mem_filter, Bool.not_eq_true'] at hc
    exact safe_of_mem_escapeTag (.inr hspace) hc.2 hd

/-! ### Structures of safe texts -/

mutual

/-- The texts of a value, keys included. -/
def Json.texts : Json → List String
  | .str s => [s]
  | .arr l => elemTexts l
  | .obj m => fieldTexts m
  | _ => []

/-- The texts of the elements. -/
def elemTexts : List Json → List String
  | [] => []
  | v :: vs => v.texts ++ elemTexts vs

/-- The keys, and the texts of the values. -/
def fieldTexts : List (String × Json) → List String
  | [] => []
  | (k, v) :: fs => k :: (v.texts ++ fieldTexts fs)

end

/-- A text of a list is one of its elements. -/
theorem mem_elemTexts {l : List Json} {t : String} : t ∈ elemTexts l ↔ ∃ v ∈ l, t ∈ v.texts := by
  induction l with
  | nil => simp [elemTexts]
  | cons v l ih => simp [elemTexts, ih]

/-- A text of a dictionary is a key or a text of a value. -/
theorem mem_fieldTexts {m : List (String × Json)} {t : String} :
    t ∈ fieldTexts m ↔ ∃ f ∈ m, t = f.1 ∨ t ∈ f.2.texts := by
  induction m with
  | nil => simp [fieldTexts]
  | cons f m ih => simp [fieldTexts, ih, or_assoc]

/-- All texts of a value are safe. -/
def Json.Safe (v : Json) : Prop := ∀ t ∈ v.texts, Native.Safe t

/-- A list of safe values is safe. -/
theorem Json.safe_arr {l : List Json} (h : ∀ v ∈ l, v.Safe) : (Json.arr l).Safe := by
  intro t ht
  obtain ⟨v, hv, ht⟩ := mem_elemTexts.mp ht
  exact h v hv t ht

/-- A dictionary with safe keys and values is safe. -/
theorem Json.safe_obj {m : List (String × Json)} (h : ∀ f ∈ m, Native.Safe f.1 ∧ f.2.Safe) :
    (Json.obj m).Safe := by
  intro t ht
  obtain ⟨f, hf, rfl | ht⟩ := mem_fieldTexts.mp ht
  · exact (h f hf).1
  · exact (h f hf).2 t ht

/-- A safe text is a safe value. -/
theorem Json.safe_str {s : String} (h : Native.Safe s) : (Json.str s).Safe := by
  intro t ht
  rw [List.mem_singleton.mp ht]
  exact h

/-- A value without texts is safe. -/
theorem Json.safe_of_texts_nil {v : Json} (h : v.texts = []) : v.Safe := by
  intro t ht
  rw [h] at ht
  exact absurd ht List.not_mem_nil

/-- An entry of a merged dictionary is the new one, an old one, or the new key over an
    old value. -/
theorem fields_mergeField {k : String} {v : Json} {rest : List (String × Json)} {f : String × Json}
    (h : f ∈ mergeField k v rest) : f = (k, v) ∨ f ∈ rest ∨ (f.1 = k ∧ ∃ g ∈ rest, f.2 = g.2) := by
  unfold mergeField at h
  split at h
  · rename_i later hlater
    -- two keys became the same text: the later value is kept
    obtain ⟨before, after, rfl, -⟩ := List.lookup_eq_some_iff.mp hlater
    rcases List.mem_cons.mp h with rfl | h
    · exact .inr (.inr ⟨rfl, (k, later), by simp, rfl⟩)
    · exact .inr (.inl (List.mem_of_mem_filter h))
  · rcases List.mem_cons.mp h with rfl | h
    · exact .inl rfl
    · exact .inr (.inl h)

mutual

/-- A sanitized structure is safe, whatever the input. -/
theorem sanitizeStruct_safe (strMax d : Nat) : ∀ v : Json, (sanitizeStruct strMax d v).Safe
  | .str s => by
    rw [sanitizeStruct]
    exact Json.safe_str (safe_sanitizeText s strMax)
  | .obj m => by
    cases d with
    -- too deep: a fixed text stands for the value
    | zero => exact Json.safe_str (by decide)
    | succ d =>
      rw [sanitizeStruct]
      exact Json.safe_obj (sanitizeFields_safe strMax d m)
  | .arr l => by
    cases d with
    | zero => exact Json.safe_str (by decide)
    | succ d =>
      rw [sanitizeStruct]
      exact Json.safe_arr (sanitizeElems_safe strMax d l)
  | .null | .bool _ | .int _ | .float _ => by
    unfold sanitizeStruct
    exact Json.safe_of_texts_nil rfl

/-- The elements of a sanitized list are safe. -/
theorem sanitizeElems_safe (strMax d : Nat) : ∀ l : List Json, ∀ v ∈ sanitizeElems strMax d l, v.Safe
  | [] => fun v hv => absurd hv List.not_mem_nil
  | w :: l => by
    intro v hv
    rw [sanitizeElems] at hv
    rcases List.mem_cons.mp hv with rfl | hv
    · exact sanitizeStruct_safe strMax d w
    · exact sanitizeElems_safe strMax d l v hv

/-- The entries of a sanitized dictionary are safe. -/
theorem sanitizeFields_safe (strMax d : Nat) : ∀ m : List (String × Json),
    ∀ f ∈ sanitizeFields strMax d m, Safe f.1 ∧ f.2.Safe
  | [] => fun f hf => absurd hf List.not_mem_nil
  | (k, v) :: m => by
    intro f hf
    have hrest := sanitizeFields_safe strMax d m
    have hkey := safe_sanitizeText k strMax
    rw [sanitizeFields] at hf
    rcases fields_mergeField hf with rfl | hf | ⟨hfst, g, hg, hsnd⟩
    · exact ⟨hkey, sanitizeStruct_safe strMax d v⟩
    · exact hrest f hf
    · exact ⟨hfst ▸ hkey, hsnd ▸ (hrest g hg).2⟩

end

/-! ### JSON -/

mutual

/-- Pruning adds no text. -/
theorem pruneEmpty_texts : ∀ v : Json, (pruneEmpty v).texts ⊆ v.texts
  | .obj m => by
    rw [pruneEmpty]
    exact pruneFields_texts m
  | .arr l => by
    rw [pruneEmpty]
    exact pruneElems_texts l
  | .str _ | .null | .bool _ | .int _ | .float _ => by
    unfold pruneEmpty
    exact List.Subset.refl _

/-- Pruning the elements adds no text. -/
theorem pruneElems_texts : ∀ l : List Json, elemTexts (pruneElems l) ⊆ elemTexts l
  | [] => List.Subset.refl _
  | v :: l => by
    have hrest := pruneElems_texts l
    rw [pruneElems, elemTexts]
    split
    · -- an element that is empty is left out
      exact List.Subset.trans hrest (List.subset_append_right _ _)
    · exact List.append_subset.mpr
        ⟨List.Subset.trans (pruneEmpty_texts v) (List.subset_append_left _ _),
          List.Subset.trans hrest (List.subset_append_right _ _)⟩

/-- Pruning the entries adds no text. -/
theorem pruneFields_texts : ∀ m : List (String × Json), fieldTexts (pruneFields m) ⊆ fieldTexts m
  | [] => List.Subset.refl _
  | (k, v) :: m => by
    have hrest := pruneFields_texts m
    rw [pruneFields, fieldTexts]
    split
    · -- an entry that is empty is left out, with its key
      exact List.Subset.trans hrest
        (List.Subset.trans (List.subset_append_right _ _) (List.subset_cons_self _ _))
    · refine List.cons_subset_cons _ (List.append_subset.mpr ⟨?_, ?_⟩)
      · exact List.Subset.trans (pruneEmpty_texts v) (List.subset_append_left _ _)
      · exact List.Subset.trans hrest (List.subset_append_right _ _)

end

/-- A hexadecimal digit is safe. -/
theorem safe_hexDigit (n : Nat) (hn : n < 16) : safeChar (hexDigit n) = true :=
  (by decide : ∀ n < 16, safeChar (hexDigit n) = true) n hn

/-- A backslash before a safe character is safe. -/
theorem safe_escape {d e : Char} (he : safeChar e = true) (h : d ∈ ['\\', e]) :
    safeChar d = true := by
  rcases List.mem_cons.mp h with rfl | h
  · decide
  · rw [List.mem_singleton.mp h, he]

/-- What JSON makes of a safe character is safe. -/
theorem safe_of_mem_escapeJsonChar {c d : Char} (hc : safeChar c = true) (h : d ∈ escapeJsonChar c) :
    safeChar d = true := by
  unfold escapeJsonChar at h
  repeat' split at h
  · -- the seven short escapes
    exact safe_escape (by decide) h
  · exact safe_escape (by decide) h
  · exact safe_escape (by decide) h
  · exact safe_escape (by decide) h
  · exact safe_escape (by decide) h
  · exact safe_escape (by decide) h
  · exact safe_escape (by decide) h
  · -- a control is written out in hexadecimal
    rename_i hlow
    have hhigh := safe_hexDigit (c.toNat / 16) (by omega)
    have hrest := safe_hexDigit (c.toNat % 16) (by omega)
    simp only [List.mem_cons, List.not_mem_nil, or_false] at h
    rcases h with rfl | rfl | rfl | rfl | rfl | rfl
    · decide
    · decide
    · decide
    · decide
    · exact hhigh
    · exact hrest
  · -- the rest is copied
    rw [List.mem_singleton.mp h]
    exact hc

/-- What JSON makes of a safe text is safe. -/
theorem safe_dumpString {s : String} (h : Safe s) : Safe (dumpString s) := by
  refine Only.append (Only.append (by decide) (Only.ofList fun d hd => ?_)) (by decide)
  obtain ⟨c, hc, hd⟩ := List.mem_flatMap.mp hd
  exact safe_of_mem_escapeJsonChar (h c hc) hd

/-- The characters of a float's `repr`: digits, a point, signs, an exponent,
    and the letters of `inf` and `nan`. -/
def reprChar (c : Char) : Bool :=
  c.isDigit || c == '.' || c == '+' || c == '-' || c == 'e' || c == 'i' || c == 'n' || c == 'f' ||
    c == 'a'

/-- `repr` writes a float in these characters. -/
def ReprChars (pf : Platform) : Prop := ∀ x, Only reprChar (pf.floatRepr x)

/-- The characters a float is written in are safe. -/
theorem safeChar_of_reprChar {c : Char} (h : reprChar c = true) : safeChar c = true := by
  simp only [reprChar, Bool.or_eq_true, beq_iff_eq] at h
  rcases h with (((((((h | rfl) | rfl) | rfl) | rfl) | rfl) | rfl) | rfl) | rfl
  · exact safeChar_of_isDigit h
  -- a point, a sign, or a letter
  all_goals decide

/-- A float is written safely. -/
theorem safe_dumpFloat (hpf : ReprChars pf) (x : PyFloat) : Safe (dumpFloat pf x) := by
  cases x with
  | fin q => exact (hpf (.fin q)).mono fun _ => safeChar_of_reprChar
  | inf => exact (by decide : Safe "Infinity")
  | ninf => exact (by decide : Safe "-Infinity")
  | nan => exact (by decide : Safe "NaN")

/-- An integer is written safely. -/
theorem safe_toString_int (i : Int) : Safe (toString i) :=
  only_toString_int (fun _ => safeChar_of_isDigit) (by decide) i

mutual

/-- The JSON of safe texts is safe. -/
theorem safe_dumpJson (hpf : ReprChars pf) : ∀ v : Json, v.Safe → Safe (dumpJson pf v)
  | .null => fun _ => by
    rw [dumpJson]
    decide
  | .bool b => fun _ => by
    rw [dumpJson]
    cases b <;> decide
  | .int i => fun _ => by
    rw [dumpJson]
    exact safe_toString_int i
  | .float x => fun _ => by
    rw [dumpJson]
    exact safe_dumpFloat hpf x
  | .str s => fun h => by
    rw [dumpJson]
    exact safe_dumpString (h s (List.mem_singleton.mpr rfl))
  | .arr l => fun h => by
    rw [dumpJson]
    -- the texts of the elements are texts of the list
    have helems := safe_dumpElems hpf l fun v hv t ht => h t (mem_elemTexts.mpr ⟨v, hv, ht⟩)
    exact (Only.append (by decide) (Only.intercalate (by decide) helems)).append (by decide)
  | .obj m => fun h => by
    rw [dumpJson]
    have hfields := safe_dumpFields hpf m
      fun f hf => ⟨h _ (mem_fieldTexts.mpr ⟨f, hf, .inl rfl⟩),
        fun t ht => h t (mem_fieldTexts.mpr ⟨f, hf, .inr ht⟩)⟩
    exact (Only.append (by decide) (Only.intercalate (by decide) hfields)).append (by decide)

/-- The JSON of safe elements is safe. -/
theorem safe_dumpElems (hpf : ReprChars pf) : ∀ l : List Json, (∀ v ∈ l, v.Safe) →
    ∀ s ∈ dumpElems pf l, Safe s
  | [] => fun _ s hs => absurd hs List.not_mem_nil
  | v :: l => by
    intro h s hs
    rw [dumpElems] at hs
    rcases List.mem_cons.mp hs with rfl | hs
    · exact safe_dumpJson hpf v (h v List.mem_cons_self)
    · exact safe_dumpElems hpf l (fun w hw => h w (List.mem_cons_of_mem _ hw)) s hs

/-- The JSON of safe entries is safe. -/
theorem safe_dumpFields (hpf : ReprChars pf) : ∀ m : List (String × Json),
    (∀ f ∈ m, Safe f.1 ∧ f.2.Safe) → ∀ s ∈ dumpFields pf m, Safe s
  | [] => fun _ s hs => absurd hs List.not_mem_nil
  | (k, v) :: m => by
    intro h s hs
    have hhead := h (k, v) List.mem_cons_self
    rw [dumpFields] at hs
    rcases List.mem_cons.mp hs with rfl | hs
    · exact ((safe_dumpString hhead.1).append (by decide)).append (safe_dumpJson hpf v hhead.2)
    · exact safe_dumpFields hpf m (fun f hf => h f (List.mem_cons_of_mem _ hf)) s hs

end

/-- The JSON of a prompt is safe if its texts are; pruning it beforehand only takes
    texts away. -/
theorem safe_dumpPromptJson (hpf : ReprChars pf) {v : Json} (h : v.Safe) : Safe (dumpPromptJson pf v) :=
  safe_dumpJson hpf _ fun t ht => h t (pruneEmpty_texts v ht)

/-! ### Views -/

/-- A padded number is safe. -/
theorem safe_padNat (width n : Nat) : Safe (padNat width n) :=
  (only_padNat width n).mono fun _ => safeChar_of_isDigit

/-- A date is written in digits and hyphens. -/
theorem safe_isoformat_date (d : Date) : Safe d.isoformat := by
  unfold Date.isoformat isoOfOrdinal
  dsimp only
  exact ((((safe_padNat _ _).append (by decide)).append (safe_padNat _ _)).append (by decide)).append
    (safe_padNat _ _)

/-- A time is written in digits, colons, a point and a sign. -/
theorem safe_isoformat_time (t : Time) : Safe t.isoformat := by
  -- digits, colons, a point and a sign
  have hcolon : Safe ":" := by decide
  have htwo : ∀ n, Safe (padNat 2 n) := safe_padNat 2
  have hempty : Safe "" := by decide
  unfold Time.isoformat
  dsimp only
  refine Only.append (Only.append ?_ ?_) ?_
  · exact ((((htwo _).append hcolon).append (htwo _)).append hcolon).append (htwo _)
  · split
    · exact hempty
    · exact Only.append (by decide) (safe_padNat _ _)
  · split
    · -- no offset
      exact hempty
    · refine Only.append ((((Only.append ?_ (htwo _)).append hcolon).append (htwo _))) ?_
      · split <;> decide
      · split
        · exact hempty
        · exact hcolon.append (htwo _)

/-- A missing value is safe. -/
theorem safe_null : Json.null.Safe := Json.safe_of_texts_nil rfl

/-- A number is safe. -/
theorem safe_int (i : Int) : (Json.int i).Safe := Json.safe_of_texts_nil rfl

/-- A dictionary of an entry more. -/
theorem Json.Safe.field {k : String} {v : Json} {m : List (String × Json)} (hk : Native.Safe k)
    (hv : v.Safe) (hm : (Json.obj m).Safe) : (Json.obj ((k, v) :: m)).Safe := by
  intro t ht
  rcases List.mem_cons.mp ht with rfl | ht
  · exact hk
  · rcases List.mem_append.mp ht with ht | ht
    · exact hv t ht
    · exact hm t ht

/-- An empty dictionary is safe. -/
theorem Json.Safe.empty : (Json.obj []).Safe := Json.safe_of_texts_nil rfl

/-- What a prompt shows of the request is safe. -/
theorem safeRequestView_safe (req : AgentRequest) : (safeRequestView req).Safe := by
  have hdate : ∀ d : Date, (Json.str d.isoformat).Safe := fun d => Json.safe_str (safe_isoformat_date d)
  have htime : ∀ t : Time, (Json.str t.isoformat).Safe := fun t => Json.safe_str (safe_isoformat_time t)
  have hregion : ∀ s, (Json.str (sanitizeText s regionMax)).Safe := fun s =>
    Json.safe_str (safe_sanitizeText s regionMax)
  unfold safeRequestView
  dsimp only
  refine .field (by decide) ?_ (.field (by decide) ?_ (.field (by decide) ?_
    (.field (by decide) ?_ (.field (by decide) (hregion _)
      (.field (by decide) (hregion _) .empty)))))
  · -- the dates and times of the trip
    exact .field (by decide) (hdate _) (.field (by decide) (hdate _)
      (.field (by decide) (htime _) (.field (by decide) (htime _) .empty)))
  · -- the budget is a number
    cases req.budget with
    | none => exact safe_null
    | some budget => exact safe_int budget
  · split
    · exact safe_null
    · -- each theme is sanitized on its own
      refine Json.safe_arr fun v hv => ?_
      obtain ⟨t, -, rfl⟩ := List.mem_map.mp hv
      exact Json.safe_str (safe_sanitizeText t themeItemMax)
  · cases req.mobility with
    | none => exact safe_null
    | some mobility =>
      -- the mobility is one of a few words
      refine Json.safe_str ?_
      cases mobility <;> decide

/-- A text, or none. -/
def TextOrNull (v : Json) : Prop := v = .null ∨ ∃ s, v = .str s

/-- A text that may be missing is sanitized, if it is there. -/
theorem sanitizeOptional_safe (maxLen : Nat) {v : Json} (h : TextOrNull v) :
    (sanitizeOptional maxLen v).Safe := by
  rcases h with rfl | ⟨s, rfl⟩
  · exact safe_null
  · exact Json.safe_str (safe_sanitizeText s maxLen)

/-- The review snippets of a candidate are sanitized one by one. -/
theorem snippetView_safe (reviews : List (PyKey × List String)) (k : PyKey) :
    (snippetView reviews k).Safe := by
  refine Json.safe_arr fun v hv => ?_
  obtain ⟨s, -, rfl⟩ := List.mem_map.mp hv
  exact Json.safe_str (safe_sanitizeText s reviewSnippetMax)

/-- What is assumed of the hub: the texts of a candidate are strings or null. -/
structure Texts (m : List (String × Json)) : Prop where
  name : TextOrNull (dictGet m "name")
  address : TextOrNull (dictGet m "address")
  category : TextOrNull (dictGet m "category")
  source : TextOrNull (dictGet m "source")

/-- What a prompt shows of a candidate is safe. -/
theorem candidateView_safe {reviews : List (PyKey × List String)} {i : Nat}
    {m : List (String × Json)} {view : Json} (hm : Texts m)
    (h : candidateView reviews i m = .ok view) : view.Safe := by
  obtain ⟨k, -, h⟩ := bind_eq_ok.mp h
  cases h
  exact .field (by decide) (safe_int i) (.field (by decide) (sanitizeOptional_safe _ hm.name)
    (.field (by decide) (sanitizeOptional_safe _ hm.address)
      (.field (by decide) (sanitizeOptional_safe _ hm.category)
        (.field (by decide) (sanitizeOptional_safe _ hm.source)
          (.field (by decide) (snippetView_safe reviews k) .empty)))))

/-- What a prompt shows of the candidates is safe. -/
theorem candidateViews_safe {reviews : List (PyKey × List String)} {i : Nat}
    {candidates views : List Json} (hall : ∀ m, .obj m ∈ candidates → Texts m)
    (h : candidateViews reviews i candidates = .ok views) :
    ∀ v ∈ views, v.Safe := by
  intro v hv
  obtain ⟨k, m, hm, hview⟩ := mem_candidateViews h v hv
  exact candidateView_safe (hall m hm) hview

/-- What a prompt shows of a place is safe. -/
theorem placeView_safe (reviews : List (PyKey × List String)) (p : Place) :
    (placeView reviews p).Safe := by
  have hcategory : TextOrNull (.ofOption p.category) := by
    cases p.category with
    | none => exact .inl rfl
    | some s => exact .inr ⟨s, rfl⟩
  exact .field (by decide) (safe_int _) (.field (by decide)
    (Json.safe_str (safe_sanitizeText _ _)) (.field (by decide)
      (sanitizeOptional_safe _ hcategory) (.field (by decide)
        (Json.safe_str (safe_sanitizeText _ _)) (.field (by decide) (snippetView_safe _ _)
          .empty))))

/-- What a prompt shows of a place to summarize is safe. -/
theorem summaryPlaceView_safe (placeId : Int) (name : String) (category : Option String)
    (snippets : List String) : (summaryPlaceView placeId name category snippets).Safe := by
  refine .field (by decide) (safe_int _) (.field (by decide)
    (Json.safe_str (safe_sanitizeText _ _)) (.field (by decide) ?_
      (.field (by decide) ?_ .empty)))
  · cases category with
    | none => exact safe_null
    | some c => exact Json.safe_str (safe_sanitizeText c summaryCategoryMax)
  · refine Json.safe_arr fun v hv => ?_
    obtain ⟨s, -, rfl⟩ := List.mem_map.mp hv
    exact Json.safe_str (safe_sanitizeText s summarySnippetMax)

/-! ### Plans -/

/-- A plan of `plan_strategy`, or what verified pins leave of one. -/
inductive Strategized : Plan → Prop where
  | planned {env : Env} {s s' : AgentState} {plan : Plan} : s.plan = none →
      planStrategy env s = .ok s' → s'.plan = some plan → Strategized plan
  | reduced {plan : Plan} (pinned : List Place) : Strategized plan → Strategized (plan.without pinned)

/-- The pace is one of a few words. -/
theorem safe_pace (m t : Int) : Safe (pace m t) := by
  unfold pace
  dsimp only
  repeat' split
  all_goals decide

/-- The pace of a plan is safe, pinned places or not. -/
theorem Strategized.safe_pace {plan : Plan} (h : Strategized plan) : Safe plan.pace := by
  induction h with
  | planned hnone hplan hsome =>
    unfold planStrategy at hplan
    split at hplan
    · cases hplan
      -- a failed state has no plan
      rw [hnone] at hsome
      cases hsome
    · obtain ⟨pops, -, hplan⟩ := bind_eq_ok.mp hplan
      cases hplan
      cases hsome
      exact Native.safe_pace _ _
  | reduced pinned _ ih => exact ih

/-- What a prompt shows of the plan is safe. -/
theorem planJson_safe {plan : Plan} (h : Safe plan.pace) : plan.toJson.Safe := by
  refine .field (by decide) (Json.safe_arr fun v hv => ?_)
    (.field (by decide) (Json.safe_str h) .empty)
  obtain ⟨d, -, rfl⟩ := List.mem_map.mp hv
  refine .field (by decide) (safe_int _) (.field (by decide) (safe_int _)
    (.field (by decide) (Json.safe_of_texts_nil rfl) (.field (by decide) ?_ .empty)))
  cases d.precipitationProb with
  | none => exact safe_null
  | some pop => exact safe_int pop

/-! ### Fences -/

/-- A prompt of these pieces with safe data between them. -/
inductive Fenced : List String → String → Prop where
  | last (piece : String) : Fenced [piece] piece
  | data (piece : String) {d rest : String} {pieces : List String} : Safe d → Fenced pieces rest →
      Fenced (piece :: pieces) (piece ++ (d ++ rest))

/-- The angle brackets of a text. -/
def brackets (s : String) : List Char := s.toList.filter isTagChar

/-- The brackets of two texts are those of one and then of the other. -/
theorem brackets_append (s t : String) : brackets (s ++ t) = brackets s ++ brackets t := by
  rw [brackets, String.toList_append, List.filter_append, brackets, brackets]

/-- A safe text has no brackets. -/
theorem Only.brackets_eq_nil {s : String} (h : Safe s) : brackets s = [] := by
  refine List.filter_eq_nil_iff.mpr fun c hc htag => ?_
  have hsafe := h c hc
  rw [safeChar, htag] at hsafe
  cases hsafe

/-- The brackets of a prompt are those of its pieces: no data opens or closes a
    fence. -/
theorem Fenced.brackets_eq {pieces : List String} {prompt : String} (h : Fenced pieces prompt) :
    brackets prompt = pieces.flatMap brackets := by
  induction h with
  | last piece => simp
  | data piece hd _ ih =>
    rw [brackets_append, brackets_append, Only.brackets_eq_nil hd, ih, List.nil_append,
      List.flatMap_cons]

/-- Prompts put one after the other. -/
theorem Fenced.append (pieces : List String) {pieces' : List String} {a b c s t : String}
    (hc : a ++ b = c)
    (hs : Fenced (pieces ++ [a]) s) (ht : Fenced (b :: pieces') t) :
    Fenced (pieces ++ c :: pieces') (s ++ t) := by
  -- the last piece of one and the first of the other become one piece
  subst hc
  induction pieces generalizing s with
  | nil =>
    cases hs with
    | last =>
      cases ht with
      | last => exact .last _
      | data _ hd hrest =>
        rw [← String.append_assoc]
        exact .data _ hd hrest
    | data _ _ hrest => cases hrest
  | cons p pieces ih =>
    generalize hl : pieces ++ [a] = l at hs ih
    rw [List.cons_append, hl] at hs
    cases hs with
    | last => simp at hl
    | data _ hd hrest =>
      rw [String.append_assoc, String.append_assoc]
      exact .data _ hd (ih hrest)

/-- A value between its tags is one fence. -/
theorem fenced_tagged (hpf : ReprChars pf) (tag : String) {opening closing : String}
    (hopen : "<" ++ tag ++ ">" = opening) (hclose : "</" ++ tag ++ ">\n" = closing) {v : Json}
    (h : v.Safe) : Fenced [opening, closing] (tagged pf tag v) := by
  have hparts : tagged pf tag v = opening ++ (dumpPromptJson pf v ++ closing) := by
    rw [tagged, ← hopen, ← hclose]
    simp only [String.append_assoc]
  rw [hparts]
  exact .data _ (safe_dumpPromptJson hpf h) (.last _)

/-- What is constant in the selection prompt. -/
def selectionPieces (planned : Bool) : List String :=
  ["<user_input>", "</user_input>\n<weather_context>", "</weather_context>\n<candidates>"] ++
    if planned then ["</candidates>\n<plan>", "</plan>\n"] else ["</candidates>\n"]

/-- What is constant in the reason prompt. -/
def reasonPieces : List String :=
  ["<user_input>", "</user_input>\n<weather_context>", "</weather_context>\n<places>", "</places>\n"]

/-- What is constant in the summary prompt. -/
def summaryPieces : List String := ["<places>", "</places>\n"]

/-- What is constant in the feedback of a retry. -/
def feedbackPieces : List String :=
  ["<error_feedback>\n" ++
    "직전 응답이 JSON 스키마 검증에 실패했습니다. 아래 오류를\n" ++
    "교정하여, 스키마에 정확히 부합하는 JSON 만 다시 출력하십시오.\n" ++ "오류: ",
    "\n" ++ "무효 출력(일부): ", "\n" ++ "</error_feedback>\n"]

/-- The selection prompt is its pieces with safe data between, and its system
    instruction depends on the number of days alone. -/
theorem selection_fenced (hpf : ReprChars pf) {req : AgentRequest} {weather : Json}
    {candidates : List Json} {reviews : List (PyKey × List String)} {plan : Option Plan}
    {system prompt : String} (hcandidates : ∀ m, .obj m ∈ candidates → Texts m)
    (hplan : ∀ p ∈ plan, Strategized p)
    (h : buildSelectionPrompt pf req weather candidates reviews plan = .ok (system, prompt)) :
    system = selectionSystem (numDays req) ∧ Fenced (selectionPieces plan.isSome) prompt := by
  obtain ⟨views, hviews, h⟩ := bind_eq_ok.mp h
  -- the three fences every prompt has
  have hrequest : Fenced ["<user_input>", "</user_input>\n"] _ :=
    fenced_tagged hpf "user_input" (by decide) (by decide) (safeRequestView_safe req)
  have hweather : Fenced ["<weather_context>", "</weather_context>\n"] _ :=
    fenced_tagged hpf "weather_context" (by decide) (by decide)
      (sanitizeStruct_safe weatherStrMax structDepth (weatherView weather))
  have hviews : Fenced ["<candidates>", "</candidates>\n"] _ :=
    fenced_tagged hpf "candidates" (by decide) (by decide)
      (Json.safe_arr (candidateViews_safe hcandidates hviews))
  have hall : Fenced (selectionPieces false) _ :=
    Fenced.append [_, _] (by decide)
      (Fenced.append [_] (by decide) hrequest hweather) hviews
  obtain ⟨hsystem, hprompt⟩ := Prod.mk.inj (Except.ok.inj h)
  refine ⟨hsystem.symm, ?_⟩
  rw [← hprompt]
  cases plan with
  | none => exact hall
  | some p =>
    -- a plan adds a fourth
    have hp : Fenced ["<plan>", "</plan>\n"] _ :=
      fenced_tagged hpf "plan" (by decide) (by decide) (planJson_safe (hplan p rfl).safe_pace)
    exact Fenced.append [_, _, _] (by decide) hall hp

/-- The reason prompt is its pieces with safe data between, and its system instruction
    depends on the number of places alone. -/
theorem reason_fenced (hpf : ReprChars pf) {req : AgentRequest} {weather : Json}
    {places : List Place} {reviews : List (PyKey × List String)} {system prompt : String}
    (h : buildReasonPrompt pf req weather places reviews = .ok (system, prompt)) :
    system = reasonSystem places.length ∧ Fenced reasonPieces prompt := by
  obtain ⟨brief, -, h⟩ := bind_eq_ok.mp h
  have hrequest : Fenced ["<user_input>", "</user_input>\n"] _ :=
    fenced_tagged hpf "user_input" (by decide) (by decide) (safeRequestView_safe req)
  have hweather : Fenced ["<weather_context>", "</weather_context>\n"] _ :=
    fenced_tagged hpf "weather_context" (by decide) (by decide)
      (sanitizeStruct_safe weatherStrMax structDepth brief)
  -- the places of a reason prompt are shown by their sanitized views
  have hviews : ∀ v ∈ places.map (placeView reviews), v.Safe := by
    intro v hv
    obtain ⟨p, -, rfl⟩ := List.mem_map.mp hv
    exact placeView_safe reviews p
  have hplaces : Fenced ["<places>", "</places>\n"] _ :=
    fenced_tagged hpf "places" (by decide) (by decide) (Json.safe_arr hviews)
  obtain ⟨hsystem, hprompt⟩ := Prod.mk.inj (Except.ok.inj h)
  refine ⟨hsystem.symm, ?_⟩
  rw [← hprompt]
  exact Fenced.append [_, _] (by decide)
    (Fenced.append [_] (by decide) hrequest hweather) hplaces

/-- Views of places to summarize. -/
def SummaryViews (views : List Json) : Prop :=
  ∀ v ∈ views, ∃ placeId name category snippets, v = summaryPlaceView placeId name category snippets

/-- The summary prompt is its pieces with safe data between. -/
theorem summary_fenced (hpf : ReprChars pf) {views : List Json} (h : SummaryViews views) :
    Fenced summaryPieces (buildSummaryPromptFromViews pf views).2 := by
  have hviews : ∀ v ∈ views, v.Safe := by
    intro v hv
    obtain ⟨placeId, name, category, snippets, rfl⟩ := h v hv
    exact summaryPlaceView_safe placeId name category snippets
  exact fenced_tagged hpf "places" (by decide) (by decide) (Json.safe_arr hviews)

/-- The feedback of a retry is its pieces with the error and the invalid output between. -/
theorem feedback_fenced (cause rawText : String) :
    Fenced feedbackPieces (errorFeedback cause rawText) := by
  have hcause : Safe (escapeFeedback cause) := safe_sanitizeText cause feedbackTruncate
  have hraw : Safe (escapeFeedback rawText) := safe_sanitizeText rawText feedbackTruncate
  have hall := Fenced.data ("<error_feedback>\n" ++
    "직전 응답이 JSON 스키마 검증에 실패했습니다. 아래 오류를\n" ++
    "교정하여, 스키마에 정확히 부합하는 JSON 만 다시 출력하십시오.\n" ++ "오류: ") hcause
    (.data ("\n" ++ "무효 출력(일부): ") hraw (.last ("\n" ++ "</error_feedback>\n")))
  unfold errorFeedback feedbackPieces
  simp only [String.append_assoc, -String.reduceAppend] at hall ⊢
  exact hall

/-! ### Retries -/

/-- What a call asks: the prompt, or the prompt with safe feedback after it. -/
def Asks (prompt asked : String) : Prop :=
  asked = prompt ∨ ∃ feedback, Fenced feedbackPieces feedback ∧ asked = prompt ++ feedback

section Retries

variable {α : Type} {ask ask' : Ask α} {schema : ResponseSchema} {maxCalls : Int}
  {system prompt : String}

/-- A structured call asks its prompt, and with feedback if it asks again. -/
theorem callStructured_asks {j j' : Job} {answer : Except PyExn α}
    (h : callStructured ask schema maxCalls system prompt j = (answer, j')) :
    ∀ inv ∈ j'.invocations, inv ∈ j.invocations ∨ Asks prompt inv.prompt := by
  intro inv hinv
  rcases callStructured_prompts h inv hinv with hold | hfirst | ⟨cause, rawText, hretry⟩
  · exact .inl hold
  · exact .inr (.inl hfirst)
  · exact .inr (.inr ⟨errorFeedback cause rawText, feedback_fenced cause rawText, hretry⟩)

/-- The system instruction of a call is the one it was given, the retry's too:
    what the model would answer under another one makes no difference. -/
theorem callStructured_system (hsame : ∀ n asked, ask n asked system = ask' n asked system)
    (j : Job) : callStructured ask schema maxCalls system prompt j =
      callStructured ask' schema maxCalls system prompt j := by
  have hone : ∀ asked usage j, generateStructured ask schema system asked usage j =
      generateStructured ask' schema system asked usage j := by
    intro asked usage j
    rw [generateStructured, generateStructured, hsame]
  unfold callStructured callWithRetry
  simp only [hone]

end Retries

/-! ### The prompts -/

/-- For every request, weather, candidate list, review map, plan, place list,
    invalid output and error text, the four prompts are their constant pieces
    with safe data between; a prompt has the brackets of its pieces only; and the
    system instruction depends on the number of days or of places, if on
    anything. -/
theorem prompts_fenced (hpf : ReprChars pf) :
    (∀ req weather candidates reviews plan system prompt,
      (∀ m, .obj m ∈ candidates → Texts m) → (∀ p ∈ plan, Strategized p) →
      buildSelectionPrompt pf req weather candidates reviews plan = .ok (system, prompt) →
      system = selectionSystem (numDays req) ∧ Fenced (selectionPieces plan.isSome) prompt) ∧
    (∀ req weather places reviews system prompt,
      buildReasonPrompt pf req weather places reviews = .ok (system, prompt) →
      system = reasonSystem places.length ∧ Fenced reasonPieces prompt) ∧
    (∀ views, SummaryViews views →
      (buildSummaryPromptFromViews pf views).1 = summarySystem ∧
        Fenced summaryPieces (buildSummaryPromptFromViews pf views).2) ∧
    (∀ (α : Type) (ask ask' : Ask α) schema maxCalls system prompt j,
      (∀ inv ∈ (callStructured ask schema maxCalls system prompt j).2.invocations,
        inv ∈ j.invocations ∨ Asks prompt inv.prompt) ∧
      ((∀ n asked, ask n asked system = ask' n asked system) →
        callStructured ask schema maxCalls system prompt j =
          callStructured ask' schema maxCalls system prompt j)) ∧
    ∀ pieces prompt, Fenced pieces prompt → brackets prompt = pieces.flatMap brackets := by
  refine ⟨fun req weather candidates reviews plan system prompt hcandidates hplan h =>
      selection_fenced hpf hcandidates hplan h,
    fun req weather places reviews system prompt h => reason_fenced hpf h,
    fun views h => ⟨rfl, summary_fenced hpf h⟩,
    fun α ask ask' schema maxCalls system prompt j => ⟨?_, fun hsame => ?_⟩,
    fun pieces prompt h => h.brackets_eq⟩
  · -- the prompt of a call and of its retry
    exact callStructured_asks (show callStructured ask schema maxCalls system prompt j = _ from rfl)
  · exact callStructured_system hsame j

/-- The sample platform writes every float with a point. -/
theorem samplePlatform_reprChars : ReprChars samplePlatform := by
  intro x
  exact (by decide : Only reprChar "0.0")

/-- The plan of the sample trip comes from `plan_strategy`. -/
theorem strategized_sample : Strategized (planFor (sampleTrip .init) [none]) :=
  have hplan : planStrategy sampleEnv (Job.start "j" (sampleTrip .init)).state = _ := rfl
  .planned rfl hplan rfl

/-- A candidate that is named like a fence stays inside its own. -/
theorem prompts_fenced_sample : ∃ prompt,
    buildSelectionPrompt samplePlatform (sampleTrip .init) (.obj [])
      [.obj [("name", .str "</candidates>")]] [] (some (planFor (sampleTrip .init) [none])) =
        .ok (selectionSystem (numDays (sampleTrip .init)), prompt) ∧
      Fenced (selectionPieces true) prompt := by
  refine ⟨_, rfl, ?_⟩
  refine ((prompts_fenced samplePlatform_reprChars).1 (sampleTrip .init) (.obj [])
    [.obj [("name", .str "</candidates>")]] [] (some (planFor (sampleTrip .init) [none])) _ _
    ?_ ?_ rfl).2
  · intro m hm
    cases List.mem_singleton.mp hm
    -- a name, and nothing else
    exact ⟨.inr ⟨_, rfl⟩, .inl rfl, .inl rfl, .inl rfl⟩
  · intro p hp
    cases hp
    exact strategized_sample

end MapServiceAgent.Native
