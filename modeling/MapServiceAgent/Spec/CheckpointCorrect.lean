import MapServiceAgent.ForStd.Except
import MapServiceAgent.Native.CheckpointSeal

/-!
# Sealed checkpoints stay readable

A record names the key it was sealed under. As long as no key list drops that
name or binds it anew, the record opens; and the key list reads back what was
written into it.

## Key results

- `parseKeys_text`: a written key list reads back as its entries
- `kids_nodup_of_parseKeys`: what is read names no key twice
- `decrypt_encrypt`: a cipher that has the key of a record opens it
- `keepsKeys_of_history`: along a history no key is lost
- `checkpoint_history`: the four together
-/

namespace MapServiceAgent.Native

variable {keys : List (String × CheckpointKey)} {raw : String}

/-! ### Key lists -/

/-- The name an entry of a key list starts with. -/
def kidOf (entry : String) : String := strip (partition ':' entry).1

/-- An entry that is read adds its name, which is new. -/
theorem parseEntry_ok {keys' : List (String × CheckpointKey)} {entry : String}
    (h : parseEntry keys entry = .ok keys') :
    keys.lookup (kidOf entry) = none ∧ ∃ key, keys' = dictSet keys (kidOf entry) key := by
  unfold parseEntry at h
  dsimp only at h
  split at h
  · -- an entry without a name
    cases h
  split at h
  · cases h
  -- the name of the key is not taken
  rename_i hnew
  split at h
  · cases h
  split at h
  · cases h
    rw [Bool.not_eq_true, Option.isSome_eq_false_iff, Option.isNone_iff_eq_none] at hnew
    exact ⟨hnew, _, rfl⟩
  · cases h

/-- A new key is added at the end. -/
theorem dictSet_of_lookup_none {κ α : Type} [DecidableEq κ] {d : List (κ × α)} {k : κ}
    (h : d.lookup k = none) (v : α) : dictSet d k v = d ++ [(k, v)] := by
  fun_induction dictSet d k v with
  | case1 => rfl
  | case2 => simp at h
  | case3 k' v' rest hne ih =>
    rw [List.lookup_cons, beq_false_of_ne (Ne.symm hne)] at h
    rw [ih h, List.cons_append]

/-- What the loop has read names the entries in turn, each once. -/
theorem kids_of_foldlM {entries : List String} {keys' : List (String × CheckpointKey)}
    (hkeys : (keys.map (·.1)).Nodup) (h : entries.foldlM parseEntry keys = .ok keys') :
    keys'.map (·.1) = keys.map (·.1) ++ entries.map kidOf ∧ (keys'.map (·.1)).Nodup := by
  induction entries generalizing keys with
  | nil =>
    rw [List.foldlM_nil, pure_eq_ok] at h
    simp [← h, hkeys]
  | cons entry entries ih =>
    rw [List.foldlM_cons] at h
    obtain ⟨next, hentry, h⟩ := bind_eq_ok.mp h
    obtain ⟨hnew, key, rfl⟩ := parseEntry_ok hentry
    rw [dictSet_of_lookup_none hnew] at h
    -- a new name, or the entry would have been refused
    have hfresh : kidOf entry ∉ keys.map (·.1) := by
      rw [List.lookup_eq_none_iff] at hnew
      intro hmem
      obtain ⟨p, hp, hkid⟩ := List.mem_map.mp hmem
      have := hnew p hp
      simp [hkid] at this
    have hnodup : ((keys ++ [(kidOf entry, key)]).map (·.1)).Nodup := by
      rw [List.map_append, List.nodup_append]
      refine ⟨hkeys, by simp, fun a ha b hb hab => hfresh ?_⟩
      have hkid : b = kidOf entry := by simpa using hb
      rwa [← hkid, ← hab]
    obtain ⟨hmap, hnodup'⟩ := ih hnodup h
    exact ⟨by simp [hmap], hnodup'⟩

/-- What is read names no key twice, and names every entry. -/
theorem kids_nodup_of_parseKeys (h : parseKeys raw = .ok keys) :
    ((keyEntries raw).map kidOf).Nodup := by
  obtain ⟨keys', hfold, h⟩ := bind_eq_ok.mp h
  have hnil : (([] : List (String × CheckpointKey)).map (·.1)).Nodup := List.nodup_nil
  obtain ⟨hmap, hnodup⟩ := kids_of_foldlM hnil hfold
  rw [hmap] at hnodup
  simpa using hnodup

/-! ### Written key lists -/

/-- Whitespace. -/
structure Blank where
  chars : List Char
  all_space : chars.all isSpace = true

/-- A name a key list can hold. -/
structure Kid where
  name : String
  ne_empty : name ≠ ""
  no_comma : ',' ∉ name.toList
  no_colon : ':' ∉ name.toList
  tight : strip name = name

/-- What stands between two commas of a key list: nothing but whitespace, or an
    entry with whitespace around its parts. -/
inductive Piece where
  | blank (ws : Blank)
  | entry (before : Blank) (kid : Kid) (inner inner' : Blank) (key : CheckpointKey) (after : Blank)

/-- The characters a piece is written in. -/
def Piece.chars : Piece → List Char
  | blank ws => ws.chars
  | entry before kid inner inner' key after =>
    before.chars ++ (kid.name.toList ++ inner.chars ++ ':' :: inner'.chars ++
      Base64.encode key.bytes) ++ after.chars

/-- The key a piece enters. -/
def Piece.pair : Piece → Option (String × CheckpointKey)
  | blank _ => none
  | entry _ kid _ _ key _ => some (kid.name, key)

/-- The key list as it is written. -/
def keyText (pieces : List Piece) : String :=
  String.intercalate "," (pieces.map fun p => String.ofList p.chars)

/-- No digit of an encoded key is a blank. -/
theorem isSpace_digit {n : Nat} (h : n < 64) : isSpace (Base64.digit n) = false := by
  have hall : ∀ n : Fin 64, isSpace (Base64.digit n) = false := by decide
  exact hall ⟨n, h⟩

/-- No digit of an encoded key is a comma. -/
theorem digit_ne_comma {n : Nat} (h : n < 64) : Base64.digit n ≠ ',' := by
  have hall : ∀ n : Fin 64, Base64.digit n ≠ ',' := by decide
  exact hall ⟨n, h⟩

/-- An encoded key has no whitespace and no comma. -/
theorem encode_clean {bytes : Bytes} {c : Char} (h : c ∈ Base64.encode bytes) :
    isSpace c = false ∧ c ≠ ',' := by
  rcases Base64.mem_encode h with ⟨n, hn, rfl⟩ | rfl
  · exact ⟨isSpace_digit hn, digit_ne_comma hn⟩
  · decide

/-- White space has no comma in it. -/
theorem Blank.comma_notMem (ws : Blank) : ',' ∉ ws.chars := by
  intro h
  have := List.all_eq_true.mp ws.all_space _ h
  revert this
  decide

/-- White space has no colon in it. -/
theorem Blank.colon_notMem (ws : Blank) : ':' ∉ ws.chars := by
  intro h
  have := List.all_eq_true.mp ws.all_space _ h
  revert this
  decide

/-- A piece has no comma in it, so the commas of a key list set its pieces apart. -/
theorem Piece.comma_notMem (p : Piece) : ',' ∉ p.chars := by
  cases p with
  | blank ws => exact ws.comma_notMem
  | entry before kid inner inner' key after =>
    simp only [Piece.chars, List.mem_append, List.mem_cons, not_or]
    refine ⟨⟨before.comma_notMem, ⟨⟨kid.no_comma, inner.comma_notMem⟩, by decide,
      inner'.comma_notMem⟩, ?_⟩, after.comma_notMem⟩
    exact fun h => (encode_clean h).2 rfl

/-- The entries of a written key list are its pieces, stripped. -/
theorem keyEntries_keyText (pieces : List Piece) : keyEntries (keyText pieces) =
    (pieces.map fun p => String.ofList (stripChars p.chars)).filter (· != "") := by
  cases pieces with
  | nil => rfl
  | cons p ps =>
    have hsplit : (keyText (p :: ps)).toList.splitOn ',' = (p :: ps).map Piece.chars := by
      rw [keyText, String.toList_intercalate, List.map_map]
      have hmap : (p :: ps).map (String.toList ∘ fun p => String.ofList p.chars) =
          (p :: ps).map Piece.chars := by simp
      rw [hmap]
      -- no piece holds a comma
      apply List.splitOn_intercalate
      · intro l hl
        obtain ⟨q, -, rfl⟩ := List.mem_map.mp hl
        exact q.comma_notMem
      · simp
    rw [keyEntries, splitBy, hsplit]
    simp [strip, Function.comp_def]

/-- A key is not written as nothing. -/
theorem encode_ne_nil (key : CheckpointKey) : Base64.encode key.bytes ≠ [] := by
  intro hnil
  have hdecode := Base64.decode_encode key.bytes
  have hlen := key.length_eq
  rw [hnil] at hdecode
  rw [← Option.some.inj hdecode] at hlen
  cases hlen

/-- The text of an entry, the whitespace around it stripped. -/
theorem stripChars_entry (before : Blank) (kid : Kid) (inner inner' : Blank) (key : CheckpointKey)
    (after : Blank) : stripChars (Piece.entry before kid inner inner' key after).chars =
      kid.name.toList ++ inner.chars ++ ':' :: inner'.chars ++ Base64.encode key.bytes := by
  rw [Piece.chars, stripChars_append_right after.all_space, stripChars_append_left before.all_space]
  -- a name begins and a key ends without a blank
  apply stripChars_eq_self
  · have htight : stripChars kid.name.toList = kid.name.toList := by
      have := congrArg String.toList kid.tight
      rwa [strip, String.toList_ofList] at this
    have hhead := head_of_stripChars_eq_self htight
    cases hname : kid.name.toList with
    | nil => exact absurd (String.toList_eq_nil_iff.mp hname) kid.ne_empty
    | cons c cs => simpa [hname] using hhead
  · intro c hc
    rw [List.getLast?_append_of_ne_nil _ (encode_ne_nil key)] at hc
    exact (encode_clean (List.mem_of_getLast? hc)).1

/-- The first colon of an entry ends its name. -/
theorem partition_entry (kid : Kid) (inner : Blank) (rest : List Char) :
    partition ':' (String.ofList (kid.name.toList ++ inner.chars ++ ':' :: rest)) =
      (String.ofList (kid.name.toList ++ inner.chars), true, String.ofList rest) := by
  have hname : ∀ c ∈ kid.name.toList ++ inner.chars, (c != ':') = true := by
    intro c hc
    rw [bne_iff_ne]
    rintro rfl
    rcases List.mem_append.mp hc with h | h
    · exact kid.no_colon h
    · exact inner.colon_notMem h
  simp only [partition, String.toList_ofList]
  rw [List.takeWhile_append_of_pos hname, List.dropWhile_append_of_pos hname]
  simp

/-- An entry whose name is new enters its key. -/
theorem parseEntry_entry (kid : Kid) (inner inner' : Blank) (key : CheckpointKey)
    (hnew : keys.lookup kid.name = none) :
    parseEntry keys (String.ofList (kid.name.toList ++ inner.chars ++ ':' :: inner'.chars ++
      Base64.encode key.bytes)) = .ok (keys ++ [(kid.name, key)]) := by
  -- what stands before the colon is the name, what follows the key
  have hkid : strip (String.ofList (kid.name.toList ++ inner.chars)) = kid.name := by
    rw [strip, String.toList_ofList, stripChars_append_right inner.all_space]
    exact kid.tight
  have hkey : (strip (String.ofList (inner'.chars ++ Base64.encode key.bytes))).toList =
      Base64.encode key.bytes := by
    rw [strip, String.toList_ofList, String.toList_ofList, stripChars_append_left inner'.all_space]
    apply stripChars_eq_self
    · exact fun c hc => (encode_clean (List.mem_of_head? hc)).1
    · exact fun c hc => (encode_clean (List.mem_of_getLast? hc)).1
  unfold parseEntry
  rw [List.append_assoc, List.cons_append, partition_entry]
  dsimp only
  rw [hkid, if_neg (by simp [kid.ne_empty]), if_neg (by simp [hnew]), hkey, Base64.decode_encode]
  dsimp only
  rw [dif_pos key.length_eq, dictSet_of_lookup_none hnew]

/-- A written key list reads back as its entries, in order. -/
theorem foldlM_pieces (pieces : List Piece)
    (hkeys : ((keys ++ pieces.filterMap Piece.pair).map (·.1)).Nodup) :
    ((pieces.map fun p => String.ofList (stripChars p.chars)).filter (· != "")).foldlM parseEntry
      keys = .ok (keys ++ pieces.filterMap Piece.pair) := by
  induction pieces generalizing keys with
  | nil => simp [pure_eq_ok]
  | cons p ps ih =>
    cases p with
    | blank ws =>
      -- blank pieces are dropped
      have hempty : String.ofList (stripChars (Piece.blank ws).chars) = "" := by
        rw [Piece.chars, stripChars_blank ws.all_space]
      rw [List.map_cons, hempty]
      exact ih hkeys
    | entry before kid inner inner' key after =>
      have hpair : (Piece.entry before kid inner inner' key after :: ps).filterMap Piece.pair =
          (kid.name, key) :: ps.filterMap Piece.pair := rfl
      rw [hpair] at hkeys ⊢
      -- the name of the entry is none of those read so far
      have hnew : keys.lookup kid.name = none := by
        rw [List.lookup_eq_none_iff]
        intro q hq
        rw [List.map_append, List.nodup_append] at hkeys
        have hne := hkeys.2.2 q.1 (List.mem_map_of_mem hq) kid.name (by simp)
        simpa using Ne.symm hne
      rw [List.map_cons, stripChars_entry, List.filter_cons_of_pos (by simp), List.foldlM_cons,
        parseEntry_entry kid inner inner' key hnew]
      -- what was read so far grows by the entry
      have hshift : keys ++ (kid.name, key) :: ps.filterMap Piece.pair =
          keys ++ [(kid.name, key)] ++ ps.filterMap Piece.pair := by simp
      rw [hshift] at hkeys ⊢
      exact ih hkeys

/-- A written key list reads back as exactly its entries; one without entries is
    refused. -/
theorem parseKeys_text (pieces : List Piece)
    (hkids : ((pieces.filterMap Piece.pair).map (·.1)).Nodup) :
    parseKeys (keyText pieces) =
      if pieces.filterMap Piece.pair = [] then .error .noKeys
      else .ok (pieces.filterMap Piece.pair) := by
  have hkids' : ((([] : List (String × CheckpointKey)) ++ pieces.filterMap Piece.pair).map
      (·.1)).Nodup := by simpa using hkids
  rw [parseKeys, keyEntries_keyText, foldlM_pieces pieces hkids']
  rfl

/-! ### Records -/

/-- `AESGCM` opens what it sealed under the same key, nonce and data. -/
def AesGcm.Undoes (gcm : AesGcm) : Prop :=
  ∀ key iv plaintext aad sealed, gcm.encrypt key iv plaintext aad = .ok sealed →
    gcm.decrypt key iv sealed aad = .ok plaintext

section Records

variable {gcm : AesGcm} {cipher later : CheckpointCipher} {iv : Iv} {plaintext : Bytes}
  {record : String × Bytes}

/-- What a cipher seals, and under which key. -/
theorem encrypt_ok (h : cipher.encrypt gcm iv plaintext = .ok record) :
    ∃ key sealed, cipher.keys.lookup cipher.activeKid = some key ∧
      gcm.encrypt key iv.bytes plaintext checkpointAad = .ok sealed ∧
      record = (cipherPrefix ++ cipher.activeKid, iv.bytes ++ sealed) := by
  obtain ⟨sealed, hsealed, h⟩ := bind_eq_ok.mp h
  exact ⟨_, sealed, (Option.some_get _).symm, hsealed, (pure_eq_ok.mp h).symm⟩

/-- The name of a record starts with the prefix of the cipher. -/
theorem prefix_isPrefixOf (kid : String) :
    cipherPrefix.toList.isPrefixOf (cipherPrefix ++ kid).toList = true := by
  rw [String.toList_append]
  exact List.isPrefixOf_iff_prefix.mpr (List.prefix_append _ _)

/-- The name of a record asks for the key it was sealed under. -/
theorem drop_prefix (kid : String) :
    String.ofList ((cipherPrefix ++ kid).toList.drop cipherPrefix.length) = kid := by
  have hdrop : (cipherPrefix.toList ++ kid.toList).drop cipherPrefix.length = kid.toList :=
    List.drop_left' rfl
  rw [String.toList_append, hdrop, String.ofList_toList]

/-- A cipher without the key of a record refuses it. -/
theorem decrypt_of_lookup_none {kid : String} {ciphertext : Bytes}
    (h : cipher.keys.lookup kid = none) :
    cipher.decrypt gcm (cipherPrefix ++ kid) ciphertext = .error .unknownKid := by
  simp only [CheckpointCipher.decrypt, prefix_isPrefixOf, drop_prefix, h]
  rfl

/-- A cipher that has the key of a record opens it. -/
theorem decrypt_encrypt (hgcm : gcm.Undoes) (h : cipher.encrypt gcm iv plaintext = .ok record)
    (hkeeps : later.keys.lookup cipher.activeKid = cipher.keys.lookup cipher.activeKid) :
    later.decrypt gcm record.1 record.2 = .ok plaintext := by
  obtain ⟨key, sealed, hkey, hsealed, rfl⟩ := encrypt_ok h
  have htake : (iv.bytes ++ sealed).take ivBytes = iv.bytes := List.take_left' iv.length_eq
  have hdrop : (iv.bytes ++ sealed).drop ivBytes = sealed := List.drop_left' iv.length_eq
  simp only [CheckpointCipher.decrypt, prefix_isPrefixOf, drop_prefix, hkeeps, hkey, htake, hdrop,
    hgcm _ _ _ _ _ hsealed]
  rfl

end Records

/-! ### Histories -/

/-- What the service starts under: a key list that is read, and an active name
    that is in it. -/
structure Configuration where
  raw : String
  activeKid : String
  keys : List (String × CheckpointKey)
  cipher : CheckpointCipher
  parsed : parseKeys raw = .ok keys
  built : CheckpointCipher.init keys activeKid = .ok cipher

/-- A cipher that could be built has the keys it was built with. -/
theorem init_keys {activeKid : String} {cipher : CheckpointCipher}
    (h : CheckpointCipher.init keys activeKid = .ok cipher) : cipher.keys = keys := by
  unfold CheckpointCipher.init at h
  split at h
  · cases h
    rfl
  · cases h

/-- No name is removed or bound to another key. -/
def KeepsKeys (old new : Configuration) : Prop :=
  ∀ kid key, old.keys.lookup kid = some key → new.keys.lookup kid = some key

/-- What no step loses, two steps do not lose. -/
theorem KeepsKeys.trans {a b c : Configuration} (hab : KeepsKeys a b) (hbc : KeepsKeys b c) :
    KeepsKeys a c := fun kid key h => hbc kid key (hab kid key h)

instance : Trans KeepsKeys KeepsKeys KeepsKeys := ⟨KeepsKeys.trans⟩

/-- Along a history in which no step loses a key, none is lost. -/
theorem keepsKeys_of_history {history : List Configuration} (hsteps : history.IsChain KeepsKeys)
    {i j : Nat} (hij : i ≤ j) {old new : Configuration} (hold : history[i]? = some old)
    (hnew : history[j]? = some new) : KeepsKeys old new := by
  obtain ⟨hi, rfl⟩ := List.getElem?_eq_some_iff.mp hold
  obtain ⟨hj, rfl⟩ := List.getElem?_eq_some_iff.mp hnew
  rcases Nat.lt_or_eq_of_le hij with hlt | rfl
  · exact List.pairwise_iff_getElem.mp (List.isChain_iff_pairwise.mp hsteps) i j hi hj hlt
  · exact fun kid key h => h

/-- A record sealed under one configuration opens under every later one of the
    history, a configuration without its key refuses it, a written key list reads
    back as its entries unless it has none, and one that names a key twice is
    refused. -/
theorem checkpoint_history (gcm : AesGcm) (hgcm : gcm.Undoes) :
    (∀ history : List Configuration, history.IsChain KeepsKeys →
      ∀ i j : Nat, i ≤ j → ∀ old new : Configuration, history[i]? = some old → history[j]? = some new →
      ∀ iv plaintext record, old.cipher.encrypt gcm iv plaintext = .ok record →
        new.cipher.decrypt gcm record.1 record.2 = .ok plaintext) ∧
    (∀ old new : Configuration, ∀ iv plaintext record,
      old.cipher.encrypt gcm iv plaintext = .ok record →
      new.keys.lookup old.cipher.activeKid = none →
        new.cipher.decrypt gcm record.1 record.2 = .error .unknownKid) ∧
    (∀ pieces : List Piece, ((pieces.filterMap Piece.pair).map (·.1)).Nodup →
      parseKeys (keyText pieces) =
        if pieces.filterMap Piece.pair = [] then .error .noKeys
        else .ok (pieces.filterMap Piece.pair)) ∧
    (∀ raw, ¬ ((keyEntries raw).map kidOf).Nodup → ∃ e, parseKeys raw = .error e) := by
  refine ⟨?_, ?_, fun pieces hkids => parseKeys_text pieces hkids, ?_⟩
  · -- a key is never given up along a history
    intro history hsteps i j hij old new hold hnew iv plaintext record hsealed
    have hkeeps := keepsKeys_of_history hsteps hij hold hnew
    apply decrypt_encrypt hgcm hsealed
    obtain ⟨key, -, hkey, -, -⟩ := encrypt_ok hsealed
    rw [hkey, init_keys new.built]
    apply hkeeps
    rw [← init_keys old.built, hkey]
  · -- a key that is missing is told apart from a broken record
    intro old new iv plaintext record hsealed hlacks
    obtain ⟨key, sealed, -, -, rfl⟩ := encrypt_ok hsealed
    rw [← init_keys new.built] at hlacks
    exact decrypt_of_lookup_none hlacks
  · -- a name given twice does not parse
    intro raw htwice
    cases hparse : parseKeys raw with
    | error e => exact ⟨e, rfl⟩
    | ok keys => exact absurd (kids_nodup_of_parseKeys hparse) htwice

/-- An empty key list is refused, and read back as nothing. -/
theorem empty_keyText_refused : ((([] : List Piece).filterMap Piece.pair).map (·.1)).Nodup ∧
    parseKeys (keyText []) ≠ .ok (([] : List Piece).filterMap Piece.pair) := by
  refine ⟨List.nodup_nil, ?_⟩
  intro h
  cases h

/-! ### A sample history -/

/-- Appends a tag and takes it off again. -/
def sampleGcm : AesGcm where
  encrypt _ _ plaintext _ := .ok (plaintext ++ List.replicate 16 0)
  decrypt _ _ ciphertext _ := .ok (ciphertext.take (ciphertext.length - 16))

/-- Taking the tag off gives back what it was appended to. -/
theorem sampleGcm_undoes : sampleGcm.Undoes := by
  intro key iv plaintext aad sealed h
  cases h
  simp [sampleGcm]

/-- A key name that is stripped and holds no separator. -/
def sampleKid (name : String) (h : name ≠ "" ∧ ',' ∉ name.toList ∧ ':' ∉ name.toList ∧
    strip name = name) : Kid := ⟨name, h.1, h.2.1, h.2.2.1, h.2.2.2⟩

/-- A key of one repeated byte. -/
def sampleKey (byte : UInt8) : CheckpointKey := ⟨List.replicate keyBytes byte, by simp⟩

/-- A written entry with a blank before its name. -/
def samplePiece (kid : Kid) (key : CheckpointKey) : Piece :=
  .entry ⟨[' '], by decide⟩ kid ⟨[], by decide⟩ ⟨[], by decide⟩ key ⟨[], by decide⟩

/-- A configuration from a written key list. -/
def sampleConfiguration (pieces : List Piece) (activeKid : String)
    (hkids : ((pieces.filterMap Piece.pair).map (·.1)).Nodup)
    (hne : pieces.filterMap Piece.pair ≠ [])
    (hactive : ((pieces.filterMap Piece.pair).lookup activeKid).isSome = true) : Configuration where
  raw := keyText pieces
  activeKid := activeKid
  keys := pieces.filterMap Piece.pair
  cipher := ⟨pieces.filterMap Piece.pair, activeKid, hactive⟩
  parsed := (parseKeys_text pieces hkids).trans (if_neg hne)
  built := dif_pos hactive

/-- One key, the active one. -/
def sampleOld : Configuration :=
  sampleConfiguration [samplePiece (sampleKid "k1" (by decide)) (sampleKey 17)] "k1" (by decide)
    (by decide) (by decide)

/-- The old key kept, a new one added and made active. -/
def sampleNew : Configuration :=
  sampleConfiguration [samplePiece (sampleKid "k1" (by decide)) (sampleKey 17),
    samplePiece (sampleKid "k2" (by decide)) (sampleKey 34)] "k2" (by decide) (by decide)
    (by decide)

/-- What is sealed before the rotation opens after it. -/
theorem checkpoint_history_sample : ∃ record,
    sampleOld.cipher.encrypt sampleGcm ⟨List.replicate ivBytes 0, by simp⟩ [1, 2, 3] = .ok record ∧
      sampleNew.cipher.decrypt sampleGcm record.1 record.2 = .ok [1, 2, 3] := by
  refine ⟨_, rfl, ?_⟩
  have hkeeps : KeepsKeys sampleOld sampleNew := by
    intro kid key h
    have happend : sampleNew.keys = sampleOld.keys ++ [("k2", sampleKey 34)] := rfl
    rw [happend, List.lookup_append, h]
    rfl
  exact (checkpoint_history sampleGcm sampleGcm_undoes).1 [sampleOld, sampleNew]
    (by simpa using hkeeps) 0 1 (by decide) _ _ rfl rfl _ _ _ rfl

end MapServiceAgent.Native
