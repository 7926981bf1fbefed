/-!
# Base64

The standard alphabet, padded to groups of four. Strict decoding refuses a
character outside the alphabet, a padding that does not end the text and a text
cut short; bits the padding leaves over are not looked at. Lenient decoding
skips what it does not know, and stops where the padding completes a group.

## Key results

- `decode_encode`, `decodeLenient_encode`: what is encoded decodes to itself
- `decodeUrl_encodeUrl`: in the URL-safe alphabet, without padding, too
- `mem_encode`: an encoded text is made of the alphabet and its padding
-/

namespace MapServiceAgent.Base64

/-- The character of a six-bit number. -/
def digit (n : Nat) : Char :=
  Char.ofNat (if n < 26 then 65 + n else if n < 52 then 71 + n else if n < 62 then n - 4
    else if n = 62 then 43 else 47)

/-- The six-bit number of a character of the alphabet. -/
def value? (c : Char) : Option Nat :=
  let n := c.toNat
  if 65 ≤ n ∧ n ≤ 90 then some (n - 65)
  else if 97 ≤ n ∧ n ≤ 122 then some (n - 71)
  else if 48 ≤ n ∧ n ≤ 57 then some (n + 4)
  else if n = 43 then some 62
  else if n = 47 then some 63
  else none

/-- Three bytes to four characters, the last group padded. -/
def encode : List UInt8 → List Char
  | [] => []
  | [a] => [digit (a.toNat / 4), digit (a.toNat % 4 * 16), '=', '=']
  | [a, b] =>
    [digit (a.toNat / 4), digit (a.toNat % 4 * 16 + b.toNat / 16), digit (b.toNat % 16 * 4), '=']
  | a :: b :: c :: rest =>
    digit (a.toNat / 4) :: digit (a.toNat % 4 * 16 + b.toNat / 16) ::
      digit (b.toNat % 16 * 4 + c.toNat / 64) :: digit (c.toNat % 64) :: encode rest

/-- The bytes of a group of four characters; only the last one may be padded. -/
def decodeGroup (last : Bool) (a b c d : Char) : Option (List UInt8) := do
  let x ← value? a
  let y ← value? b
  let first := UInt8.ofNat (x * 4 + y / 16)
  if last && c == '=' && d == '=' then return [first]
  else
    let z ← value? c
    let second := UInt8.ofNat (y % 16 * 16 + z / 4)
    if last && d == '=' then return [first, second]
    else return [first, second, UInt8.ofNat (z % 4 * 64 + (← value? d))]

/-- The bytes of a padded text, group by group. -/
def decode : List Char → Option (List UInt8)
  | [] => some []
  | a :: b :: c :: d :: rest => do
    return (← decodeGroup rest.isEmpty a b c d) ++ (← decode rest)
  | _ => none

/-- Lenient decoding, `quad` characters into a group whose last bits are `left`,
    after `pads` characters of padding. -/
def lenientFrom (quad left pads : Nat) (out : List UInt8) : List Char → Option (List UInt8)
  | [] => if quad = 0 then some out else none
  | c :: cs =>
    if c = '=' then
      if 2 ≤ quad then
        if 4 ≤ quad + (pads + 1) then some out else lenientFrom quad left (pads + 1) out cs
      else lenientFrom quad left pads out cs
    else
      match value? c with
      | none => lenientFrom quad left pads out cs
      | some v =>
        match quad with
        | 0 => lenientFrom 1 v 0 out cs
        | 1 => lenientFrom 2 (v % 16) 0 (out ++ [UInt8.ofNat (left * 4 + v / 16)]) cs
        | 2 => lenientFrom 3 (v % 4) 0 (out ++ [UInt8.ofNat (left * 16 + v / 4)]) cs
        | _ => lenientFrom 0 0 0 (out ++ [UInt8.ofNat (left * 64 + v)]) cs

/-- Lenient decoding of a text, which has to be ASCII. -/
def decodeLenient (cs : List Char) : Option (List UInt8) :=
  if cs.all fun c => c.toNat < 128 then lenientFrom 0 0 0 [] cs else none

/-- The URL-safe alphabet, without padding. -/
def encodeUrl (bytes : List UInt8) : List Char :=
  ((encode bytes).filter (· != '=')).map fun c =>
    if c = '+' then '-' else if c = '/' then '_' else c

/-- Decoding of the URL-safe alphabet, the padding put back. -/
def decodeUrl (cs : List Char) : Option (List UInt8) :=
  decodeLenient ((cs ++ List.replicate ((4 - cs.length % 4) % 4) '=').map fun c =>
    if c = '-' then '+' else if c = '_' then '/' else c)

/-! ### The alphabet -/

/-- A digit is read as its number. -/
theorem value?_digit {n : Nat} (h : n < 64) : value? (digit n) = some n := by
  have hall : ∀ n : Fin 64, value? (digit n) = some n.val := by decide
  exact hall ⟨n, h⟩

/-- No digit is the pad. -/
theorem digit_ne_pad {n : Nat} (h : n < 64) : digit n ≠ '=' := by
  intro hpad
  have hvalue := value?_digit h
  rw [hpad] at hvalue
  cases hvalue

/-! ### Groups -/

section Groups

variable {a b c d : Char} {x y z w : Nat}

/-- A last group of two digits is one byte. -/
theorem decodeGroup_one (ha : value? a = some x) (hb : value? b = some y) :
    decodeGroup true a b '=' '=' = some [UInt8.ofNat (x * 4 + y / 16)] := by
  simp only [decodeGroup, ha, hb]
  rfl

/-- One of three digits is two bytes. -/
theorem decodeGroup_two (ha : value? a = some x) (hb : value? b = some y) (hc : value? c = some z)
    (hne : c ≠ '=') : decodeGroup true a b c '=' =
      some [UInt8.ofNat (x * 4 + y / 16), UInt8.ofNat (y % 16 * 16 + z / 4)] := by
  simp [decodeGroup, ha, hb, hc, hne]

/-- One of four digits is three bytes, last or not. -/
theorem decodeGroup_three (last : Bool) (ha : value? a = some x) (hb : value? b = some y)
    (hc : value? c = some z) (hd : value? d = some w) (hne : d ≠ '=') :
    decodeGroup last a b c d = some [UInt8.ofNat (x * 4 + y / 16),
      UInt8.ofNat (y % 16 * 16 + z / 4), UInt8.ofNat (z % 4 * 64 + w)] := by
  simp [decodeGroup, ha, hb, hc, hd, hne]

end Groups

/-! ### Encoded and decoded -/

/-- A byte put together from the bits of its characters. -/
theorem ofNat_eq {b : UInt8} {n : Nat} (h : n = b.toNat) : UInt8.ofNat n = b := by
  rw [h]
  exact UInt8.ofNat_toNat

/-- What is encoded decodes to itself. -/
theorem decode_encode (bytes : List UInt8) : decode (encode bytes) = some bytes := by
  induction bytes using encode.induct with
  | case1 => rfl
  | case2 a =>
    -- one byte left: two digits and two pads
    have ha := a.toNat_lt
    have hgroup := decodeGroup_one (value?_digit (n := a.toNat / 4) (by omega))
      (value?_digit (n := a.toNat % 4 * 16) (by omega))
    rw [ofNat_eq (b := a) (by omega)] at hgroup
    simp [encode, decode, hgroup]
  | case3 a b =>
    -- two bytes left: three digits and a pad
    have ha := a.toNat_lt
    have hb := b.toNat_lt
    have hgroup := decodeGroup_two (value?_digit (n := a.toNat / 4) (by omega))
      (value?_digit (n := a.toNat % 4 * 16 + b.toNat / 16) (by omega))
      (value?_digit (n := b.toNat % 16 * 4) (by omega)) (digit_ne_pad (by omega))
    rw [ofNat_eq (b := a) (by omega), ofNat_eq (b := b) (by omega)] at hgroup
    simp [encode, decode, hgroup]
  | case4 a b c rest ih =>
    -- a whole group of three
    have ha := a.toNat_lt
    have hb := b.toNat_lt
    have hc := c.toNat_lt
    have hgroup := decodeGroup_three (encode rest).isEmpty
      (value?_digit (n := a.toNat / 4) (by omega))
      (value?_digit (n := a.toNat % 4 * 16 + b.toNat / 16) (by omega))
      (value?_digit (n := b.toNat % 16 * 4 + c.toNat / 64) (by omega))
      (value?_digit (n := c.toNat % 64) (by omega)) (digit_ne_pad (by omega))
    rw [ofNat_eq (b := a) (by omega), ofNat_eq (b := b) (by omega),
      ofNat_eq (b := c) (by omega)] at hgroup
    simp [encode, decode, hgroup, ih]

/-- An encoded text is made of the alphabet and its padding. -/
theorem mem_encode {bytes : List UInt8} {ch : Char} (h : ch ∈ encode bytes) :
    (∃ n < 64, ch = digit n) ∨ ch = '=' := by
  induction bytes using encode.induct with
  | case1 => cases h
  | case2 a =>
    -- two digits and two pads
    have ha := a.toNat_lt
    simp only [encode, List.mem_cons, List.not_mem_nil, or_false] at h
    rcases h with rfl | rfl | rfl | rfl
    · exact Or.inl ⟨_, by omega, rfl⟩
    · exact Or.inl ⟨_, by omega, rfl⟩
    · exact Or.inr rfl
    · exact Or.inr rfl
  | case3 a b =>
    -- three digits and a pad
    have ha := a.toNat_lt
    have hb := b.toNat_lt
    simp only [encode, List.mem_cons, List.not_mem_nil, or_false] at h
    rcases h with rfl | rfl | rfl | rfl
    · exact Or.inl ⟨_, by omega, rfl⟩
    · exact Or.inl ⟨_, by omega, rfl⟩
    · exact Or.inl ⟨_, by omega, rfl⟩
    · exact Or.inr rfl
  | case4 a b c rest ih =>
    -- four digits, then the groups after them
    have ha := a.toNat_lt
    have hb := b.toNat_lt
    have hc := c.toNat_lt
    simp only [encode, List.mem_cons] at h
    rcases h with rfl | rfl | rfl | rfl | h
    · exact Or.inl ⟨_, by omega, rfl⟩
    · exact Or.inl ⟨_, by omega, rfl⟩
    · exact Or.inl ⟨_, by omega, rfl⟩
    · exact Or.inl ⟨_, by omega, rfl⟩
    · exact ih h

/-! ### Lenient decoding -/

section Lenient

variable {c : Char} {v left pads : Nat} {out : List UInt8} {cs : List Char}

/-- What has a value is not the pad. -/
theorem ne_pad_of_value (h : value? c = some v) : c ≠ '=' := by
  rintro rfl
  cases h

/-- The first digit of a group leaves its six bits. -/
theorem lenientFrom_zero (h : value? c = some v) :
    lenientFrom 0 left pads out (c :: cs) = lenientFrom 1 v 0 out cs := by
  rw [lenientFrom, if_neg (ne_pad_of_value h), h]
  rfl

/-- The second one completes a byte and leaves four bits. -/
theorem lenientFrom_one (h : value? c = some v) : lenientFrom 1 left pads out (c :: cs) =
    lenientFrom 2 (v % 16) 0 (out ++ [UInt8.ofNat (left * 4 + v / 16)]) cs := by
  rw [lenientFrom, if_neg (ne_pad_of_value h), h]
  rfl

/-- The third one completes a byte and leaves two bits. -/
theorem lenientFrom_two (h : value? c = some v) : lenientFrom 2 left pads out (c :: cs) =
    lenientFrom 3 (v % 4) 0 (out ++ [UInt8.ofNat (left * 16 + v / 4)]) cs := by
  rw [lenientFrom, if_neg (ne_pad_of_value h), h]
  rfl

/-- The fourth one completes the third byte and leaves nothing. -/
theorem lenientFrom_three (h : value? c = some v) : lenientFrom 3 left pads out (c :: cs) =
    lenientFrom 0 0 0 (out ++ [UInt8.ofNat (left * 64 + v)]) cs := by
  rw [lenientFrom, if_neg (ne_pad_of_value h), h]
  rfl

end Lenient

/-- Lenient decoding adds the bytes of an encoded text to what it has. -/
theorem lenientFrom_encode (bytes : List UInt8) (left pads : Nat) (out : List UInt8) :
    lenientFrom 0 left pads out (encode bytes) = some (out ++ bytes) := by
  induction bytes using encode.induct generalizing left pads out with
  | case1 => simp [encode, lenientFrom]
  | case2 a =>
    -- the second pad completes the group
    have ha := a.toNat_lt
    rw [encode, lenientFrom_zero (value?_digit (n := a.toNat / 4) (by omega)),
      lenientFrom_one (value?_digit (n := a.toNat % 4 * 16) (by omega)), ofNat_eq (b := a) (by omega)]
    rfl
  | case3 a b =>
    -- the only pad completes the group
    have ha := a.toNat_lt
    have hb := b.toNat_lt
    rw [encode, lenientFrom_zero (value?_digit (n := a.toNat / 4) (by omega)),
      lenientFrom_one (value?_digit (n := a.toNat % 4 * 16 + b.toNat / 16) (by omega)),
      lenientFrom_two (value?_digit (n := b.toNat % 16 * 4) (by omega)),
      ofNat_eq (b := a) (by omega), ofNat_eq (b := b) (by omega), List.append_assoc]
    rfl
  | case4 a b c rest ih =>
    have ha := a.toNat_lt
    have hb := b.toNat_lt
    have hc := c.toNat_lt
    rw [encode, lenientFrom_zero (value?_digit (n := a.toNat / 4) (by omega)),
      lenientFrom_one (value?_digit (n := a.toNat % 4 * 16 + b.toNat / 16) (by omega)),
      lenientFrom_two (value?_digit (n := b.toNat % 16 * 4 + c.toNat / 64) (by omega)),
      lenientFrom_three (value?_digit (n := c.toNat % 64) (by omega)),
      ofNat_eq (b := a) (by omega), ofNat_eq (b := b) (by omega), ofNat_eq (b := c) (by omega), ih,
      List.append_assoc, List.append_assoc, List.append_assoc]
    rfl

/-- A digit is ASCII. -/
theorem digit_toNat_lt {n : Nat} (h : n < 64) : (digit n).toNat < 128 := by
  have hall : ∀ n : Fin 64, (digit n).toNat < 128 := by decide
  exact hall ⟨n, h⟩

/-- Lenient decoding undoes encoding. -/
theorem decodeLenient_encode (bytes : List UInt8) : decodeLenient (encode bytes) = some bytes := by
  rw [decodeLenient, if_pos, lenientFrom_encode, List.nil_append]
  refine List.all_eq_true.mpr fun c hc => decide_eq_true ?_
  rcases mem_encode hc with ⟨n, hn, rfl⟩ | rfl
  · exact digit_toNat_lt hn
  · decide

/-! ### The URL-safe alphabet -/

/-- Leaving out the pads keeps a digit. -/
theorem filter_digit {n : Nat} (h : n < 64) (cs : List Char) :
    (digit n :: cs).filter (· != '=') = digit n :: cs.filter (· != '=') :=
  List.filter_cons_of_pos (by simpa using digit_ne_pad h)

/-- The padding put back where it was, for every length. -/
theorem pad_filter_encode (bytes : List UInt8) :
    (encode bytes).filter (· != '=') ++ List.replicate
      ((4 - ((encode bytes).filter (· != '=')).length % 4) % 4) '=' = encode bytes := by
  induction bytes using encode.induct with
  | case1 => rfl
  | case2 a =>
    have ha := a.toNat_lt
    rw [encode, filter_digit (by omega), filter_digit (by omega)]
    rfl
  | case3 a b =>
    have ha := a.toNat_lt
    have hb := b.toNat_lt
    rw [encode, filter_digit (by omega), filter_digit (by omega), filter_digit (by omega)]
    rfl
  | case4 a b c rest ih =>
    -- four digits more ask for the same padding
    have ha := a.toNat_lt
    have hb := b.toNat_lt
    have hc := c.toNat_lt
    rw [encode, filter_digit (by omega), filter_digit (by omega), filter_digit (by omega),
      filter_digit (by omega)]
    simp only [List.length_cons, Nat.add_assoc, Nat.reduceAdd, Nat.add_mod_right, List.cons_append, ih]

/-- A digit in the URL-safe alphabet and back. -/
theorem urlSafe_digit {n : Nat} (h : n < 64) :
    let c := if digit n = '+' then '-' else if digit n = '/' then '_' else digit n
    (if c = '-' then '+' else if c = '_' then '/' else c) = digit n := by
  have hall : ∀ n : Fin 64,
      let c := if digit n = '+' then '-' else if digit n = '/' then '_' else digit n
      (if c = '-' then '+' else if c = '_' then '/' else c) = digit n := by decide
  exact hall ⟨n, h⟩

/-- The unpadded URL-safe text of any bytes decodes to them. -/
theorem decodeUrl_encodeUrl (bytes : List UInt8) : decodeUrl (encodeUrl bytes) = some bytes := by
  -- the two marks of the URL alphabet are turned back
  have hback : ((encodeUrl bytes).map fun c => if c = '-' then '+' else if c = '_' then '/' else c) =
      (encode bytes).filter (· != '=') := by
    have hsame : ∀ c ∈ (encode bytes).filter (· != '='),
        ((fun c => if c = '-' then '+' else if c = '_' then '/' else c) ∘
          fun c => if c = '+' then '-' else if c = '/' then '_' else c) c = id c := by
      intro c hc
      obtain ⟨hmem, hne⟩ := List.mem_filter.mp hc
      rcases mem_encode hmem with ⟨n, hn, rfl⟩ | rfl
      · exact urlSafe_digit hn
      · cases hne
    rw [encodeUrl, List.map_map, List.map_congr_left hsame, List.map_id]
  -- and the pads put back
  have hlength : (encodeUrl bytes).length = ((encode bytes).filter (· != '=')).length := by
    rw [encodeUrl, List.length_map]
  rw [decodeUrl, List.map_append, hback, List.map_replicate, hlength]
  exact (congrArg decodeLenient (pad_filter_encode bytes)).trans (decodeLenient_encode bytes)

end MapServiceAgent.Base64
