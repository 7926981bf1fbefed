import MapServiceAgent.Native.JsonText
import MapServiceAgent.Native.LocationSeal
import MapServiceAgent.Spec.CheckpointCorrect

/-!
# What is written reads back

`json.loads` reads back what `json.dumps` has written, whichever way the writer
escapes and spaces: every string, and every number whose digits say it.

## Key results

- `scanString_written`: a string, whatever is in it
- `scanNumber_numeral`: a number, up to where it ends
- `scanOnce_dump`: a value
- `jsonLoads_dump`: a text
-/

namespace MapServiceAgent.Native

open Scanner

variable {pf : Platform}

/-! ### Characters -/

/-- A hexadecimal digit is read as the value it was written for. -/
theorem hexValue?_hexDigit {n : Nat} (h : n < 16) : hexValue? (hexDigit n) = some n := by
  have hall : ∀ n : Fin 16, hexValue? (hexDigit n) = some n := by decide
  exact hall ⟨n, h⟩

/-- The digits of a unit say which one it is. -/
theorem scanUnit_escapeUnit {n : Nat} (h : n < 0x10000) (rest : List Char) :
    scanUnit ((escapeUnit n).drop 2 ++ rest) = .ok (n, rest) := by
  have hunit : ∀ a b c d : Nat, a < 16 → b < 16 → c < 16 → d < 16 →
      scanUnit (hexDigit a :: hexDigit b :: hexDigit c :: hexDigit d :: rest) =
        .ok (a * 4096 + b * 256 + c * 16 + d, rest) := by
    intro a b c d ha hb hc hd
    rw [scanUnit, hexValue?_hexDigit ha, hexValue?_hexDigit hb, hexValue?_hexDigit hc,
      hexValue?_hexDigit hd]
  refine (hunit _ _ _ _ ?_ ?_ ?_ ?_).trans ?_
  any_goals exact Nat.mod_lt _ (by decide)
  rw [show n / 4096 % 16 * 4096 + n / 256 % 16 * 256 + n / 16 % 16 * 16 + n % 16 = n by omega]

/-- A unit that is no surrogate is a character. -/
theorem scanStringChar_escapeUnit {c : Char} (h : c.toNat < 0x10000) :
    scanStringChar.Takes (fun _ => True) (escapeUnit c.toNat) (some c) := by
  intro rest _
  -- a character is no surrogate
  have hvalid : c.toNat < 0xd800 ∨ 0xe000 ≤ c.toNat := by
    have := c.valid
    unfold UInt32.isValidChar Nat.isValidChar at this
    change c.toNat < 0xd800 ∨ (0xdfff < c.toNat ∧ c.toNat < 0x110000) at this
    omega
  have hscan : scanUnicode ((escapeUnit c.toNat).drop 2 ++ rest) = .ok (c, rest) := by
    rw [scanUnicode, bind_of_eq_ok (scanUnit_escapeUnit h rest)]
    dsimp only
    rw [if_pos hvalid, Char.ofNat_toNat]
    rfl
  exact bind_of_eq_ok hscan _

/-- Two units that are a surrogate pair are one. -/
theorem scanStringChar_surrogates {c : Char} (h : 0x10000 ≤ c.toNat) :
    scanStringChar.Takes (fun _ => True) (escapeUnit (0xd800 + (c.toNat - 0x10000) / 0x400) ++
      escapeUnit (0xdc00 + (c.toNat - 0x10000) % 0x400)) (some c) := by
  intro rest _
  have hvalid : c.toNat < 0x110000 := by
    have := c.valid
    unfold UInt32.isValidChar Nat.isValidChar at this
    change c.toNat < 0xd800 ∨ (0xdfff < c.toNat ∧ c.toNat < 0x110000) at this
    omega
  set high := 0xd800 + (c.toNat - 0x10000) / 0x400 with hhigh
  set low := 0xdc00 + (c.toNat - 0x10000) % 0x400 with hlow
  -- the high unit asks for a low one, and the two make the character
  have hscan : scanUnicode ((escapeUnit high).drop 2 ++ (escapeUnit low ++ rest)) =
      .ok (c, rest) := by
    have hhighs : scanUnit ((escapeUnit high).drop 2 ++ (escapeUnit low ++ rest)) =
        .ok (high, '\\' :: 'u' :: ((escapeUnit low).drop 2 ++ rest)) :=
      scanUnit_escapeUnit (by omega) _
    have hlows := scanUnit_escapeUnit (n := low) (by omega) rest
    rw [scanUnicode, bind_of_eq_ok hhighs]
    dsimp only
    rw [if_neg (by omega), if_pos (by omega)]
    refine (bind_of_eq_ok hlows _).trans ?_
    dsimp only
    rw [if_pos (by omega),
      show 0x10000 + (high - 0xd800) * 0x400 + (low - 0xdc00) = c.toNat by omega, Char.ofNat_toNat]
    rfl
  exact bind_of_eq_ok hscan _

/-- A character that is escaped, or may stand as it is. -/
theorem scanStringChar_escapeJsonChar (c : Char) :
    scanStringChar.Takes (fun _ => True) (escapeJsonChar c) (some c) := by
  have hcode : ∀ n, c.toNat = n → c = Char.ofNat n := fun n h => by rw [← h, Char.ofNat_toNat]
  unfold escapeJsonChar
  split
  · -- a quote, a backslash, and the five controls with a letter
    rename_i h
    rw [eq_of_beq h]
    exact fun _ _ => rfl
  split
  · rename_i h
    rw [eq_of_beq h]
    exact fun _ _ => rfl
  split
  · rename_i h
    rw [eq_of_beq h]
    exact fun _ _ => rfl
  split
  · rename_i h
    rw [eq_of_beq h]
    exact fun _ _ => rfl
  split
  · rename_i h
    rw [eq_of_beq h]
    exact fun _ _ => rfl
  split
  · rename_i h
    rw [hcode _ (eq_of_beq h)]
    exact fun _ _ => rfl
  split
  · rename_i h
    rw [hcode _ (eq_of_beq h)]
    exact fun _ _ => rfl
  split
  · -- a control: its unit begins with two zeros
    rename_i h
    have hunit := scanStringChar_escapeUnit (c := c) (by omega)
    rw [escapeUnit, show c.toNat / 4096 % 16 = 0 by omega, show c.toNat / 256 % 16 = 0 by omega,
      show c.toNat / 16 % 16 = c.toNat / 16 by omega] at hunit
    exact hunit
  · -- any other character stands for itself
    rename_i hquote hslash _ _ _ _ _ hcontrol
    intro rest _
    rw [List.singleton_append, scanStringChar.eq_def]
    dsimp only
    rw [if_neg (by simpa using hquote), if_neg (by simpa using hslash), if_neg hcontrol]

/-- An ASCII escape is read as its character. -/
theorem scanStringChar_escapeAscii (c : Char) :
    scanStringChar.Takes (fun _ => True) (escapeAscii c) (some c) := by
  unfold escapeAscii
  dsimp only
  split
  · -- within ASCII
    exact scanStringChar_escapeJsonChar c
  split
  · -- one unit
    exact scanStringChar_escapeUnit (by assumption)
  · -- a pair of surrogates
    exact scanStringChar_surrogates (by omega)

/-- No character is escaped to nothing. -/
theorem escapeJsonChar_ne_nil (c : Char) : escapeJsonChar c ≠ [] := by
  unfold escapeJsonChar
  repeat' split
  all_goals exact List.cons_ne_nil _ _

/-- Nor is it in ASCII. -/
theorem escapeAscii_ne_nil (c : Char) : escapeAscii c ≠ [] := by
  unfold escapeAscii
  dsimp only
  split
  · exact escapeJsonChar_ne_nil c
  split
  · exact List.cons_ne_nil _ _
  · exact List.cons_ne_nil _ _

/-! ### Ways of writing -/

/-- How JSON is written: its characters, the blanks behind a comma or a colon, and its
    numbers with a fraction. -/
structure JsonLayout where
  escape : Char → List Char
  gap : List Char
  number : PyFloat → String
  escape_takes : ∀ c, scanStringChar.Takes (fun _ => True) (escape c) (some c)
  escape_ne : ∀ c, escape c ≠ []
  gap_blank : ∀ c ∈ gap, isBlank c = true

/-- `json.dumps(v)`. -/
def JsonLayout.ascii (pf : Platform) : JsonLayout where
  escape := escapeAscii
  gap := [' ']
  number := dumpFloat pf
  escape_takes := scanStringChar_escapeAscii
  escape_ne := escapeAscii_ne_nil
  gap_blank := List.forall_mem_singleton.mpr rfl

/-- Without blanks, and no character escaped that need not be; numbers are written
    as `number` has it. -/
def JsonLayout.compact (number : PyFloat → String) : JsonLayout where
  escape := escapeJsonChar
  gap := []
  number := number
  escape_takes := scanStringChar_escapeJsonChar
  escape_ne := escapeJsonChar_ne_nil
  gap_blank := nofun

namespace JsonLayout

variable (L : JsonLayout)

/-- A string between quotes, each character escaped. -/
def string (s : String) : List Char := '"' :: (s.toList.flatMap L.escape ++ ['"'])

/-- The separator of items. -/
def comma : List Char := ',' :: L.gap

mutual

/-- What is written of a value. -/
def dump : Json → List Char
  | .null => "null".toList
  | .bool b => if b then "true".toList else "false".toList
  | .int i => (toString i).toList
  | .float x => (L.number x).toList
  | .str s => L.string s
  | .arr l => '[' :: (L.comma.intercalate (dumpElems l) ++ [']'])
  | .obj m => '\x7b' :: (L.comma.intercalate (dumpFields m) ++ ['\x7d'])

/-- What is written of each element. -/
def dumpElems : List Json → List (List Char)
  | [] => []
  | v :: vs => dump v :: dumpElems vs

/-- What is written of each field, its key before it. -/
def dumpFields : List (String × Json) → List (List Char)
  | [] => []
  | (k, v) :: fs => (L.string k ++ ':' :: L.gap ++ dump v) :: dumpFields fs

end

/-- Each element is written by itself. -/
theorem dumpElems_eq (l : List Json) : L.dumpElems l = l.map L.dump := by
  induction l with
  | nil => rfl
  | cons v l ih => rw [dumpElems, ih, List.map_cons]

/-- So is each field. -/
theorem dumpFields_eq (m : List (String × Json)) :
    L.dumpFields m = m.map fun f => L.string f.1 ++ ':' :: L.gap ++ L.dump f.2 := by
  induction m with
  | nil => rfl
  | cons f m ih => rw [dumpFields, ih, List.map_cons]

end JsonLayout

/-- A string reads back, whatever is in it. -/
theorem scanString_written (L : JsonLayout) (s : String) :
    scanString.Takes (fun _ => True) (s.toList.flatMap L.escape ++ ['"']) s := by
  have hquote : scanStringChar.Takes (fun _ => True) ['"'] none := fun _ _ => rfl
  -- the characters are scanned one by one, up to the quote
  have hchars : (all jsonDecodeError scanStringChar).Takes (fun _ => True)
      ((s.toList.map L.escape).flatten ++ ['"']) s.toList := by
    refine all_takes (List.forall₂_map_left_iff.mpr (List.forall₂_same.mpr fun c _ =>
      L.escape_takes c)) ?_ (fun _ _ _ => trivial) hquote fun _ _ => trivial
    intro text htext
    obtain ⟨c, -, rfl⟩ := List.mem_map.mp htext
    exact L.escape_ne c
  intro rest hrest
  rw [List.flatMap_def, scanString, bind_of_eq_ok (hchars rest hrest)]
  dsimp only
  rw [String.ofList_toList]
  rfl

/-! ### Numbers -/

/-- What a number may go on with. -/
def isNumberChar (c : Char) : Bool := c.isDigit || c == '.' || c == 'e' || c == 'E'

/-- The parts of a number: the digits before the point begin with no idle zero. -/
structure Numeral where
  sign : List Char
  digits : List Char
  fraction : List Char
  exponent : List Char
  sign_form : sign = [] ∨ sign = ['-']
  digits_form : digits = ['0'] ∨
    ∃ c cs, digits = c :: cs ∧ c ≠ '0' ∧ ∀ d ∈ digits, d.isDigit = true
  fraction_form : fraction = [] ∨
    ∃ cs, fraction = '.' :: cs ∧ cs ≠ [] ∧ ∀ d ∈ cs, d.isDigit = true
  exponent_form : exponent = [] ∨
    ∃ e sign cs, exponent = e :: (sign ++ cs) ∧ (e = 'e' ∨ e = 'E') ∧
      (sign = [] ∨ sign = ['-'] ∨ sign = ['+']) ∧ cs ≠ [] ∧ ∀ d ∈ cs, d.isDigit = true

/-- The numeral as it is written. -/
def Numeral.chars (n : Numeral) : List Char := n.sign ++ n.digits ++ n.fraction ++ n.exponent

/-- A digit is no other character. -/
theorem ne_of_isDigit {c d : Char} (hc : c.isDigit = true) (hd : d.isDigit = false) : c ≠ d := by
  rintro rfl
  exact Bool.false_ne_true (hd.symm.trans hc)

/-- A number begins with a digit, or a sign and a digit. -/
theorem Numeral.digits_cons (n : Numeral) :
    ∃ c cs, n.digits = c :: cs ∧ c.isDigit = true := by
  rcases n.digits_form with h | ⟨c, cs, h, -, hall⟩
  · exact ⟨'0', [], h, rfl⟩
  · exact ⟨c, cs, h, hall c (h ▸ List.mem_cons_self)⟩

section Parts

variable {n : Numeral} {rest : List Char}

/-- The sign of a numeral is scanned first. -/
theorem scanSign_numeral (n : Numeral) (rest : List Char) :
    scanSign (n.sign ++ (n.digits ++ rest)) = (n.sign, n.digits ++ rest) := by
  obtain ⟨c, cs, hdigits, hc⟩ := n.digits_cons
  rcases n.sign_form with h | h
  · -- no sign: the first digit is none
    rw [h, hdigits, List.nil_append, List.cons_append, scanSign]
    exact if_neg (ne_of_isDigit hc rfl)
  · rw [h]
    rfl

/-- Then its digits, up to whatever is no digit. -/
theorem scanInteger_numeral (n : Numeral) (h : EndsRun Char.isDigit rest) :
    scanInteger (n.digits ++ rest) = (n.digits, rest) := by
  rcases n.digits_form with hzero | ⟨c, cs, hcons, hc, hall⟩
  · -- a zero stands alone
    rw [hzero]
    rfl
  · have hspan := span_append hall h
    rw [hcons, List.cons_append] at hspan
    rw [hcons, List.cons_append, scanInteger, if_neg hc, hspan]

/-- A number that ends does not go on with digits. -/
theorem scanFraction_numeral (n : Numeral)
    (h : EndsRun (fun c => c.isDigit || c == '.') rest) :
    scanFraction (n.fraction ++ rest) = (n.fraction, rest) := by
  rcases n.fraction_form with hnil | ⟨cs, hcons, hne, hall⟩
  · -- no fraction: what follows is no dot
    rw [hnil, List.nil_append]
    cases rest with
    | nil => rfl
    | cons c rest =>
      have hc := h c rfl
      rw [Bool.or_eq_false_iff, beq_eq_false_iff_ne] at hc
      rw [scanFraction, if_neg hc.2]
  · -- a dot and at least one digit
    have hspan := span_append hall (h.mono fun c hc => (Bool.or_eq_false_iff.mp hc).1)
    rw [hcons, List.cons_append, scanFraction, if_pos rfl, hspan]
    dsimp only
    rw [if_neg hne]

/-- The sign of an exponent is scanned before its digits. -/
theorem scanExponentSign_append {sign digits : List Char}
    (hsign : sign = [] ∨ sign = ['-'] ∨ sign = ['+']) (hne : digits ≠ [])
    (hall : ∀ d ∈ digits, d.isDigit = true) :
    scanExponentSign (sign ++ (digits ++ rest)) = (sign, digits ++ rest) := by
  obtain ⟨c, cs, rfl⟩ := List.exists_cons_of_ne_nil hne
  have hc := hall c List.mem_cons_self
  rcases hsign with rfl | rfl | rfl
  · -- no sign: the first digit is none
    rw [List.nil_append, List.cons_append, scanExponentSign]
    exact if_neg (not_or.mpr ⟨ne_of_isDigit hc rfl, ne_of_isDigit hc rfl⟩)
  · rfl
  · rfl

/-- The exponent of a numeral is scanned last. -/
theorem scanExponent_numeral (n : Numeral) (h : EndsRun isNumberChar rest) :
    scanExponent (n.exponent ++ rest) = (n.exponent, rest) := by
  rcases n.exponent_form with hnil | ⟨e, sign, cs, hcons, he, hsign, hne, hall⟩
  · -- no exponent: what follows is no `e`
    rw [hnil, List.nil_append]
    cases rest with
    | nil => rfl
    | cons c rest =>
      have hc := h c rfl
      unfold isNumberChar at hc
      simp only [Bool.or_eq_false_iff, beq_eq_false_iff_ne] at hc
      rw [scanExponent, if_neg (not_or.mpr ⟨hc.1.2, hc.2⟩)]
  · -- an `e`, a sign or none, and at least one digit
    have hspan := span_append hall (h.mono fun c hc => by
      unfold isNumberChar at hc
      simp only [Bool.or_eq_false_iff] at hc
      exact hc.1.1.1)
    rw [hcons, List.cons_append, List.append_assoc, scanExponent, if_pos he,
      scanExponentSign_append hsign hne hall]
    dsimp only
    rw [hspan]
    dsimp only
    rw [if_neg hne, List.cons_append]

/-- The exponent ends the fraction, and the two end the digits. -/
theorem endsRun_exponent (n : Numeral) (h : EndsRun isNumberChar rest) :
    EndsRun (fun c => c.isDigit || c == '.') (n.exponent ++ rest) := by
  rcases n.exponent_form with hnil | ⟨e, sign, cs, hcons, he, -⟩
  · rw [hnil, List.nil_append]
    refine h.mono fun c hc => ?_
    unfold isNumberChar at hc
    simp only [Bool.or_eq_false_iff] at hc ⊢
    exact hc.1.1
  · rw [hcons]
    exact endsRun_cons (by rcases he with rfl | rfl <;> rfl) _

/-- After the digits comes the fraction, the exponent or the rest, and none of them is a
    digit. -/
theorem endsRun_fraction (n : Numeral) (h : EndsRun isNumberChar rest) :
    EndsRun Char.isDigit (n.fraction ++ (n.exponent ++ rest)) := by
  rcases n.fraction_form with hnil | ⟨cs, hcons, -⟩
  · rw [hnil, List.nil_append]
    exact (endsRun_exponent n h).mono fun c hc => (Bool.or_eq_false_iff.mp hc).1
  · rw [hcons]
    exact endsRun_cons rfl _

end Parts

/-- What the parts of a number stand for. -/
def Numeral.value (pf : Platform) (n : Numeral) : Except PyExn Json :=
  if n.fraction = [] ∧ n.exponent = [] then intOfNumeral n.sign n.digits
  else
    match pf.floatOfStr (String.ofList n.chars) with
    | some x => .ok (.float x)
    | none => .error (.valueError "ValueError")

/-- A number is read up to where it ends. -/
theorem scanNumber_numeral {n : Numeral} {v : Json} (hvalue : n.value pf = .ok v) :
    (scanNumber pf).Takes (EndsRun isNumberChar) n.chars v := by
  intro rest hrest
  obtain ⟨c, cs, hdigits, -⟩ := n.digits_cons
  have hne : n.digits ≠ [] := hdigits ▸ List.cons_ne_nil _ _
  unfold scanNumber Numeral.chars
  simp only [List.append_assoc, scanSign_numeral, scanInteger_numeral n (endsRun_fraction n hrest),
    scanFraction_numeral n (endsRun_exponent n hrest), scanExponent_numeral n hrest, if_neg hne]
  unfold Numeral.value at hvalue
  split
  · -- without fraction and exponent it is an integer
    rename_i hint
    rw [if_pos hint] at hvalue
    exact bind_of_eq_ok hvalue _
  · -- otherwise a float
    rename_i hfloat
    rw [if_neg hfloat] at hvalue
    unfold Numeral.chars at hvalue
    simp only [List.append_assoc] at hvalue
    cases hx : pf.floatOfStr
        (String.ofList (n.sign ++ (n.digits ++ (n.fraction ++ n.exponent)))) with
    | some x =>
      rw [hx] at hvalue
      cases hvalue
      rfl
    | none =>
      rw [hx] at hvalue
      cases hvalue

/-! ### Integers -/

/-- A positive number begins with no zero. -/
theorem toDigits_eq_cons {n : Nat} (h : 0 < n) :
    ∃ c cs, Nat.toDigits 10 n = c :: cs ∧ c ≠ '0' := by
  induction n using Nat.strongRecOn with
  | ind n ih =>
    by_cases hlt : n < 10
    · refine ⟨n.digitChar, [], Nat.toDigits_of_lt_base hlt, ?_⟩
      have hall : ∀ n : Fin 10, 0 < n.val → n.val.digitChar ≠ '0' := by decide
      exact hall ⟨n, hlt⟩ h
    · obtain ⟨c, cs, hcons, hc⟩ := ih (n / 10) (by omega) (by omega)
      refine ⟨c, cs ++ [(n % 10).digitChar], ?_, hc⟩
      rw [Nat.toDigits_of_base_le (by decide) (by omega), hcons, List.cons_append]

/-- The decimal digits of a number are read as it. -/
theorem digits?_toDigits (n : Nat) : digits? (Nat.toDigits 10 n) = some n := by
  have h := digits?_padNat 0 n
  unfold padNat at h
  dsimp only at h
  rwa [Nat.zero_sub, List.replicate_zero, List.nil_append, String.toList_ofList,
    Nat.toString_eq_repr, Nat.toList_repr] at h

/-- The parts of an integer. -/
def Numeral.ofInt (i : Int) : Numeral where
  sign := if i < 0 then ['-'] else []
  digits := Nat.toDigits 10 i.natAbs
  fraction := []
  exponent := []
  sign_form := by split <;> simp
  digits_form := by
    rcases Nat.eq_zero_or_pos i.natAbs with h | h
    · exact .inl (by rw [h]; rfl)
    · obtain ⟨c, cs, hcons, hc⟩ := toDigits_eq_cons h
      exact .inr ⟨c, cs, hcons, hc, fun d hd =>
        Nat.isDigit_of_mem_toDigits (by decide) (by decide) hd⟩
  fraction_form := .inl rfl
  exponent_form := .inl rfl

/-- The numeral of an integer is what is printed of it. -/
theorem chars_ofInt (i : Int) : (Numeral.ofInt i).chars = (toString i).toList := by
  have hnat : ∀ n : Nat, (toString n).toList = Nat.toDigits 10 n := fun n => by
    rw [Nat.toString_eq_repr, Nat.toList_repr]
  unfold Numeral.chars Numeral.ofInt
  dsimp only
  rw [List.append_nil, List.append_nil]
  cases i with
  | ofNat n =>
    rw [if_neg (by simp)]
    exact (hnat n).symm
  | negSucc n =>
    have htext : (toString (Int.negSucc n)).toList = '-' :: (toString (n + 1)).toList :=
      String.toList_append
    rw [htext, hnat, if_pos (Int.negSucc_lt_zero n)]
    rfl

/-- Digits that are not too many say their number. -/
theorem value_ofInt {i : Int} (h : i.natAbs < 10 ^ maxStrDigits) :
    (Numeral.ofInt i).value pf = .ok (.int i) := by
  have hlength : (Nat.toDigits 10 i.natAbs).length ≤ maxStrDigits :=
    (Nat.length_toDigits_le_iff (by decide) (by decide)).mpr h
  unfold Numeral.value Numeral.ofInt
  dsimp only
  rw [if_pos ⟨rfl, rfl⟩, intOfNumeral, digits?_toDigits]
  dsimp only
  rw [if_pos hlength]
  refine congrArg (fun i => Except.ok (Json.int i)) ?_
  -- the sign stands where the integer is negative
  by_cases hneg : i < 0
  · rw [if_pos hneg, if_neg (List.cons_ne_nil _ _)]
    omega
  · rw [if_neg hneg, if_pos rfl]
    omega

/-! ### Values -/

section Values

variable {array : Scanner PyExn (List Json)} {object : Scanner PyExn (List (String × Json))}

/-- A word is scanned as its value. -/
theorem scanWith_word {w : List Char × Json} (hw : w ∈ jsonWords) :
    (scanWith pf array object).Takes (fun _ => True) w.1 w.2 := by
  simp only [jsonWords, List.mem_cons, List.not_mem_nil, or_false] at hw
  rcases hw with rfl | rfl | rfl | rfl | rfl | rfl <;> exact fun rest _ => rfl

/-- What begins as a number begins as no word. -/
theorem not_prefix_numeral (n : Numeral) (rest : List Char) :
    ∀ w ∈ jsonWords, w.1.isPrefixOf (n.chars ++ rest) = false := by
  obtain ⟨c, cs, hdigits, hc⟩ := n.digits_cons
  have hne : ∀ d : Char, d.isDigit = false → (d == c) = false := fun d hd =>
    beq_eq_false_iff_ne.mpr (ne_of_isDigit hc hd).symm
  intro w hw
  simp only [jsonWords, List.mem_cons, List.not_mem_nil, or_false] at hw
  unfold Numeral.chars
  rcases n.sign_form with hsign | hsign <;> rw [hsign, hdigits] <;>
    rcases hw with rfl | rfl | rfl | rfl | rfl | rfl <;>
      simp [List.isPrefixOf, hne]

/-- A numeral is scanned as its value. -/
theorem scanWith_numeral {n : Numeral} {v : Json} (hvalue : n.value pf = .ok v) :
    (scanWith pf array object).Takes (EndsRun isNumberChar) n.chars v := by
  intro rest hrest
  have hnumber := scanNumber_numeral hvalue rest hrest
  -- it begins with a digit or a minus, like no word and no bracket
  have hwords : (jsonWords.find? fun w => w.1.isPrefixOf (n.chars ++ rest)) = none :=
    List.find?_eq_none.mpr fun w hw => by rw [not_prefix_numeral n rest w hw]; decide
  obtain ⟨c, cs, hcons, hc⟩ : ∃ c cs, n.chars ++ rest = c :: cs ∧ (c.isDigit = true ∨ c = '-') := by
    obtain ⟨c, cs, hdigits, hc⟩ := n.digits_cons
    unfold Numeral.chars
    rcases n.sign_form with hsign | hsign <;> rw [hsign, hdigits]
    · exact ⟨c, _, rfl, .inl hc⟩
    · exact ⟨'-', _, rfl, .inr rfl⟩
  have hne : ∀ d : Char, d.isDigit = false → d ≠ '-' → c ≠ d := fun d hd hminus =>
    hc.elim (fun hc => ne_of_isDigit hc hd) fun hc => hc ▸ hminus.symm
  rw [hcons] at hnumber hwords ⊢
  unfold scanWith
  dsimp only
  rw [if_neg (hne _ rfl (by decide)), if_neg (hne _ rfl (by decide)),
    if_neg (hne _ rfl (by decide)), hwords]
  exact hnumber

/-- A written string is scanned as the string. -/
theorem scanWith_string (L : JsonLayout) (s : String) :
    (scanWith pf array object).Takes (fun _ => True) (L.string s) (.str s) := fun rest hrest =>
  bind_of_eq_ok (scanString_written L s rest hrest) _

end Values

/-- How a number is written that is no integer. -/
def ReadsFloat (pf : Platform) (text : List Char) (x : PyFloat) : Prop :=
  (text, .float x) ∈ jsonWords ∨ ∃ n : Numeral, n.chars = text ∧ n.value pf = .ok (.float x)

/-- A value that reads back: its keys are told apart, its numbers are written as what
    they are, and its containers are not too deep. -/
inductive Writable (pf : Platform) (L : JsonLayout) : Nat → Json → Prop
  | null {depth : Nat} : Writable pf L depth .null
  | bool {depth : Nat} (b : Bool) : Writable pf L depth (.bool b)
  | int {depth : Nat} {i : Int} (h : i.natAbs < 10 ^ maxStrDigits) : Writable pf L depth (.int i)
  | float {depth : Nat} {x : PyFloat} (h : ReadsFloat pf (L.number x).toList x) :
      Writable pf L depth (.float x)
  | str {depth : Nat} (s : String) : Writable pf L depth (.str s)
  | arr {depth : Nat} {l : List Json} (h : ∀ v ∈ l, Writable pf L depth v) :
      Writable pf L (depth + 1) (.arr l)
  | obj {depth : Nat} {m : List (String × Json)} (hkeys : (m.map (·.1)).Nodup)
      (h : ∀ f ∈ m, Writable pf L depth f.2) : Writable pf L (depth + 1) (.obj m)

/-- A value begins with no blank, and ends no container. -/
theorem startsItem_dump {L : JsonLayout} {depth : Nat} {v : Json} (h : Writable pf L depth v) :
    StartsItem isBlank ']' (L.dump v) := by
  -- a number begins with a digit or a minus
  have hnumeral : ∀ n : Numeral, StartsItem isBlank ']' n.chars := by
    intro n
    obtain ⟨c, cs, hdigits, hc⟩ := n.digits_cons
    have hblank : isBlank c = false := by
      have hne : ∀ d : Char, d.isDigit = false → (c == d) = false := fun d hd =>
        beq_eq_false_iff_ne.mpr (ne_of_isDigit hc hd)
      simp [isBlank, hne]
    unfold Numeral.chars
    rcases n.sign_form with hsign | hsign <;> rw [hsign, hdigits]
    · exact ⟨c, _, rfl, hblank, ne_of_isDigit hc rfl⟩
    · exact ⟨'-', _, rfl, rfl, by decide⟩
  cases h with
  | null => exact ⟨'n', _, rfl, rfl, by decide⟩
  | bool b =>
    cases b
    · exact ⟨'f', _, rfl, rfl, by decide⟩
    · exact ⟨'t', _, rfl, rfl, by decide⟩
  | @int _ i _ =>
    rw [JsonLayout.dump, ← chars_ofInt]
    exact hnumeral _
  | float h =>
    rw [JsonLayout.dump]
    rcases h with hword | ⟨n, hn, -⟩
    · simp only [jsonWords, List.mem_cons, List.not_mem_nil, or_false, Prod.mk.injEq] at hword
      rcases hword with h | h | h | h | h | h <;> rw [h.1] <;> exact ⟨_, _, rfl, rfl, by decide⟩
    · rw [← hn]
      exact hnumeral n
  | str s => exact ⟨'"', _, rfl, rfl, by decide⟩
  | arr _ => exact ⟨'[', _, rfl, rfl, by decide⟩
  | obj _ _ => exact ⟨'\x7b', _, rfl, rfl, by decide⟩

/-- Keys that are told apart make a dictionary of their own. -/
theorem foldl_dictSet {m : List (String × Json)} (h : (m.map (·.1)).Nodup) :
    m.foldl (fun d f => dictSet d f.1 f.2) [] = m := by
  -- by induction on the fields still to come
  have hall : ∀ d m : List (String × Json), ((d ++ m).map (·.1)).Nodup →
      m.foldl (fun d f => dictSet d f.1 f.2) d = d ++ m := by
    intro d m hnodup
    induction m generalizing d with
    | nil => rw [List.foldl_nil, List.append_nil]
    | cons f m ih =>
      -- no key comes twice, so each is appended
      have hnew : d.lookup f.1 = none := by
        rw [List.lookup_eq_none_iff]
        intro e he
        rw [List.map_append, List.nodup_append] at hnodup
        exact bne_iff_ne.mpr (hnodup.2.2 _ (List.mem_map_of_mem he) _
          (List.mem_map_of_mem List.mem_cons_self)).symm
      rw [List.foldl_cons, dictSet_of_lookup_none hnew, ih, List.append_assoc,
        List.singleton_append]
      rwa [List.append_assoc, List.singleton_append]
  exact hall [] m h

/-- A member reads back when its value does. -/
theorem scanMember_takes {L : JsonLayout} {value : Scanner PyExn Json} {key : String} {v : Json}
    (hvalue : value.Takes (EndsRun isNumberChar) (L.dump v) v)
    (hstart : StartsItem isBlank ']' (L.dump v)) :
    (scanMember value).Takes (EndsRun isNumberChar)
      (L.string key ++ ':' :: L.gap ++ L.dump v) (key, v) := by
  intro rest hrest
  have hkey := scanString_written L key (':' :: (L.gap ++ (L.dump v ++ rest))) trivial
  have hgap : (L.gap ++ (L.dump v ++ rest)).dropWhile isBlank = L.dump v ++ rest :=
    dropWhile_append L.gap_blank (hstart.endsRun rest)
  have hcolon : (':' :: (L.gap ++ (L.dump v ++ rest))).dropWhile isBlank =
      ':' :: (L.gap ++ (L.dump v ++ rest)) := rfl
  have htext : L.string key ++ ':' :: L.gap ++ L.dump v ++ rest =
      '"' :: (key.toList.flatMap L.escape ++ ['"'] ++ (':' :: (L.gap ++ (L.dump v ++ rest)))) := by
    simp only [JsonLayout.string, List.cons_append, List.append_assoc]
  -- the key, the colon, blanks or none, the value
  unfold scanMember
  rw [htext]
  dsimp only
  rw [if_pos rfl, bind_of_eq_ok hkey]
  dsimp only
  rw [hcolon]
  dsimp only
  rw [if_pos rfl, hgap, bind_of_eq_ok (hvalue rest hrest)]
  rfl

/-- At any depth a word is scanned as its value. -/
theorem scanOnce_word (depth : Nat) {w : List Char × Json} (hw : w ∈ jsonWords) :
    (scanOnce pf depth).Takes (EndsRun isNumberChar) w.1 w.2 := by
  cases depth <;> exact (scanWith_word hw).mono fun _ _ => trivial

/-- So is a numeral. -/
theorem scanOnce_numeral (depth : Nat) {n : Numeral} {v : Json} (hvalue : n.value pf = .ok v) :
    (scanOnce pf depth).Takes (EndsRun isNumberChar) n.chars v := by
  cases depth <;> exact scanWith_numeral hvalue

/-- And a string. -/
theorem scanOnce_string (depth : Nat) (L : JsonLayout) (s : String) :
    (scanOnce pf depth).Takes (EndsRun isNumberChar) (L.string s) (.str s) := by
  cases depth <;> exact (scanWith_string L s).mono fun _ _ => trivial

/-- What is written of a value is read back up to where it ends. -/
theorem scanOnce_dump {L : JsonLayout} {depth : Nat} {v : Json} (h : Writable pf L depth v) :
    (scanOnce pf depth).Takes (EndsRun isNumberChar) (L.dump v) v := by
  induction h with
  | @null depth =>
    have hw : ("null".toList, Json.null) ∈ jsonWords := by simp [jsonWords]
    exact scanOnce_word depth hw
  | @bool depth b =>
    have hw : ((if b then "true".toList else "false".toList), Json.bool b) ∈ jsonWords := by
      cases b <;> simp [jsonWords]
    exact scanOnce_word depth hw
  | @int depth i h =>
    rw [JsonLayout.dump, ← chars_ofInt]
    exact scanOnce_numeral depth (value_ofInt h)
  | @float depth x h =>
    rw [JsonLayout.dump]
    rcases h with h | ⟨n, hn, hvalue⟩
    · exact scanOnce_word depth h
    · rw [← hn]
      exact scanOnce_numeral depth hvalue
  | @str depth s => exact scanOnce_string depth L s
  | @arr depth l h ih =>
    -- each element is taken, one level further down
    have hitems : List.Forall₂ ((scanOnce pf depth).Takes (EndsRun isNumberChar)) (l.map L.dump) l :=
      List.forall₂_map_left_iff.mpr (List.forall₂_same.mpr ih)
    have helems := enclosed_takes jsonDecodeError ']' L.gap_blank rfl rfl (by decide)
      (endsRun_cons rfl) (endsRun_cons rfl) hitems (by
        intro text ht
        obtain ⟨v, hv, rfl⟩ := List.mem_map.mp ht
        exact startsItem_dump (h v hv))
    intro rest _
    rw [JsonLayout.dump, JsonLayout.dumpElems_eq]
    exact bind_of_eq_ok (helems rest trivial) _
  | @obj depth m hkeys h ih =>
    -- each field as well, and the keys are different
    have hmembers : List.Forall₂ ((scanMember (scanOnce pf depth)).Takes (EndsRun isNumberChar))
        (m.map fun f => L.string f.1 ++ ':' :: L.gap ++ L.dump f.2) m :=
      List.forall₂_map_left_iff.mpr (List.forall₂_same.mpr fun f hf =>
        scanMember_takes (ih f hf) (startsItem_dump (h f hf)))
    have hfields := enclosed_takes jsonDecodeError '\x7d' L.gap_blank rfl rfl (by decide)
      (endsRun_cons rfl) (endsRun_cons rfl) hmembers (by
        intro text ht
        obtain ⟨f, -, rfl⟩ := List.mem_map.mp ht
        exact ⟨'"', _, rfl, rfl, by decide⟩)
    intro rest _
    rw [JsonLayout.dump, JsonLayout.dumpFields_eq]
    refine (bind_of_eq_ok (hfields rest trivial) _).trans ?_
    dsimp only
    rw [foldl_dictSet hkeys]
    rfl

/-- What is written of a value reads back. -/
theorem jsonLoads_dump {L : JsonLayout} {depth : Nat} {v : Json} (h : Writable pf L depth v) :
    jsonLoads pf depth (L.dump v) = .ok v := by
  have hscan := scanOnce_dump h [] (endsRun_nil _)
  rw [List.append_nil] at hscan
  have hblank : (L.dump v).dropWhile isBlank = L.dump v := by
    obtain ⟨c, cs, hcons, hc, -⟩ := startsItem_dump h
    rw [hcons, List.dropWhile_cons, hc, if_neg (by decide)]
  rw [jsonLoads, hblank, bind_of_eq_ok hscan]
  rfl

/-! ### A check -/

mutual

/-- Whether a value reads back, as far as its numbers do. -/
def Json.reads (float : PyFloat → Bool) : (depth : Nat) → Json → Bool
  | _, .null => true
  | _, .bool _ => true
  | _, .int i => decide (i.natAbs < 10 ^ maxStrDigits)
  | _, .float x => float x
  | _, .str _ => true
  | 0, .arr _ => false
  | depth + 1, .arr l => elemsRead float depth l
  | 0, .obj _ => false
  | depth + 1, .obj m => decide (m.map (·.1)).Nodup && fieldsRead float depth m

/-- The elements can be read back. -/
def elemsRead (float : PyFloat → Bool) (depth : Nat) : List Json → Bool
  | [] => true
  | v :: vs => v.reads float depth && elemsRead float depth vs

/-- The values of the fields can be read back. -/
def fieldsRead (float : PyFloat → Bool) (depth : Nat) : List (String × Json) → Bool
  | [] => true
  | (_, v) :: fs => v.reads float depth && fieldsRead float depth fs

end

section Check

variable {L : JsonLayout} {float : PyFloat → Bool}

mutual

/-- A value that can be read back can be written and read back. -/
theorem writable_of_reads (hfloat : ∀ x, float x = true → ReadsFloat pf (L.number x).toList x) :
    ∀ {depth : Nat} (v : Json), v.reads float depth = true → Writable pf L depth v
  | _, .null => fun _ => .null
  | _, .bool b => fun _ => .bool b
  | _, .int i => fun h => by
    rw [Json.reads] at h
    exact .int (of_decide_eq_true h)
  | _, .float x => fun h => by
    rw [Json.reads] at h
    exact .float (hfloat x h)
  | _, .str s => fun _ => .str s
  | 0, .arr l => fun h => by
    rw [Json.reads] at h
    cases h
  | depth + 1, .arr l => fun h => by
    rw [Json.reads] at h
    exact .arr (writable_of_elemsRead hfloat l h)
  | 0, .obj m => fun h => by
    rw [Json.reads] at h
    cases h
  | depth + 1, .obj m => fun h => by
    rw [Json.reads, Bool.and_eq_true, decide_eq_true_eq] at h
    exact .obj h.1 (writable_of_fieldsRead hfloat m h.2)

/-- So can the elements of an array. -/
theorem writable_of_elemsRead
    (hfloat : ∀ x, float x = true → ReadsFloat pf (L.number x).toList x) {depth : Nat} :
    ∀ l : List Json, elemsRead float depth l = true → ∀ v ∈ l, Writable pf L depth v
  | [] => fun _ v hv => absurd hv List.not_mem_nil
  | v :: l => fun h => by
    rw [elemsRead, Bool.and_eq_true] at h
    exact List.forall_mem_cons.mpr
      ⟨writable_of_reads hfloat v h.1, writable_of_elemsRead hfloat l h.2⟩

/-- And the values of an object. -/
theorem writable_of_fieldsRead
    (hfloat : ∀ x, float x = true → ReadsFloat pf (L.number x).toList x) {depth : Nat} :
    ∀ m : List (String × Json), fieldsRead float depth m = true → ∀ f ∈ m, Writable pf L depth f.2
  | [] => fun _ f hf => absurd hf List.not_mem_nil
  | f :: m => fun h => by
    rw [fieldsRead, Bool.and_eq_true] at h
    exact List.forall_mem_cons.mpr
      ⟨writable_of_reads hfloat f.2 h.1, writable_of_fieldsRead hfloat m h.2⟩

end

end Check

/-! ### The writers -/

mutual

/-- What `json.dumps` writes is the ASCII layout. -/
theorem dumpAscii_layout (pf : Platform) : ∀ v : Json,
    (dumpAscii pf v).toList = (JsonLayout.ascii pf).dump v
  | .null | .int _ => by
    rw [dumpAscii, JsonLayout.dump]
  | .bool true | .bool false | .float _ => by
    rw [dumpAscii, JsonLayout.dump]
    rfl
  | .str s => by
    rw [dumpAscii, JsonLayout.dump]
    simp [dumpAsciiString, JsonLayout.string, JsonLayout.ascii, String.toList_append]
  | .arr l => by
    rw [dumpAscii, JsonLayout.dump, ← dumpAsciiElems_layout pf l]
    simp [String.toList_append, String.toList_intercalate, JsonLayout.comma, JsonLayout.ascii]
  | .obj m => by
    rw [dumpAscii, JsonLayout.dump, ← dumpAsciiFields_layout pf m]
    simp [String.toList_append, String.toList_intercalate, JsonLayout.comma, JsonLayout.ascii]

/-- So is what it writes of elements. -/
theorem dumpAsciiElems_layout (pf : Platform) : ∀ l : List Json,
    (dumpAsciiElems pf l).map String.toList = (JsonLayout.ascii pf).dumpElems l
  | [] => rfl
  | v :: vs => by
    rw [dumpAsciiElems, JsonLayout.dumpElems, List.map_cons, dumpAscii_layout pf v,
      dumpAsciiElems_layout pf vs]

/-- And of fields. -/
theorem dumpAsciiFields_layout (pf : Platform) : ∀ m : List (String × Json),
    (dumpAsciiFields pf m).map String.toList = (JsonLayout.ascii pf).dumpFields m
  | [] => rfl
  | (k, v) :: fs => by
    rw [dumpAsciiFields, JsonLayout.dumpFields, List.map_cons, ← dumpAscii_layout pf v,
      dumpAsciiFields_layout pf fs]
    simp [dumpAsciiString, JsonLayout.string, JsonLayout.ascii, String.toList_append]

end

mutual

/-- What the compact dump writes is the compact layout. -/
theorem dumpJson_layout (pf : Platform) : ∀ v : Json,
    (dumpJson pf v).toList = (JsonLayout.compact (dumpFloat pf)).dump v
  | .null | .int _ => by
    rw [dumpJson, JsonLayout.dump]
  | .bool true | .bool false | .float _ => by
    rw [dumpJson, JsonLayout.dump]
    rfl
  | .str s => by
    rw [dumpJson, JsonLayout.dump]
    simp [dumpString, JsonLayout.string, JsonLayout.compact, String.toList_append]
  | .arr l => by
    rw [dumpJson, JsonLayout.dump, ← dumpElems_layout pf l]
    simp [String.toList_append, String.toList_intercalate, JsonLayout.comma, JsonLayout.compact]
  | .obj m => by
    rw [dumpJson, JsonLayout.dump, ← dumpFields_layout pf m]
    simp [String.toList_append, String.toList_intercalate, JsonLayout.comma, JsonLayout.compact]

/-- So is what it writes of elements. -/
theorem dumpElems_layout (pf : Platform) : ∀ l : List Json,
    (dumpElems pf l).map String.toList = (JsonLayout.compact (dumpFloat pf)).dumpElems l
  | [] => rfl
  | v :: vs => by
    rw [dumpElems, JsonLayout.dumpElems, List.map_cons, dumpJson_layout pf v,
      dumpElems_layout pf vs]

/-- And of fields. -/
theorem dumpFields_layout (pf : Platform) : ∀ m : List (String × Json),
    (dumpFields pf m).map String.toList = (JsonLayout.compact (dumpFloat pf)).dumpFields m
  | [] => rfl
  | (k, v) :: fs => by
    rw [dumpFields, JsonLayout.dumpFields, List.map_cons, ← dumpJson_layout pf v,
      dumpFields_layout pf fs]
    simp [dumpString, JsonLayout.string, JsonLayout.compact, String.toList_append]

end

end MapServiceAgent.Native
