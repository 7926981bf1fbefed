import MapServiceAgent.Native.LocationSeal
import MapServiceAgent.Spec.DoneStreamCorrect
import MapServiceAgent.Spec.GateCorrect

/-!
# What is sealed opens, for a while

An envelope opens to what was sealed in it, stamped with the second it was
sealed at, as long as that second is no more than five minutes ago and no more
than one ahead. Whatever time the values themselves named is overwritten.

## Key results

- `splitOn_token`: the two dots split a token into its three parts
- `openSeal_of_plaintext`: an envelope whose plaintext reads back is judged by
  its age
- `openSeal_sealed`: what is sealed opens within its time
-/

namespace MapServiceAgent.Native

variable {w : Wire}

/-! ### The token -/

/-- No base64 digit is the dot between the parts. -/
theorem digit_ne_dot {n : Nat} (h : n < 64) :
    (if Base64.digit n = '+' then '-' else if Base64.digit n = '/' then '_' else Base64.digit n) ≠
      '.' := by
  have hall : ∀ n : Fin 64, (if Base64.digit n = '+' then '-'
      else if Base64.digit n = '/' then '_' else Base64.digit n) ≠ '.' := by decide
  exact hall ⟨n, h⟩

/-- No part of a token has a dot in it. -/
theorem dot_notMem_encodeUrl (bytes : List UInt8) : '.' ∉ Base64.encodeUrl bytes := by
  intro hmem
  obtain ⟨c, hc, hdot⟩ := List.mem_map.mp hmem
  rcases Base64.mem_encode (List.mem_filter.mp hc).1 with ⟨n, hn, rfl⟩ | rfl
  · exact digit_ne_dot hn hdot
  · exact absurd hdot (by decide)

/-- A token of a nonce and a ciphertext. -/
def tokenOf (iv ciphertext : List UInt8) : String :=
  sealVersion ++ "." ++ String.ofList (Base64.encodeUrl iv) ++ "." ++
    String.ofList (Base64.encodeUrl ciphertext)

/-- The two dots split a token into its three parts. -/
theorem splitOn_token (iv ciphertext : List UInt8) :
    (tokenOf iv ciphertext).toList.splitOn '.' =
      [sealVersion.toList, Base64.encodeUrl iv, Base64.encodeUrl ciphertext] := by
  have hjoin : (tokenOf iv ciphertext).toList = ['.'].intercalate
      [sealVersion.toList, Base64.encodeUrl iv, Base64.encodeUrl ciphertext] := by
    simp [tokenOf, String.toList_append, List.intercalate_cons_cons]
  rw [hjoin]
  apply List.splitOn_intercalate
  · -- no part holds a dot of its own
    intro part hpart
    simp only [List.mem_cons, List.not_mem_nil, or_false] at hpart
    rcases hpart with rfl | rfl | rfl
    · decide
    · exact dot_notMem_encodeUrl iv
    · exact dot_notMem_encodeUrl ciphertext
  · exact List.cons_ne_nil _ _

/-- A token is parted into the nonce and the cipher text it was made of. -/
theorem sealParts_token (iv ciphertext : List UInt8) : sealParts (tokenOf iv ciphertext) =
    some (Base64.encodeUrl iv, Base64.encodeUrl ciphertext) := by
  rw [sealParts, splitOn_token]
  exact if_pos rfl

/-! ### The stamp -/

/-- Readings of a clock that counts from a day in the past. -/
theorem truncate_eq_floor {q : ℚ} (h : 0 ≤ q) : truncate q = ⌊q⌋ := by
  rw [truncate, if_pos h]
  rfl

/-- Cutting off a fraction brings a number no farther from 0. -/
theorem abs_truncate_le (q : ℚ) : |(truncate q : ℚ)| ≤ |q| := by
  unfold truncate
  split
  · -- from 0 on it is rounded down
    rename_i hq
    have hfloor : (0 : ℚ) ≤ (q.floor : ℚ) := by exact_mod_cast Rat.le_floor_iff.mpr hq
    rw [abs_of_nonneg hfloor, abs_of_nonneg hq]
    exact Rat.floor_le q
  · -- below 0 it is rounded up
    rename_i hq
    have hneg : 0 ≤ -q := by linarith
    have hfloor : (0 : ℚ) ≤ ((-q).floor : ℚ) := by exact_mod_cast Rat.le_floor_iff.mpr hneg
    rw [Int.cast_neg, abs_neg, abs_of_nonneg hfloor, ← abs_neg q, abs_of_nonneg hneg]
    exact Rat.floor_le (-q)

/-- The stamp of a reading fits a double, as the reading does. -/
theorem floatOfInt_truncate {q : ℚ} (h : |q| < doubleLimit) :
    floatOfInt (truncate q) = .ok (.fin (truncate q)) := by
  have habs : |(truncate q : ℚ)| < doubleLimit := (abs_truncate_le q).trans_lt h
  have hint : |truncate q| < doubleLimit := by exact_mod_cast habs
  have hbounds := abs_lt.mp hint
  rw [floatOfInt, if_pos (by omega)]

/-! ### Sealing and opening -/

/-- The same world at another reading of the clock. -/
def Wire.atTime (w : Wire) (now : ℚ) : Wire := { w with now := now }

/-- What `json.dumps` writes for a dictionary, encoded. -/
def Wire.written (w : Wire) (m : List (String × Json)) : List UInt8 :=
  (dumpAscii w.platform (.obj m)).toList.map fun c => UInt8.ofNat c.toNat

/-- The values with the second they are sealed at. -/
def stamped (now : ℚ) (payload : List (String × Json)) : List (String × Json) :=
  dictSet payload "iat" (.int (truncate now))

/-- With a key the payload is stamped, written, encrypted and made a token. -/
theorem sealed_eq {key : List UInt8} (hkey : w.key = .ok key) (payload : List (String × Json)) :
    w.sealed payload = .ok (tokenOf w.iv
      (w.encrypt key w.iv (w.written (stamped w.now payload)) sealAad)) := by
  unfold Wire.sealed
  rw [hkey]
  rfl

/-- An envelope whose plaintext reads back is judged by its age. -/
theorem openSeal_of_plaintext {token : String} {iv ciphertext : List Char} {plain : List UInt8}
    {m : List (String × Json)} {i : Int} {x : PyFloat}
    (hparts : sealParts token = some (iv, ciphertext))
    (hplain : w.plaintext iv ciphertext = some plain) (hloads : w.loads plain = .ok (.obj m))
    (hissued : dictGet m "iat" = .int i) (hfits : floatOfInt i = .ok x) :
    w.openSeal token =
      if -60 ≤ w.now - i ∧ w.now - i ≤ 300 then .ok m else .error .sealError := by
  have hage : sealAge w.now (dictGet m "iat") = .ok (w.now - i) := by
    rw [hissued]
    unfold sealAge
    dsimp only
    rw [hfits]
  rw [openSeal_of_obj hparts hplain hloads, bind_of_eq_ok hage]
  by_cases htime : -60 ≤ w.now - i ∧ w.now - i ≤ 300
  · -- in time: neither bound is passed
    rw [if_pos htime, if_neg]
    · rfl
    · rw [not_or, not_lt, not_lt]
      exact ⟨htime.2, htime.1⟩
  · rw [if_neg htime, if_pos]
    · rfl
    · -- out of it: one of the two bounds is
      by_contra hin
      rw [not_or, not_lt, not_lt] at hin
      exact htime ⟨hin.2, hin.1⟩

/-- The plaintext of a token is what was encrypted. -/
theorem plaintext_token {key plain : List UInt8} (hkey : w.key = .ok key) (iv : List UInt8)
    (hcipher : w.decrypt key iv (w.encrypt key iv plain sealAad) sealAad = .ok plain) :
    w.plaintext (Base64.encodeUrl iv) (Base64.encodeUrl (w.encrypt key iv plain sealAad)) =
      some plain := by
  unfold Wire.plaintext
  rw [hkey, Base64.decodeUrl_encodeUrl, Base64.decodeUrl_encodeUrl]
  dsimp only
  rw [hcipher]
  rfl

/-- What is sealed at one reading of the clock and opened at another comes back
    with the stamp of the first, if the two are close enough, and not at all
    otherwise. The token has three parts, and each decodes. -/
theorem openSeal_sealed (w : Wire) (t₀ t₁ : ℚ) (payload : List (String × Json))
    {key : List UInt8} (hkey : w.key = .ok key)
    (hcipher : ∀ plain, w.decrypt key w.iv (w.encrypt key w.iv plain sealAad) sealAad = .ok plain)
    (hjson : w.loads (w.written (stamped t₀ payload)) = .ok (.obj (stamped t₀ payload)))
    (hclock : |t₀| < doubleLimit) :
    (∀ bytes, Base64.decodeUrl (Base64.encodeUrl bytes) = some bytes) ∧
    (0 ≤ t₀ → truncate t₀ = ⌊t₀⌋) ∧
    ∃ token ciphertext, (w.atTime t₀).sealed payload = .ok token ∧
      token.toList.splitOn '.' =
        [sealVersion.toList, Base64.encodeUrl w.iv, Base64.encodeUrl ciphertext] ∧
      (w.atTime t₁).openSeal token =
        if -60 ≤ t₁ - truncate t₀ ∧ t₁ - truncate t₀ ≤ 300 then
          .ok (dictSet payload "iat" (.int (truncate t₀)))
        else .error .sealError := by
  refine ⟨Base64.decodeUrl_encodeUrl, truncate_eq_floor, ?_⟩
  have hsealed := sealed_eq (w := w.atTime t₀) hkey payload
  refine ⟨_, _, hsealed, splitOn_token _ _, ?_⟩
  -- the parts decode to what was encrypted, and that to what was stamped
  have hplain := plaintext_token (w := w.atTime t₁) hkey w.iv
    (hcipher (w.written (stamped t₀ payload)))
  exact openSeal_of_plaintext (w := w.atTime t₁) (sealParts_token _ _) hplain hjson
    (dictGet_dictSet_self _ _ _) (floatOfInt_truncate hclock)

/-- A cipher that puts the nonce before the plaintext and asks for it again, and
    one text that decodes. -/
def noncedWire : Wire :=
  { sampleWire with
    encrypt := fun _ iv plaintext _ => iv ++ plaintext
    decrypt := fun _ iv ciphertext _ =>
      if iv.isPrefixOf ciphertext then .ok (ciphertext.drop iv.length)
      else .error (.other "InvalidTag")
    loads := fun plain =>
      if plain = "\x7b\"iat\": 1700\x7d".toList.map fun c => UInt8.ofNat c.toNat then
        .ok (.obj [("iat", .int 1700)])
      else .error (.valueError "JSONDecodeError")
    iv := [1, 2, 3, 4, 5, 6, 7, 8, 9, 10, 11, 12] }

/-- A stamp far ahead is overwritten, and the envelope still opens. -/
theorem openSeal_sealed_sample : ∃ token,
    (noncedWire.atTime (3401 / 2)).sealed [("iat", .int 9999)] = .ok token ∧
      (noncedWire.atTime 1800).openSeal token = .ok [("iat", .int 1700)] := by
  have hstamp : truncate (3401 / 2) = 1700 := by decide +kernel
  have hkey : noncedWire.key = .ok (List.replicate 32 0) := rfl
  have hcipher : ∀ plain, noncedWire.decrypt (List.replicate 32 0) noncedWire.iv
      (noncedWire.encrypt (List.replicate 32 0) noncedWire.iv plain sealAad) sealAad =
        .ok plain := by
    intro plain
    simp [noncedWire]
  -- the stamp takes the place of the old one, and reads back
  have hjson : noncedWire.loads (noncedWire.written (stamped (3401 / 2) [("iat", .int 9999)])) =
      .ok (.obj (stamped (3401 / 2) [("iat", .int 9999)])) := by
    have hwritten : noncedWire.written [("iat", .int 1700)] =
        "\x7b\"iat\": 1700\x7d".toList.map fun c => UInt8.ofNat c.toNat := by decide +kernel
    have hstamped : stamped (3401 / 2) [("iat", .int 9999)] = [("iat", .int 1700)] := by
      rw [stamped, hstamp]
      rfl
    rw [hstamped, hwritten]
    rfl
  have hclock : |(3401 / 2 : ℚ)| < doubleLimit := by
    rw [abs_of_pos (by norm_num)]
    have hlimit : (3401 : Int) ≤ doubleLimit := by decide +kernel
    have hcast : (3401 : ℚ) ≤ doubleLimit := by exact_mod_cast hlimit
    linarith
  obtain ⟨-, -, token, ciphertext, hsealed, -, hopen⟩ :=
    openSeal_sealed noncedWire (3401 / 2) 1800 [("iat", .int 9999)] hkey hcipher hjson hclock
  refine ⟨token, hsealed, ?_⟩
  rw [hopen, hstamp, if_pos (by norm_num)]
  rfl

end MapServiceAgent.Native
