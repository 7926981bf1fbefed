import MapServiceAgent.ForStd.Base64
import MapServiceAgent.Native.PromptJson

/-!
# Sealed envelopes

What travels to other services is sealed under the wire key; an envelope comes
back only if its key, its form and its age are right. `AESGCM`, the clock and
`json.loads` are parameters.
-/

namespace MapServiceAgent.Native

/-- `SealError`. -/
def sealError : PyExn := .other "SealError"

/-- `VERSION`. -/
def sealVersion : String := "v1"

/-- `AAD`. -/
def sealAad : List UInt8 := "map|loc|v1".toList.map fun c => UInt8.ofNat c.toNat

/-- `KEY_BYTES`. -/
def sealKeyBytes : Nat := 32

/-- `MAX_AGE_SECONDS`. -/
def maxAgeSeconds : ℚ := 300

/-- What sealing and opening read of the settings and the world. -/
structure Wire where
  platform : Platform
  /-- `LOCATION_WIRE_KEY`. -/
  wireKey : String
  /-- `AESGCM(key).encrypt(iv, plaintext, aad)`. -/
  encrypt (key iv plaintext aad : List UInt8) : List UInt8
  /-- `AESGCM(key).decrypt(iv, ciphertext, aad)`. -/
  decrypt (key iv ciphertext aad : List UInt8) : Except PyExn (List UInt8)
  /-- `json.loads`. -/
  loads : List UInt8 → Except PyExn Json
  /-- `time.time()`. -/
  now : ℚ
  /-- `os.urandom(12)`. -/
  iv : List UInt8

/-- `enabled`. -/
def Wire.enabled (w : Wire) : Bool := w.wireKey != ""

/-- `_key`. -/
def Wire.key (w : Wire) : Except PyExn (List UInt8) :=
  if w.wireKey = "" then .error sealError
  else
    -- `b64decode` passes over what is not of the alphabet
    match Base64.decodeLenient w.wireKey.toList with
    | none => .error sealError
    | some key => if key.length = sealKeyBytes then .ok key else .error sealError

/-! ### JSON in ASCII -/

/-- `\uXXXX`. -/
def escapeUnit (n : Nat) : List Char :=
  ['\\', 'u', hexDigit (n / 4096 % 16), hexDigit (n / 256 % 16), hexDigit (n / 16 % 16),
    hexDigit (n % 16)]

/-- What one character becomes inside an ASCII JSON string: beyond the basic
    plane, two surrogates. -/
def escapeAscii (c : Char) : List Char :=
  let n := c.toNat
  -- the same as in other dumps, but for the delete character
  if n < 0x7f then escapeJsonChar c
  else if n < 0x10000 then escapeUnit n
  else escapeUnit (0xd800 + (n - 0x10000) / 0x400) ++ escapeUnit (0xdc00 + (n - 0x10000) % 0x400)

/-- A string in quotation marks, all of it ASCII. -/
def dumpAsciiString (s : String) : String :=
  "\"" ++ String.ofList (s.toList.flatMap escapeAscii) ++ "\""

mutual

/-- `json.dumps(v)`. -/
def dumpAscii (pf : Platform) : Json → String
  | .null => "null"
  | .bool b => if b then "true" else "false"
  | .int i => toString i
  | .float x => dumpFloat pf x
  | .str s => dumpAsciiString s
  | .arr l => "[" ++ String.intercalate ", " (dumpAsciiElems pf l) ++ "]"
  | .obj m => "\x7b" ++ String.intercalate ", " (dumpAsciiFields pf m) ++ "\x7d"

/-- The elements of a list, each dumped. -/
def dumpAsciiElems (pf : Platform) : List Json → List String
  | [] => []
  | v :: vs => dumpAscii pf v :: dumpAsciiElems pf vs

/-- The fields of a dictionary in their order, each dumped. -/
def dumpAsciiFields (pf : Platform) : List (String × Json) → List String
  | [] => []
  | (k, v) :: fs => (dumpAsciiString k ++ ": " ++ dumpAscii pf v) :: dumpAsciiFields pf fs

end

/-! ### seal and open_seal -/

/-- `seal`: the values and the time they were sealed at. -/
def Wire.sealed (w : Wire) (payload : List (String × Json)) : Except PyExn String := do
  let body := dumpAscii w.platform (.obj (dictSet payload "iat" (.int (truncate w.now))))
  let plaintext := body.toList.map fun c => UInt8.ofNat c.toNat
  let ciphertext := w.encrypt (← w.key) w.iv plaintext sealAad
  return sealVersion ++ "." ++ String.ofList (Base64.encodeUrl w.iv) ++ "." ++
    String.ofList (Base64.encodeUrl ciphertext)

/-- The two parts of a text of the form of an envelope: `is_sealed` and the
    split. -/
def sealParts (token : String) : Option (List Char × List Char) :=
  match token.toList.splitOn '.' with
  -- three parts, no more and no fewer
  | [version, iv, ciphertext] => if version = sealVersion.toList then some (iv, ciphertext) else none
  | _ => none

/-- The plaintext of an envelope, if its parts decode and the key opens it. -/
def Wire.plaintext (w : Wire) (iv ciphertext : List Char) : Option (List UInt8) :=
  match w.key, Base64.decodeUrl iv, Base64.decodeUrl ciphertext with
  -- a key that is wrong, a part that does not decode and a forged text are alike
  | .ok key, some iv, some ciphertext => (w.decrypt key iv ciphertext sealAad).toOption
  | _, _, _ => none

/-- What `open_seal` raises: `SealError`, or what it does not catch. -/
inductive OpenFailure where
  | sealError
  | raised (e : PyExn)

/-- The age of an envelope, from the time it says it was sealed at: a finite
    number that is no boolean. `isfinite` raises on an integer that fits no
    double. -/
def sealAge (now : ℚ) (issued : Json) : Except OpenFailure ℚ :=
  match issued with
  | .int i =>
    match floatOfInt i with
    | .ok _ => .ok (now - i)
    | .error e => .error (.raised e)
  | .float (.fin q) => .ok (now - q)
  | _ => .error .sealError

/-- `isinstance(e, json.JSONDecodeError)`. -/
def isJsonDecodeError : PyExn → Bool
  | .valueError name => name == "JSONDecodeError"
  | _ => false

/-- `open_seal`. -/
def Wire.openSeal (w : Wire) (token : String) : Except OpenFailure (List (String × Json)) :=
  match sealParts token with
  | none => .error .sealError
  | some (iv, ciphertext) =>
    match w.plaintext iv ciphertext with
    | none => .error .sealError
    | some plain =>
      match w.loads plain with
      -- bytes that are no UTF-8 raise past the handler
      | .error e => if isJsonDecodeError e then .error .sealError else .error (.raised e)
      | .ok (.obj payload) => do
        let age ← sealAge w.now (dictGet payload "iat")
        -- a clock a minute ahead is let pass
        if maxAgeSeconds < age ∨ age < -60 then throw .sealError else return payload
      -- a list or a scalar is no payload
      | .ok _ => .error .sealError

end MapServiceAgent.Native
