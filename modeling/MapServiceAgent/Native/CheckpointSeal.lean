import MapServiceAgent.ForStd.Base64
import MapServiceAgent.Native.Python

/-!
# Sealed checkpoints

`parseKeys` reads the key list of the settings, `CheckpointCipher` seals a
record under the active key and opens it under the key its name asks for.
`AESGCM` is a parameter.
-/

namespace MapServiceAgent.Native

/-- A `bytes` value. -/
abbrev Bytes := List UInt8

/-- `CheckpointSealError`, told apart by its message. -/
inductive CheckpointSealError where
  | malformedEntry
  | duplicateKid (kid : String)
  | notBase64 (kid : String)
  | wrongLength (kid : String)
  | noKeys
  | inactiveKid (kid : String)
  | unsupportedCipher (name : String)
  | unknownKid
  | cannotOpen
deriving DecidableEq, Repr

/-- The text of the exception; no secret is part of it. -/
def CheckpointSealError.message (pf : Platform) : CheckpointSealError → String
  | malformedEntry => "checkpoint key entry must be kid:base64"
  | duplicateKid kid => "duplicate checkpoint kid " ++ pf.strRepr kid
  | notBase64 kid => "checkpoint key " ++ pf.strRepr kid ++ " is not base64"
  | wrongLength kid => "checkpoint key " ++ pf.strRepr kid ++ " must decode to 32 bytes"
  | noKeys => "no checkpoint keys configured"
  | inactiveKid kid => "active kid " ++ pf.strRepr kid ++ " not in key map"
  | unsupportedCipher name => "unsupported cipher " ++ pf.strRepr name
  | unknownKid => "unknown checkpoint kid"
  | cannotOpen => "cannot open checkpoint record"

/-- `CIPHER_PREFIX`. -/
def cipherPrefix : String := "aesgcm:"

/-- `AAD`. -/
def checkpointAad : Bytes := "map|ckpt|v1".toList.map fun c => UInt8.ofNat c.toNat

/-- `KEY_BYTES`. -/
def keyBytes : Nat := 32

/-- `IV_BYTES`. -/
def ivBytes : Nat := 12

/-- A key of the length the reader lets through. -/
structure CheckpointKey where
  bytes : Bytes
  length_eq : bytes.length = keyBytes
deriving DecidableEq

/-- What `os.urandom(IV_BYTES)` draws. -/
structure Iv where
  bytes : Bytes
  length_eq : bytes.length = ivBytes

/-! ### parse_keys -/

/-- `s.split(sep)` for one character. -/
def splitBy (sep : Char) (s : String) : List String := (s.toList.splitOn sep).map String.ofList

/-- `s.partition(sep)` for one character: what stands before it, whether it
    occurs, and what stands after. -/
def partition (sep : Char) (s : String) : String × Bool × String :=
  let cs := s.toList
  (String.ofList (cs.takeWhile (· != sep)), cs.contains sep,
    String.ofList ((cs.dropWhile (· != sep)).drop 1))

/-- The entries of a key list: the parts between the commas, blank ones left
    out. -/
def keyEntries (raw : String) : List String := ((splitBy ',' raw).map strip).filter (· != "")

/-- The loop of `parse_keys`. -/
def parseEntry (keys : List (String × CheckpointKey)) (entry : String) :
    Except CheckpointSealError (List (String × CheckpointKey)) :=
  let (kid, sep, encoded) := partition ':' entry
  let kid := strip kid
  if !sep || kid == "" then .error .malformedEntry
  else if (keys.lookup kid).isSome then .error (.duplicateKid kid)
  else
    match Base64.decode (strip encoded).toList with
    | none => .error (.notBase64 kid)
    | some key =>
      if h : key.length = keyBytes then .ok (dictSet keys kid ⟨key, h⟩)
      else .error (.wrongLength kid)

/-- The entries in their order; an empty map of keys is refused. -/
def parseKeys (raw : String) : Except CheckpointSealError (List (String × CheckpointKey)) := do
  let keys ← (keyEntries raw).foldlM parseEntry []
  if keys = [] then throw .noKeys else return keys

/-! ### CheckpointCipher -/

/-- `AESGCM`. -/
structure AesGcm where
  encrypt (key : CheckpointKey) (iv plaintext aad : Bytes) : Except PyExn Bytes
  decrypt (key : CheckpointKey) (iv ciphertext aad : Bytes) : Except PyExn Bytes

/-- The keys and the one to seal under, which is among them. -/
structure CheckpointCipher where
  keys : List (String × CheckpointKey)
  activeKid : String
  active_mem : (keys.lookup activeKid).isSome = true

namespace CheckpointCipher

/-- `CheckpointCipher.__init__`. -/
def init (keys : List (String × CheckpointKey)) (activeKid : String) :
    Except CheckpointSealError CheckpointCipher :=
  if h : (keys.lookup activeKid).isSome = true then .ok ⟨keys, activeKid, h⟩
  else .error (.inactiveKid activeKid)

/-- The name says which key was used, the sealed bytes start with the nonce. -/
def encrypt (gcm : AesGcm) (cipher : CheckpointCipher) (iv : Iv) (plaintext : Bytes) :
    Except PyExn (String × Bytes) := do
  let key := (cipher.keys.lookup cipher.activeKid).get cipher.active_mem
  return (cipherPrefix ++ cipher.activeKid,
    iv.bytes ++ (← gcm.encrypt key iv.bytes plaintext checkpointAad))

/-- The name decides the key, and what the cipher refuses is one error. -/
def decrypt (gcm : AesGcm) (cipher : CheckpointCipher) (ciphername : String) (ciphertext : Bytes) :
    Except CheckpointSealError Bytes :=
  let name := ciphername.toList
  if !cipherPrefix.toList.isPrefixOf name then .error (.unsupportedCipher ciphername)
  else
    match cipher.keys.lookup (String.ofList (name.drop cipherPrefix.length)) with
    | none => .error .unknownKid
    | some key =>
      match gcm.decrypt key (ciphertext.take ivBytes) (ciphertext.drop ivBytes) checkpointAad with
      | .ok plaintext => .ok plaintext
      | .error _ => .error .cannotOpen

end CheckpointCipher

end MapServiceAgent.Native
