import MapServiceAgent.ForStd.Scan
import MapServiceAgent.Native.Python

/-!
# Decoding JSON

`json.loads` on a text: the scanner of the standard library, with what it refuses
and how. A container nested too deeply is refused by the interpreter and not by
the decoder.
-/

namespace MapServiceAgent.Native

open Scanner (all enclosed)

/-- `JSONDecodeError`. -/
def jsonDecodeError : PyExn := .valueError "JSONDecodeError"

/-- `RecursionError`, a subclass of `RuntimeError`. -/
def recursionError : PyExn := .runtimeError "RecursionError"

/-- Half of a surrogate pair is a character in Python, but no `Char`. A text that
    escapes one alone is left out of the model, and marked by this. -/
def loneSurrogate : PyExn := .other "lone surrogate"

/-- `WHITESPACE`. -/
def isBlank (c : Char) : Bool := c == ' ' || c == '\t' || c == '\n' || c == '\r'

/-! ### Strings -/

/-- The value of a hexadecimal digit. -/
def hexValue? (c : Char) : Option Nat :=
  let n := c.toNat
  if 48 ≤ n ∧ n ≤ 57 then some (n - 48)
  else if 97 ≤ n ∧ n ≤ 102 then some (n - 87)
  else if 65 ≤ n ∧ n ≤ 70 then some (n - 55)
  else none

/-- Four hexadecimal digits. -/
def scanUnit : Scanner PyExn Nat
  | a :: b :: c :: d :: rest =>
    match hexValue? a, hexValue? b, hexValue? c, hexValue? d with
    | some a, some b, some c, some d => .ok (a * 4096 + b * 256 + c * 16 + d, rest)
    | _, _, _, _ => .error jsonDecodeError
  | _ => .error jsonDecodeError

/-- What `\u` stands for: one unit, or two that are a surrogate pair. -/
def scanUnicode : Scanner PyExn Char := fun text => do
  let (high, rest) ← scanUnit text
  -- a unit that stands for itself
  if high < 0xd800 ∨ 0xe000 ≤ high then return (Char.ofNat high, rest)
  else if high < 0xdc00 then
    match rest with
    | '\\' :: 'u' :: rest =>
      let (low, rest) ← scanUnit rest
      if 0xdc00 ≤ low ∧ low < 0xe000 then
        return (Char.ofNat (0x10000 + (high - 0xd800) * 0x400 + (low - 0xdc00)), rest)
      else throw loneSurrogate
    | _ => throw loneSurrogate
  else throw loneSurrogate

/-- `BACKSLASH`: what a character stands for behind a backslash. -/
def backslash? (c : Char) : Option Char :=
  if c = '"' ∨ c = '\\' ∨ c = '/' then some c
  else if c = 'b' then some (Char.ofNat 0x08)
  else if c = 'f' then some (Char.ofNat 0x0c)
  else if c = 'n' then some '\n'
  else if c = 'r' then some '\r'
  else if c = 't' then some '\t'
  else none

/-- One character of a string, or its closing quote. -/
def scanStringChar : Scanner PyExn (Option Char)
  | [] => .error jsonDecodeError
  | c :: rest =>
    if c = '"' then .ok (none, rest)
    else if c = '\\' then
      match rest with
      | [] => .error jsonDecodeError
      | e :: rest =>
        if e = 'u' then do
          let (c, rest) ← scanUnicode rest
          return (some c, rest)
        else
          match backslash? e with
          | some c => .ok (some c, rest)
          | none => .error jsonDecodeError
    -- a control character must be escaped
    else if c.toNat < 0x20 then .error jsonDecodeError
    else .ok (some c, rest)

/-- `scanstring`, behind the opening quote. -/
def scanString : Scanner PyExn String := fun text => do
  let (cs, rest) ← all jsonDecodeError scanStringChar text
  return (String.ofList cs, rest)

/-! ### Numbers -/

/-- `-?`. -/
def scanSign (text : List Char) : List Char × List Char :=
  match text with
  | [] => ([], [])
  | c :: rest => if c = '-' then (['-'], rest) else ([], text)

/-- `0|[1-9]\d*`, or nothing. -/
def scanInteger (text : List Char) : List Char × List Char :=
  match text with
  | [] => ([], [])
  -- no digit follows a leading zero
  | c :: rest => if c = '0' then (['0'], rest) else text.span Char.isDigit

/-- `(\.\d+)?`. -/
def scanFraction (text : List Char) : List Char × List Char :=
  match text with
  | [] => ([], [])
  | c :: rest =>
    if c = '.' then
      let (digits, rest) := rest.span Char.isDigit
      -- a point without digits is left for what follows
      if digits = [] then ([], text) else ('.' :: digits, rest)
    else ([], text)

/-- `[-+]?`. -/
def scanExponentSign (text : List Char) : List Char × List Char :=
  match text with
  | [] => ([], [])
  | c :: rest => if c = '-' ∨ c = '+' then ([c], rest) else ([], text)

/-- `([eE][-+]?\d+)?`. -/
def scanExponent (text : List Char) : List Char × List Char :=
  match text with
  | [] => ([], [])
  | c :: rest =>
    if c = 'e' ∨ c = 'E' then
      let (sign, rest) := scanExponentSign rest
      let (digits, rest) := rest.span Char.isDigit
      if digits = [] then ([], text) else (c :: sign ++ digits, rest)
    else ([], text)

/-- How many digits `int` reads at most. -/
def maxStrDigits : Nat := 4300

/-- The integer that the digits and the sign stand for. -/
def intOfNumeral (sign digits : List Char) : Except PyExn Json :=
  match digits? digits with
  | some n =>
    if digits.length ≤ maxStrDigits then .ok (.int (if sign = [] then (n : Int) else -(n : Int)))
    else .error (.valueError "ValueError")
  | none => .error jsonDecodeError

/-- `_match_number_unicode`. -/
def scanNumber (pf : Platform) : Scanner PyExn Json := fun text =>
  let (sign, rest) := scanSign text
  let (digits, rest) := scanInteger rest
  if digits = [] then .error jsonDecodeError
  else
    let (fraction, rest) := scanFraction rest
    let (exponent, rest) := scanExponent rest
    -- only what has neither is an integer
    if fraction = [] ∧ exponent = [] then do return ((← intOfNumeral sign digits), rest)
    else
      match pf.floatOfStr (String.ofList (sign ++ digits ++ fraction ++ exponent)) with
      | some x => .ok (.float x, rest)
      | none => .error (.valueError "ValueError")

/-! ### Values -/

/-- The values that are words. -/
def jsonWords : List (List Char × Json) :=
  [("null".toList, .null), ("true".toList, .bool true), ("false".toList, .bool false),
    ("NaN".toList, .float .nan), ("Infinity".toList, .float .inf),
    ("-Infinity".toList, .float .ninf)]

/-- A value, given what a container comes to behind its opening bracket. -/
def scanWith (pf : Platform) (array : Scanner PyExn (List Json))
    (object : Scanner PyExn (List (String × Json))) : Scanner PyExn Json := fun text =>
  match text with
  | [] => .error jsonDecodeError
  | c :: rest =>
    if c = '"' then do
      let (s, rest) ← scanString rest
      return (.str s, rest)
    else if c = '\x7b' then do
      let (pairs, rest) ← object rest
      -- of two fields of one name the later counts
      return (.obj (pairs.foldl (fun d f => dictSet d f.1 f.2) []), rest)
    else if c = '[' then do
      let (elems, rest) ← array rest
      return (.arr elems, rest)
    else
      match jsonWords.find? fun w => w.1.isPrefixOf text with
      | some w => .ok (w.2, text.drop w.1.length)
      | none => scanNumber pf text

/-- A key, a colon and a value. -/
def scanMember (value : Scanner PyExn Json) : Scanner PyExn (String × Json) := fun text =>
  match text with
  | [] => .error jsonDecodeError
  | c :: rest =>
    if c = '"' then do
      let (key, rest) ← scanString rest
      match rest.dropWhile isBlank with
      | [] => throw jsonDecodeError
      | c :: rest =>
        if c = ':' then do
          let (v, rest) ← value (rest.dropWhile isBlank)
          return ((key, v), rest)
        else throw jsonDecodeError
    else .error jsonDecodeError

/-- `scan_once`, where `depth` containers may still be entered. -/
def scanOnce (pf : Platform) : Nat → Scanner PyExn Json
  -- the depth is spent
  | 0 => scanWith pf (fun _ => .error recursionError) fun _ => .error recursionError
  | depth + 1 => scanWith pf (enclosed isBlank jsonDecodeError ']' (scanOnce pf depth))
      (enclosed isBlank jsonDecodeError '\x7d' (scanMember (scanOnce pf depth)))

/-- `json.loads` on a text. -/
def jsonLoads (pf : Platform) (depth : Nat) (text : List Char) : Except PyExn Json := do
  let (v, rest) ← scanOnce pf depth (text.dropWhile isBlank)
  if rest.dropWhile isBlank = [] then return v else throw jsonDecodeError

end MapServiceAgent.Native
