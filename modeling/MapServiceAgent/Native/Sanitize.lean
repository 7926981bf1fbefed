import MapServiceAgent.Native.Python

/-!
# Text and structure sanitizers

`sanitizeText` prepares a text for a prompt view, `neutralizeTags` a text for
an output field. Both drop the control characters and leave no angle bracket.
-/

namespace MapServiceAgent.Native

/-- `_CONTROL_RE`: C0 and C1 controls but tab, newline and carriage return,
    zero-width and bidi marks, line and paragraph separators, invisible
    operators, the byte order mark and the tag block. -/
def isControl (c : Char) : Bool :=
  let n := c.toNat
  n ≤ 0x08 || n == 0x0b || n == 0x0c || (0x0e ≤ n && n ≤ 0x1f) || (0x7f ≤ n && n ≤ 0x9f) ||
    (0x200b ≤ n && n ≤ 0x200f) || n == 0x2028 || n == 0x2029 || (0x202a ≤ n && n ≤ 0x202e) ||
    (0x2066 ≤ n && n ≤ 0x2069) || (0x2060 ≤ n && n ≤ 0x2064) || n == 0xfeff ||
    (0xe0000 ≤ n && n ≤ 0xe007f)

/-- `_TAG_CHARS_RE`: angle brackets, half and full width. -/
def isTagChar (c : Char) : Bool :=
  c == '<' || c == '>' || c.toNat == 0xff1c || c.toNat == 0xff1e

/-- What an angle bracket becomes. -/
def tagReplacement : Char := '/'

/-- `_DEPTH_PLACEHOLDER`. -/
def depthPlaceholder : String := "…"

/-- `neutralize_tags` on a string. -/
def neutralizeTags (s : String) : String :=
  String.ofList ((s.toList.filter fun c => !isControl c).map fun c =>
    if isTagChar c then tagReplacement else c)

/-- `neutralize_tags` on any value: all but strings pass. -/
def neutralizeTagsJson : Json → Json
  | .str s => .str (neutralizeTags s)
  | v => v

/-- `_WHITESPACE_RE.sub(" ", ·)`; the flag says that a run has begun. -/
def collapseSpaces (inRun : Bool) : List Char → List Char
  | [] => []
  | c :: cs =>
    if isSpace c then
      if inRun then collapseSpaces true cs else ' ' :: collapseSpaces true cs
    else c :: collapseSpaces false cs

/-- What one character becomes once `<`, `>` and their full-width forms are
    written as entities. -/
def escapeTag (c : Char) : List Char :=
  if c == '<' || c.toNat == 0xff1c then "&lt;".toList
  else if c == '>' || c.toNat == 0xff1e then "&gt;".toList
  else [c]

/-- Control characters go, blanks collapse, and brackets become entities before the text
    is cut. -/
def sanitizeText (value : String) (maxLen : Nat) : String :=
  let cleaned := value.toList.filter fun c => !isControl c
  let cleaned := stripChars (collapseSpaces false cleaned)
  String.ofList ((cleaned.flatMap escapeTag).take maxLen)

/-- Put `k` first, unless a later entry sets it again: then that one's value. -/
def mergeField (k : String) (v : Json) (rest : List (String × Json)) : List (String × Json) :=
  match rest.lookup k with
  | some later => (k, later) :: rest.filter fun f => f.1 != k
  | none => (k, v) :: rest

mutual

/-- `sanitize_struct`, with `depth` the depth still allowed: containers below
    it are replaced by the placeholder. The source counts down to -1, but a
    container at 0 is replaced already, so only scalars would get there. -/
def sanitizeStruct (strMax : Nat) : (depth : Nat) → Json → Json
  | _, .str s => .str (sanitizeText s strMax)
  | 0, .obj _ => .str depthPlaceholder
  | d + 1, .obj m => .obj (sanitizeFields strMax d m)
  | 0, .arr _ => .str depthPlaceholder
  | d + 1, .arr l => .arr (sanitizeElems strMax d l)
  | _, v => v

/-- The elements of a list, all at one depth. -/
def sanitizeElems (strMax d : Nat) : List Json → List Json
  | [] => []
  | v :: vs => sanitizeStruct strMax d v :: sanitizeElems strMax d vs

/-- The entries of a sanitized dictionary: of keys that become equal, the last
    value stays, in the first one's place. -/
def sanitizeFields (strMax d : Nat) : List (String × Json) → List (String × Json)
  | [] => []
  | (k, v) :: fs =>
    mergeField (sanitizeText k strMax) (sanitizeStruct strMax d v) (sanitizeFields strMax d fs)

end

end MapServiceAgent.Native
