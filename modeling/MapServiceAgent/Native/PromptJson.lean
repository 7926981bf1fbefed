import MapServiceAgent.Native.Python

/-!
# JSON for prompts

Empty values are pruned, the rest is written without blanks.
-/

namespace MapServiceAgent.Native

/-- `_is_empty`: `None` and everything of length zero; numbers and booleans
    have no length. -/
def isEmptyValue : Json → Bool
  | .null => true
  | .str s => s == ""
  | .arr l => l.isEmpty
  | .obj m => m.isEmpty
  | _ => false

mutual

/-- `prune_empty`: a container is pruned before it is judged, so one that only
    held empty values goes too. -/
def pruneEmpty : Json → Json
  | .obj m => .obj (pruneFields m)
  | .arr l => .arr (pruneElems l)
  | v => v

/-- The fields that hold anything once they are pruned themselves. -/
def pruneFields : List (String × Json) → List (String × Json)
  | [] => []
  | (k, v) :: fs =>
    let pruned := pruneEmpty v
    if isEmptyValue pruned then pruneFields fs else (k, pruned) :: pruneFields fs

/-- The elements that hold anything once they are pruned themselves. -/
def pruneElems : List Json → List Json
  | [] => []
  | v :: vs =>
    let pruned := pruneEmpty v
    if isEmptyValue pruned then pruneElems vs else pruned :: pruneElems vs

end

/-! ### Values with tuples -/

/-- What a prompt is put together from before it is JSON: tuples stand beside
    lists. -/
inductive PromptValue where
  | null
  | bool (b : Bool)
  | int (i : Int)
  | float (x : PyFloat)
  | str (s : String)
  | list (elems : List PromptValue)
  | tuple (elems : List PromptValue)
  | dict (fields : List (String × PromptValue))
deriving Repr

namespace PromptValue

/-- `_is_empty`. -/
def isEmpty : PromptValue → Bool
  | null => true
  | str s => s == ""
  | list l => l.isEmpty
  | tuple l => l.isEmpty
  | dict m => m.isEmpty
  | _ => false

mutual

/-- `prune_empty`: a tuple comes out as a list. -/
def prune : PromptValue → PromptValue
  | dict m => dict (pruneFields m)
  | list l => list (pruneElems l)
  | tuple l => list (pruneElems l)
  | v => v

/-- The fields that hold anything once they are pruned themselves. -/
def pruneFields : List (String × PromptValue) → List (String × PromptValue)
  | [] => []
  | (k, v) :: fs =>
    let pruned := v.prune
    if pruned.isEmpty then pruneFields fs else (k, pruned) :: pruneFields fs

/-- The elements that hold anything once they are pruned themselves. -/
def pruneElems : List PromptValue → List PromptValue
  | [] => []
  | v :: vs =>
    let pruned := v.prune
    if pruned.isEmpty then pruneElems vs else pruned :: pruneElems vs

end

mutual

/-- A decoded JSON value: it has no tuples. -/
def ofJson : Json → PromptValue
  | .null => null
  | .bool b => bool b
  | .int i => int i
  | .float x => float x
  | .str s => str s
  | .arr l => list (ofElems l)
  | .obj m => dict (ofFields m)

/-- A list, element by element. -/
def ofElems : List Json → List PromptValue
  | [] => []
  | v :: vs => ofJson v :: ofElems vs

/-- A dictionary, field by field. -/
def ofFields : List (String × Json) → List (String × PromptValue)
  | [] => []
  | (k, v) :: fs => (k, ofJson v) :: ofFields fs

end

end PromptValue

/-! ### Pruned lists -/

/-- Pruning drops no entry that stays when pruned itself. -/
theorem pruneElems_eq_map {l : List Json} (h : ∀ v ∈ l, isEmptyValue (pruneEmpty v) = false) :
    pruneElems l = l.map pruneEmpty := by
  induction l with
  | nil => rfl
  | cons v l ih =>
    have hrest := ih fun w hw => h w (List.mem_cons_of_mem _ hw)
    simp [pruneElems, h v List.mem_cons_self, hrest]

/-! ### Writing -/

/-- One lowercase hexadecimal digit. -/
def hexDigit (n : Nat) : Char := if n < 10 then Char.ofNat (48 + n) else Char.ofNat (87 + n)

/-- What one character becomes inside a JSON string: quotes, backslashes and
    the controls below the blank are escaped. -/
def escapeJsonChar (c : Char) : List Char :=
  if c == '"' then ['\\', '"']
  else if c == '\\' then ['\\', '\\']
  else if c == '\n' then ['\\', 'n']
  else if c == '\r' then ['\\', 'r']
  else if c == '\t' then ['\\', 't']
  else if c.toNat == 0x0c then ['\\', 'f']
  else if c.toNat == 0x08 then ['\\', 'b']
  else if c.toNat < 0x20 then
    ['\\', 'u', '0', '0', hexDigit (c.toNat / 16), hexDigit (c.toNat % 16)]
  else [c]

/-- A string in quotation marks, other scripts left as they are. -/
def dumpString (s : String) : String :=
  "\"" ++ String.ofList (s.toList.flatMap escapeJsonChar) ++ "\""

/-- How `json.dumps` writes a float. -/
def dumpFloat (pf : Platform) : PyFloat → String
  | .nan => "NaN"
  | .inf => "Infinity"
  | .ninf => "-Infinity"
  | x => pf.floatRepr x

mutual

/-- `json.dumps(v, ensure_ascii=False, separators=(",", ":"))`. -/
def dumpJson (pf : Platform) : Json → String
  | .null => "null"
  | .bool b => if b then "true" else "false"
  | .int i => toString i
  | .float x => dumpFloat pf x
  | .str s => dumpString s
  | .arr l => "[" ++ String.intercalate "," (dumpElems pf l) ++ "]"
  | .obj m => "\x7b" ++ String.intercalate "," (dumpFields pf m) ++ "\x7d"

/-- The elements of a list, each dumped. -/
def dumpElems (pf : Platform) : List Json → List String
  | [] => []
  | v :: vs => dumpJson pf v :: dumpElems pf vs

/-- The fields of a dictionary in their order, each dumped without blanks. -/
def dumpFields (pf : Platform) : List (String × Json) → List String
  | [] => []
  | (k, v) :: fs => (dumpString k ++ ":" ++ dumpJson pf v) :: dumpFields pf fs

end

/-- What has no content is left out of a prompt. -/
def dumpPromptJson (pf : Platform) (v : Json) : String := dumpJson pf (pruneEmpty v)

end MapServiceAgent.Native
