import MapServiceAgent.ForStd.PyFloat
import MapServiceAgent.ForStd.Text

/-!
# The Python values and exceptions the service computes with

A decoded JSON body is a `Json`. Dictionaries are association lists in
insertion order; a decoded body repeats no key. Each operation that Python
refuses with an exception returns `Except PyExn`.
-/

namespace MapServiceAgent.Native

/-- A value of decoded JSON, and the Python values that are made of it. -/
inductive Json where
  | null
  | bool (b : Bool)
  | int (i : Int)
  | float (x : PyFloat)
  | str (s : String)
  | arr (elems : List Json)
  | obj (fields : List (String × Json))
deriving Repr

instance : Inhabited Json := ⟨.null⟩

/-- The exceptions the code raises or tells apart. A constructor stands for the
    class named there and carries what the handlers read of it; `name` is
    `type(e).__name__` where subclasses share a constructor. -/
inductive PyExn where
  | typeError
  | keyError
  | attributeError
  | overflowError
  | nameError
  /-- `ValueError` and its subclasses, JSON decoding and schema errors among them. -/
  | valueError (name : String)
  | structuredOutput (truncated : Bool) (rawText cause : String)
  | runtimeError (name : String)
  | geminiQuota (code : String)
  | llmBudgetExceeded
  | timeoutError
  /-- `httpx.HTTPStatusError`; `body` is what the response decodes to, if it does. -/
  | httpStatus (status : Int) (body : Option Json)
  | httpTimeout (name : String)
  /-- Any other `httpx.RequestError`. -/
  | httpRequest (name : String)
  | cancelled
  /-- The `CancelledError` an expired `asyncio.wait_for` throws into its body. -/
  | timerCancelled
  | other (name : String)
deriving Repr

namespace PyExn

/-- `isinstance(e, Exception)`: cancellation is a `BaseException` only. -/
def isException : PyExn → Bool
  | cancelled | timerCancelled => false
  | _ => true

/-- `isinstance(e, httpx.HTTPError)`. -/
def isHttpError : PyExn → Bool
  | httpStatus .. | httpTimeout _ | httpRequest _ => true
  | _ => false

/-- `isinstance(e, ValueError)`. -/
def isValueError : PyExn → Bool
  | valueError _ | structuredOutput .. => true
  | _ => false

/-- `isinstance(e, RuntimeError)`. -/
def isRuntimeError : PyExn → Bool
  | runtimeError _ | geminiQuota _ | llmBudgetExceeded => true
  | _ => false

/-- `type(e).__name__`. -/
def name : PyExn → String
  | typeError => "TypeError"
  | keyError => "KeyError"
  | attributeError => "AttributeError"
  | overflowError => "OverflowError"
  | nameError => "UnboundLocalError"
  | valueError n => n
  | structuredOutput .. => "StructuredOutputError"
  | runtimeError n => n
  | geminiQuota _ => "GeminiQuotaError"
  | llmBudgetExceeded => "LLMBudgetExceeded"
  | timeoutError => "TimeoutError"
  | httpStatus .. => "HTTPStatusError"
  | httpTimeout n => n
  | httpRequest n => n
  | cancelled | timerCancelled => "CancelledError"
  | other n => n

/-- A pydantic `ValidationError`, a subclass of `ValueError`. -/
def validationError : PyExn := .valueError "ValidationError"

end PyExn

/-- A hashable value: what a set or a dictionary compares keys by. Numbers
    that are equal across `bool`, `int` and `float` are one key. -/
inductive PyKey where
  | null
  | num (x : PyFloat)
  | str (s : String)
deriving DecidableEq, Repr

namespace Json

/-- `hash(v)` as far as telling keys apart; containers are unhashable. -/
def key : Json → Except PyExn PyKey
  | null => .ok .null
  | bool b => .ok (.num (if b then 1 else 0))
  | int i => .ok (.num (.fin i))
  | float x => .ok (.num x)
  | str s => .ok (.str s)
  | arr _ | obj _ => .error .typeError

/-- `bool(v)`. -/
def truthy : Json → Bool
  | null => false
  | bool b => b
  | int i => i != 0
  | float x => x != 0
  | str s => s != ""
  | arr l => !l.isEmpty
  | obj m => !m.isEmpty

/-- `isinstance(v, dict)`. -/
def isDict : Json → Bool
  | obj _ => true
  | _ => false

/-- The number an `int`, a `float` or a `bool` is: `isinstance(v, (int, float))`. -/
def num? : Json → Option PyFloat
  | bool b => some (if b then 1 else 0)
  | int i => some (.fin i)
  | float x => some x
  | _ => none

/-- `isinstance(v, bool)`. -/
def isBool : Json → Bool
  | bool _ => true
  | _ => false

/-- `v == s` for a string `s`. -/
def eqStr (s : String) : Json → Bool
  | str t => t == s
  | _ => false

/-- What `for x in v` runs over. -/
def iter : Json → Except PyExn (List Json)
  | arr l => .ok l
  | obj m => .ok (m.map fun f => .str f.1)
  | str s => .ok (s.toList.map fun c => .str (String.singleton c))
  | _ => .error .typeError

/-- `needle in v`. -/
def hasStr (needle : String) : Json → Except PyExn Bool
  | str s => .ok (hasSubstring needle s)
  | arr l => .ok (l.any (eqStr needle))
  | obj m => .ok (m.any fun f => f.1 == needle)
  | _ => .error .typeError

end Json

/-- `m.get(k)`: `None` for a missing key. -/
def dictGet (m : List (String × Json)) (k : String) : Json := (m.lookup k).getD .null

/-- `m[k]`. -/
def dictItem (m : List (String × Json)) (k : String) : Except PyExn Json :=
  match m.lookup k with
  | some v => .ok v
  | none => .error .keyError

/-- `v.get(k)` on any value. -/
def Json.get (k : String) : Json → Except PyExn Json
  | .obj m => .ok (dictGet m k)
  | _ => .error .attributeError

/-- `v or w`. -/
def Json.orElse (v w : Json) : Json := if v.truthy then v else w

/-- `v or []` on a list. -/
theorem Json.iter_orElse_arr (l : List Json) : ((Json.arr l).orElse (.arr [])).iter = .ok l := by
  cases l <;> rfl

/-- `d[k] = v` on a dictionary: an existing key keeps its place. -/
def dictSet {κ α : Type} [DecidableEq κ] (d : List (κ × α)) (k : κ) (v : α) : List (κ × α) :=
  match d with
  | [] => [(k, v)]
  | (k', v') :: rest => if k' = k then (k, v) :: rest else (k', v') :: dictSet rest k v

/-- A key that was set is found. -/
@[simp] theorem lookup_dictSet_self {κ α : Type} [DecidableEq κ] (d : List (κ × α)) (k : κ) (v : α) :
    (dictSet d k v).lookup k = some v := by
  fun_induction dictSet d k v with
  | case1 => simp
  | case2 => simp
  | case3 k' v' rest hne ih => rwa [List.lookup_cons, beq_false_of_ne (Ne.symm hne)]

/-- Setting one key leaves the others alone. -/
theorem lookup_dictSet_ne {κ α : Type} [DecidableEq κ] {d : List (κ × α)} {k k' : κ} {v : α}
    (h : k' ≠ k) : (dictSet d k v).lookup k' = d.lookup k' := by
  fun_induction dictSet d k v with
  | case1 => rw [List.lookup_cons, beq_false_of_ne h]
  | case2 => simp only [List.lookup_cons, beq_false_of_ne h]
  | case3 k'' v' rest hne ih => simp only [List.lookup_cons, ih]

/-- A field that was set is read back. -/
theorem dictGet_dictSet_self (m : List (String × Json)) (k : String) (v : Json) :
    dictGet (dictSet m k v) k = v := by
  rw [dictGet, lookup_dictSet_self, Option.getD_some]

/-- Setting one field leaves the others alone. -/
theorem dictGet_dictSet_ne {m : List (String × Json)} {k k' : String} (v : Json) (h : k' ≠ k) :
    dictGet (dictSet m k v) k' = dictGet m k' := by
  rw [dictGet, lookup_dictSet_ne h, dictGet]

/-- The same for a field that must be there. -/
theorem dictItem_dictSet_ne {m : List (String × Json)} {k k' : String} (v : Json) (h : k' ≠ k) :
    dictItem (dictSet m k v) k' = dictItem m k' := by
  rw [dictItem, lookup_dictSet_ne h, dictItem]

/-- What the language's floating-point and text conversions, the schema
    library's coercions and the great-circle distance do. Nothing proved here
    depends on more of them than that decimal digits read as their number. -/
structure Platform where
  /-- `float(s)`, if it does not raise. -/
  floatOfStr : String → Option PyFloat
  /-- `int(s)`, if it does not raise. -/
  intOfStr : String → Option Int
  intOfStr_digits : ∀ cs n, digits? cs = some n → intOfStr (String.ofList cs) = some (n : Int)
  /-- `repr` of a float. -/
  floatRepr : PyFloat → String
  /-- `repr` of a string. -/
  strRepr : String → String
  /-- pydantic's lax reading of a value as a `float`, if it accepts. -/
  coerceFloat : Json → Option PyFloat
  /-- pydantic's lax reading of a value as an `int`, if it accepts. -/
  coerceInt : Json → Option Int
  /-- `_straight_km`: the haversine distance, computed in doubles. -/
  straightKm : PyFloat → PyFloat → PyFloat → PyFloat → PyFloat

/-- Integers from here on do not fit a double. -/
def doubleLimit : Int := 2 ^ 1024 - 2 ^ 970

/-- `float(i)` for an integer. -/
def floatOfInt (i : Int) : Except PyExn PyFloat :=
  if i.natAbs < doubleLimit.natAbs then .ok (.fin i) else .error .overflowError

/-- `float(v)`. -/
def pyFloat (pf : Platform) : Json → Except PyExn PyFloat
  | .bool b => .ok (if b then 1 else 0)
  | .int i => floatOfInt i
  | .float x => .ok x
  | .str s =>
    match pf.floatOfStr s with
    | some x => .ok x
    | none => .error (.valueError "ValueError")
  | _ => .error .typeError

/-- `int(v)`. -/
def pyInt (pf : Platform) : Json → Except PyExn Int
  | .bool b => .ok (if b then 1 else 0)
  | .int i => .ok i
  | .float (.fin q) => .ok (truncate q)
  | .float .nan => .error (.valueError "ValueError")
  | .float _ => .error .overflowError
  | .str s =>
    match pf.intOfStr s with
    | some i => .ok i
    | none => .error (.valueError "ValueError")
  | _ => .error .typeError

mutual

/-- `repr(v)`. -/
def pyRepr (pf : Platform) : Json → String
  | .null => "None"
  | .bool b => if b then "True" else "False"
  | .int i => toString i
  | .float x => pf.floatRepr x
  | .str s => pf.strRepr s
  | .arr l => "[" ++ String.intercalate ", " (pyReprElems pf l) ++ "]"
  | .obj m => "\x7b" ++ String.intercalate ", " (pyReprFields pf m) ++ "\x7d"

/-- The `repr` of every element. -/
def pyReprElems (pf : Platform) : List Json → List String
  | [] => []
  | v :: vs => pyRepr pf v :: pyReprElems pf vs

/-- The `repr` of every key and its value. -/
def pyReprFields (pf : Platform) : List (String × Json) → List String
  | [] => []
  | (k, v) :: fs => (pf.strRepr k ++ ": " ++ pyRepr pf v) :: pyReprFields pf fs

end

/-- `str(v)`. -/
def pyStr (pf : Platform) : Json → String
  | .str s => s
  | v => pyRepr pf v

/-- `v + w` on numbers. -/
def pyAdd : Json → Json → Except PyExn Json
  | .int a, .int b => .ok (.int (a + b))
  | .int a, .bool b => .ok (.int (a + if b then 1 else 0))
  | .int a, .float y => do return .float ((← floatOfInt a) + y)
  | .float x, .int b => do return .float (x + (← floatOfInt b))
  | .float x, .bool b => .ok (.float (x + if b then 1 else 0))
  | .float x, .float y => .ok (.float (x + y))
  | _, _ => .error .typeError

/-- `sum(vs)`. -/
def pySum (vs : List Json) : Except PyExn Json := vs.foldlM pyAdd (.int 0)

/-- `v / n` for a positive integer `n`. -/
def pyDiv (v : Json) (n : Nat) : Except PyExn PyFloat :=
  match v with
  | .int a =>
    if |(a : ℚ) / n| < doubleLimit then .ok (.fin ((a : ℚ) / n)) else .error .overflowError
  | .float x => .ok (x.scale (1 / n))
  | _ => .error .typeError

end MapServiceAgent.Native
