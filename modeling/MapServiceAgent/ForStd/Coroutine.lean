/-!
# Interruptible coroutines

A coroutine awaits, and whoever drives it decides at every await whether the
await comes back normally or an exception is thrown in there. An await may
carry a message for an append-only stream: the stream may have taken the
message by the time an exception strikes, or not. A schedule is the list of
these decisions; a coroutine run under a schedule gives the messages the
stream took, the outcome, and the part of the schedule it left.

## Key results

- `exec_bind`, `exec_tryCatch`: how runs compose
- `exec_lift`: a coroutine over no messages leaves the stream alone
- `exec_awaits`: a row of bare awaits ends at the first strike
-/

namespace MapServiceAgent

/-- What the driver decides at one await. -/
inductive Decision (ε : Type) where
  /-- The awaited operation is served and the coroutine resumes. -/
  | resume
  /-- `e` is thrown in at the await; `served` says whether the operation had
      been served by then. -/
  | strike (served : Bool) (e : ε)
deriving DecidableEq, Repr

/-- A coroutine with exceptions `ε`, messages `μ` and result `α`. The
    continuation of an await learns which exception was thrown in, if any. -/
inductive Co (ε μ α : Type) where
  | ret (a : α)
  | raise (e : ε)
  | await (msg : Option μ) (k : Option ε → Co ε μ α)

namespace Co

variable {ε μ α β : Type}

/-- `m`, then `f` on its result. -/
def bind : Co ε μ α → (α → Co ε μ β) → Co ε μ β
  | .ret a, f => f a
  | .raise e, _ => .raise e
  | .await msg k, f => .await msg fun x => (k x).bind f

/-- `try m except e: h e`. -/
def tryCatch : Co ε μ α → (ε → Co ε μ α) → Co ε μ α
  | .ret a, _ => .ret a
  | .raise e, h => h e
  | .await msg k, h => .await msg fun x => (k x).tryCatch h

/-- A coroutine that sends nothing, read as one that may send `μ`. -/
def lift : Co ε Empty α → Co ε μ α
  | .ret a => .ret a
  | .raise e => .raise e
  | .await _ k => .await none fun x => (k x).lift

/-- One await that sends `msg` and raises whatever is thrown in. -/
def send (msg : μ) : Co ε μ Unit :=
  .await (some msg) fun
    | none => .ret ()
    | some e => .raise e

/-- `n` awaits in a row, each raising whatever is thrown in. -/
def awaits : Nat → Co ε Empty Unit
  | 0 => .ret ()
  | n + 1 => .await none fun
    | none => awaits n
    | some e => .raise e

/-- What a run leaves behind. -/
structure Ran (ε μ α : Type) where
  sent : List μ
  outcome : Except ε α
  rest : List (Decision ε)

/-- `pre` was sent before the run `r`. -/
def Ran.after (pre : List μ) (r : Ran ε μ α) : Ran ε μ α :=
  { r with sent := pre ++ r.sent }

/-- Run a coroutine under a schedule; past its end nothing is thrown in. -/
def exec : Co ε μ α → List (Decision ε) → Ran ε μ α
  | .ret a, ds => ⟨[], .ok a, ds⟩
  | .raise e, ds => ⟨[], .error e, ds⟩
  | .await msg k, [] => ((k none).exec []).after msg.toList
  | .await msg k, .resume :: ds => ((k none).exec ds).after msg.toList
  | .await msg k, .strike served e :: ds =>
    ((k (some e)).exec ds).after (if served then msg.toList else [])

/-- Nothing sent before changes nothing. -/
@[simp] theorem Ran.after_nil (r : Ran ε μ α) : r.after [] = r := rfl

/-- The rest of a run whose first part was `r`. -/
def Ran.andThen (r : Ran ε μ α) (onOk : α → Co ε μ β) (onError : ε → Co ε μ β) : Ran ε μ β :=
  match r.outcome with
  | .ok a => ((onOk a).exec r.rest).after r.sent
  | .error e => ((onError e).exec r.rest).after r.sent

/-- What was sent before stays before what comes after. -/
theorem Ran.andThen_after (xs : List μ) (r : Ran ε μ α)
    (onOk : α → Co ε μ β) (onError : ε → Co ε μ β) :
    (r.after xs).andThen onOk onError = (r.andThen onOk onError).after xs := by
  cases h : r.outcome <;> simp [Ran.andThen, Ran.after, h]

/-- A sequence runs its first part, and its second on the schedule left. -/
theorem exec_bind (m : Co ε μ α) (f : α → Co ε μ β) (ds : List (Decision ε)) :
    (m.bind f).exec ds = (m.exec ds).andThen f .raise := by
  induction m generalizing ds with
  | ret a => rfl
  | raise e => rfl
  | await msg k ih =>
    -- past the end of the schedule an await comes back as under `resume`
    cases ds with
    | nil => simp only [bind, exec, ih, Ran.andThen_after]
    | cons d ds => cases d <;> simp only [bind, exec, ih, Ran.andThen_after]

/-- A `try` runs its body, and the handler if the body raised. -/
theorem exec_tryCatch (m : Co ε μ α) (h : ε → Co ε μ α) (ds : List (Decision ε)) :
    (m.tryCatch h).exec ds = (m.exec ds).andThen .ret h := by
  induction m generalizing ds with
  | ret a => rfl
  | raise e => rfl
  | await msg k ih =>
    cases ds with
    | nil => simp only [tryCatch, exec, ih, Ran.andThen_after]
    | cons d ds => cases d <;> simp only [tryCatch, exec, ih, Ran.andThen_after]

/-- A coroutine over no messages leaves the stream alone. -/
theorem exec_lift (m : Co ε Empty α) (ds : List (Decision ε)) :
    (m.lift : Co ε μ α).exec ds = ⟨[], (m.exec ds).outcome, (m.exec ds).rest⟩ := by
  induction m generalizing ds with
  | ret a => rfl
  | raise e => rfl
  | await msg k ih =>
    -- a coroutine without messages has none at any await
    have hmsg : msg = none := by
      cases msg with
      | none => rfl
      | some m => exact nomatch m
    subst hmsg
    cases ds with
    | nil => simp [lift, exec, ih, Ran.after]
    | cons d ds => cases d <;> simp [lift, exec, ih, Ran.after]

/-- The exception of the first strike at the next `n` awaits, with the schedule
    left after it. -/
def strikeWithin : Nat → List (Decision ε) → Option (ε × List (Decision ε))
  | 0, _ => none
  | _ + 1, [] => none
  | n + 1, .resume :: ds => strikeWithin n ds
  | _ + 1, .strike _ e :: ds => some (e, ds)

/-- A row of awaits ends at the first strike. -/
theorem exec_awaits (n : Nat) (ds : List (Decision ε)) :
    (awaits n : Co ε Empty Unit).exec ds =
      match strikeWithin n ds with
      | some (e, rest) => ⟨[], .error e, rest⟩
      | none => ⟨[], .ok (), ds.drop n⟩ := by
  induction n generalizing ds with
  | zero => rfl
  | succ n ih =>
    cases ds with
    | nil =>
      -- no decision is left that could strike
      have h : strikeWithin n ([] : List (Decision ε)) = none := by cases n <;> rfl
      simp [awaits, exec, ih, strikeWithin, h, Ran.after]
    | cons d ds =>
      -- a strike before the last await ends it, later ones are not reached
      cases d with
      | resume => simp [awaits, exec, ih, strikeWithin]
      | strike served e => simp [awaits, exec, strikeWithin]

end Co

end MapServiceAgent
