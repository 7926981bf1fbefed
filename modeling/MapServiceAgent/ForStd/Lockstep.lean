import MapServiceAgent.ForStd.Coroutine
import MapServiceAgent.ForStd.Except
import MapServiceAgent.ForStd.StateGraph
import Mathlib.Data.Option.Basic

/-!
# Two runs in lockstep

Two computations that raise related exceptions or come to related values, for
fallible functions, state graphs and coroutines. Each way of putting
computations together keeps two runs in lockstep.

## Key results

- `ExceptRel.bind`, `ExceptRel.mapM`: sequences and loops
- `StateGraph.run_rel`: runs of two graphs
- `Co.Rel.exec`: runs of two coroutines under schedules that strike alike
-/

namespace MapServiceAgent

variable {ε ε' α α' β β' : Type}

/-! ### Fallible functions -/

/-- Two computations come to related values, or raise related exceptions. -/
inductive ExceptRel (E : ε → ε' → Prop) (R : α → α' → Prop) : Except ε α → Except ε' α' → Prop where
  | ok {a : α} {a' : α'} : R a a' → ExceptRel E R (.ok a) (.ok a')
  | error {e : ε} {e' : ε'} : E e e' → ExceptRel E R (.error e) (.error e')

namespace ExceptRel

variable {E : ε → ε' → Prop} {R : α → α' → Prop} {S : β → β' → Prop}

/-- Equal results are related where equal parts are. -/
theorem of_eq {E : ε → ε → Prop} (hE : ∀ e, E e e) {R : α → α → Prop} (hR : ∀ a, R a a)
    {x y : Except ε α} (h : x = y) : ExceptRel E R x y := by
  subst h
  cases x with
  | ok a => exact .ok (hR a)
  | error e => exact .error (hE e)

/-- Related results, continued alike, are related. -/
theorem bind {x : Except ε α} {y : Except ε' α'} {f : α → Except ε β} {g : α' → Except ε' β'}
    (hxy : ExceptRel E R x y) (hfg : ∀ a a', R a a' → ExceptRel E S (f a) (g a')) :
    ExceptRel E S (x >>= f) (y >>= g) := by
  cases hxy with
  | ok h => exact hfg _ _ h
  | error h => exact .error h

/-- Loops over one list whose bodies are in lockstep. -/
theorem mapM {f : α → Except ε β} {g : α → Except ε' β} {l : List α}
    (h : ∀ a ∈ l, ExceptRel E Eq (f a) (g a)) : ExceptRel E Eq (l.mapM f) (l.mapM g) := by
  induction l with
  | nil => exact .ok rfl
  | cons a l ih =>
    rw [List.mapM_cons, List.mapM_cons]
    refine (h a List.mem_cons_self).bind fun b _ hb => ?_
    subst hb
    refine (ih fun c hc => h c (List.mem_cons_of_mem _ hc)).bind fun bs _ hbs => ?_
    subst hbs
    exact .ok rfl

end ExceptRel

/-! ### State graphs -/

namespace StateGraph

variable {ν σ σ' : Type} {g : StateGraph ν ε σ} {g' : StateGraph ν ε' σ'}

/-- Two endings alike. -/
def EndingRel (E : ε → ε' → Prop) (R : σ → σ' → Prop) (r : Ending ε σ) (r' : Ending ε' σ') : Prop :=
  ExceptRel E Eq r.1 r'.1 ∧ R r.2 r'.2

/-- Runs of graphs whose nodes are in lockstep and whose routes agree. -/
theorem run_rel {E : ε → ε' → Prop} {R : σ → σ' → Prop}
    (hnode : ∀ n s s', R s s' → EndingRel E R (g.node n s) (g'.node n s'))
    (hroute : ∀ n s s', R s s' → g.route n s = g'.route n s') (fuel : Nat) (n : ν) {s : σ} {s' : σ'}
    (hs : R s s') : Option.Rel (EndingRel E R) (g.run fuel n s) (g'.run fuel n s') := by
  induction fuel generalizing n s s' with
  | zero => exact .none
  | succ fuel ih =>
    have hn := hnode n s s' hs
    rw [run, run]
    cases hg : g.node n s with
    | mk out t =>
      cases hg' : g'.node n s' with
      | mk out' t' =>
        rw [hg, hg'] at hn
        -- both nodes end alike, and go on along the same edge
        obtain ⟨hout, ht⟩ := hn
        cases out with
        | error e =>
          cases out' with
          -- both raise, or neither does
          | error e' => exact .some ⟨hout, ht⟩
          | ok _ => cases hout
        | ok _ =>
          cases out' with
          | error e' => cases hout
          | ok _ =>
            dsimp only
            rw [hroute n t t' ht]
            cases g'.route n t' with
            -- no edge leads on in either graph
            | none => exact .some ⟨.ok rfl, ht⟩
            | some m => exact ih m ht

end StateGraph

/-! ### Coroutines -/

/-- Two decisions alike: both resume, or both strike at the same moment. -/
inductive Decision.Rel (E : ε → ε' → Prop) : Decision ε → Decision ε' → Prop where
  | resume : Rel E .resume .resume
  | strike {served : Bool} {e : ε} {e' : ε'} : E e e' → Rel E (.strike served e) (.strike served e')

namespace Co

variable {μ μ' : Type}

/-- Two coroutines that await, return and raise alike. -/
inductive Rel (E : ε → ε' → Prop) (M : μ → μ' → Prop) (A : α → α' → Prop) :
    Co ε μ α → Co ε' μ' α' → Prop where
  | ret {a : α} {a' : α'} : A a a' → Rel E M A (.ret a) (.ret a')
  | raise {e : ε} {e' : ε'} : E e e' → Rel E M A (.raise e) (.raise e')
  | await {msg : Option μ} {msg' : Option μ'} {k : Option ε → Co ε μ α} {k' : Option ε' → Co ε' μ' α'} :
      Option.Rel M msg msg' → Rel E M A (k none) (k' none) →
      (∀ e e', E e e' → Rel E M A (k (some e)) (k' (some e'))) → Rel E M A (.await msg k) (.await msg' k')

/-- What two runs alike leave behind. -/
structure RanRel (E : ε → ε' → Prop) (M : μ → μ' → Prop) (A : α → α' → Prop) (r : Ran ε μ α)
    (r' : Ran ε' μ' α') : Prop where
  sent : List.Forall₂ M r.sent r'.sent
  outcome : ExceptRel E A r.outcome r'.outcome
  rest : List.Forall₂ (Decision.Rel E) r.rest r'.rest

variable {E : ε → ε' → Prop} {M : μ → μ' → Prop} {A : α → α' → Prop} {B : β → β' → Prop}

/-- Related runs are related with related messages before them. -/
theorem RanRel.after {r : Ran ε μ α} {r' : Ran ε' μ' α'} {pre : List μ} {pre' : List μ'}
    (h : RanRel E M A r r') (hpre : List.Forall₂ M pre pre') :
    RanRel E M A (r.after pre) (r'.after pre') :=
  ⟨List.rel_append hpre h.sent, h.outcome, h.rest⟩

/-- Related optional messages are related lists of messages. -/
theorem forall₂_toList {msg : Option μ} {msg' : Option μ'} (h : Option.Rel M msg msg') :
    List.Forall₂ M msg.toList msg'.toList := by
  cases h with
  | none => exact .nil
  | some h => exact .cons h .nil

/-- Runs of coroutines in lockstep under schedules that strike alike. -/
theorem Rel.exec {m : Co ε μ α} {m' : Co ε' μ' α'} (h : Rel E M A m m') {ds : List (Decision ε)}
    {ds' : List (Decision ε')} (hds : List.Forall₂ (Decision.Rel E) ds ds') :
    RanRel E M A (m.exec ds) (m'.exec ds') := by
  induction h generalizing ds ds' with
  | ret ha => exact ⟨.nil, .ok ha, hds⟩
  | raise he => exact ⟨.nil, .error he, hds⟩
  | await hmsg _ _ ihNone ihSome =>
    -- both are resumed or both are struck, as the decisions go
    cases hds with
    | nil => exact (ihNone .nil).after (forall₂_toList hmsg)
    | cons hd hds =>
      cases hd with
      | resume => exact (ihNone hds).after (forall₂_toList hmsg)
      | @strike served _ _ he =>
        refine (ihSome _ _ he hds).after ?_
        cases served with
        | false => exact .nil
        | true => exact forall₂_toList hmsg

/-- Related coroutines, continued alike, are related. -/
theorem Rel.bind {m : Co ε μ α} {m' : Co ε' μ' α'} {f : α → Co ε μ β} {f' : α' → Co ε' μ' β'}
    (h : Rel E M A m m') (hf : ∀ a a', A a a' → Rel E M B (f a) (f' a')) :
    Rel E M B (m.bind f) (m'.bind f') := by
  induction h with
  | ret ha => exact hf _ _ ha
  | raise he => exact .raise he
  -- by induction on both ways an await can end
  | await hmsg _ _ ihNone ihSome => exact .await hmsg ihNone ihSome

/-- So are they when what they raise is handled alike. -/
theorem Rel.tryCatch {m : Co ε μ α} {m' : Co ε' μ' α'} {f : ε → Co ε μ α} {f' : ε' → Co ε' μ' α'}
    (h : Rel E M A m m') (hf : ∀ e e', E e e' → Rel E M A (f e) (f' e')) :
    Rel E M A (m.tryCatch f) (m'.tryCatch f') := by
  induction h with
  | ret ha => exact .ret ha
  | raise he => exact hf _ _ he
  | await hmsg _ _ ihNone ihSome => exact .await hmsg ihNone ihSome

/-- A coroutine that sends nothing may be read as one that may send. -/
theorem Rel.lift {N : Empty → Empty → Prop} {m : Co ε Empty α} {m' : Co ε' Empty α'}
    (h : Rel E N A m m') : Rel E M A (m.lift : Co ε μ α) (m'.lift : Co ε' μ' α') := by
  induction h with
  | ret ha => exact .ret ha
  | raise he => exact .raise he
  | await _ _ _ ihNone ihSome => exact .await .none ihNone ihSome

/-- Sending related messages is related. -/
theorem Rel.send {msg : μ} {msg' : μ'} (h : M msg msg') :
    Rel E M (Eq : Unit → Unit → Prop) (Co.send msg) (Co.send msg') :=
  .await (.some h) (.ret rfl) fun _ _ he => .raise he

/-- So is awaiting as often. -/
theorem Rel.awaits {N : Empty → Empty → Prop} (n : Nat) :
    Rel E N (Eq : Unit → Unit → Prop) (Co.awaits n) (Co.awaits n) := by
  induction n with
  | zero => exact .ret rfl
  | succ n ih => exact .await .none ih fun _ _ he => .raise he

end Co

end MapServiceAgent
