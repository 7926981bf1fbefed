import Mathlib.Data.List.Forall2

/-!
# Computations that may raise

When a sequence of fallible computations comes to a value, every one of them
did; and it comes to one when they all do. What it raises otherwise, one of them
raised.
-/

namespace MapServiceAgent

variable {ε α β : Type}

/-- A computation in steps returns when its steps do. -/
theorem bind_eq_ok {x : Except ε α} {f : α → Except ε β} {b : β} :
    (x >>= f) = .ok b ↔ ∃ a, x = .ok a ∧ f a = .ok b := by
  cases x with
  | error e => exact ⟨fun h => (nomatch h), fun ⟨_, h, _⟩ => (nomatch h)⟩
  | ok a =>
    refine ⟨fun h => ⟨a, rfl, h⟩, fun ⟨a', h, h'⟩ => ?_⟩
    cases h
    exact h'

/-- What comes out well is handed on. -/
theorem ok_bind (a : α) (f : α → Except ε β) : (Except.ok a >>= f) = f a := rfl

/-- After a step that returned comes the next one. -/
theorem bind_of_eq_ok {x : Except ε α} {a : α} (h : x = .ok a) (f : α → Except ε β) :
    x >>= f = f a := by
  rw [h, ok_bind]

/-- A value returned is that value. -/
theorem pure_eq_ok {a b : α} : (pure a : Except ε α) = .ok b ↔ a = b :=
  ⟨fun h => Except.ok.inj h, fun h => congrArg Except.ok h⟩

/-- Functions that agree on a list map it alike. -/
theorem mapM_congr {f g : α → Except ε β} {l : List α} (h : ∀ a ∈ l, f a = g a) :
    l.mapM f = l.mapM g := by
  induction l with
  | nil => rfl
  | cons a l ih =>
    rw [List.mapM_cons, List.mapM_cons, h a List.mem_cons_self,
      ih fun b hb => h b (List.mem_cons_of_mem _ hb)]

/-- A mapped list comes out element by element. -/
theorem mapM_eq_ok {f : α → Except ε β} {l : List α} {r : List β} :
    l.mapM f = .ok r ↔ List.Forall₂ (fun a b => f a = .ok b) l r := by
  induction l generalizing r with
  | nil =>
    rw [List.mapM_nil, pure_eq_ok, List.forall₂_nil_left_iff]
    exact eq_comm
  | cons a l ih =>
    rw [List.mapM_cons, bind_eq_ok, List.forall₂_cons_left_iff]
    constructor
    · -- the head returned, and then the tail
      rintro ⟨b, hb, h⟩
      obtain ⟨bs, hbs, hr⟩ := bind_eq_ok.mp h
      exact ⟨b, bs, hb, ih.mp hbs, (pure_eq_ok.mp hr).symm⟩
    · rintro ⟨b, bs, hb, hbs, rfl⟩
      exact ⟨b, hb, bind_eq_ok.mpr ⟨bs, ih.mpr hbs, rfl⟩⟩

/-- So does one of optional values. -/
theorem mapM_eq_some {f : α → Option β} {l : List α} {r : List β} :
    l.mapM f = some r ↔ List.Forall₂ (fun a b => f a = some b) l r := by
  induction l generalizing r with
  | nil =>
    rw [List.mapM_nil, List.forall₂_nil_left_iff]
    exact Option.some_inj.trans eq_comm
  | cons a l ih =>
    rw [List.mapM_cons, List.forall₂_cons_left_iff]
    constructor
    · -- the head has a value, and then the tail
      intro h
      obtain ⟨b, hb, h⟩ := Option.bind_eq_some_iff.mp h
      obtain ⟨bs, hbs, hr⟩ := Option.bind_eq_some_iff.mp h
      exact ⟨b, bs, hb, ih.mp hbs, (Option.some.inj hr).symm⟩
    · rintro ⟨b, bs, hb, hbs, rfl⟩
      exact Option.bind_eq_some_iff.mpr ⟨b, hb, Option.bind_eq_some_iff.mpr ⟨bs, ih.mpr hbs, rfl⟩⟩

/-! ### Coming to a value -/

/-- The computation comes to a value. -/
def Returns (x : Except ε α) : Prop := ∃ a, x = .ok a

/-- A value returns. -/
@[simp] theorem returns_ok (a : α) : Returns (.ok a : Except ε α) := ⟨a, rfl⟩

/-- So does a pure one. -/
@[simp] theorem returns_pure (a : α) : Returns (pure a : Except ε α) := ⟨a, rfl⟩

/-- A value whose presence can be computed. -/
theorem returns_of_isSome {x : Except ε α} (h : x.toOption.isSome = true) : Returns x := by
  cases x with
  | ok a => exact returns_ok a
  | error e => cases h

/-- An error does not. -/
@[simp] theorem not_returns_error (e : ε) : ¬ Returns (.error e : Except ε α) := by
  rintro ⟨a, h⟩
  cases h

/-- Two steps return when the first does, and the second after it. -/
theorem returns_bind {x : Except ε α} {f : α → Except ε β} :
    Returns (x >>= f) ↔ ∃ a, x = .ok a ∧ Returns (f a) := by
  constructor
  · rintro ⟨b, h⟩
    obtain ⟨a, hx, hf⟩ := bind_eq_ok.mp h
    exact ⟨a, hx, b, hf⟩
  · rintro ⟨a, hx, b, hf⟩
    exact ⟨b, bind_eq_ok.mpr ⟨a, hx, hf⟩⟩

/-- What follows a computation comes to a value whatever it yields. -/
theorem returns_bind_of {x : Except ε α} {f : α → Except ε β} (hf : ∀ a, Returns (f a)) :
    Returns (x >>= f) ↔ Returns x := by
  rw [returns_bind]
  constructor
  · rintro ⟨a, hx, -⟩
    exact ⟨a, hx⟩
  · rintro ⟨a, hx⟩
    exact ⟨a, hx, hf a⟩

/-- Mapping the value of a computation does not change whether it returns. -/
theorem returns_map {x : Except ε α} {f : α → β} : Returns (f <$> x) ↔ Returns x := by
  cases x <;> simp [Functor.map, Except.map]

/-- A list is mapped when each of its elements is. -/
theorem returns_mapM {f : α → Except ε β} {l : List α} :
    Returns (l.mapM f) ↔ ∀ a ∈ l, Returns (f a) := by
  induction l with
  | nil => simp
  | cons a l ih =>
    rw [List.mapM_cons, returns_bind]
    simp only [List.forall_mem_cons, ← ih]
    constructor
    · rintro ⟨b, hb, h⟩
      exact ⟨⟨b, hb⟩, (returns_bind_of fun _ => returns_pure _).mp h⟩
    · rintro ⟨⟨b, hb⟩, h⟩
      exact ⟨b, hb, (returns_bind_of fun _ => returns_pure _).mpr h⟩

/-- A fold comes to a value when every step does, if that does not depend on
    what was accumulated. -/
theorem returns_foldlM {f : β → α → Except ε β} {P : α → Prop}
    (hf : ∀ b a, Returns (f b a) ↔ P a) {l : List α} {b : β} :
    Returns (l.foldlM f b) ↔ ∀ a ∈ l, P a := by
  induction l generalizing b with
  | nil => simp
  | cons a l ih =>
    rw [List.foldlM_cons, returns_bind]
    simp only [List.forall_mem_cons, ih, exists_and_right]
    rw [← hf b a]
    rfl

/-- What a step makes true, and nothing undoes, is true after a fold when it was
    before or some element made it so. -/
theorem foldlM_or {f : β → α → Except ε β} {P : α → Prop} {Q : β → Prop}
    (hf : ∀ b a b', f b a = .ok b' → (Q b' ↔ Q b ∨ P a)) {l : List α} {b b' : β}
    (h : l.foldlM f b = .ok b') : Q b' ↔ Q b ∨ ∃ a ∈ l, P a := by
  induction l generalizing b with
  | nil =>
    rw [List.foldlM_nil, pure_eq_ok] at h
    simp [h]
  | cons a l ih =>
    rw [List.foldlM_cons] at h
    obtain ⟨b₁, hb₁, h⟩ := bind_eq_ok.mp h
    rw [ih h, hf b a b₁ hb₁, or_assoc]
    simp

/-! ### What is raised -/

/-- Whatever the computation raises is of this kind. -/
def RaisesOnly (P : ε → Prop) (x : Except ε α) : Prop := ∀ e, x = .error e → P e

section RaisesOnly

variable {P : ε → Prop}

/-- A value raises nothing. -/
@[simp] theorem raisesOnly_ok (a : α) : RaisesOnly P (.ok a : Except ε α) := by
  intro e h
  cases h

/-- An error raises itself only. -/
@[simp] theorem raisesOnly_error (e : ε) : RaisesOnly P (.error e : Except ε α) ↔ P e := by
  constructor
  · intro h
    exact h e rfl
  · intro h e' he
    cases he
    exact h

/-- A sequence raises what its first step does, or what follows its value. -/
theorem RaisesOnly.bind {x : Except ε α} {f : α → Except ε β} (hx : RaisesOnly P x)
    (hf : ∀ a, x = .ok a → RaisesOnly P (f a)) : RaisesOnly P (x >>= f) := by
  cases x with
  | error e => exact (raisesOnly_error e).mpr (hx e rfl)
  | ok a => exact hf a rfl

end RaisesOnly

end MapServiceAgent
