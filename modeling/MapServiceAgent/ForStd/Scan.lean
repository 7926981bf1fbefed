import Mathlib.Data.List.TakeDrop
import MapServiceAgent.ForStd.Except

/-!
# Scanning a text

A scanner takes a value off the front of a text and leaves the rest. What it takes
a piece of text for may depend on how the text goes on: a number ends where its
digits do. So a scanner is described by the pieces it takes before a certain kind
of rest, and such descriptions compose.

## Key results

- `span_append`: a run of characters ends at the first of another kind
- `all_takes`: a loop takes its pieces one by one
- `enclosed_takes`: a list up to its closing character
-/

namespace MapServiceAgent

/-- A scanner takes a value off the front of a text, or raises. -/
abbrev Scanner (ε α : Type) := List Char → Except ε (α × List Char)

namespace Scanner

variable {ε α β : Type}

/-- Before a rest of the kind `follow`, the scanner takes this piece of text for the
    value. -/
def Takes (scan : Scanner ε α) (follow : List Char → Prop) (text : List Char) (a : α) : Prop :=
  ∀ rest, follow rest → scan (text ++ rest) = .ok (a, rest)

/-- What is taken before some rests is taken before fewer. -/
theorem Takes.mono {scan : Scanner ε α} {follow follow' : List Char → Prop} {text : List Char}
    {a : α} (h : scan.Takes follow text a) (hmono : ∀ rest, follow' rest → follow rest) :
    scan.Takes follow' text a := fun rest hrest => h rest (hmono rest hrest)

/-! ### Runs of characters -/

/-- The rest does not go on with such a character. -/
def EndsRun (p : Char → Bool) (rest : List Char) : Prop := ∀ c ∈ rest.head?, p c = false

/-- At the end of the text every run ends. -/
theorem endsRun_nil (p : Char → Bool) : EndsRun p [] := fun _ h => by cases h

/-- A run ends at a character that is none of it. -/
theorem endsRun_cons {p : Char → Bool} {c : Char} (h : p c = false) (rest : List Char) :
    EndsRun p (c :: rest) := fun _ hc => Option.some.inj hc ▸ h

/-- A longer run ends where a shorter one does. -/
theorem EndsRun.mono {p q : Char → Bool} {rest : List Char} (h : EndsRun q rest)
    (hpq : ∀ c, q c = false → p c = false) : EndsRun p rest := fun c hc => hpq c (h c hc)

/-- A text of such characters is passed over up to the rest. -/
theorem dropWhile_append {p : Char → Bool} {text rest : List Char} (h : ∀ c ∈ text, p c = true)
    (hrest : EndsRun p rest) : (text ++ rest).dropWhile p = rest := by
  rw [List.dropWhile_append_of_pos h]
  cases rest with
  | nil => rfl
  | cons c rest =>
    have hc : p c = false := hrest c rfl
    rw [List.dropWhile_cons, hc]
    rfl

/-- A run ends at the first character that is of another kind. -/
theorem span_append {p : Char → Bool} {text rest : List Char} (h : ∀ c ∈ text, p c = true)
    (hrest : EndsRun p rest) : (text ++ rest).span p = (text, rest) := by
  have htake : rest.takeWhile p = [] := by
    cases rest with
    | nil => rfl
    | cons c rest =>
      have hc : p c = false := hrest c rfl
      rw [List.takeWhile_cons, hc]
      rfl
  rw [List.span_eq_takeWhile_dropWhile, List.takeWhile_append_of_pos h, htake, List.append_nil,
    dropWhile_append h hrest]

/-! ### Loops -/

/-- One step after the other, until one finds the end. -/
def loop (fail : ε) (step : Scanner ε (Option α)) : Nat → Scanner ε (List α)
  | 0, _ => .error fail
  | fuel + 1, text => do
    match ← step text with
    | (none, rest) => return ([], rest)
    | (some a, rest) =>
      let (as, rest) ← loop fail step fuel rest
      return (a :: as, rest)

/-- All steps up to the end. Each takes a character at least, so there are no more of
    them than characters. -/
def all (fail : ε) (step : Scanner ε (Option α)) : Scanner ε (List α) := fun text =>
  loop fail step (text.length + 1) text

variable {fail : ε} {step : Scanner ε (Option α)} {follow follow' : List Char → Prop}
  {pieces : List (List Char)} {values : List α} {stop : List Char}

/-- With enough fuel a repeated scanner takes the pieces one by one, up to the stop. -/
theorem loop_takes (h : List.Forall₂ (fun text a => step.Takes follow text (some a)) pieces values)
    (hnext : ∀ text ∈ pieces, ∀ rest, follow (text ++ rest))
    (hstop : step.Takes follow' stop none) (hend : ∀ rest, follow' rest → follow (stop ++ rest))
    {fuel : Nat} (hfuel : pieces.length < fuel) :
    (loop fail step fuel).Takes follow' (pieces.flatten ++ stop) values := by
  induction h generalizing fuel with
  | nil =>
    obtain ⟨fuel, rfl⟩ := Nat.exists_eq_succ_of_ne_zero (Nat.ne_of_gt hfuel)
    intro rest hrest
    rw [List.flatten_nil, List.nil_append, loop, bind_of_eq_ok (hstop rest hrest)]
    rfl
  | @cons text a pieces values hstep hsteps ih =>
    obtain ⟨fuel, rfl⟩ := Nat.exists_eq_succ_of_ne_zero (Nat.ne_of_gt (Nat.zero_lt_of_lt hfuel))
    intro rest hrest
    have hmore := ih (fun t ht => hnext t (List.mem_cons_of_mem _ ht))
      (Nat.lt_of_succ_lt_succ hfuel) rest hrest
    -- what comes next is another piece, or the end
    have hfollow : follow (pieces.flatten ++ stop ++ rest) := by
      cases pieces with
      | nil => exact hend rest hrest
      | cons text' pieces =>
        rw [List.flatten_cons, List.append_assoc, List.append_assoc]
        exact hnext text' (by simp) _
    rw [List.flatten_cons, List.append_assoc, List.append_assoc, ← List.append_assoc _ stop, loop,
      bind_of_eq_ok (hstep _ hfollow)]
    dsimp only
    rw [bind_of_eq_ok hmore]
    rfl

/-- A loop takes its pieces one by one. -/
theorem all_takes (h : List.Forall₂ (fun text a => step.Takes follow text (some a)) pieces values)
    (hne : ∀ text ∈ pieces, text ≠ []) (hnext : ∀ text ∈ pieces, ∀ rest, follow (text ++ rest))
    (hstop : step.Takes follow' stop none) (hend : ∀ rest, follow' rest → follow (stop ++ rest)) :
    (all fail step).Takes follow' (pieces.flatten ++ stop) values := by
  -- no piece is empty, so the text is fuel enough
  have hlength : ∀ l : List (List Char), (∀ text ∈ l, text ≠ []) → l.length ≤ l.flatten.length := by
    intro l hl
    induction l with
    | nil => exact Nat.le_refl _
    | cons text l ih =>
      have htext := List.length_pos_iff.mpr (hl text List.mem_cons_self)
      have hrest := ih fun t ht => hl t (List.mem_cons_of_mem _ ht)
      rw [List.flatten_cons, List.length_append, List.length_cons]
      omega
  intro rest hrest
  refine loop_takes h hnext hstop hend ?_ rest hrest
  have := hlength pieces hne
  rw [List.length_append, List.length_append]
  omega

/-! ### Lists between brackets -/

section Enclosed

variable (blank : Char → Bool) (fail : ε) (close : Char) (item : Scanner ε α)

/-- After an item: a comma and another one, or the closing character. -/
def nextItem : Scanner ε (Option α) := fun text =>
  match text.dropWhile blank with
  | [] => .error fail
  | c :: rest =>
    if c = ',' then do
      let (a, rest) ← item (rest.dropWhile blank)
      return (some a, rest)
    else if c = close then .ok (none, rest)
    else .error fail

/-- What comes after the opening character. -/
def enclosed : Scanner ε (List α) := fun text =>
  match text.dropWhile blank with
  | [] => .error fail
  | c :: rest =>
    if c = close then .ok ([], rest)
    else do
      let (a, rest) ← item (c :: rest)
      let (as, rest) ← all fail (nextItem blank fail close item) rest
      return (a :: as, rest)

variable {blank fail close item}

/-- A piece that is there, and begins with no blank and not with the end. -/
def StartsItem (blank : Char → Bool) (close : Char) (text : List Char) : Prop :=
  ∃ c rest, text = c :: rest ∧ blank c = false ∧ c ≠ close

/-- An item begins with no blank. -/
theorem StartsItem.endsRun {text : List Char} (h : StartsItem blank close text) (rest : List Char) :
    EndsRun blank (text ++ rest) := by
  obtain ⟨c, text, rfl, hc, -⟩ := h
  exact endsRun_cons hc _

/-- After a comma and blanks comes the next item. -/
theorem nextItem_takes {blanks text : List Char} {a : α} (hblanks : ∀ c ∈ blanks, blank c = true)
    (hcomma : blank ',' = false) (hitem : item.Takes follow text a)
    (hstart : StartsItem blank close text) :
    (nextItem blank fail close item).Takes follow (',' :: blanks ++ text) (some a) := by
  intro rest hrest
  have hdrop : (blanks ++ (text ++ rest)).dropWhile blank = text ++ rest :=
    dropWhile_append hblanks (hstart.endsRun rest)
  unfold nextItem
  rw [List.cons_append, List.cons_append, List.dropWhile_cons, hcomma, List.append_assoc]
  dsimp only
  rw [if_neg (by decide)]
  dsimp only
  rw [if_pos rfl, hdrop, bind_of_eq_ok (hitem rest hrest)]
  rfl

/-- At the bracket there is none. -/
theorem nextItem_close (hclose : blank close = false) (hne : close ≠ ',') :
    (nextItem blank fail close item).Takes (fun _ => True) [close] none := by
  intro rest _
  unfold nextItem
  rw [List.singleton_append, List.dropWhile_cons, hclose, if_neg (by decide)]
  dsimp only
  rw [if_neg hne, if_pos rfl]

/-- A joined text is its first part and the others, each after a separator. -/
theorem intercalate_cons_eq (sep text : List Char) (texts : List (List Char)) :
    sep.intercalate (text :: texts) = text ++ (texts.map (sep ++ ·)).flatten := by
  induction texts generalizing text with
  | nil => rw [List.intercalate_singleton, List.map_nil, List.flatten_nil, List.append_nil]
  | cons text' texts ih =>
    rw [List.intercalate_cons_cons, ih, List.map_cons, List.flatten_cons, List.append_assoc,
      List.append_assoc]

variable (fail close) in
/-- A list up to its closing character, with a comma between its items. -/
theorem enclosed_takes {blanks : List Char} (hblanks : ∀ c ∈ blanks, blank c = true)
    (hcomma : blank ',' = false) (hclose : blank close = false) (hne : close ≠ ',')
    (hfollow : ∀ rest, follow (',' :: rest)) (hlast : ∀ rest, follow (close :: rest))
    {texts : List (List Char)} (h : List.Forall₂ (item.Takes follow) texts values)
    (hstart : ∀ text ∈ texts, StartsItem blank close text) :
    (enclosed blank fail close item).Takes (fun _ => True)
      ((',' :: blanks).intercalate texts ++ [close]) values := by
  intro rest _
  cases h with
  | nil =>
    -- no items: the bracket follows at once
    unfold enclosed
    rw [List.intercalate_nil, List.nil_append, List.singleton_append, List.dropWhile_cons, hclose,
      if_neg (by decide)]
    dsimp only
    rw [if_pos rfl]
  | @cons text a texts values hitem hitems =>
    obtain ⟨c, text', rfl, hc, hcne⟩ := hstart text List.mem_cons_self
    -- the items after the first one, each behind its comma
    have hmore : (all fail (nextItem blank fail close item)).Takes (fun _ => True)
        ((texts.map (',' :: blanks ++ ·)).flatten ++ [close]) values := by
      have htakes : List.Forall₂ (fun text a => (nextItem blank fail close item).Takes follow
          (',' :: blanks ++ text) (some a)) texts values := by
        refine (List.forall₂_iff_get.mp hitems).elim fun hlen hget => ?_
        refine List.forall₂_iff_get.mpr ⟨hlen, fun i hi hi' => ?_⟩
        exact nextItem_takes hblanks hcomma (hget i hi hi')
          (hstart _ (List.mem_cons_of_mem _ (List.getElem_mem hi)))
      refine all_takes (List.forall₂_map_left_iff.mpr htakes) ?_ ?_
        (nextItem_close hclose hne) fun rest _ => hlast rest
      · intro text ht
        obtain ⟨t, -, rfl⟩ := List.mem_map.mp ht
        exact List.cons_ne_nil _ _
      · intro text ht rest
        obtain ⟨t, -, rfl⟩ := List.mem_map.mp ht
        exact hfollow _
    have hnext : follow ((texts.map (',' :: blanks ++ ·)).flatten ++ [close] ++ rest) := by
      cases texts with
      | nil => exact hlast rest
      | cons t texts => exact hfollow _
    have hfirst := hitem _ hnext
    rw [List.cons_append] at hfirst
    unfold enclosed
    rw [intercalate_cons_eq, List.append_assoc, List.append_assoc, List.cons_append,
      List.dropWhile_cons, hc, if_neg (by decide)]
    dsimp only
    rw [if_neg hcne, ← List.append_assoc _ [close], bind_of_eq_ok hfirst]
    dsimp only
    rw [bind_of_eq_ok (hmore rest trivial)]
    rfl

end Enclosed

end Scanner

end MapServiceAgent
