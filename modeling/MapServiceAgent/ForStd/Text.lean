import Mathlib.Algebra.Group.Nat.Defs
import Mathlib.Data.List.Infix
import Mathlib.Data.List.TakeWhile

/-!
# Python's string methods

Strings are sequences of code points, so each method works on `String.toList`.
-/

namespace MapServiceAgent

/-- `str.isspace` of one character, which is also what `\s` matches. -/
def isSpace (c : Char) : Bool :=
  let n := c.toNat
  (0x09 ≤ n && n ≤ 0x0d) || (0x1c ≤ n && n ≤ 0x20) || n == 0x85 || n == 0xa0 || n == 0x1680 ||
    (0x2000 ≤ n && n ≤ 0x200a) || n == 0x2028 || n == 0x2029 || n == 0x202f || n == 0x205f ||
    n == 0x3000

/-- `str.strip`, on the characters. -/
def stripChars (cs : List Char) : List Char :=
  ((cs.dropWhile isSpace).reverse.dropWhile isSpace).reverse

/-- `str.strip`. -/
def strip (s : String) : String := String.ofList (stripChars s.toList)

/-- What may all be dropped in front is dropped. -/
theorem dropWhile_append_of_all {α : Type} {p : α → Bool} {ws : List α} (h : ws.all p = true)
    (cs : List α) : (ws ++ cs).dropWhile p = cs.dropWhile p := by
  induction ws with
  | nil => rfl
  | cons w ws ih =>
    rw [List.all_cons, Bool.and_eq_true] at h
    rw [List.cons_append, List.dropWhile_cons, if_pos h.1, ih h.2]

/-- Nothing is left of blanks. -/
theorem stripChars_blank {ws : List Char} (h : ws.all isSpace = true) : stripChars ws = [] := by
  have hdrop := dropWhile_append_of_all h []
  rw [List.append_nil] at hdrop
  rw [stripChars, hdrop]
  rfl

/-- Nothing is left of a text if and only if it is blank. -/
theorem stripChars_eq_nil_iff {cs : List Char} :
    stripChars cs = [] ↔ ∀ c ∈ cs, isSpace c = true := by
  constructor
  · intro h c hc
    rw [stripChars, List.reverse_eq_nil_iff, List.dropWhile_eq_nil_iff] at h
    cases hdrop : cs.dropWhile isSpace with
    | nil => exact List.dropWhile_eq_nil_iff.mp hdrop c hc
    | cons d ds =>
      -- the first character that is kept is no space
      have hd : isSpace d = true := h d (by rw [hdrop]; simp)
      have hhead := List.head_dropWhile_not isSpace (l := cs) (by rw [hdrop]; simp)
      simp [hdrop, hd] at hhead
  · intro h
    exact stripChars_blank (List.all_eq_true.mpr h)

/-- Something is left of a text with another character. -/
theorem strip_ne_empty_iff {s : String} :
    strip s ≠ "" ↔ ∃ c ∈ s.toList, isSpace c = false := by
  have hnil : strip s = "" ↔ stripChars s.toList = [] := by
    rw [strip, ← String.ofList_nil, String.ofList_inj]
  rw [ne_eq, hnil, stripChars_eq_nil_iff]
  simp

/-- Spaces in front are stripped. -/
theorem stripChars_append_left {ws : List Char} (h : ws.all isSpace = true) (cs : List Char) :
    stripChars (ws ++ cs) = stripChars cs := by
  rw [stripChars, dropWhile_append_of_all h, ← stripChars]

/-- Spaces behind are stripped. -/
theorem stripChars_append_right {ws : List Char} (h : ws.all isSpace = true) (cs : List Char) :
    stripChars (cs ++ ws) = stripChars cs := by
  induction cs with
  | nil => exact stripChars_blank h
  | cons c cs ih =>
    by_cases hc : isSpace c = true
    · simpa [stripChars, List.dropWhile_cons, hc] using ih
    · have hrev : (ws.reverse).all isSpace = true := by simpa using h
      simp only [stripChars, List.cons_append, List.dropWhile_cons, hc]
      rw [if_neg (by decide), if_neg (by decide), ← List.cons_append, List.reverse_append,
        dropWhile_append_of_all hrev]

/-- What is left was there. -/
theorem mem_of_mem_stripChars {c : Char} {cs : List Char} (h : c ∈ stripChars cs) : c ∈ cs := by
  rw [stripChars, List.mem_reverse] at h
  have hrev := (List.dropWhile_suffix _).mem h
  rw [List.mem_reverse] at hrev
  exact (List.dropWhile_suffix _).mem hrev

/-- Stripping makes no text longer. -/
theorem length_stripChars_le (cs : List Char) : (stripChars cs).length ≤ cs.length := by
  rw [stripChars, List.length_reverse]
  apply Nat.le_trans (List.dropWhile_suffix _).length_le
  rw [List.length_reverse]
  exact (List.dropWhile_suffix _).length_le

/-- A text that begins and ends in no space is not changed. -/
theorem stripChars_eq_self {cs : List Char} (hhead : ∀ c ∈ cs.head?, isSpace c = false)
    (hlast : ∀ c ∈ cs.getLast?, isSpace c = false) : stripChars cs = cs := by
  have hdrop : ∀ l : List Char, (∀ c ∈ l.head?, isSpace c = false) → l.dropWhile isSpace = l := by
    intro l hl
    cases l with
    | nil => rfl
    | cons c l => rw [List.dropWhile_cons, hl c rfl, if_neg (by decide)]
  rw [stripChars, hdrop cs hhead, hdrop _ (by rwa [List.head?_reverse]), List.reverse_reverse]

/-- A stripped text begins in no space. -/
theorem head_of_stripChars_eq_self {cs : List Char} (h : stripChars cs = cs) :
    ∀ c ∈ cs.head?, isSpace c = false := by
  intro c hc
  cases cs with
  | nil => cases hc
  | cons c' cs =>
    cases hc
    apply Bool.eq_false_iff.mpr
    intro hspace
    have hshort := length_stripChars_le cs
    have hspaces : [c].all isSpace = true := by simpa using hspace
    rw [← stripChars_append_left hspaces cs, List.singleton_append, h, List.length_cons] at hshort
    omega

/-- `s[:n]`. -/
def takeChars (n : Nat) (s : String) : String := String.ofList (s.toList.take n)

/-- `str.lower` as far as ASCII letters go. Beyond them only the Kelvin sign and
    the dotted capital I lower to something with an ASCII letter in it, and no
    word this development compares with has a `k` or an `i` before a dot. -/
def lower (s : String) : String := String.ofList (s.toList.map Char.toLower)

/-- Whether `needle` occurs in the characters. -/
def occursIn (needle : List Char) : List Char → Bool
  | [] => needle.isEmpty
  | c :: cs => needle.isPrefixOf (c :: cs) || occursIn needle cs

/-- `needle in hay`. -/
def hasSubstring (needle hay : String) : Bool := occursIn needle.toList hay.toList

/-- A text occurs in another one as a part of it. -/
theorem occursIn_iff {needle hay : List Char} : occursIn needle hay = true ↔ needle <:+: hay := by
  induction hay with
  | nil => simp [occursIn]
  | cons c cs ih => simp [occursIn, ih, List.infix_cons_iff]

/-- What does not hold a character occurs on one side of it. -/
theorem infix_of_not_mem {needle a b : List Char} {c : Char} (h : needle <:+: a ++ c :: b)
    (hc : c ∉ needle) : needle <:+: a ∨ needle <:+: b := by
  obtain ⟨before, after, heq⟩ := h
  rcases List.append_eq_append_iff.mp heq with ⟨l, rfl, -⟩ | ⟨l, hl, hb⟩
  · -- the occurrence ends before the character
    exact Or.inl ⟨before, l, rfl⟩
  · cases l with
    | nil =>
      rw [List.append_nil] at hl
      exact Or.inl ⟨before, [], by rw [List.append_nil, hl]⟩
    | cons d l =>
      obtain ⟨rfl, rfl⟩ := List.cons.inj hb
      rcases List.append_eq_append_iff.mp hl with ⟨m, -, rfl⟩ | ⟨m, rfl, hm⟩
      · -- the character lies inside the occurrence
        exact absurd (List.mem_append_right m List.mem_cons_self) hc
      · cases m with
        | nil =>
          rw [List.nil_append] at hm
          subst hm
          exact absurd List.mem_cons_self hc
        | cons e m =>
          obtain ⟨-, rfl⟩ := List.cons.inj hm
          exact Or.inr ⟨m, after, rfl⟩

/-- What holds none of some characters occurs before or after them. -/
theorem infix_of_append {needle a sep b : List Char} (hne : needle ≠ []) (hsep : sep ≠ [])
    (h : ∀ c ∈ sep, c ∉ needle) (hin : needle <:+: a ++ sep ++ b) :
    needle <:+: a ∨ needle <:+: b := by
  -- past the first separating character, the others are skipped one by one
  have hskip : ∀ cs : List Char, (∀ c ∈ cs, c ∉ needle) → needle <:+: cs ++ b → needle <:+: b := by
    intro cs hcs hin
    induction cs with
    | nil => exact hin
    | cons c cs ih =>
      rw [List.forall_mem_cons] at hcs
      rcases infix_of_not_mem (a := []) hin hcs.1 with hnil | hin
      · exact absurd (List.eq_nil_of_infix_nil hnil) hne
      · exact ih hcs.2 hin
  obtain ⟨c, cs, rfl⟩ := List.exists_cons_of_ne_nil hsep
  rw [List.forall_mem_cons] at h
  rw [List.append_assoc] at hin
  exact (infix_of_not_mem hin h.1).imp_right (hskip cs h.2)

/-- What holds no character of the separator occurs in one of the parts. -/
theorem infix_intercalate_iff {needle sep : List Char} {parts : List (List Char)}
    (hne : needle ≠ []) (hsep : sep ≠ []) (h : ∀ c ∈ sep, c ∉ needle) :
    needle <:+: sep.intercalate parts ↔ ∃ p ∈ parts, needle <:+: p := by
  induction parts with
  | nil =>
    constructor
    · intro hin
      exact absurd (List.eq_nil_of_infix_nil hin) hne
    · rintro ⟨p, hp, -⟩
      cases hp
  | cons p parts ih =>
    cases parts with
    | nil => simp
    | cons q parts =>
      -- an occurrence lies in the first part or in the rest, joined
      rw [List.intercalate_cons_of_ne_nil (List.cons_ne_nil _ _), List.exists_mem_cons_iff, ← ih]
      constructor
      · exact infix_of_append hne hsep h
      · rintro (hin | hin)
        · exact hin.trans ((List.prefix_append p _).trans (List.prefix_append _ _)).isInfix
        · exact hin.trans (List.suffix_append _ _).isInfix

/-- A run of ASCII digits as a number. -/
def digits? (cs : List Char) : Option Nat :=
  if !cs.isEmpty && cs.all Char.isDigit then
    some (cs.foldl (fun n c => n * 10 + (c.toNat - 48)) 0)
  else none

/-- A natural number in decimal, padded with zeros to `width`. -/
def padNat (width n : Nat) : String :=
  let digits := (toString n).toList
  String.ofList (List.replicate (width - digits.length) '0' ++ digits)

/-! ### Texts over an alphabet -/

/-- A text of such characters only. -/
def Only (p : Char → Bool) (s : String) : Prop := ∀ c ∈ s.toList, p c = true

instance (p : Char → Bool) (s : String) : Decidable (Only p s) :=
  decidable_of_iff (s.toList.all p = true) List.all_eq_true

section Only

variable {p : Char → Bool}

/-- A text of such characters has only such. -/
theorem Only.ofList {cs : List Char} (h : ∀ c ∈ cs, p c = true) : Only p (String.ofList cs) := by
  intro c hc
  rw [String.toList_ofList] at hc
  exact h c hc

/-- So have two texts together. -/
theorem Only.append {s t : String} (hs : Only p s) (ht : Only p t) : Only p (s ++ t) := by
  intro c hc
  rw [String.toList_append, List.mem_append] at hc
  exact hc.elim (hs c) (ht c)

/-- And joined ones, with such a separator. -/
theorem Only.intercalate {sep : String} {l : List String} (hsep : Only p sep)
    (hl : ∀ s ∈ l, Only p s) : Only p (sep.intercalate l) := by
  induction l with
  | nil => exact fun c hc => absurd hc (by simp)
  | cons s l ih =>
    have hs := hl s List.mem_cons_self
    cases l with
    | nil =>
      rw [String.intercalate_singleton]
      exact hs
    | cons t l =>
      rw [String.intercalate_cons_of_ne_nil (List.cons_ne_nil _ _)]
      exact (hs.append hsep).append (ih fun u hu => hl u (List.mem_cons_of_mem _ hu))

/-- A weaker property holds of the characters as well. -/
theorem Only.mono {q : Char → Bool} {s : String} (hs : Only p s)
    (h : ∀ c, p c = true → q c = true) : Only q s :=
  fun c hc => h c (hs c hc)

/-- Decimal digits. -/
theorem only_toString_nat (n : Nat) : Only Char.isDigit (toString n) := by
  intro c hc
  rw [Nat.toString_eq_repr, Nat.toList_repr] at hc
  exact Nat.isDigit_of_mem_toDigits (by decide) (by decide) hc

/-- A padded number has only digits. -/
theorem only_padNat (width n : Nat) : Only Char.isDigit (padNat width n) := by
  refine Only.ofList fun c hc => ?_
  rcases List.mem_append.mp hc with hc | hc
  · -- the zeros in front
    rw [List.eq_of_mem_replicate hc]
    rfl
  · exact only_toString_nat n c hc

/-- The digits of a padded number say the number. -/
theorem digits?_padNat (width n : Nat) : digits? (padNat width n).toList = some n := by
  have hne : (padNat width n).toList ≠ [] := by
    unfold padNat
    rw [Nat.toString_eq_repr, Nat.toList_repr, String.toList_ofList]
    exact List.append_ne_nil_of_right_ne_nil _ Nat.toDigits_ne_nil
  have hall : (padNat width n).toList.all Char.isDigit = true :=
    List.all_eq_true.mpr (only_padNat width n)
  -- zeros in front do not change the value
  have hvalue : Nat.ofDigitChars 10 (padNat width n).toList 0 = n := by
    unfold padNat
    rw [Nat.toString_eq_repr, Nat.toList_repr, String.toList_ofList, Nat.ofDigitChars_append,
      Nat.ofDigitChars_replicate_zero, Nat.mul_zero,
      Nat.ofDigitChars_toDigits (by decide) (by decide)]
  unfold digits?
  rw [hall, if_pos (by simp [hne])]
  rw [Nat.ofDigitChars_eq_foldl] at hvalue
  simp only [Nat.mul_comm 10] at hvalue
  exact congrArg some hvalue

/-- A padded number has the width, if it is no longer. -/
theorem length_padNat (width : Nat) {n : Nat} (hwidth : 0 < width) (h : n < 10 ^ width) :
    (padNat width n).toList.length = width := by
  unfold padNat
  rw [Nat.toString_eq_repr, Nat.toList_repr, String.toList_ofList, List.length_append,
    List.length_replicate]
  have hle := (Nat.length_toDigits_le_iff (n := n) (k := width) (b := 10) (by decide) hwidth).mpr h
  omega

/-- Decimal digits with a sign. -/
theorem only_toString_int (hdigit : ∀ c, c.isDigit = true → p c = true) (hsign : p '-' = true)
    (i : Int) : Only p (toString i) := by
  cases i with
  | ofNat n => exact (only_toString_nat n).mono hdigit
  | negSucc n =>
    have hminus : Only p "-" := by
      intro c hc
      rw [show "-".toList = ['-'] from rfl, List.mem_singleton] at hc
      rw [hc, hsign]
    exact hminus.append ((only_toString_nat (n + 1)).mono hdigit)

end Only

end MapServiceAgent
