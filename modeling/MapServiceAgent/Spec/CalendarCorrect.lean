import MapServiceAgent.Native.Calendar

/-!
# The calendar

A day and its ISO form determine each other: the year, month and day of an
ordinal make up the ordinal again, and what `isoformat` writes `fromisoformat`
reads.

## Key results

- `ordinal_ymd`: the year, month and day of an ordinal
- `fromisoformat_isoformat`: a written date reads back
- `isoformat_inj`: no two days are written alike
-/

namespace MapServiceAgent.Native

/-! ### Months -/

/-- The days before a month are those before the last one, and its own. -/
theorem daysBeforeMonth_succ (y : Nat) {m : Nat} (h : 1 ≤ m) :
    daysBeforeMonth y (m + 1) = daysBeforeMonth y m + daysInMonth y m := by
  cases m with
  | zero => omega
  | succ m => rfl

/-- The days of a year. -/
theorem daysBeforeMonth_thirteen (y : Nat) :
    daysBeforeMonth y 13 = if isLeap y then 366 else 365 := by
  simp only [daysBeforeMonth, daysInMonth]
  split <;> rfl

/-- The month and day of a day of the year make up the day. -/
theorem monthDay_spec (y fuel : Nat) {m n : Nat} (hm : 1 ≤ m) (hfuel : m + fuel = 12)
    (hn : daysBeforeMonth y m + n < daysBeforeMonth y 13) :
    daysBeforeMonth y (monthDay y fuel m n).1 + (monthDay y fuel m n).2 =
      daysBeforeMonth y m + n + 1 ∧
    1 ≤ (monthDay y fuel m n).1 ∧ (monthDay y fuel m n).1 ≤ 12 ∧
    1 ≤ (monthDay y fuel m n).2 ∧
    (monthDay y fuel m n).2 ≤ daysInMonth y (monthDay y fuel m n).1 := by
  -- the fuel counts the months left, and `n` the days left before the end of the year
  induction fuel generalizing m n with
  | zero =>
    obtain rfl : m = 12 := by omega
    rw [daysBeforeMonth_succ y (m := 12) (by decide)] at hn
    simp only [monthDay]
    omega
  | succ fuel ih =>
    rw [monthDay]
    by_cases hlt : n < daysInMonth y m
    · -- the day lies in this month
      rw [if_pos hlt]
      dsimp only
      omega
    · -- the whole month lies before the day
      rw [if_neg hlt]
      have hsucc := daysBeforeMonth_succ y hm
      have := ih (m := m + 1) (n := n - daysInMonth y m) (by omega) (by omega) (by omega)
      rw [hsucc] at this
      omega

/-! ### Years -/

/-- The three parts make a date. -/
structure IsYmd (ymd : Nat × Nat × Nat) (ordinal : Nat) : Prop where
  ordinal_eq : daysBeforeYear ymd.1 + daysBeforeMonth ymd.1 ymd.2.1 + ymd.2.2 = ordinal
  one_le_year : 1 ≤ ymd.1
  year_le : ymd.1 ≤ 9999
  one_le_month : 1 ≤ ymd.2.1
  month_le : ymd.2.1 ≤ 12
  one_le_day : 1 ≤ ymd.2.2
  day_le : ymd.2.2 ≤ daysInMonth ymd.1 ymd.2.1

/-- The days before a year, by cycles of 400, 100, 4 and 1 years. -/
theorem daysBeforeYear_cycles {a b c e : Nat} (hb : b ≤ 3) (hc : c ≤ 24) (he : e ≤ 3) :
    daysBeforeYear (a * 400 + b * 100 + c * 4 + e + 1) =
      a * 146097 + b * 36524 + c * 1461 + e * 365 := by
  unfold daysBeforeYear
  omega

/-- The last year of a cycle of four is a leap year, unless it ends a century
    that does not end one of four. -/
theorem isLeap_cycles {a b c : Nat} (hc : c ≤ 24) (h : c ≤ 23 ∨ b = 3) :
    isLeap (a * 400 + b * 100 + c * 4 + 3 + 1) = true := by
  unfold isLeap
  simp only [Bool.and_eq_true, Bool.or_eq_true, beq_iff_eq, bne_iff_ne]
  omega

/-- The last day of a leap year. -/
theorem isYmd_newYearsEve {y n : Nat} (hleap : isLeap y = true) (hpos : 1 ≤ y) (hle : y ≤ 9999)
    (hn : daysBeforeYear y + 366 = n) : IsYmd (y, 12, 31) n := by
  have hyear := daysBeforeMonth_thirteen y
  rw [if_pos hleap, daysBeforeMonth_succ y (m := 12) (by decide)] at hyear
  have hdec : daysInMonth y 12 = 31 := rfl
  -- what is left is arithmetic of the last month
  constructor <;> dsimp only <;> omega

/-- The year, month and day of an ordinal make up the ordinal. -/
theorem ordinal_ymd {n : Nat} (hpos : 1 ≤ n) (hmax : n ≤ maxOrdinal) : IsYmd (ymdOfOrdinal n) n := by
  unfold maxOrdinal at hmax
  unfold ymdOfOrdinal
  dsimp only
  -- 400, 100 and 4 years, then years, with what is left of each
  generalize ha : (n - 1) / 146097 = a
  generalize hr : (n - 1) % 146097 = r
  generalize hb : r / 36524 = b
  generalize hr' : r % 36524 = r'
  generalize hc : r' / 1461 = c
  generalize hr'' : r' % 1461 = r''
  generalize he : r'' / 365 = e
  split
  · rename_i hlast
    by_cases hcentury : b = 4
    · -- the last day of 400 years
      obtain ⟨rfl, rfl⟩ : c = 0 ∧ e = 0 := by omega
      have hyear : a * 400 + b * 100 + 0 * 4 + 0 + 1 - 1 = a * 400 + 3 * 100 + 24 * 4 + 3 + 1 := by
        omega
      have hleap := isLeap_cycles (a := a) (b := 3) (c := 24) (by decide) (by decide)
      have hdays := daysBeforeYear_cycles (a := a) (b := 3) (c := 24) (e := 3) (by decide)
        (by decide) (by decide)
      rw [hyear]
      exact isYmd_newYearsEve hleap (by omega) (by omega) (by omega)
    · -- the last day of four years
      obtain rfl : e = 4 := by omega
      have hyear : a * 400 + b * 100 + c * 4 + 4 + 1 - 1 = a * 400 + b * 100 + c * 4 + 3 + 1 := by
        omega
      have hleap := isLeap_cycles (a := a) (b := b) (c := c) (by omega) (by omega)
      have hdays := daysBeforeYear_cycles (a := a) (b := b) (c := c) (e := 3) (by omega)
        (by omega) (by decide)
      rw [hyear]
      exact isYmd_newYearsEve hleap (by omega) (by omega) (by omega)
  · rename_i hlast
    rw [not_or] at hlast
    -- an ordinary day: the month is found by walking through the year
    generalize hyear : a * 400 + b * 100 + c * 4 + e + 1 = y
    have hdays : daysBeforeYear y = a * 146097 + b * 36524 + c * 1461 + e * 365 := by
      rw [← hyear, daysBeforeYear_cycles (by omega) (by omega) (by omega)]
    have hlen := daysBeforeMonth_thirteen y
    have hfirst : daysBeforeMonth y 1 = 0 := rfl
    have hin : daysBeforeMonth y 1 + r'' % 365 < daysBeforeMonth y 13 := by
      rw [hfirst]
      split at hlen <;> omega
    obtain ⟨hsum, hone, htwelve, hday, hmonth⟩ :=
      monthDay_spec y 11 (le_refl 1) (by decide) hin
    constructor <;> dsimp only <;> omega

/-- The parts of a date are put together to it. -/
theorem IsYmd.ofYmd? {ymd : Nat × Nat × Nat} {d : Date} (h : IsYmd ymd d.ordinal) :
    Date.ofYmd? ymd.1 ymd.2.1 ymd.2.2 = some d := by
  obtain ⟨heq, hy, hy', hm, hm', hd, hd'⟩ := h
  unfold Date.ofYmd?
  dsimp only
  rw [dif_pos (by rw [heq]; exact ⟨⟨hy, hy', hm, hm', hd, hd'⟩, d.one_le, d.le_max⟩)]
  congr

/-! ### The ISO form -/

/-- A month has 31 days at most. -/
theorem daysInMonth_le (y m : Nat) : daysInMonth y m ≤ 31 := by
  unfold daysInMonth
  repeat' split
  all_goals decide

/-- The characters of a padded number. -/
theorem padNat_two {n : Nat} (h : n < 100) : ∃ a b, (padNat 2 n).toList = [a, b] ∧
    a.isDigit = true ∧ b.isDigit = true ∧ digits? [a, b] = some n := by
  obtain ⟨a, b, hab⟩ := List.length_eq_two.mp (length_padNat 2 (by decide) h)
  have hdigit := only_padNat 2 n
  unfold Only at hdigit
  rw [hab] at hdigit
  exact ⟨a, b, hab, hdigit a (by simp), hdigit b (by simp), hab ▸ digits?_padNat 2 n⟩

/-- The characters of a number padded to a year's four. -/
theorem padNat_four {n : Nat} (h : n < 10000) : ∃ a b c d, (padNat 4 n).toList = [a, b, c, d] ∧
    a.isDigit = true ∧ digits? [a, b, c, d] = some n := by
  have hlen := length_padNat 4 (by decide) h
  have hdigits := digits?_padNat 4 n
  have hdigit := only_padNat 4 n
  unfold Only at hdigit
  obtain ⟨a, b, c, d, habcd⟩ := List.length_eq_four.mp hlen
  rw [habcd] at hdigits hdigit
  exact ⟨a, b, c, d, habcd, hdigit a (by simp), hdigits⟩

/-- The characters of a written date. -/
theorem isoformat_chars (d : Date) : ∃ y1 y2 y3 y4 m1 m2 d1 d2,
    d.isoformat.toList = [y1, y2, y3, y4, '-', m1, m2, '-', d1, d2] ∧ y1.isDigit = true ∧
      m1.isDigit = true ∧ digits? [y1, y2, y3, y4] = some (ymdOfOrdinal d.ordinal).1 ∧
      digits? [m1, m2] = some (ymdOfOrdinal d.ordinal).2.1 ∧
      digits? [d1, d2] = some (ymdOfOrdinal d.ordinal).2.2 := by
  obtain ⟨-, -, hy, -, hm, -, hd⟩ := ordinal_ymd d.one_le d.le_max
  have hmonth := daysInMonth_le (ymdOfOrdinal d.ordinal).1 (ymdOfOrdinal d.ordinal).2.1
  -- four digits for the year, two for the month, two for the day
  obtain ⟨y1, y2, y3, y4, hyear, hy1, hyears⟩ := padNat_four (n := (ymdOfOrdinal d.ordinal).1)
    (by omega)
  obtain ⟨m1, m2, hmonths, hm1, -, hm⟩ := padNat_two (n := (ymdOfOrdinal d.ordinal).2.1) (by omega)
  obtain ⟨d1, d2, hdays, -, -, hd⟩ := padNat_two (n := (ymdOfOrdinal d.ordinal).2.2) (by omega)
  refine ⟨y1, y2, y3, y4, m1, m2, d1, d2, ?_, hy1, hm1, hyears, hm, hd⟩
  unfold Date.isoformat isoOfOrdinal
  dsimp only
  rw [String.toList_append, String.toList_append, String.toList_append, String.toList_append, hyear,
    hmonths, hdays]
  rfl

/-- A written date reads back. -/
theorem fromisoformat_isoformat (d : Date) : Date.fromisoformat? d.isoformat = some d := by
  obtain ⟨y1, y2, y3, y4, m1, m2, d1, d2, hchars, -, hm1, hy, hm, hd⟩ := isoformat_chars d
  have hW : m1 ≠ 'W' := by
    rintro rfl
    cases hm1
  unfold Date.fromisoformat?
  rw [hchars]
  split
  · rename_i heq
    simp at heq
  · -- a week date has a `W` where a digit is
    rename_i heq
    simp only [List.cons.injEq] at heq
    exact absurd heq.2.2.2.2.2.1 hW
  · -- the shorter and longer forms have other lengths
    rename_i heq
    simp at heq
  · rename_i heq
    simp at heq
  · rename_i heq
    simp only [List.cons.injEq] at heq
    obtain ⟨rfl, rfl, rfl, rfl, -, rfl, rfl, -, rfl, rfl, -⟩ := heq
    -- year, month and day, set apart by hyphens
    rw [hy, hm, hd]
    exact (ordinal_ymd d.one_le d.le_max).ofYmd?
  · rename_i heq
    simp at heq
  · rename_i hnone _
    exact (hnone _ _ _ _ _ _ _ _ rfl).elim

/-- No two days are written alike. -/
theorem isoformat_inj {d d' : Date} (h : d.isoformat = d'.isoformat) : d = d' := by
  have hd := fromisoformat_isoformat d
  rw [h, fromisoformat_isoformat d'] at hd
  exact (Option.some.inj hd).symm

/-- A written date is not empty. -/
theorem isoformat_ne_empty (d : Date) : d.isoformat ≠ "" := by
  intro h
  obtain ⟨_, _, _, _, _, _, _, _, hchars, -⟩ := isoformat_chars d
  rw [h] at hchars
  cases hchars

/-- A written date has ten characters. -/
theorem length_isoformat (d : Date) : d.isoformat.toList.length = 10 := by
  obtain ⟨_, _, _, _, _, _, _, _, hchars, -⟩ := isoformat_chars d
  rw [hchars]
  rfl

/-- A written date is made of digits and hyphens. -/
theorem only_isoformat (d : Date) : Only (fun c => c.isDigit || c == '-') d.isoformat := by
  have hdigits : ∀ width n, Only (fun c => c.isDigit || c == '-') (padNat width n) := by
    intro width n
    exact (only_padNat width n).mono fun c hc => by simp [hc]
  have hhyphen : Only (fun c => c.isDigit || c == '-') "-" := by decide
  unfold Date.isoformat isoOfOrdinal
  exact ((((hdigits _ _).append hhyphen).append (hdigits _ _)).append hhyphen).append (hdigits _ _)

/-- What reads as a date is no longer than a date. -/
theorem length_of_fromisoformat {s : String} {d : Date} (h : Date.fromisoformat? s = some d) :
    s.toList.length ≤ 10 := by
  -- each of the accepted shapes lists its characters
  unfold Date.fromisoformat? at h
  split at h
  · rename_i heq
    simp [heq]
  · rename_i heq
    simp [heq]
  · rename_i heq
    simp [heq]
  · rename_i heq
    simp [heq]
  · rename_i heq
    simp [heq]
  · rename_i heq
    simp [heq]
  · cases h

end MapServiceAgent.Native
