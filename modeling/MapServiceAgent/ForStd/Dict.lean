import Mathlib.Data.List.Nodup

/-!
# Dictionaries filled in a loop

A dictionary is a list of entries with distinct keys. `setdefault` adds an entry
only while its key is free, so that the first entry of a key is the one that
stays; an assignment replaces it, so that the last one does.

## Key results

- `lookup_foldl_setDefault`: the first entry of a key counts
- `nodup_foldl_setDefault`: no key comes twice
- `mem_iff_lookup`: with distinct keys an entry is what its key finds
- `lookup_map_of`, `lookup_map_values`: entries renamed and changed one by one
- `lookup_filterMap_of`: some of them left out, too
- `lookup_foldl_last`: the last value set stays
-/

namespace MapServiceAgent

variable {κ ν β : Type} [DecidableEq κ]

/-! ### The first word -/

/-- `d.setdefault(k, v)`. -/
def setDefault (d : List (κ × ν)) (e : κ × ν) : List (κ × ν) :=
  if (d.lookup e.1).isNone then d ++ [e] else d

/-- An entry of another key is passed over. -/
theorem lookup_cons_of_ne {k k' : κ} (h : k ≠ k') (v : ν) (d : List (κ × ν)) :
    ((k', v) :: d).lookup k = d.lookup k := by
  rw [List.lookup_cons, beq_false_of_ne h]

/-- After `setdefault` a key has the value it had, else the new one. -/
theorem lookup_setDefault (d : List (κ × ν)) (e : κ × ν) (k : κ) :
    (setDefault d e).lookup k = (d.lookup k).or ([e].lookup k) := by
  obtain ⟨key, v⟩ := e
  unfold setDefault
  dsimp only
  by_cases hk : k = key
  · subst hk
    -- the key itself: set only where it was not there
    cases hlookup : d.lookup k with
    | none => simp [hlookup, List.lookup_append]
    | some w => simp [hlookup]
  · -- another key is as it was
    rw [lookup_cons_of_ne hk, List.lookup_nil, Option.or_none]
    split
    · rw [List.lookup_append, lookup_cons_of_ne hk, List.lookup_nil, Option.or_none]
    · rfl

/-- The first entry of a key counts. -/
theorem lookup_foldl_setDefault (es d : List (κ × ν)) (k : κ) :
    (es.foldl setDefault d).lookup k = (d.lookup k).or (es.lookup k) := by
  induction es generalizing d with
  | nil => rw [List.foldl_nil, List.lookup_nil, Option.or_none]
  | cons e es ih =>
    rw [List.foldl_cons, ih, lookup_setDefault, Option.or_assoc, ← List.lookup_append]
    rfl

/-- What is found is an entry. -/
theorem mem_of_lookup {d : List (κ × ν)} {k : κ} {v : ν} (h : d.lookup k = some v) :
    (k, v) ∈ d := by
  rw [List.lookup_eq_some_iff] at h
  obtain ⟨before, after, rfl, -⟩ := h
  exact List.mem_append_right _ List.mem_cons_self

/-- With distinct keys an entry is what its key finds. -/
theorem mem_iff_lookup {d : List (κ × ν)} (h : (d.map Prod.fst).Nodup) {k : κ} {v : ν} :
    (k, v) ∈ d ↔ d.lookup k = some v := by
  refine ⟨fun hmem => ?_, mem_of_lookup⟩
  induction d with
  | nil => cases hmem
  | cons e d ih =>
    obtain ⟨key, w⟩ := e
    rw [List.map_cons, List.nodup_cons] at h
    rcases List.mem_cons.mp hmem with heq | hrest
    · cases heq
      rw [List.lookup_cons, beq_self_eq_true]
    · -- an entry further on has another key than the first
      have hne : k ≠ key := by
        rintro rfl
        exact h.1 (List.mem_map.mpr ⟨(k, v), hrest, rfl⟩)
      rw [lookup_cons_of_ne hne]
      exact ih h.2 hrest

/-- A key is found when it is one of the keys. -/
theorem isSome_lookup_iff {d : List (κ × ν)} {k : κ} :
    (d.lookup k).isSome ↔ k ∈ d.map Prod.fst := by
  induction d with
  | nil => simp
  | cons e d ih =>
    by_cases hk : k = e.1
    · simp [hk]
    · rw [← Prod.eta e, lookup_cons_of_ne hk, ih, List.map_cons, List.mem_cons]
      exact ⟨Or.inr, fun h => h.resolve_left hk⟩

/-- Renamed keys find what they found, if no other key is renamed to the same. -/
theorem lookup_map_of {κ' : Type} [DecidableEq κ'] {rename : κ → κ'} {f : ν → β} {d : List (κ × ν)}
    {k : κ} (h : ∀ e ∈ d, rename e.1 = rename k → e.1 = k) :
    (d.map fun e => (rename e.1, f e.2)).lookup (rename k) = (d.lookup k).map f := by
  induction d with
  | nil => rfl
  | cons e d ih =>
    obtain ⟨hhead, htail⟩ := List.forall_mem_cons.mp h
    obtain ⟨key, v⟩ := e
    by_cases hk : k = key
    · simp [hk]
    · have hne : rename k ≠ rename key := fun heq => hk (hhead heq.symm).symm
      rw [List.map_cons, lookup_cons_of_ne hne, lookup_cons_of_ne hk, ih htail]

/-- A key finds what was made of its entry. -/
theorem lookup_map_values (f : ν → β) (d : List (κ × ν)) (k : κ) :
    (d.map fun e => (e.1, f e.2)).lookup k = (d.lookup k).map f := by
  show (d.map fun e => (id e.1, f e.2)).lookup (id k) = (d.lookup k).map f
  exact lookup_map_of fun e he heq => heq

/-- Where no key comes twice, one that was renamed finds what was kept of its entry. -/
theorem lookup_filterMap_of {κ' : Type} [DecidableEq κ'] {rename : κ → κ'}
    (hrename : Function.Injective rename) (f : ν → Option β) {d : List (κ × ν)}
    (h : (d.map Prod.fst).Nodup) (k : κ) :
    (d.filterMap fun e => (f e.2).map fun b => (rename e.1, b)).lookup (rename k) =
      (d.lookup k).bind f := by
  induction d with
  | nil => rfl
  | cons e d ih =>
    obtain ⟨key, v⟩ := e
    obtain ⟨hfree, hd⟩ := List.nodup_cons.mp h
    have hrest := ih hd
    rw [List.filterMap_cons]
    by_cases hk : k = key
    · subst hk
      -- the key comes once, so the rest has it not
      have hnone : d.lookup k = none := by
        rwa [← Option.not_isSome_iff_eq_none, isSome_lookup_iff]
      rw [hnone] at hrest
      cases hv : f v with
      | none => simpa [hv] using hrest
      | some b => simp [hv]
    · -- another key has another name
      rw [lookup_cons_of_ne hk]
      cases hv : f v with
      | none => simpa [hv] using hrest
      | some b => simpa [hv, lookup_cons_of_ne fun heq => hk (hrename heq)] using hrest

/-- No key comes twice. -/
theorem nodup_foldl_setDefault (es : List (κ × ν)) {d : List (κ × ν)}
    (h : (d.map Prod.fst).Nodup) : ((es.foldl setDefault d).map Prod.fst).Nodup := by
  induction es generalizing d with
  | nil => exact h
  | cons e es ih =>
    rw [List.foldl_cons]
    apply ih
    unfold setDefault
    split
    · -- a key is added only where none finds it
      rename_i hfree
      rw [List.map_append]
      refine h.append (List.nodup_singleton _) (List.disjoint_singleton.mpr fun hmem => ?_)
      rw [← isSome_lookup_iff, Option.isSome_iff_ne_none] at hmem
      exact hmem (Option.isNone_iff_eq_none.mp hfree)
    · exact h

/-- A loop whose steps each add an entry or none. -/
theorem foldl_eq_setDefault {step : List (κ × ν) → β → List (κ × ν)} {entry : β → Option (κ × ν)}
    (hstep : ∀ d b, step d b = (entry b).elim d (setDefault d)) (bs : List β)
    (d : List (κ × ν)) : bs.foldl step d = (bs.filterMap entry).foldl setDefault d := by
  induction bs generalizing d with
  | nil => rfl
  | cons b bs ih =>
    rw [List.foldl_cons, ih, hstep, List.filterMap_cons]
    cases entry b with
    | none => rfl
    | some e => rfl

/-- What the entries of some elements hold under a key. -/
theorem lookup_filterMap (p : β → Bool) (key : β → κ) (value : β → ν) (bs : List β) (k : κ) :
    (bs.filterMap fun b => if p b then some (key b, value b) else none).lookup k =
      (bs.find? fun b => p b && decide (key b = k)).map value := by
  induction bs with
  | nil => rfl
  | cons b bs ih =>
    rw [List.filterMap_cons, List.find?_cons]
    cases hp : p b with
    | false => simpa [hp] using ih
    | true =>
      by_cases hk : key b = k
      · simp [hk]
      · simpa [hk, lookup_cons_of_ne (Ne.symm hk)] using ih

/-! ### The last word -/

/-- A loop whose steps each set a key or leave it: the last value set stays. -/
theorem lookup_foldl_last (value : β → Option ν) {step : List (κ × ν) → β → List (κ × ν)} {k : κ}
    (hstep : ∀ d b, (step d b).lookup k = (value b).or (d.lookup k)) (bs : List β)
    (d : List (κ × ν)) :
    (bs.foldl step d).lookup k = ((bs.filterMap value).getLast?).or (d.lookup k) := by
  induction bs generalizing d with
  | nil => rfl
  | cons b bs ih =>
    rw [List.foldl_cons, ih, hstep, List.filterMap_cons]
    cases value b with
    | none => rfl
    | some v =>
      rw [List.getLast?_cons]
      -- a later value overrules this one, if there is a later one
      cases (bs.filterMap value).getLast? with
      | none => rfl
      | some w => rfl

end MapServiceAgent
