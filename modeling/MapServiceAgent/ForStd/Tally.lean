import Mathlib.Algebra.GroupWithZero.Nat
import Mathlib.Data.List.Dedup
import MapServiceAgent.ForStd.Dict

/-!
# Counting in dictionaries

A dictionary of counts goes up by one for each occurrence of a key; a dictionary
of such dictionaries counts pairs. What is counted does not depend on the order
of the occurrences, and the counts add up to what there is to count.

## Key results

- `lookup_foldl_bump`, `pairCount_foldl_bumpIn`: what has been counted
- `pairCounts_perm`: each pair that occurs is counted once
- `countP_pairCounts`: how many pairs have a count of some kind
- `lookup_keepEntries`: a comprehension over the entries of a dictionary
-/

namespace MapServiceAgent

variable {κ ι ν β : Type} [DecidableEq κ] [DecidableEq ι]

/-! ### Updating an entry -/

/-- `d[k] = f(d.get(k))`: an existing key keeps its place, a new one comes last. -/
def update (d : List (κ × ν)) (k : κ) (f : Option ν → ν) : List (κ × ν) :=
  match d with
  | [] => [(k, f none)]
  | (k', v) :: rest => if k' = k then (k', f (some v)) :: rest else (k', v) :: update rest k f

/-- An updated entry has its new value. -/
@[simp] theorem lookup_update_self (d : List (κ × ν)) (k : κ) (f : Option ν → ν) :
    (update d k f).lookup k = some (f (d.lookup k)) := by
  fun_induction update d k f with
  | case1 => simp
  | case2 => simp
  | case3 k' v rest hne ih => rw [lookup_cons_of_ne (Ne.symm hne), lookup_cons_of_ne (Ne.symm hne), ih]

/-- The other entries are as they were. -/
theorem lookup_update_ne {d : List (κ × ν)} {k k' : κ} (f : Option ν → ν) (h : k' ≠ k) :
    (update d k f).lookup k' = d.lookup k' := by
  fun_induction update d k f with
  | case1 => rw [lookup_cons_of_ne h]
  | case2 v rest => rw [lookup_cons_of_ne h, lookup_cons_of_ne h]
  | case3 k'' v rest hne ih => rw [List.lookup_cons, List.lookup_cons, ih]

/-- Its key is there, and the keys that were. -/
theorem mem_keys_update {d : List (κ × ν)} {k k' : κ} (f : Option ν → ν) :
    k' ∈ (update d k f).map Prod.fst ↔ k' = k ∨ k' ∈ d.map Prod.fst := by
  rw [← isSome_lookup_iff, ← isSome_lookup_iff]
  by_cases hk : k' = k
  · simp [hk]
  · rw [lookup_update_ne f hk]
    simp [hk]

/-- No key comes twice. -/
theorem nodup_update {d : List (κ × ν)} (k : κ) (f : Option ν → ν)
    (h : (d.map Prod.fst).Nodup) : ((update d k f).map Prod.fst).Nodup := by
  fun_induction update d k f with
  | case1 => exact List.nodup_singleton _
  | case2 => exact h
  | case3 k' v rest hne ih =>
    rw [List.map_cons, List.nodup_cons] at h ⊢
    rw [mem_keys_update]
    exact ⟨fun hmem => hmem.elim hne h.1, ih h.2⟩

/-- An entry is an old one or the one set. -/
theorem mem_update {d : List (κ × ν)} {k : κ} {f : Option ν → ν} {e : κ × ν}
    (h : e ∈ update d k f) : e ∈ d ∨ e = (k, f (d.lookup k)) := by
  fun_induction update d k f with
  | case1 => exact Or.inr (List.mem_singleton.mp h)
  | case2 v rest =>
    rw [List.lookup_cons, beq_self_eq_true]
    exact (List.mem_cons.mp h).elim Or.inr fun hrest => Or.inl (List.mem_cons_of_mem _ hrest)
  | case3 k' v rest hne ih =>
    rw [lookup_cons_of_ne (Ne.symm hne)]
    rcases List.mem_cons.mp h with rfl | hrest
    · exact Or.inl List.mem_cons_self
    · exact (ih hrest).imp (List.mem_cons_of_mem _) id

/-! ### Counting keys -/

/-- `d[k] += 1`. -/
def bump (d : List (κ × Nat)) (k : κ) : List (κ × Nat) := update d k fun n => n.getD 0 + 1

/-- What has been counted of a key. -/
theorem lookup_foldl_bump (l : List κ) (d : List (κ × Nat)) (k : κ) :
    (l.foldl bump d).lookup k =
      if k ∈ l then some ((d.lookup k).getD 0 + l.count k) else d.lookup k := by
  induction l generalizing d with
  | nil => rfl
  | cons a l ih =>
    rw [List.foldl_cons, ih]
    by_cases ha : k = a
    · subst ha
      rw [bump, lookup_update_self, Option.getD_some, List.count_cons_self,
        if_pos List.mem_cons_self]
      split
      · rw [Nat.add_assoc, Nat.add_comm 1]
      · -- the key has come for the last time
        rename_i hmem
        rw [List.count_eq_zero_of_not_mem hmem]
    · rw [bump, lookup_update_ne _ ha, List.count_cons_of_ne (Ne.symm ha)]
      simp [ha]

/-! ### Counting pairs -/

/-- `d[k][i] += 1`. -/
def bumpIn (d : List (κ × List (ι × Nat))) (p : κ × ι) : List (κ × List (ι × Nat)) :=
  update d p.1 fun counts => bump (counts.getD []) p.2

/-- `d[k][i]`, if there is such an entry. -/
def pairCount (d : List (κ × List (ι × Nat))) (p : κ × ι) : Option Nat :=
  (d.lookup p.1).bind fun counts => counts.lookup p.2

/-- A pair that is counted has one more. -/
theorem pairCount_bumpIn_self (d : List (κ × List (ι × Nat))) (p : κ × ι) :
    pairCount (bumpIn d p) p = some ((pairCount d p).getD 0 + 1) := by
  rw [pairCount, bumpIn, lookup_update_self, Option.bind_some, bump, lookup_update_self, pairCount]
  cases d.lookup p.1 with
  | none => rfl
  | some counts => rfl

/-- The other pairs have as many as before. -/
theorem pairCount_bumpIn_ne (d : List (κ × List (ι × Nat))) {p q : κ × ι} (h : q ≠ p) :
    pairCount (bumpIn d p) q = pairCount d q := by
  unfold pairCount bumpIn
  by_cases hk : q.1 = p.1
  · -- under the same key it is another one
    have hi : q.2 ≠ p.2 := fun hi => h (Prod.ext hk hi)
    rw [hk, lookup_update_self, Option.bind_some, bump, lookup_update_ne _ hi]
    cases d.lookup p.1 with
    | none => rfl
    | some counts => rfl
  · rw [lookup_update_ne _ hk]

/-- What has been counted of a pair. -/
theorem pairCount_foldl_bumpIn (l : List (κ × ι)) (d : List (κ × List (ι × Nat))) (p : κ × ι) :
    pairCount (l.foldl bumpIn d) p =
      if p ∈ l then some ((pairCount d p).getD 0 + l.count p) else pairCount d p := by
  induction l generalizing d with
  | nil => rfl
  | cons a l ih =>
    rw [List.foldl_cons, ih]
    by_cases ha : p = a
    · subst ha
      rw [pairCount_bumpIn_self, Option.getD_some, List.count_cons_self, if_pos List.mem_cons_self]
      split
      · rw [Nat.add_assoc, Nat.add_comm 1]
      · -- the pair has come for the last time
        rename_i hmem
        rw [List.count_eq_zero_of_not_mem hmem]
    · rw [pairCount_bumpIn_ne _ ha, List.count_cons_of_ne (Ne.symm ha)]
      simp [ha]

/-- No key comes twice, outside or inside. -/
structure WellKeyed (d : List (κ × List (ι × Nat))) : Prop where
  keys : (d.map Prod.fst).Nodup
  inner : ∀ e ∈ d, (e.2.map Prod.fst).Nodup

/-- Counting a pair gives no key twice. -/
theorem WellKeyed.bumpIn {d : List (κ × List (ι × Nat))} (h : WellKeyed d) (p : κ × ι) :
    WellKeyed (bumpIn d p) where
  keys := nodup_update _ _ h.keys
  inner e he := by
    -- an inner dictionary there was, or the one just counted in
    rcases mem_update he with hold | rfl
    · exact h.inner e hold
    · apply nodup_update
      cases hlookup : d.lookup p.1 with
      | none => exact List.nodup_nil
      | some counts => exact h.inner _ (mem_of_lookup hlookup)

/-- Nor does counting several. -/
theorem WellKeyed.foldl_bumpIn {d : List (κ × List (ι × Nat))} (h : WellKeyed d)
    (l : List (κ × ι)) : WellKeyed (l.foldl MapServiceAgent.bumpIn d) := by
  induction l generalizing d with
  | nil => exact h
  | cons p l ih => exact ih (h.bumpIn p)

omit [DecidableEq κ] [DecidableEq ι] in
/-- No counters are well keyed. -/
theorem wellKeyed_nil : WellKeyed ([] : List (κ × List (ι × Nat))) :=
  ⟨List.nodup_nil, fun _ he => absurd he List.not_mem_nil⟩

/-! ### The pairs counted -/

/-- The entries of all dictionaries, each under both its keys. -/
def pairCounts (d : List (κ × List (ι × Nat))) : List ((κ × ι) × Nat) :=
  d.flatMap fun e => e.2.map fun f => ((e.1, f.1), f.2)

/-- The pairs listed are those with a counter, and its count. -/
theorem mem_pairCounts_iff {d : List (κ × List (ι × Nat))} (h : WellKeyed d) {p : κ × ι} {n : Nat} :
    (p, n) ∈ pairCounts d ↔ pairCount d p = some n := by
  obtain ⟨k, i⟩ := p
  simp only [pairCounts, List.mem_flatMap, List.mem_map, pairCount, Option.bind_eq_some_iff]
  constructor
  · rintro ⟨e, he, f, hf, heq⟩
    cases heq
    exact ⟨e.2, (mem_iff_lookup h.keys).mp he, (mem_iff_lookup (h.inner e he)).mp hf⟩
  · rintro ⟨counts, hcounts, hn⟩
    exact ⟨(k, counts), mem_of_lookup hcounts, (i, n), mem_of_lookup hn, rfl⟩

omit [DecidableEq κ] [DecidableEq ι] in
/-- No pair is listed twice. -/
theorem nodup_pairCounts {d : List (κ × List (ι × Nat))} (h : WellKeyed d) :
    ((pairCounts d).map Prod.fst).Nodup := by
  have hpairs : (pairCounts d).map Prod.fst = d.flatMap fun e => (e.2.map Prod.fst).map (e.1, ·) := by
    simp [pairCounts, List.map_flatMap, Function.comp_def]
  rw [hpairs, List.nodup_flatMap]
  constructor
  · exact fun e he => (h.inner e he).map fun _ _ heq => congrArg Prod.snd heq
  · -- the pairs of two dictionaries differ in the key outside
    refine (List.pairwise_map.mp h.keys).imp fun hne p hp hq => hne ?_
    obtain ⟨i, -, rfl⟩ := List.mem_map.mp hp
    obtain ⟨j, -, heq⟩ := List.mem_map.mp hq
    exact (congrArg Prod.fst heq).symm

/-- Each pair that occurs is counted once. -/
theorem pairCounts_perm (l : List (κ × ι)) :
    ((pairCounts (l.foldl bumpIn [])).map Prod.fst).Perm l.dedup := by
  have hwell : WellKeyed (l.foldl bumpIn []) := wellKeyed_nil.foldl_bumpIn l
  -- both list each pair once, so it is enough which pairs they list
  refine (List.perm_ext_iff_of_nodup (nodup_pairCounts hwell) (List.nodup_dedup l)).mpr fun p => ?_
  rw [List.mem_dedup, List.mem_map]
  constructor
  · rintro ⟨⟨q, n⟩, hq, rfl⟩
    rw [mem_pairCounts_iff hwell, pairCount_foldl_bumpIn] at hq
    by_contra hmem
    rw [if_neg hmem] at hq
    cases hq
  · intro hp
    refine ⟨(p, l.count p), (mem_pairCounts_iff hwell).mpr ?_, rfl⟩
    rw [pairCount_foldl_bumpIn, if_pos hp]
    simp [pairCount]

/-- How many pairs have a count of some kind. -/
theorem countP_pairCounts (l : List (κ × ι)) (Q : Nat → Bool) :
    (pairCounts (l.foldl bumpIn [])).countP (fun e => Q e.2) = l.dedup.countP fun p => Q (l.count p) := by
  have hcount : ∀ e ∈ pairCounts (l.foldl bumpIn []), e.2 = l.count e.1 := by
    intro e he
    rw [← Prod.eta e, mem_pairCounts_iff (wellKeyed_nil.foldl_bumpIn l), pairCount_foldl_bumpIn] at he
    split at he
    · simpa [pairCount] using he.symm
    · cases he
  rw [← (pairCounts_perm l).countP_eq, List.countP_map]
  refine List.countP_congr fun e he => ?_
  rw [Function.comp_apply, hcount e he]

/-! ### Comprehensions -/

/-- `{k: g(k, v) for k, v in d.items()}`, less the entries that `g` leaves out. -/
def keepEntries (g : κ → ν → Option β) (d : List (κ × ν)) : List (κ × β) :=
  d.filterMap fun e => (g e.1 e.2).map fun b => (e.1, b)

omit [DecidableEq κ] in
/-- The keys kept are some of the keys. -/
theorem keys_keepEntries_sublist (g : κ → ν → Option β) (d : List (κ × ν)) :
    ((keepEntries g d).map Prod.fst).Sublist (d.map Prod.fst) := by
  induction d with
  | nil => exact List.nil_sublist _
  | cons e d ih =>
    rw [keepEntries, List.filterMap_cons]
    cases g e.1 e.2 with
    | none => exact ih.cons e.1
    | some b => exact ih.cons_cons e.1

omit [DecidableEq κ] in
/-- What is kept is made of an entry. -/
theorem mem_keepEntries {g : κ → ν → Option β} {d : List (κ × ν)} {e : κ × β} :
    e ∈ keepEntries g d ↔ ∃ v, (e.1, v) ∈ d ∧ g e.1 v = some e.2 := by
  obtain ⟨k, b⟩ := e
  simp [keepEntries, List.mem_filterMap]

omit [DecidableEq κ] in
/-- As many are kept as have something made of them. -/
theorem length_keepEntries (g : κ → ν → Option β) (d : List (κ × ν)) :
    (keepEntries g d).length = d.countP fun e => (g e.1 e.2).isSome := by
  simp [keepEntries, List.length_filterMap_eq_countP]

omit [DecidableEq κ] in
/-- What the entries kept add up to: those left out add nothing. -/
theorem sum_keepEntries (g : κ → ν → Option β) (size : β → Nat) (d : List (κ × ν)) :
    ((keepEntries g d).map fun e => size e.2).sum =
      (d.map fun e => ((g e.1 e.2).map size).getD 0).sum := by
  induction d with
  | nil => rfl
  | cons e d ih =>
    rw [List.map_cons, List.sum_cons, ← ih, keepEntries, List.filterMap_cons]
    cases g e.1 e.2 with
    | none => exact (Nat.zero_add _).symm
    | some b => rfl

/-- With distinct keys, what a key finds is what was made of its entry. -/
theorem lookup_keepEntries {g : κ → ν → Option β} {d : List (κ × ν)}
    (h : (d.map Prod.fst).Nodup) (k : κ) :
    (keepEntries g d).lookup k = (d.lookup k).bind (g k) := by
  induction d with
  | nil => rfl
  | cons e d ih =>
    obtain ⟨key, v⟩ := e
    rw [List.map_cons, List.nodup_cons] at h
    have hkeep : keepEntries g ((key, v) :: d) =
        ((g key v).map fun b => (key, b)).toList ++ keepEntries g d := by
      rw [keepEntries, List.filterMap_cons]
      cases g key v <;> rfl
    rw [hkeep]
    by_cases hk : k = key
    · subst hk
      rw [List.lookup_cons, beq_self_eq_true, Option.bind_some]
      cases hg : g k v with
      | some b => simp
      | none =>
        -- the key does not come again
        have hfree : d.lookup k = none :=
          Option.not_isSome_iff_eq_none.mp fun hsome => h.1 (isSome_lookup_iff.mp hsome)
        simp [ih h.2, hfree]
    · -- another key is looked up in the rest
      rw [lookup_cons_of_ne hk, ← ih h.2]
      cases g key v with
      | none => rfl
      | some b => exact lookup_cons_of_ne hk b _

end MapServiceAgent
