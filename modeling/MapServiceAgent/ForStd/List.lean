import Mathlib.Data.List.Forall2
import Mathlib.Data.List.Sort

/-!
# Lists read the way Python reads them

Stable sorting by a key, the dictionary a comprehension builds from a list, and
the consecutive pairs of a list.

## Key results

- `sortedBy_perm`, `sortedBy_pairwise`: a sort rearranges, and orders
- `sortedBy_filter_eq`, `sortedBy_stable`: a sort is stable
- `flatMap_filter_perm`, `pairwise_flatMap_group`: groups rearrange, and keep their order
- `keyedBy_of_mem`: with distinct keys every element is found under its own
- `length_pairs`, `pairs_getElem`: the consecutive pairs
-/

namespace MapServiceAgent

variable {α β κ : Type}

/-! ### Sorting by a key -/

section Sorting

variable [LT κ] [DecidableRel (α := κ) (· < ·)]

/-- `sorted(l, key=key)`: stable, and only ever asks whether one key is less
    than another. -/
def sortedBy (key : α → κ) (l : List α) : List α :=
  l.insertionSort fun a b => ¬ key b < key a

/-- Sorting keeps the elements. -/
theorem sortedBy_perm (key : α → κ) (l : List α) : (sortedBy key l).Perm l :=
  List.perm_insertionSort _ l

/-- What is in a sorted list was in the list. -/
@[simp] theorem mem_sortedBy (key : α → κ) (l : List α) (a : α) : a ∈ sortedBy key l ↔ a ∈ l :=
  (sortedBy_perm key l).mem_iff

/-- Sorting keeps their number. -/
@[simp] theorem length_sortedBy (key : α → κ) (l : List α) : (sortedBy key l).length = l.length :=
  (sortedBy_perm key l).length_eq

end Sorting

section LinearOrder

variable [LinearOrder κ]

/-- `a` need not come after `b`: the order a sort by `key` goes by. -/
def NotAfter (key : α → κ) (a b : α) : Prop := ¬ key b < key a

instance (key : α → κ) : DecidableRel (NotAfter key) :=
  fun a b => inferInstanceAs (Decidable (¬ key b < key a))

/-- One does not come after another when its key is no greater. -/
theorem notAfter_iff {key : α → κ} {a b : α} : NotAfter key a b ↔ key a ≤ key b := not_lt

/-- Of two elements one does not come after the other. -/
theorem notAfter_total (key : α → κ) : Std.Total (NotAfter key) :=
  ⟨fun a b => by
    rw [notAfter_iff, notAfter_iff]
    exact le_total (key a) (key b)⟩

/-- Coming no later is transitive. -/
theorem notAfter_trans (key : α → κ) : IsTrans α (NotAfter key) :=
  ⟨fun a b c hab hbc => by
    rw [notAfter_iff] at hab hbc ⊢
    exact hab.trans hbc⟩

/-- Over a linear order the sort orders the keys. -/
theorem sortedBy_pairwise (key : α → κ) (l : List α) :
    (sortedBy key l).Pairwise fun a b => key a ≤ key b := by
  have := notAfter_total key
  have := notAfter_trans key
  have h : (sortedBy key l).Pairwise (NotAfter key) := List.pairwise_insertionSort _ l
  exact h.imp notAfter_iff.mp

/-- A part of the list that is in order keeps its order in the sort. -/
theorem sublist_sortedBy {key : α → κ} {c l : List α} (hc : c.Pairwise fun a b => key a ≤ key b)
    (hsub : c.Sublist l) : c.Sublist (sortedBy key l) := by
  have := notAfter_total key
  have := notAfter_trans key
  have h : c.Pairwise (NotAfter key) := hc.imp notAfter_iff.mpr
  exact List.sublist_insertionSort h hsub

/-- The sort is stable: elements of one key stay in their order. -/
theorem sortedBy_filter_eq (key : α → κ) (l : List α) (k : κ) :
    (sortedBy key l).filter (fun a => key a = k) = l.filter fun a => key a = k := by
  have hkeys : (l.filter fun a => key a = k).Pairwise fun a b => key a ≤ key b := by
    apply List.pairwise_of_forall_mem_list
    intro a ha b hb
    have ha : key a = k := by simpa using (List.mem_filter.mp ha).2
    have hb : key b = k := by simpa using (List.mem_filter.mp hb).2
    rw [ha, hb]
  have hsub := (sublist_sortedBy hkeys List.filter_sublist).filter fun a => key a = k
  simp only [List.filter_filter, Bool.and_self] at hsub
  exact (hsub.eq_of_length ((sortedBy_perm key l).filter _).length_eq.symm).symm

/-- Within one key the sort keeps whatever order the list was in. -/
theorem sortedBy_stable {key : α → κ} {R : α → α → Prop} {l : List α} (hl : l.Pairwise R) :
    (sortedBy key l).Pairwise fun a b => key a < key b ∨ key a = key b ∧ R a b := by
  rw [List.pairwise_iff_forall_sublist]
  intro a b hab
  have hle : key a ≤ key b := List.pairwise_iff_forall_sublist.mp (sortedBy_pairwise key l) hab
  rcases hle.lt_or_eq with hlt | heq
  · exact Or.inl hlt
  · apply Or.inr
    refine ⟨heq, List.pairwise_iff_forall_sublist.mp hl ?_⟩
    have hsub := hab.filter fun x => key x = key b
    rw [sortedBy_filter_eq] at hsub
    simp only [heq, decide_true, List.filter_cons_of_pos, List.filter_nil] at hsub
    exact hsub.trans List.filter_sublist

end LinearOrder

/-- A sort by what a map makes of the elements is a sort of the elements. -/
theorem sortedBy_map [LT κ] [DecidableRel (α := κ) (· < ·)] {ι : Type} [LT ι]
    [DecidableRel (α := ι) (· < ·)] {key : β → ι} {key' : α → κ} {f : α → β} {l : List α}
    (h : ∀ a ∈ l, ∀ b ∈ l, key (f a) < key (f b) ↔ key' a < key' b) :
    sortedBy key (l.map f) = (sortedBy key' l).map f := by
  unfold sortedBy
  refine (List.map_insertionSort _ _ f l fun a ha b hb => ?_).symm
  exact not_congr (h b hb a ha).symm

/-- Elements stand in the order of their positions. -/
theorem pairwise_zipIdx (l : List α) : l.zipIdx.Pairwise fun a b => a.2 < b.2 := by
  have h : (l.zipIdx.map Prod.snd).Pairwise (· < ·) := by
    rw [List.zipIdx_map_snd]
    exact List.pairwise_lt_range'
  exact List.pairwise_map.mp h

/-! ### The first of each key -/

section Firsts

variable [DecidableEq κ]

/-- The elements whose key no earlier one has. -/
def firstsBy (key : α → κ) : List α → List α
  | [] => []
  | a :: l => a :: (firstsBy key l).filter fun b => key b ≠ key a

/-- The firsts are some of the elements, in their order. -/
theorem firstsBy_sublist (key : α → κ) (l : List α) : (firstsBy key l).Sublist l := by
  induction l with
  | nil => exact .slnil
  | cons a l ih => exact (List.filter_sublist.trans ih).cons_cons a

/-- No two of the firsts have one key. -/
theorem firstsBy_nodup (key : α → κ) (l : List α) : ((firstsBy key l).map key).Nodup := by
  induction l with
  | nil => exact .nil
  | cons a l ih =>
    rw [firstsBy, List.map_cons, List.nodup_cons]
    refine ⟨fun hmem => ?_, (List.filter_sublist.map key).nodup ih⟩
    obtain ⟨b, hb, hkey⟩ := List.mem_map.mp hmem
    simpa [hkey] using (List.mem_filter.mp hb).2

end Firsts

/-! ### Grouping by a key -/

/-- The groups under distinct keys that leave none out, put together. -/
theorem flatMap_filter_perm [DecidableEq κ] (key : α → κ) (keys : List κ) (l : List α) (hkeys : keys.Nodup)
    (hall : ∀ a ∈ l, key a ∈ keys) :
    (keys.flatMap fun k => l.filter fun a => key a = k).Perm l := by
  induction keys generalizing l with
  | nil =>
    rw [List.eq_nil_iff_forall_not_mem.mpr fun a ha => List.not_mem_nil (hall a ha)]
    exact .nil
  | cons k keys ih =>
    obtain ⟨hk, hkeys⟩ := List.nodup_cons.mp hkeys
    rw [List.flatMap_cons]
    -- the later groups take nothing from the first one
    have hrest : (keys.flatMap fun k' => l.filter fun a => key a = k') =
        keys.flatMap fun k' => (l.filter fun a => !decide (key a = k)).filter fun a => key a = k' := by
      rw [List.flatMap_def, List.flatMap_def]
      congr 1
      refine List.map_congr_left fun k' hk' => ?_
      rw [List.filter_filter]
      refine List.filter_congr fun a _ => ?_
      have hne : k' ≠ k := fun h => hk (h ▸ hk')
      by_cases ha : key a = k' <;> simp [ha, hne]
    rw [hrest]
    refine ((ih _ hkeys ?_).append_left _).trans (List.filter_append_perm _ l)
    -- what is left has none of the first key
    intro a ha
    obtain ⟨ha, hne⟩ := List.mem_filter.mp ha
    rcases List.mem_cons.mp (hall a ha) with h | h
    · simp [h] at hne
    · exact h

/-- Groups in the order of their keys are in that order throughout. -/
theorem pairwise_flatMap_group [LinearOrder κ] (key : α → κ) {group : κ → List α}
    (hgroup : ∀ k, ∀ a ∈ group k, key a = k) {keys : List κ} (hkeys : keys.Pairwise (· ≤ ·)) :
    (keys.flatMap group).Pairwise fun a b => key a ≤ key b := by
  induction hkeys with
  | nil => exact .nil
  | @cons k keys hle _ ih =>
    rw [List.flatMap_cons, List.pairwise_append]
    refine ⟨?_, ih, fun a ha b hb => ?_⟩
    · -- within a group the keys are equal
      refine List.Pairwise.imp_of_mem (R := fun _ _ => True) (fun {a b} ha hb _ => ?_)
        (List.pairwise_of_forall fun _ _ => trivial)
      rw [hgroup k a ha, hgroup k b hb]
    · -- a later group has a greater key
      obtain ⟨k', hk', hb⟩ := List.mem_flatMap.mp hb
      rw [hgroup k a ha, hgroup k' b hb]
      exact hle k' hk'

/-! ### Keyed lookup -/

section Keyed

variable [DecidableEq κ]

/-- `{key(x): x for x in l}.get(k)`: a later element replaces an earlier one. -/
def keyedBy (key : α → κ) (l : List α) (k : κ) : Option α :=
  l.reverse.find? fun x => key x = k

/-- What is found is in the list, under that key. -/
theorem keyedBy_some {key : α → κ} {l : List α} {k : κ} {x : α} (h : keyedBy key l k = some x) :
    x ∈ l ∧ key x = k := by
  refine ⟨?_, by simpa using List.find?_some h⟩
  simpa using List.mem_of_find?_eq_some h

/-- A key is found when some element has it. -/
theorem keyedBy_isSome_iff {key : α → κ} {l : List α} {k : κ} :
    (keyedBy key l k).isSome ↔ k ∈ l.map key := by
  simp [keyedBy]

/-- With distinct keys every element is found under its own. -/
theorem keyedBy_of_mem {key : α → κ} {l : List α} (hnodup : (l.map key).Nodup) {x : α}
    (hx : x ∈ l) : keyedBy key l (key x) = some x := by
  have hsome : (keyedBy key l (key x)).isSome := by
    rw [keyedBy_isSome_iff]
    exact List.mem_map_of_mem hx
  obtain ⟨y, hy⟩ := Option.isSome_iff_exists.mp hsome
  obtain ⟨hmem, hkey⟩ := keyedBy_some hy
  rw [hy, List.inj_on_of_nodup_map hnodup hmem hx hkey]

end Keyed

/-! ### Lists that correspond -/

/-- Every element on the right has one on the left it corresponds to. -/
theorem exists_of_mem_right {R : α → β → Prop} {l : List α} {r : List β}
    (h : List.Forall₂ R l r) {b : β} (hb : b ∈ r) : ∃ a ∈ l, R a b := by
  induction h with
  | nil => exact nomatch hb
  | cons hab _ ih =>
    rcases List.mem_cons.mp hb with rfl | hb
    · exact ⟨_, List.mem_cons_self, hab⟩
    · obtain ⟨a, ha, hR⟩ := ih hb
      exact ⟨a, List.mem_cons_of_mem _ ha, hR⟩

/-- Every element on the left has one on the right it corresponds to. -/
theorem exists_of_mem_left {R : α → β → Prop} {l : List α} {r : List β}
    (h : List.Forall₂ R l r) {a : α} (ha : a ∈ l) : ∃ b ∈ r, R a b :=
  exists_of_mem_right h.flip ha

/-- A relation between the elements carries over to what they correspond to. -/
theorem pairwise_of_forall₂ {R : α → β → Prop} {P : α → α → Prop} {Q : β → β → Prop}
    {l : List α} {r : List β} (h : List.Forall₂ R l r)
    (hPQ : ∀ {a b x y}, R a x → R b y → P a b → Q x y) (hl : l.Pairwise P) : r.Pairwise Q := by
  induction h with
  | nil => exact .nil
  | cons hab hrest ih =>
    obtain ⟨hhead, htail⟩ := List.pairwise_cons.mp hl
    refine .cons (fun y hy => ?_) (ih htail)
    obtain ⟨b, hb, hR⟩ := exists_of_mem_right hrest hy
    exact hPQ hab hR (hhead b hb)

/-- An element found under a value that no other element has is at one position. -/
theorem getElem?_inj_of_filterMap_nodup {f : α → Option β} {l : List α}
    (h : (l.filterMap f).Nodup) {i j : Nat} {a b : α} {x : β} (ha : l[i]? = some a)
    (hb : l[j]? = some b) (hfa : f a = some x) (hfb : f b = some x) : i = j := by
  induction l generalizing i j with
  | nil => exact nomatch ha
  | cons c l ih =>
    have hmem : ∀ {k d}, l[k]? = some d → f d = some x → x ∈ l.filterMap f := fun hd hfd =>
      List.mem_filterMap.mpr ⟨_, List.mem_of_getElem? hd, hfd⟩
    have htail : (l.filterMap f).Nodup := (List.sublist_cons_self c l).filterMap f |>.nodup h
    -- the value of the first element does not come again
    have hhead : f c = some x → x ∉ l.filterMap f := fun hc => by
      rw [List.filterMap_cons_some hc] at h
      exact (List.nodup_cons.mp h).1
    cases i with
    | zero =>
      cases ha
      cases j with
      | zero => rfl
      | succ j => exact absurd (hmem hb hfb) (hhead hfa)
    | succ i =>
      cases j with
      | zero =>
        cases hb
        exact absurd (hmem ha hfa) (hhead hfb)
      | succ j => exact congrArg (· + 1) (ih htail ha hb)

/-! ### Picking by position -/

/-- Elements picked at rising positions come in their old order, each at most
    once. -/
theorem filterMap_getElem?_sublist {positions : List Nat} (hpos : positions.Pairwise (· < ·))
    (l : List α) : (positions.filterMap (l[·]?)).Sublist l := by
  suffices h : ∀ k, (∀ i ∈ positions, k ≤ i) → (positions.filterMap (l[·]?)).Sublist (l.drop k) from
    h 0 fun _ _ => Nat.zero_le _
  -- generalized over how much of the list the positions have passed
  induction hpos with
  | nil => exact fun k _ => List.nil_sublist _
  | @cons i rest hlt _ ih =>
    intro k hk
    have hrest : (rest.filterMap (l[·]?)).Sublist (l.drop (i + 1)) := ih (i + 1) hlt
    have hdrop : (l.drop i).Sublist (l.drop k) := by
      rw [← Nat.add_sub_of_le (hk i List.mem_cons_self), ← List.drop_drop]
      exact List.drop_sublist _ _
    rw [List.filterMap_cons]
    split
    · exact (hrest.trans (List.drop_sublist_drop_left l (Nat.le_succ i))).trans hdrop
    · rename_i a ha
      obtain ⟨hi, rfl⟩ := List.getElem?_eq_some_iff.mp ha
      rw [List.drop_eq_getElem_cons hi] at hdrop
      exact (hrest.cons_cons _).trans hdrop

/-- Filtering with positions, and without them, keeps the same elements. -/
theorem map_fst_filter_zipIdx (p : α → Bool) (l : List α) :
    (l.zipIdx.filter fun x => p x.1).map (·.1) = l.filter p := by
  calc (l.zipIdx.filter fun x => p x.1).map (·.1)
    _ = (l.zipIdx.map (·.1)).filter p := by rw [List.filter_map]; rfl
    _ = l.filter p := by rw [List.zipIdx_map_fst]

/-- The positions of the elements that pass a test. -/
def positionsOf (p : α → Bool) (l : List α) : List Nat :=
  (l.zipIdx.filter fun x => p x.1).map (·.2)

/-- The positions come in order. -/
theorem positionsOf_pairwise (p : α → Bool) (l : List α) :
    (positionsOf p l).Pairwise (· < ·) :=
  List.pairwise_map.mpr ((pairwise_zipIdx l).sublist List.filter_sublist)

/-- At each of them is an element with the property. -/
theorem getElem?_of_mem_positionsOf {p : α → Bool} {l : List α} {i : Nat}
    (h : i ∈ positionsOf p l) : ∃ a, l[i]? = some a ∧ p a = true := by
  obtain ⟨⟨a, i⟩, hx, rfl⟩ := List.mem_map.mp h
  obtain ⟨hmem, hp⟩ := List.mem_filter.mp hx
  exact ⟨a, List.mem_zipIdx_iff_getElem?.mp hmem, hp⟩

/-- The positions in a mapped list are those of what maps to the property. -/
theorem positionsOf_map (p : β → Bool) (f : α → β) (l : List α) :
    positionsOf p (l.map f) = positionsOf (fun a => p (f a)) l := by
  unfold positionsOf
  rw [List.zipIdx_map, List.filter_map, List.map_map]
  rfl

/-- The first positions of the elements that pass are the positions of the first. -/
theorem filterMap_take_positionsOf (p : α → Bool) (l : List α) (k : Nat) :
    ((positionsOf p l).take k).filterMap (l[·]?) = (l.filter p).take k := by
  have hpicked : ∀ zs : List (α × Nat), (∀ x ∈ zs, l[x.2]? = some x.1) →
      (zs.map (·.2)).filterMap (l[·]?) = zs.map (·.1) := by
    intro zs hzs
    rw [List.filterMap_map, ← List.filterMap_eq_map]
    exact List.filterMap_congr hzs
  unfold positionsOf
  rw [← List.map_take, hpicked]
  · rw [List.map_take, map_fst_filter_zipIdx]
  · intro x hx
    exact List.mem_zipIdx_iff_getElem?.mp (List.mem_of_mem_filter (List.mem_of_mem_take hx))

/-- There are as many as elements with the property. -/
theorem length_positionsOf (p : α → Bool) (l : List α) :
    (positionsOf p l).length = (l.filter p).length := by
  rw [← map_fst_filter_zipIdx, positionsOf, List.length_map, List.length_map]

/-- Of the elements at some positions in order, those that pass a test are the
    ones at the positions that pass. -/
theorem filter_filterMap_getElem? {p : α → Bool} {l : List α} {s a b : List Nat}
    (hs : s.Pairwise (· ≤ ·)) (hperm : s.Perm (a ++ b)) (ha : a.Pairwise (· < ·))
    (hpass : ∀ i ∈ a, (l[i]?).any p = true) (hfail : ∀ i ∈ b, (l[i]?).any p = false) :
    (s.filterMap (l[·]?)).filter p = a.filterMap (l[·]?) := by
  have hkept : s.filter (fun i => (l[i]?).any p) = a := by
    have hperm' := hperm.filter fun i => (l[i]?).any p
    have hnone : b.filter (fun i => (l[i]?).any p) = [] :=
      List.filter_eq_nil_iff.mpr fun i hi => Bool.eq_false_iff.mp (hfail i hi)
    rw [List.filter_append, List.filter_eq_self.mpr hpass, hnone, List.append_nil] at hperm'
    -- two sorted rearrangements of the same positions are equal
    exact hperm'.eq_of_pairwise (fun i j _ _ hij hji => Nat.le_antisymm hij hji)
      (hs.sublist List.filter_sublist) (ha.imp Nat.le_of_lt)
  rw [← hkept, List.filter_filterMap, List.filterMap_filter]
  apply List.filterMap_congr
  intro i _
  cases l[i]? with
  | none => rfl
  | some x => cases hx : p x <;> simp [Option.filter, hx]

/-! ### Consecutive pairs -/

/-- The pairs `(l[i], l[i+1])`. -/
def pairs : List α → List (α × α)
  | a :: b :: l => (a, b) :: pairs (b :: l)
  | _ => []

/-- There is one pair less than elements. -/
theorem length_pairs (l : List α) : (pairs l).length = l.length - 1 := by
  fun_induction pairs l with
  | case1 a b l ih => simp [ih]
  | case2 l h =>
    match l, h with
    | [], _ => rfl
    | [_], _ => rfl
    | a :: b :: l, h => exact absurd rfl (h a b l)

/-- The pair at a position is of the elements there and next to it. -/
theorem pairs_getElem (l : List α) (i : Nat) (h : i + 1 < l.length) :
    (pairs l)[i]? = some (l[i], l[i + 1]) := by
  induction l generalizing i with
  | nil => exact absurd h (Nat.not_lt_zero _)
  | cons a l ih =>
    cases l with
    | nil => simp at h
    | cons b l =>
      cases i with
      | zero => rfl
      | succ i => exact ih i (Nat.lt_of_succ_lt_succ h)

/-- What stands at a position of the pairs are the elements there and next. -/
theorem getElem?_pairs_eq_some {l : List α} {i : Nat} {a b : α} :
    (pairs l)[i]? = some (a, b) ↔ l[i]? = some a ∧ l[i + 1]? = some b := by
  induction l generalizing i with
  | nil => simp [pairs]
  | cons x l ih =>
    cases l with
    | nil => simp [pairs]
    | cons y l =>
      cases i with
      | zero => simp [pairs]
      | succ i => simpa [pairs] using ih

/-- The first of a pair is in the list. -/
theorem fst_mem_of_mem_pairs {l : List α} {p : α × α} (h : p ∈ pairs l) : p.1 ∈ l := by
  fun_induction pairs l with
  | case1 a b l ih =>
    rcases List.mem_cons.mp h with rfl | h
    · exact List.mem_cons_self
    · exact List.mem_cons_of_mem _ (ih h)
  | case2 => exact nomatch h

/-- So is the second. -/
theorem snd_mem_of_mem_pairs {l : List α} {p : α × α} (h : p ∈ pairs l) : p.2 ∈ l := by
  fun_induction pairs l with
  | case1 a b l ih =>
    rcases List.mem_cons.mp h with rfl | h
    · exact List.mem_cons_of_mem _ List.mem_cons_self
    · exact List.mem_cons_of_mem _ (ih h)
  | case2 => exact absurd h List.not_mem_nil

/-- An element put in front makes a pair with the head. -/
theorem mem_pairs_cons {a b : α} {l : List α} (hb : b ∈ l.head?) : (a, b) ∈ pairs (a :: l) := by
  cases l with
  | nil => exact nomatch hb
  | cons c l =>
    cases hb
    exact List.mem_cons_self

/-- The pairs of a tail are pairs of the list. -/
theorem pairs_subset_cons (a : α) (l : List α) : pairs l ⊆ pairs (a :: l) := by
  cases l with
  | nil => exact List.Subset.refl _
  | cons b l => exact List.subset_cons_self _ _

/-- The pairs of a mapped list are the pairs, mapped. -/
theorem pairs_map {f : α → β} (l : List α) :
    pairs (l.map f) = (pairs l).map fun p => (f p.1, f p.2) := by
  fun_induction pairs l with
  | case1 a b l ih => simpa [pairs] using ih
  | case2 l h =>
    match l, h with
    | [], _ => rfl
    | [_], _ => rfl
    | a :: b :: l, h => exact absurd rfl (h a b l)

/-- The left half of a zip. -/
theorem map_fst_zip_sublist (l : List α) (r : List β) : ((l.zip r).map Prod.fst).Sublist l := by
  induction l generalizing r with
  | nil => exact List.nil_sublist _
  | cons a l ih =>
    cases r with
    | nil => exact List.nil_sublist _
    | cons b r => exact (ih r).cons_cons a

/-- The pairs begin at different elements if the elements are distinct. -/
theorem nodup_pairs {l : List α} (h : l.Nodup) : (pairs l).Nodup := by
  induction l with
  | nil => exact .nil
  | cons a l ih =>
    cases l with
    | nil => exact .nil
    | cons b l =>
      obtain ⟨ha, hl⟩ := List.nodup_cons.mp h
      refine List.nodup_cons.mpr ⟨fun hmem => ha ?_, ih hl⟩
      exact fst_mem_of_mem_pairs hmem

/-- Where one list is read off the pairs of another, each pair's left half stands
    beside what was read off it. -/
theorem exists_mem_zip_of_pairs {R : α × α → β → Prop} {l : List α} {r : List β}
    (h : List.Forall₂ R (pairs l) r) {p : α × α} (hp : p ∈ pairs l) :
    ∃ b, (p.1, b) ∈ l.zip r ∧ R p b := by
  fun_induction pairs l generalizing r with
  | case1 x y l ih =>
    cases h with
    | cons hhead htail =>
      rcases List.mem_cons.mp hp with rfl | hp
      · exact ⟨_, List.mem_cons_self, hhead⟩
      · obtain ⟨b, hb, hR⟩ := ih htail hp
        exact ⟨b, List.mem_cons_of_mem _ hb, hR⟩
  | case2 => exact absurd hp List.not_mem_nil

/-! ### Runs of a sorted list -/

/-- In a sorted list the first element has the least key there is. -/
theorem head_key_eq [LinearOrder κ] (key : α → κ) {x : α} {l : List α} {k : κ}
    (hsorted : (x :: l).Pairwise fun a b => key a ≤ key b) (hk : k ≤ key x) {y : α}
    (hy : y ∈ x :: l) (hkey : key y = k) : key x = k := by
  rcases List.mem_cons.mp hy with rfl | hy
  · exact hkey
  · exact le_antisymm (hkey ▸ List.rel_of_pairwise_cons hsorted hy) hk

/-- The elements of one key stand side by side in a sorted list. -/
theorem pairs_filter_subset [LinearOrder κ] {key : α → κ} {l : List α}
    (hsorted : l.Pairwise fun a b => key a ≤ key b) (k : κ) :
    pairs (l.filter fun a => key a = k) ⊆ pairs l := by
  induction l with
  | nil => exact List.Subset.refl _
  | cons x l ih =>
    have hl := ih (List.pairwise_cons.mp hsorted).2
    by_cases hx : key x = k
    · rw [List.filter_cons_of_pos (by simpa using hx)]
      cases l with
      | nil => exact List.Subset.refl _
      | cons z l =>
        by_cases hz : key z = k
        · rw [List.filter_cons_of_pos (by simpa using hz)] at hl ⊢
          exact List.cons_subset_cons _ hl
        · -- the run of the key has ended
          have hnone : (z :: l).filter (fun a => key a = k) = [] := by
            refine List.filter_eq_nil_iff.mpr fun y hy hkey => hz ?_
            exact head_key_eq key (List.pairwise_cons.mp hsorted).2
              (hx ▸ List.rel_of_pairwise_cons hsorted List.mem_cons_self) hy (of_decide_eq_true hkey)
          rw [hnone]
          exact List.nil_subset _
    · -- the head is of another key
      rw [List.filter_cons_of_neg (by simpa using hx)]
      exact List.Subset.trans hl (pairs_subset_cons x l)

/-- A filter that undoes a constructor keeps what that constructor made. -/
theorem mem_filterMap_iff_of {α β : Type} {f : α → Option β} {g : β → α}
    (hf : ∀ a b, f a = some b ↔ a = g b) {l : List α} {b : β} :
    b ∈ l.filterMap f ↔ g b ∈ l := by
  simp [List.mem_filterMap, hf]

/-! ### Joined lists -/

/-- Lists of the same lengths one by one are joined to the same length. -/
theorem length_intercalate_eq {α : Type} {sep : List α} {l l' : List (List α)}
    (h : List.Forall₂ (fun a b => a.length = b.length) l l') :
    (sep.intercalate l).length = (sep.intercalate l').length := by
  induction h with
  | nil => rfl
  | @cons a b l l' hab hl ih =>
    cases hl with
    | nil => simpa using hab
    | cons _ hl =>
      rw [List.intercalate_cons_cons, List.intercalate_cons_cons, List.length_append,
        List.length_append, List.length_append, List.length_append, hab, ih]

/-- Lists of the same lengths joined are equal only if each is. -/
theorem intercalate_inj {α : Type} {sep : List α} {l l' : List (List α)}
    (h : List.Forall₂ (fun a b => a.length = b.length) l l')
    (heq : sep.intercalate l = sep.intercalate l') : l = l' := by
  induction h with
  | nil => rfl
  | @cons a b l l' hab hl ih =>
    cases hl with
    | nil => simpa using heq
    | cons _ hl =>
      rw [List.intercalate_cons_cons, List.intercalate_cons_cons, List.append_assoc,
        List.append_assoc] at heq
      obtain ⟨rfl, hrest⟩ := List.append_inj heq hab
      rw [ih (List.append_cancel_left hrest)]

end MapServiceAgent
