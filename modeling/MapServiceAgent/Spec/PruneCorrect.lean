import MapServiceAgent.Native.PromptJson

/-!
# Pruning keeps every leaf

What a prompt shows of a value are its leaves: numbers, booleans and texts that
are not empty. Pruning takes out the parts that hold no leaf, and nothing else,
so the leaves stand where they stood and no empty value is left below the top.

## Key results

- `PromptValue.leaves_prune`: the same leaves, in order, the same way down
- `PromptValue.cut_iff`: pruning takes out the parts without a leaf, only them
- `PromptValue.prune_ofJson`: on decoded JSON it is the pruning of the prompts
- `prune_keeps_leaves`: the whole of it
-/

namespace MapServiceAgent.Native

namespace PromptValue

/-! ### Leaves -/

/-- One step down into a container: to the value under a key, or to an element. -/
inductive Step where
  | key (k : String)
  | elem
deriving DecidableEq, Repr

/-- One step further down for each of the leaves. -/
def stepDown (step : Step) (leaves : List (List Step × PromptValue)) :
    List (List Step × PromptValue) :=
  leaves.map fun leaf => (step :: leaf.1, leaf.2)

mutual

/-- The leaves of a value in order, each with the way down to it. -/
def leaves : PromptValue → List (List Step × PromptValue)
  | null => []
  | str s => if s = "" then [] else [([], str s)]
  | list l => elemLeaves l
  | tuple l => elemLeaves l
  | dict m => fieldLeaves m
  | v => [([], v)]

/-- The leaves of a list, each one step down. -/
def elemLeaves : List PromptValue → List (List Step × PromptValue)
  | [] => []
  | v :: vs => stepDown .elem v.leaves ++ elemLeaves vs

/-- The leaves of a dictionary, each under its key. -/
def fieldLeaves : List (String × PromptValue) → List (List Step × PromptValue)
  | [] => []
  | (k, v) :: fs => stepDown (.key k) v.leaves ++ fieldLeaves fs

end

/-- Some leaf is in the value. -/
def HasLeaf (v : PromptValue) : Prop := v.leaves ≠ []

mutual

/-- No value of a dictionary and no element of a list is empty, at any depth. -/
def Trimmed : PromptValue → Prop
  | list l => TrimmedElems l
  | tuple l => TrimmedElems l
  | dict m => TrimmedFields m
  | _ => True

/-- Nothing empty is among the elements, nor inside them. -/
def TrimmedElems : List PromptValue → Prop
  | [] => True
  | v :: vs => v.isEmpty = false ∧ v.Trimmed ∧ TrimmedElems vs

/-- Nothing empty is among the values of the fields, nor inside them. -/
def TrimmedFields : List (String × PromptValue) → Prop
  | [] => True
  | (_, v) :: fs => v.isEmpty = false ∧ v.Trimmed ∧ TrimmedFields fs

end

mutual

/-- `Cut v w`: at every depth `w` has the entries and elements of `v` that hold a
    leaf, in order and under the same keys, and no others; tuples became lists. -/
inductive Cut : PromptValue → PromptValue → Prop where
  | null : Cut null null
  | bool (b : Bool) : Cut (bool b) (bool b)
  | int (i : Int) : Cut (int i) (int i)
  | float (x : PyFloat) : Cut (float x) (float x)
  | str (s : String) : Cut (str s) (str s)
  | list {l l' : List PromptValue} (h : CutElems l l') : Cut (list l) (list l')
  | tuple {l l' : List PromptValue} (h : CutElems l l') : Cut (tuple l) (list l')
  | dict {m m' : List (String × PromptValue)} (h : CutFields m m') : Cut (dict m) (dict m')

/-- The elements without a leaf are dropped, the others are cut in turn. -/
inductive CutElems : List PromptValue → List PromptValue → Prop where
  | nil : CutElems [] []
  | keep {v w : PromptValue} {l l' : List PromptValue} (hleaf : v.HasLeaf) (hv : Cut v w)
    (hl : CutElems l l') : CutElems (v :: l) (w :: l')
  | drop {v : PromptValue} {l l' : List PromptValue} (hleaf : ¬ v.HasLeaf)
    (hl : CutElems l l') : CutElems (v :: l) l'

/-- The fields whose value has no leaf are dropped, the others are cut in turn. -/
inductive CutFields : List (String × PromptValue) → List (String × PromptValue) → Prop where
  | nil : CutFields [] []
  | keep {k : String} {v w : PromptValue} {m m' : List (String × PromptValue)}
    (hleaf : v.HasLeaf) (hv : Cut v w) (hm : CutFields m m') :
    CutFields ((k, v) :: m) ((k, w) :: m')
  | drop {k : String} {v : PromptValue} {m m' : List (String × PromptValue)}
    (hleaf : ¬ v.HasLeaf) (hm : CutFields m m') : CutFields ((k, v) :: m) m'

end

/-! ### The leaves stay -/

/-- What is empty has no leaf. -/
theorem leaves_of_isEmpty {v : PromptValue} (h : v.isEmpty = true) : v.leaves = [] := by
  cases v with
  | null => rfl
  | str s => rw [leaves, if_pos (by simpa [isEmpty] using h)]
  | list l | tuple l =>
    rw [List.isEmpty_iff.mp h]
    rfl
  | dict m =>
    rw [List.isEmpty_iff.mp h]
    rfl
  | bool _ | int _ | float _ => cases h

mutual

/-- The same leaves, in order, the same way down. -/
theorem leaves_prune : ∀ v : PromptValue, v.prune.leaves = v.leaves
  | dict m => by rw [prune, leaves, leaves, fieldLeaves_pruneFields m]
  | list l => by rw [prune, leaves, leaves, elemLeaves_pruneElems l]
  | tuple l => by rw [prune, leaves, leaves, elemLeaves_pruneElems l]
  | null | bool _ | int _ | float _ | str _ => rfl

/-- Pruning the elements of a list leaves its leaves. -/
theorem elemLeaves_pruneElems : ∀ l : List PromptValue,
    elemLeaves (pruneElems l) = elemLeaves l
  | [] => rfl
  | v :: vs => by
    rw [pruneElems, elemLeaves, ← leaves_prune v, ← elemLeaves_pruneElems vs]
    split
    · -- what is dropped has no leaf
      rename_i hempty
      rw [leaves_of_isEmpty hempty]
      rfl
    · rw [elemLeaves]

/-- Pruning the fields of a dictionary leaves its leaves. -/
theorem fieldLeaves_pruneFields : ∀ m : List (String × PromptValue),
    fieldLeaves (pruneFields m) = fieldLeaves m
  | [] => rfl
  | (k, v) :: fs => by
    rw [pruneFields, fieldLeaves, ← leaves_prune v, ← fieldLeaves_pruneFields fs]
    split
    · -- what is dropped has no leaf
      rename_i hempty
      rw [leaves_of_isEmpty hempty]
      rfl
    · rw [fieldLeaves]

end

/-! ### Nothing empty is left -/

mutual

/-- Nothing empty is left in what was pruned. -/
theorem trimmed_prune : ∀ v : PromptValue, v.prune.Trimmed
  | dict m => by
    rw [prune]
    exact trimmedFields_pruneFields m
  | list l | tuple l => by
    rw [prune]
    exact trimmedElems_pruneElems l
  | null | bool _ | int _ | float _ | str _ => trivial

/-- Nor in the elements that are left. -/
theorem trimmedElems_pruneElems : ∀ l : List PromptValue, TrimmedElems (pruneElems l)
  | [] => trivial
  | v :: vs => by
    rw [pruneElems]
    split
    · exact trimmedElems_pruneElems vs
    · -- what is kept is not empty
      rename_i hkept
      exact ⟨by simpa using hkept, trimmed_prune v, trimmedElems_pruneElems vs⟩

/-- Nor in the fields. -/
theorem trimmedFields_pruneFields : ∀ m : List (String × PromptValue),
    TrimmedFields (pruneFields m)
  | [] => trivial
  | (k, v) :: fs => by
    rw [pruneFields]
    split
    · exact trimmedFields_pruneFields fs
    · rename_i hkept
      exact ⟨by simpa using hkept, trimmed_prune v, trimmedFields_pruneFields fs⟩

end

/-- Leaves that are there are there one step down. -/
theorem stepDown_append_ne_nil {step : Step} {ls rest : List (List Step × PromptValue)}
    (h : ls ≠ []) : stepDown step ls ++ rest ≠ [] := by
  simp [stepDown, h]

mutual

/-- Where nothing below is empty, what is not empty itself holds a leaf. -/
theorem hasLeaf_of_trimmed : ∀ v : PromptValue, v.Trimmed → v.isEmpty = false → v.HasLeaf
  | dict m => fun htrimmed hne => fieldLeaves_ne_nil m htrimmed (by simpa [isEmpty] using hne)
  | list l | tuple l => fun htrimmed hne =>
    elemLeaves_ne_nil l htrimmed (by simpa [isEmpty] using hne)
  | str s => fun _ hne => by
    rw [HasLeaf, leaves, if_neg (by simpa [isEmpty] using hne)]
    exact List.cons_ne_nil _ _
  | null => fun _ hne => by cases hne
  | bool _ | int _ | float _ => fun _ _ => List.cons_ne_nil _ _

/-- A trimmed list that is not empty has a leaf. -/
theorem elemLeaves_ne_nil : ∀ l : List PromptValue, TrimmedElems l → l ≠ [] → elemLeaves l ≠ []
  | [] => fun _ hne => absurd rfl hne
  | v :: _ => fun htrimmed _ =>
    stepDown_append_ne_nil (hasLeaf_of_trimmed v htrimmed.2.1 htrimmed.1)

/-- So has a trimmed dictionary. -/
theorem fieldLeaves_ne_nil : ∀ m : List (String × PromptValue),
    TrimmedFields m → m ≠ [] → fieldLeaves m ≠ []
  | [] => fun _ hne => absurd rfl hne
  | (_, v) :: _ => fun htrimmed _ =>
    stepDown_append_ne_nil (hasLeaf_of_trimmed v htrimmed.2.1 htrimmed.1)

end

/-- What is dropped is what holds no leaf. -/
theorem isEmpty_prune_iff (v : PromptValue) : v.prune.isEmpty = true ↔ ¬ v.HasLeaf := by
  rw [HasLeaf, not_not, ← leaves_prune]
  constructor
  · exact leaves_of_isEmpty
  · intro hleaves
    by_contra hne
    exact hasLeaf_of_trimmed v.prune (trimmed_prune v) (by simpa using hne) hleaves

/-! ### Pruning twice -/

mutual

/-- Pruning again changes nothing. -/
theorem prune_prune : ∀ v : PromptValue, v.prune.prune = v.prune
  | dict m => by rw [prune, prune, pruneFields_pruneFields m]
  | list l | tuple l => by rw [prune, prune, pruneElems_pruneElems l]
  | null | bool _ | int _ | float _ | str _ => rfl

/-- Nor does it in a list. -/
theorem pruneElems_pruneElems : ∀ l : List PromptValue,
    pruneElems (pruneElems l) = pruneElems l
  | [] => rfl
  | v :: vs => by
    rw [pruneElems]
    split
    · exact pruneElems_pruneElems vs
    · -- what is kept is kept again
      rename_i hkept
      rw [pruneElems, prune_prune v, if_neg hkept, pruneElems_pruneElems vs]

/-- Nor in a dictionary. -/
theorem pruneFields_pruneFields : ∀ m : List (String × PromptValue),
    pruneFields (pruneFields m) = pruneFields m
  | [] => rfl
  | (k, v) :: fs => by
    rw [pruneFields]
    split
    · exact pruneFields_pruneFields fs
    · rename_i hkept
      rw [pruneFields, prune_prune v, if_neg hkept, pruneFields_pruneFields fs]

end

/-! ### Nothing else is taken out -/

mutual

/-- What is pruned is cut. -/
theorem cut_prune : ∀ v : PromptValue, Cut v v.prune
  | dict m => by
    rw [prune]
    exact .dict (cutFields_pruneFields m)
  | list l => by
    rw [prune]
    exact .list (cutElems_pruneElems l)
  | tuple l => by
    rw [prune]
    -- a tuple comes out as a list
    exact .tuple (cutElems_pruneElems l)
  | null => .null
  | bool b => .bool b
  | int i => .int i
  | float x => .float x
  | str s => .str s

/-- So are the elements of a list. -/
theorem cutElems_pruneElems : ∀ l : List PromptValue, CutElems l (pruneElems l)
  | [] => .nil
  | v :: vs => by
    rw [pruneElems]
    split
    · -- it is dropped for having no leaf
      rename_i hempty
      exact .drop ((isEmpty_prune_iff v).mp hempty) (cutElems_pruneElems vs)
    · -- it is kept for having one
      rename_i hkept
      have hleaf : v.HasLeaf := not_not.mp ((isEmpty_prune_iff v).not.mp hkept)
      exact .keep hleaf (cut_prune v) (cutElems_pruneElems vs)

/-- And the fields of a dictionary. -/
theorem cutFields_pruneFields : ∀ m : List (String × PromptValue), CutFields m (pruneFields m)
  | [] => .nil
  | (k, v) :: fs => by
    rw [pruneFields]
    split
    · rename_i hempty
      exact .drop ((isEmpty_prune_iff v).mp hempty) (cutFields_pruneFields fs)
    · rename_i hkept
      have hleaf : v.HasLeaf := not_not.mp ((isEmpty_prune_iff v).not.mp hkept)
      exact .keep hleaf (cut_prune v) (cutFields_pruneFields fs)

end

mutual

/-- What the parts with a leaf are leaves no choice. -/
theorem eq_prune_of_cut : ∀ {v w : PromptValue}, Cut v w → w = v.prune
  | dict m, _, h => by
    cases h with
    | dict hm => rw [prune, eq_pruneFields_of_cut hm]
  | list l, _, h => by
    cases h with
    | list hl => rw [prune, eq_pruneElems_of_cut hl]
  | tuple l, _, h => by
    cases h with
    | tuple hl => rw [prune, eq_pruneElems_of_cut hl]
  | null, _, h => by
    cases h
    rfl
  | bool _, _, h | int _, _, h | float _, _, h | str _, _, h => by
    cases h
    rfl

/-- A list is cut in one way only. -/
theorem eq_pruneElems_of_cut : ∀ {l l' : List PromptValue}, CutElems l l' → l' = pruneElems l
  | [], _, h => by
    cases h
    rfl
  | v :: vs, _, h => by
    rw [pruneElems]
    cases h with
    | keep hleaf hv hl =>
      rw [if_neg ((isEmpty_prune_iff v).not.mpr (not_not.mpr hleaf)), eq_prune_of_cut hv,
        eq_pruneElems_of_cut hl]
    | drop hleaf hl => rw [if_pos ((isEmpty_prune_iff v).mpr hleaf), eq_pruneElems_of_cut hl]

/-- So is a dictionary. -/
theorem eq_pruneFields_of_cut : ∀ {m m' : List (String × PromptValue)},
    CutFields m m' → m' = pruneFields m
  | [], _, h => by
    cases h
    rfl
  | (k, v) :: fs, _, h => by
    rw [pruneFields]
    cases h with
    | keep hleaf hv hm =>
      rw [if_neg ((isEmpty_prune_iff v).not.mpr (not_not.mpr hleaf)), eq_prune_of_cut hv,
        eq_pruneFields_of_cut hm]
    | drop hleaf hm => rw [if_pos ((isEmpty_prune_iff v).mpr hleaf), eq_pruneFields_of_cut hm]

end

/-- Pruning takes out the parts without a leaf, and only them. -/
theorem cut_iff {v w : PromptValue} : Cut v w ↔ w = v.prune := by
  constructor
  · exact eq_prune_of_cut
  · rintro rfl
    exact cut_prune v

/-! ### Decoded JSON -/

/-- A JSON value is empty in the prompt where it is in JSON. -/
theorem isEmpty_ofJson (v : Json) : (ofJson v).isEmpty = isEmptyValue v := by
  cases v with
  | arr l => cases l <;> rfl
  | obj m =>
    cases m with
    | nil => rfl
    | cons f m => rfl
  | _ => rfl

mutual

/-- On decoded JSON it is the pruning of the prompts. -/
theorem prune_ofJson : ∀ v : Json, (ofJson v).prune = ofJson (pruneEmpty v)
  | .obj m => by rw [ofJson, prune, pruneFields_ofFields m, pruneEmpty, ofJson]
  | .arr l => by rw [ofJson, prune, pruneElems_ofElems l, pruneEmpty, ofJson]
  | .null | .bool _ | .int _ | .float _ | .str _ => rfl

/-- Pruning JSON elements in the prompt is pruning them in JSON. -/
theorem pruneElems_ofElems : ∀ l : List Json,
    pruneElems (ofElems l) = ofElems (Native.pruneElems l)
  | [] => rfl
  | v :: vs => by
    rw [ofElems, pruneElems, Native.pruneElems, prune_ofJson v, isEmpty_ofJson,
      pruneElems_ofElems vs]
    split
    · rfl
    · rw [ofElems]

/-- So is pruning the fields of an object. -/
theorem pruneFields_ofFields : ∀ m : List (String × Json),
    pruneFields (ofFields m) = ofFields (Native.pruneFields m)
  | [] => rfl
  | (k, v) :: fs => by
    rw [ofFields, pruneFields, Native.pruneFields, prune_ofJson v, isEmpty_ofJson,
      pruneFields_ofFields fs]
    split
    · rfl
    · rw [ofFields]

end

end PromptValue

/-- Below the top nothing empty is left, pruning again changes nothing, the leaves
    are the same, each the same way down, and at every depth what is gone are the
    entries and elements that hold no leaf. -/
theorem prune_keeps_leaves (v : PromptValue) :
    v.prune.Trimmed ∧ v.prune.prune = v.prune ∧ v.prune.leaves = v.leaves ∧
      ∀ w, PromptValue.Cut v w ↔ w = v.prune :=
  ⟨v.trimmed_prune, v.prune_prune, v.leaves_prune, fun _ => PromptValue.cut_iff⟩

end MapServiceAgent.Native
