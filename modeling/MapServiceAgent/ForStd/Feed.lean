import Mathlib.Data.List.Infix
import Mathlib.Tactic.Common

/-!
# Feeds read by a group

An append-only stream that may forget its oldest entries, and a group of readers
that share one cursor. An entry has the place it was added at. A reader is handed
what the group has not got yet, in order; what is forgotten before is lost to it.

## Key results

- `delivered_run`: what one reader is handed, in any run
- `delivered_quiet`: all of it, when nothing is lost and nobody else reads
-/

namespace MapServiceAgent

/-- A stream and the cursor of one group. -/
structure Feed (α : Type) where
  /-- All entries ever added, the oldest first. -/
  added : List α := []
  /-- The entries before this place are forgotten. -/
  trimmed : Nat := 0
  /-- The entries before this place are no news to the group. -/
  cursor : Nat := 0
  trimmed_le : trimmed ≤ added.length := by simp
  cursor_le : cursor ≤ added.length := by simp

namespace Feed

variable {α : Type}

/-- Where the news begin. -/
def start (f : Feed α) : Nat := max f.cursor f.trimmed

/-- The entries the group has not got, if the stream still has them. -/
def unread (f : Feed α) : List α := f.added.drop f.start

/-- What is read was added. -/
theorem start_add_le (f : Feed α) (count : Nat) :
    f.start + (f.unread.take count).length ≤ f.added.length := by
  have hstart : f.start ≤ f.added.length := Nat.max_le.mpr ⟨f.cursor_le, f.trimmed_le⟩
  rw [List.length_take, unread, List.length_drop]
  omega

/-- A group that begins with what is added next. -/
def fromEnd (f : Feed α) : Feed α := { f with cursor := f.added.length, cursor_le := le_rfl }

/-- One more element, with what was trimmed and read as it was. -/
def add (f : Feed α) (x : α) : Feed α :=
  { f with
    added := f.added ++ [x]
    trimmed_le := f.trimmed_le.trans (by simp)
    cursor_le := f.cursor_le.trans (by simp) }

/-- Forget what was added before a place. -/
def trim (f : Feed α) (place : Nat) : Feed α :=
  { f with
    trimmed := max f.trimmed (min place f.added.length)
    trimmed_le := Nat.max_le.mpr ⟨f.trimmed_le, Nat.min_le_right ..⟩ }

/-- The next `count` entries, and the cursor past them. -/
def read (f : Feed α) (count : Nat) : List α × Feed α :=
  let got := f.unread.take count
  (got, if got = [] then f
    else { f with cursor := f.start + got.length, cursor_le := f.start_add_le count })

/-- What happens to a feed. -/
inductive Event (α : Type) where
  | add (x : α)
  /-- The stream forgets what was added before a place. -/
  | trim (place : Nat)
  /-- A reader of the group asks for entries: the one we follow, or another. -/
  | read (ours : Bool) (count : Nat)

/-- What the reader we follow is handed by an event, and the feed after it. -/
def step (f : Feed α) : Event α → List α × Feed α
  | .add x => ([], f.add x)
  | .trim place => ([], f.trim place)
  | .read ours count => (if ours then (f.read count).1 else [], (f.read count).2)

/-- What the reader is handed in a run, and the feed after it. -/
def run (f : Feed α) : List (Event α) → List α × Feed α
  | [] => ([], f)
  | e :: es => ((f.step e).1 ++ ((f.step e).2.run es).1, ((f.step e).2.run es).2)

/-- The entries a run adds. -/
def adds (es : List (Event α)) : List α :=
  es.filterMap fun
    | .add x => some x
    | _ => none

/-- Reading adds nothing. -/
theorem added_read (f : Feed α) (count : Nat) : (f.read count).2.added = f.added := by
  unfold read
  dsimp only
  split <;> rfl

/-- The stream holds what was added. -/
theorem added_run (f : Feed α) (es : List (Event α)) :
    (f.run es).2.added = f.added ++ adds es := by
  induction es generalizing f with
  | nil => simp [run, adds]
  | cons e es ih =>
    rw [run, ih]
    cases e with
    | add x => simp [step, adds, add]
    | trim place => simp [step, adds, trim]
    | read ours count => simp [step, adds, added_read]

/-! ### Stretches -/

/-- The entries from place `a` on and before place `b`. -/
def slice (l : List α) (a b : Nat) : List α := (l.drop a).take (b - a)

/-- Between a position and itself there is nothing. -/
theorem slice_self (l : List α) (a : Nat) : slice l a a = [] := by
  rw [slice, Nat.sub_self, List.take_zero]

/-- Two slices that meet are one. -/
theorem slice_append_slice (l : List α) {a b c : Nat} (hab : a ≤ b) (hbc : b ≤ c) :
    slice l a b ++ slice l b c = slice l a c := by
  have hlen : c - a = (b - a) + (c - b) := by omega
  have hplace : a + (b - a) = b := by omega
  rw [slice, slice, slice, hlen, List.take_add, List.drop_drop, hplace]

/-- A slice of what was there is not changed by what comes after. -/
theorem slice_append_left (l l' : List α) (a : Nat) {b : Nat} (hb : b ≤ l.length) :
    slice (l ++ l') a b = slice l a b := by
  rcases Nat.le_total a b with hab | hba
  · rw [slice, slice, List.drop_append_of_le_length (hab.trans hb), List.take_append_of_le_length]
    rw [List.length_drop]
    omega
  · rw [slice, slice, Nat.sub_eq_zero_of_le hba, List.take_zero, List.take_zero]

/-! ### Any run -/

/-- Whatever is read is some of the stretch the cursor moves over, and all of it if
    the stream has not forgotten any news. -/
theorem read_spec (f : Feed α) (count : Nat) :
    f.cursor ≤ (f.read count).2.cursor ∧
      (f.read count).1.Sublist (slice f.added f.cursor (f.read count).2.cursor) ∧
      (f.trimmed ≤ f.cursor →
        (f.read count).1 = slice f.added f.cursor (f.read count).2.cursor) := by
  by_cases hgot : f.unread.take count = []
  · simp only [read, hgot, if_true, slice_self]
    exact ⟨le_rfl, List.Sublist.refl _, fun _ => trivial⟩
  · have hcursor : f.cursor ≤ f.start := Nat.le_max_left ..
    -- what is handed over is the stretch from where the news begin
    have hslice : f.unread.take count =
        slice f.added f.start (f.start + (f.unread.take count).length) := by
      rw [slice, Nat.add_sub_cancel_left]
      exact List.prefix_iff_eq_take.mp (List.take_prefix count f.unread)
    simp only [read, hgot, if_false]
    refine ⟨hcursor.trans (Nat.le_add_right ..), ?_, fun htrim => ?_⟩
    · rw [← slice_append_slice f.added hcursor (Nat.le_add_right ..), ← hslice]
      exact List.sublist_append_right ..
    · have hsame : f.start = f.cursor := Nat.max_eq_left htrim
      rw [hsame] at hslice ⊢
      exact hslice

/-- An event moves the cursor over what the reader is handed, and more if others
    read too or news are forgotten. -/
theorem step_spec (f : Feed α) (e : Event α) :
    f.cursor ≤ (f.step e).2.cursor ∧
      (f.step e).1.Sublist (slice (f.step e).2.added f.cursor (f.step e).2.cursor) := by
  cases e with
  | add x => exact ⟨le_rfl, List.nil_sublist _⟩
  | trim place => exact ⟨le_rfl, List.nil_sublist _⟩
  | read ours count =>
    obtain ⟨hle, hsub, -⟩ := read_spec f count
    simp only [step, added_read]
    refine ⟨hle, ?_⟩
    split
    · exact hsub
    · exact List.nil_sublist _

/-- The stretch a step moves over, in what the stream holds at the end. -/
theorem slice_run (f : Feed α) (a : Nat) (es : List (Event α)) :
    slice (f.run es).2.added a f.cursor = slice f.added a f.cursor := by
  rw [added_run, slice_append_left _ _ _ f.cursor_le]

/-- What the reader is handed in a run comes from the stretch the cursor has moved
    over, in its order and none of it twice. -/
theorem delivered_run (f : Feed α) (es : List (Event α)) :
    f.cursor ≤ (f.run es).2.cursor ∧
      (f.run es).1.Sublist (slice (f.run es).2.added f.cursor (f.run es).2.cursor) := by
  induction es generalizing f with
  | nil => exact ⟨le_rfl, List.nil_sublist _⟩
  | cons e es ih =>
    obtain ⟨hle, hsub⟩ := step_spec f e
    obtain ⟨hle', hsub'⟩ := ih (f.step e).2
    refine ⟨hle.trans hle', ?_⟩
    simp only [run]
    rw [← slice_append_slice _ hle hle', slice_run]
    exact hsub.append hsub'

/-! ### Runs without loss -/

/-- Nobody else reads, and nothing is forgotten before it is read. -/
def Quiet : Feed α → List (Event α) → Prop
  | _, [] => True
  | f, e :: es =>
    (match e with
    | .add _ => True
    | .trim place => place ≤ f.cursor
    | .read ours _ => ours = true) ∧ Quiet (f.step e).2 es

/-- Without loss, the reader is handed all the cursor has moved over. -/
theorem delivered_quiet {f : Feed α} (htrim : f.trimmed ≤ f.cursor) {es : List (Event α)}
    (hquiet : Quiet f es) :
    (f.run es).1 = slice (f.run es).2.added f.cursor (f.run es).2.cursor := by
  induction es generalizing f with
  | nil => exact (slice_self ..).symm
  | cons e es ih =>
    obtain ⟨hle, -⟩ := step_spec f e
    obtain ⟨hle', -⟩ := delivered_run (f.step e).2 es
    obtain ⟨he, hquiet⟩ := hquiet
    -- one step hands over its own stretch, and forgets no news
    have hstep : (f.step e).1 = slice (f.step e).2.added f.cursor (f.step e).2.cursor ∧
        (f.step e).2.trimmed ≤ (f.step e).2.cursor := by
      cases e with
      | add x => exact ⟨(slice_self ..).symm, htrim⟩
      -- only what was read is trimmed
      | trim place =>
        exact ⟨(slice_self ..).symm, Nat.max_le.mpr ⟨htrim, (Nat.min_le_left ..).trans he⟩⟩
      | read ours count =>
        obtain ⟨hread, -, hall⟩ := read_spec f count
        simp only [step, added_read]
        refine ⟨by rw [if_pos he]; exact hall htrim, ?_⟩
        have hsame : (f.read count).2.trimmed = f.trimmed := by
          unfold read
          dsimp only
          split <;> rfl
        rw [hsame]
        exact htrim.trans hread
    simp only [run]
    rw [← slice_append_slice _ hle hle', slice_run, ih hstep.2 hquiet, hstep.1]

end Feed

end MapServiceAgent
