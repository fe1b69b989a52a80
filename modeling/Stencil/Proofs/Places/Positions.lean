import Mathlib.Data.List.Induction
import Stencil.Text.Position
/-!
# Positions in an excerpt

An excerpt that is read by itself begins at the first line and column. In the text that it is taken
from, everything in it is shifted by the place where it begins. Shifting is associative, so it makes
no difference whether an excerpt of an excerpt is shifted once or twice.
-/
namespace Stencil.Text.Position

variable {base outer pos : Position} {s : List Char}

/-- Lines and columns count from one. -/
structure Counts (pos : Position) : Prop where
  line : 1 ≤ pos.line
  column : 1 ≤ pos.column

theorem counts_start : start.Counts := ⟨Nat.le_refl 1, Nat.le_refl 1⟩

theorem Counts.step (counts : pos.Counts) (c : Char) : (pos.step c).Counts := by
  unfold Position.step
  split
  · exact ⟨Nat.le_add_left 1 _, Nat.le_refl 1⟩
  · exact ⟨counts.line, Nat.le_add_left 1 _⟩

theorem Counts.after (counts : pos.Counts) (s : List Char) : (pos.after s).Counts := by
  induction s generalizing pos with
  | nil => exact counts
  | cons c s ih => exact ih (counts.step c)

theorem Counts.right (counts : pos.Counts) (n : Nat) : (pos.right n).Counts :=
  ⟨counts.line, Nat.le_add_right_of_le counts.column⟩

theorem Counts.shift (countsBase : base.Counts) (counts : pos.Counts) :
    (base.shift pos).Counts := by
  obtain ⟨line, column⟩ := countsBase
  obtain ⟨line', column'⟩ := counts
  unfold Position.shift
  split
  · exact ⟨line, show 1 ≤ base.column + pos.column - 1 by omega⟩
  · exact ⟨show 1 ≤ base.line + pos.line - 1 by omega, column'⟩

theorem shift_start (base : Position) : base.shift start = base := rfl

theorem shift_step (counts : pos.Counts) (c : Char) :
    base.shift (pos.step c) = (base.shift pos).step c := by
  obtain ⟨line, column⟩ := counts
  by_cases lineFeed : c = '\n'
  · have next : pos.line + 1 ≠ 1 := by omega
    have below : base.line + (pos.line + 1) - 1 = base.line + pos.line - 1 + 1 := by omega
    simp only [shift, step, if_pos lineFeed, if_neg next]
    split
    · rename_i first
      rw [first, Nat.add_succ_sub_one]
    · rw [below]
  · have next : base.column + (pos.column + 1) - 1 = base.column + pos.column - 1 + 1 := by omega
    simp only [shift, step, if_neg lineFeed]
    split
    · rw [next]
    · rfl

theorem shift_after (counts : pos.Counts) (s : List Char) :
    base.shift (pos.after s) = (base.shift pos).after s := by
  induction s generalizing pos with
  | nil => rfl
  | cons c s ih => rw [after_cons, after_cons, ih (counts.step c), shift_step counts]

/-- What stands behind `s` in an excerpt stands behind `s` from where the excerpt begins. -/
theorem shift_start_after (base : Position) (s : List Char) :
    base.shift (start.after s) = base.after s :=
  (shift_after counts_start s).trans (congrArg (·.after s) (shift_start base))

theorem shift_right (counts : pos.Counts) (n : Nat) :
    base.shift (pos.right n) = (base.shift pos).right n := by
  have column := counts.column
  have moved : base.column + (pos.column + n) - 1 = base.column + pos.column - 1 + n := by omega
  unfold shift right
  dsimp only
  split
  · rw [moved]
  · rfl

theorem shift_shift (countsBase : base.Counts) (counts : pos.Counts) :
    outer.shift (base.shift pos) = (outer.shift base).shift pos := by
  obtain ⟨line, column⟩ := countsBase
  obtain ⟨line', column'⟩ := counts
  by_cases first : pos.line = 1
  · by_cases first' : base.line = 1
    · simp only [shift, if_pos first, if_pos first']
      exact congrArg (mk _) (by omega)
    · simp only [shift, if_pos first, if_neg first']
  · have later : base.line + pos.line - 1 ≠ 1 := by omega
    by_cases first' : base.line = 1
    · simp only [shift, if_neg first, if_pos first', if_neg later]
      exact congrArg (mk · _) (by omega)
    · simp only [shift, if_neg first, if_neg first', if_neg later]
      exact congrArg (mk · _) (by omega)

/-- Places on one line are counted off. -/
theorem after_of_unbroken (unbroken : '\n' ∉ s) (pos : Position) :
    pos.after s = pos.right s.length := by
  induction s generalizing pos with
  | nil => rfl
  | cons c s ih =>
    obtain ⟨other, others⟩ := List.ne_and_not_mem_of_not_mem_cons unbroken
    rw [after_cons, ih others, step, if_neg (Ne.symm other), right, right, List.length_cons,
      Nat.add_assoc, Nat.add_comm 1]

/-- Lines count line feeds, and columns the characters of a line. -/
theorem start_after (s : List Char) :
    start.after s = ⟨1 + s.count '\n', 1 + (s.reverse.takeWhile (· ≠ '\n')).length⟩ := by
  induction s using List.reverseRecOn with
  | nil => rfl
  | append_singleton s c ih =>
    rw [after_append, ih, after_cons, after_nil, step, List.count_append, List.reverse_append]
    by_cases lineFeed : c = '\n'
    · simp [lineFeed, Nat.add_assoc]
    · simp [lineFeed, Nat.add_assoc]

end Stencil.Text.Position
