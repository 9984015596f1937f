import PuzzleLang.Position
import Mathlib.Data.List.Induction

/-!
# Lines

Going through a text finds the line of an offset by the line feeds before it, and the start of the
line by the characters behind the last of these.  The line lies between the first and the last line
of the text, and later offsets do not lie on earlier lines.
-/

namespace PuzzleLang

/-- The offset behind the last line feed before an offset, or zero if there is none. -/
def lineStart (source : List Char) (offset : Nat) : Nat :=
  let before := source.take offset
  before.length - (before.reverse.takeWhile (· != '\n')).length

/-! ## Going through a text -/

theorem scanLines_of_le
    {offset : Int} {index : Nat} (h : offset ≤ index) (rest : List Char) (line start : Nat) :
    scanLines offset rest index line start = (line, start) := by
  cases rest with
  | nil => rfl
  | cons c rest => rw [scanLines, if_pos h]

/-- What has been gone through counts by its line feeds and by the characters behind the last one.
The induction adds a character at the end, where the line and its start are known. -/
theorem scanLines_append
    {offset : Int} {before : List Char} (h : before.length ≤ offset) (rest : List Char) :
    scanLines offset (before ++ rest) 0 1 0 =
      scanLines offset rest before.length (before.count '\n' + 1)
        (before.length - (before.reverse.takeWhile (· != '\n')).length) := by
  induction before using List.reverseRecOn generalizing rest with
  | nil => rfl
  | append_singleton before c ih =>
    rw [List.length_append, List.length_singleton] at h
    have hlt : ¬offset ≤ before.length := by omega
    rw [List.append_assoc, List.singleton_append, ih (by omega), scanLines, if_neg hlt,
      List.length_append, List.length_singleton, List.count_append, List.reverse_append,
      List.reverse_singleton, List.singleton_append]
    by_cases hfeed : c = '\n' <;> simp [hfeed]

/-- The line of an offset is one more than the number of line feeds before it, and the column counts
from the start of the line. -/
theorem lineAndColumn_eq (source : List Char) (offset : Int) :
    lineAndColumn source offset =
      ((source.take offset.toNat).count '\n' + 1,
        offset - lineStart source offset.toNat + 1) := by
  have hscan : scanLines offset source 0 1 0 =
      ((source.take offset.toNat).count '\n' + 1, lineStart source offset.toNat) := by
    by_cases hbefore : offset < 0
    · rw [scanLines_of_le (by omega), show offset.toNat = 0 by omega]
      rfl
    have hlength : (source.take offset.toNat).length ≤ offset := by
      rw [List.length_take]
      omega
    conv_lhs => rw [← List.take_append_drop offset.toNat source]
    rw [scanLines_append hlength]
    by_cases hinside : offset.toNat ≤ source.length
    · refine scanLines_of_le ?_ _ _ _
      rw [List.length_take]
      omega
    · rw [List.drop_of_length_le (by omega)]
      rfl
  rw [lineAndColumn, hscan]

theorem lineAt_eq_count (source : List Char) (offset : Nat) :
    lineAt source offset = (source.take offset).count '\n' + 1 := by
  rw [lineAt, lineAndColumn_eq, Int.toNat_natCast]

/-! ## Bounds -/

theorem lineAt_pos (source : List Char) (offset : Nat) : 1 ≤ lineAt source offset := by
  rw [lineAt_eq_count]
  exact Nat.le_add_left 1 _

theorem lineAt_le (source : List Char) (offset : Nat) :
    lineAt source offset ≤ 1 + source.count '\n' := by
  have hle : (source.take offset).count '\n' ≤ source.count '\n' :=
    (List.take_sublist offset source).count_le '\n'
  rw [lineAt_eq_count]
  omega

theorem lineAt_mono (source : List Char) {offset offset' : Nat} (h : offset ≤ offset') :
    lineAt source offset ≤ lineAt source offset' := by
  have hsublist : (source.take offset).Sublist (source.take offset') :=
    (List.take_prefix_take_left h).sublist
  rw [lineAt_eq_count, lineAt_eq_count]
  exact Nat.succ_le_succ (hsublist.count_le '\n')

end PuzzleLang
