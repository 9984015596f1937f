import PuzzleLang.Value
import Mathlib.Data.Nat.Find
import Mathlib.Tactic.Ring

/-!
# Ranges that reach their end

A loop over a range counts from its start by its step and stops when its end comes up; it is not
asked whether the end has been passed.  So it stops if and only if one of these numbers is the end,
and then it has as many rounds as there are numbers before it, at most one for each number between
its start and its end.  The ranges that scripts can make, from one number up to another or down to
it, are of this kind.
-/

namespace PuzzleLang.Range

variable {range : Range} {count limit : Nat}

/-- Counting by the step of a range from its start leads to its end. -/
def Reaches (range : Range) : Prop :=
  ∃ count : Nat, range.current + count * range.step = range.stop

/-- The end comes up after `count` numbers, and not before. -/
def EndsAfter (range : Range) (count : Nat) : Prop :=
  range.current + count * range.step = range.stop ∧
    ∀ earlier : Nat, earlier < count → range.current + earlier * range.step ≠ range.stop

/-- Whether the end comes up after at most `limit` numbers. -/
def endsWithin : (range : Range) → (limit : Nat) → Bool
  | range, 0 => range.current = range.stop
  | range, limit + 1 => range.current = range.stop || range.tail.endsWithin limit

theorem add_step_add_mul (current step : Int) (k : Nat) :
    current + step + k * step = current + (k + 1 : Nat) * step := by
  push_cast
  ring

theorem endsAfter_zero_iff : range.EndsAfter 0 ↔ range.current = range.stop := by
  simp [EndsAfter]

theorem endsAfter_succ_iff :
    range.EndsAfter (count + 1) ↔ range.current ≠ range.stop ∧ range.tail.EndsAfter count := by
  have hshift (k : Nat) : range.current + (k + 1 : Nat) * range.step =
      range.tail.current + k * range.tail.step := (add_step_add_mul _ _ k).symm
  constructor
  · rintro ⟨hend, hfirst⟩
    refine ⟨by simpa using hfirst 0 (Nat.succ_pos count), (hshift count).symm.trans hend, ?_⟩
    intro earlier hearlier hend'
    exact hfirst (earlier + 1) (Nat.succ_lt_succ hearlier) ((hshift earlier).trans hend')
  · rintro ⟨hne, hend, hfirst⟩
    refine ⟨(hshift count).trans hend, ?_⟩
    intro earlier hearlier hend'
    cases earlier with
    | zero => exact hne (by simpa using hend')
    | succ earlier =>
      exact hfirst earlier (Nat.lt_of_succ_lt_succ hearlier) ((hshift earlier).symm.trans hend')

theorem Reaches.exists_endsAfter (h : range.Reaches) : ∃ count, range.EndsAfter count := by
  classical
  refine ⟨Nat.find h, Nat.find_spec h, ?_⟩
  intro earlier hearlier
  exact Nat.find_min h hearlier

namespace EndsAfter

/-- Each step of a range that reaches its end leads nearer to it. -/
theorem le_distance (h : range.EndsAfter count) : count ≤ range.distance := by
  obtain ⟨hend, hfirst⟩ := h
  by_cases hstep : range.step = 0
  · -- a range that stands still is at its end from the start
    rw [hstep, mul_zero, add_zero] at hend
    have hzero : ¬ 0 < count := fun hpos => hfirst 0 hpos (by simpa using hend)
    omega
  · have hdistance : range.distance = count * range.step.natAbs := by
      rw [distance, ← hend, add_sub_cancel_left, Int.natAbs_mul, Int.natAbs_natCast]
    rw [hdistance]
    exact Nat.le_mul_of_pos_right count (Int.natAbs_pos.mpr hstep)

theorem unique {count' : Nat} (h : range.EndsAfter count) (h' : range.EndsAfter count') :
    count = count' := by
  apply Nat.le_antisymm
  · exact Nat.le_of_not_lt fun hlt => h.2 count' hlt h'.1
  · exact Nat.le_of_not_lt fun hlt => h'.2 count hlt h.1

theorem endsWithin (h : range.EndsAfter count) (hle : count ≤ limit) :
    range.endsWithin limit = true := by
  induction limit generalizing range count with
  | zero =>
    obtain rfl := Nat.le_zero.mp hle
    simpa [Range.endsWithin] using endsAfter_zero_iff.mp h
  | succ limit ih =>
    rw [Range.endsWithin, Bool.or_eq_true, decide_eq_true_iff]
    cases count with
    | zero => exact .inl (endsAfter_zero_iff.mp h)
    | succ count =>
      obtain ⟨-, htail⟩ := endsAfter_succ_iff.mp h
      exact .inr (ih htail (Nat.le_of_succ_le_succ hle))

end EndsAfter

theorem Reaches.endsWithin (h : range.Reaches) (hle : range.distance ≤ limit) :
    range.endsWithin limit = true := by
  obtain ⟨count, hcount⟩ := h.exists_endsAfter
  exact hcount.endsWithin (hcount.le_distance.trans hle)

theorem upTo_endsAfter (a b : Int) : (upTo a b).EndsAfter (b - a).natAbs := by
  rw [EndsAfter]
  simp only [upTo]
  split
  · exact ⟨by omega, fun _ _ => by omega⟩
  · exact ⟨by omega, fun _ _ => by omega⟩

theorem through_endsAfter (a b : Int) : (through a b).EndsAfter ((b - a).natAbs + 1) := by
  rw [EndsAfter]
  simp only [through]
  split
  · exact ⟨by omega, fun _ _ => by omega⟩
  · exact ⟨by omega, fun _ _ => by omega⟩

theorem EndsAfter.reaches (h : range.EndsAfter count) : range.Reaches :=
  ⟨count, h.1⟩

end PuzzleLang.Range
