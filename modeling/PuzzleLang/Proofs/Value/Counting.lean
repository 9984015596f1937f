import PuzzleLang.Proofs.Value.Range

/-!
# The numbers of a range

A range is counted from its start until its end comes up; it is not asked whether the end has been
passed.  So its numbers are known for certain only where counting leads to the end: then there is a
number for each step, the end itself is not among them, and the range has just these numbers each
time it is counted.  From one number to another, up or down, there are as many numbers as their
distance, and together with the other number they are the same from either side, in reverse.
-/

namespace PuzzleLang

namespace Range

variable {range : Range} {numbers : List Int} {step current : Int} {count : Nat}

/-! ## Counting -/

/-- The first `count` numbers from `current` on, `step` apart. -/
def numbersFrom (step : Int) : (count : Nat) → (current : Int) → List Int
  | 0, _ => []
  | count + 1, current => current :: numbersFrom step count (current + step)

theorem length_numbersFrom (step : Int) (count : Nat) (current : Int) :
    (numbersFrom step count current).length = count := by
  induction count generalizing current with
  | zero => rfl
  | succ count ih => rw [numbersFrom, List.length_cons, ih]

theorem getElem?_numbersFrom {k : Nat} (h : k < count) :
    (numbersFrom step count current)[k]? = some (current + k * step) := by
  induction count generalizing current k with
  | zero => exact absurd h (Nat.not_lt_zero k)
  | succ count ih =>
    cases k with
    | zero => simp [numbersFrom]
    | succ k =>
      rw [numbersFrom, List.getElem?_cons_succ, ih (Nat.lt_of_succ_lt_succ h), add_step_add_mul]

theorem mem_numbersFrom {n : Int} :
    n ∈ numbersFrom step count current ↔ ∃ k : Nat, k < count ∧ current + k * step = n := by
  rw [List.mem_iff_getElem?]
  constructor
  · rintro ⟨k, hnumber⟩
    have hlt : k < count := by
      rw [← length_numbersFrom step count current]
      exact (List.getElem?_eq_some_iff.mp hnumber).1
    rw [getElem?_numbersFrom hlt] at hnumber
    exact ⟨k, hlt, Option.some.inj hnumber⟩
  · rintro ⟨k, hlt, rfl⟩
    exact ⟨k, getElem?_numbersFrom hlt⟩

/-- Counting up and counting down pass the same numbers. -/
theorem reverse_numbersFrom (step : Int) (count : Nat) (current : Int) :
    (numbersFrom step (count + 1) current).reverse =
      numbersFrom (-step) (count + 1) (current + count * step) := by
  apply List.ext_getElem?
  intro k
  by_cases hlt : k < count + 1
  · have hmirrored : current + (count - k : Nat) * step = current + count * step + k * -step := by
      rw [Nat.cast_sub (Nat.le_of_lt_succ hlt)]
      ring
    rw [List.getElem?_reverse (by rwa [length_numbersFrom]), length_numbersFrom,
      getElem?_numbersFrom (by omega), getElem?_numbersFrom hlt]
    exact congrArg some hmirrored
  · rw [List.getElem?_eq_none, List.getElem?_eq_none]
    · rw [length_numbersFrom]
      omega
    · rw [List.length_reverse, length_numbersFrom]
      omega

theorem numbersFrom_concat (step : Int) (count : Nat) (current : Int) :
    numbersFrom step (count + 1) current =
      numbersFrom step count current ++ [current + count * step] := by
  induction count generalizing current with
  | zero => simp [numbersFrom]
  | succ count ih =>
    rw [numbersFrom, ih, numbersFrom, List.cons_append, add_step_add_mul]

/-! ## The numbers of a range -/

/-- A range has these numbers and no more, however many it is asked for. -/
def Lists (range : Range) (numbers : List Int) : Prop :=
  ∀ count, range.take count = numbers.take count

theorem lists_nil_iff : range.Lists [] ↔ range.current = range.stop := by
  constructor
  · intro hlists
    have hfirst := hlists 1
    rw [take] at hfirst
    by_contra hapart
    rw [if_neg hapart] at hfirst
    cases hfirst
  · intro hatEnd count
    cases count with
    | zero => rfl
    | succ count => rw [take, if_pos hatEnd, List.take_nil]

theorem lists_cons_iff {n : Int} :
    range.Lists (n :: numbers) ↔
      range.current ≠ range.stop ∧ n = range.current ∧ range.tail.Lists numbers := by
  constructor
  · intro hlists
    have hapart : range.current ≠ range.stop := by
      intro hatEnd
      have hfirst := hlists 1
      rw [take, if_pos hatEnd] at hfirst
      cases hfirst
    have hcounted (count : Nat) := hlists (count + 1)
    simp only [take, if_neg hapart, List.take_succ_cons, List.cons.injEq] at hcounted
    exact ⟨hapart, (hcounted 0).1.symm, fun count => (hcounted count).2⟩
  · rintro ⟨hapart, rfl, hlists⟩ count
    cases count with
    | zero => rfl
    | succ count =>
      rw [take, if_neg hapart, List.take_succ_cons]
      exact congrArg _ (hlists count)

/-- The numbers of a range are its step apart, and its end comes up after them. -/
theorem lists_iff :
    range.Lists numbers ↔
      range.EndsAfter numbers.length ∧
        numbers = numbersFrom range.step numbers.length range.current := by
  -- both sides pass from a range to the range without its first number
  induction numbers generalizing range with
  | nil =>
    rw [lists_nil_iff, List.length_nil, endsAfter_zero_iff]
    exact (and_iff_left rfl).symm
  | cons n numbers ih =>
    rw [lists_cons_iff, ih, List.length_cons, endsAfter_succ_iff, numbersFrom, List.cons.injEq]
    constructor
    · rintro ⟨hne, rfl, hend, htail⟩
      exact ⟨⟨hne, hend⟩, rfl, htail⟩
    · rintro ⟨⟨hne, hend⟩, hfirst, htail⟩
      exact ⟨hne, hfirst, hend, htail⟩

theorem EndsAfter.lists_iff (h : range.EndsAfter count) :
    range.Lists numbers ↔ numbers = numbersFrom range.step count range.current := by
  rw [Range.lists_iff]
  constructor
  · rintro ⟨hend, hnumbers⟩
    rwa [hend.unique h] at hnumbers
  · rintro rfl
    rw [length_numbersFrom]
    exact ⟨h, rfl⟩

/-- A loop that may take as many rounds as the end is away comes to all numbers of a range. -/
theorem Lists.take_eq {limit : Nat} (h : range.Lists numbers) (hlimit : range.distance ≤ limit) :
    range.take limit = numbers := by
  have hle : numbers.length ≤ range.distance := (Range.lists_iff.mp h).1.le_distance
  rw [h limit, List.take_of_length_le (hle.trans hlimit)]

/-! ## Intervals -/

/-- The numbers from one number up to another or down to it, without it. -/
def between (a b : Int) : List Int :=
  numbersFrom (upTo a b).step (b - a).natAbs a

theorem lists_upTo_iff {a b : Int} : (upTo a b).Lists numbers ↔ numbers = between a b :=
  (upTo_endsAfter a b).lists_iff

theorem add_natAbs_mul_step (a b : Int) : a + (b - a).natAbs * (upTo a b).step = b := by
  simp only [upTo]
  split <;> omega

theorem between_concat (a b : Int) :
    numbersFrom (upTo a b).step ((b - a).natAbs + 1) a = between a b ++ [b] := by
  rw [numbersFrom_concat, add_natAbs_mul_step, between]

theorem lists_through_iff {a b : Int} :
    (through a b).Lists numbers ↔ numbers = between a b ++ [b] := by
  rw [(through_endsAfter a b).lists_iff, ← between_concat]
  rfl

theorem length_between (a b : Int) : (between a b).length = (b - a).natAbs :=
  length_numbersFrom _ _ _

theorem getElem?_between {a b : Int} {k : Nat} (hlt : k < (b - a).natAbs) :
    (between a b)[k]? = some (if a ≤ b then a + k else a - k) := by
  rw [between, getElem?_numbersFrom hlt, Option.some.injEq]
  simp only [upTo]
  split <;> split <;> omega

theorem notMem_between (a b : Int) : b ∉ between a b := by
  rw [between, mem_numbersFrom]
  rintro ⟨k, hbefore, hend⟩
  exact (upTo_endsAfter a b).2 k hbefore hend

/-- The numbers between two numbers, with both, are the same from either side. -/
theorem reverse_between_concat (a b : Int) : (between a b ++ [b]).reverse = between b a ++ [a] := by
  have hdistance : (a - b).natAbs = (b - a).natAbs := by omega
  rw [← between_concat, ← between_concat, reverse_numbersFrom, add_natAbs_mul_step, hdistance]
  by_cases hsame : a = b
  · -- both ranges count upwards here, but they have a single number
    subst hsame
    simp [numbersFrom]
  · have hopposite : -(upTo a b).step = (upTo b a).step := by
      simp only [upTo]
      split <;> split <;> omega
    rw [hopposite]

end Range

end PuzzleLang
