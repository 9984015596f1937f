import PuzzleLang.Proofs.Value.Range
import PuzzleLang.Run.Loop

/-!
# Rounds of loops

All loops are loops over a list that is fixed when the loop starts: one round for each item, and
something that is done after the last round, if the body does not leave the loop before.
-/

namespace PuzzleLang

namespace Run

variable {α β : Type}

/-- Runs the body for each item until it leaves the loop, and ends with `after`. -/
def rounds (body : α → Run Flow) (after : Run Flow) : List α → Run Flow
  | [] => after
  | item :: items => do
    match ← body item with
    | .broke _ => return .next
    | .returned value => return .returned value
    | _ => rounds body after items

theorem rounds_map (make : α → β) (body : β → Run Flow) (after : Run Flow) (items : List α) :
    rounds body after (items.map make) = rounds (fun item => body (make item)) after items := by
  induction items with
  | nil => rfl
  | cons item items ih =>
    rw [List.map_cons, rounds, rounds, ih]

theorem forPairs_eq_rounds (body : Value → Value → Run Flow) (pairs : List (Value × Value)) :
    forPairs body pairs = rounds (fun pair => body pair.1 pair.2) (return .next) pairs := by
  induction pairs with
  | nil => rfl
  | cons pair pairs ih =>
    rw [forPairs, ih]
    rfl

theorem forever_eq_rounds (body : Run Flow) (limit : Nat) :
    forever body limit = rounds (fun _ => body) (throw .exhausted) (List.replicate limit ()) := by
  induction limit with
  | zero => rfl
  | succ limit ih =>
    rw [forever, ih]
    rfl

end Run

theorem Limits.distance_le_over (limits : Limits) (range : Range) :
    range.distance ≤ limits.over range :=
  Nat.le_max_right _ _

/-- What a loop over a range does after its last round: one that has not come to the end of the
range has used up all its rounds. -/
def Range.after (range : Range) (limit : Nat) : Run Flow :=
  if range.endsWithin limit then return .next else throw .exhausted

/-- The rounds of a loop over a range are for the numbers of the range. -/
theorem Run.forRange_eq_rounds (body : Int → Run Flow) (limit : Nat) (range : Range) :
    forRange body limit range = rounds body (range.after limit) (range.take limit) := by
  -- the loop, the numbers and what is done after them all go on with the tail of the range
  induction limit generalizing range with
  | zero => simp [forRange, Range.take, rounds, Range.after, Range.endsWithin]
  | succ limit ih =>
    by_cases hend : range.current = range.stop
    · simp [forRange, Range.take, rounds, Range.after, Range.endsWithin, hend]
    · have hafter : range.after (limit + 1) = range.tail.after limit := by
        simp [Range.after, Range.endsWithin, hend]
      rw [forRange, if_neg hend, ih, Range.take, if_neg hend, hafter]
      rfl

namespace Iteration

/-- What is done after the last round. -/
def after (limits : Limits) : Iteration → Run Flow
  | .elements _ => return .next
  | .numbers range => range.after (limits.over range)

/-- The elements of the rounds of a loop, with their indices or keys. -/
def pairs (limits : Limits) : Iteration → List (Value × Value)
  | .elements pairs => pairs
  | .numbers range => (range.take (limits.over range)).map fun n => (.number n, .number n)

theorem after_eq_or (limits : Limits) (iteration : Iteration) :
    iteration.after limits = (return .next) ∨ iteration.after limits = throw .exhausted := by
  cases iteration with
  | elements => exact .inl rfl
  | numbers range =>
    rw [after, Range.after]
    split
    · exact .inl rfl
    · exact .inr rfl

end Iteration

theorem Run.forEach_eq_rounds
    (limits : Limits) (body : Value → Value → Run Flow) (iteration : Iteration) :
    forEach limits body iteration =
      rounds (fun pair => body pair.1 pair.2) (iteration.after limits)
        (iteration.pairs limits) := by
  cases iteration with
  | elements pairs => exact forPairs_eq_rounds body pairs
  | numbers range =>
    rw [Iteration.pairs, rounds_map]
    exact forRange_eq_rounds _ _ range

end PuzzleLang
