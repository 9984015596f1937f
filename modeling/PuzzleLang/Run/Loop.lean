import PuzzleLang.Run.State

/-!
# Loops

A statement ends by going on, by leaving a loop, by starting the next round of a loop, or by
returning a value.  A loop runs its body for each element of what it iterates over, as it was when
the loop started.
-/

namespace PuzzleLang

/-- How a statement ends. -/
inductive Flow
  | next
  | returned (value : Value)
  | broke (offset : Nat)
  | continued (offset : Nat)

/-- What a loop runs over. -/
inductive Iteration
  /-- Elements with their indices or keys. -/
  | elements (pairs : List (Value × Value))
  /-- The numbers of a range. -/
  | numbers (range : Range)

/-- What a loop over a value runs over. -/
def Store.iteration (store : Store) : Value → Except Cause Iteration
  | .array id =>
    .ok (.elements ((store.items id).toList.zipIdx.map fun (item, index) =>
      (item, .number index)))
  | .map id => .ok (.elements ((store.entries id).map fun (key, item) => (item, .string key)))
  | .range range => .ok (.numbers range)
  | other => .error (.cannotIterate other.type)

/-- How many rounds a loop over a range may take: at least one for each number that a range can have
which does not miss its end. -/
def Limits.over (limits : Limits) (range : Range) : Nat :=
  max limits.rounds range.distance

namespace Run

/-- Runs the body for each element until it leaves the loop. -/
def forPairs (body : Value → Value → Run Flow) : List (Value × Value) → Run Flow
  | [] => return .next
  | (item, index) :: pairs => do
    match ← body item index with
    | .broke _ => return .next
    | .returned value => return .returned value
    | _ => forPairs body pairs

/-- Runs the body for one number of a range after the other until the end comes up or the body
leaves the loop.  A range that misses its end has no last number, so the rounds are limited. -/
def forRange (body : Int → Run Flow) : (limit : Nat) → (range : Range) → Run Flow
  | 0, range => if range.current = range.stop then return .next else throw .exhausted
  | limit + 1, range =>
    if range.current = range.stop then return .next
    else do
      match ← body range.current with
      | .broke _ => return .next
      | .returned value => return .returned value
      | _ => forRange body limit range.tail

/-- Runs the body over and over until it leaves the loop, for a limited number of rounds. -/
def forever (body : Run Flow) : (limit : Nat) → Run Flow
  | 0 => throw .exhausted
  | limit + 1 => do
    match ← body with
    | .broke _ => return .next
    | .returned value => return .returned value
    | _ => forever body limit

/-- Runs the body for everything an iteration holds, until it leaves the loop. -/
def forEach (limits : Limits) (body : Value → Value → Run Flow) : Iteration → Run Flow
  | .elements pairs => forPairs body pairs
  | .numbers range => forRange (fun n => body (.number n) (.number n)) (limits.over range) range

end Run

end PuzzleLang
