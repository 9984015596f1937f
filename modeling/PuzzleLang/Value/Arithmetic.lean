import PuzzleLang.Store

/-!
# Operators on values

A plus sign with a string on either side joins texts, the two equality signs compare, and all other
uses are arithmetic on numbers, where nil counts as zero.  Division goes toward zero, and the
remainder has the sign of the dividend.  Both sides of a logical operator are always evaluated.
-/

namespace PuzzleLang

/-- Division toward zero: the quotient of the absolute values, turned around if only one of the two
numbers is negative. -/
def truncateDiv (x y : Int) : Int :=
  let quotient : Int := (x.natAbs / y.natAbs : Nat)
  if x < 0 ↔ y < 0 then quotient else -quotient

namespace Operator

/-- An operator on two numbers. -/
def onNumbers (op : Operator) (x y : Int) : Except Cause Value :=
  match op with
  | add => .ok (.number (x + y))
  | subtract => .ok (.number (x - y))
  | multiply => .ok (.number (x * y))
  | divide => if y = 0 then .error .divisionByZero else .ok (.number (truncateDiv x y))
  | modulo =>
    if y = 0 then .error .moduloByZero else .ok (.number (x - y * truncateDiv x y))
  | equal => .ok (.ofBool (x == y))
  | notEqual => .ok (.ofBool (x != y))
  | less => .ok (.ofBool (x < y))
  | lessEqual => .ok (.ofBool (x ≤ y))
  | greater => .ok (.ofBool (x > y))
  | greaterEqual => .ok (.ofBool (x ≥ y))
  | both => .ok (.ofBool (x != 0 && y != 0))
  | either => .ok (.ofBool (x != 0 || y != 0))

/-- The texts of two values, one after the other. -/
def concatenate (store : Store) (a b : Value) : Except Cause Value :=
  match store.text? a, store.text? b with
  | some left, some right => .ok (.string (left ++ right))
  | _, _ => .error .recursionLimit

/-- An operator on two values that count as numbers. -/
def arithmetic (op : Operator) (a b : Value) : Except Cause Value :=
  match a.operand?, b.operand? with
  | some x, some y => op.onNumbers x y
  | _, _ => .error (.cannotApply op.kind a.type b.type)

/-- An operator on two values. -/
def apply (op : Operator) (store : Store) (a b : Value) : Except Cause Value :=
  match op, a, b with
  | add, .string _, _ => concatenate store a b
  | add, _, .string _ => concatenate store a b
  | equal, _, _ => (a.equals b).map .ofBool
  | notEqual, _, _ => (a.equals b).map fun same => .ofBool !same
  | op, _, _ => op.arithmetic a b

end Operator

/-- The operation that a token kind names on two values; a kind that is no operator fails. -/
def TokenKind.apply (kind : TokenKind) (store : Store) (a b : Value) : Except Cause Value :=
  match Operator.ofKind? kind with
  | some op => op.apply store a b
  | none =>
    match a.operand?, b.operand? with
    | some _, some _ => .error (.unknownOperator kind)
    | _, _ => .error (.cannotApply kind a.type b.type)

/-- The negative of a number. -/
def Value.negate : Value → Except Cause Value
  | .number value => .ok (.number (-value))
  | other => .error (.cannotNegate other.type)

end PuzzleLang
