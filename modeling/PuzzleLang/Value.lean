import PuzzleLang.Fault
import PuzzleLang.Tree

/-!
# Values

Numbers are whole and unbounded, texts are sequences of characters.  Arrays and maps are shared: a
value of such a type only names the place in the store that holds the contents.  A function of the
script is its literal together with the scope it was evaluated in.
-/

namespace PuzzleLang

/-- The place of a scope in the store. -/
structure ScopeId where
  index : Nat
deriving DecidableEq, Repr

/-- The place of an array in the store. -/
structure ArrayId where
  index : Nat
deriving DecidableEq, Repr

/-- The place of a map in the store. -/
structure MapId where
  index : Nat
deriving DecidableEq, Repr

/-- The numbers from `current` on, `step` apart, up to `stop` and without it. -/
structure Range where
  current : Int
  stop : Int
  step : Int
deriving DecidableEq, Repr

/-- The native functions. -/
inductive Native
  | print
  | println
  | num
  | split
  | len
  | push
  | slice
  | delete
  | range
  | rangei
  | sort
  | upper
  | read
  /-- A function of the host that evaluates a section of the running script. -/
  | evaluate (name target : String)
deriving DecidableEq, Repr

namespace Native

/-- The name of a native function. -/
def name : Native → String
  | print => "print"
  | println => "println"
  | num => "num"
  | split => "split"
  | len => "len"
  | push => "push"
  | slice => "slice"
  | delete => "delete"
  | range => "range"
  | rangei => "rangei"
  | sort => "sort"
  | upper => "upper"
  | read => "read"
  | evaluate name _ => name

/-- The native functions that every script can call. -/
def standard : List Native :=
  [print, println, num, split, len, push, slice, delete, range, rangei, sort, upper, read]

/-- The standard native function of a name. -/
def ofName? (name : String) : Option Native :=
  standard.find? (·.name == name)

end Native

/-- A function of the script with the scope it was evaluated in. -/
structure Closure where
  function : Function
  scope : ScopeId

/-- Values. -/
inductive Value
  | nil
  | number (value : Int)
  | string (value : String)
  | array (id : ArrayId)
  | map (id : MapId)
  | range (range : Range)
  | native (native : Native)
  | closure (closure : Closure)

namespace Value

/-- The type of a value. -/
def type : Value → ValueType
  | nil => .nil
  | number _ => .number
  | string _ => .string
  | array _ => .array
  | map _ => .map
  | range _ => .range
  | native _ => .native
  | closure _ => .function

/-- Whether a value is a number. -/
def isNumber : Value → Bool
  | number _ => true
  | _ => false

/-- Whether a value counts as true: only numbers other than zero do. -/
def isTruthy : Value → Bool
  | number value => value != 0
  | _ => false

/-- The truth values that comparisons give. -/
def ofBool (b : Bool) : Value :=
  .number (if b then 1 else 0)

/-- Whether two values are equal.  Numbers compare with numbers, texts with texts, and nil is
different from everything else; other pairs cannot be compared. -/
def equals : Value → Value → Except Cause Bool
  | number a, number b => .ok (a == b)
  | string a, string b => .ok (a == b)
  | nil, nil => .ok true
  | nil, _ => .ok false
  | _, nil => .ok false
  | a, b => .error (.cannotCompare a.type b.type)

/-- The key of a map that a value stands for: a text itself, a number by its decimal form. -/
def mapKey? : Value → Option String
  | string key => some key
  | number key => some (integerText key)
  | _ => none

/-- The number an operand of an arithmetic operator counts as: nil counts as zero. -/
def operand? : Value → Option Int
  | nil => some 0
  | number value => some value
  | _ => none

end Value

namespace Range

/-- The range without its first number. -/
def tail (range : Range) : Range :=
  { range with current := range.current + range.step }

/-- The first `count` numbers of a range, as far as it has them. -/
def take : (range : Range) → (count : Nat) → List Int
  | _, 0 => []
  | range, count + 1 =>
    if range.current = range.stop then []
    else range.current :: range.tail.take count

/-- How far the start is from the end. -/
def distance (range : Range) : Nat :=
  (range.stop - range.current).natAbs

/-- The numbers from `start` up to `stop` or down to it, without it. -/
def upTo (start stop : Int) : Range :=
  ⟨start, stop, if stop < start then -1 else 1⟩

/-- The numbers from `start` up to `stop` or down to it, with it. -/
def through (start stop : Int) : Range :=
  let step := if stop < start then -1 else 1
  ⟨start, stop + step, step⟩

end Range

end PuzzleLang
