import PuzzleLang.Text.Decimal
import PuzzleLang.Text.Quoted
import PuzzleLang.Text.Utf8
import PuzzleLang.Token.Kind

/-!
# Faults

What can go wrong with a script, as causes: while it is cut into tokens, while it is read, and
while it runs.  A fault is a cause with the offset it is attributed to, if it has one.  The words
for all causes stand in `Cause.message`.
-/

namespace PuzzleLang

/-- The types of values. -/
inductive ValueType
  | nil
  | number
  | string
  | array
  | map
  | range
  | native
  | function
deriving DecidableEq, Repr

/-- The name of a type. -/
def ValueType.name : ValueType → String
  | nil => "nil"
  | number => "number"
  | string => "string"
  | array => "array"
  | map => "map"
  | range => "range"
  | native => "native function"
  | function => "function"

/-- Why the text of a file cannot be had. -/
inductive ReadFault
  /-- There is no such file. -/
  | missing
  /-- The path names a folder. -/
  | folder
  /-- A part of the path before its last is no folder. -/
  | notFolder
  /-- The path or a part of it is too long to name anything. -/
  | nameTooLong
  /-- The bytes are no text. -/
  | encoding (fault : EncodingFault)
deriving DecidableEq, Repr

/-- The words for bytes that are no text. -/
def EncodingFault.message (fault : EncodingFault) : String :=
  let place :=
    if fault.length = 1 then
      "byte 0x" ++ String.ofList (hexDigits 2 fault.first.toNat) ++ " in position " ++
        naturalText fault.position
    else
      "bytes in position " ++ naturalText fault.position ++ "-" ++
        naturalText (fault.position + fault.length - 1)
  "'utf-8' codec can't decode " ++ place ++ ": " ++ fault.defect.message

/-- The words for a failure of the file system at `path`. -/
def ReadFault.message (path : String) : ReadFault → String
  | missing => "[Errno 2] No such file or directory: " ++ quoted path
  | folder => "[Errno 21] Is a directory: " ++ quoted path
  | notFolder => "[Errno 20] Not a directory: " ++ quoted path
  | nameTooLong => "[Errno 36] File name too long: " ++ quoted path
  | encoding fault => fault.message

/-- What can go wrong with a script. -/
inductive Cause
  /-- No token starts with this character. -/
  | unexpectedCharacter (c : Char)
  /-- A text starts that never ends. -/
  | unterminatedString
  /-- The next token has none of the kinds that can follow. -/
  | expectedToken (allowed : List TokenKind) (saw : TokenKind)
  /-- No value starts with the next token. -/
  | expectedValue (found : TokenKind)
  /-- The left side of an assignment is neither a name nor a subscript. -/
  | invalidTarget
  /-- No scope defines the name. -/
  | unknownVariable (name : String)
  /-- Only numbers have a negative. -/
  | cannotNegate (operand : ValueType)
  /-- The operator is not defined on these operands. -/
  | cannotApply (operator : TokenKind) (left right : ValueType)
  /-- The token kind is no operator on two numbers. -/
  | unknownOperator (operator : TokenKind)
  | divisionByZero
  | moduloByZero
  /-- The two values can be neither equal nor different. -/
  | cannotCompare (left right : ValueType)
  | indexOutOfRange (index : Int)
  | cannotSubscript (container key : ValueType)
  | cannotStore (container key : ValueType)
  | cannotIterate (iterated : ValueType)
  | cannotCall (callee : ValueType)
  /-- A function of the script is called with the wrong number of arguments. -/
  | functionArity (name : String) (expected given : Nat)
  /-- A native function is called with the wrong number of arguments. -/
  | nativeArity (name : String) (expected given : Nat)
  /-- An argument of a native function, counted from one, has the wrong type. -/
  | nativeArgument (name expected : String) (index : Nat) (given : ValueType)
  /-- Only arrays and strings have a length. -/
  | noLength (given : ValueType)
  | sliceOutOfRange (start stop : Int) (length : Nat)
  /-- Elements of these types have no common order. -/
  | cannotSort (types : List String)
  /-- The text of a file cannot be had. -/
  | unreadable (path : String) (fault : ReadFault)
  | breakOutsideLoop
  | continueOutsideLoop
  /-- Calls are nested too deeply, or a value contains itself. -/
  | recursionLimit
  | duplicateSection (name : String)
  | noSection (name : String)
  /-- A section is asked for while another one runs. -/
  | sectionBusy (name running : String)
  /-- The section that gives the puzzle input is no string. -/
  | sectionNotString (name : String)
deriving DecidableEq, Repr

/-- The stage of work on a script at which a fault arises. -/
inductive Stage
  | tokens
  | grammar
  | run
deriving DecidableEq, Repr

/-- The name under which the faults of a stage are reported. -/
def Stage.name : Stage → String
  | tokens => "syntax error"
  | grammar => "parse error"
  | run => "runtime error"

namespace Cause

/-- The stage at which a cause arises. -/
def stage : Cause → Stage
  | unexpectedCharacter _ | unterminatedString => .tokens
  | expectedToken _ _ | expectedValue _ | invalidTarget => .grammar
  | _ => .run

private def expectedText : List TokenKind → String
  | [kind] => "expected " ++ kind.text
  | kinds => "expected one of " ++ String.intercalate ", " (kinds.map (·.text))

/-- The words for a cause. -/
def message : Cause → String
  | unexpectedCharacter c => "unexpected character " ++ quoted (String.singleton c)
  | unterminatedString => "unterminated string"
  | expectedToken allowed saw => expectedText allowed ++ " but saw " ++ saw.text
  | expectedValue found => "expected a value but found " ++ found.text
  | invalidTarget => "invalid assignment target"
  | unknownVariable name => "unknown variable " ++ name
  | cannotNegate operand => "cannot apply - to a " ++ operand.name
  | cannotApply operator left right =>
    "cannot apply " ++ operator.text ++ " to " ++ left.name ++ " and " ++ right.name
  | unknownOperator operator => "unknown operator " ++ operator.text
  | divisionByZero => "division by zero"
  | moduloByZero => "modulo by zero"
  | cannotCompare left right => "cannot compare " ++ left.name ++ " and " ++ right.name
  | indexOutOfRange index => "index " ++ integerText index ++ " out of range"
  | cannotSubscript container key =>
    "cannot subscript a " ++ container.name ++ " with a " ++ key.name
  | cannotStore container key =>
    "cannot assign to a subscript of a " ++ container.name ++ " with a " ++ key.name
  | cannotIterate iterated => "cannot iterate over a " ++ iterated.name
  | cannotCall callee => "cannot call a " ++ callee.name
  | functionArity name expected given =>
    "function " ++ name ++ " expects " ++ naturalText expected ++ " arguments but got " ++
      naturalText given
  | nativeArity name expected given =>
    "arity mismatch: " ++ name ++ " expects " ++ naturalText expected ++ " arguments but got " ++
      naturalText given
  | nativeArgument name expected index given =>
    "type mismatch: " ++ name ++ " expects a " ++ expected ++ " for argument " ++
      naturalText index ++ " but got a " ++ given.name
  | noLength given =>
    "type mismatch: len expects an array or a string but got a " ++ given.name
  | sliceOutOfRange start stop length =>
    "slice [" ++ integerText start ++ ", " ++ integerText stop ++
      ") out of range for array of length " ++ naturalText length
  | cannotSort types =>
    "cannot sort an array of " ++ String.intercalate " and " types ++ " values"
  | unreadable path .missing => "could not read " ++ path ++ ": file not found"
  | unreadable path fault => "could not read " ++ path ++ ": " ++ fault.message path
  | breakOutsideLoop => "break outside of a loop"
  | continueOutsideLoop => "continue outside of a loop"
  | recursionLimit => "maximum recursion depth exceeded"
  | duplicateSection name => "duplicate section " ++ name
  | noSection name => "no section named " ++ name
  | sectionBusy name running =>
    "cannot evaluate section " ++ name ++ " while section " ++ running ++ " is running"
  | sectionNotString name => name ++ " section must evaluate to a string"

end Cause

/-- A cause together with the offset it is attributed to. -/
structure Fault where
  cause : Cause
  offset : Option Nat
deriving DecidableEq, Repr

end PuzzleLang
