import PuzzleLang.Text.Decimal
import PuzzleLang.Text.Quoted

/-!
# JSON

JSON values with whole numbers, objects that keep the order of their keys, and their text over
several lines, two blanks deeper at each level, in ASCII.
-/

namespace PuzzleLang

/-- JSON values. -/
inductive Json
  | null
  | number (value : Int)
  | string (value : String)
  | array (items : List Json)
  | object (fields : List (String × Json))

namespace Json

/-- A character outside ASCII as one or two escapes of sixteen bits. -/
def escapeUnits (c : Char) : List Char :=
  if c.toNat < 0x10000 then '\\' :: 'u' :: hexDigits 4 c.toNat
  else
    let code := c.toNat - 0x10000
    ('\\' :: 'u' :: hexDigits 4 (0xd800 + code / 0x400)) ++
      ('\\' :: 'u' :: hexDigits 4 (0xdc00 + code % 0x400))

/-- One character of a JSON string. -/
def escapeChar (c : Char) : List Char :=
  match c with
  | '"' => ['\\', '"']
  | '\\' => ['\\', '\\']
  | '\n' => ['\\', 'n']
  | '\r' => ['\\', 'r']
  | '\t' => ['\\', 't']
  | '\x08' => ['\\', 'b']
  | '\x0c' => ['\\', 'f']
  | c => if 0x20 ≤ c.toNat && c.toNat < 0x7f then [c] else escapeUnits c

/-- A JSON string. -/
def stringText (s : String) : String :=
  String.ofList ('"' :: s.toList.flatMap escapeChar ++ ['"'])

/-- The start of a new line at a depth. -/
def newline (depth : Nat) : String :=
  "\n" ++ String.ofList (List.replicate (2 * depth) ' ')

mutual

/-- The text of a JSON value at a depth. -/
def textAt (depth : Nat) : Json → String
  | null => "null"
  | number value => integerText value
  | string value => stringText value
  | array [] => "[]"
  | array (item :: items) =>
    "[" ++ newline (depth + 1) ++ textAt (depth + 1) item ++ itemsText (depth + 1) items ++
      newline depth ++ "]"
  | object [] => "\x7b\x7d"
  | object ((key, value) :: fields) =>
    "\x7b" ++ newline (depth + 1) ++ stringText key ++ ": " ++ textAt (depth + 1) value ++
      fieldsText (depth + 1) fields ++ newline depth ++ "\x7d"

/-- The further items of an array, each after a comma on a line of its own. -/
def itemsText (depth : Nat) : List Json → String
  | [] => ""
  | item :: items => "," ++ newline depth ++ textAt depth item ++ itemsText depth items

/-- The further fields of an object, each after a comma on a line of its own. -/
def fieldsText (depth : Nat) : List (String × Json) → String
  | [] => ""
  | (key, value) :: fields =>
    "," ++ newline depth ++ stringText key ++ ": " ++ textAt depth value ++
      fieldsText depth fields

end

/-- The text of a JSON value. -/
def text (json : Json) : String :=
  json.textAt 0

end Json

end PuzzleLang
