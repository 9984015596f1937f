import PuzzleLang.Value

/-!
# Values written out

A datum is a value with the contents of its arrays and maps in place.  It has two texts: the one
that scripts print and trace, and the one in which a host inspects it.
-/

namespace PuzzleLang

/-- A value with the contents of its arrays and maps in place. -/
inductive Datum
  | nil
  | number (value : Int)
  | string (value : String)
  | array (items : List Datum)
  | map (entries : List (String × Datum))
  | range (range : Range)
  | native (name : String)
  | function (name : String) (params : List String)

namespace Datum

mutual

/-- The text of a datum, with strings in quotes. -/
def render : Datum → String
  | nil => "nil"
  | number value => integerText value
  | string value => "'" ++ value ++ "'"
  | array items => "[" ++ String.intercalate ", " (renderAll items) ++ "]"
  | map entries => "\x7b" ++ String.intercalate ", " (renderEntries entries) ++ "\x7d"
  | range r => "<range " ++ integerText r.current ++ ".." ++ integerText r.stop ++ ">"
  | native name => "<native function " ++ name ++ ">"
  | function name _ => "<fn " ++ name ++ ">"

/-- The texts of the items of an array. -/
def renderAll : List Datum → List String
  | [] => []
  | item :: items => render item :: renderAll items

/-- The texts of the entries of a map. -/
def renderEntries : List (String × Datum) → List String
  | [] => []
  | (key, value) :: entries => (key ++ ": " ++ render value) :: renderEntries entries

end

/-- The text of a datum as it is printed: a string stands without quotes. -/
def text : Datum → String
  | string value => value
  | datum => datum.render

mutual

/-- The text in which a host inspects a datum. -/
def inspect : Datum → String
  | nil => "nil"
  | number value => integerText value
  | string value => quoted value
  | array items => "Array([" ++ String.intercalate ", " (inspectAll items) ++ "])"
  | map entries => "Map(\x7b" ++ String.intercalate ", " (inspectEntries entries) ++ "\x7d)"
  | range r =>
    "RangeVal(current=" ++ integerText r.current ++ ", end=" ++ integerText r.stop ++ ", step=" ++
      integerText r.step ++ ")"
  | native name => "<builtin " ++ name ++ ">"
  | function name _ => "<function " ++ name ++ ">"

/-- The host's texts of the items of an array. -/
def inspectAll : List Datum → List String
  | [] => []
  | item :: items => inspect item :: inspectAll items

/-- The host's texts of the entries of a map. -/
def inspectEntries : List (String × Datum) → List String
  | [] => []
  | (key, value) :: entries => (quoted key ++ ": " ++ inspect value) :: inspectEntries entries

end

end Datum

end PuzzleLang
