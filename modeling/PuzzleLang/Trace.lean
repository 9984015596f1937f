import PuzzleLang.Text.Decimal

/-!
# The trace

A session can keep a trace of what it does.  Each entry has a level, and a session records the
entries up to the level it was started with.
-/

namespace PuzzleLang

/-- What is recorded in a trace.  Values stand by their texts. -/
inductive Entry
  | enter (name : String)
  | leave (name value : String)
  | define (name value : String)
  | defineFunction (name : String) (params : List String)
  | condition (value : String) (holds : Bool)
  | select (subject : String) (line : Nat)
  | call (name : String) (args : List String)
deriving DecidableEq, Repr

namespace Entry

/-- The level of an entry. -/
def level : Entry → Int
  | enter _ | leave _ _ => 1
  | define _ _ | defineFunction _ _ => 2
  | condition _ _ | select _ _ | call _ _ => 3

/-- The line of an entry. -/
def text : Entry → String
  | enter name => "enter section " ++ name
  | leave name value => "exit section " ++ name ++ " -> " ++ value
  | define name value => "define " ++ name ++ " = " ++ value
  | defineFunction name params =>
    "define function " ++ name ++ "(" ++ String.intercalate ", " params ++ ")"
  | condition value holds =>
    "if condition " ++ value ++ " -> " ++ (if holds then "True" else "False")
  | select subject line => "match " ++ subject ++ " on line " ++ naturalText line
  | call name args => "call " ++ name ++ "(" ++ String.intercalate ", " args ++ ")"

end Entry

/-- The text of a trace. -/
def traceText (entries : Array Entry) : String :=
  entries.foldl (fun text entry => text ++ entry.text ++ "\n") ""

end PuzzleLang
