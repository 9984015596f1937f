import PuzzleLang.Run.State
import PuzzleLang.Text.UpperCase

/-!
# Native functions

A native function gets its arguments evaluated.  Where it has a signature, the number and the types
of the arguments are checked first.  No native function changes an array or a map: those that give
an array make a new one.
-/

namespace PuzzleLang

/-- The first argument, counted from `index`, that is not of its tag's type, with the tag and the
type it has.  A tag is the name of a type, or `any`. -/
def firstMisfit (index : Nat) : (tags : List String) → (args : List Value) →
    Option (Nat × String × ValueType)
  | tag :: tags, arg :: args =>
    if tag == "any" || arg.type.name == tag then firstMisfit (index + 1) tags args
    else some (index, tag, arg.type)
  | _, _ => none

/-- Checks that there is one argument for each tag, of that tag's type. -/
def expectArguments (name : String) (tags : List String) (args : List Value) : Except Cause Unit :=
  if args.length = tags.length then
    match firstMisfit 1 tags args with
    | some (index, tag, type) => .error (.nativeArgument name tag index type)
    | none => .ok ()
  else .error (.nativeArity name tags.length args.length)

/-- The numbers in a list of values that holds nothing else. -/
def numbersOf? (values : List Value) : Option (List Int) :=
  values.mapM fun
    | .number value => some value
    | _ => none

/-- The texts in a list of values that holds nothing else. -/
def textsOf? (values : List Value) : Option (List String) :=
  values.mapM fun
    | .string value => some value
    | _ => none

/-- The names of the types of some values, each once, in alphabetical order. -/
def typeNames (values : List Value) : List String :=
  ((values.map (·.type.name)).eraseDups).mergeSort fun a b => a ≤ b

/-- A list of numbers or of texts in ascending order; texts are ordered by code points. -/
def sorted (values : List Value) : Except Cause (List Value) :=
  match numbersOf? values with
  | some numbers => .ok ((numbers.mergeSort fun a b => a ≤ b).map .number)
  | none =>
    match textsOf? values with
    | some texts => .ok ((texts.mergeSort fun a b => a ≤ b).map .string)
    | none => .error (.cannotSort (typeNames values))

/-- The items from `start` up to `stop`, without it. -/
def sliced (items : Array Value) (start stop : Int) : Except Cause (List Value) :=
  if start < 0 ∨ stop < start ∨ items.size < stop then
    .error (.sliceOutOfRange start stop items.size)
  else .ok ((items.toList.take stop.toNat).drop start.toNat)

/-- The items without the one at an index, if there is one. -/
def without (items : Array Value) (index : Int) : List Value :=
  if index < 0 then items.toList else items.toList.eraseIdx index.toNat

namespace Native

/-- The tags of the arguments of a native function that takes a fixed number of them. -/
def signature? : Native → Option (List String)
  | num => some ["string"]
  | split => some ["string", "string"]
  | push => some ["array", "any"]
  | slice => some ["array", "number", "number"]
  | delete => some ["array", "number"]
  | range => some ["number", "number"]
  | rangei => some ["number", "number"]
  | sort => some ["array"]
  | upper => some ["string"]
  | read => some ["string"]
  | print | println | len | evaluate _ _ => none

/-- Checks the arguments of a native function against its signature. -/
def check (native : Native) (args : List Value) : Except Cause Unit :=
  match native.signature? with
  | some tags => expectArguments native.name tags args
  | none => .ok ()

/-- The length of an array or a string. -/
def length (store : Store) : List Value → Except Cause Value
  | [.array id] => .ok (.number (store.items id).size)
  | [.string text] => .ok (.number text.length)
  | [other] => .error (.noLength other.type)
  | args => .error (.nativeArity "len" 1 args.length)

/-- The text of a file. -/
def readFile (setting : Setting) (path : String) : Run Value := do
  let state ← get
  let trace := if 0 < setting.level then some (traceText state.trace) else none
  let reply := setting.files.ask state.asked path trace
  set { state with asked := state.asked + 1 }
  match reply with
  | .unknown => throw (.waiting path)
  | reply =>
    match reply.text with
    | .ok text => return .string text
    | .error fault => Run.fail (.unreadable path fault)

/-- The texts of the arguments with blanks between them. -/
def line (args : List Value) : Run String := do
  return String.intercalate " " (← args.mapM Run.text)

/-- Runs a native function on arguments that pass its check.  The host's functions evaluate a
section by `enter`. -/
def perform (setting : Setting) (enter : String → Run Value) :
    (native : Native) → (args : List Value) → Run Value
  | print, args => do
    Run.write (← line args)
    return .nil
  | println, args => do
    Run.write ((← line args) ++ "\n")
    return .nil
  | num, [.string text] =>
    match readInteger? text with
    | some value => return .number value
    | none => return .nil
  | split, [.string text, .string separator] =>
    Run.newArray ((splitText text separator).map .string)
  | len, args => do Run.lift (length (← get).store args)
  | push, [.array id, value] => do Run.newArray (((← get).store.items id).toList ++ [value])
  | slice, [.array id, .number start, .number stop] => do
    Run.newArray (← Run.lift (sliced ((← get).store.items id) start stop))
  | delete, [.array id, .number index] => do
    Run.newArray (without ((← get).store.items id) index)
  | range, [.number start, .number stop] => return .range (.upTo start stop)
  | rangei, [.number start, .number stop] => return .range (.through start stop)
  | sort, [.array id] => do
    Run.newArray (← Run.lift (sorted ((← get).store.items id).toList))
  | upper, [.string text] => return .string (upperCase text)
  | read, [.string path] => readFile setting path
  | evaluate _ target, _ => enter target
  | _, _ => return .nil

/-- Calls a native function. -/
def call (setting : Setting) (enter : String → Run Value) (native : Native) (args : List Value) :
    Run Value := do
  Run.lift (native.check args)
  native.perform setting enter args

end Native

end PuzzleLang
