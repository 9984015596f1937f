import PuzzleLang.Files
import PuzzleLang.Store
import PuzzleLang.Trace

/-!
# Runs

A run works on a state: the store, the text printed so far, the trace, the section that is being
evaluated and the number of files asked for.  It gives a value or halts.  What does not change
during a run is its setting.
-/

namespace PuzzleLang

/-- How far a run may go. -/
structure Limits where
  /-- How deeply calls may be nested. -/
  calls : Nat
  /-- How many rounds a loop without an end of its own may take. -/
  rounds : Nat

/-- What does not change while a script runs. -/
structure Setting where
  sections : List Section
  /-- The level up to which entries are traced. -/
  level : Int
  /-- The line of an offset. -/
  lineOf : Nat → Nat
  files : Files
  limits : Limits

/-- What changes while a script runs. -/
structure State where
  store : Store
  output : String
  trace : Array Entry
  /-- The section that is being evaluated. -/
  active : Option String
  /-- How many files have been asked for. -/
  asked : Nat

/-- Why a run halts without a value. -/
inductive Halt
  | fault (fault : Fault)
  /-- A loop without an end of its own has taken all its rounds. -/
  | exhausted
  /-- The answer to the question for this file is not known. -/
  | waiting (path : String)

/-- A run that gives a value or halts. -/
abbrev Run (α : Type) := EStateM Halt State α

namespace Run

variable {α : Type}

/-- Halts with a fault that has no place yet. -/
def fail (cause : Cause) : Run α :=
  throw (.fault ⟨cause, none⟩)

/-- Halts with a fault at an offset. -/
def failAt (offset : Nat) (cause : Cause) : Run α :=
  throw (.fault ⟨cause, some offset⟩)

/-- The result of an operation, or its fault without a place. -/
def lift : Except Cause α → Run α
  | .ok value => pure value
  | .error cause => fail cause

/-- The result of an operation, or its fault at an offset. -/
def liftAt (offset : Nat) : Except Cause α → Run α
  | .ok value => pure value
  | .error cause => failAt offset cause

/-- Moves the fault of a run to an offset. -/
@[inline] def relocate (offset : Nat) (run : Run α) : Run α := fun state =>
  match run state with
  | .error (.fault fault) state => .error (.fault { fault with offset := some offset }) state
  | result => result

/-- Makes a scope inside another one. -/
def newScope (parent : ScopeId) : Run ScopeId :=
  modifyGet fun state =>
    let (id, store) := state.store.newScope (some parent)
    (id, { state with store })

/-- Binds a name in a scope. -/
def define (scope : ScopeId) (name : String) (value : Value) : Run Unit :=
  modify fun state => { state with store := state.store.define scope name value }

/-- Binds the names of a list of pairs in a scope, one after the other. -/
def defineAll (scope : ScopeId) (pairs : List (String × Value)) : Run Unit :=
  modify fun state => { state with store := state.store.defineAll scope pairs }

/-- Gives a name a new value in the nearest scope that binds it, if there is one. -/
def assign (scope : ScopeId) (name : String) (value : Value) : Run Unit :=
  modify fun state => { state with store := (state.store.assign scope name value).2 }

/-- The value of a name, asked for at an offset. -/
def lookup (offset : Nat) (scope : ScopeId) (name : String) : Run Value := do
  match (← get).store.lookup? scope name with
  | some value => return value
  | none => failAt offset (.unknownVariable name)

/-- Makes an array. -/
def newArray (items : List Value) : Run Value :=
  modifyGet fun state =>
    let (value, store) := state.store.newArray items.toArray
    (value, { state with store })

/-- Makes a map. -/
def newMap (entries : List (String × Value)) : Run Value :=
  modifyGet fun state =>
    let (value, store) := state.store.newMap (Bindings.putAll [] entries)
    (value, { state with store })

/-- Reads a subscript. -/
def load (offset : Nat) (container key : Value) : Run Value := do
  liftAt offset ((← get).store.load container key)

/-- Writes a subscript. -/
def save (offset : Nat) (container key value : Value) : Run Unit := do
  let slot ← liftAt offset ((← get).store.slot container key)
  modify fun state => { state with store := state.store.write slot value }

/-- Prints a text. -/
def write (text : String) : Run Unit :=
  modify fun state => { state with output := state.output ++ text }

/-- The text of a value, with strings in quotes. -/
def render (value : Value) : Run String := do
  match (← get).store.render? value with
  | some text => return text
  | none => fail .recursionLimit

/-- The text of a value as it is printed. -/
def text (value : Value) : Run String := do
  match (← get).store.text? value with
  | some text => return text
  | none => fail .recursionLimit

/-- Traces an entry, if entries of its level are traced.  A text that the entry needs and that does
not exist is a fault at the offset. -/
def record (setting : Setting) (level : Int) (offset : Nat) (entry : Run Entry) : Run Unit := do
  if level ≤ setting.level then
    let entry ← relocate offset entry
    modify fun state => { state with trace := state.trace.push entry }

end Run

end PuzzleLang
