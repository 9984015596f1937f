import PuzzleLang.Position
import PuzzleLang.Run.Evaluate

/-!
# Sessions

A session is a script that has been loaded: its functions are bound in the root scope beside the
native functions, and its sections can be evaluated by name, one at a time.  It stays usable after a
fault.
-/

namespace PuzzleLang

/-- The outermost scope. -/
def rootScope : ScopeId :=
  ⟨0⟩

namespace Run

/-- The value of a finished body: what it returned, or nil. -/
def resultOf : Flow → Run Value
  | .next => return .nil
  | .returned value => return value
  | .broke offset => failAt offset .breakOutsideLoop
  | .continued offset => failAt offset .continueOutsideLoop

/-- Runs the body of a function with its parameters bound to the arguments. -/
def callBody (setting : Setting) (callees : Callees) (offset : Nat) (closure : Closure)
    (args : List Value) : Run Value := do
  let f := closure.function
  if args.length = f.params.length then
    let scope ← newScope closure.scope
    defineAll scope (f.params.zip args)
    resultOf (← executeBody setting callees f.body scope)
  else failAt offset (.functionArity f.displayName f.params.length args.length)

/-- Evaluates the body of a section: an expression in the root scope, a block in a scope of its
own. -/
def evaluateBody (setting : Setting) (callees : Callees) (part : Section) : Run Value :=
  match part.body with
  | .expr expr => evaluate setting callees expr rootScope
  | .block block => do resultOf (← executeBlock setting callees block rootScope)

/-- Marks no section as being evaluated after a run, however it ends. -/
def thenIdle {α : Type} (run : Run α) : Run α := fun state =>
  match run state with
  | .ok value state => .ok value { state with active := none }
  | .error halt state => .error halt { state with active := none }

/-- Evaluates a section by its name with `body`, unless a section is being evaluated. -/
def guardSection (setting : Setting) (body : Section → Run Value) (name : String) : Run Value := do
  match setting.sections.find? (·.name == name) with
  | none => fail (.noSection name)
  | some part =>
    match (← get).active with
    | some running => fail (.sectionBusy name running)
    | none =>
      modify fun state => { state with active := some name }
      record setting 1 part.offset (return .enter name)
      let value ← thenIdle (body part)
      record setting 1 part.offset (return .leave name (← render value))
      return value

mutual

/-- Calls a function of the script, where calls may be nested `depth` deep. -/
def callFunction (setting : Setting) :
    (depth : Nat) → (offset : Nat) → Closure → (args : List Value) → Run Value
  | 0, offset, _, _ => failAt offset .recursionLimit
  | depth + 1, offset, closure, args =>
    callBody setting ⟨callFunction setting depth, enterSection setting depth⟩ offset closure args

/-- Evaluates a section by its name, where calls may be nested `depth` deep. -/
def enterSection (setting : Setting) : (depth : Nat) → (name : String) → Run Value
  | 0, name => guardSection setting (fun part => failAt part.offset .recursionLimit) name
  | depth + 1, name =>
    guardSection setting
      (evaluateBody setting ⟨callFunction setting depth, enterSection setting depth⟩) name

end

/-- Loads the parts of a script, where `seen` are the names of the sections before them: functions
are bound in the root scope, and a name of two sections is a fault. -/
def loadItems (setting : Setting) (seen : List String) : List Item → Run Unit
  | [] => return ()
  | .labelled part :: items =>
    if seen.contains part.name then failAt part.offset (.duplicateSection part.name)
    else loadItems setting (part.name :: seen) items
  | .function f :: items => do
    let _ ← makeFunction setting f rootScope
    loadItems setting seen items

/-- The lines of a puzzle input, without white space at the ends of the text and of each line. -/
def inputLines (text : String) : List String :=
  (splitLines (strip text.toList)).map fun line => String.ofList (strip line)

/-- Binds a puzzle input and its lines in the root scope. -/
def readInput (text : String) : Run Unit := do
  define rootScope "input" (.string text)
  define rootScope "lines" (← newArray ((inputLines text).map .string))

end Run

/-- The store of a session before its script is loaded: the root scope with the native
functions. -/
def Store.initial : Store :=
  let (root, store) := Store.empty.newScope none
  store.defineAll root (Native.standard.map fun native => (native.name, .native native))

/-- The state of a session before its script is loaded. -/
def State.initial : State :=
  ⟨.initial, "", #[], none, 0⟩

/-- A script with its setting and its present state. -/
structure Session where
  setting : Setting
  state : State

/-- The limits of a session whose host sets none: more calls are nested than a script needs, and no
loop ends by its limit within a lifetime. -/
def Limits.standard : Limits :=
  ⟨2500, Nat.pow 2 60⟩

/-- The setting of a script. -/
def Setting.ofProgram (program : Program) (level : Int) (files : Files) (limits : Limits) :
    Setting :=
  ⟨program.sections, level, fun offset => lineAt program.source offset, files, limits⟩

namespace Session

/-- Performs a run in a session. -/
def perform {α : Type} (session : Session) (run : Run α) : Except Halt α × Session :=
  match run session.state with
  | .ok value state => (.ok value, { session with state })
  | .error halt state => (.error halt, { session with state })

/-- Loads a script. -/
def load (program : Program) (level : Int) (files : Files) (limits : Limits := .standard) :
    Except Halt Unit × Session :=
  let setting := Setting.ofProgram program level files limits
  perform ⟨setting, .initial⟩ (Run.loadItems setting [] program.items)

/-- Whether the script has a section of that name. -/
def hasSection (session : Session) (name : String) : Bool :=
  session.setting.sections.any (·.name == name)

/-- Evaluates a section by its name. -/
def evaluate (session : Session) (name : String) : Except Halt Value × Session :=
  session.perform (Run.enterSection session.setting session.setting.limits.calls name)

/-- Binds a puzzle input and its lines in the root scope. -/
def readInput (session : Session) (text : String) : Session :=
  (session.perform (Run.readInput text)).2

/-- Binds a name in the root scope. -/
def define (session : Session) (name : String) (value : Value) : Session :=
  (session.perform (Run.define rootScope name value)).2

/-- The names bound in the root scope, those of the native functions aside, in order. -/
def definedNames (session : Session) : List String :=
  let names := (session.state.store.own rootScope).names
  (names.filter fun name => (Native.ofName? name).isNone).mergeSort fun a b => a ≤ b

end Session

end PuzzleLang
