import PuzzleLang.Run.Loop
import PuzzleLang.Run.Native
import PuzzleLang.Value.Arithmetic

/-!
# Evaluation

Expressions give values and statements end in some way.  Both follow the tree of the script;
what leaves the tree, the call of a function and the evaluation of a section by the host, is handed
in, and tied back at the end with a count of how deeply calls may still be nested.
-/

namespace PuzzleLang

/-- What evaluation needs beyond the tree at hand. -/
structure Callees where
  /-- Calls a function of the script, with the offset of the call. -/
  call : (offset : Nat) → Closure → (args : List Value) → Run Value
  /-- Evaluates a section by its name. -/
  enter : (name : String) → Run Value

namespace Run

/-- The name under which a call is traced. -/
def calleeName : Value → String
  | .native native => native.name
  | .closure closure => closure.function.displayName
  | other => other.type.name

/-- Calls a value. -/
def callValue (setting : Setting) (callees : Callees) (offset : Nat) (callee : Value)
    (args : List Value) : Run Value := do
  record setting 3 offset (return .call (calleeName callee) (← args.mapM render))
  match callee with
  | .native native => relocate offset (native.call setting callees.enter args)
  | .closure closure => callees.call offset closure args
  | other => failAt offset (.cannotCall other.type)

/-- Makes a function of the script and binds its name, if it has one. -/
def makeFunction (setting : Setting) (f : Function) (scope : ScopeId) : Run Value := do
  let value := Value.closure ⟨f, scope⟩
  match f.name with
  | some name =>
    define scope name value
    record setting 2 f.offset (return .defineFunction name f.params)
    return value
  | none => return value

/-- Whether a value equals a pattern's; values that cannot be compared do not match. -/
def matchesValue (value expected : Value) : Bool :=
  match expected.equals value with
  | .ok same => same
  | .error _ => false

/-- The bindings of a pattern that is a value, if it matches. -/
def matchValue (subject expected : Value) : Option (Bindings Value) :=
  if matchesValue subject expected then some [] else none

/-- The bindings of a pattern that is a text, if it matches. -/
def matchText (text : String) : Value → Option (Bindings Value)
  | .string value => if value == text then some [] else none
  | _ => none

/-- The array that a value is, if it has at least `size` items. -/
def arrayOfSize (size : Nat) : Value → Run (Option ArrayId)
  | .array id => do return if ((← get).store.items id).size < size then none else some id
  | _ => return none

/-- The item of an array at an index that it has. -/
def itemAt (id : ArrayId) (index : Nat) : Run Value := do
  return ((← get).store.items id).getD index .nil

/-- Binds the names of a loop over elements for one round. -/
def bindLoop (scope : ScopeId) (item : String) (index : Option String) (value key : Value) :
    Run Unit := do
  define scope item value
  match index with
  | some index => define scope index key
  | none => return ()

/-- Traces the choice of an arm. -/
def recordSelect (setting : Setting) (subject : Value) (offset : Nat) : Run Unit :=
  record setting 3 offset (return .select (← render subject) (setting.lineOf offset))

end Run

open Run

variable (setting : Setting) (callees : Callees)

mutual

/-- Evaluates an expression in a scope. -/
def evaluate : Expr → ScopeId → Run Value
  | .string _ value, _ => return .string value
  | .number _ value, _ => return .number value
  | .nil _, _ => return .nil
  | .ident offset name, scope => lookup offset scope name
  | .array _ items, scope => do newArray (← evaluateAll items scope)
  | .map _ entries, scope => do newMap (← evaluateEntries entries scope)
  | .negate offset operand, scope => do liftAt offset (← evaluate operand scope).negate
  | .binary offset op left right, scope => do
    let a ← evaluate left scope
    let b ← evaluate right scope
    liftAt offset (op.apply (← get).store a b)
  | .subscript offset container key, scope => do
    let container ← evaluate container scope
    let key ← evaluate key scope
    load offset container key
  | .assign _ _ name value, scope => do
    let value ← evaluate value scope
    assign scope name value
    return value
  | .store offset _ container key value, scope => do
    let value ← evaluate value scope
    let container ← evaluate container scope
    let key ← evaluate key scope
    save offset container key value
    return value
  | .call offset callee args, scope => do
    let callee ← evaluate callee scope
    let args ← evaluateAll args scope
    callValue setting callees offset callee args
  | .function f, scope => makeFunction setting f scope

/-- Evaluates expressions from left to right. -/
def evaluateAll : List Expr → ScopeId → Run (List Value)
  | [], _ => return []
  | item :: items, scope => do
    let value ← evaluate item scope
    let values ← evaluateAll items scope
    return value :: values

/-- Evaluates the entries of a map from left to right. -/
def evaluateEntries : List (String × Expr) → ScopeId → Run (List (String × Value))
  | [], _ => return []
  | (key, item) :: entries, scope => do
    let value ← evaluate item scope
    let values ← evaluateEntries entries scope
    return (key, value) :: values

end

/-- The bindings that the items of an array pattern make from an index on, if they match, beside
those made before. -/
def matchItems (scope : ScopeId) (id : ArrayId) : List Expr → (index : Nat) →
    (made : Bindings Value) → Run (Option (Bindings Value))
  | [], _, made => return some made
  | .ident _ name :: items, index, made => do
    let value ← itemAt id index
    matchItems scope id items (index + 1) (made.put name value)
  | item :: items, index, made => do
    let value ← itemAt id index
    let expected ← evaluate setting callees item scope
    if matchesValue value expected then matchItems scope id items (index + 1) made
    else return none

/-- The bindings that a pattern makes, if it matches the subject. -/
def matchPattern (pattern : Expr) (subject : Value) (scope : ScopeId) :
    Run (Option (Bindings Value)) := do
  match pattern with
  | .string _ text => return matchText text subject
  | .array _ items =>
    match ← arrayOfSize items.length subject with
    | some id => matchItems setting callees scope id items 0 []
    | none => return none
  | _ => return matchValue subject (← evaluate setting callees pattern scope)

mutual

/-- Runs a statement in a scope. -/
def execute : Stmt → ScopeId → Run Flow
  | .expr _ expr, scope => do
    let _ ← evaluate setting callees expr scope
    return .next
  | .var offset name value, scope => do
    let value ← evaluate setting callees value scope
    define scope name value
    record setting 2 offset (return .define name (← render value))
    return .next
  | .block block, scope => executeBlock block scope
  | .forever _ body, scope => do
    let scope ← newScope scope
    forever (executeBlock body scope) setting.limits.rounds
  | .forEach _ item index iterable body, scope => do
    let value ← evaluate setting callees iterable scope
    let iteration ← liftAt iterable.offset ((← get).store.iteration value)
    let scope ← newScope scope
    forEach setting.limits (fun value key => do
      bindLoop scope item index value key
      executeBlock body scope) iteration
  | .conditional conditional, scope => executeConditional conditional scope
  | .select _ subject arms, scope => do
    let subject ← evaluate setting callees subject scope
    executeArms arms subject scope
  | .returns _ none, _ => return .returned .nil
  | .returns _ (some value), scope => do return .returned (← evaluate setting callees value scope)
  | .breaks offset, _ => return .broke offset
  | .continues offset, _ => return .continued offset

/-- Runs statements in a scope, up to the first that does not go on. -/
def executeAll : List Stmt → ScopeId → Run Flow
  | [], _ => return .next
  | first :: more, scope => do
    match ← execute first scope with
    | .next => executeAll more scope
    | flow => return flow

/-- Runs the statements of a block in a given scope. -/
def executeBody : Block → ScopeId → Run Flow
  | ⟨_, statements⟩, scope => executeAll statements scope

/-- Runs the statements of a block in a scope of its own. -/
def executeBlock : Block → ScopeId → Run Flow
  | ⟨_, statements⟩, scope => do
    let scope ← newScope scope
    executeAll statements scope

/-- Runs the block that a condition chooses. -/
def executeConditional : Conditional → ScopeId → Run Flow
  | ⟨offset, condition, thenBlock, otherwise⟩, scope => do
    let value ← evaluate setting callees condition scope
    record setting 3 offset (return .condition (← render value) value.isTruthy)
    if value.isTruthy then executeBlock thenBlock scope
    else executeAlternative otherwise scope

/-- Runs what is done when a condition does not hold. -/
def executeAlternative : Alternative → ScopeId → Run Flow
  | .nothing, _ => return .next
  | .block block, scope => executeBlock block scope
  | .conditional conditional, scope => executeConditional conditional scope

/-- Runs the first arm whose pattern matches the subject. -/
def executeArms : List Arm → (subject : Value) → ScopeId → Run Flow
  | [], _, _ => return .next
  | ⟨pattern, body⟩ :: arms, subject, scope => do
    match ← matchPattern setting callees pattern subject scope with
    | none => executeArms arms subject scope
    | some bindings =>
      recordSelect setting subject pattern.offset
      let scope ← newScope scope
      defineAll scope bindings
      executeBody body scope

end

end PuzzleLang
