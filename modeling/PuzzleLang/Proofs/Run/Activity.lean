import PuzzleLang.Proofs.Run.Jump
import PuzzleLang.Proofs.Run.Sequence
import PuzzleLang.Proofs.Session.Accord

/-!
# What a run does

A run evaluates expressions, runs statements, calls functions and evaluates sections, and most of
these do others of them as parts of themselves.  `Performs` says which ones, and in which states;
`Raises` says which faults something has by itself, with none of its parts at fault, and where these
are put.
-/

namespace PuzzleLang

/-! ## Operands -/

/-- The expressions that an expression evaluates, in this order, before anything else. -/
def Expr.operands : Expr → List Expr
  | string _ _ | number _ _ | nil _ | ident _ _ | function _ => []
  | array _ items => items
  | map _ entries => entries.map Prod.snd
  | negate _ operand => [operand]
  | binary _ _ left right => [left, right]
  | subscript _ container key => [container, key]
  | assign _ _ _ value => [value]
  | store _ _ container key value => [value, container, key]
  | call _ callee args => callee :: args

/-- The expression that a statement evaluates before anything else. -/
def Stmt.lead? : Stmt → Option Expr
  | expr _ value | var _ _ value | forEach _ _ _ value _ | select _ value _ => some value
  | conditional inner => some inner.condition
  | returns _ value => value
  | block _ | forever _ _ | breaks _ | continues _ => none

/-- The statement that a condition with this value chooses. -/
def Conditional.chosen? (inner : Conditional) (value : Value) : Option Stmt :=
  if value.isTruthy then some (.block inner.thenBlock)
  else
    match inner.otherwise with
    | .nothing => none
    | .block block => some (.block block)
    | .conditional other => some (.conditional other)

/-- The operation of an expression refuses its operands. -/
inductive Expr.Refuses (store : Store) (scope : ScopeId) : Expr → List Value → Cause → Prop
  | ident {offset : Nat} {name : String} {values : List Value} :
    store.lookup? scope name = none →
      Refuses store scope (.ident offset name) values (.unknownVariable name)
  | negate {offset : Nat} {operand : Expr} {value : Value} {cause : Cause} :
    value.negate = .error cause → Refuses store scope (.negate offset operand) [value] cause
  | binary {offset : Nat} {op : Operator} {left right : Expr} {a b : Value} {cause : Cause} :
    op.apply store a b = .error cause →
      Refuses store scope (.binary offset op left right) [a, b] cause
  | subscript {offset : Nat} {e e' : Expr} {container key : Value} {cause : Cause} :
    store.load container key = .error cause →
      Refuses store scope (.subscript offset e e') [container, key] cause
  | store {offset offset' : Nat} {e e' e'' : Expr} {value container key : Value} {cause : Cause} :
    store.slot container key = .error cause →
      Refuses store scope (.store offset offset' e e' e'') [value, container, key] cause

/-! ## Tracing -/

/-- The values that an event shows. -/
def Event.values : Event → List Value
  | leave _ value | define _ value | condition value | select value _ => [value]
  | call _ args => args
  | enter _ | defineFunction _ _ => []

/-- An event is to be traced but shows a value that has no text. -/
def Event.Untold (setting : Setting) (store : Store) (event : Event) : Prop :=
  event.level ≤ setting.level ∧ ∃ value ∈ event.values, store.render? value = none

/-- Traces an event. -/
abbrev Run.trace (setting : Setting) (offset : Nat) (event : Event) : Run Unit :=
  record setting event.level offset (event.entry setting)

/-! ## Activities -/

/-- Something that a run does as a whole. -/
inductive Task
  | expr (e : Expr) (scope : ScopeId)
  | statement (statement : Stmt) (scope : ScopeId)
  /-- The statements of a block, in a scope that has been made for them. -/
  | body (block : Block) (scope : ScopeId)
  | call (offset : Nat) (closure : Closure) (args : List Value)
  | enter (name : String)

/-- The task that a section is. -/
def SectionBody.task : SectionBody → Task
  | block inner => .statement (.block inner) rootScope
  | expr e => .expr e rootScope

/-- A task that is started in a state, where calls may be nested so deep. -/
structure Activity where
  depth : Nat
  task : Task
  state : State

namespace Activity

variable (setting : Setting)

/-- An activity halts in some way. -/
def Halts (activity : Activity) (halt : Halt) : Prop :=
  let callees := Callees.within setting activity.depth
  match activity.task with
  | .expr e scope => (evaluate setting callees e scope).Halts activity.state halt
  | .statement statement scope =>
    (execute setting callees statement scope).Halts activity.state halt
  | .body block scope => (executeBody setting callees block scope).Halts activity.state halt
  | .call offset closure args =>
    (Run.callFunction setting activity.depth offset closure args).Halts activity.state halt
  | .enter name => (Run.enterSection setting activity.depth name).Halts activity.state halt

/-- A section can be evaluated, and the trace is this once that is noted. -/
structure Enters (name : String) (part : Section) (state : State) (trace : Array Entry) :
    Prop where
  found : setting.sections.find? (·.name == name) = some part
  idle : state.active = none
  traced : Run.trace setting part.offset (.enter name) { state with active := some name } =
    .ok () { state with active := some name, trace }

/-- One round of a loop over elements. -/
def round (depth : Nat) (scope : ScopeId) (item : String) (index : Option String) (body : Block)
    (pair : Value × Value) : Run Flow := do
  Run.bindLoop scope item index pair.1 pair.2
  executeBlock setting (.within setting depth) body scope

/-- An activity comes to another one that is a part of it. -/
inductive Performs : Activity → Activity → Prop
  | operand {depth : Nat} {e inner : Expr} {scope : ScopeId} {before later : List Expr}
      {values : List Value} {state state' : State} :
    e.operands = before ++ inner :: later →
      evaluateAll setting (.within setting depth) before scope state = .ok values state' →
      Performs ⟨depth, .expr e scope, state⟩ ⟨depth, .expr inner scope, state'⟩
  | callee {depth offset : Nat} {callee : Expr} {args : List Expr} {scope : ScopeId}
      {closure : Closure} {values : List Value} {state state' state'' : State} :
    evaluateAll setting (.within setting depth) (callee :: args) scope state =
        .ok (.closure closure :: values) state' →
      Run.trace setting offset (.call (.closure closure) values) state' = .ok () state'' →
      Performs ⟨depth, .expr (.call offset callee args) scope, state⟩
        ⟨depth, .call offset closure values, state''⟩
  | lead {depth : Nat} {statement : Stmt} {e : Expr} {scope : ScopeId} {state : State} :
    statement.lead? = some e →
      Performs ⟨depth, .statement statement scope, state⟩ ⟨depth, .expr e scope, state⟩
  | block {depth : Nat} {block : Block} {scope inner : ScopeId} {state state' : State} :
    Run.newScope scope state = .ok inner state' →
      Performs ⟨depth, .statement (.block block) scope, state⟩ ⟨depth, .body block inner, state'⟩
  | member {depth offset : Nat} {before later : List Stmt} {statement : Stmt} {scope : ScopeId}
      {state state' : State} :
    executeAll setting (.within setting depth) before scope state = .ok .next state' →
      Performs ⟨depth, .body ⟨offset, before ++ statement :: later⟩ scope, state⟩
        ⟨depth, .statement statement scope, state'⟩
  | endless {depth offset count : Nat} {body : Block} {scope inner : ScopeId}
      {state state' state'' : State} :
    Run.newScope scope state = .ok inner state' →
      count < setting.limits.rounds →
      Run.Passes (fun _ => executeBlock setting (.within setting depth) body inner)
        (List.replicate count ()) state' state'' →
      Performs ⟨depth, .statement (.forever offset body) scope, state⟩
        ⟨depth, .statement (.block body) inner, state''⟩
  | element {depth offset : Nat} {item : String} {index : Option String} {iterable : Expr}
      {body : Block} {scope inner : ScopeId} {value : Value} {iteration : Iteration}
      {before later : List (Value × Value)} {pair : Value × Value}
      {state first second third last : State} :
    evaluate setting (.within setting depth) iterable scope state = .ok value first →
      first.store.iteration value = .ok iteration →
      Run.newScope scope first = .ok inner second →
      iteration.pairs setting.limits = before ++ pair :: later →
      Run.Passes (round setting depth inner item index body) before second third →
      Run.bindLoop inner item index pair.1 pair.2 third = .ok () last →
      Performs ⟨depth, .statement (.forEach offset item index iterable body) scope, state⟩
        ⟨depth, .statement (.block body) inner, last⟩
  | choice {depth : Nat} {inner : Conditional} {chosen : Stmt} {scope : ScopeId} {value : Value}
      {state state' state'' : State} :
    evaluate setting (.within setting depth) inner.condition scope state = .ok value state' →
      Run.trace setting inner.offset (.condition value) state' = .ok () state'' →
      inner.chosen? value = some chosen →
      Performs ⟨depth, .statement (.conditional inner) scope, state⟩
        ⟨depth, .statement chosen scope, state''⟩
  | pattern {depth offset : Nat} {subject inner : Expr} {before later : List Arm} {arm : Arm}
      {scope : ScopeId} {value : Value} {state first second third : State} :
    evaluate setting (.within setting depth) subject scope state = .ok value first →
      Misses setting (.within setting depth) scope value before first second →
      Tries setting (.within setting depth) scope value arm.pattern second inner third →
      Performs ⟨depth, .statement (.select offset subject (before ++ arm :: later)) scope, state⟩
        ⟨depth, .expr inner scope, third⟩
  | arm {depth offset : Nat} {subject : Expr} {before later : List Arm} {arm : Arm}
      {scope inner : ScopeId} {value : Value} {bindings : Bindings Value}
      {state first second third fourth fifth last : State} :
    evaluate setting (.within setting depth) subject scope state = .ok value first →
      Misses setting (.within setting depth) scope value before first second →
      matchPattern setting (.within setting depth) arm.pattern value scope second =
        .ok (some bindings) third →
      Run.trace setting arm.pattern.offset (.select value arm.pattern.offset) third =
        .ok () fourth →
      Run.newScope scope fourth = .ok inner fifth →
      Run.defineAll inner bindings fifth = .ok () last →
      Performs ⟨depth, .statement (.select offset subject (before ++ arm :: later)) scope, state⟩
        ⟨depth, .body arm.body inner, last⟩
  | called {depth offset : Nat} {closure : Closure} {args : List Value} {inner : ScopeId}
      {state state' state'' : State} :
    args.length = closure.function.params.length →
      Run.newScope closure.scope state = .ok inner state' →
      Run.defineAll inner (closure.function.params.zip args) state' = .ok () state'' →
      Performs ⟨depth + 1, .call offset closure args, state⟩
        ⟨depth, .body closure.function.body inner, state''⟩
  | entered {depth : Nat} {name : String} {part : Section} {state : State} {trace : Array Entry} :
    Enters setting name part state trace →
      Performs ⟨depth + 1, .enter name, state⟩
        ⟨depth, part.body.task, { state with active := some name, trace }⟩

/-- An activity comes to trace an event, at an offset and in a state. -/
inductive Traces : Activity → Nat → Event → State → Prop
  | call {depth offset : Nat} {callee : Expr} {args : List Expr} {scope : ScopeId} {value : Value}
      {values : List Value} {state state' : State} :
    evaluateAll setting (.within setting depth) (callee :: args) scope state =
        .ok (value :: values) state' →
      Traces ⟨depth, .expr (.call offset callee args) scope, state⟩ offset (.call value values)
        state'
  | define {depth offset : Nat} {name : String} {e : Expr} {scope : ScopeId} {value : Value}
      {state state' state'' : State} :
    evaluate setting (.within setting depth) e scope state = .ok value state' →
      Run.define scope name value state' = .ok () state'' →
      Traces ⟨depth, .statement (.var offset name e) scope, state⟩ offset (.define name value)
        state''
  | condition {depth : Nat} {inner : Conditional} {scope : ScopeId} {value : Value}
      {state state' : State} :
    evaluate setting (.within setting depth) inner.condition scope state = .ok value state' →
      Traces ⟨depth, .statement (.conditional inner) scope, state⟩ inner.offset (.condition value)
        state'
  | select {depth offset : Nat} {subject : Expr} {before later : List Arm} {arm : Arm}
      {scope : ScopeId} {value : Value} {bindings : Bindings Value}
      {state first second third : State} :
    evaluate setting (.within setting depth) subject scope state = .ok value first →
      Misses setting (.within setting depth) scope value before first second →
      matchPattern setting (.within setting depth) arm.pattern value scope second =
        .ok (some bindings) third →
      Traces ⟨depth, .statement (.select offset subject (before ++ arm :: later)) scope, state⟩
        arm.pattern.offset (.select value arm.pattern.offset) third
  | leave {depth : Nat} {name : String} {part : Section} {value : Value} {state state' : State}
      {trace : Array Entry} :
    Enters setting name part state trace →
      Run.evaluateBody setting (.within setting depth) part
        { state with active := some name, trace } = .ok value state' →
      Traces ⟨depth + 1, .enter name, state⟩ part.offset (.leave name value)
        { state' with active := none }

/-- An activity comes to call a native function, at an offset and in a state. -/
inductive CallsNative : Activity → Nat → Native → List Value → State → Prop
  | call {depth offset : Nat} {callee : Expr} {args : List Expr} {scope : ScopeId}
      {native : Native} {values : List Value} {state state' state'' : State} :
    evaluateAll setting (.within setting depth) (callee :: args) scope state =
        .ok (.native native :: values) state' →
      Run.trace setting offset (.call (.native native) values) state' = .ok () state'' →
      CallsNative ⟨depth, .expr (.call offset callee args) scope, state⟩ offset native values
        state''

/-- An activity has a fault by itself. -/
inductive Raises : Activity → Fault → Prop
  | refusal {depth : Nat} {e : Expr} {scope : ScopeId} {values : List Value} {cause : Cause}
      {state state' : State} :
    evaluateAll setting (.within setting depth) e.operands scope state = .ok values state' →
      e.Refuses state'.store scope values cause →
      Raises ⟨depth, .expr e scope, state⟩ ⟨cause, some e.offset⟩
  | uncallable {depth offset : Nat} {callee : Expr} {args : List Expr} {scope : ScopeId}
      {value : Value} {values : List Value} {state state' state'' : State} :
    evaluateAll setting (.within setting depth) (callee :: args) scope state =
        .ok (value :: values) state' →
      Run.trace setting offset (.call value values) state' = .ok () state'' →
      (∀ native, value ≠ .native native) → (∀ closure, value ≠ .closure closure) →
      Raises ⟨depth, .expr (.call offset callee args) scope, state⟩
        ⟨.cannotCall value.type, some offset⟩
  /-- The fault of a native function is put to the call, wherever it had been put before. -/
  | native {depth offset : Nat} {callee : Expr} {args : List Expr} {scope : ScopeId}
      {native : Native} {values : List Value} {fault : Fault} {state state' state'' : State} :
    evaluateAll setting (.within setting depth) (callee :: args) scope state =
        .ok (.native native :: values) state' →
      Run.trace setting offset (.call (.native native) values) state' = .ok () state'' →
      (native.call setting (Run.enterSection setting depth) values).Halts state'' (.fault fault) →
      Raises ⟨depth, .expr (.call offset callee args) scope, state⟩ ⟨fault.cause, some offset⟩
  | iterable {depth offset : Nat} {item : String} {index : Option String} {e : Expr}
      {body : Block} {scope : ScopeId} {value : Value} {cause : Cause} {state state' : State} :
    evaluate setting (.within setting depth) e scope state = .ok value state' →
      state'.store.iteration value = .error cause →
      Raises ⟨depth, .statement (.forEach offset item index e body) scope, state⟩
        ⟨cause, some e.offset⟩
  | untold {activity : Activity} {offset : Nat} {event : Event} {state : State} :
    Traces setting activity offset event state → event.Untold setting state.store →
      Raises activity ⟨.recursionLimit, some offset⟩
  | nested {offset : Nat} {closure : Closure} {args : List Value} {state : State} :
    Raises ⟨0, .call offset closure args, state⟩ ⟨.recursionLimit, some offset⟩
  | arity {depth offset : Nat} {closure : Closure} {args : List Value} {state : State} :
    args.length ≠ closure.function.params.length →
      Raises ⟨depth + 1, .call offset closure args, state⟩
        ⟨.functionArity closure.function.displayName closure.function.params.length args.length,
          some offset⟩
  | stray {depth offset : Nat} {closure : Closure} {args : List Value} {flow : Flow} {jump : Stmt}
      {fault : Fault} {state state' : State} :
    args.length = closure.function.params.length →
      Run.bodyFlow setting (.within setting depth) closure args state = .ok flow state' →
      flow.jump? = some jump → jump.strayFault? = some fault →
      Raises ⟨depth + 1, .call offset closure args, state⟩ fault
  | unknown {depth : Nat} {name : String} {state : State} :
    setting.sections.find? (·.name == name) = none →
      Raises ⟨depth, .enter name, state⟩ ⟨.noSection name, none⟩
  | busy {depth : Nat} {name running : String} {part : Section} {state : State} :
    setting.sections.find? (·.name == name) = some part → state.active = some running →
      Raises ⟨depth, .enter name, state⟩ ⟨.sectionBusy name running, none⟩
  | nestedSection {name : String} {part : Section} {state : State} {trace : Array Entry} :
    Enters setting name part state trace →
      Raises ⟨0, .enter name, state⟩ ⟨.recursionLimit, some part.offset⟩
  | straySection {depth : Nat} {name : String} {part : Section} {block : Block} {flow : Flow}
      {jump : Stmt} {fault : Fault} {state state' : State} {trace : Array Entry} :
    Enters setting name part state trace → part.body = .block block →
      executeBlock setting (.within setting depth) block rootScope
        { state with active := some name, trace } = .ok flow state' →
      flow.jump? = some jump → jump.strayFault? = some fault →
      Raises ⟨depth + 1, .enter name, state⟩ fault

end Activity

end PuzzleLang
