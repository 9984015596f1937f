import PuzzleLang.Proofs.Policy.Session
import PuzzleLang.Proofs.Tree.Bare

/-!
# Evaluation of bare trees

A bare tree is evaluated by looking at each node: what class it is of, and, if it has two parts, of
what kind its token is.  Not every node can be evaluated or executed, not every node can be assigned
to, and not every kind of token is an operator.  What is done in these cases is left open.
-/

namespace PuzzleLang

/-- What is done where a bare tree makes no sense. -/
structure Defences where
  /-- A node that is no expression is evaluated. -/
  expression : Bare → Run Value
  /-- A node that is no statement is executed. -/
  statement : Bare → Run Flow
  /-- A node that is neither a name nor a subscript is assigned to. -/
  target : Bare → Run Value
  /-- A token of a kind that is no operator is applied. -/
  operator : TokenKind → Run Value

namespace Bare

open Run

variable (defences : Defences) (setting : Setting) (callees : Callees)

/-- Applies the operation that a token names. -/
def applyToken (token : Token) (a b : Value) : Run Value := do
  match token.kind.apply (← get).store a b with
  | .error (.unknownOperator kind) => defences.operator kind
  | result => liftAt token.offset result

mutual

/-- Evaluates a node in a scope. -/
def evaluate : Bare → ScopeId → Run Value
  | .string _ value, _ => return .string value
  | .number _ value, _ => return .number value
  | .nil _, _ => return .nil
  | .ident token name, scope => lookup token.offset scope name
  | .array _ items, scope => do newArray (← evaluateAll items scope)
  | .map _ entries, scope => do newMap (← evaluateEntries entries scope)
  | .unary token operand, scope => do liftAt token.offset (← evaluate operand scope).negate
  | .binary token left right, scope =>
    if token.kind = .assign then do
      let value ← evaluate right scope
      match left with
      | .ident _ name =>
        assign scope name value
        return value
      | .binary inner container key =>
        if inner.kind = .leftBracket then
          let container ← evaluate container scope
          let key ← evaluate key scope
          save token.offset container key value
          return value
        else defences.target left
      | _ => defences.target left
    else do
      let a ← evaluate left scope
      let b ← evaluate right scope
      if token.kind = .leftBracket then load token.offset a b
      else applyToken defences token a b
  | .call token callee args, scope => do
    let callee ← evaluate callee scope
    let args ← evaluateAll args scope
    callValue setting callees token.offset callee args
  | .function _ f _, scope => makeFunction setting f scope
  | node, _ => defences.expression node

/-- Evaluates nodes from left to right. -/
def evaluateAll : List Bare → ScopeId → Run (List Value)
  | [], _ => return []
  | item :: items, scope => do
    let value ← evaluate item scope
    let values ← evaluateAll items scope
    return value :: values

/-- Evaluates the entries of a map from left to right. -/
def evaluateEntries : List (String × Bare) → ScopeId → Run (List (String × Value))
  | [], _ => return []
  | (key, item) :: entries, scope => do
    let value ← evaluate item scope
    let values ← evaluateEntries entries scope
    return (key, value) :: values

end

/-- The bindings that the items of an array pattern make from an index on, if they match, beside
those made before. -/
def matchItems (scope : ScopeId) (id : ArrayId) : List Bare → (index : Nat) →
    (made : Bindings Value) → Run (Option (Bindings Value))
  | [], _, made => return some made
  | .ident _ name :: items, index, made => do
    let value ← itemAt id index
    matchItems scope id items (index + 1) (made.put name value)
  | item :: items, index, made => do
    let value ← itemAt id index
    let expected ← evaluate defences setting callees item scope
    if matchesValue value expected then matchItems scope id items (index + 1) made
    else return none

/-- The bindings that a pattern makes, if it matches the subject. -/
def matchPattern (pattern : Bare) (subject : Value) (scope : ScopeId) :
    Run (Option (Bindings Value)) := do
  match pattern with
  | .string _ text => return matchText text subject
  | .array _ items =>
    match ← arrayOfSize items.length subject with
    | some id => matchItems defences setting callees scope id items 0 []
    | none => return none
  | _ => return matchValue subject (← evaluate defences setting callees pattern scope)

/-- Binds the names of a loop, as far as it has any. -/
def bindNames (scope : ScopeId) (item index : Option String) (value key : Value) : Run Unit := do
  match item with
  | some item => define scope item value
  | none => return ()
  match index with
  | some index => define scope index key
  | none => return ()

mutual

/-- Executes a node in a scope. -/
def execute : Bare → ScopeId → Run Flow
  | .expr _ inner, scope => do
    let _ ← evaluate defences setting callees inner scope
    return .next
  | .var token name value, scope => do
    let value ← evaluate defences setting callees value scope
    define scope name value
    record setting 2 token.offset (return .define name (← render value))
    return .next
  | .block inner, scope => executeBlock inner scope
  | .loop _ item index none body, scope => do
    let scope ← newScope scope
    forever (do
      bindNames scope item index .nil .nil
      executeBlock body scope) setting.limits.rounds
  | .loop _ item index (some iterable) body, scope => do
    let value ← evaluate defences setting callees iterable scope
    let iteration ← liftAt iterable.token.offset ((← get).store.iteration value)
    let scope ← newScope scope
    forEach setting.limits (fun value key => do
      bindNames scope item index value key
      executeBlock body scope) iteration
  | .conditional token condition thenBlock otherwise, scope => do
    let value ← evaluate defences setting callees condition scope
    record setting 3 token.offset (return .condition (← render value) value.isTruthy)
    if value.isTruthy then executeBlock thenBlock scope
    else executeOtherwise otherwise scope
  | .select _ subject arms, scope => do
    let subject ← evaluate defences setting callees subject scope
    executeArms arms subject scope
  | .returns _ none, _ => return .returned .nil
  | .returns _ (some value), scope => do
    return .returned (← evaluate defences setting callees value scope)
  | .breaks token, _ => return .broke token.offset
  | .continues token, _ => return .continued token.offset
  | node, _ => defences.statement node

/-- Executes nodes in a scope, up to the first that does not go on. -/
def executeAll : List Bare → ScopeId → Run Flow
  | [], _ => return .next
  | first :: more, scope => do
    match ← execute first scope with
    | .next => executeAll more scope
    | flow => return flow

/-- Executes the nodes of a block in a given scope. -/
def executeBody : BareBlock → ScopeId → Run Flow
  | ⟨_, statements⟩, scope => executeAll statements scope

/-- Executes the nodes of a block in a scope of its own. -/
def executeBlock : BareBlock → ScopeId → Run Flow
  | ⟨_, statements⟩, scope => do
    let scope ← newScope scope
    executeAll statements scope

/-- Executes what is done when a condition does not hold. -/
def executeOtherwise : Option Bare → ScopeId → Run Flow
  | none, _ => return .next
  | some node, scope => execute node scope

/-- Executes the first arm whose pattern matches the subject. -/
def executeArms : List BareArm → (subject : Value) → ScopeId → Run Flow
  | [], _, _ => return .next
  | ⟨pattern, body⟩ :: arms, subject, scope => do
    match ← matchPattern defences setting callees pattern subject scope with
    | none => executeArms arms subject scope
    | some bindings =>
      recordSelect setting subject pattern.token.offset
      let scope ← newScope scope
      defineAll scope bindings
      executeBody body scope

end

end Bare

theorem Value.equals_ne_unknownOperator (a b : Value) (kind : TokenKind) :
    a.equals b ≠ .error (.unknownOperator kind) := by
  intro hrefused
  unfold Value.equals at hrefused
  split at hrefused <;> cases hrefused

theorem Operator.arithmetic_ne_unknownOperator (op : Operator) (a b : Value) (kind : TokenKind) :
    op.arithmetic a b ≠ .error (.unknownOperator kind) := by
  intro hrefused
  unfold Operator.arithmetic at hrefused
  split at hrefused
  case h_1 =>
    unfold Operator.onNumbers at hrefused
    cases op with
    | divide | modulo =>
      dsimp only at hrefused
      split at hrefused <;> cases hrefused
    | _ => cases hrefused
  case h_2 => cases hrefused

/-- An operator is never unknown. -/
theorem Operator.apply_ne_unknownOperator
    (op : Operator) (store : Store) (a b : Value) (kind : TokenKind) :
    op.apply store a b ≠ .error (.unknownOperator kind) := by
  have hjoins : Operator.concatenate store a b ≠ .error (.unknownOperator kind) := by
    intro hrefused
    unfold Operator.concatenate at hrefused
    split at hrefused <;> cases hrefused
  have hcompares (result : Bool → Value) :
      (a.equals b).map result ≠ .error (.unknownOperator kind) := by
    intro hrefused
    cases hequal : a.equals b with
    | ok same =>
      rw [hequal] at hrefused
      cases hrefused
    | error cause =>
      rw [hequal] at hrefused
      cases hrefused
      exact Value.equals_ne_unknownOperator a b kind hequal
  unfold Operator.apply
  split
  · exact hjoins
  · exact hjoins
  · exact hcompares _
  · exact hcompares _
  · exact op.arithmetic_ne_unknownOperator a b kind

/-- A token of the kind of an operator is applied as the operator is. -/
theorem Bare.applyToken_of_operator
    {token : Token} {op : Operator}
    (hkind : token.kind = op.kind) (defences : Defences) (a b : Value) :
    Bare.applyToken defences token a b = (do
      Run.liftAt token.offset (op.apply (← get).store a b)) := by
  have happlies (store : Store) : token.kind.apply store a b = op.apply store a b := by
    rw [TokenKind.apply, hkind, Operator.ofKind?_kind]
  unfold Bare.applyToken
  simp only [happlies]
  refine congrArg _ (funext fun state => ?_)
  split
  case h_1 kind hunknown => exact absurd hunknown (op.apply_ne_unknownOperator _ _ _ kind)
  case h_2 => rfl

/-- A standard function never enters a section. -/
theorem Native.call_of_standard
    {native : Native}
    (hstandard : native ∈ Native.standard) (setting : Setting) (enter enter' : String → Run Value)
    (args : List Value) :
    native.call setting enter args = native.call setting enter' args := by
  have hperforms : native.perform setting enter args = native.perform setting enter' args := by
    unfold Native.perform
    split
    case h_14 name target => simp [Native.standard] at hstandard
    all_goals rfl
  rw [Native.call, Native.call, hperforms]

/-! ## Runs that are the same under a policy -/

namespace Policy

variable {P : Policy} {α β : Type}

/-- Two runs are the same from every store that holds what it may. -/
def Same (P : Policy) (run run' : Run α) : Prop :=
  ∀ state : State, state.store.Every P.Fits → run state = run' state

/-- The calls that are handed in to two evaluations are the same. -/
def Agree (P : Policy) (callees callees' : Callees) : Prop :=
  ∀ {offset : Nat} {closure : Closure} {args : List Value},
    P.Fits (.closure closure) → (∀ arg ∈ args, P.Fits arg) →
      P.Same (callees.call offset closure args) (callees'.call offset closure args)

theorem Same.refl (run : Run α) : P.Same run run :=
  fun _ _ => rfl

theorem Same.bind
    {results : α → Prop} {run run' : Run α} {next next' : α → Run β}
    (hsame : P.Same run run') (hmeets : P.Meets P.halts results run)
    (hmore : ∀ value, results value → P.Same (next value) (next' value)) :
    P.Same (run >>= next) (run' >>= next') := by
  intro state hholds
  have hends := hmeets state hholds
  have hfirst := hsame state hholds
  change EStateM.bind run next state = EStateM.bind run' next' state
  unfold EStateM.bind
  rw [← hfirst]
  generalize run state = result at hends ⊢
  cases hends with
  | ok hholds hgiven => exact hmore _ hgiven _ hholds
  | error hholds hhalted => rfl

theorem same_get_bind
    {next next' : State → Run α}
    (hmore : ∀ state : State, state.store.Every P.Fits → P.Same (next state) (next' state)) :
    P.Same (get >>= next) (get >>= next') :=
  fun state hholds => hmore state hholds state hholds

/-! ## Loops -/

theorem same_round
    {round round' rest rest' : Run Flow}
    (hsame : P.Same round round') (hmeets : P.Meets P.halts P.FlowFits round)
    (hmore : P.Same rest rest') :
    P.Same
      (do
        match ← round with
        | .broke _ => return .next
        | .returned value => return .returned value
        | _ => rest)
      (do
        match ← round' with
        | .broke _ => return .next
        | .returned value => return .returned value
        | _ => rest') := by
  refine hsame.bind hmeets fun flow _ => ?_
  cases flow with
  | next | continued => exact hmore
  | broke | returned => exact .refl _

theorem same_rounds
    {α : Type} {body body' : α → Run Flow} {items : List α}
    (hbody : ∀ item ∈ items,
      P.Same (body item) (body' item) ∧ P.Meets P.halts P.FlowFits (body item))
    (after : Run Flow) :
    P.Same (Run.rounds body after items) (Run.rounds body' after items) := by
  induction items with
  | nil => exact .refl _
  | cons item items ih =>
    obtain ⟨⟨hsame, hmeets⟩, hitems⟩ := List.forall_mem_cons.mp hbody
    rw [Run.rounds, Run.rounds]
    exact same_round hsame hmeets (ih hitems)

theorem same_forEach
    {body body' : Value → Value → Run Flow} {iteration : Iteration}
    (hfits : P.IterationFits iteration)
    (hbody : ∀ item key, P.Fits item → P.Fits key →
      P.Same (body item key) (body' item key) ∧ P.Meets P.halts P.FlowFits (body item key))
    (limits : Limits) :
    P.Same (Run.forEach limits body iteration) (Run.forEach limits body' iteration) := by
  rw [Run.forEach_eq_rounds, Run.forEach_eq_rounds]
  refine same_rounds (fun pair hpair => ?_) _
  obtain ⟨hitem, hkey⟩ := hfits.pairs limits pair hpair
  exact hbody pair.1 pair.2 hitem hkey

/-! ## Calls -/

theorem same_callValue
    {setting : Setting} {callees callees' : Callees} {offset : Nat} {callee : Value}
    {args : List Value}
    (hagree : P.Agree callees callees') (hblames : P.Blames offset) (hfits : P.Fits callee)
    (hfitsAll : ∀ arg ∈ args, P.Fits arg) :
    P.Same (Run.callValue setting callees offset callee args)
      (Run.callValue setting callees' offset callee args) := by
  refine (Same.refl _).bind (meets_record hblames 3 (.call callee args)) fun _ _ => ?_
  cases hfits with
  | native hstandard =>
    have hsame := Native.call_of_standard hstandard setting callees.enter callees'.enter args
    simp only [hsame]
    exact .refl _
  | closure hadmits => exact hagree (.closure hadmits) hfitsAll
  | nil | number | string | array | map | range => exact .refl _

/-! ## Expressions -/

/-- The nodes of a policy have their own tokens, and what is handed in to an evaluation meets the
policy and is the same as what is handed in to another one. -/
structure Mirrors (P : Policy) (tokenAt : Nat → Token) (setting : Setting)
    (callees callees' : Callees) : Prop where
  spells {node : Node} : P.admits node → node.SpelledBy tokenAt
  laws : P.Laws setting
  welcomes : P.Welcomes callees
  agree : P.Agree callees callees'

variable {tokenAt : Nat → Token} {defences : Defences} {setting : Setting}
  {callees callees' : Callees}

mutual

/-- The bare tree of an expression whose tokens are its own is evaluated as the expression is. -/
theorem same_evaluate (hmirrors : P.Mirrors tokenAt setting callees callees') :
    ∀ (e : Expr) (scope : ScopeId), P.Admits (.expr e) →
      P.Same (evaluate setting callees e scope)
        ((e.bare tokenAt).evaluate defences setting callees' scope)
  | .string _ _, _, _ => .refl _
  | .number _ _, _, _ => .refl _
  | .nil _, _, _ => .refl _
  | .ident offset name, scope, hadmits => by
    have hplace : (tokenAt offset).offset = offset := (hmirrors.spells hadmits.self).offset
    rw [evaluate, Expr.bare, Bare.evaluate, hplace]
    exact .refl _
  | .array _ items, scope, hadmits => by
    have hadmitsAll : ∀ item ∈ items, P.Admits (.expr item) := fun item hitem =>
      hadmits.child (List.mem_map_of_mem hitem)
    rw [evaluate, Expr.bare, Bare.evaluate]
    exact (same_evaluateAll hmirrors items scope hadmitsAll).bind
      (meets_evaluateAll hmirrors.laws hmirrors.welcomes items scope hadmitsAll) fun _ _ => .refl _
  | .map _ entries, scope, hadmits => by
    have hadmitsAll : ∀ entry ∈ entries, P.Admits (.expr entry.2) := fun entry hentry =>
      hadmits.child (List.mem_map_of_mem hentry)
    rw [evaluate, Expr.bare, Bare.evaluate]
    exact (same_evaluateEntries hmirrors entries scope hadmitsAll).bind
      (meets_evaluateEntries hmirrors.laws hmirrors.welcomes entries scope hadmitsAll)
      fun _ _ => .refl _
  | .negate offset operand, scope, hadmits => by
    have hplace : (tokenAt offset).offset = offset := (hmirrors.spells hadmits.self).offset
    have hinner := hadmits.child List.mem_cons_self
    rw [evaluate, Expr.bare, Bare.evaluate, hplace]
    exact (same_evaluate hmirrors operand scope hinner).bind
      (meets_evaluate hmirrors.laws hmirrors.welcomes operand scope hinner) fun _ _ => .refl _
  | .binary offset op left right, scope, hadmits => by
    have hplace : (tokenAt offset).offset = offset := (hmirrors.spells hadmits.self).offset
    have hkind : (tokenAt offset).kind = op.kind := (hmirrors.spells hadmits.self).sign rfl
    have hadmitsLeft := hadmits.child List.mem_cons_self
    have hadmitsRight := hadmits.child (List.mem_cons_of_mem _ List.mem_cons_self)
    have hnotAssign : (tokenAt offset).kind ≠ .assign := hkind ▸ op.kind_ne_assign
    have hnotBracket : (tokenAt offset).kind ≠ .leftBracket := by
      rw [hkind]
      cases op <;> decide
    rw [evaluate, Expr.bare, Bare.evaluate, if_neg hnotAssign]
    refine (same_evaluate hmirrors left scope hadmitsLeft).bind
      (meets_evaluate hmirrors.laws hmirrors.welcomes left scope hadmitsLeft) fun a _ => ?_
    refine (same_evaluate hmirrors right scope hadmitsRight).bind
      (meets_evaluate hmirrors.laws hmirrors.welcomes right scope hadmitsRight) fun b _ => ?_
    rw [if_neg hnotBracket, Bare.applyToken_of_operator hkind, hplace]
    exact .refl _
  | .subscript offset container key, scope, hadmits => by
    have hplace : (tokenAt offset).offset = offset := (hmirrors.spells hadmits.self).offset
    have hkind : (tokenAt offset).kind = .leftBracket := (hmirrors.spells hadmits.self).sign rfl
    have hadmitsContainer := hadmits.child List.mem_cons_self
    have hadmitsKey := hadmits.child (List.mem_cons_of_mem _ List.mem_cons_self)
    have hnotAssign : (tokenAt offset).kind ≠ .assign := by
      rw [hkind]
      decide
    rw [evaluate, Expr.bare, Bare.evaluate, if_neg hnotAssign]
    refine (same_evaluate hmirrors container scope hadmitsContainer).bind
      (meets_evaluate hmirrors.laws hmirrors.welcomes container scope hadmitsContainer)
      fun _ _ => ?_
    refine (same_evaluate hmirrors key scope hadmitsKey).bind
      (meets_evaluate hmirrors.laws hmirrors.welcomes key scope hadmitsKey) fun _ _ => ?_
    rw [if_pos hkind, hplace]
    exact .refl _
  | .assign offset targetOffset name value, scope, hadmits => by
    have hkind : (tokenAt offset).kind = .assign := (hmirrors.spells hadmits.self).sign rfl
    have hadmitsValue := hadmits.child (List.mem_cons_of_mem _ List.mem_cons_self)
    rw [evaluate, Expr.bare, Bare.evaluate, if_pos hkind]
    exact (same_evaluate hmirrors value scope hadmitsValue).bind
      (meets_evaluate hmirrors.laws hmirrors.welcomes value scope hadmitsValue) fun _ _ => .refl _
  | .store offset targetOffset container key value, scope, hadmits => by
    have hplace : (tokenAt offset).offset = offset := (hmirrors.spells hadmits.self).offset
    have hkind : (tokenAt offset).kind = .assign := (hmirrors.spells hadmits.self).sign rfl
    have htarget := hadmits.child List.mem_cons_self
    have hbracket : (tokenAt targetOffset).kind = .leftBracket :=
      (hmirrors.spells htarget.self).sign rfl
    have hadmitsValue := hadmits.child (List.mem_cons_of_mem _ List.mem_cons_self)
    have hadmitsContainer := htarget.child List.mem_cons_self
    have hadmitsKey := htarget.child (List.mem_cons_of_mem _ List.mem_cons_self)
    rw [evaluate, Expr.bare, Bare.evaluate, if_pos hkind]
    refine (same_evaluate hmirrors value scope hadmitsValue).bind
      (meets_evaluate hmirrors.laws hmirrors.welcomes value scope hadmitsValue) fun _ _ => ?_
    dsimp only
    rw [if_pos hbracket, hplace]
    refine (same_evaluate hmirrors container scope hadmitsContainer).bind
      (meets_evaluate hmirrors.laws hmirrors.welcomes container scope hadmitsContainer)
      fun _ _ => ?_
    exact (same_evaluate hmirrors key scope hadmitsKey).bind
      (meets_evaluate hmirrors.laws hmirrors.welcomes key scope hadmitsKey) fun _ _ => .refl _
  | .call offset callee args, scope, hadmits => by
    have hplace : (tokenAt offset).offset = offset := (hmirrors.spells hadmits.self).offset
    have hadmitsCallee := hadmits.child List.mem_cons_self
    have hadmitsArgs : ∀ arg ∈ args, P.Admits (.expr arg) := fun arg harg =>
      hadmits.child (List.mem_cons_of_mem _ (List.mem_map_of_mem harg))
    rw [evaluate, Expr.bare, Bare.evaluate, hplace]
    refine (same_evaluate hmirrors callee scope hadmitsCallee).bind
      (meets_evaluate hmirrors.laws hmirrors.welcomes callee scope hadmitsCallee) fun _ hfits => ?_
    refine (same_evaluateAll hmirrors args scope hadmitsArgs).bind
      (meets_evaluateAll hmirrors.laws hmirrors.welcomes args scope hadmitsArgs)
      fun _ hfitsAll => ?_
    exact same_callValue hmirrors.agree (hmirrors.laws.blames hadmits.self) hfits hfitsAll
  | .function ⟨_, _, _, _⟩, _, _ => .refl _

theorem same_evaluateAll (hmirrors : P.Mirrors tokenAt setting callees callees') :
    ∀ (items : List Expr) (scope : ScopeId), (∀ item ∈ items, P.Admits (.expr item)) →
      P.Same (evaluateAll setting callees items scope)
        (Bare.evaluateAll defences setting callees' (Expr.bareAll tokenAt items) scope)
  | [], _, _ => .refl _
  | item :: items, scope, hadmits => by
    obtain ⟨hfirst, hmore⟩ := List.forall_mem_cons.mp hadmits
    rw [evaluateAll, Expr.bareAll, Bare.evaluateAll]
    refine (same_evaluate hmirrors item scope hfirst).bind
      (meets_evaluate hmirrors.laws hmirrors.welcomes item scope hfirst) fun _ _ => ?_
    exact (same_evaluateAll hmirrors items scope hmore).bind
      (meets_evaluateAll hmirrors.laws hmirrors.welcomes items scope hmore) fun _ _ => .refl _

theorem same_evaluateEntries (hmirrors : P.Mirrors tokenAt setting callees callees') :
    ∀ (entries : List (String × Expr)) (scope : ScopeId),
      (∀ entry ∈ entries, P.Admits (.expr entry.2)) →
      P.Same (evaluateEntries setting callees entries scope)
        (Bare.evaluateEntries defences setting callees' (Expr.bareEntries tokenAt entries) scope)
  | [], _, _ => .refl _
  | (key, item) :: entries, scope, hadmits => by
    obtain ⟨hfirst, hmore⟩ := List.forall_mem_cons.mp hadmits
    rw [evaluateEntries, Expr.bareEntries, Bare.evaluateEntries]
    refine (same_evaluate hmirrors item scope hfirst).bind
      (meets_evaluate hmirrors.laws hmirrors.welcomes item scope hfirst) fun _ _ => ?_
    exact (same_evaluateEntries hmirrors entries scope hmore).bind
      (meets_evaluateEntries hmirrors.laws hmirrors.welcomes entries scope hmore) fun _ _ => .refl _

end

/-! ## Patterns -/

theorem token_bare
    (hmirrors : P.Mirrors tokenAt setting callees callees')
    {e : Expr}
    (hadmits : P.Admits (.expr e)) :
    (e.bare tokenAt).token.offset = e.offset := by
  have hplace : (tokenAt e.offset).offset = e.offset := (hmirrors.spells hadmits.self).offset
  have htoken : (e.bare tokenAt).token = tokenAt e.offset := by
    cases e with
    | function f =>
      obtain ⟨offset, name, params, body⟩ := f
      rfl
    | _ => rfl
  rw [htoken, hplace]

theorem same_matchItems
    {items : List Expr}
    (hmirrors : P.Mirrors tokenAt setting callees callees')
    (hadmits : ∀ item ∈ items, P.Admits (.expr item)) (scope : ScopeId) (id : ArrayId) (index : Nat)
    (made : Bindings Value) :
    P.Same (matchItems setting callees scope id items index made)
      (Bare.matchItems defences setting callees' scope id (Expr.bareAll tokenAt items) index
        made) := by
  induction items generalizing index made with
  | nil => exact .refl _
  | cons item items ih =>
    obtain ⟨hfirst, hmore⟩ := List.forall_mem_cons.mp hadmits
    have hevaluated : P.Same
        (do
          let value ← Run.itemAt id index
          let expected ← evaluate setting callees item scope
          if Run.matchesValue value expected then
            matchItems setting callees scope id items (index + 1) made
          else return none)
        (do
          let value ← Run.itemAt id index
          let expected ← (item.bare tokenAt).evaluate defences setting callees' scope
          if Run.matchesValue value expected then
            Bare.matchItems defences setting callees' scope id (Expr.bareAll tokenAt items)
              (index + 1) made
          else return none) := by
      refine (Same.refl _).bind (meets_itemAt id index) fun value _ => ?_
      refine (same_evaluate hmirrors item scope hfirst).bind
        (meets_evaluate hmirrors.laws hmirrors.welcomes item scope hfirst) fun expected _ => ?_
      split
      · exact ih hmore (index + 1) made
      · exact .refl _
    cases item with
    | ident offset name =>
      refine (Same.refl _).bind (meets_itemAt id index) fun value _ => ?_
      exact ih hmore (index + 1) _
    | function f =>
      obtain ⟨offset, name, params, body⟩ := f
      exact hevaluated
    | _ => exact hevaluated

theorem same_matchPattern
    {pattern : Expr}
    (hmirrors : P.Mirrors tokenAt setting callees callees') (hadmits : P.Admits (.expr pattern))
    (subject : Value) (scope : ScopeId) :
    P.Same (matchPattern setting callees pattern subject scope)
      (Bare.matchPattern defences setting callees' (pattern.bare tokenAt) subject scope) := by
  have hevaluated : P.Same
      (do return Run.matchValue subject (← evaluate setting callees pattern scope))
      (do
        return Run.matchValue subject
          (← (pattern.bare tokenAt).evaluate defences setting callees' scope)) :=
    (same_evaluate hmirrors pattern scope hadmits).bind
      (meets_evaluate hmirrors.laws hmirrors.welcomes pattern scope hadmits) fun _ _ => .refl _
  cases pattern with
  | string offset text => exact .refl _
  | array offset items =>
    have hsameLength : (Expr.bareAll tokenAt items).length = items.length := by
      rw [Expr.bareAll_eq_map, List.length_map]
    have hadmitsAll : ∀ item ∈ items, P.Admits (.expr item) := fun item hitem =>
      hadmits.child (List.mem_map_of_mem hitem)
    rw [matchPattern, Expr.bare, Bare.matchPattern, hsameLength]
    refine (Same.refl _).bind (meets_arrayOfSize items.length subject) fun found _ => ?_
    cases found with
    | none => exact .refl _
    | some id => exact same_matchItems hmirrors hadmitsAll scope id 0 []
  | function f =>
    obtain ⟨offset, name, params, body⟩ := f
    exact hevaluated
  | _ => exact hevaluated

/-! ## Statements -/

mutual

/-- The bare tree of a statement whose tokens are its own is executed as the statement is. -/
theorem same_execute (hmirrors : P.Mirrors tokenAt setting callees callees') :
    ∀ (statement : Stmt) (scope : ScopeId), P.Admits (.statement statement) →
      P.Same (execute setting callees statement scope)
        ((statement.bare tokenAt).execute defences setting callees' scope)
  | .expr _ value, scope, hadmits => by
    have hinner := hadmits.child List.mem_cons_self
    rw [execute, Stmt.bare, Bare.execute]
    exact (same_evaluate hmirrors value scope hinner).bind
      (meets_evaluate hmirrors.laws hmirrors.welcomes value scope hinner) fun _ _ => .refl _
  | .var offset name value, scope, hadmits => by
    have hplace : (tokenAt offset).offset = offset := (hmirrors.spells hadmits.self).offset
    have hinner := hadmits.child List.mem_cons_self
    rw [execute, Stmt.bare, Bare.execute, hplace]
    exact (same_evaluate hmirrors value scope hinner).bind
      (meets_evaluate hmirrors.laws hmirrors.welcomes value scope hinner) fun _ _ => .refl _
  | .block block, scope, hadmits => by
    rw [execute, Stmt.bare, Bare.execute]
    exact same_executeBlock hmirrors block scope hadmits
  | .forever _ body, scope, hadmits => by
    have hinner := hadmits.child List.mem_cons_self
    rw [execute, Stmt.bare, Bare.execute]
    refine (Same.refl _).bind (meets_newScope scope) fun loopScope _ => ?_
    rw [Run.forever_eq_rounds, Run.forever_eq_rounds]
    refine same_rounds (fun _ _ => ⟨?_, ?_⟩) _
    · exact same_executeBlock hmirrors body loopScope hinner
    · exact meets_executeBlock hmirrors.laws hmirrors.welcomes body loopScope hinner
  | .forEach _ item index iterable body, scope, hadmits => by
    have hadmitsIterable := hadmits.child List.mem_cons_self
    have hadmitsBody := hadmits.child (List.mem_cons_of_mem _ List.mem_cons_self)
    rw [execute, Stmt.bare, Bare.execute, token_bare hmirrors hadmitsIterable]
    refine (same_evaluate hmirrors iterable scope hadmitsIterable).bind
      (meets_evaluate hmirrors.laws hmirrors.welcomes iterable scope hadmitsIterable)
      fun value hfits => ?_
    refine same_get_bind fun state hholds => ?_
    have hiterates : P.Meets P.halts P.IterationFits
        (Run.liftAt iterable.offset (state.store.iteration value)) :=
      meets_liftAt (hmirrors.laws.blames hadmitsIterable.self)
        (fun _ => iterationFits_of_iteration hholds hfits) fun _ => Store.ordinary_of_iteration
    refine (Same.refl _).bind hiterates fun iteration hfitsAll => ?_
    refine (Same.refl _).bind (meets_newScope scope) fun loopScope _ => ?_
    have hrounds (value key : Value) (hfits : P.Fits value) (hfitsKey : P.Fits key) :
        P.Meets P.halts (fun _ => True) (Run.bindLoop loopScope item index value key) :=
      meets_bindLoop hfits hfitsKey loopScope item index
    refine same_forEach hfitsAll (fun value key hfits hfitsKey => ⟨?_, ?_⟩) setting.limits
    · exact (Same.refl _).bind (hrounds value key hfits hfitsKey) fun _ _ =>
        same_executeBlock hmirrors body loopScope hadmitsBody
    · exact (hrounds value key hfits hfitsKey).bind fun _ _ =>
        meets_executeBlock hmirrors.laws hmirrors.welcomes body loopScope hadmitsBody
  | .conditional inner, scope, hadmits => by
    rw [execute, Stmt.bare]
    exact same_executeConditional hmirrors inner scope hadmits
  | .select offset subject arms, scope, hadmits => by
    have hadmitsSubject := hadmits.child List.mem_cons_self
    rw [execute, Stmt.bare, Bare.execute]
    refine (same_evaluate hmirrors subject scope hadmitsSubject).bind
      (meets_evaluate hmirrors.laws hmirrors.welcomes subject scope hadmitsSubject)
      fun value _ => ?_
    refine same_executeArms hmirrors arms value scope fun arm harm => ⟨?_, ?_⟩
    · apply hadmits.child
      exact List.mem_cons_of_mem _ (List.mem_flatMap.mpr ⟨arm, harm, List.mem_cons_self⟩)
    · exact hadmits.child (mem_children_of_arm harm offset _)
  | .returns _ none, _, _ => .refl _
  | .returns _ (some value), scope, hadmits => by
    have hinner := hadmits.child List.mem_cons_self
    rw [execute, Stmt.bare, Bare.execute]
    exact (same_evaluate hmirrors value scope hinner).bind
      (meets_evaluate hmirrors.laws hmirrors.welcomes value scope hinner) fun _ _ => .refl _
  | .breaks offset, _, hadmits => by
    have hplace : (tokenAt offset).offset = offset := (hmirrors.spells hadmits.self).offset
    rw [execute, Stmt.bare, Bare.execute, hplace]
    exact .refl _
  | .continues offset, _, hadmits => by
    have hplace : (tokenAt offset).offset = offset := (hmirrors.spells hadmits.self).offset
    rw [execute, Stmt.bare, Bare.execute, hplace]
    exact .refl _

theorem same_executeAll (hmirrors : P.Mirrors tokenAt setting callees callees') :
    ∀ (statements : List Stmt) (scope : ScopeId),
      (∀ statement ∈ statements, P.Admits (.statement statement)) →
      P.Same (executeAll setting callees statements scope)
        (Bare.executeAll defences setting callees' (Stmt.bareAll tokenAt statements) scope)
  | [], _, _ => .refl _
  | first :: more, scope, hadmits => by
    obtain ⟨hadmitsFirst, hadmitsMore⟩ := List.forall_mem_cons.mp hadmits
    rw [executeAll, Stmt.bareAll, Bare.executeAll]
    refine (same_execute hmirrors first scope hadmitsFirst).bind
      (meets_execute hmirrors.laws hmirrors.welcomes first scope hadmitsFirst) fun flow _ => ?_
    cases flow with
    | next => exact same_executeAll hmirrors more scope hadmitsMore
    | returned | broke | continued => exact .refl _

theorem same_executeBody (hmirrors : P.Mirrors tokenAt setting callees callees') :
    ∀ (block : Block) (scope : ScopeId), P.Admits (.statement (.block block)) →
      P.Same (executeBody setting callees block scope)
        (Bare.executeBody defences setting callees' (block.bare tokenAt) scope)
  | ⟨_, statements⟩, scope, hadmits => by
    rw [executeBody, Block.bare, Bare.executeBody]
    exact same_executeAll hmirrors statements scope fun _ hstatement =>
      hadmits.child (List.mem_map_of_mem hstatement)

theorem same_executeBlock (hmirrors : P.Mirrors tokenAt setting callees callees') :
    ∀ (block : Block) (scope : ScopeId), P.Admits (.statement (.block block)) →
      P.Same (executeBlock setting callees block scope)
        (Bare.executeBlock defences setting callees' (block.bare tokenAt) scope)
  | ⟨_, statements⟩, scope, hadmits => by
    rw [executeBlock, Block.bare, Bare.executeBlock]
    refine (Same.refl _).bind (meets_newScope scope) fun inner _ => ?_
    exact same_executeAll hmirrors statements inner fun _ hstatement =>
      hadmits.child (List.mem_map_of_mem hstatement)

theorem same_executeConditional (hmirrors : P.Mirrors tokenAt setting callees callees') :
    ∀ (inner : Conditional) (scope : ScopeId), P.Admits (.statement (.conditional inner)) →
      P.Same (executeConditional setting callees inner scope)
        ((inner.bare tokenAt).execute defences setting callees' scope)
  | ⟨offset, condition, thenBlock, otherwise⟩, scope, hadmits => by
    have hplace : (tokenAt offset).offset = offset := (hmirrors.spells hadmits.self).offset
    have hadmitsCondition := hadmits.child List.mem_cons_self
    rw [executeConditional, Conditional.bare, Bare.execute, hplace]
    refine (same_evaluate hmirrors condition scope hadmitsCondition).bind
      (meets_evaluate hmirrors.laws hmirrors.welcomes condition scope hadmitsCondition)
      fun value _ => ?_
    refine (Same.refl _).bind
      (meets_record (hmirrors.laws.blames hadmits.self) 3 (.condition value)) fun _ _ => ?_
    split
    · exact same_executeBlock hmirrors thenBlock scope
        (hadmits.child (List.mem_cons_of_mem _ List.mem_cons_self))
    · exact same_executeAlternative hmirrors otherwise scope fun child hchild =>
        hadmits.child (List.mem_cons_of_mem _ (List.mem_cons_of_mem _ hchild))

theorem same_executeAlternative (hmirrors : P.Mirrors tokenAt setting callees callees') :
    ∀ (otherwise : Alternative) (scope : ScopeId),
      (∀ child ∈ otherwise.children, P.Admits child) →
      P.Same (executeAlternative setting callees otherwise scope)
        (Bare.executeOtherwise defences setting callees' (otherwise.bare tokenAt) scope)
  | .nothing, _, _ => .refl _
  | .block block, scope, hadmits => by
    rw [executeAlternative, Alternative.bare, Bare.executeOtherwise, Bare.execute]
    exact same_executeBlock hmirrors block scope (hadmits _ List.mem_cons_self)
  | .conditional inner, scope, hadmits => by
    rw [executeAlternative, Alternative.bare, Bare.executeOtherwise]
    exact same_executeConditional hmirrors inner scope (hadmits _ List.mem_cons_self)

theorem same_executeArms (hmirrors : P.Mirrors tokenAt setting callees callees') :
    ∀ (arms : List Arm) (subject : Value) (scope : ScopeId),
      (∀ arm ∈ arms, P.Admits (.expr arm.pattern) ∧ P.Admits (.statement (.block arm.body))) →
      P.Same (executeArms setting callees arms subject scope)
        (Bare.executeArms defences setting callees' (Arm.bareAll tokenAt arms) subject scope)
  | [], _, _, _ => .refl _
  | ⟨pattern, body⟩ :: arms, subject, scope, hadmits => by
    obtain ⟨⟨hadmitsPattern, hadmitsBody⟩, hadmitsMore⟩ := List.forall_mem_cons.mp hadmits
    rw [executeArms, Arm.bareAll, Bare.executeArms, token_bare hmirrors hadmitsPattern]
    refine (same_matchPattern hmirrors hadmitsPattern subject scope).bind
      (meets_matchPattern hmirrors.laws hmirrors.welcomes hadmitsPattern subject scope)
      fun found hfits => ?_
    cases found with
    | none => exact same_executeArms hmirrors arms subject scope hadmitsMore
    | some bindings =>
      refine (Same.refl _).bind (meets_record (hmirrors.laws.blames hadmitsPattern.self) 3
        (.select subject pattern.offset)) fun _ _ => ?_
      refine (Same.refl _).bind (meets_newScope scope) fun inner _ => ?_
      refine (Same.refl _).bind (meets_defineAll (hfits bindings rfl) inner) fun _ _ => ?_
      exact same_executeBody hmirrors body inner hadmitsBody

end

end Policy

end PuzzleLang
