import PuzzleLang.Proofs.Run.Evaluation
import PuzzleLang.Proofs.Run.Halting
import PuzzleLang.Proofs.Run.Rounds

/-!
# Where a sequence halts

Operands, statements, rounds of a loop, arms and items of a pattern are run one after the other.
Such a sequence halts just if one of its parts does, in the state that the parts before it have led
to.  This says which parts are run, and in which states.
-/

namespace PuzzleLang

/-- Whether a loop goes on after a round. -/
def Flow.goesOn : Flow → Bool
  | .next | .continued _ => true
  | .broke _ | .returned _ => false

namespace Run

section

variable {α β : Type} {run : Run α} {next : α → Run β} {state state' : State} {halt : Halt}

theorem Halts.bind (h : run.Halts state halt) : (run >>= next).Halts state halt :=
  halts_bind_iff.mpr (.inl h)

theorem Halts.after
    {value : α} (hran : run state = .ok value state') (h : (next value).Halts state' halt) :
    (run >>= next).Halts state halt :=
  halts_bind_iff.mpr (.inr ⟨value, state', hran, h⟩)

theorem halts_bind_of_ok {value : α} (hran : run state = .ok value state') :
    (run >>= next).Halts state halt ↔ (next value).Halts state' halt := by
  rw [Halts, bind_of_ok hran, Halts]

theorem not_halts_pure {value : α} : ¬ (pure value : Run α).Halts state halt := by
  rintro ⟨_, ⟨⟩⟩

end

/-! ## Rounds of a loop -/

section

variable {α : Type} {body : α → Run Flow} {after : Run Flow}

/-- The rounds for some items have been run, and the loop goes on. -/
inductive Passes (body : α → Run Flow) : List α → State → State → Prop
  | nil (state : State) : Passes body [] state state
  | cons {item : α} {items : List α} {flow : Flow} {state state' state'' : State} :
    body item state = .ok flow state' → flow.goesOn = true → Passes body items state' state'' →
      Passes body (item :: items) state state''

theorem rounds_cons_of_goesOn
    {item : α} {flow : Flow} {state state' : State}
    (hran : body item state = .ok flow state') (hgoesOn : flow.goesOn = true) (items : List α) :
    rounds body after (item :: items) state = rounds body after items state' := by
  rw [rounds, bind_of_ok hran]
  cases flow with
  | next | continued => rfl
  | broke | returned => cases hgoesOn

theorem Passes.rounds_append
    {before : List α} {state state' : State}
    (h : Passes body before state state') (items : List α) :
    rounds body after (before ++ items) state = rounds body after items state' := by
  induction h with
  | nil => rfl
  | cons hran hgoesOn _ ih =>
    rw [List.cons_append, rounds_cons_of_goesOn hran hgoesOn]
    exact ih

theorem halts_rounds_iff {items : List α} {state : State} {halt : Halt} :
    (rounds body after items).Halts state halt ↔
      (∃ before item later state', items = before ++ item :: later ∧
        Passes body before state state' ∧ (body item).Halts state' halt) ∨
      ∃ state', Passes body items state state' ∧ after.Halts state' halt := by
  constructor
  · intro hhalts
    induction items generalizing state with
    | nil => exact .inr ⟨state, .nil state, hhalts⟩
    | cons item items ih =>
      cases hran : body item state with
      | error given state' =>
        rw [rounds, Halts, bind_of_error hran] at hhalts
        obtain ⟨_, ⟨⟩⟩ := hhalts
        exact .inl ⟨[], item, items, state, rfl, .nil state, state', hran⟩
      | ok flow state' =>
        cases hgoesOn : flow.goesOn with
        | true =>
          rw [Halts, rounds_cons_of_goesOn hran hgoesOn] at hhalts
          rcases ih hhalts with ⟨before, inner, later, last, rfl, hpasses, hhalted⟩ |
            ⟨last, hpasses, hhalted⟩
          · exact .inl
              ⟨item :: before, inner, later, last, rfl, .cons hran hgoesOn hpasses, hhalted⟩
          · exact .inr ⟨last, .cons hran hgoesOn hpasses, hhalted⟩
        | false =>
          rw [rounds, halts_bind_of_ok hran] at hhalts
          cases flow with
          | broke | returned => exact absurd hhalts not_halts_pure
          | next | continued => cases hgoesOn
  · rintro (⟨before, item, later, state', rfl, hpasses, hhalted⟩ | ⟨state', hpasses, hhalted⟩)
    · rw [Halts, hpasses.rounds_append, rounds]
      exact hhalted.bind
    · rw [Halts, ← List.append_nil items, hpasses.rounds_append]
      exact hhalted

end

end Run

/-! ## Operands and statements -/

section

open Run

variable {setting : Setting} {callees : Callees} {scope : ScopeId} {state : State} {halt : Halt}

theorem evaluateAll_append (before items : List Expr) :
    evaluateAll setting callees (before ++ items) scope = (do
      let values ← evaluateAll setting callees before scope
      let more ← evaluateAll setting callees items scope
      return values ++ more) := by
  induction before with
  | nil => simp [evaluateAll]
  | cons item before ih => simp [evaluateAll, ih]

theorem halts_evaluateAll_iff {items : List Expr} :
    (evaluateAll setting callees items scope).Halts state halt ↔
      ∃ before item later values state', items = before ++ item :: later ∧
        evaluateAll setting callees before scope state = .ok values state' ∧
        (evaluate setting callees item scope).Halts state' halt := by
  constructor
  · intro hhalts
    induction items generalizing state with
    | nil =>
      rw [evaluateAll] at hhalts
      exact absurd hhalts not_halts_pure
    | cons item items ih =>
      rw [evaluateAll] at hhalts
      rcases halts_bind_iff.mp hhalts with hhalted | ⟨value, state', hran, hhalts⟩
      · exact ⟨[], item, items, [], state, rfl, by rw [evaluateAll]; rfl, hhalted⟩
      · rcases halts_bind_iff.mp hhalts with hhalted | ⟨values, state'', _, hhalted⟩
        · obtain ⟨before, inner, later, values, last, rfl, hranAll, hhalted⟩ := ih hhalted
          refine ⟨item :: before, inner, later, value :: values, last, rfl, ?_, hhalted⟩
          rw [evaluateAll, bind_of_ok hran, bind_of_ok hranAll]
          rfl
        · exact absurd hhalted not_halts_pure
  · rintro ⟨before, item, later, values, state', rfl, hran, hhalted⟩
    rw [evaluateAll_append, halts_bind_of_ok hran, evaluateAll]
    exact hhalted.bind.bind

theorem halts_executeAll_iff {statements : List Stmt} :
    (executeAll setting callees statements scope).Halts state halt ↔
      ∃ before statement later state', statements = before ++ statement :: later ∧
        executeAll setting callees before scope state = .ok .next state' ∧
        (execute setting callees statement scope).Halts state' halt := by
  constructor
  · intro hhalts
    induction statements generalizing state with
    | nil =>
      rw [executeAll] at hhalts
      exact absurd hhalts not_halts_pure
    | cons statement statements ih =>
      rw [executeAll] at hhalts
      rcases halts_bind_iff.mp hhalts with hhalted | ⟨flow, state', hran, hhalted⟩
      · exact ⟨[], statement, statements, state, rfl, by rw [executeAll]; rfl, hhalted⟩
      · cases flow with
        | next =>
          obtain ⟨before, inner, later, last, rfl, hranAll, hhalted⟩ := ih hhalted
          refine ⟨statement :: before, inner, later, last, rfl, ?_, hhalted⟩
          rw [executeAll, bind_of_ok hran]
          exact hranAll
        | returned | broke | continued => exact absurd hhalted not_halts_pure
  · rintro ⟨before, statement, later, state', rfl, hran, hhalted⟩
    induction before generalizing state with
    | nil =>
      rw [executeAll] at hran
      cases hran
      rw [List.nil_append, executeAll]
      exact hhalted.bind
    | cons first before ih =>
      rw [executeAll] at hran
      cases hfirst' : execute setting callees first scope state with
      | error given middle =>
        rw [bind_of_error hfirst'] at hran
        cases hran
      | ok flow middle =>
        rw [bind_of_ok hfirst'] at hran
        rw [List.cons_append, executeAll, halts_bind_of_ok hfirst']
        cases flow with
        | next => exact ih hran
        | returned | broke | continued => cases hran

/-! ## Patterns and arms -/

theorem halts_matchItems_iff
    {id : ArrayId} {items : List Expr} {index : Nat} {made : Bindings Value} :
    (matchItems setting callees scope id items index made).Halts state halt ↔
      ∃ before item later made' state', items = before ++ item :: later ∧
        matchItems setting callees scope id before index made state = .ok (some made') state' ∧
        (∀ offset name, item ≠ .ident offset name) ∧
        (evaluate setting callees item scope).Halts state' halt := by
  constructor
  · intro hhalts
    induction items generalizing index made state with
    | nil => exact absurd hhalts not_halts_pure
    | cons item items ih =>
      by_cases hname : ∃ offset name, item = .ident offset name
      · obtain ⟨offset, name, rfl⟩ := hname
        obtain ⟨before, inner, later, made', last, rfl, hran, hnotName, hhalted⟩ := ih hhalts
        exact ⟨.ident offset name :: before, inner, later, made', last, rfl, hran, hnotName,
          hhalted⟩
      · have hnotName : ∀ offset name, item ≠ .ident offset name := by
          intro offset name hsame
          exact hname ⟨offset, name, hsame⟩
        rw [Accord.matchItems_cons hnotName] at hhalts
        have hread : itemAt id index state =
            .ok ((state.store.items id).getD index .nil) state := rfl
        rw [halts_bind_of_ok hread] at hhalts
        rcases halts_bind_iff.mp hhalts with hhalted | ⟨expected, state', hran, hhalts⟩
        · exact ⟨[], item, items, made, state, rfl, rfl, hnotName, hhalted⟩
        · split at hhalts
          case isFalse => exact absurd hhalts not_halts_pure
          case isTrue hsame =>
            obtain ⟨before, inner, later, made', last, rfl, hranAll, hnotInner, hhalted⟩ :=
              ih hhalts
            refine ⟨item :: before, inner, later, made', last, rfl, ?_, hnotInner, hhalted⟩
            rw [Accord.matchItems_cons hnotName, bind_of_ok hread, bind_of_ok hran, if_pos hsame]
            exact hranAll
  · rintro ⟨before, item, later, made', state', rfl, hran, hnotName, hhalted⟩
    induction before generalizing index made state with
    | nil =>
      cases hran
      rw [List.nil_append, Accord.matchItems_cons hnotName]
      exact .after rfl hhalted.bind
    | cons first before ih =>
      by_cases hname : ∃ offset name, first = .ident offset name
      · obtain ⟨offset, name, rfl⟩ := hname
        exact ih hran
      · have hnotFirst : ∀ offset name, first ≠ .ident offset name := by
          intro offset name hsame
          exact hname ⟨offset, name, hsame⟩
        have hread : itemAt id index state =
            .ok ((state.store.items id).getD index .nil) state := rfl
        rw [Accord.matchItems_cons hnotFirst, bind_of_ok hread] at hran
        rw [List.cons_append, Accord.matchItems_cons hnotFirst, halts_bind_of_ok hread]
        cases hevaluated : evaluate setting callees first scope state with
        | error given middle =>
          rw [bind_of_error hevaluated] at hran
          cases hran
        | ok expected middle =>
          rw [bind_of_ok hevaluated] at hran
          rw [halts_bind_of_ok hevaluated]
          split at hran
          case isTrue hsame =>
            rw [if_pos hsame]
            exact ih hran
          case isFalse => cases hran

/-- The expressions that are evaluated to try a pattern, each with the state that this happens in: a
pattern that is neither a text nor an array itself, and the items of an array that are no names. -/
inductive Tries (setting : Setting) (callees : Callees) (scope : ScopeId) (subject : Value) :
    Expr → State → Expr → State → Prop
  | value {pattern : Expr} (state : State) :
    (∀ offset text, pattern ≠ .string offset text) →
      (∀ offset items, pattern ≠ .array offset items) →
      Tries setting callees scope subject pattern state pattern state
  | item {offset : Nat} {items before later : List Expr} {item : Expr} {id : ArrayId}
      {made : Bindings Value} {state state' : State} :
    arrayOfSize items.length subject state = .ok (some id) state →
      items = before ++ item :: later →
      matchItems setting callees scope id before 0 [] state = .ok (some made) state' →
      (∀ offset name, item ≠ .ident offset name) →
      Tries setting callees scope subject (.array offset items) state item state'

theorem arrayOfSize_ok (size : Nat) (subject : Value) (state : State) :
    ∃ found, arrayOfSize size subject state = .ok found state := by
  unfold arrayOfSize
  split
  · exact ⟨_, rfl⟩
  · exact ⟨_, rfl⟩

theorem halts_matchPattern_iff {pattern : Expr} {subject : Value} :
    (matchPattern setting callees pattern subject scope).Halts state halt ↔
      ∃ inner state', Tries setting callees scope subject pattern state inner state' ∧
        (evaluate setting callees inner scope).Halts state' halt := by
  constructor
  · intro hhalts
    unfold matchPattern at hhalts
    split at hhalts
    case h_1 => exact absurd hhalts not_halts_pure
    case h_2 offset items =>
      obtain ⟨found, hfound⟩ := arrayOfSize_ok items.length subject state
      rw [halts_bind_of_ok hfound] at hhalts
      cases found with
      | none => exact absurd hhalts not_halts_pure
      | some id =>
        obtain ⟨before, item, later, made, state', hitems, hran, hnotName, hhalted⟩ :=
          halts_matchItems_iff.mp hhalts
        exact ⟨item, state', .item hfound hitems hran hnotName, hhalted⟩
    case h_3 hnotText hnotArray =>
      rcases halts_bind_iff.mp hhalts with hhalted | ⟨_, _, _, hhalted⟩
      · exact ⟨pattern, state, .value state hnotText hnotArray, hhalted⟩
      · exact absurd hhalted not_halts_pure
  · rintro ⟨inner, state', htries, hhalted⟩
    cases htries with
    | item hfound hitems hran hnotName =>
      refine .after hfound ?_
      exact halts_matchItems_iff.mpr ⟨_, _, _, _, _, hitems, hran, hnotName, hhalted⟩
    | value _ hnotText hnotArray =>
      unfold matchPattern
      split
      case h_1 offset text => exact absurd rfl (hnotText offset text)
      case h_2 offset items => exact absurd rfl (hnotArray offset items)
      case h_3 => exact hhalted.bind

/-- Some arms have been tried, and none of them matches. -/
inductive Misses (setting : Setting) (callees : Callees) (scope : ScopeId) (subject : Value) :
    List Arm → State → State → Prop
  | nil (state : State) : Misses setting callees scope subject [] state state
  | cons {arm : Arm} {arms : List Arm} {state state' state'' : State} :
    matchPattern setting callees arm.pattern subject scope state = .ok none state' →
      Misses setting callees scope subject arms state' state'' →
      Misses setting callees scope subject (arm :: arms) state state''

/-- Runs an arm that matches. -/
def Run.takeArm (setting : Setting) (callees : Callees) (scope : ScopeId) (subject : Value)
    (arm : Arm) (bindings : Bindings Value) : Run Flow := do
  recordSelect setting subject arm.pattern.offset
  let scope ← newScope scope
  defineAll scope bindings
  executeBody setting callees arm.body scope

theorem executeArms_cons (arm : Arm) (arms : List Arm) (subject : Value) :
    executeArms setting callees (arm :: arms) subject scope = (do
      match ← matchPattern setting callees arm.pattern subject scope with
      | none => executeArms setting callees arms subject scope
      | some bindings => takeArm setting callees scope subject arm bindings) := by
  obtain ⟨pattern, body⟩ := arm
  rw [executeArms]
  rfl

theorem halts_executeArms_iff {arms : List Arm} {subject : Value} :
    (executeArms setting callees arms subject scope).Halts state halt ↔
      ∃ before arm later state', arms = before ++ arm :: later ∧
        Misses setting callees scope subject before state state' ∧
        ((matchPattern setting callees arm.pattern subject scope).Halts state' halt ∨
          ∃ bindings state'',
            matchPattern setting callees arm.pattern subject scope state' =
              .ok (some bindings) state'' ∧
            (takeArm setting callees scope subject arm bindings).Halts state'' halt) := by
  constructor
  · intro hhalts
    induction arms generalizing state with
    | nil =>
      rw [executeArms] at hhalts
      exact absurd hhalts not_halts_pure
    | cons arm arms ih =>
      rw [executeArms_cons] at hhalts
      rcases halts_bind_iff.mp hhalts with hhalted | ⟨found, state', hran, hhalted⟩
      · exact ⟨[], arm, arms, state, rfl, .nil state, .inl hhalted⟩
      · cases found with
        | some bindings =>
          exact ⟨[], arm, arms, state, rfl, .nil state, .inr ⟨bindings, state', hran, hhalted⟩⟩
        | none =>
          obtain ⟨before, inner, later, last, rfl, hmisses, hhalted⟩ := ih hhalted
          exact ⟨arm :: before, inner, later, last, rfl, .cons hran hmisses, hhalted⟩
  · rintro ⟨before, arm, later, state', rfl, hmisses, hhalted⟩
    induction hmisses with
    | nil =>
      rw [List.nil_append, executeArms_cons]
      rcases hhalted with hhalted | ⟨bindings, state'', hran, hhalted⟩
      · exact hhalted.bind
      · exact .after hran hhalted
    | cons hran _ ih =>
      rw [List.cons_append, executeArms_cons]
      exact .after hran (ih hhalted)

end

end PuzzleLang
