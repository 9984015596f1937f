import PuzzleLang.Proofs.Run.Activity

/-!
# Faults are passed on as they are

If a part of an activity halts, so does the activity, in the same way; and a fault that an activity
has by itself is a fault of it.  So such a fault is found again, unchanged, in everything around the
activity.
-/

namespace PuzzleLang

namespace Run

/-! ## Single steps -/

variable {α : Type} {state : State} {halt : Halt}

theorem halts_liftAt_iff {offset : Nat} {result : Except Cause α} :
    (liftAt offset result).Halts state halt ↔
      ∃ cause, result = .error cause ∧ halt = .fault ⟨cause, some offset⟩ := by
  cases result with
  | ok value =>
    constructor
    · rintro ⟨_, ⟨⟩⟩
    · rintro ⟨_, ⟨⟩, _⟩
  | error cause =>
    constructor
    · rintro ⟨_, ⟨⟩⟩
      exact ⟨cause, rfl, rfl⟩
    · rintro ⟨_, ⟨⟩, rfl⟩
      exact ⟨state, rfl⟩

theorem halts_failAt_iff {offset : Nat} {cause : Cause} :
    (failAt offset cause : Run α).Halts state halt ↔ halt = .fault ⟨cause, some offset⟩ := by
  constructor
  · rintro ⟨_, ⟨⟩⟩
    rfl
  · rintro rfl
    exact ⟨state, rfl⟩

theorem halts_lookup_iff {offset : Nat} {scope : ScopeId} {name : String} :
    (lookup offset scope name).Halts state halt ↔
      state.store.lookup? scope name = none ∧
        halt = .fault ⟨.unknownVariable name, some offset⟩ := by
  rw [lookup, halts_bind_of_ok (get_of_state state)]
  cases state.store.lookup? scope name with
  | none =>
    rw [halts_failAt_iff]
    simp
  | some value =>
    constructor
    · rintro ⟨_, ⟨⟩⟩
    · rintro ⟨⟨⟩, _⟩

theorem halts_save_iff {offset : Nat} {container key value : Value} :
    (save offset container key value).Halts state halt ↔
      ∃ cause, state.store.slot container key = .error cause ∧
        halt = .fault ⟨cause, some offset⟩ := by
  rw [save, halts_bind_of_ok (get_of_state state), halts_bind_iff, halts_liftAt_iff]
  constructor
  · rintro (hrefused | ⟨slot, state', _, ⟨_, ⟨⟩⟩⟩)
    exact hrefused
  · exact .inl

/-! ## Tracing -/

theorem halts_render_iff {value : Value} :
    (render value).Halts state halt ↔
      state.store.render? value = none ∧ halt = .fault ⟨.recursionLimit, none⟩ := by
  rw [render, halts_bind_of_ok (get_of_state state)]
  cases state.store.render? value with
  | some text =>
    constructor
    · rintro ⟨_, ⟨⟩⟩
    · rintro ⟨⟨⟩, _⟩
  | none =>
    constructor
    · rintro ⟨_, ⟨⟩⟩
      exact ⟨rfl, rfl⟩
    · rintro ⟨_, rfl⟩
      exact ⟨state, rfl⟩

theorem state_of_render
    {value : Value} {text : String} {state' : State} (hran : render value state = .ok text state') :
    state' = state := by
  rw [render, bind_of_ok (get_of_state state)] at hran
  cases hrendered : state.store.render? value with
  | none =>
    rw [hrendered] at hran
    cases hran
  | some text =>
    rw [hrendered] at hran
    cases hran
    rfl

theorem halts_mapM_render_iff {values : List Value} :
    (values.mapM render).Halts state halt ↔
      (∃ value ∈ values, state.store.render? value = none) ∧
        halt = .fault ⟨.recursionLimit, none⟩ := by
  induction values with
  | nil =>
    constructor
    · rintro ⟨_, ⟨⟩⟩
    · rintro ⟨⟨_, ⟨⟩, _⟩, _⟩
  | cons value values ih =>
    rw [List.mapM_cons]
    constructor
    · intro hhalts
      rcases halts_bind_iff.mp hhalts with hhalted | ⟨text, state', hran, hhalts⟩
      · obtain ⟨huntold, hhalt⟩ := halts_render_iff.mp hhalted
        exact ⟨⟨value, List.mem_cons_self, huntold⟩, hhalt⟩
      · cases state_of_render hran
        rcases halts_bind_iff.mp hhalts with hhalted | ⟨_, _, _, hhalted⟩
        · obtain ⟨⟨other, hmem, huntold⟩, hhalt⟩ := ih.mp hhalted
          exact ⟨⟨other, List.mem_cons_of_mem _ hmem, huntold⟩, hhalt⟩
        · exact absurd hhalted not_halts_pure
    · rintro ⟨⟨other, hmem, huntold⟩, hhalt⟩
      cases hran : render value state with
      | error given state' =>
        obtain ⟨_, rfl⟩ := halts_render_iff.mp ⟨state', hran⟩
        rw [hhalt]
        exact Halts.bind ⟨state', hran⟩
      | ok text state' =>
        cases state_of_render hran
        rw [halts_bind_of_ok hran]
        refine Halts.bind (ih.mpr ⟨?_, hhalt⟩)
        rcases List.mem_cons.mp hmem with rfl | hlater
        · have hhalted := halts_render_iff.mpr ⟨huntold, hhalt⟩
          obtain ⟨_, hhalted⟩ := hhalted
          rw [hran] at hhalted
          cases hhalted
        · exact ⟨other, hlater, huntold⟩

theorem halts_entry_iff {setting : Setting} {event : Event} :
    (event.entry setting).Halts state halt ↔
      (∃ value ∈ event.values, state.store.render? value = none) ∧
        halt = .fault ⟨.recursionLimit, none⟩ := by
  have hshows {value : Value} {next : String → Entry} :
      (do return next (← render value) : Run Entry).Halts state halt ↔
        (∃ shown ∈ [value], state.store.render? shown = none) ∧
          halt = .fault ⟨.recursionLimit, none⟩ := by
    rw [halts_bind_iff, halts_render_iff]
    simp [not_halts_pure]
  cases event with
  | enter | defineFunction =>
    constructor
    · rintro ⟨_, ⟨⟩⟩
    · rintro ⟨⟨_, ⟨⟩, _⟩, _⟩
  | leave | define | condition | select => exact hshows
  | call callee args =>
    rw [Event.entry, halts_bind_iff, halts_mapM_render_iff]
    simp [not_halts_pure, Event.values]

theorem halts_trace_iff {setting : Setting} {offset : Nat} {event : Event} :
    (trace setting offset event).Halts state halt ↔
      event.Untold setting state.store ∧ halt = .fault ⟨.recursionLimit, some offset⟩ := by
  unfold trace record Event.Untold
  split
  case isFalse huntraced =>
    constructor
    · rintro ⟨_, ⟨⟩⟩
    · rintro ⟨⟨htraced, _⟩, _⟩
      exact absurd htraced huntraced
  case isTrue htraced =>
    rw [halts_bind_iff, halts_relocate_iff]
    constructor
    · rintro (⟨given, hhalted, rfl⟩ | ⟨_, _, _, ⟨_, ⟨⟩⟩⟩)
      obtain ⟨huntold, rfl⟩ := halts_entry_iff.mp hhalted
      exact ⟨⟨htraced, huntold⟩, rfl⟩
    · rintro ⟨⟨_, huntold⟩, rfl⟩
      exact .inl ⟨_, halts_entry_iff.mpr ⟨huntold, rfl⟩, rfl⟩

end Run

/-! ## Expressions -/

section

open Run

variable {setting : Setting} {callees : Callees} {scope : ScopeId} {state : State} {halt : Halt}

/-- What is left to do for an expression once its operands have been evaluated. -/
def Expr.finish (setting : Setting) (callees : Callees) (scope : ScopeId) :
    Expr → List Value → Run Value
  | .string _ value, _ => return .string value
  | .number _ value, _ => return .number value
  | .nil _, _ => return .nil
  | .ident offset name, _ => lookup offset scope name
  | .array _ _, values => newArray values
  | .map _ entries, values => newMap ((entries.map Prod.fst).zip values)
  | .negate offset _, [value] => liftAt offset value.negate
  | .binary offset op _ _, [a, b] => do liftAt offset (op.apply (← get).store a b)
  | .subscript offset _ _, [container, key] => load offset container key
  | .assign _ _ name _, [value] => do
    Run.assign scope name value
    return value
  | .store offset _ _ _ _, [value, container, key] => do
    save offset container key value
    return value
  | .call offset _ _, callee :: args => callValue setting callees offset callee args
  | .function f, _ => makeFunction setting f scope
  | _, _ => return .nil

theorem evaluateEntries_eq (entries : List (String × Expr)) :
    evaluateEntries setting callees entries scope = (do
      let values ← evaluateAll setting callees (entries.map Prod.snd) scope
      return (entries.map Prod.fst).zip values) := by
  induction entries with
  | nil => simp [evaluateEntries, evaluateAll]
  | cons entry entries ih =>
    obtain ⟨key, item⟩ := entry
    simp [evaluateEntries, evaluateAll, ih]

theorem evaluate_eq_finish (e : Expr) :
    evaluate setting callees e scope =
      evaluateAll setting callees e.operands scope >>= e.finish setting callees scope := by
  cases e with
  | array offset items =>
    rw [evaluate]
    rfl
  | map offset entries =>
    rw [evaluate, evaluateEntries_eq, bind_assoc]
    simp only [pure_bind]
    rfl
  | _ => simp [evaluate, evaluateAll, Expr.operands, Expr.finish]

theorem halts_evaluate_iff {e : Expr} :
    (evaluate setting callees e scope).Halts state halt ↔
      (∃ before inner later values state', e.operands = before ++ inner :: later ∧
        evaluateAll setting callees before scope state = .ok values state' ∧
        (evaluate setting callees inner scope).Halts state' halt) ∨
      ∃ values state', evaluateAll setting callees e.operands scope state = .ok values state' ∧
        (e.finish setting callees scope values).Halts state' halt := by
  rw [evaluate_eq_finish, halts_bind_iff, halts_evaluateAll_iff]

theorem not_halts_makeFunction {f : Function} :
    ¬ (makeFunction setting f scope).Halts state halt := by
  unfold makeFunction
  cases f.name with
  | none => exact not_halts_pure
  | some name =>
    intro hhalts
    rcases halts_bind_iff.mp hhalts with ⟨_, ⟨⟩⟩ | ⟨_, state', _, hhalts⟩
    rcases halts_bind_iff.mp hhalts with hhalted | ⟨_, _, _, hhalted⟩
    · have huntold : (Event.defineFunction name f.params).Untold setting state'.store :=
        (halts_trace_iff.mp hhalted).1
      obtain ⟨_, _, ⟨⟩, _⟩ := huntold
    · exact absurd hhalted not_halts_pure

/-- An expression that is no call halts by itself only if its operation refuses the operands. -/
theorem halts_finish_iff
    {e : Expr} {values : List Value}
    (hnotCall : ∀ offset callee args, e ≠ .call offset callee args) :
    (e.finish setting callees scope values).Halts state halt ↔
      ∃ cause, e.Refuses state.store scope values cause ∧
        halt = .fault ⟨cause, some e.offset⟩ := by
  constructor
  · intro hhalts
    unfold Expr.finish at hhalts
    split at hhalts
    case h_4 offset name =>
      obtain ⟨hunbound, hhalt⟩ := halts_lookup_iff.mp hhalts
      exact ⟨_, .ident hunbound, hhalt⟩
    case h_7 offset operand value =>
      obtain ⟨cause, hrefused, hhalt⟩ := halts_liftAt_iff.mp hhalts
      exact ⟨cause, .negate hrefused, hhalt⟩
    case h_8 offset op left right a b =>
      rw [halts_bind_of_ok (get_of_state state)] at hhalts
      obtain ⟨cause, hrefused, hhalt⟩ := halts_liftAt_iff.mp hhalts
      exact ⟨cause, .binary hrefused, hhalt⟩
    case h_9 offset e e' container key =>
      rw [load, halts_bind_of_ok (get_of_state state)] at hhalts
      obtain ⟨cause, hrefused, hhalt⟩ := halts_liftAt_iff.mp hhalts
      exact ⟨cause, .subscript hrefused, hhalt⟩
    case h_11 offset targetOffset e e' e'' value container key =>
      rcases halts_bind_iff.mp hhalts with hhalted | ⟨_, _, _, hhalted⟩
      · obtain ⟨cause, hrefused, hhalt⟩ := halts_save_iff.mp hhalted
        exact ⟨cause, .store hrefused, hhalt⟩
      · exact absurd hhalted not_halts_pure
    case h_12 offset callee args value values => exact absurd rfl (hnotCall offset callee args)
    case h_13 f => exact absurd hhalts not_halts_makeFunction
    case h_5 | h_6 | h_10 =>
      obtain ⟨_, ⟨⟩⟩ := hhalts
    all_goals exact absurd hhalts not_halts_pure
  · rintro ⟨cause, hrefuses, rfl⟩
    cases hrefuses with
    | ident hunbound => exact halts_lookup_iff.mpr ⟨hunbound, rfl⟩
    | negate hrefused => exact halts_liftAt_iff.mpr ⟨cause, hrefused, rfl⟩
    | binary hrefused | subscript hrefused =>
      exact .after (get_of_state state) (halts_liftAt_iff.mpr ⟨cause, hrefused, rfl⟩)
    | store hrefused => exact (halts_save_iff.mpr ⟨cause, hrefused, rfl⟩).bind

end

namespace Activity

open Run

variable {setting : Setting} {activity part : Activity} {halt : Halt}

/-! ## Parts that halt -/

theorem halts_of_lead
    {statement : Stmt} {e : Expr} {callees : Callees} {scope : ScopeId} {state : State}
    (hleads : statement.lead? = some e)
    (hhalts : (evaluate setting callees e scope).Halts state halt) :
    (execute setting callees statement scope).Halts state halt := by
  cases statement with
  | expr | var | forEach | select =>
    cases hleads
    rw [execute]
    exact hhalts.bind
  | conditional inner =>
    cases hleads
    obtain ⟨offset, condition, thenBlock, otherwise⟩ := inner
    rw [execute, executeConditional]
    exact hhalts.bind
  | returns offset value =>
    cases hleads
    rw [execute]
    exact hhalts.bind
  | block | forever | breaks | continues => cases hleads

theorem executeBlock_eq (callees : Callees) (block : Block) (scope : ScopeId) :
    executeBlock setting callees block scope = (do
      let inner ← newScope scope
      executeBody setting callees block inner) := by
  obtain ⟨offset, statements⟩ := block
  rw [executeBlock]
  rfl

theorem execute_block (callees : Callees) (block : Block) (scope : ScopeId) :
    execute setting callees (.block block) scope = executeBlock setting callees block scope := by
  rw [execute]

theorem execute_conditional (callees : Callees) (inner : Conditional) (scope : ScopeId) :
    execute setting callees (.conditional inner) scope =
      executeConditional setting callees inner scope := by
  rw [execute]

theorem executeConditional_eq (callees : Callees) (inner : Conditional) (scope : ScopeId) :
    executeConditional setting callees inner scope = (do
      let value ← evaluate setting callees inner.condition scope
      trace setting inner.offset (.condition value)
      match inner.chosen? value with
      | some chosen => execute setting callees chosen scope
      | none => return .next) := by
  obtain ⟨offset, condition, thenBlock, otherwise⟩ := inner
  rw [executeConditional]
  congr
  funext value
  congr
  funext _
  unfold Conditional.chosen?
  split
  · exact (execute_block callees thenBlock scope).symm
  · cases otherwise with
    | nothing => rw [executeAlternative]
    | block block =>
      rw [executeAlternative]
      exact (execute_block callees block scope).symm
    | conditional inner =>
      rw [executeAlternative]
      exact (execute_conditional callees inner scope).symm

theorem execute_forEach
    (depth offset : Nat) (item : String) (index : Option String) (iterable : Expr) (body : Block)
    (scope : ScopeId) :
    execute setting (.within setting depth) (.forEach offset item index iterable body) scope = (do
      let value ← evaluate setting (.within setting depth) iterable scope
      let iteration ← liftAt iterable.offset ((← get).store.iteration value)
      let inner ← newScope scope
      rounds (round setting depth inner item index body) (iteration.after setting.limits)
        (iteration.pairs setting.limits)) := by
  rw [execute]
  simp only [forEach_eq_rounds]
  rfl

theorem execute_forever (callees : Callees) (offset : Nat) (body : Block) (scope : ScopeId) :
    execute setting callees (.forever offset body) scope = (do
      let inner ← newScope scope
      rounds (fun _ => executeBlock setting callees body inner) (throw .exhausted)
        (List.replicate setting.limits.rounds ())) := by
  rw [execute]
  simp only [forever_eq_rounds]

/-- What evaluates a section that is entered, where calls may be nested so deep. -/
def bodyWithin (setting : Setting) : Nat → Section → Run Value
  | 0, part => failAt part.offset .recursionLimit
  | depth + 1, part => evaluateBody setting (.within setting depth) part

theorem enterSection_eq (depth : Nat) (name : String) :
    enterSection setting depth name = guardSection setting (bodyWithin setting depth) name := by
  cases depth with
  | zero => rw [enterSection]; rfl
  | succ depth => rw [enterSection]; rfl

theorem halts_enter_iff
    {depth : Nat} {name : String} {part : Section} {state : State} {trace : Array Entry}
    (henters : Enters setting name part state trace) :
    Halts setting ⟨depth, .enter name, state⟩ halt ↔
      (leaveSection setting (bodyWithin setting depth) part name).Halts
        { state with active := some name, trace } halt := by
  change (enterSection setting depth name).Halts state halt ↔ _
  rw [enterSection_eq, Run.Halts, Run.Halts,
    guardSection_of_traced henters.found henters.idle henters.traced]

theorem halts_evaluateBody_of_task
    {depth : Nat} {part : Section} {state : State}
    (hhalts : Halts setting ⟨depth, part.body.task, state⟩ halt) :
    (evaluateBody setting (.within setting depth) part).Halts state halt := by
  unfold evaluateBody
  cases hbody : part.body with
  | expr e =>
    rw [hbody] at hhalts
    exact hhalts
  | block block =>
    rw [hbody] at hhalts
    change (execute setting _ (.block block) rootScope).Halts state halt at hhalts
    rw [execute_block] at hhalts
    exact hhalts.bind

theorem halts_statement_iff {depth : Nat} {statement : Stmt} {scope : ScopeId} {state : State} :
    Halts setting ⟨depth, .statement statement scope, state⟩ halt ↔
      (execute setting (.within setting depth) statement scope).Halts state halt :=
  .rfl

theorem halts_block_iff {depth : Nat} {block : Block} {scope : ScopeId} {state : State} :
    Halts setting ⟨depth, .statement (.block block) scope, state⟩ halt ↔
      (executeBlock setting (.within setting depth) block scope).Halts state halt := by
  rw [halts_statement_iff, execute_block]

theorem replicate_eq_append {count rounds : Nat} (hbelow : count < rounds) :
    List.replicate rounds () =
      List.replicate count () ++ () :: List.replicate (rounds - count - 1) () := by
  rw [← List.replicate_succ, List.replicate_append_replicate]
  congr 1
  omega

/-- If a part of an activity halts, the activity halts in the same way. -/
theorem Performs.halts
    (hperforms : Performs setting activity part) (hhalts : part.Halts setting halt) :
    activity.Halts setting halt := by
  cases hperforms with
  | operand hoperands hran =>
    exact halts_evaluate_iff.mpr (.inl ⟨_, _, _, _, _, hoperands, hran, hhalts⟩)
  | callee hran htraced => exact halts_evaluate_iff.mpr (.inr ⟨_, _, hran, .after htraced hhalts⟩)
  | lead hleads => exact halts_of_lead hleads hhalts
  | block hmade =>
    rw [halts_block_iff, executeBlock_eq]
    exact .after hmade hhalts
  | member hran => exact halts_executeAll_iff.mpr ⟨_, _, _, _, rfl, hran, hhalts⟩
  | endless hmade hbelow hpasses =>
    rw [halts_statement_iff, execute_forever]
    refine .after hmade (halts_rounds_iff.mpr (.inl ?_))
    exact ⟨_, _, _, _, replicate_eq_append hbelow, hpasses, halts_block_iff.mp hhalts⟩
  | element hran hiterates hmade hpairs hpasses hbound =>
    rw [halts_statement_iff, execute_forEach]
    refine .after hran (.after (get_of_state _) ?_)
    rw [hiterates]
    refine .after rfl (.after hmade (halts_rounds_iff.mpr (.inl ?_)))
    exact ⟨_, _, _, _, hpairs, hpasses, .after hbound (halts_block_iff.mp hhalts)⟩
  | choice hran htraced hchosen =>
    rw [halts_statement_iff, execute_conditional, executeConditional_eq]
    refine .after hran (.after htraced ?_)
    rw [hchosen]
    exact hhalts
  | pattern hran hmisses htries =>
    rw [halts_statement_iff, execute]
    refine .after hran (halts_executeArms_iff.mpr ⟨_, _, _, _, rfl, hmisses, .inl ?_⟩)
    exact halts_matchPattern_iff.mpr ⟨_, _, htries, hhalts⟩
  | arm hran hmisses hmatched htraced hmade hbound =>
    rw [halts_statement_iff, execute]
    refine .after hran (halts_executeArms_iff.mpr ⟨_, _, _, _, rfl, hmisses, .inr ?_⟩)
    exact ⟨_, _, hmatched, .after htraced (.after hmade (.after hbound hhalts))⟩
  | called harity hmade hbound =>
    change (callFunction _ _ _ _ _).Halts _ halt
    rw [callFunction, callBody_eq harity]
    exact Halts.bind (.after hmade (.after hbound hhalts))
  | entered henters =>
    rw [halts_enter_iff henters]
    exact Halts.bind (halts_thenIdle_iff.mpr (halts_evaluateBody_of_task hhalts))

/-! ## Own faults -/

theorem Traces.halts
    {offset : Nat} {event : Event} {state : State}
    (htraces : Traces setting activity offset event state)
    (hhalts : (trace setting offset event).Halts state halt) :
    activity.Halts setting halt := by
  cases htraces with
  | call hran => exact halts_evaluate_iff.mpr (.inr ⟨_, _, hran, hhalts.bind⟩)
  | define hran hbound =>
    rw [halts_statement_iff, execute]
    exact .after hran (.after hbound hhalts.bind)
  | condition hran =>
    rw [halts_statement_iff, execute_conditional, executeConditional_eq]
    exact .after hran hhalts.bind
  | select hran hmisses hmatched =>
    rw [halts_statement_iff, execute]
    refine .after hran (halts_executeArms_iff.mpr ⟨_, _, _, _, rfl, hmisses, .inr ?_⟩)
    exact ⟨_, _, hmatched, hhalts.bind⟩
  | @leave depth name part value before after trace henters hran =>
    rw [halts_enter_iff henters]
    have hidle : thenIdle (bodyWithin setting (depth + 1) part)
        { before with active := some name, trace } = .ok value { after with active := none } := by
      rw [thenIdle, bodyWithin, hran]
    exact .after hidle hhalts.bind

theorem halts_resultOf_of_jump
    {flow : Flow} {jump : Stmt} {fault : Fault} {state : State}
    (hjump : flow.jump? = some jump) (hfault : jump.strayFault? = some fault) :
    (resultOf flow).Halts state (.fault fault) := by
  obtain ⟨found, hfound, hhalted⟩ := resultOf_jump hjump state
  rw [hfault] at hfound
  cases hfound
  exact ⟨state, hhalted⟩

/-- The faults that an activity has by itself are faults of it. -/
theorem Raises.halts {fault : Fault} (hraises : Raises setting activity fault) :
    activity.Halts setting (.fault fault) := by
  cases hraises with
  | refusal hran hrefuses =>
    refine halts_evaluate_iff.mpr (.inr ⟨_, _, hran, ?_⟩)
    refine (halts_finish_iff ?_).mpr ⟨_, hrefuses, rfl⟩
    rintro offset callee args rfl
    cases hrefuses
  | @uncallable depth offset callee args scope value values state state' state'' hran htraced
      hnotNative hnotClosure =>
    refine halts_evaluate_iff.mpr (.inr ⟨_, _, hran, .after htraced ?_⟩)
    cases value with
    | native native => exact absurd rfl (hnotNative native)
    | closure closure => exact absurd rfl (hnotClosure closure)
    | _ => exact ⟨_, rfl⟩
  | native hran htraced hhalted =>
    refine halts_evaluate_iff.mpr (.inr ⟨_, _, hran, .after htraced ?_⟩)
    exact halts_relocate_iff.mpr ⟨_, hhalted, rfl⟩
  | iterable hran hrefused =>
    rw [halts_statement_iff, execute_forEach]
    refine .after hran (.after (get_of_state _) ?_)
    exact Halts.bind (halts_liftAt_iff.mpr ⟨_, hrefused, rfl⟩)
  | untold htraces huntold => exact htraces.halts (halts_trace_iff.mpr ⟨huntold, rfl⟩)
  | nested => exact ⟨_, rfl⟩
  | arity hmisfit =>
    change (callFunction _ _ _ _ _).Halts _ _
    rw [callFunction, callBody_of_misfit hmisfit]
    exact ⟨_, rfl⟩
  | stray harity hran hjump hfault =>
    change (callFunction _ _ _ _ _).Halts _ _
    rw [callFunction, callBody_eq harity]
    exact .after hran (halts_resultOf_of_jump hjump hfault)
  | @unknown depth name state hunknown =>
    change (enterSection setting depth name).Halts state _
    rw [enterSection_eq]
    exact ⟨state, guardSection_of_unknown hunknown _ state⟩
  | @busy depth name running part state hfound hbusy =>
    change (enterSection setting depth name).Halts state _
    rw [enterSection_eq]
    exact ⟨state, guardSection_of_busy hfound hbusy _⟩
  | nestedSection henters =>
    rw [halts_enter_iff henters]
    exact Halts.bind (halts_thenIdle_iff.mpr (halts_failAt_iff.mpr rfl))
  | @straySection depth name part block flow jump fault state state' trace henters hblock hran hjump
      hfault =>
    rw [halts_enter_iff henters]
    refine Halts.bind (halts_thenIdle_iff.mpr ?_)
    rw [bodyWithin, evaluateBody, hblock]
    exact .after hran (halts_resultOf_of_jump hjump hfault)

end Activity

end PuzzleLang
