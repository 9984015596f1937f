import PuzzleLang.Proofs.Run.Propagation
import Mathlib.Logic.Relation

/-!
# Where faults come from

A fault of an activity that is not one of a part of it is one that the activity has by itself.
Parts are nested only finitely deep, so each fault is the own fault of an activity that is reached
from part to part.
-/

namespace PuzzleLang

open Run

/-! ## Steps that cannot halt -/

section

variable {scope : ScopeId} {state : State} {halt : Halt}

theorem not_halts_bindLoop {item : String} {index : Option String} {value key : Value} :
    ¬ (bindLoop scope item index value key).Halts state halt := by
  cases index with
  | none => rintro ⟨_, ⟨⟩⟩
  | some index => rintro ⟨_, ⟨⟩⟩

theorem Iteration.not_halts_after {limits : Limits} {iteration : Iteration} {fault : Fault} :
    ¬ (iteration.after limits).Halts state (.fault fault) := by
  obtain hafter | hafter := iteration.after_eq_or limits
  · rw [hafter]
    exact not_halts_pure
  · rw [hafter]
    rintro ⟨_, ⟨⟩⟩

theorem ok_of_thenIdle
    {α : Type} {run : Run α} {value : α} {after : State}
    (hran : thenIdle run state = .ok value after) :
    ∃ state', run state = .ok value state' ∧ after = { state' with active := none } := by
  unfold thenIdle at hran
  split at hran
  case h_1 given state' hok =>
    cases hran
    exact ⟨state', hok, rfl⟩
  case h_2 => cases hran

theorem exists_jump_of_halts
    {flow : Flow} {fault : Fault} (hhalts : (resultOf flow).Halts state (.fault fault)) :
    ∃ jump, flow.jump? = some jump ∧ jump.strayFault? = some fault := by
  cases flow with
  | next | returned => exact absurd hhalts not_halts_pure
  | broke offset =>
    obtain ⟨_, ⟨⟩⟩ := hhalts
    exact ⟨.breaks offset, rfl, rfl⟩
  | continued offset =>
    obtain ⟨_, ⟨⟩⟩ := hhalts
    exact ⟨.continues offset, rfl, rfl⟩

end

namespace Activity

variable {setting : Setting} {activity : Activity} {fault : Fault} {depth : Nat} {scope : ScopeId}
  {state : State}

/-- A fault is one that an activity has by itself, or one of a part of it. -/
def Explains (setting : Setting) (activity : Activity) (fault : Fault) : Prop :=
  Raises setting activity fault ∨
    ∃ part, Performs setting activity part ∧ part.Halts setting (.fault fault)

theorem Traces.explains
    {offset : Nat} {event : Event}
    (htraces : Traces setting activity offset event state)
    (hhalts : (trace setting offset event).Halts state (.fault fault)) :
    Explains setting activity fault := by
  obtain ⟨huntold, hfault⟩ := halts_trace_iff.mp hhalts
  cases hfault
  exact .inl (.untold htraces huntold)

/-! ## Expressions -/

theorem explains_call
    {offset : Nat} {callee : Expr} {args : List Expr} {value : Value} {values : List Value}
    {state' : State}
    (hran : evaluateAll setting (.within setting depth) (callee :: args) scope state =
      .ok (value :: values) state')
    (hhalts : (callValue setting (.within setting depth) offset value values).Halts state'
      (.fault fault)) :
    Explains setting ⟨depth, .expr (.call offset callee args) scope, state⟩ fault := by
  rcases halts_bind_iff.mp hhalts with hhalted | ⟨_, state'', htraced, hhalted⟩
  · exact (Traces.call hran).explains hhalted
  · cases value with
    | native native =>
      obtain ⟨given, hperformed, hfault⟩ := halts_relocate_iff.mp hhalted
      cases given with
      | fault found =>
        cases hfault
        exact .inl (.native hran htraced hperformed)
      | exhausted | waiting => cases hfault
    | closure closure => exact .inr ⟨_, .callee hran htraced, hhalted⟩
    | _ =>
      cases halts_failAt_iff.mp hhalted
      exact .inl (.uncallable hran htraced nofun nofun)

theorem explains_expr
    {e : Expr} (hhalts : Halts setting ⟨depth, .expr e scope, state⟩ (.fault fault)) :
    Explains setting ⟨depth, .expr e scope, state⟩ fault := by
  rcases halts_evaluate_iff.mp hhalts with
    ⟨before, inner, later, values, state', hoperands, hran, hhalted⟩ |
    ⟨values, state', hran, hhalted⟩
  · exact .inr ⟨_, .operand hoperands hran, hhalted⟩
  · by_cases hcall : ∃ offset callee args, e = .call offset callee args
    · obtain ⟨offset, callee, args, rfl⟩ := hcall
      cases values with
      | nil => exact absurd hhalted not_halts_pure
      | cons value values => exact explains_call hran hhalted
    · have hnotCall : ∀ offset callee args, e ≠ .call offset callee args := by
        intro offset callee args hsame
        exact hcall ⟨offset, callee, args, hsame⟩
      obtain ⟨cause, hrefuses, hfault⟩ := (halts_finish_iff hnotCall).mp hhalted
      cases hfault
      exact .inl (.refusal hran hrefuses)

/-! ## Statements -/

theorem explains_forever
    {offset : Nat} {body : Block}
    (hhalts : Halts setting ⟨depth, .statement (.forever offset body) scope, state⟩
      (.fault fault)) :
    Explains setting ⟨depth, .statement (.forever offset body) scope, state⟩ fault := by
  rw [halts_statement_iff, execute_forever] at hhalts
  rcases halts_bind_iff.mp hhalts with ⟨_, ⟨⟩⟩ | ⟨inner, state', hmade, hhalts⟩
  rcases halts_rounds_iff.mp hhalts with
    ⟨before, _, later, state'', hrounds, hpasses, hhalted⟩ | ⟨_, _, _, ⟨⟩⟩
  have hbefore : before = List.replicate before.length () :=
    List.eq_replicate_of_mem fun _ _ => rfl
  have hbelow : before.length < setting.limits.rounds := by
    have hsameLength := congrArg List.length hrounds
    simp at hsameLength
    omega
  rw [hbefore] at hpasses
  exact .inr ⟨_, .endless hmade hbelow hpasses, halts_block_iff.mpr hhalted⟩

theorem explains_forEach
    {offset : Nat} {item : String} {index : Option String} {iterable : Expr} {body : Block}
    (hhalts : Halts setting ⟨depth, .statement (.forEach offset item index iterable body) scope,
      state⟩ (.fault fault)) :
    Explains setting ⟨depth, .statement (.forEach offset item index iterable body) scope, state⟩
      fault := by
  rw [halts_statement_iff, execute_forEach] at hhalts
  rcases halts_bind_iff.mp hhalts with hhalted | ⟨value, first, hran, hhalts⟩
  · exact .inr ⟨_, .lead rfl, hhalted⟩
  rw [halts_bind_of_ok (get_of_state first)] at hhalts
  cases hiterates : first.store.iteration value with
  | error cause =>
    rw [hiterates] at hhalts
    obtain ⟨_, ⟨⟩⟩ := hhalts
    exact .inl (.iterable hran hiterates)
  | ok iteration =>
    rw [hiterates] at hhalts
    rcases halts_bind_iff.mp hhalts with ⟨_, ⟨⟩⟩ | ⟨_, _, ⟨⟩, hhalts⟩
    rcases halts_bind_iff.mp hhalts with ⟨_, ⟨⟩⟩ | ⟨inner, second, hmade, hhalts⟩
    rcases halts_rounds_iff.mp hhalts with
      ⟨before, pair, later, third, hpairs, hpasses, hhalts⟩ | ⟨_, _, hhalted⟩
    · rcases halts_bind_iff.mp hhalts with hhalted | ⟨_, last, hbound, hhalted⟩
      · exact absurd hhalted not_halts_bindLoop
      · exact .inr ⟨_, .element hran hiterates hmade hpairs hpasses hbound,
          halts_block_iff.mpr hhalted⟩
    · exact absurd hhalted Iteration.not_halts_after

theorem explains_conditional
    {inner : Conditional}
    (hhalts : Halts setting ⟨depth, .statement (.conditional inner) scope, state⟩ (.fault fault)) :
    Explains setting ⟨depth, .statement (.conditional inner) scope, state⟩ fault := by
  rw [halts_statement_iff, execute_conditional, executeConditional_eq] at hhalts
  rcases halts_bind_iff.mp hhalts with hhalted | ⟨value, state', hran, hhalts⟩
  · exact .inr ⟨_, .lead rfl, hhalted⟩
  rcases halts_bind_iff.mp hhalts with hhalted | ⟨_, state'', htraced, hhalts⟩
  · exact (Traces.condition hran).explains hhalted
  cases hchosen : inner.chosen? value with
  | none =>
    rw [hchosen] at hhalts
    exact absurd hhalts not_halts_pure
  | some chosen =>
    rw [hchosen] at hhalts
    exact .inr ⟨_, .choice hran htraced hchosen, hhalts⟩

theorem explains_select
    {offset : Nat} {subject : Expr} {arms : List Arm}
    (hhalts : Halts setting ⟨depth, .statement (.select offset subject arms) scope, state⟩
      (.fault fault)) :
    Explains setting ⟨depth, .statement (.select offset subject arms) scope, state⟩ fault := by
  rw [halts_statement_iff, execute] at hhalts
  rcases halts_bind_iff.mp hhalts with hhalted | ⟨value, first, hran, hhalts⟩
  · exact .inr ⟨_, .lead rfl, hhalted⟩
  obtain ⟨before, arm, later, second, rfl, hmisses, hhalts⟩ := halts_executeArms_iff.mp hhalts
  rcases hhalts with hhalted | ⟨bindings, third, hmatched, hhalts⟩
  · obtain ⟨inner, third, htries, hhalted⟩ := halts_matchPattern_iff.mp hhalted
    exact .inr ⟨_, .pattern hran hmisses htries, hhalted⟩
  rcases halts_bind_iff.mp hhalts with hhalted | ⟨_, fourth, htraced, hhalts⟩
  · exact (Traces.select hran hmisses hmatched).explains hhalted
  rcases halts_bind_iff.mp hhalts with ⟨_, ⟨⟩⟩ | ⟨inner, fifth, hmade, hhalts⟩
  rcases halts_bind_iff.mp hhalts with ⟨_, ⟨⟩⟩ | ⟨_, last, hbound, hhalted⟩
  exact .inr ⟨_, .arm hran hmisses hmatched htraced hmade hbound, hhalted⟩

theorem explains_statement
    {statement : Stmt}
    (hhalts : Halts setting ⟨depth, .statement statement scope, state⟩ (.fault fault)) :
    Explains setting ⟨depth, .statement statement scope, state⟩ fault := by
  cases statement with
  | expr offset value =>
    rw [halts_statement_iff, execute] at hhalts
    rcases halts_bind_iff.mp hhalts with hhalted | ⟨_, _, _, hhalted⟩
    · exact .inr ⟨_, .lead rfl, hhalted⟩
    · exact absurd hhalted not_halts_pure
  | var offset name value =>
    rw [halts_statement_iff, execute] at hhalts
    rcases halts_bind_iff.mp hhalts with hhalted | ⟨value, state', hran, hhalts⟩
    · exact .inr ⟨_, .lead rfl, hhalted⟩
    rcases halts_bind_iff.mp hhalts with ⟨_, ⟨⟩⟩ | ⟨_, state'', hbound, hhalts⟩
    rcases halts_bind_iff.mp hhalts with hhalted | ⟨_, _, _, hhalted⟩
    · exact (Traces.define hran hbound).explains hhalted
    · exact absurd hhalted not_halts_pure
  | block block =>
    rw [halts_block_iff, executeBlock_eq] at hhalts
    rcases halts_bind_iff.mp hhalts with ⟨_, ⟨⟩⟩ | ⟨inner, state', hmade, hhalted⟩
    exact .inr ⟨_, .block hmade, hhalted⟩
  | forever offset body => exact explains_forever hhalts
  | forEach offset item index iterable body => exact explains_forEach hhalts
  | conditional inner => exact explains_conditional hhalts
  | select offset subject arms => exact explains_select hhalts
  | returns offset value =>
    cases value with
    | none =>
      rw [halts_statement_iff, execute] at hhalts
      exact absurd hhalts not_halts_pure
    | some value =>
      rw [halts_statement_iff, execute] at hhalts
      rcases halts_bind_iff.mp hhalts with hhalted | ⟨_, _, _, hhalted⟩
      · exact .inr ⟨_, .lead rfl, hhalted⟩
      · exact absurd hhalted not_halts_pure
  | breaks | continues =>
    rw [halts_statement_iff, execute] at hhalts
    exact absurd hhalts not_halts_pure

/-! ## Calls and sections -/

theorem explains_called
    {offset : Nat} {closure : Closure} {args : List Value}
    (hhalts : Halts setting ⟨depth, .call offset closure args, state⟩ (.fault fault)) :
    Explains setting ⟨depth, .call offset closure args, state⟩ fault := by
  change (callFunction setting depth offset closure args).Halts state _ at hhalts
  cases depth with
  | zero =>
    cases halts_failAt_iff.mp hhalts
    exact .inl .nested
  | succ depth =>
    by_cases harity : args.length = closure.function.params.length
    · rw [callFunction, callBody_eq harity] at hhalts
      rcases halts_bind_iff.mp hhalts with hhalted | ⟨flow, state', hran, hhalted⟩
      · rcases halts_bind_iff.mp hhalted with ⟨_, ⟨⟩⟩ | ⟨inner, first, hmade, hhalted⟩
        rcases halts_bind_iff.mp hhalted with ⟨_, ⟨⟩⟩ | ⟨_, second, hbound, hhalted⟩
        exact .inr ⟨_, .called harity hmade hbound, hhalted⟩
      · obtain ⟨jump, hjump, hfault⟩ := exists_jump_of_halts hhalted
        exact .inl (.stray harity hran hjump hfault)
    · rw [callFunction, callBody_of_misfit harity, halts_failAt_iff] at hhalts
      cases hhalts
      exact .inl (.arity harity)

theorem explains_section
    {name : String} {part : Section} {trace : Array Entry}
    (henters : Enters setting name part state trace)
    (hhalts : (bodyWithin setting depth part).Halts { state with active := some name, trace }
      (.fault fault)) :
    Explains setting ⟨depth, .enter name, state⟩ fault := by
  cases depth with
  | zero =>
    cases halts_failAt_iff.mp hhalts
    exact .inl (.nestedSection henters)
  | succ depth =>
    have hentered : Performs setting ⟨depth + 1, .enter name, state⟩
        ⟨depth, part.body.task, { state with active := some name, trace }⟩ :=
      .entered henters
    rw [bodyWithin, evaluateBody] at hhalts
    cases hbody : part.body with
    | expr e =>
      rw [hbody] at hhalts hentered
      exact .inr ⟨_, hentered, hhalts⟩
    | block block =>
      rw [hbody] at hhalts hentered
      rcases halts_bind_iff.mp hhalts with hhalted | ⟨flow, state', hran, hhalted⟩
      · exact .inr ⟨_, hentered, halts_block_iff.mpr hhalted⟩
      · obtain ⟨jump, hjump, hfault⟩ := exists_jump_of_halts hhalted
        exact .inl (.straySection henters hbody hran hjump hfault)

theorem explains_entered
    {name : String} {part : Section} {trace : Array Entry}
    (henters : Enters setting name part state trace)
    (hhalts : Halts setting ⟨depth, .enter name, state⟩ (.fault fault)) :
    Explains setting ⟨depth, .enter name, state⟩ fault := by
  rw [halts_enter_iff henters] at hhalts
  rcases halts_bind_iff.mp hhalts with hhalted | ⟨value, after, hran, hhalts⟩
  · exact explains_section henters (halts_thenIdle_iff.mp hhalted)
  rcases halts_bind_iff.mp hhalts with hhalted | ⟨_, _, _, hhalted⟩
  · cases depth with
    | zero => cases hran
    | succ depth =>
      obtain ⟨state', hranBody, rfl⟩ := ok_of_thenIdle hran
      exact (Traces.leave henters hranBody).explains hhalted
  · exact absurd hhalted not_halts_pure

theorem explains_enter
    {name : String} (hhalts : Halts setting ⟨depth, .enter name, state⟩ (.fault fault)) :
    Explains setting ⟨depth, .enter name, state⟩ fault := by
  have hguarded : (guardSection setting (bodyWithin setting depth) name).Halts state
      (.fault fault) := by
    rw [← enterSection_eq]
    exact hhalts
  cases hfound : setting.sections.find? (·.name == name) with
  | none =>
    rw [Run.Halts, guardSection_of_unknown hfound] at hguarded
    obtain ⟨_, ⟨⟩⟩ := hguarded
    exact .inl (.unknown hfound)
  | some part =>
    cases hactive : state.active with
    | some running =>
      rw [Run.Halts, guardSection_of_busy hfound hactive] at hguarded
      obtain ⟨_, ⟨⟩⟩ := hguarded
      exact .inl (.busy hfound hactive)
    | none =>
      obtain ⟨trace, htraced⟩ : ∃ trace,
          Run.trace setting part.offset (.enter name) { state with active := some name } =
            .ok () { state with active := some name, trace } :=
        record_of_ok 1 part.offset rfl
      exact explains_entered ⟨hfound, hactive, htraced⟩ hhalts

/-- A fault of an activity is one that it has by itself, or one of a part of it. -/
theorem explains_of_halts (hhalts : activity.Halts setting (.fault fault)) :
    Explains setting activity fault := by
  obtain ⟨depth, task, state⟩ := activity
  cases task with
  | expr => exact explains_expr hhalts
  | statement => exact explains_statement hhalts
  | body block scope =>
    obtain ⟨offset, statements⟩ := block
    obtain ⟨before, statement, later, state', rfl, hran, hhalted⟩ := halts_executeAll_iff.mp hhalts
    exact .inr ⟨_, .member hran, hhalted⟩
  | call => exact explains_called hhalts
  | enter => exact explains_enter hhalts

end Activity

/-! ## Sizes -/

theorem Expr.sizeOf_lt_of_mem_operands {e inner : Expr} (hmem : inner ∈ e.operands) :
    sizeOf inner < sizeOf e := by
  cases e with
  | string | number | nil | ident | function => cases hmem
  | array offset items =>
    have hlt : sizeOf inner < sizeOf items := List.sizeOf_lt_of_mem hmem
    simp only [Expr.array.sizeOf_spec]
    omega
  | map offset entries =>
    obtain ⟨⟨key, item⟩, hmemEntries, rfl⟩ := List.mem_map.mp hmem
    have hlt : sizeOf (key, item) < sizeOf entries := List.sizeOf_lt_of_mem hmemEntries
    simp only [Prod.mk.sizeOf_spec, Expr.map.sizeOf_spec] at hlt ⊢
    omega
  | call offset callee args =>
    simp only [Expr.call.sizeOf_spec]
    rcases List.mem_cons.mp hmem with rfl | hmemArgs
    · omega
    · have hlt : sizeOf inner < sizeOf args := List.sizeOf_lt_of_mem hmemArgs
      omega
  | negate | binary | subscript | assign | store =>
    simp only [Expr.operands, List.mem_cons, List.not_mem_nil, or_false] at hmem
    simp only [Expr.negate.sizeOf_spec, Expr.binary.sizeOf_spec, Expr.subscript.sizeOf_spec,
      Expr.assign.sizeOf_spec, Expr.store.sizeOf_spec]
    rcases hmem with rfl | rfl | rfl
    all_goals omega

theorem Stmt.sizeOf_lt_of_lead {statement : Stmt} {e : Expr} (hleads : statement.lead? = some e) :
    sizeOf e < sizeOf statement := by
  cases statement with
  | expr | var | forEach | select | returns =>
    cases hleads
    simp only [Stmt.expr.sizeOf_spec, Stmt.var.sizeOf_spec, Stmt.forEach.sizeOf_spec,
      Stmt.select.sizeOf_spec, Stmt.returns.sizeOf_spec, Option.some.sizeOf_spec]
    omega
  | conditional inner =>
    cases hleads
    obtain ⟨offset, condition, thenBlock, otherwise⟩ := inner
    simp only [Stmt.conditional.sizeOf_spec, Conditional.mk.sizeOf_spec]
    omega
  | block | forever | breaks | continues => cases hleads

theorem Tries.sizeOf_le
    {setting : Setting} {callees : Callees} {scope : ScopeId} {subject : Value}
    {pattern inner : Expr} {state state' : State}
    (htries : Tries setting callees scope subject pattern state inner state') :
    sizeOf inner ≤ sizeOf pattern := by
  cases htries with
  | value => exact Nat.le_refl _
  | @item offset items before later =>
    have hmem : inner ∈ (Expr.array offset items).operands := by
      simp_all [Expr.operands]
    exact Nat.le_of_lt (Expr.sizeOf_lt_of_mem_operands hmem)

theorem Arm.sizeOf_lt_of_select
    (offset : Nat) (subject : Expr) (before later : List Arm) (arm : Arm) :
    sizeOf arm.pattern + sizeOf arm.body <
      sizeOf (Stmt.select offset subject (before ++ arm :: later)) := by
  have hlt : sizeOf arm < sizeOf (before ++ arm :: later) := List.sizeOf_lt_of_mem (by simp)
  obtain ⟨pattern, body⟩ := arm
  simp only [Arm.mk.sizeOf_spec, Stmt.select.sizeOf_spec] at hlt ⊢
  omega

/-- How large a task is beside those that it comes to without a call. -/
noncomputable def Task.size : Task → Nat
  | .expr e _ => 2 * sizeOf e
  -- A block is larger than its statements alone, and smaller than any statement around it.
  | .statement (.block block) _ => 2 * sizeOf block + 1
  | .statement inner _ => 2 * sizeOf inner
  | .body block _ => 2 * sizeOf block
  | .call _ _ _ | .enter _ => 0

theorem Task.size_statement_le (inner : Stmt) (scope : ScopeId) :
    (Task.statement inner scope).size ≤ 2 * sizeOf inner := by
  cases inner with
  | block block =>
    simp only [Task.size, Stmt.block.sizeOf_spec]
    omega
  | _ => exact Nat.le_refl _

theorem Task.lt_size_statement
    {inner : Stmt} {size : Nat} (hlt : size < sizeOf inner) (scope : ScopeId) :
    2 * size < (Task.statement inner scope).size := by
  cases inner with
  | block block =>
    simp only [Task.size, Stmt.block.sizeOf_spec] at hlt ⊢
    omega
  | _ =>
    simp only [Task.size]
    omega

theorem Conditional.size_chosen_lt
    {inner : Conditional} {value : Value} {chosen : Stmt}
    (hchosen : inner.chosen? value = some chosen) (scope : ScopeId) :
    (Task.statement chosen scope).size < (Task.statement (.conditional inner) scope).size := by
  obtain ⟨offset, condition, thenBlock, otherwise⟩ := inner
  unfold Conditional.chosen? at hchosen
  split at hchosen
  · cases hchosen
    simp only [Task.size, Stmt.conditional.sizeOf_spec, Conditional.mk.sizeOf_spec]
    omega
  · cases otherwise with
    | nothing => cases hchosen
    | block block | conditional other =>
      cases hchosen
      simp only [Task.size, Stmt.conditional.sizeOf_spec, Conditional.mk.sizeOf_spec,
        Alternative.block.sizeOf_spec, Alternative.conditional.sizeOf_spec]
      omega

namespace Activity

/-- A part of an activity is nested deeper in calls, or else smaller. -/
theorem Performs.decreases
    {setting : Setting} {activity part : Activity} (hperforms : Performs setting activity part) :
    Prod.Lex (· < ·) (· < ·) (part.depth, part.task.size) (activity.depth, activity.task.size) := by
  cases hperforms with
  | called | entered => exact .left _ _ (Nat.lt_succ_self _)
  | @operand depth e inner scope before later values state state' hoperands =>
    have hmem : inner ∈ e.operands := by simp [hoperands]
    have hlt := Expr.sizeOf_lt_of_mem_operands hmem
    refine .right _ ?_
    simp only [Task.size]
    omega
  | callee =>
    refine .right _ ?_
    simp only [Task.size, Expr.call.sizeOf_spec]
    omega
  | lead hleads => exact .right _ (Task.lt_size_statement (Stmt.sizeOf_lt_of_lead hleads) _)
  | block => exact .right _ (Nat.lt_succ_self _)
  | @member depth offset before later statement scope =>
    have hlt : sizeOf statement < sizeOf (before ++ statement :: later) :=
      List.sizeOf_lt_of_mem (by simp)
    refine .right _ ?_
    calc
      (Task.statement statement scope).size ≤ 2 * sizeOf statement := Task.size_statement_le _ _
      _ < 2 * sizeOf (Block.mk offset (before ++ statement :: later)) := by
        simp only [Block.mk.sizeOf_spec]
        omega
  | endless | element =>
    refine .right _ ?_
    simp only [Task.size, Stmt.forever.sizeOf_spec, Stmt.forEach.sizeOf_spec]
    omega
  | choice _ _ hchosen => exact .right _ (Conditional.size_chosen_lt hchosen _)
  | @pattern depth offset subject inner before later arm scope value state first second third _ _
      htries =>
    have hlt : sizeOf inner < sizeOf (Stmt.select offset subject (before ++ arm :: later)) := by
      have hle := htries.sizeOf_le
      have hltArm := Arm.sizeOf_lt_of_select offset subject before later arm
      omega
    exact .right _ (Task.lt_size_statement hlt _)
  | @arm depth offset subject before later arm =>
    have hlt : sizeOf arm.body < sizeOf (Stmt.select offset subject (before ++ arm :: later)) := by
      have hltArm := Arm.sizeOf_lt_of_select offset subject before later arm
      omega
    exact .right _ (Task.lt_size_statement hlt _)

variable {setting : Setting} {activity part : Activity}

/-- What halts a part of a part halts the whole in the same way. -/
theorem halts_of_reflTransGen
    {halt : Halt}
    (hchain : Relation.ReflTransGen (Performs setting) activity part)
    (hhalts : part.Halts setting halt) :
    activity.Halts setting halt := by
  induction hchain using Relation.ReflTransGen.head_induction_on with
  | refl => exact hhalts
  | head hperforms _ ih => exact hperforms.halts ih

/-- Every fault is the own fault of an activity that is reached from part to part. -/
theorem exists_origin
    {fault : Fault} {activity : Activity} (hhalts : activity.Halts setting (.fault fault)) :
    ∃ origin, Relation.ReflTransGen (Performs setting) activity origin ∧
      Raises setting origin fault := by
  rcases explains_of_halts hhalts with hraises | ⟨part, hperforms, hhalted⟩
  · exact ⟨activity, .refl, hraises⟩
  · obtain ⟨origin, hchain, hraises⟩ := exists_origin hhalted
    exact ⟨origin, .head hperforms hchain, hraises⟩
termination_by (activity.depth, activity.task.size)
decreasing_by exact hperforms.decreases

end Activity

end PuzzleLang
