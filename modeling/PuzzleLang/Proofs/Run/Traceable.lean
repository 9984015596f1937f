import PuzzleLang.Proofs.Run.Keeping
import PuzzleLang.Proofs.Run.Origin
import PuzzleLang.Proofs.Run.Thinning

/-!
# Activities that can be traced

Two things could set a run apart from one that traces less.  An entry that shows a value without a
text is a fault where it is traced; and a file may be read that depends on the trace.  An activity
that comes to neither does the same at every lower level: each of its parts does, and nothing else
in it looks at the trace.
-/

namespace PuzzleLang

namespace Activity

open Run

/-- At a lower level an activity does the same, and thins the trace. -/
def Thins (setting : Setting) (level : Int) (activity : Activity) : Prop :=
  let lower := setting.atLevel level
  let callees := Callees.within setting activity.depth
  let callees' := Callees.within lower activity.depth
  match activity.task with
  | .expr e scope =>
    Run.Thins level (evaluate setting callees e scope) (evaluate lower callees' e scope)
      activity.state
  | .statement statement scope =>
    Run.Thins level (execute setting callees statement scope)
      (execute lower callees' statement scope) activity.state
  | .body block scope =>
    Run.Thins level (executeBody setting callees block scope)
      (executeBody lower callees' block scope) activity.state
  | .call offset closure args =>
    Run.Thins level (callFunction setting activity.depth offset closure args)
      (callFunction lower activity.depth offset closure args) activity.state
  | .enter name =>
    Run.Thins level (enterSection setting activity.depth name)
      (enterSection lower activity.depth name) activity.state

section

variable {setting : Setting} {level : Int} {depth : Nat} {name : String} {state : State}

theorem Thins.executeBlock
    {block : Block} {scope : ScopeId}
    (hthins : Thins setting level ⟨depth, .statement (.block block) scope, state⟩) :
    Run.Thins level (executeBlock setting (.within setting depth) block scope)
      (executeBlock (setting.atLevel level) (.within (setting.atLevel level) depth) block scope)
      state := by
  change Run.Thins level (execute _ _ (.block block) scope) (execute _ _ (.block block) scope)
    state at hthins
  rw [execute_block, execute_block] at hthins
  exact hthins

theorem thins_of_unknown (hfound : setting.sections.find? (·.name == name) = none) :
    Thins setting level ⟨depth, .enter name, state⟩ := by
  have hfound' : (setting.atLevel level).sections.find? (·.name == name) = none := hfound
  change Run.Thins level (enterSection setting depth name)
    (enterSection (setting.atLevel level) depth name) state
  rw [enterSection_eq, enterSection_eq, Run.Thins, guardSection_of_unknown hfound,
    guardSection_of_unknown hfound']
  rfl

theorem thins_of_busy {running : String} (hactive : state.active = some running) :
    Thins setting level ⟨depth, .enter name, state⟩ := by
  cases hfound : setting.sections.find? (·.name == name) with
  | none => exact thins_of_unknown hfound
  | some part =>
    have hfound' : (setting.atLevel level).sections.find? (·.name == name) = some part := hfound
    have hactive' : (state.thin level).active = some running := hactive
    change Run.Thins level (enterSection setting depth name)
      (enterSection (setting.atLevel level) depth name) state
    rw [enterSection_eq, enterSection_eq, Run.Thins, guardSection_of_busy hfound hactive,
      guardSection_of_busy hfound' hactive']
    rfl

end

/-- All that an activity does goes the same way at a lower level. -/
structure Agrees (setting : Setting) (level : Int) (activity : Activity) : Prop where
  le : level ≤ setting.level
  told {offset : Nat} {event : Event} {state : State} :
    Traces setting activity offset event state → ¬ event.Untold setting state.store
  native {offset : Nat} {native : Native} {values : List Value} {state : State} :
    CallsNative setting activity offset native values state →
      Run.Thins level (native.call setting (enterSection setting activity.depth) values)
        (native.call (setting.atLevel level) (enterSection (setting.atLevel level) activity.depth)
          values) state
  parts {part : Activity} : Performs setting activity part → part.Thins setting level

namespace Agrees

variable {setting : Setting} {level : Int} {depth : Nat} {scope : ScopeId} {state : State}

theorem traced
    {activity : Activity} {offset : Nat} {event : Event}
    (hagrees : Agrees setting level activity)
    (htraces : Traces setting activity offset event state) :
    Run.Thins level (trace setting offset event) (trace (setting.atLevel level) offset event)
      state :=
  thins_trace hagrees.le (hagrees.told htraces) offset

/-! ### Expressions -/

theorem callValue
    {offset : Nat} {callee : Expr} {args : List Expr} {value : Value} {values : List Value}
    {state' : State}
    (hagrees : Agrees setting level ⟨depth, .expr (.call offset callee args) scope, state⟩)
    (hran : evaluateAll setting (.within setting depth) (callee :: args) scope state =
      .ok (value :: values) state') :
    Run.Thins level (callValue setting (.within setting depth) offset value values)
      (callValue (setting.atLevel level) (.within (setting.atLevel level) depth) offset value
        values) state' := by
  refine Thins.bind (hagrees.traced (.call hran)) fun _ state'' htraced => ?_
  cases value with
  | native native => exact Thins.relocate (hagrees.native (.call hran htraced)) offset
  | closure closure => exact hagrees.parts (.callee hran htraced)
  | _ => rfl

theorem finish
    {e : Expr} {values : List Value} {state' : State}
    (hagrees : Agrees setting level ⟨depth, .expr e scope, state⟩)
    (hran : evaluateAll setting (.within setting depth) e.operands scope state =
      .ok values state') :
    Run.Thins level (e.finish setting (.within setting depth) scope values)
      (e.finish (setting.atLevel level) (.within (setting.atLevel level) depth) scope values)
      state' := by
  unfold Expr.finish
  split
  case h_4 offset name => exact thins_lookup offset scope name
  case h_7 => exact thins_liftAt _ _
  case h_8 | h_9 => exact thins_get_bind (thins_liftAt _ _)
  case h_11 => exact Thins.bind (thins_save _ _ _ _) fun _ _ _ => rfl
  case h_12 => exact hagrees.callValue hran
  case h_13 f => exact thins_makeFunction hagrees.le f scope
  all_goals rfl

theorem expr {e : Expr} (hagrees : Agrees setting level ⟨depth, .expr e scope, state⟩) :
    Thins setting level ⟨depth, .expr e scope, state⟩ := by
  change Run.Thins level (evaluate _ _ e scope) (evaluate _ _ e scope) state
  rw [evaluate_eq_finish, evaluate_eq_finish]
  refine Thins.bind (thins_evaluateAll fun before inner later values state' hoperands hran => ?_)
    fun values state' hran => hagrees.finish hran
  exact hagrees.parts (.operand hoperands hran)

/-! ### Statements -/

theorem body {block : Block} (hagrees : Agrees setting level ⟨depth, .body block scope, state⟩) :
    Thins setting level ⟨depth, .body block scope, state⟩ := by
  obtain ⟨offset, statements⟩ := block
  refine thins_executeAll fun before statement later state' hstatements hran => ?_
  subst hstatements
  exact hagrees.parts (.member hran)

theorem forever
    {offset : Nat} {body : Block}
    (hagrees : Agrees setting level ⟨depth, .statement (.forever offset body) scope, state⟩) :
    Thins setting level ⟨depth, .statement (.forever offset body) scope, state⟩ := by
  change Run.Thins level (execute _ _ (.forever offset body) scope)
    (execute _ _ (.forever offset body) scope) state
  rw [execute_forever, execute_forever]
  refine Thins.bind rfl fun inner state' hmade => ?_
  refine thins_rounds (fun before item later state'' hrounds hpasses => ?_) fun _ _ => rfl
  -- The rounds of an endless loop are told apart by their number only.
  have hbefore : before = List.replicate before.length () :=
    List.eq_replicate_of_mem fun _ _ => rfl
  have hbelow : before.length < setting.limits.rounds := by
    have hsameLength := congrArg List.length hrounds
    simp at hsameLength
    omega
  rw [hbefore] at hpasses
  exact (hagrees.parts (.endless hmade hbelow hpasses)).executeBlock

theorem forEach
    {offset : Nat} {item : String} {index : Option String} {iterable : Expr} {body : Block}
    (hagrees : Agrees setting level ⟨depth, .statement (.forEach offset item index iterable body)
      scope, state⟩) :
    Thins setting level ⟨depth, .statement (.forEach offset item index iterable body) scope,
      state⟩ := by
  change Run.Thins level (execute _ _ (.forEach offset item index iterable body) scope)
    (execute _ _ (.forEach offset item index iterable body) scope) state
  rw [execute_forEach, execute_forEach]
  refine Thins.bind (hagrees.parts (.lead rfl)) fun value first hran => ?_
  refine thins_get_bind ?_
  rw [State.store_thin]
  refine Thins.bind (thins_liftAt _ _) fun iteration first' hlifted => ?_
  cases hiterates : first.store.iteration value with
  | error cause =>
    rw [hiterates] at hlifted
    cases hlifted
  | ok found =>
    rw [hiterates] at hlifted
    cases hlifted
    refine Thins.bind rfl fun inner second hmade => ?_
    refine thins_rounds (fun before pair later third hpairs hpasses => ?_)
      fun _ _ => thins_after _ iteration
    refine Thins.bind (thins_bindLoop inner item index pair.1 pair.2) fun _ last hbound => ?_
    exact (hagrees.parts (.element hran hiterates hmade hpairs hpasses hbound)).executeBlock

theorem conditional
    {inner : Conditional}
    (hagrees : Agrees setting level ⟨depth, .statement (.conditional inner) scope, state⟩) :
    Thins setting level ⟨depth, .statement (.conditional inner) scope, state⟩ := by
  change Run.Thins level (execute _ _ (.conditional inner) scope)
    (execute _ _ (.conditional inner) scope) state
  rw [execute_conditional, execute_conditional, executeConditional_eq, executeConditional_eq]
  refine Thins.bind (hagrees.parts (.lead rfl)) fun value state' hran => ?_
  refine Thins.bind (hagrees.traced (.condition hran)) fun _ state'' htraced => ?_
  cases hchosen : inner.chosen? value with
  | none => rfl
  | some chosen => exact hagrees.parts (.choice hran htraced hchosen)

theorem select
    {offset : Nat} {subject : Expr} {arms : List Arm}
    (hagrees :
      Agrees setting level ⟨depth, .statement (.select offset subject arms) scope, state⟩) :
    Thins setting level ⟨depth, .statement (.select offset subject arms) scope, state⟩ := by
  change Run.Thins level (execute _ _ (.select offset subject arms) scope)
    (execute _ _ (.select offset subject arms) scope) state
  rw [execute, execute]
  refine Thins.bind (hagrees.parts (.lead rfl)) fun value first hran => ?_
  refine thins_executeArms (fun before arm later inner second third harms hmisses htries => ?_)
    fun before arm later bindings second third harms hmisses hmatched => ?_
  · subst harms
    exact hagrees.parts (.pattern hran hmisses htries)
  · subst harms
    refine Thins.bind (hagrees.traced (.select hran hmisses hmatched)) fun _ fourth htraced => ?_
    refine Thins.bind rfl fun inner fifth hmade => ?_
    refine Thins.bind rfl fun _ last hbound => ?_
    exact hagrees.parts (.arm hran hmisses hmatched htraced hmade hbound)

theorem statement
    {inner : Stmt} (hagrees : Agrees setting level ⟨depth, .statement inner scope, state⟩) :
    Thins setting level ⟨depth, .statement inner scope, state⟩ := by
  cases inner with
  | expr offset value =>
    change Run.Thins level (execute _ _ _ scope) (execute _ _ _ scope) state
    rw [execute, execute]
    exact Thins.bind (hagrees.parts (.lead rfl)) fun _ _ _ => rfl
  | var offset name value =>
    change Run.Thins level (execute _ _ _ scope) (execute _ _ _ scope) state
    rw [execute, execute]
    refine Thins.bind (hagrees.parts (.lead rfl)) fun value state' hran => ?_
    refine Thins.bind rfl fun _ state'' hbound => ?_
    exact Thins.bind (hagrees.traced (.define hran hbound)) fun _ _ _ => rfl
  | block block =>
    change Run.Thins level (execute _ _ _ scope) (execute _ _ _ scope) state
    rw [execute_block, execute_block, executeBlock_eq, executeBlock_eq]
    exact Thins.bind rfl fun inner state' hmade => hagrees.parts (.block hmade)
  | forever offset body => exact hagrees.forever
  | forEach offset item index iterable body => exact hagrees.forEach
  | conditional inner => exact hagrees.conditional
  | select offset subject arms => exact hagrees.select
  | returns offset value =>
    change Run.Thins level (execute _ _ _ scope) (execute _ _ _ scope) state
    cases value with
    | none =>
      rw [execute, execute]
      rfl
    | some value =>
      rw [execute, execute]
      exact Thins.bind (hagrees.parts (.lead rfl)) fun _ _ _ => rfl
  | breaks | continues =>
    change Run.Thins level (execute _ _ _ scope) (execute _ _ _ scope) state
    rw [execute, execute]
    rfl

/-! ### Calls and sections -/

theorem call
    {offset : Nat} {closure : Closure} {args : List Value}
    (hagrees : Agrees setting level ⟨depth, .call offset closure args, state⟩) :
    Thins setting level ⟨depth, .call offset closure args, state⟩ := by
  change Run.Thins level (callFunction setting depth offset closure args)
    (callFunction (setting.atLevel level) depth offset closure args) state
  cases depth with
  | zero => rfl
  | succ depth =>
    rw [callFunction, callFunction]
    by_cases harity : args.length = closure.function.params.length
    · rw [callBody_eq harity, callBody_eq harity]
      refine Thins.bind ?_ fun flow _ _ => thins_resultOf flow
      refine Thins.bind rfl fun inner state' hmade => ?_
      refine Thins.bind rfl fun _ state'' hbound => ?_
      exact hagrees.parts (.called harity hmade hbound)
    · rw [callBody_of_misfit harity, callBody_of_misfit harity]
      rfl

theorem bodyWithin
    {name : String} {part : Section} {trace : Array Entry}
    (hagrees : Agrees setting level ⟨depth, .enter name, state⟩)
    (henters : Enters setting name part state trace) :
    Run.Thins level (bodyWithin setting depth part) (bodyWithin (setting.atLevel level) depth part)
      { state with active := some name, trace } := by
  cases depth with
  | zero => rfl
  | succ depth =>
    have htask := hagrees.parts (.entered henters)
    change Run.Thins level (evaluateBody _ _ part) (evaluateBody _ _ part) _
    unfold evaluateBody
    cases hbody : part.body with
    | expr e =>
      rw [hbody] at htask
      exact htask
    | block block =>
      rw [hbody] at htask
      exact Thins.bind htask.executeBlock fun flow _ _ => thins_resultOf flow

theorem leaveSection
    {name : String} {part : Section} {trace : Array Entry}
    (hagrees : Agrees setting level ⟨depth, .enter name, state⟩)
    (henters : Enters setting name part state trace) :
    Run.Thins level (leaveSection setting (Activity.bodyWithin setting depth) part name)
      (leaveSection (setting.atLevel level) (Activity.bodyWithin (setting.atLevel level) depth) part
        name) { state with active := some name, trace } := by
  refine Thins.bind (hagrees.bodyWithin henters).thenIdle fun value after hran => ?_
  refine Thins.bind ?_ fun _ _ _ => rfl
  cases depth with
  | zero => cases hran
  | succ depth =>
    obtain ⟨state', hranBody, rfl⟩ := ok_of_thenIdle hran
    exact hagrees.traced (.leave henters hranBody)

theorem enter {name : String} (hagrees : Agrees setting level ⟨depth, .enter name, state⟩) :
    Thins setting level ⟨depth, .enter name, state⟩ := by
  cases hactive : state.active with
  | some running => exact thins_of_busy hactive
  | none =>
    cases hfound : setting.sections.find? (·.name == name) with
    | none => exact thins_of_unknown hfound
    | some part =>
      have hfound' : (setting.atLevel level).sections.find? (·.name == name) = some part := hfound
      have hactive' : (state.thin level).active = none := hactive
      have htold (store : Store) : ¬ (Event.enter name).Untold setting store := by
        rintro ⟨_, _, ⟨⟩, _⟩
      obtain ⟨trace, htraced⟩ : ∃ trace,
          Run.trace setting part.offset (.enter name) { state with active := some name } =
            .ok () { state with active := some name, trace } :=
        record_of_ok 1 part.offset rfl
      have htraced' : Run.Thins level (Run.trace setting part.offset (.enter name))
          (Run.trace (setting.atLevel level) part.offset (.enter name))
          { state with active := some name } :=
        thins_trace hagrees.le (htold _) part.offset
      rw [Run.Thins, htraced] at htraced'
      change Run.Thins level (enterSection setting depth name)
        (enterSection (setting.atLevel level) depth name) state
      rw [enterSection_eq, enterSection_eq, Run.Thins,
        guardSection_of_traced hfound hactive htraced,
        guardSection_of_traced hfound' hactive' htraced']
      exact hagrees.leaveSection ⟨hfound, hactive, htraced⟩

end Agrees

/-! ## Whole activities -/

/-- Everything that an activity comes to trace has a text, and no file that it comes to read
depends on the trace. -/
structure Traceable (setting : Setting) (activity : Activity) : Prop where
  told {part : Activity} {offset : Nat} {event : Event} {state : State} :
    Relation.ReflTransGen (Performs setting) activity part →
      Traces setting part offset event state → ¬ event.Untold setting state.store
  ignores {part : Activity} {offset : Nat} {path : String} {state : State} :
    Relation.ReflTransGen (Performs setting) activity part →
      CallsNative setting part offset .read [.string path] state →
      setting.files.Ignores state.asked path

variable {setting : Setting} {level : Int} {activity part : Activity} {name : String}

theorem Traceable.performed
    (htraceable : Traceable setting activity) (hperforms : Performs setting activity part) :
    Traceable setting part :=
  ⟨fun hchain => htraceable.told (.head hperforms hchain),
    fun hchain => htraceable.ignores (.head hperforms hchain)⟩

theorem Traceable.native
    {offset : Nat} {native : Native} {values : List Value} {state : State}
    (htraceable : Traceable setting activity) (hactive : activity.state.active = some name)
    (hcalls : CallsNative setting activity offset native values state) (depth : Nat) :
    Run.Thins level (native.call setting (enterSection setting depth) values)
      (native.call (setting.atLevel level) (enterSection (setting.atLevel level) depth) values)
      state := by
  refine Thins.bind (thins_lift _) fun _ state' hchecked => ?_
  have hsame : state' = state := by
    cases hisChecked : native.check values with
    | error cause =>
      rw [hisChecked] at hchecked
      cases hchecked
    | ok done =>
      rw [hisChecked] at hchecked
      cases hchecked
      rfl
  subst hsame
  -- A section that a function of the host asks for is refused at either level.
  refine thins_perform ?_ fun _ _ _ => thins_of_busy (hcalls.active hactive)
  rintro path rfl rfl
  exact htraceable.ignores .refl hcalls

/-- While a section runs, everything that can be traced goes the same way at a lower level. -/
theorem Traceable.thins
    {activity : Activity}
    (htraceable : Traceable setting activity) (hle : level ≤ setting.level)
    (hactive : activity.state.active = some name) :
    activity.Thins setting level := by
  -- The parts are smaller, and in them the same section is marked.
  have hagrees : Agrees setting level activity :=
    ⟨hle, htraceable.told .refl, fun hcalls => htraceable.native hactive hcalls _,
      fun hperforms => (htraceable.performed hperforms).thins hle (hperforms.active hactive)⟩
  obtain ⟨depth, task, state⟩ := activity
  cases task with
  | expr => exact hagrees.expr
  | statement => exact hagrees.statement
  | body => exact hagrees.body
  | call => exact hagrees.call
  | enter => exact hagrees.enter
termination_by (activity.depth, activity.task.size)
decreasing_by exact hperforms.decreases

theorem Traceable.thins_enter
    {depth : Nat} {state : State}
    (htraceable : Traceable setting ⟨depth, .enter name, state⟩) (hle : level ≤ setting.level) :
    Thins setting level ⟨depth, .enter name, state⟩ := by
  refine Agrees.enter ⟨hle, htraceable.told .refl, ?_, fun hperforms => ?_⟩
  · rintro _ _ _ _ ⟨⟩
  · have hinner := htraceable.performed hperforms
    cases hperforms with | entered henters
    exact hinner.thins hle rfl

end Activity

end PuzzleLang
