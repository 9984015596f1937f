import PuzzleLang.Proofs.Run.Propagation

/-!
# Runs with a thinned trace

Where less is traced, a run does the same with fewer entries: from a state whose trace has been
thinned out it goes through the thinned states of the run that traces more.  This is said here of
single steps, and of sequences if it is known of their parts, in the states in which these are run.
-/

namespace PuzzleLang

/-- The state with the entries above a level left out of its trace. -/
def State.thin (level : Int) (state : State) : State :=
  { state with trace := state.trace.filter (·.level ≤ level) }

@[simp]
theorem State.store_thin (level : Int) (state : State) : (state.thin level).store = state.store :=
  rfl

theorem State.thin_push_of_le
    {level : Int} {entry : Entry} (hle : entry.level ≤ level) (state : State) :
    State.thin level { state with trace := state.trace.push entry } =
      { state.thin level with trace := (state.thin level).trace.push entry } := by
  simp [State.thin, hle]

theorem State.thin_push_of_lt
    {level : Int} {entry : Entry} (hlt : level < entry.level) (state : State) :
    State.thin level { state with trace := state.trace.push entry } = state.thin level := by
  have hdropped : ¬ entry.level ≤ level := Int.not_le.mpr hlt
  simp [State.thin, hdropped]

/-- The setting with another level. -/
def Setting.atLevel (setting : Setting) (level : Int) : Setting :=
  { setting with level }

/-- The answer to the question for a file does not depend on the trace. -/
def Files.Ignores (files : Files) (earlier : Nat) (path : String) : Prop :=
  ∀ trace trace', files.ask earlier path trace = files.ask earlier path trace'

namespace Run

/-- What a run has come to, with a thinned trace. -/
def thinned {α : Type} (level : Int) :
    EStateM.Result Halt State α → EStateM.Result Halt State α
  | .ok value state => .ok value (state.thin level)
  | .error halt state => .error halt (state.thin level)

/-- From the thinned state a second run does what a run does from the state itself. -/
def Thins {α : Type} (level : Int) (run run' : Run α) (state : State) : Prop :=
  run' (state.thin level) = thinned level (run state)

section

variable {α β : Type} {level : Int} {state : State}

theorem thins_pure (value : α) : Thins level (pure value) (pure value) state :=
  rfl

theorem Thins.bind
    {run run' : Run α} {next next' : α → Run β}
    (h : Thins level run run' state)
    (h' : ∀ value state', run state = .ok value state' →
      Thins level (next value) (next' value) state') :
    Thins level (run >>= next) (run' >>= next') state := by
  unfold Thins at h ⊢
  cases hran : run state with
  | error halt state' =>
    rw [hran] at h
    rw [bind_of_error hran, bind_of_error h]
    rfl
  | ok value state' =>
    rw [hran] at h
    rw [bind_of_ok hran, bind_of_ok h]
    exact h' value state' hran

theorem thins_get_bind
    {next next' : State → Run α} (h : Thins level (next state) (next' (state.thin level)) state) :
    Thins level (get >>= next) (get >>= next') state :=
  h

theorem thins_liftAt (offset : Nat) (result : Except Cause α) :
    Thins level (liftAt offset result) (liftAt offset result) state := by
  cases result <;> rfl

theorem thins_lift (result : Except Cause α) : Thins level (lift result) (lift result) state := by
  cases result <;> rfl

theorem Thins.relocate {run run' : Run α} (h : Thins level run run' state) (offset : Nat) :
    Thins level (relocate offset run) (relocate offset run') state := by
  unfold Thins at h ⊢
  unfold Run.relocate
  rw [h]
  cases run state with
  | ok value state' => rfl
  | error halt state' => cases halt <;> rfl

theorem Thins.thenIdle {run run' : Run α} (h : Thins level run run' state) :
    Thins level (thenIdle run) (thenIdle run') state := by
  unfold Thins at h ⊢
  unfold Run.thenIdle
  rw [h]
  cases run state <;> rfl

/-! ## Steps that do not trace -/

theorem thins_lookup (offset : Nat) (scope : ScopeId) (name : String) :
    Thins level (lookup offset scope name) (lookup offset scope name) state := by
  refine thins_get_bind ?_
  rw [State.store_thin]
  cases state.store.lookup? scope name <;> rfl

theorem thins_save (offset : Nat) (container key value : Value) :
    Thins level (save offset container key value) (save offset container key value) state := by
  refine thins_get_bind ?_
  exact (thins_liftAt offset (state.store.slot container key)).bind fun _ _ _ => rfl

theorem thins_text (value : Value) : Thins level (text value) (text value) state := by
  refine thins_get_bind ?_
  rw [State.store_thin]
  cases state.store.text? value <;> rfl

theorem thins_line (args : List Value) :
    Thins level (Native.line args) (Native.line args) state := by
  have htexts : Thins level (args.mapM text) (args.mapM text) state := by
    induction args generalizing state with
    | nil => exact thins_pure []
    | cons arg args ih =>
      rw [List.mapM_cons]
      exact (thins_text arg).bind fun _ _ _ => ih.bind fun _ _ _ => thins_pure _
  exact htexts.bind fun _ _ _ => thins_pure _

theorem thins_arrayOfSize (size : Nat) (subject : Value) :
    Thins level (arrayOfSize size subject) (arrayOfSize size subject) state := by
  cases subject <;> rfl

theorem thins_bindLoop
    (scope : ScopeId) (item : String) (index : Option String) (value key : Value) :
    Thins level (bindLoop scope item index value key) (bindLoop scope item index value key)
      state := by
  cases index <;> rfl

theorem thins_resultOf (flow : Flow) : Thins level (resultOf flow) (resultOf flow) state := by
  cases flow <;> rfl

theorem thins_after (limits : Limits) (iteration : Iteration) :
    Thins level (iteration.after limits) (iteration.after limits) state := by
  obtain hafter | hafter := iteration.after_eq_or limits
  · rw [hafter]
    rfl
  · rw [hafter]
    rfl

end

/-! ## Native functions -/

section

variable {setting : Setting} {level : Int} {state : State}

theorem thins_readFile {path : String} (hignores : setting.files.Ignores state.asked path) :
    Thins level (Native.readFile setting path) (Native.readFile (setting.atLevel level) path)
      state := by
  have hsame : (setting.atLevel level).files.ask (state.thin level).asked path
        (if 0 < (setting.atLevel level).level then some (traceText (state.thin level).trace)
          else none) =
      setting.files.ask state.asked path
        (if 0 < setting.level then some (traceText state.trace) else none) :=
    hignores _ _
  refine thins_get_bind ?_
  dsimp only
  rw [hsame]
  generalize setting.files.ask state.asked path _ = reply
  unfold Thins
  rw [set_bind_apply, set_bind_apply]
  split
  · rfl
  · cases reply.text <;> rfl

theorem thins_perform
    {native : Native} {args : List Value} {enter enter' : String → Run Value}
    (hreads : ∀ path, native = .read → args = [.string path] →
      setting.files.Ignores state.asked path)
    (henters : ∀ name target, native = .evaluate name target →
      Thins level (enter target) (enter' target) state) :
    Thins level (native.perform setting enter args)
      (native.perform (setting.atLevel level) enter' args) state := by
  unfold Native.perform
  split
  case h_1 => exact (thins_line args).bind fun _ _ _ => rfl
  case h_2 => exact (thins_line args).bind fun _ _ _ => rfl
  case h_3 text =>
    cases readInteger? text <;> rfl
  case h_5 => exact thins_get_bind (thins_lift _)
  case h_7 => exact thins_get_bind ((thins_lift _).bind fun _ _ _ => rfl)
  case h_11 => exact thins_get_bind ((thins_lift _).bind fun _ _ _ => rfl)
  case h_13 path => exact thins_readFile (hreads path rfl rfl)
  case h_14 name target => exact henters name target rfl
  all_goals rfl

/-! ## Tracing -/

theorem render_of_told
    {value : Value} {text : String} (htold : state.store.render? value = some text) :
    render value state = .ok text state := by
  rw [render, bind_of_ok (get_of_state state), htold]
  rfl

theorem mapM_render_of_told
    {values : List Value} {store : Store} (htold : ∀ value ∈ values, store.render? value ≠ none) :
    ∃ texts, ∀ state : State, state.store = store →
      values.mapM render state = .ok texts state := by
  induction values with
  | nil => exact ⟨[], fun _ _ => rfl⟩
  | cons value values ih =>
    obtain ⟨htoldValue, htoldMore⟩ := List.forall_mem_cons.mp htold
    obtain ⟨text, htext⟩ := Option.ne_none_iff_exists'.mp htoldValue
    obtain ⟨texts, htexts⟩ := ih htoldMore
    refine ⟨text :: texts, ?_⟩
    rintro state rfl
    rw [List.mapM_cons, bind_of_ok (render_of_told htext), bind_of_ok (htexts state rfl)]
    rfl

/-- If all values of an event have a text, its entry can be written, whatever is traced. -/
theorem entry_of_told
    {event : Event} {store : Store}
    (htold : ∀ value ∈ event.values, store.render? value ≠ none) (lineOf : Nat → Nat) :
    ∃ made : Entry, made.level = event.level ∧
      ∀ (setting : Setting) (state : State), setting.lineOf = lineOf → state.store = store →
        event.entry setting state = .ok made state := by
  have hshows {value : Value} (htoldValue : ∀ shown ∈ [value], store.render? shown ≠ none) :
      ∃ text, ∀ state : State, state.store = store → render value state = .ok text state := by
    obtain ⟨text, htext⟩ := Option.ne_none_iff_exists'.mp (htoldValue value List.mem_cons_self)
    refine ⟨text, ?_⟩
    rintro state rfl
    exact render_of_told htext
  cases event with
  | enter name => exact ⟨.enter name, rfl, fun _ _ _ _ => rfl⟩
  | defineFunction name params => exact ⟨.defineFunction name params, rfl, fun _ _ _ _ => rfl⟩
  | leave name value =>
    obtain ⟨text, htext⟩ := hshows htold
    exact ⟨.leave name text, rfl, fun _ state _ hsame => bind_of_ok (htext state hsame)⟩
  | define name value =>
    obtain ⟨text, htext⟩ := hshows htold
    exact ⟨.define name text, rfl, fun _ state _ hsame => bind_of_ok (htext state hsame)⟩
  | condition value =>
    obtain ⟨text, htext⟩ := hshows htold
    exact ⟨.condition text value.isTruthy, rfl, fun _ state _ hsame =>
      bind_of_ok (htext state hsame)⟩
  | select subject offset =>
    obtain ⟨text, htext⟩ := hshows htold
    refine ⟨.select text (lineOf offset), rfl, ?_⟩
    rintro setting state rfl hsame
    exact bind_of_ok (htext state hsame)
  | call callee args =>
    obtain ⟨texts, htexts⟩ := mapM_render_of_told htold
    exact ⟨.call (calleeName callee) texts, rfl, fun _ state _ hsame =>
      bind_of_ok (htexts state hsame)⟩

theorem trace_of_made
    {event : Event} {made : Entry}
    (htraced : event.level ≤ setting.level) (hmade : event.entry setting state = .ok made state)
    (offset : Nat) :
    trace setting offset event state = .ok () { state with trace := state.trace.push made } := by
  have hmoved : relocate offset (event.entry setting) state = .ok made state := by
    rw [relocate, hmade]
  rw [trace, record, if_pos htraced]
  exact bind_of_ok hmoved

theorem trace_of_untraced
    {event : Event} (huntraced : ¬ event.level ≤ setting.level) (offset : Nat) :
    trace setting offset event state = .ok () state := by
  rw [trace, record, if_neg huntraced]
  rfl

/-- An entry is traced at both levels, at the upper one only, or at neither. -/
theorem thins_trace
    {event : Event}
    (hle : level ≤ setting.level) (htold : ¬ event.Untold setting state.store) (offset : Nat) :
    Thins level (trace setting offset event) (trace (setting.atLevel level) offset event)
      state := by
  unfold Thins
  by_cases htraced : event.level ≤ setting.level
  · have htoldAll : ∀ value ∈ event.values, state.store.render? value ≠ none := by
      intro value hmem huntold
      exact htold ⟨htraced, value, hmem, huntold⟩
    obtain ⟨made, hlevel, hmade⟩ := entry_of_told htoldAll setting.lineOf
    rw [trace_of_made htraced (hmade setting state rfl rfl)]
    by_cases hstays : event.level ≤ level
    · have hbelow : event.level ≤ (setting.atLevel level).level := hstays
      rw [trace_of_made hbelow (hmade _ (state.thin level) rfl rfl), thinned,
        State.thin_push_of_le (hlevel ▸ hstays)]
    · have habove : ¬ event.level ≤ (setting.atLevel level).level := hstays
      rw [trace_of_untraced habove, thinned,
        State.thin_push_of_lt (hlevel ▸ Int.not_le.mp hstays)]
  · have habove : ¬ event.level ≤ (setting.atLevel level).level := fun hbelow =>
      htraced (Int.le_trans hbelow hle)
    rw [trace_of_untraced htraced, trace_of_untraced habove]
    rfl

theorem thins_makeFunction (hle : level ≤ setting.level) (f : Function) (scope : ScopeId) :
    Thins level (makeFunction setting f scope) (makeFunction (setting.atLevel level) f scope)
      state := by
  unfold makeFunction
  cases f.name with
  | none => rfl
  | some name =>
    refine Thins.bind rfl fun _ state' _ => ?_
    have htold : ¬ (Event.defineFunction name f.params).Untold setting state'.store := by
      rintro ⟨_, _, ⟨⟩, _⟩
    exact Thins.bind (thins_trace hle htold f.offset) fun _ _ _ => rfl

end

/-! ## Sequences -/

theorem thins_rounds
    {α : Type} {level : Int} {body body' : α → Run Flow} {after after' : Run Flow} {items : List α}
    {state : State}
    (heach : ∀ before item later state', items = before ++ item :: later →
      Passes body before state state' → Thins level (body item) (body' item) state')
    (hlast : ∀ state', Passes body items state state' → Thins level after after' state') :
    Thins level (rounds body after items) (rounds body' after' items) state := by
  induction items generalizing state with
  | nil => exact hlast state (.nil state)
  | cons item items ih =>
    rw [rounds, rounds]
    refine (heach [] item items state rfl (.nil state)).bind fun flow state' hran => ?_
    have hgoOn (hgoesOn : flow.goesOn = true) :
        Thins level (rounds body after items) (rounds body' after' items) state' := by
      refine ih (fun before inner later state'' hitems hpasses => ?_) fun state'' hpasses => ?_
      · exact heach (item :: before) inner later state'' (by rw [hitems]; rfl)
          (.cons hran hgoesOn hpasses)
      · exact hlast state'' (.cons hran hgoesOn hpasses)
    cases flow with
    | next | continued => exact hgoOn rfl
    | broke | returned => rfl

end Run

section

open Run

variable {setting setting' : Setting} {callees callees' : Callees} {level : Int} {scope : ScopeId}
  {state : State}

theorem thins_evaluateAll
    {items : List Expr}
    (heach : ∀ before item later values state', items = before ++ item :: later →
      evaluateAll setting callees before scope state = .ok values state' →
      Thins level (evaluate setting callees item scope) (evaluate setting' callees' item scope)
        state') :
    Thins level (evaluateAll setting callees items scope)
      (evaluateAll setting' callees' items scope) state := by
  induction items generalizing state with
  | nil =>
    rw [evaluateAll, evaluateAll]
    rfl
  | cons item items ih =>
    rw [evaluateAll, evaluateAll]
    refine (heach [] item items [] state rfl (by rw [evaluateAll]; rfl)).bind
      fun value state' hran => ?_
    refine Thins.bind (ih fun before inner later values state'' hitems hranAll => ?_)
      fun _ _ _ => rfl
    refine heach (item :: before) inner later (value :: values) state'' (by rw [hitems]; rfl) ?_
    rw [evaluateAll, bind_of_ok hran, bind_of_ok hranAll]
    rfl

theorem thins_executeAll
    {statements : List Stmt}
    (heach : ∀ before statement later state', statements = before ++ statement :: later →
      executeAll setting callees before scope state = .ok .next state' →
      Thins level (execute setting callees statement scope)
        (execute setting' callees' statement scope) state') :
    Thins level (executeAll setting callees statements scope)
      (executeAll setting' callees' statements scope) state := by
  induction statements generalizing state with
  | nil =>
    rw [executeAll, executeAll]
    rfl
  | cons statement statements ih =>
    rw [executeAll, executeAll]
    refine (heach [] statement statements state rfl (by rw [executeAll]; rfl)).bind
      fun flow state' hran => ?_
    cases flow with
    | returned | broke | continued => rfl
    | next =>
      refine ih fun before inner later state'' hstatements hranAll => ?_
      refine heach (statement :: before) inner later state'' (by rw [hstatements]; rfl) ?_
      rw [executeAll, bind_of_ok hran]
      exact hranAll

theorem thins_matchItems
    {id : ArrayId} {items : List Expr} {index : Nat} {made : Bindings Value}
    (heach : ∀ before item later made' state', items = before ++ item :: later →
      matchItems setting callees scope id before index made state = .ok (some made') state' →
      (∀ offset name, item ≠ .ident offset name) →
      Thins level (evaluate setting callees item scope) (evaluate setting' callees' item scope)
        state') :
    Thins level (matchItems setting callees scope id items index made)
      (matchItems setting' callees' scope id items index made) state := by
  induction items generalizing index made state with
  | nil => rfl
  | cons item items ih =>
    by_cases hname : ∃ offset name, item = .ident offset name
    · obtain ⟨offset, name, rfl⟩ := hname
      have hmore : Thins level
          (matchItems setting callees scope id items (index + 1)
            (made.put name ((state.store.items id).getD index .nil)))
          (matchItems setting' callees' scope id items (index + 1)
            (made.put name ((state.store.items id).getD index .nil))) state := by
        refine ih fun before inner later made' state' hitems hran hnotName => ?_
        exact heach (.ident offset name :: before) inner later made' state' (by rw [hitems]; rfl)
          hran hnotName
      exact hmore
    · have hnotName : ∀ offset name, item ≠ .ident offset name := by
        intro offset name hsame
        exact hname ⟨offset, name, hsame⟩
      have hread' :
          itemAt id index state = .ok ((state.store.items id).getD index .nil) state := rfl
      rw [Accord.matchItems_cons hnotName, Accord.matchItems_cons hnotName]
      refine Thins.bind rfl fun value state' hread => ?_
      cases hread
      refine (heach [] item items made state rfl rfl hnotName).bind fun expected state' hran => ?_
      split
      case isFalse => rfl
      case isTrue hsame =>
        refine ih fun before inner later made' state'' hitems hranAll hnotInner => ?_
        refine heach (item :: before) inner later made' state'' (by rw [hitems]; rfl) ?_ hnotInner
        rw [Accord.matchItems_cons hnotName, bind_of_ok hread', bind_of_ok hran, if_pos hsame]
        exact hranAll

theorem thins_matchPattern
    {pattern : Expr} {subject : Value}
    (heach : ∀ inner state', Tries setting callees scope subject pattern state inner state' →
      Thins level (evaluate setting callees inner scope) (evaluate setting' callees' inner scope)
        state') :
    Thins level (matchPattern setting callees pattern subject scope)
      (matchPattern setting' callees' pattern subject scope) state := by
  unfold matchPattern
  split
  case h_1 => rfl
  case h_2 offset items =>
    refine (thins_arrayOfSize items.length subject).bind fun found state' hfound => ?_
    obtain ⟨found', hfound'⟩ := arrayOfSize_ok items.length subject state
    rw [hfound'] at hfound
    cases hfound
    cases found with
    | none => rfl
    | some id =>
      exact thins_matchItems fun before item later made state'' hitems hran hnotName =>
        heach item state'' (.item hfound' hitems hran hnotName)
  case h_3 hnotText hnotArray =>
    exact (heach pattern state (.value state hnotText hnotArray)).bind fun _ _ _ => rfl

theorem thins_executeArms
    {arms : List Arm} {subject : Value}
    (htried : ∀ before arm later inner first second, arms = before ++ arm :: later →
      Misses setting callees scope subject before state first →
      Tries setting callees scope subject arm.pattern first inner second →
      Thins level (evaluate setting callees inner scope) (evaluate setting' callees' inner scope)
        second)
    (htaken : ∀ before arm later bindings first second, arms = before ++ arm :: later →
      Misses setting callees scope subject before state first →
      matchPattern setting callees arm.pattern subject scope first = .ok (some bindings) second →
      Thins level (takeArm setting callees scope subject arm bindings)
        (takeArm setting' callees' scope subject arm bindings) second) :
    Thins level (executeArms setting callees arms subject scope)
      (executeArms setting' callees' arms subject scope) state := by
  induction arms generalizing state with
  | nil =>
    rw [executeArms, executeArms]
    rfl
  | cons arm arms ih =>
    rw [executeArms_cons, executeArms_cons]
    have hmatched : Thins level (matchPattern setting callees arm.pattern subject scope)
        (matchPattern setting' callees' arm.pattern subject scope) state :=
      thins_matchPattern fun inner second =>
        htried [] arm arms inner state second rfl (.nil state)
    refine hmatched.bind fun found state' hran => ?_
    cases found with
    | some bindings => exact htaken [] arm arms bindings state state' rfl (.nil state) hran
    | none =>
      refine ih (fun before inner later e first second harms hmisses => ?_)
        fun before inner later bindings first second harms hmisses => ?_
      · exact htried (arm :: before) inner later e first second (by rw [harms]; rfl)
          (.cons hran hmisses)
      · exact htaken (arm :: before) inner later bindings first second (by rw [harms]; rfl)
          (.cons hran hmisses)

end

end PuzzleLang
