import PuzzleLang.Session

/-!
# How runs halt

A run that does one thing after the other halts when the first one does, in the same way, or else as
the rest of it does from the state in which the first one ended.
-/

namespace PuzzleLang

/-- The halt with its fault, if it is one, moved to an offset. -/
def Halt.movedTo (offset : Nat) : Halt → Halt
  | .fault found => .fault { found with offset := some offset }
  | halt => halt

namespace Run

variable {α β : Type}

theorem bind_of_ok
    {run : Run α} {next : α → Run β} {state state' : State} {value : α}
    (h : run state = .ok value state') :
    (run >>= next) state = next value state' := by
  change EStateM.bind run next state = _
  rw [EStateM.bind, h]

theorem bind_of_error
    {run : Run α} {state state' : State} {halt : Halt}
    (h : run state = .error halt state') (next : α → Run β) :
    (run >>= next) state = .error halt state' := by
  change EStateM.bind run next state = _
  rw [EStateM.bind, h]

theorem bind_ok_iff {run : Run α} {next : α → Run β} {state last : State} {result : β} :
    (run >>= next) state = .ok result last ↔
      ∃ value state', run state = .ok value state' ∧ next value state' = .ok result last := by
  cases hran : run state with
  | ok value middle =>
    rw [bind_of_ok hran]
    constructor
    · intro hended
      exact ⟨value, middle, rfl, hended⟩
    · rintro ⟨_, _, ⟨⟩, hended⟩
      exact hended
  | error given middle =>
    rw [bind_of_error hran]
    constructor
    · rintro ⟨⟩
    · rintro ⟨_, _, ⟨⟩, _⟩

theorem get_of_state (state : State) : (get : Run State) state = .ok state state :=
  rfl

/-- A run from a state halts in some way. -/
def Halts (run : Run α) (state : State) (halt : Halt) : Prop :=
  ∃ state', run state = .error halt state'

theorem halts_bind_iff {run : Run α} {next : α → Run β} {state : State} {halt : Halt} :
    (run >>= next).Halts state halt ↔
      run.Halts state halt ∨
        ∃ value state', run state = .ok value state' ∧ (next value).Halts state' halt := by
  unfold Halts
  cases hran : run state with
  | ok value middle =>
    rw [bind_of_ok hran]
    constructor
    · intro hhalts
      exact .inr ⟨value, middle, rfl, hhalts⟩
    · rintro (⟨_, ⟨⟩⟩ | ⟨_, _, ⟨⟩, hhalts⟩)
      exact hhalts
  | error given middle =>
    rw [bind_of_error hran]
    constructor
    · rintro ⟨_, ⟨⟩⟩
      exact .inl ⟨middle, rfl⟩
    · rintro (⟨_, ⟨⟩⟩ | ⟨_, _, ⟨⟩, _⟩)
      exact ⟨middle, rfl⟩

theorem halts_relocate_iff {run : Run α} {state : State} {halt : Halt} {offset : Nat} :
    (relocate offset run).Halts state halt ↔
      ∃ given, run.Halts state given ∧ halt = given.movedTo offset := by
  unfold Halts relocate
  cases hran : run state with
  | ok value state' =>
    constructor
    · rintro ⟨_, ⟨⟩⟩
    · rintro ⟨_, ⟨_, ⟨⟩⟩, _⟩
  | error given state' =>
    have hmoved : relocate offset run state = .error (given.movedTo offset) state' := by
      rw [relocate, hran]
      cases given <;> rfl
    rw [relocate, hran] at hmoved
    rw [hmoved]
    constructor
    · rintro ⟨_, ⟨⟩⟩
      exact ⟨given, ⟨state', rfl⟩, rfl⟩
    · rintro ⟨_, ⟨_, ⟨⟩⟩, rfl⟩
      exact ⟨state', rfl⟩

/-! ## Tracing -/

theorem record_of_ok
    {setting : Setting} {entry : Run Entry} {made : Entry} {state : State}
    (level : Int) (offset : Nat) (h : entry state = .ok made state) :
    ∃ trace, record setting level offset entry state = .ok () { state with trace } := by
  unfold record
  by_cases htraced : level ≤ setting.level
  · rw [if_pos htraced]
    refine ⟨state.trace.push made, ?_⟩
    have hmoved : relocate offset entry state = .ok made state := by rw [relocate, h]
    exact bind_of_ok hmoved
  · rw [if_neg htraced]
    exact ⟨state.trace, rfl⟩

/-! ## Sections -/

section

variable {setting : Setting} {name : String} {part : Section} {state : State}

theorem guardSection_of_unknown
    (hunknown : setting.sections.find? (·.name == name) = none) (body : Section → Run Value)
    (state : State) :
    guardSection setting body name state = .error (.fault ⟨.noSection name, none⟩) state := by
  simp only [guardSection, hunknown]
  rfl

theorem guardSection_of_busy
    {running : String}
    (hfound : setting.sections.find? (·.name == name) = some part)
    (hbusy : state.active = some running) (body : Section → Run Value) :
    guardSection setting body name state =
      .error (.fault ⟨.sectionBusy name running, none⟩) state := by
  simp only [guardSection, hfound]
  refine (bind_of_ok (get_of_state state)).trans ?_
  simp only [hbusy]
  rfl

/-- The rest of the evaluation of a section, once it is marked and traced. -/
def leaveSection (setting : Setting) (body : Section → Run Value) (part : Section)
    (name : String) : Run Value := do
  let value ← thenIdle (body part)
  record setting 1 part.offset (return .leave name (← render value))
  return value

theorem guardSection_of_traced
    {trace : Array Entry}
    (hfound : setting.sections.find? (·.name == name) = some part) (hidle : state.active = none)
    (htraced :
      record setting 1 part.offset (return .enter name) { state with active := some name } =
        .ok () { state with active := some name, trace })
    (body : Section → Run Value) :
    guardSection setting body name state =
      leaveSection setting body part name { state with active := some name, trace } := by
  simp only [guardSection, hfound]
  refine (bind_of_ok (get_of_state state)).trans ?_
  simp only [hidle]
  refine (bind_of_ok rfl).trans ?_
  exact bind_of_ok htraced

theorem guardSection_of_idle
    (hfound : setting.sections.find? (·.name == name) = some part) (hidle : state.active = none)
    (body : Section → Run Value) :
    ∃ trace, guardSection setting body name state =
      leaveSection setting body part name { state with active := some name, trace } := by
  obtain ⟨trace, htraced⟩ : ∃ trace,
      record setting 1 part.offset (return .enter name) { state with active := some name } =
        .ok () { state with active := some name, trace } :=
    record_of_ok 1 part.offset rfl
  exact ⟨trace, guardSection_of_traced hfound hidle htraced body⟩

theorem halts_thenIdle_iff {run : Run α} {halt : Halt} :
    (thenIdle run).Halts state halt ↔ run.Halts state halt := by
  unfold Halts thenIdle
  cases run state with
  | ok value state' =>
    constructor
    · rintro ⟨_, ⟨⟩⟩
    · rintro ⟨_, ⟨⟩⟩
  | error given state' =>
    constructor
    · rintro ⟨_, ⟨⟩⟩
      exact ⟨state', rfl⟩
    · rintro ⟨_, ⟨⟩⟩
      exact ⟨_, rfl⟩

end

end Run

end PuzzleLang
