import PuzzleLang.Proofs.Policy.Attribution

/-!
# Jumps keep to their bodies

A jump never gets out of the body of the function or of the section that it stands in.  It ends or
skips a round of a loop around it there, and if there is none, the body has no value and the jump is
at fault.  So these faults can be seen in the text of a script: one that has no stray jump never has
them, whatever it calls.
-/

namespace PuzzleLang

theorem Program.Attributes.break_inv
    {program : Program} {fault : Fault}
    (h : program.Attributes fault) (hbreak : fault.cause = .breakOutsideLoop) :
    ∃ offset, fault.offset = some offset ∧ program.HasStray (.breaks offset) := by
  cases h with
  | node _ hordinary => exact absurd hbreak hordinary.2.1
  | stray hhasStray hfault =>
    rcases Stmt.cases_of_strayFault hfault with ⟨offset, rfl, rfl⟩ | ⟨offset, rfl, rfl⟩
    · exact ⟨offset, rfl, hhasStray⟩
    · cases hbreak

theorem Program.Attributes.continue_inv
    {program : Program} {fault : Fault}
    (h : program.Attributes fault) (hcontinue : fault.cause = .continueOutsideLoop) :
    ∃ offset, fault.offset = some offset ∧ program.HasStray (.continues offset) := by
  cases h with
  | node _ hordinary => exact absurd hcontinue hordinary.2.2
  | stray hhasStray hfault =>
    rcases Stmt.cases_of_strayFault hfault with ⟨offset, rfl, rfl⟩ | ⟨offset, rfl, rfl⟩
    · cases hcontinue
    · exact ⟨offset, rfl, hhasStray⟩

/-- No section that is unknown has the fault of a jump. -/
theorem Session.attributes_of_jump
    {program : Program} {session : Session} {name : String} {fault : Fault}
    (hserves : program.policy.Serves session)
    (hjump : fault.cause = .breakOutsideLoop ∨ fault.cause = .continueOutsideLoop)
    (houtcome : (session.evaluate name).1 = .error (.fault fault)) :
    program.Attributes fault := by
  rcases hserves.halts_or_unknown houtcome with hallowed | hunknown
  · exact hallowed fault rfl
  · cases hunknown
    rcases hjump with ⟨⟨⟩⟩ | ⟨⟨⟩⟩

theorem Run.callFunction_of_jump
    {setting : Setting} {depth : Nat} {closure : Closure} {args : List Value} {flow : Flow}
    {jump : Stmt} {state state' : State}
    (harity : args.length = closure.function.params.length)
    (hran : bodyFlow setting (.within setting depth) closure args state = .ok flow state')
    (hjump : flow.jump? = some jump) (offset : Nat) :
    ∃ fault, jump.strayFault? = some fault ∧
      callFunction setting (depth + 1) offset closure args state =
        .error (.fault fault) state' := by
  obtain ⟨fault, hfault, hhalted⟩ := Run.resultOf_jump hjump state'
  refine ⟨fault, hfault, ?_⟩
  rw [callFunction, callBody_eq harity, bind_of_ok hran, hhalted]

/-- A fault of a jump is that of a stray jump of the script, so that a script without one never has
it.  A block that ends by a jump has that jump inside it, outside all inner loops and functions,
whatever is called on the way; and a call whose body ends by a jump gives no value to its caller but
has the fault of that jump. -/
theorem jumps_keep_to_their_bodies :
    (∀ (program : Program) (level : Int) (files : Files) (limits : Limits)
        (requests : List Request) (name : String) (fault : Fault),
      (((Session.load program level files limits).2.after requests).evaluate name).1 =
          .error (.fault fault) →
        (fault.cause = .breakOutsideLoop →
          ∃ offset, fault.offset = some offset ∧ program.HasStray (.breaks offset)) ∧
        (fault.cause = .continueOutsideLoop →
          ∃ offset, fault.offset = some offset ∧ program.HasStray (.continues offset)) ∧
        ((∀ jump, ¬ program.HasStray jump) →
          fault.cause ≠ .breakOutsideLoop ∧ fault.cause ≠ .continueOutsideLoop)) ∧
    (∀ (setting : Setting) (callees : Callees) (block : Block) (scope : ScopeId)
        (state state' : State) (flow : Flow) (jump : Stmt),
      executeBlock setting callees block scope state = .ok flow state' →
        flow.jump? = some jump → (Node.statement (.block block)).Exposes (.statement jump)) ∧
    ∀ (setting : Setting) (depth offset : Nat) (closure : Closure) (args : List Value)
        (state state' : State) (flow : Flow) (jump : Stmt),
      args.length = closure.function.params.length →
      Run.bodyFlow setting (.within setting depth) closure args state = .ok flow state' →
        flow.jump? = some jump →
        (Node.statement (.block closure.function.body)).Exposes (.statement jump) ∧
        ∃ fault, jump.strayFault? = some fault ∧
          Run.callFunction setting (depth + 1) offset closure args state =
            .error (.fault fault) state' := by
  refine ⟨?_, ?_, ?_⟩
  · intro program level files limits requests name fault houtcome
    have hserves := program.serves_after level files limits requests
    have hbreaks : fault.cause = .breakOutsideLoop →
        ∃ offset, fault.offset = some offset ∧ program.HasStray (.breaks offset) := by
      intro hbreak
      exact (Session.attributes_of_jump hserves (.inl hbreak) houtcome).break_inv hbreak
    have hcontinues : fault.cause = .continueOutsideLoop →
        ∃ offset, fault.offset = some offset ∧ program.HasStray (.continues offset) := by
      intro hcontinue
      exact (Session.attributes_of_jump hserves (.inr hcontinue) houtcome).continue_inv hcontinue
    refine ⟨hbreaks, hcontinues, fun hnoStray => ⟨fun hbreak => ?_, fun hcontinue => ?_⟩⟩
    · obtain ⟨offset, -, hhasStray⟩ := hbreaks hbreak
      exact hnoStray _ hhasStray
    · obtain ⟨offset, -, hhasStray⟩ := hcontinues hcontinue
      exact hnoStray _ hhasStray
  · intro setting callees block scope state state' flow jump hran hjump
    exact comesFrom_executeBlock setting callees block scope state flow state' hran jump hjump
  · intro setting depth offset closure args state state' flow jump harity hran hjump
    refine ⟨?_, Run.callFunction_of_jump harity hran hjump offset⟩
    exact comesFrom_bodyFlow setting _ closure args state flow state' hran jump hjump

/-- A function whose body is a jump. -/
def Function.onlyBreak : Function :=
  ⟨0, some "f", [], ⟨3, [.breaks 5]⟩⟩

/-- A script with a section that calls that function in a loop. -/
def Program.breakInCallee : Program where
  items := [.function .onlyBreak,
    .labelled ⟨12, "part", .block ⟨18, [.forEach 20 "x" none (.array 29 [.number 30 1])
      ⟨33, [.expr 35 (.call 36 (.ident 35 "f") [])]⟩]⟩⟩]
  source := []

/-- The jump in the function does not end the loop of its caller but is at fault, both in a session
and in a call by itself. -/
theorem jumps_keep_to_their_bodies_call :
    (((Session.load .breakInCallee 0 ⟨fun _ _ _ => .missing⟩ .standard).2.after
        [.readInput "1"]).evaluate "part").1 = .error (.fault ⟨.breakOutsideLoop, some 5⟩) ∧
      Program.breakInCallee.HasStray (.breaks 5) ∧
      (Node.statement (.block Function.onlyBreak.body)).Exposes (.statement (.breaks 5)) ∧
      ∃ state, Run.callFunction (.ofProgram .breakInCallee 0 ⟨fun _ _ _ => .missing⟩ .standard) 1 36
        ⟨.onlyBreak, rootScope⟩ [] .initial =
          .error (.fault ⟨.breakOutsideLoop, some 5⟩) state := by
  have houtcome : (((Session.load .breakInCallee 0 ⟨fun _ _ _ => .missing⟩ .standard).2.after
      [.readInput "1"]).evaluate "part").1 = .error (.fault ⟨.breakOutsideLoop, some 5⟩) := by
    with_unfolding_all rfl
  obtain ⟨offset, hoffset, hhasStray⟩ :=
    (jumps_keep_to_their_bodies.1 _ _ _ _ _ _ _ houtcome).1 rfl
  cases hoffset
  let setting := Setting.ofProgram .breakInCallee 0 ⟨fun _ _ _ => .missing⟩ .standard
  obtain ⟨state, hran⟩ : ∃ state, executeBlock setting (.within setting 0) Function.onlyBreak.body
      rootScope .initial = .ok (.broke 5) state := ⟨_, rfl⟩
  have hexposes : (Node.statement (.block Function.onlyBreak.body)).Exposes
      (.statement (.breaks 5)) :=
    jumps_keep_to_their_bodies.2.1 _ _ _ _ _ _ _ _ hran rfl
  obtain ⟨state', hcalled⟩ : ∃ state, Run.bodyFlow setting (.within setting 0)
      ⟨.onlyBreak, rootScope⟩ [] .initial = .ok (.broke 5) state := ⟨_, rfl⟩
  obtain ⟨-, fault, hfault, hhalted⟩ :=
    jumps_keep_to_their_bodies.2.2 _ _ 36 _ _ _ _ _ _ rfl hcalled rfl
  cases hfault
  exact ⟨houtcome, hhasStray, hexposes, state', hhalted⟩

end PuzzleLang
