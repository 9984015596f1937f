import PuzzleLang.Proofs.Run.Keeping
import PuzzleLang.Proofs.Session.Faults

/-!
# Sections are evaluated one at a time

The mark of the section that is being evaluated is set when a host evaluates a section and taken
away however that ends, so a session is idle between the calls of its host.  While the section runs,
everything it comes to finds the mark set.  A function of the host that asks for another section is
therefore turned away before anything is done, and the fault of that ends the section that runs.
-/

namespace PuzzleLang

/-! ## Sessions are idle between calls -/

theorem Session.Reachable.idle
    {byHand : Value → Prop} {session : Session} (h : Session.Reachable byHand session) :
    session.state.active = none := by
  induction h with
  | load program level files limits _ =>
    rw [Session.load, Session.state_perform, Run.keepsActive_loadItems]
    rfl
  | evaluate name _ ih =>
    rw [Session.evaluate, Session.state_perform]
    exact Run.active_final_enterSection ih _ _ name
  | readInput text _ ih =>
    rw [Session.readInput, Session.state_perform, Run.keepsActive_readInput]
    exact ih
  | define name _ _ _ ih =>
    rw [Session.define, Session.state_perform]
    exact ih

/-! ## Everything that a section comes to finds it marked -/

namespace Activity

variable {setting : Setting} {part : Activity} {name : String}

/-- All that the evaluation of a section comes to finds that section marked. -/
theorem active_of_reflTransGen
    {depth : Nat} {state : State}
    (hchain : Relation.ReflTransGen (Performs setting) ⟨depth, .enter name, state⟩ part) :
    part = ⟨depth, .enter name, state⟩ ∨ part.state.active = some name := by
  induction hchain with
  | refl => exact .inl rfl
  | tail _ hperforms ih =>
    right
    rcases ih with rfl | hactive
    · cases hperforms with | entered henters
      rfl
    · exact hperforms.active hactive

/-- A section that is asked for while another one is being evaluated comes to nothing. -/
theorem not_performs_of_busy
    {depth : Nat} {running target : String} {state : State}
    (hactive : state.active = some running) :
    ¬ Performs setting ⟨depth, .enter target, state⟩ part := by
  intro hperforms
  cases hperforms with | entered henters
  have hidle := henters.idle
  rw [hactive] at hidle
  cases hidle

end Activity

/-! ## Sections that are asked for while one runs -/

theorem Run.enterSection_of_busy
    {setting : Setting} {name running : String} {part : Section} {state : State}
    (hfound : setting.sections.find? (·.name == name) = some part)
    (hbusy : state.active = some running) (depth : Nat) :
    enterSection setting depth name state =
      .error (.fault ⟨.sectionBusy name running, none⟩) state := by
  rw [Activity.enterSection_eq]
  exact guardSection_of_busy hfound hbusy _

/-- The fault of a function of the host is put to its call. -/
theorem Activity.CallsNative.raises
    {setting : Setting} {activity : Activity} {offset : Nat} {name target : String}
    {values : List Value} {cause : Cause} {state : State}
    (hcalls : activity.CallsNative setting offset (.evaluate name target) values state)
    (hrefused : ∀ depth, Run.enterSection setting depth target state =
      .error (.fault ⟨cause, none⟩) state) :
    activity.Raises setting ⟨cause, some offset⟩ := by
  cases hcalls with | @call depth _ _ _ _ _ _ _ _ _ hran htraced
  exact .native hran htraced ⟨state, hrefused depth⟩

/-- Sections are evaluated one at a time.  Between the calls of its host a session is idle, however
the evaluations before have ended.  All that the evaluation of a section comes to finds that section
marked; and if a function of the host then asks for a section of the script, it is turned away in
the very state in which it asked, nothing of that section being run, and the evaluation of the outer
section has the fault of that at the call of the host's function. -/
theorem sections_are_not_reentered
    {session : Session} (hreachable : Session.Reachable (fun _ => True) session) :
    session.state.active = none ∧
      ∀ (outer : String) (part : Activity),
        Relation.ReflTransGen (Activity.Performs session.setting)
            ⟨session.setting.limits.calls, .enter outer, session.state⟩ part →
          (part = ⟨session.setting.limits.calls, .enter outer, session.state⟩ ∨
            part.state.active = some outer) ∧
          ∀ (offset : Nat) (name inner : String) (values : List Value) (state : State),
            part.CallsNative session.setting offset (.evaluate name inner) values state →
              session.hasSection inner = true →
              state.active = some outer ∧
              (∀ depth, Run.enterSection session.setting depth inner state =
                .error (.fault ⟨.sectionBusy inner outer, none⟩) state) ∧
              (∀ depth next,
                ¬ Activity.Performs session.setting ⟨depth, .enter inner, state⟩ next) ∧
              (session.evaluate outer).1 =
                .error (.fault ⟨.sectionBusy inner outer, some offset⟩) ∧
              (Cause.sectionBusy inner outer).message =
                "cannot evaluate section " ++ inner ++ " while section " ++ outer ++
                  " is running" ∧
              (session.evaluate outer).2.state.active = none := by
  refine ⟨hreachable.idle, fun outer part hchain => ?_⟩
  have hmarked := Activity.active_of_reflTransGen hchain
  refine ⟨hmarked, fun offset name inner values state hcalls hhasSection => ?_⟩
  have hactive : state.active = some outer := by
    rcases hmarked with rfl | hactive
    · cases hcalls
    · exact hcalls.active hactive
  obtain ⟨found, hfound⟩ := Session.exists_of_hasSection hhasSection
  have hrefused := Run.enterSection_of_busy hfound hactive
  have hhalts := Activity.halts_of_reflTransGen hchain (hcalls.raises hrefused).halts
  refine ⟨hactive, hrefused, fun _ _ => Activity.not_performs_of_busy hactive, ?_, rfl, ?_⟩
  · exact Session.evaluate_eq_error_iff.mpr hhalts
  · exact (hreachable.evaluate outer).idle

/-- The text of a script with a function that calls a function of the host. -/
def nestingText : List Char :=
  "fn f() \x7b\n  return inner()\n\x7d\npart1: f()\npart2: 2".toList

/-- The function of that script. -/
def Function.asking : Function :=
  ⟨0, some "f", [], ⟨7, [.returns 11 (some (.call 18 (.ident 18 "inner") []))]⟩⟩

/-- The first section of that script. -/
def Section.nesting : Section :=
  ⟨28, "part1", .expr (.call 35 (.ident 35 "f") [])⟩

/-- The script of that text. -/
def Program.nesting : Program where
  items := [
    .function .asking,
    .labelled .nesting,
    .labelled ⟨39, "part2", .expr (.number 46 2)⟩]
  source := nestingText

/-- A session of that script in which the host's function asks for the second section. -/
def Session.nesting : Session :=
  ((Session.load .nesting 0 ⟨fun _ _ _ => .missing⟩ .standard).2.readInput "1").define "inner"
    (.native (.evaluate "inner" "part2"))

/-- The state in which the first section of that session runs. -/
def State.nesting : State :=
  { Session.nesting.state with active := some "part1" }

/-- The state in which the body of the function runs. -/
def State.asking : State :=
  { State.nesting with
    store := (State.nesting.store.newScope (some rootScope)).2.defineAll ⟨1⟩ [] }

set_option maxRecDepth 10000 in
/-- The host's function is called in a function of the script and turned away; the fault of the
first section lies on the second line, and the second section can be evaluated afterwards. -/
theorem sections_are_not_reentered_host :
    Session.Reachable (fun _ => True) Session.nesting ∧
      Session.nesting.state.active = none ∧
      (Session.nesting.evaluate "part1").1 =
        .error (.fault ⟨.sectionBusy "part2" "part1", some 18⟩) ∧
      lineAt nestingText 18 = 2 ∧
      (Session.nesting.evaluate "part1").2.state.active = none ∧
      ((Session.nesting.evaluate "part1").2.evaluate "part2").1.toOption.bind Value.operand? =
        some 2 := by
  have hreachable : Session.Reachable (fun _ => True) Session.nesting := by
    apply Session.Reachable.define
    · apply Session.Reachable.readInput
      exact .load .nesting 0 _ _ rfl
    · exact trivial
    · intro place hnamed
      cases hnamed
  have henters : Activity.Enters Session.nesting.setting "part1" .nesting Session.nesting.state
      Session.nesting.state.trace := ⟨rfl, rfl, rfl⟩
  have hcallee : Activity.Performs Session.nesting.setting
      ⟨2499, .expr (.call 35 (.ident 35 "f") []) rootScope, .nesting⟩
      ⟨2499, .call 35 ⟨.asking, rootScope⟩ [], .nesting⟩ := by
    apply Activity.Performs.callee
    · with_unfolding_all rfl
    · with_unfolding_all rfl
  have hcalled : Activity.Performs Session.nesting.setting
      ⟨2499, .call 35 ⟨.asking, rootScope⟩ [], .nesting⟩
      ⟨2498, .body Function.asking.body ⟨1⟩, .asking⟩ := by
    apply Activity.Performs.called
    · rfl
    · with_unfolding_all rfl
    · with_unfolding_all rfl
  have hmember : Activity.Performs Session.nesting.setting
      ⟨2498, .body Function.asking.body ⟨1⟩, .asking⟩
      ⟨2498, .statement (.returns 11 (some (.call 18 (.ident 18 "inner") []))) ⟨1⟩, .asking⟩ :=
    .member (show executeAll _ _ [] _ _ = _ from rfl)
  have hcalls : Activity.CallsNative Session.nesting.setting
      ⟨2498, .expr (.call 18 (.ident 18 "inner") []) ⟨1⟩, .asking⟩ 18 (.evaluate "inner" "part2") []
      .asking := by
    apply Activity.CallsNative.call
    · with_unfolding_all rfl
    · with_unfolding_all rfl
  have hchain := ((((Relation.ReflTransGen.single (.entered henters)).tail hcallee).tail
    hcalled).tail hmember).tail (.lead rfl)
  obtain ⟨hidle, hguarded⟩ := sections_are_not_reentered hreachable
  obtain ⟨-, -, -, houtcome, -, hidleAfter⟩ :=
    (hguarded "part1" _ hchain).2 18 _ "part2" _ _ hcalls rfl
  exact ⟨hreachable, hidle, houtcome, by decide, hidleAfter, by decide +kernel⟩

end PuzzleLang
