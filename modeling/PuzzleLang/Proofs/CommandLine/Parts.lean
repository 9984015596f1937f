import PuzzleLang.CommandLine
import PuzzleLang.Proofs.Run.Thinning
import PuzzleLang.Proofs.Session.Printing

/-!
# The parts of a script

Running and testing a script go through its parts in the same way.  A part is reached by evaluating
it, after what is expected of it in a test; then there is a line on the time it took, if that is
wanted, and then its value is shown or compared.  The lines on the times change nothing else,
because no run can see what has been printed before it.
-/

namespace PuzzleLang

namespace CommandLine

/-- What is printed on the time that a part took. -/
def benchText (times : Option (String → Nat)) (name : String) : String :=
  match times with
  | some elapsed => benchLine (elapsed name) name
  | none => ""

/-- The section that gives the puzzle input. -/
def inputName (test : Bool) : String :=
  if test then "test" else "file"

/-- Evaluates, in a test, what is expected of a part. -/
def evaluateExpected (setting : Setting) : (test : Bool) → (name : String) → Run (Option Value)
  | true, name => do return some (← evaluate setting ("test_" ++ name))
  | false, _ => return none

/-- Evaluates a part, and before it, in a test, what is expected of it. -/
def reachPart (setting : Setting) (test : Bool) (name : String) : Run (Option Value × Value) := do
  let expected ← evaluateExpected setting test name
  let actual ← evaluate setting name
  return (expected, actual)

/-- What a part gives beside what is expected of it. -/
structure Comparison where
  expected : Value
  actual : Value
  same : Bool

/-- Tells how a comparison has come out. -/
def tellPart (name : String) (comparison : Comparison) : Run Bool := do
  if comparison.same then
    Run.write (green "✓" ++ " " ++ name ++ "\n")
  else
    Run.write (red "✗" ++ " " ++ name ++ "\n")
    Run.write ("  expected " ++ (← Run.render comparison.expected) ++ "\n")
    Run.write ("       got " ++ (← Run.render comparison.actual) ++ "\n")
  return comparison.same

/-- Prints the value of a part, or whether it is the one that is expected. -/
def closePart (name : String) : Option Value × Value → Run Bool
  | (none, value) => do
    Run.write (name ++ ": " ++ (← Run.render value) ++ "\n")
    return true
  | (some expected, actual) => do
    tellPart name ⟨expected, actual, ← Run.lift (expected.equals actual)⟩

/-- Runs or tests a part. -/
def runPart (setting : Setting) (times : Option (String → Nat)) (test : Bool) (name : String) :
    Run Bool := do
  let pair ← reachPart setting test name
  Run.write (benchText times name)
  closePart name pair

/-- Goes on from the end of the evaluation of the first part. -/
def afterFirst (setting : Setting) (times : Option (String → Nat)) (test : Bool)
    (pair : Option Value × Value) : Run Bool := do
  let first ← closePart "part1" pair
  if hasSection setting "part2" then
    let second ← runPart setting times test "part2"
    return first && second
  else return first

/-- Goes up to the end of the evaluation of the first part, without lines on times. -/
def toFirst (setting : Setting) (test : Bool) : Run (Option Value × Value) := do
  Run.readInput (← evaluateText setting (inputName test))
  reachPart setting test "part1"

/-- Goes up to the end of the evaluation of the second part, without lines on times. -/
def toSecond (setting : Setting) (test : Bool) : Run (Option Value × Value) := do
  let _ ← closePart "part1" (← toFirst setting test)
  reachPart setting test "part2"

theorem evaluatePart_eq (setting : Setting) (times : Option (String → Nat)) (name : String) :
    evaluatePart setting times name = do
      let value ← evaluate setting name
      Run.write (benchText times name)
      return value := by
  cases times with
  | some elapsed => rfl
  | none =>
    simp only [benchText, Run.write_empty]
    rfl

theorem checkPart_eq (setting : Setting) (times : Option (String → Nat)) (name : String) :
    checkPart setting times ("test_" ++ name) name = runPart setting times true name := by
  simp only [checkPart, runPart, reachPart, evaluateExpected, closePart, tellPart, evaluatePart_eq,
    bind_assoc, pure_bind]

theorem showPart_eq (setting : Setting) (times : Option (String → Nat)) (name : String) :
    (do
      showPart setting times name
      return true) = runPart setting times false name := by
  simp only [showPart, runPart, reachPart, evaluateExpected, closePart, evaluatePart_eq,
    bind_assoc, pure_bind]

/-- Goes through the parts, once the input has been read. -/
def eachPart (setting : Setting) (times : Option (String → Nat)) (test : Bool) : Run Bool := do
  let first ← runPart setting times test "part1"
  if hasSection setting "part2" then
    let second ← runPart setting times test "part2"
    return first && second
  else return first

theorem allParts_eq_eachPart (setting : Setting) (times : Option (String → Nat)) (test : Bool) :
    allParts setting times test = (do
      Run.readInput (← evaluateText setting (inputName test))
      eachPart setting times test) := by
  cases test with
  | true =>
    have hfirst := checkPart_eq setting times "part1"
    have hsecond := checkPart_eq setting times "part2"
    simp only [String.reduceAppend] at hfirst hsecond
    simp only [allParts, testParts, if_true, hfirst, hsecond, inputName, eachPart]
  | false =>
    simp only [allParts, runParts, Bool.false_eq_true, if_false, inputName, eachPart,
      ← showPart_eq, bind_assoc, pure_bind, Bool.and_self]

theorem allParts_eq (setting : Setting) (times : Option (String → Nat)) (test : Bool) :
    allParts setting times test = (do
      let pair ← toFirst setting test
      Run.write (benchText times "part1")
      afterFirst setting times test pair) := by
  simp only [allParts_eq_eachPart, eachPart, toFirst, afterFirst, bind_assoc]
  simp only [runPart, bind_assoc]

/-! ## Nothing depends on what has been printed -/

section

variable (setting : Setting) (times : Option (String → Nat)) (test : Bool) (name : String)

theorem appends_evaluate : (evaluate setting name).Appends :=
  Run.appends_enterSection setting setting.limits.calls name

theorem appends_reachPart : (reachPart setting test name).Appends := by
  have hexpected : (evaluateExpected setting test name).Appends := by
    cases test with
    | true => exact (appends_evaluate setting _).bind fun _ => Run.appends_pure _
    | false => exact Run.appends_pure none
  exact hexpected.bind fun _ => (appends_evaluate setting name).bind fun _ => Run.appends_pure _

theorem appends_tellPart (comparison : Comparison) : (tellPart name comparison).Appends := by
  unfold tellPart
  split
  · exact (Run.appends_write _).bind fun _ => Run.appends_pure _
  · refine (Run.appends_write _).bind fun _ => ?_
    refine (Run.appends_render _).bind fun _ => (Run.appends_write _).bind fun _ => ?_
    exact (Run.appends_render _).bind fun _ => (Run.appends_write _).bind fun _ =>
      Run.appends_pure _

theorem appends_closePart (pair : Option Value × Value) : (closePart name pair).Appends := by
  obtain ⟨expected, actual⟩ := pair
  cases expected with
  | none =>
    exact (Run.appends_render actual).bind fun _ => (Run.appends_write _).bind fun _ =>
      Run.appends_pure true
  | some expected => exact (Run.appends_lift _).bind fun _ => appends_tellPart name _

theorem appends_runPart : (runPart setting times test name).Appends :=
  (appends_reachPart setting test name).bind fun pair =>
    (Run.appends_write _).bind fun _ => appends_closePart name pair

theorem appends_afterFirst (pair : Option Value × Value) :
    (afterFirst setting times test pair).Appends := by
  refine (appends_closePart _ pair).bind fun first => ?_
  split
  · exact (appends_runPart setting times test _).bind fun _ => Run.appends_pure _
  · exact Run.appends_pure first

end

/-! ## Lines on times -/

section

variable {setting : Setting} {test : Bool} {state : State}

theorem hasSection_of_reached
    {name : String} {pair : Option Value × Value} {state' : State}
    (hran : reachPart setting test name state = .ok pair state') :
    hasSection setting name = true := by
  obtain ⟨_, middle, _, hmore⟩ := Run.bind_ok_iff.mp hran
  obtain ⟨value, last, hevaluated, _⟩ := Run.bind_ok_iff.mp hmore
  by_contra habsent
  have hunknown : setting.sections.find? (·.name == name) = none := by
    simpa [hasSection] using habsent
  rw [evaluate, Activity.enterSection_eq, Run.guardSection_of_unknown hunknown] at hevaluated
  cases hevaluated

theorem allParts_of_halted
    {halt : Halt} {last : State}
    (hhalted : toFirst setting test state = .error halt last) (times : Option (String → Nat)) :
    allParts setting times test state = .error halt last := by
  rw [allParts_eq]
  exact Run.bind_of_error hhalted _

theorem allParts_of_first
    {pair : Option Value × Value} {first : State}
    (hreached : toFirst setting test state = .ok pair first) (times : Option (String → Nat)) :
    allParts setting times test state =
      Run.precededBy (first.output ++ benchText times "part1")
        (afterFirst setting times test pair first.unprinted) := by
  -- All that the line on the time changes is the text behind which the rest is printed.
  have happends := appends_afterFirst setting times test pair
  rw [allParts_eq, Run.bind_of_ok hreached, ← happends.followed_eq_precededBy]
  rfl

theorem toSecond_of_first
    {pair : Option Value × Value} {first : State}
    (hreached : toFirst setting test state = .ok pair first) :
    toSecond setting test state = Run.precededBy first.output
      ((closePart "part1" pair >>= fun _ => reachPart setting test "part2") first.unprinted) := by
  have happends : (closePart "part1" pair >>= fun _ => reachPart setting test "part2").Appends :=
    (appends_closePart _ pair).bind fun _ => appends_reachPart setting test _
  rw [← happends.eq_precededBy]
  exact Run.bind_of_ok hreached

/-- If the second part is not reached, what comes after the first one does not depend on whether
times are shown. -/
theorem afterFirst_of_unreached
    {pair : Option Value × Value}
    (hunreached : ∀ pair' last,
      (closePart "part1" pair >>= fun _ => reachPart setting test "part2") state ≠ .ok pair' last)
    (times : Option (String → Nat)) :
    afterFirst setting times test pair state = afterFirst setting none test pair state := by
  unfold afterFirst
  cases hclosed : closePart "part1" pair state with
  | error halt last => rw [Run.bind_of_error hclosed, Run.bind_of_error hclosed]
  | ok same middle =>
    rw [Run.bind_of_ok hclosed, Run.bind_of_ok hclosed]
    cases hran : reachPart setting test "part2" middle with
    | ok pair' last => exact absurd ((Run.bind_of_ok hclosed).trans hran) (hunreached pair' last)
    | error halt last =>
      have hhalts (times : Option (String → Nat)) :
          runPart setting times test "part2" middle = .error halt last :=
        Run.bind_of_error hran _
      split
      · rw [Run.bind_of_error (hhalts times), Run.bind_of_error (hhalts none)]
      · rfl

theorem afterFirst_of_reached
    {pair pair' : Option Value × Value} {same : Bool} {middle second : State}
    (hclosed : closePart "part1" pair state = .ok same middle)
    (hreached : reachPart setting test "part2" middle = .ok pair' second)
    (times : Option (String → Nat)) :
    afterFirst setting times test pair state =
      Run.precededBy (second.output ++ benchText times "part2")
        ((do return same && (← closePart "part2" pair')) second.unprinted) := by
  have happends : (do return same && (← closePart "part2" pair') : Run Bool).Appends :=
    (appends_closePart _ pair').bind fun _ => Run.appends_pure _
  have hhas := hasSection_of_reached hreached
  rw [← happends.followed_eq_precededBy, afterFirst, Run.bind_of_ok hclosed, if_pos hhas, runPart,
    bind_assoc, Run.bind_of_ok hreached]
  rfl

/-- If only the first part is reached, its time is all that is added. -/
theorem exists_allParts_of_first
    {pair : Option Value × Value} {first : State}
    (hreached : toFirst setting test state = .ok pair first)
    (hunreached : ∀ pair' last, toSecond setting test state ≠ .ok pair' last) :
    ∃ rest, ∀ times, allParts setting times test state =
      Run.precededBy (first.output ++ benchText times "part1") rest := by
  refine ⟨afterFirst setting none test pair first.unprinted, fun times => ?_⟩
  rw [allParts_of_first hreached, afterFirst_of_unreached]
  intro pair' last hran
  refine hunreached pair' (last.preceded first.output) ?_
  rw [toSecond_of_first hreached, hran]
  rfl

/-- If both parts are reached, their times are all that is added. -/
theorem exists_allParts_of_second
    {pair pair' : Option Value × Value} {first second : State}
    (hreached : toFirst setting test state = .ok pair first)
    (hreached' : toSecond setting test state = .ok pair' second) :
    ∃ between rest, second.output = first.output ++ between ∧
      ∀ times, allParts setting times test state =
        Run.precededBy
          (first.output ++ benchText times "part1" ++ (between ++ benchText times "part2"))
          rest := by
  rw [toSecond_of_first hreached] at hreached'
  cases hran : (closePart "part1" pair >>= fun _ => reachPart setting test "part2")
      first.unprinted with
  | error halt last =>
    rw [hran] at hreached'
    cases hreached'
  | ok found last =>
    rw [hran] at hreached'
    cases hreached'
    obtain ⟨same, middle, hclosed, hreachedLast⟩ := Run.bind_ok_iff.mp hran
    refine ⟨last.output, (do return same && (← closePart "part2" pair')) last.unprinted, rfl,
      fun times => ?_⟩
    rw [allParts_of_first hreached, afterFirst_of_reached hclosed hreachedLast,
      Run.precededBy_precededBy]

end

/-! ## Comparisons -/

/-- Evaluates what is expected of a part and then the part, and compares them. -/
def compare (setting : Setting) (expectedName name : String) : Run Comparison := do
  let expected ← evaluate setting expectedName
  let actual ← evaluate setting name
  return ⟨expected, actual, ← Run.lift (expected.equals actual)⟩

/-- The line on a part that gives what is expected of it. -/
def passLine (name : String) : String :=
  green "✓" ++ " " ++ name ++ "\n"

/-- The lines on a comparison.  Values that differ are shown, which can fail only for those that
contain themselves. -/
def Comparison.lines? (store : Store) (name : String) (comparison : Comparison) : Option String :=
  if comparison.same then some (passLine name)
  else do
    let expected ← store.render? comparison.expected
    let actual ← store.render? comparison.actual
    return red "✗" ++ " " ++ name ++ "\n" ++
      ("  expected " ++ expected ++ "\n" ++ ("       got " ++ actual ++ "\n"))

theorem appends_compare (setting : Setting) (expectedName name : String) :
    (compare setting expectedName name).Appends :=
  (appends_evaluate setting expectedName).bind fun _ => (appends_evaluate setting name).bind
    fun _ => (Run.appends_lift _).bind fun _ => Run.appends_pure _

section

variable {setting : Setting} {name : String} {state last : State} {comparison : Comparison}

theorem tellPart_of_lines
    {lines : String} (htold : comparison.lines? state.store name = some lines) :
    tellPart name comparison state = .ok comparison.same (state.followed lines) := by
  obtain ⟨expected, actual, same⟩ := comparison
  cases same with
  | true =>
    cases htold
    rfl
  | false =>
    simp only [Comparison.lines?, Bool.false_eq_true, if_false, Option.bind_eq_bind,
      Option.bind_eq_some_iff, Option.pure_def, Option.some.injEq] at htold
    obtain ⟨expectedText, hexpected, actualText, hactual, rfl⟩ := htold
    have hshows {value : Value} {shown : String} (hshown : state.store.render? value = some shown)
        (text : String) :
        Run.render value (state.followed text) = .ok shown (state.followed text) :=
      Run.render_of_told hshown
    simp only [tellPart, Bool.false_eq_true, if_false]
    rw [Run.bind_of_ok (Run.write_of_state _ _), Run.bind_of_ok (hshows hexpected _),
      Run.bind_of_ok (Run.write_of_state _ _), State.followed_followed,
      Run.bind_of_ok (hshows hactual _), Run.bind_of_ok (Run.write_of_state _ _),
      State.followed_followed, String.append_assoc]
    rfl

theorem tellPart_of_untold (huntold : comparison.lines? state.store name = none) :
    comparison.same = false ∧ ∃ halt last, tellPart name comparison state = .error halt last := by
  obtain ⟨expected, actual, same⟩ := comparison
  cases same with
  | true => cases huntold
  | false =>
    refine ⟨rfl, ?_⟩
    have hhides {value : Value} (hhidden : state.store.render? value = none) (text : String) :
        Run.render value (state.followed text) =
          .error (.fault ⟨.recursionLimit, none⟩) (state.followed text) := by
      rw [Run.render, Run.get_bind_apply, State.store_followed, hhidden]
      rfl
    simp only [tellPart, Bool.false_eq_true, if_false]
    rw [Run.bind_of_ok (Run.write_of_state _ _)]
    cases hexpected : state.store.render? expected with
    | none => exact ⟨_, _, Run.bind_of_error (hhides hexpected _) _⟩
    | some expectedText =>
      have hshows (text : String) : Run.render expected (state.followed text) =
          .ok expectedText (state.followed text) :=
        Run.render_of_told hexpected
      have hactual : state.store.render? actual = none := by
        rw [Option.eq_none_iff_forall_ne_some]
        simpa [Comparison.lines?, hexpected] using huntold
      rw [Run.bind_of_ok (hshows _), Run.bind_of_ok (Run.write_of_state _ _),
        State.followed_followed]
      exact ⟨_, _, Run.bind_of_error (hhides hactual _) _⟩

theorem reachPart_test (setting : Setting) (name : String) :
    reachPart setting true name = (do
      let expected ← evaluate setting ("test_" ++ name)
      let actual ← evaluate setting name
      return (some expected, actual)) := by
  simp only [reachPart, evaluateExpected, bind_assoc, pure_bind]

/-- The part is tested with the comparison that its evaluation and that of what is expected of it
come to. -/
theorem runPart_of_compared
    (hcompared : compare setting ("test_" ++ name) name state = .ok comparison last)
    (times : Option (String → Nat)) :
    runPart setting times true name state =
      tellPart name comparison (last.followed (benchText times name)) := by
  obtain ⟨expected, middle, hexpected, hmore⟩ := Run.bind_ok_iff.mp hcompared
  obtain ⟨actual, last', hactual, hended⟩ := Run.bind_ok_iff.mp hmore
  rw [runPart, reachPart_test, bind_assoc, Run.bind_of_ok hexpected, bind_assoc,
    Run.bind_of_ok hactual, pure_bind, Run.bind_of_ok (Run.write_of_state _ _), closePart]
  cases hsame : expected.equals actual with
  | error cause =>
    rw [hsame] at hended
    cases hended
  | ok same =>
    rw [hsame] at hended
    cases hended
    rfl

theorem runPart_of_halted
    {halt : Halt}
    (hhalted : (compare setting ("test_" ++ name) name).Halts state halt)
    (times : Option (String → Nat)) :
    (runPart setting times true name).Halts state halt := by
  rw [runPart, reachPart_test, bind_assoc]
  obtain hhalts | ⟨expected, middle, hexpected, hmore⟩ := Run.halts_bind_iff.mp hhalted
  · exact Run.halts_bind_iff.mpr (.inl hhalts)
  rw [Run.halts_bind_of_ok hexpected, bind_assoc]
  obtain hhalts | ⟨actual, last, hactual, hmore⟩ := Run.halts_bind_iff.mp hmore
  · exact Run.halts_bind_iff.mpr (.inl hhalts)
  rw [Run.halts_bind_of_ok hactual, pure_bind, Run.halts_bind_of_ok (Run.write_of_state _ _),
    closePart]
  cases hsame : expected.equals actual with
  | ok same =>
    rw [hsame] at hmore
    obtain ⟨_, ⟨⟩⟩ := hmore
  | error cause =>
    rw [hsame] at hmore
    obtain ⟨_, ⟨⟩⟩ := hmore
    exact ⟨_, rfl⟩

theorem runPart_of_lines
    {lines : String}
    (hcompared : compare setting ("test_" ++ name) name state = .ok comparison last)
    (htold : comparison.lines? last.store name = some lines) (times : Option (String → Nat)) :
    runPart setting times true name state =
      .ok comparison.same (last.followed (benchText times name ++ lines)) := by
  have htoldLater : comparison.lines? (last.followed (benchText times name)).store name =
      some lines := htold
  rw [runPart_of_compared hcompared, tellPart_of_lines htoldLater, State.followed_followed]

theorem runPart_true_iff {times : Option (String → Nat)} {last : State} :
    runPart setting times true name state = .ok true last ↔
      ∃ comparison after, compare setting ("test_" ++ name) name state = .ok comparison after ∧
        comparison.same = true ∧ last = after.followed (benchText times name ++ passLine name) := by
  cases hcompared : compare setting ("test_" ++ name) name state with
  | error halt after =>
    obtain ⟨last', hhalted⟩ := runPart_of_halted ⟨after, hcompared⟩ times
    simp [hhalted]
  | ok comparison after =>
    by_cases hsame : comparison.same = true
    · have htold : comparison.lines? after.store name = some (passLine name) := if_pos hsame
      rw [runPart_of_lines hcompared htold, hsame]
      constructor
      · rintro ⟨⟩
        exact ⟨comparison, after, rfl, hsame, rfl⟩
      · rintro ⟨_, _, ⟨⟩, _, rfl⟩
        rfl
    · have hdiffer : comparison.same = false := by simpa using hsame
      cases htold : comparison.lines? (after.followed (benchText times name)).store name with
      | some lines => simp [runPart_of_lines hcompared htold, hdiffer]
      | none =>
        obtain ⟨_, halt, last', hhalted⟩ := tellPart_of_untold htold
        simp [runPart_of_compared hcompared, hhalted, hdiffer]

theorem eachPart_true_iff {times : Option (String → Nat)} :
    (∃ last, eachPart setting times true state = .ok true last) ↔
      ∃ middle, runPart setting times true "part1" state = .ok true middle ∧
        (hasSection setting "part2" = true →
          ∃ last, runPart setting times true "part2" middle = .ok true last) := by
  unfold eachPart
  simp only [Run.bind_ok_iff]
  by_cases hhas : hasSection setting "part2" = true
  · simp only [hhas, if_true, forall_const, Run.bind_ok_iff]
    constructor
    · rintro ⟨last, first, middle, hranFirst, second, last', hranSecond, hended⟩
      cases first <;> cases second <;> cases hended
      exact ⟨middle, hranFirst, last, hranSecond⟩
    · rintro ⟨middle, hranFirst, last, hranSecond⟩
      exact ⟨last, true, middle, hranFirst, true, last, hranSecond, rfl⟩
  · simp only [hhas, Bool.false_eq_true, if_false, false_imp_iff, and_true]
    constructor
    · rintro ⟨last, first, middle, hranFirst, hended⟩
      cases hended
      exact ⟨last, hranFirst⟩
    · rintro ⟨middle, hranFirst⟩
      exact ⟨middle, true, middle, hranFirst, rfl⟩

/-- A test succeeds if the comparisons come out well, one after the other, with nothing printed
between them. -/
theorem eachPart_true_iff_compare {times : Option (String → Nat)} :
    (∃ last, eachPart setting times true state = .ok true last) ↔
      ∃ first after, compare setting "test_part1" "part1" state = .ok first after ∧
        first.same = true ∧ (hasSection setting "part2" = true → ∃ second last,
          compare setting "test_part2" "part2" after = .ok second last ∧ second.same = true) := by
  have hsecond (after : State) (text : String) :
      (∃ last, runPart setting times true "part2" (after.followed text) = .ok true last) ↔
        ∃ second last, compare setting "test_part2" "part2" after = .ok second last ∧
          second.same = true := by
    rw [(appends_runPart setting times true "part2").exists_ok_followed_iff]
    simp only [runPart_true_iff, String.reduceAppend]
    constructor
    · rintro ⟨_, comparison, after, hcompared, hsame, _⟩
      exact ⟨comparison, after, hcompared, hsame⟩
    · rintro ⟨comparison, after, hcompared, hsame⟩
      exact ⟨_, comparison, after, hcompared, hsame, rfl⟩
  rw [eachPart_true_iff]
  constructor
  · rintro ⟨middle, hranFirst, hranSecond⟩
    obtain ⟨first, after, hcompared, hsame, rfl⟩ := runPart_true_iff.mp hranFirst
    exact ⟨first, after, hcompared, hsame, fun hhas => (hsecond _ _).mp (hranSecond hhas)⟩
  · rintro ⟨first, after, hcompared, hsame, hmore⟩
    exact ⟨_, runPart_true_iff.mpr ⟨first, after, hcompared, hsame, rfl⟩, fun hhas =>
      (hsecond _ _).mpr (hmore hhas)⟩

/-- Whatever the first comparison has come to, the second one is made. -/
theorem eachPart_of_compared
    {first second : Comparison} {after : State} {lines lines' : String}
    (hcompared : compare setting "test_part1" "part1" state = .ok first after)
    (htold : first.lines? after.store "part1" = some lines)
    (hhas : hasSection setting "part2" = true)
    (hcompared' : compare setting "test_part2" "part2" after = .ok second last)
    (htold' : second.lines? last.store "part2" = some lines') (times : Option (String → Nat)) :
    ∃ before between final, eachPart setting times true state =
        .ok (first.same && second.same) final ∧
      final.output = before ++ lines ++ between ++ lines' := by
  have hranFirst := runPart_of_lines hcompared htold times
  obtain ⟨added, later, hmoved, hsameStore, houtput⟩ :=
    (appends_compare setting _ _).ok_of_followed hcompared' (benchText times "part1" ++ lines)
  -- The lines on the first check move what the second one prints, but not its values.
  rw [← hsameStore] at htold'
  have hranSecond := runPart_of_lines hmoved htold' times
  refine ⟨after.output ++ benchText times "part1", added ++ benchText times "part2",
    later.followed (benchText times "part2" ++ lines'), ?_, ?_⟩
  · rw [eachPart, Run.bind_of_ok hranFirst, if_pos hhas, Run.bind_of_ok hranSecond]
    rfl
  · rw [State.output_followed, houtput]
    simp only [String.append_assoc]

theorem eachPart_of_halted
    {first : Comparison} {after : State} {lines : String} {halt : Halt}
    (hcompared : compare setting "test_part1" "part1" state = .ok first after)
    (htold : first.lines? after.store "part1" = some lines)
    (hhas : hasSection setting "part2" = true)
    (hhalted : compare setting "test_part2" "part2" after = .error halt last)
    (times : Option (String → Nat)) :
    ∃ final, eachPart setting times true state = .error halt final := by
  have hranFirst := runPart_of_lines hcompared htold times
  obtain ⟨last', hmoved⟩ := (appends_compare setting _ _).error_of_followed hhalted
    (benchText times "part1" ++ lines)
  obtain ⟨final, hranSecond⟩ : (runPart setting times true "part2").Halts
      (after.followed (benchText times "part1" ++ lines)) halt :=
    runPart_of_halted ⟨last', hmoved⟩ times
  refine ⟨final, ?_⟩
  rw [eachPart, Run.bind_of_ok hranFirst, if_pos hhas, Run.bind_of_error hranSecond]

end

end CommandLine

end PuzzleLang
