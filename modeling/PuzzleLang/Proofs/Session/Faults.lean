import PuzzleLang.Proofs.Grammar.Placement
import PuzzleLang.Proofs.Policy.Attribution
import PuzzleLang.Proofs.Position
import PuzzleLang.Proofs.Run.Origin

/-!
# Faults are attributed and never swallowed

A fault of a section has the offset of a node of the script, and so the line of one of its tokens.
It comes from an activity that has it by itself, and everything around that activity has the same
fault at the same offset.  Only the call of a native function moves a fault, to the call itself, and
only a pattern that cannot be compared with its subject passes over one: it does not match.
-/

namespace PuzzleLang

/-! ## Attribution -/

theorem Program.Attributes.stage
    {program : Program} {fault : Fault} (h : program.Attributes fault) :
    fault.cause.stage = .run := by
  cases h with
  | node _ hordinary => exact hordinary.1
  | stray _ hfault =>
    rcases Stmt.cases_of_strayFault hfault with ⟨offset, rfl, rfl⟩ | ⟨offset, rfl, rfl⟩
    · rfl
    · rfl

theorem Program.Attributes.exists_node
    {program : Program} {fault : Fault} (h : program.Attributes fault) :
    ∃ node, program.Contains node ∧ fault.offset = some node.offset := by
  cases h with
  | @node node cause hcontains _ => exact ⟨node, hcontains, rfl⟩
  | stray hhasStray hfault =>
    rcases Stmt.cases_of_strayFault hfault with ⟨offset, rfl, rfl⟩ | ⟨offset, rfl, rfl⟩
    · exact ⟨_, hhasStray.contains, rfl⟩
    · exact ⟨_, hhasStray.contains, rfl⟩

/-- The evaluation of a section in a session is an activity. -/
theorem Session.evaluate_eq_error_iff {session : Session} {name : String} {halt : Halt} :
    (session.evaluate name).1 = .error halt ↔
      Activity.Halts session.setting
        ⟨session.setting.limits.calls, .enter name, session.state⟩ halt := by
  change (session.perform (Run.enterSection _ _ name)).1 = _ ↔
    (Run.enterSection _ _ name).Halts session.state halt
  unfold Session.perform Run.Halts
  cases Run.enterSection session.setting session.setting.limits.calls name session.state with
  | ok value state =>
    constructor
    · rintro ⟨⟩
    · rintro ⟨_, ⟨⟩⟩
  | error given state =>
    constructor
    · rintro ⟨⟩
      exact ⟨state, rfl⟩
    · rintro ⟨_, ⟨⟩⟩
      rfl

/-! ## Comparisons -/

theorem Run.matchesValue_of_error
    {value expected : Value} {cause : Cause} (hrefused : expected.equals value = .error cause) :
    matchesValue value expected = false := by
  rw [matchesValue, hrefused]

theorem Operator.apply_of_equals_error
    {op : Operator} {a b : Value} {cause : Cause}
    (hcompares : op = .equal ∨ op = .notEqual) (hrefused : a.equals b = .error cause)
    (store : Store) :
    op.apply store a b = .error cause := by
  rcases hcompares with rfl | rfl
  · simp [Operator.apply, hrefused, Except.map]
  · simp [Operator.apply, hrefused, Except.map]

/-! ## Main result -/

/-- A fault of a section of a script that has been read is one of its run, and has the offset of a
node and of a token of the script, on a line of its text.  The evaluation of a section is an
activity; whatever halts a part of an activity, or a part of a part, halts the activity in the same
way, and the faults of an activity are those that such parts have by themselves.  A pattern halts
only as the expressions in it do: values that cannot be compared do not match it, while the
operators that compare them are at fault. -/
theorem faults_are_attributed_and_passed_on :
    (∀ (source : List Char) (program : Program), Program.parse source = .ok program →
      ∀ (level : Int) (files : Files) (limits : Limits) (requests : List Request) (name : String)
          (fault : Fault),
        ((Session.load program level files limits).2.after requests).hasSection name = true →
        (((Session.load program level files limits).2.after requests).evaluate name).1 =
            .error (.fault fault) →
          fault.cause.stage = .run ∧
          ∃ node, program.Contains node ∧ fault.offset = some node.offset ∧
            (∃ t ∈ (Lexed.ofSource source).tokens, t.offset = node.offset) ∧
            1 ≤ lineAt source node.offset ∧
            lineAt source node.offset ≤ 1 + source.count '\n') ∧
    (∀ (session : Session) (name : String) (halt : Halt),
      (session.evaluate name).1 = .error halt ↔
        Activity.Halts session.setting
          ⟨session.setting.limits.calls, .enter name, session.state⟩ halt) ∧
    (∀ (setting : Setting) (activity part : Activity) (halt : Halt),
      Relation.ReflTransGen (Activity.Performs setting) activity part →
        part.Halts setting halt → activity.Halts setting halt) ∧
    (∀ (setting : Setting) (activity : Activity) (fault : Fault),
      activity.Halts setting (.fault fault) ↔
        ∃ origin, Relation.ReflTransGen (Activity.Performs setting) activity origin ∧
          origin.Raises setting fault) ∧
    (∀ (setting : Setting) (callees : Callees) (scope : ScopeId) (pattern : Expr)
        (subject : Value) (state : State) (halt : Halt),
      (matchPattern setting callees pattern subject scope).Halts state halt ↔
        ∃ inner state', Tries setting callees scope subject pattern state inner state' ∧
          (evaluate setting callees inner scope).Halts state' halt) ∧
    (∀ (value expected : Value) (cause : Cause),
      expected.equals value = .error cause → Run.matchesValue value expected = false) ∧
    ∀ (op : Operator) (store : Store) (a b : Value) (cause : Cause),
      op = .equal ∨ op = .notEqual → a.equals b = .error cause →
        op.apply store a b = .error cause := by
  refine ⟨?_, ?_, ?_, ?_, ?_, ?_, ?_⟩
  · intro source program hparsed level files limits requests name fault hhasSection houtcome
    have hserves := program.serves_after level files limits requests
    have hattributes : program.Attributes fault :=
      hserves.halts_of_evaluate hhasSection houtcome fault rfl
    obtain ⟨node, hcontains, hoffset⟩ := hattributes.exists_node
    refine ⟨hattributes.stage, node, hcontains, hoffset, ?_, ?_, ?_⟩
    · exact Program.exists_token_of_contains hparsed hcontains
    · exact lineAt_pos source node.offset
    · exact lineAt_le source node.offset
  · intro session name halt
    exact Session.evaluate_eq_error_iff
  · intro setting activity part halt hchain hhalts
    exact Activity.halts_of_reflTransGen hchain hhalts
  · intro setting activity fault
    constructor
    · exact Activity.exists_origin
    · rintro ⟨origin, hchain, hraises⟩
      exact Activity.halts_of_reflTransGen hchain hraises.halts
  · intro setting callees scope pattern subject state halt
    exact halts_matchPattern_iff
  · intro value expected cause hrefused
    exact Run.matchesValue_of_error hrefused
  · intro op store a b cause hcompares hrefused
    exact Operator.apply_of_equals_error hcompares hrefused store

/-- The text of a script with a fault in a function that a loop of its section calls. -/
def faultyText : List Char :=
  "fn f(x) \x7b\n  return x / 0\n\x7d\na: \x7b for x in [1] \x7b f(x) \x7d \x7d".toList

/-- The script of that text. -/
def Program.faulty : Program where
  items := [
    .function ⟨0, some "f", ["x"],
      ⟨8, [.returns 12 (some (.binary 21 .divide (.ident 19 "x") (.number 23 0)))]⟩⟩,
    .labelled ⟨27, "a", .block ⟨30, [.forEach 32 "x" none (.array 41 [.number 42 1])
      ⟨45, [.expr 47 (.call 47 (.ident 47 "f") [.ident 49 "x"])]⟩]⟩⟩]
  source := faultyText

/-- A session of that script, after it has been given an input. -/
def Session.faulty : Session :=
  (Session.load .faulty 0 ⟨fun _ _ _ => .missing⟩ .standard).2.after [.readInput "1"]

set_option maxRecDepth 10000 in
/-- The division in the function is at fault, on the second line, and its fault gets unchanged
through the call, the loop and the section.  A text is no pattern for a number, but `==` has a fault
for the two. -/
theorem faults_are_attributed_and_passed_on_division :
    Program.parse faultyText = .ok .faulty ∧
      (Session.faulty.evaluate "a").1 = .error (.fault ⟨.divisionByZero, some 21⟩) ∧
      (∃ node, Program.faulty.Contains node ∧ node.offset = 21 ∧
        lineAt faultyText node.offset = 2) ∧
      (∃ origin,
        Relation.ReflTransGen (Activity.Performs Session.faulty.setting)
          ⟨2500, .enter "a", Session.faulty.state⟩ origin ∧
        origin.Raises Session.faulty.setting ⟨.divisionByZero, some 21⟩) ∧
      Run.matchesValue (.number 1) (.string "x") = false ∧
      Operator.apply .equal .initial (.string "x") (.number 1) =
        .error (.cannotCompare .string .number) := by
  have hparsed : Program.parse faultyText = .ok .faulty := by cbv
  have houtcome : (Session.faulty.evaluate "a").1 = .error (.fault ⟨.divisionByZero, some 21⟩) := by
    with_unfolding_all rfl
  obtain ⟨hattributed, hevaluates, hpasses, horigins, -, habsorbed, hrefused⟩ :=
    faults_are_attributed_and_passed_on
  obtain ⟨-, node, hcontains, hoffset, -⟩ :=
    hattributed _ _ hparsed 0 ⟨fun _ _ _ => .missing⟩ .standard [.readInput "1"] "a" _ (by decide)
      houtcome
  have hnodeOffset : node.offset = 21 := (Option.some.inj hoffset).symm
  obtain ⟨origin, hchain, hraises⟩ :=
    (horigins _ _ _).mp ((hevaluates Session.faulty "a" _).mp houtcome)
  refine ⟨hparsed, ?_, ⟨node, hcontains, hnodeOffset, ?_⟩, ⟨origin, hchain, hraises⟩, ?_, ?_⟩
  · have hhalts := (horigins _ _ _).mpr ⟨origin, .refl, hraises⟩
    exact (hevaluates Session.faulty "a" _).mpr (hpasses _ _ _ _ hchain hhalts)
  · rw [hnodeOffset]
    decide
  · exact habsorbed _ _ _ rfl
  · exact hrefused _ _ _ _ _ (.inl rfl) rfl

end PuzzleLang
