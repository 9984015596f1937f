import PuzzleLang.Proofs.CommandLine.Parts

/-!
# The verdict of a test and the times of parts

A test succeeds if and only if the host, evaluating the sections of the script one after the other,
finds what is expected of each part.  Asking for times adds one line to the output for each part
whose evaluation has finished, right behind what has been printed up to there, and changes nothing
else.
-/

namespace PuzzleLang

namespace Session

variable {session session' : Session} {α : Type} {run : Run α}

theorem perform_ok_iff {value : α} :
    session.perform run = (.ok value, session') ↔
      run session.state = .ok value session'.state ∧ session'.setting = session.setting := by
  obtain ⟨setting, state⟩ := session
  obtain ⟨setting', state'⟩ := session'
  unfold perform
  cases run state with
  | error halt last => simp
  | ok found last =>
    constructor
    · rintro ⟨⟩
      exact ⟨rfl, rfl⟩
    · rintro ⟨⟨⟩, ⟨⟩⟩
      rfl

theorem run_of_perform_error {halt : Halt} (h : session.perform run = (.error halt, session')) :
    run session.state = .error halt session'.state := by
  unfold perform at h
  cases hran : run session.state with
  | ok found last =>
    rw [hran] at h
    cases h
  | error found last =>
    rw [hran] at h
    cases h
    rfl

/-- Evaluates what is expected of a part and then the part, and compares them. -/
def compare (session : Session) (expectedName name : String) :
    Except Halt CommandLine.Comparison × Session :=
  session.perform (CommandLine.compare session.setting expectedName name)

/-- The example of the script gives an input, and with it the parts give what is expected of
them. -/
def PassesTests (session : Session) : Prop :=
  ∃ text read first after, session.evaluate "test" = (.ok (.string text), read) ∧
    (read.readInput text).compare "test_part1" "part1" = (.ok first, after) ∧
    first.same = true ∧
    (session.hasSection "part2" = true → ∃ second last,
      after.compare "test_part2" "part2" = (.ok second, last) ∧ second.same = true)

end Session

namespace CommandLine

section

variable {session read : Session} {text : String}

theorem evaluateText_ok_iff {setting : Setting} {name : String} {state last : State} :
    evaluateText setting name state = .ok text last ↔
      evaluate setting name state = .ok (.string text) last := by
  unfold evaluateText
  rw [Run.bind_ok_iff]
  constructor
  · rintro ⟨value, middle, hevaluated, hended⟩
    cases value <;> cases hended
    exact hevaluated
  · intro hevaluated
    exact ⟨_, _, hevaluated, rfl⟩

/-- Once the example has given an input, the parts are gone through. -/
theorem allParts_of_input
    (hevaluated : session.evaluate "test" = (.ok (.string text), read))
    (times : Option (String → Nat)) :
    allParts session.setting times true session.state =
      eachPart session.setting times true (read.readInput text).state := by
  obtain ⟨hran, _⟩ := Session.perform_ok_iff.mp hevaluated
  rw [allParts_eq_eachPart, inputName, if_pos rfl,
    Run.bind_of_ok (evaluateText_ok_iff.mpr hran)]
  rfl

theorem setting_of_read (hevaluated : session.evaluate "test" = (.ok (.string text), read)) :
    (read.readInput text).setting = session.setting :=
  (Session.perform_ok_iff.mp hevaluated).2

theorem passesTests_iff (session : Session) (times : Option (String → Nat)) :
    (∃ last, allParts session.setting times true session.state = .ok true last) ↔
      session.PassesTests := by
  constructor
  · rintro ⟨last, hran⟩
    rw [allParts_eq_eachPart] at hran
    obtain ⟨text, state, htext, _⟩ := Run.bind_ok_iff.mp hran
    have hevaluated : session.evaluate "test" = (.ok (.string text), { session with state }) :=
      Session.perform_ok_iff.mpr ⟨evaluateText_ok_iff.mp htext, rfl⟩
    rw [← allParts_eq_eachPart, allParts_of_input hevaluated] at hran
    obtain ⟨first, after, hcompared, hsame, hmore⟩ := eachPart_true_iff_compare.mp ⟨last, hran⟩
    refine ⟨text, _, first, { session with state := after }, hevaluated, ?_, hsame, fun hhas => ?_⟩
    · exact Session.perform_ok_iff.mpr ⟨hcompared, rfl⟩
    · obtain ⟨second, last, hcompared', hsame'⟩ := hmore hhas
      exact ⟨second, { session with state := last },
        Session.perform_ok_iff.mpr ⟨hcompared', rfl⟩, hsame'⟩
  · rintro ⟨text, read, first, after, hevaluated, hcompared, hsame, hmore⟩
    rw [allParts_of_input hevaluated, eachPart_true_iff_compare]
    have hsetting := setting_of_read hevaluated
    obtain ⟨hran, hsetting'⟩ := Session.perform_ok_iff.mp hcompared
    rw [hsetting] at hran hsetting'
    refine ⟨first, after.state, hran, hsame, fun hhas => ?_⟩
    obtain ⟨second, last, hcompared', hsame'⟩ := hmore hhas
    have hran' := (Session.perform_ok_iff.mp hcompared').1
    rw [hsetting'] at hran'
    exact ⟨second, last.state, hran', hsame'⟩

end

/-! ## Outcomes -/

/-- Two outcomes are the same, but for a beginning of the output that is another one. -/
inductive Outcome.Differs (first second : String) : Outcome → Outcome → Prop
  | done {report : Report} {rest : String} :
    report.output = first ++ rest →
      Differs first second (.done report) (.done { report with output := second ++ rest })
  | waiting (path : String) (trace : Option String) :
    Differs first second (.waiting path trace) (.waiting path trace)

theorem differs_outcomeOf
    (options : Options) (source : List Char) (first second : String)
    (rest : EStateM.Result Halt State Bool) :
    Outcome.Differs first second (outcomeOf options source (Run.precededBy first rest))
      (outcomeOf options source (Run.precededBy second rest)) := by
  cases rest with
  | ok passed state => exact .done rfl
  | error halt state =>
    cases halt with
    | fault fault => exact .done rfl
    | exhausted => exact .done rfl
    | waiting path => exact .waiting path _

theorem exitCode_outcomeOf_iff
    {options : Options} {source : List Char} {result : EStateM.Result Halt State Bool} :
    (∃ report, outcomeOf options source result = .done report ∧ report.exitCode = 0) ↔
      ∃ last, result = .ok true last := by
  cases result with
  | ok passed state => cases passed <;> simp [outcomeOf]
  | error halt state => cases halt <;> simp [outcomeOf]

/-! ## Launching -/

/-- The file that is to hold the trace, if one is kept, can be opened; with it, `asked` files have
been asked for. -/
def OpensTrace (files : Files) (verbosity asked : Nat) : Prop :=
  (verbosity = 0 ∧ asked = 1) ∨
    (verbosity ≠ 0 ∧ asked = 2 ∧ files.ask 1 traceFile none ≠ .folder ∧
      files.ask 1 traceFile none ≠ .unknown)

/-- The arguments ask for a script to be run or tested, and it can be read and loaded. -/
structure Launches (arguments : List String) (host : Host) (options : Options)
    (program : Program) (session : Session) : Prop where
  parses : Options.parse arguments = .ok (.run options)
  runs : options.dumpTokens = false ∧ options.dumpTree = false
  reads : ∃ source, (host.files.ask 0 (normalPath options.program) none).text = .ok source ∧
    Program.parse source.toList = .ok program
  setting : session.setting = host.setting options program
  loads : ∃ asked, OpensTrace host.files options.verbosity asked ∧
    Run.loadItems session.setting [] program.items { State.initial with asked } =
      .ok () session.state

section

variable {arguments : List String} {host : Host} {options : Options} {program : Program}
  {session : Session}

theorem runProgram_eq
    {asked : Nat} {loaded : State}
    (hloads : Run.loadItems (host.setting options program) [] program.items
      { State.initial with asked } = .ok () loaded) :
    runProgram options host asked program = outcomeOf options program.source
      (allParts (host.setting options program) (host.times options) options.test loaded) := by
  rw [runProgram, Run.bind_of_ok hloads]

theorem runSource_eq
    {asked : Nat} {source : List Char}
    (hruns : options.dumpTokens = false ∧ options.dumpTree = false)
    (hparses : Program.parse source = .ok program)
    (hopens : OpensTrace host.files options.verbosity asked) :
    runSource options host source = runProgram options host asked program := by
  simp only [runSource, hruns.1, hruns.2, hparses, Bool.false_eq_true, if_false]
  obtain ⟨hsilent, rfl⟩ | ⟨htraced, rfl, hnotFolder, hknown⟩ := hopens
  · rw [if_pos hsilent]
  · rw [if_neg htraced]
    cases hreply : host.files.ask 1 traceFile none with
    | folder => exact absurd hreply hnotFolder
    | unknown => exact absurd hreply hknown
    | content | missing | notFolder | nameTooLong => rfl

theorem runOptions_eq
    {source : String}
    (hreads : (host.files.ask 0 (normalPath options.program) none).text = .ok source) :
    runOptions options host = runSource options host source.toList := by
  unfold runOptions
  cases hreply : host.files.ask 0 (normalPath options.program) none with
  | content bytes =>
    rw [hreply] at hreads
    simp only [hreply, hreads]
  | missing | folder | notFolder | nameTooLong | unknown =>
    rw [hreply] at hreads
    cases hreads

theorem Launches.run_eq (hlaunches : Launches arguments host options program session) :
    run arguments host = outcomeOf options program.source
      (allParts session.setting (host.times options) options.test session.state) := by
  obtain ⟨hparses, hruns, ⟨source, hreads, hparsesSource⟩, hsetting, asked, hopens, hloads⟩ :=
    hlaunches
  rw [hsetting] at hloads ⊢
  rw [run, hparses, ← runProgram_eq hloads, ← runSource_eq hruns hparsesSource hopens,
    ← runOptions_eq hreads]

end

/-! ## The flag for times -/

section

open Options

/-- What has been gathered, with the flag for times before the other ones. -/
def withBench (gathered : Gathered) : Gathered :=
  { gathered with flags := .bench :: gathered.flags }

theorem addFlag_withBench (gathered : Gathered) (flag : Flag) :
    (withBench gathered).addFlag flag = (gathered.addFlag flag).map withBench := by
  unfold Gathered.addFlag
  cases hrival : flag.rival? with
  | none => rfl
  | some rival =>
    have hsame : (withBench gathered).flags.contains rival = gathered.flags.contains rival := by
      cases flag <;> cases hrival <;> simp [withBench]
    simp only [hsame]
    split <;> rfl

theorem addFlags_withBench (gathered : Gathered) (flags : List Flag) :
    (withBench gathered).addFlags flags = (gathered.addFlags flags).map withBench := by
  induction flags generalizing gathered with
  | nil => rfl
  | cons flag flags ih =>
    rw [Gathered.addFlags, Gathered.addFlags, addFlag_withBench]
    cases gathered.addFlag flag with
    | error fault => rfl
    | ok added =>
      change (if flag = .help then _ else _) = Except.map _ (if flag = .help then _ else _)
      split
      · rfl
      · exact ih added

theorem eq_of_withBench_eq
    {gathered : Gathered} {flags : List Flag} {program : Option String} {extras : List String}
    (h : withBench gathered = ⟨flags, program, extras⟩) :
    gathered = ⟨gathered.flags, program, extras⟩ := by
  cases h
  rfl

/-- The flag for times does not change what else is gathered: no flag excludes it. -/
theorem gather_withBench (gathered : Gathered) (arguments : List Argument) :
    gather (withBench gathered) arguments = (gather gathered arguments).map withBench := by
  fun_induction gather gathered arguments with
  | case1 | case2 => rfl
  | case3 gathered flags arguments ih =>
    rw [gather, addFlags_withBench]
    cases gathered.addFlags flags with
    | error fault => rfl
    | ok added =>
      have hsame : (withBench added).flags.contains .help = added.flags.contains .help := by
        simp [withBench]
      change (if (withBench added).flags.contains .help = true then _ else _) =
        Except.map withBench (if added.flags.contains .help = true then _ else _)
      rw [hsame]
      split
      · rfl
      · exact ih added
  | case4 gathered text arguments ih => exact ih
  | case5 flags extras text arguments ih => exact ih
  | case6 gathered arguments hother ih =>
    rw [gather]
    · exact ih
    · intro flags extras text later hsame
      exact hother _ extras text later (eq_of_withBench_eq hsame)
  | case7 flags extras text arguments ih => exact ih
  | case8 flags extras text arguments hother ih =>
    rw [withBench, gather]
    · exact ih
    · exact hother
  | case9 gathered text arguments hfirst hsecond ih =>
    rw [gather]
    · exact ih
    · intro flags extras later hsame
      exact hfirst _ extras later (eq_of_withBench_eq hsame)
    · intro flags extras hsame
      exact hsecond _ extras (eq_of_withBench_eq hsame)

theorem order_withBench
    {gathered : Gathered} {options : Options} (h : gathered.order = .ok (.run options)) :
    (withBench gathered).order = .ok (.run { options with bench := true }) := by
  obtain ⟨flags, program, extras⟩ := gathered
  by_cases hhelp : Flag.help ∈ flags
  · simp [Gathered.order, hhelp] at h
  cases program with
  | none => simp [Gathered.order, hhelp] at h
  | some program =>
    cases extras with
    | cons extra extras => simp [Gathered.order, hhelp] at h
    | nil =>
      simp only [Gathered.order, List.contains_eq_mem, hhelp, decide_false, Bool.false_eq_true,
        if_false, Except.ok.injEq, Order.run.injEq] at h
      subst h
      simp [Gathered.order, withBench, hhelp]

theorem parse_bench
    {arguments : List String} {options : Options}
    (hparses : Options.parse arguments = .ok (.run options)) :
    Options.parse ("-b" :: arguments) = .ok (.run { options with bench := true }) := by
  unfold Options.parse at hparses ⊢
  have hdashB : Argument.classify "-b" = .ok (.flags [.bench]) := by decide
  rw [Argument.classifyAll, hdashB]
  · cases hclassified : Argument.classifyAll arguments with
    | error fault =>
      rw [hclassified] at hparses
      cases hparses
    | ok classified =>
      rw [hclassified] at hparses
      change (gather (withBench ⟨[], none, []⟩) classified >>= Gathered.order) = _
      change (gather ⟨[], none, []⟩ classified >>= Gathered.order) = _ at hparses
      rw [gather_withBench]
      cases hgathered : gather ⟨[], none, []⟩ classified with
      | error fault =>
        rw [hgathered] at hparses
        cases hparses
      | ok gathered =>
        rw [hgathered] at hparses
        exact order_withBench hparses
  · decide

end

/-! ## Verdicts and times -/

/-- In a test, the second part is checked whatever the first check has come to, as long as this can
be told.  The lines on the two checks are printed in order, and a fault of the second one is
reported. -/
def ChecksBoth (session : Session) (source : List Char) (outcome : Outcome) : Prop :=
  ∀ text read first after lines, session.evaluate "test" = (.ok (.string text), read) →
    (read.readInput text).compare "test_part1" "part1" = (.ok first, after) →
    first.lines? after.state.store "part1" = some lines → session.hasSection "part2" = true →
    (∀ second last lines', after.compare "test_part2" "part2" = (.ok second, last) →
      second.lines? last.state.store "part2" = some lines' →
      ∃ report before between, outcome = .done report ∧
        report.output = before ++ lines ++ between ++ lines' ∧ report.errors = "" ∧
        report.exitCode = if first.same && second.same then 0 else 1) ∧
    ∀ fault last, after.compare "test_part2" "part2" = (.error (.fault fault), last) →
      ∃ report, outcome = .done report ∧ report.errors = faultText source fault ∧
        report.exitCode = 1

/-- The times of the parts that are reached are all that two outcomes differ in.  Each stands right
behind what has been printed when the evaluation of its part finishes. -/
structure AddsTimes (session : Session) (elapsed : String → Nat) (test : Bool)
    (plain timed : Outcome) : Prop where
  unreached : ∀ halt last, toFirst session.setting test session.state = .error halt last →
    timed = plain
  first : ∀ pair first, toFirst session.setting test session.state = .ok pair first →
    (∀ pair' last, toSecond session.setting test session.state ≠ .ok pair' last) →
    Outcome.Differs first.output (first.output ++ benchLine (elapsed "part1") "part1") plain timed
  second : ∀ pair first pair' second,
    toFirst session.setting test session.state = .ok pair first →
    toSecond session.setting test session.state = .ok pair' second →
    ∃ between, second.output = first.output ++ between ∧
      Outcome.Differs second.output
        (first.output ++ benchLine (elapsed "part1") "part1" ++
          (between ++ benchLine (elapsed "part2") "part2")) plain timed

section

variable {arguments : List String} {host : Host} {options : Options} {program : Program}
  {session : Session}

theorem Launches.timed
    {timed : List String}
    (hlaunches : Launches arguments host options program session)
    (hparses : Options.parse timed = .ok (.run { options with bench := true })) :
    Launches timed host { options with bench := true } program session :=
  ⟨hparses, hlaunches.runs, hlaunches.reads, hlaunches.setting, hlaunches.loads⟩

theorem checksBoth_outcomeOf
    (session : Session) (options : Options) (source : List Char) (times : Option (String → Nat)) :
    ChecksBoth session source
      (outcomeOf options source (allParts session.setting times true session.state)) := by
  intro text read first after lines hevaluated hcompared htold hhas
  have hsetting := setting_of_read hevaluated
  obtain ⟨hran, hsetting'⟩ := Session.perform_ok_iff.mp hcompared
  rw [hsetting] at hran hsetting'
  rw [allParts_of_input hevaluated]
  constructor
  · intro second last lines' hcompared' htold'
    have hran' := (Session.perform_ok_iff.mp hcompared').1
    rw [hsetting'] at hran'
    obtain ⟨before, between, final, hended, houtput⟩ :=
      eachPart_of_compared hran htold hhas hran' htold' times
    rw [hended]
    exact ⟨_, before, between, rfl, houtput, rfl, rfl⟩
  · intro fault last hhalted
    have hran' := Session.run_of_perform_error hhalted
    rw [hsetting'] at hran'
    obtain ⟨final, hended⟩ := eachPart_of_halted hran htold hhas hran' times
    rw [hended]
    exact ⟨_, rfl, rfl, rfl⟩

theorem addsTimes_outcomeOf
    (session : Session) (options : Options) (source : List Char) (elapsed : String → Nat)
    (test : Bool) :
    AddsTimes session elapsed test
      (outcomeOf options source (allParts session.setting none test session.state))
      (outcomeOf options source (allParts session.setting (some elapsed) test session.state)) where
  unreached := by
    intro halt last hhalted
    rw [allParts_of_halted hhalted, allParts_of_halted hhalted]
  first := by
    intro pair first hreached hunreached
    obtain ⟨rest, hended⟩ := exists_allParts_of_first hreached hunreached
    have hdiffers := differs_outcomeOf options source (first.output ++ benchText none "part1")
      (first.output ++ benchText (some elapsed) "part1") rest
    rw [← hended, ← hended] at hdiffers
    simpa [benchText] using hdiffers
  second := by
    intro pair first pair' second hreached hreached'
    obtain ⟨between, rest, houtput, hended⟩ := exists_allParts_of_second hreached hreached'
    refine ⟨between, houtput, ?_⟩
    have hdiffers := differs_outcomeOf options source
      (first.output ++ benchText none "part1" ++ (between ++ benchText none "part2"))
      (first.output ++ benchText (some elapsed) "part1" ++
        (between ++ benchText (some elapsed) "part2")) rest
    rw [← hended, ← hended] at hdiffers
    simpa [benchText, houtput] using hdiffers

/-- The verdict of a test is that of the host's own evaluations, both parts are checked, and the
flag for times adds one line for each part that is reached and changes nothing else. -/
theorem verdict_and_times (hlaunches : Launches arguments host options program session) :
    (options.test = true →
      ((∃ report, run arguments host = .done report ∧ report.exitCode = 0) ↔
        session.PassesTests) ∧
      ChecksBoth session program.source (run arguments host)) ∧
    (options.bench = false →
      Options.parse ("-b" :: arguments) = .ok (.run { options with bench := true }) ∧
      ∀ timed, Options.parse timed = .ok (.run { options with bench := true }) →
        AddsTimes session host.elapsed options.test (run arguments host) (run timed host)) := by
  refine ⟨fun htest => ?_, fun hplain => ⟨parse_bench hlaunches.parses, fun timed hparses => ?_⟩⟩
  · rw [hlaunches.run_eq, htest]
    refine ⟨?_, checksBoth_outcomeOf session options program.source _⟩
    exact exitCode_outcomeOf_iff.trans (passesTests_iff session _)
  · have hnone : host.times options = none := if_neg (by simp [hplain])
    rw [hlaunches.run_eq, (hlaunches.timed hparses).run_eq, hnone]
    exact addsTimes_outcomeOf session options program.source host.elapsed options.test

end

/-- A script whose first part gives something else than is expected of it. -/
def mixedText : String :=
  "test: '1'\ntest_part1: 1\npart1: 2\ntest_part2: 3\npart2: 3\n"

/-- The script of that text. -/
def mixedProgram : Program where
  items := [.labelled ⟨0, "test", .expr (.string 7 "1")⟩,
    .labelled ⟨10, "test_part1", .expr (.number 22 1)⟩,
    .labelled ⟨24, "part1", .expr (.number 31 2)⟩,
    .labelled ⟨33, "test_part2", .expr (.number 45 3)⟩,
    .labelled ⟨47, "part2", .expr (.number 54 3)⟩]
  source := mixedText.toList

/-- A host that has the script under every path, and on which the first part takes longer than the
second one. -/
def mixedHost : Host where
  files := ⟨fun _ _ _ => .content mixedText.toUTF8⟩
  limits := .standard
  elapsed name := if name = "part1" then 1250 else 7

/-- A test of the script without times. -/
def mixedOptions : Options :=
  ⟨true, false, 0, false, false, "day.aoc"⟩

/-- The script after it has been loaded. -/
def mixedSession : Session :=
  ⟨mixedHost.setting mixedOptions mixedProgram, { State.initial with asked := 1 }⟩

set_option maxRecDepth 10000 in
theorem launches_mixed :
    Launches ["-t", "day.aoc"] mixedHost mixedOptions mixedProgram mixedSession where
  parses := by decide
  runs := ⟨rfl, rfl⟩
  reads := by
    have hreads : (Reply.content mixedText.toUTF8).text = .ok mixedText := by
      with_unfolding_all rfl
    have hparses : Program.parse mixedText.toList = .ok mixedProgram := by cbv
    exact ⟨mixedText, hreads, hparses⟩
  setting := rfl
  loads := ⟨1, .inl ⟨rfl, rfl⟩, rfl⟩

/-- An equal second part does not make up for the first one: the test fails, with both verdicts
printed, and it does so with times as well. -/
theorem verdict_of_mixed :
    Launches ["-t", "day.aoc"] mixedHost mixedOptions mixedProgram mixedSession ∧
      (∃ report before between, run ["-t", "day.aoc"] mixedHost = .done report ∧
        report.output = before ++ (red "✗" ++ " " ++ "part1" ++ "\n" ++
          ("  expected " ++ "1" ++ "\n" ++ ("       got " ++ "2" ++ "\n"))) ++ between ++
            passLine "part2" ∧
        report.errors = "" ∧ report.exitCode = 1) ∧
      ¬ mixedSession.PassesTests ∧
      AddsTimes mixedSession mixedHost.elapsed true (run ["-t", "day.aoc"] mixedHost)
        (run ["-b", "-t", "day.aoc"] mixedHost) ∧
      benchLine (mixedHost.elapsed "part1") "part1" =
        yellow "bench:" ++ " part1 took 1.250s\n" := by
  obtain ⟨htests, htimes⟩ := verdict_and_times launches_mixed
  obtain ⟨hverdict, hchecks⟩ := htests rfl
  obtain ⟨hparses, hadds⟩ := htimes rfl
  have hevaluated : mixedSession.evaluate "test" = (.ok (.string "1"), mixedSession) := by
    with_unfolding_all rfl
  have hcompared : (mixedSession.readInput "1").compare "test_part1" "part1" =
      (.ok ⟨.number 1, .number 2, false⟩, mixedSession.readInput "1") := by
    with_unfolding_all rfl
  have hcompared' : (mixedSession.readInput "1").compare "test_part2" "part2" =
      (.ok ⟨.number 3, .number 3, true⟩, mixedSession.readInput "1") := by
    with_unfolding_all rfl
  obtain ⟨hboth, -⟩ := hchecks "1" mixedSession _ _ _ hevaluated hcompared rfl (by decide)
  obtain ⟨report, before, between, hended, houtput, hnoErrors, hexit⟩ := hboth _ _ _ hcompared' rfl
  refine ⟨launches_mixed, ⟨report, before, between, hended, houtput, hnoErrors, hexit⟩, ?_,
    hadds _ hparses, by decide⟩
  intro hpasses
  obtain ⟨report', hended', hzero⟩ := hverdict.mpr hpasses
  rw [hended] at hended'
  cases hended'
  rw [hexit] at hzero
  cases hzero

end CommandLine

end PuzzleLang
