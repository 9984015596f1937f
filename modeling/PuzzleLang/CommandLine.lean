import PuzzleLang.CommandLine.Options
import PuzzleLang.Session
import PuzzleLang.Token.Listing
import PuzzleLang.Tree.Dump
import PuzzleLang.Tree.Parse

/-!
# The command line

A script is run on its puzzle input, or tested on its example, part by part; or its tokens or its
tree are shown.  Everything a run prints is collected in a report.  When a run needs a file that is
not known yet, it waits for it, and is run again once the file is known.
-/

namespace PuzzleLang

namespace CommandLine

/-- The name of the program in messages. -/
def programName : String :=
  "aoclang"

/-- A text in a colour. -/
def coloured (code text : String) : String :=
  "\x1b[" ++ code ++ "m" ++ text ++ "\x1b[0m"

/-- A text in green. -/
def green (text : String) : String :=
  coloured "32" text

/-- A text in red. -/
def red (text : String) : String :=
  coloured "31" text

/-- A text in yellow. -/
def yellow (text : String) : String :=
  coloured "33" text

/-! ## Parts -/

/-- Evaluates a section. -/
def evaluate (setting : Setting) (name : String) : Run Value :=
  Run.enterSection setting setting.limits.calls name

/-- A time in seconds, given in thousandths, with three digits after the point. -/
def secondsText (milliseconds : Nat) : String :=
  naturalText (milliseconds / 1000) ++ "." ++
    String.ofList [(milliseconds / 100 % 10).digitChar, (milliseconds / 10 % 10).digitChar,
      (milliseconds % 10).digitChar]

/-- The line on the time that a part took. -/
def benchLine (milliseconds : Nat) (name : String) : String :=
  yellow "bench:" ++ " " ++ name ++ " took " ++ secondsText milliseconds ++ "s\n"

/-- Evaluates a part, and tells how long it took if the times of the parts are wanted. -/
def evaluatePart (setting : Setting) (times : Option (String → Nat)) (name : String) :
    Run Value := do
  let value ← evaluate setting name
  if let some elapsed := times then Run.write (benchLine (elapsed name) name)
  return value

/-- The text that a section evaluates to. -/
def evaluateText (setting : Setting) (name : String) : Run String := do
  match ← evaluate setting name with
  | .string text => return text
  | _ => Run.fail (.sectionNotString name)

/-- Whether there is a section of that name. -/
def hasSection (setting : Setting) (name : String) : Bool :=
  setting.sections.any (·.name == name)

/-- Evaluates a part and prints its value. -/
def showPart (setting : Setting) (times : Option (String → Nat)) (name : String) : Run Unit := do
  let value ← evaluatePart setting times name
  Run.write (name ++ ": " ++ (← Run.render value) ++ "\n")

/-- Runs the parts on the puzzle input. -/
def runParts (setting : Setting) (times : Option (String → Nat)) : Run Bool := do
  Run.readInput (← evaluateText setting "file")
  showPart setting times "part1"
  if hasSection setting "part2" then showPart setting times "part2"
  return true

/-- Evaluates a part and compares it with what is expected of it. -/
def checkPart (setting : Setting) (times : Option (String → Nat)) (expectedName name : String) :
    Run Bool := do
  let expected ← evaluate setting expectedName
  let actual ← evaluatePart setting times name
  let same ← Run.lift (expected.equals actual)
  if same then
    Run.write (green "✓" ++ " " ++ name ++ "\n")
  else
    Run.write (red "✗" ++ " " ++ name ++ "\n")
    Run.write ("  expected " ++ (← Run.render expected) ++ "\n")
    Run.write ("       got " ++ (← Run.render actual) ++ "\n")
  return same

/-- Tests the parts on the example. -/
def testParts (setting : Setting) (times : Option (String → Nat)) : Run Bool := do
  Run.readInput (← evaluateText setting "test")
  let first ← checkPart setting times "test_part1" "part1"
  if hasSection setting "part2" then
    let second ← checkPart setting times "test_part2" "part2"
    return first && second
  else return first

/-- Runs or tests the parts. -/
def allParts (setting : Setting) (times : Option (String → Nat)) (test : Bool) : Run Bool :=
  if test then testParts setting times else runParts setting times

/-! ## Reports -/

/-- What a run of the program leaves behind. -/
structure Report where
  exitCode : Nat
  output : String
  errors : String
  /-- Why a file that had to be opened could not be, if so. -/
  crash : Option (String × ReadFault)
  /-- The trace, if one was written. -/
  trace : Option String

/-- How a run of the program ends. -/
inductive Outcome
  | done (report : Report)
  /-- The answer to the question for this file is not known; the trace so far comes with it. -/
  | waiting (path : String) (trace : Option String)

/-- The end of a run without a trace. -/
def finish (exitCode : Nat) (output errors : String) : Outcome :=
  .done ⟨exitCode, output, errors, none, none⟩

/-- The end of a run that a file stopped. -/
def crashed (path : String) (fault : ReadFault) : Outcome :=
  .done ⟨1, "", "", some (path, fault), none⟩

/-- The report of a fault. -/
def faultText (source : List Char) (fault : Fault) : String :=
  let line := (fault.offset.map (lineAt source)).getD 0
  red (fault.cause.stage.name ++ " on line " ++ naturalText line) ++ "\n" ++
    fault.cause.message ++ "\n"

/-- The outcome of a run that has ended. -/
def outcomeOf (options : Options) (source : List Char)
    (result : EStateM.Result Halt State Bool) : Outcome :=
  let trace := fun (state : State) =>
    if 0 < options.verbosity then some (traceText state.trace) else none
  match result with
  | .ok passed state => .done ⟨if passed then 0 else 1, state.output, "", none, trace state⟩
  | .error (.fault fault) state =>
    .done ⟨1, state.output, faultText source fault, none, trace state⟩
  | .error (.waiting path) state => .waiting path (trace state)
  | .error .exhausted state => .done ⟨1, state.output, "", none, trace state⟩

/-- What a run finds around it. -/
structure Host where
  files : Files
  limits : Limits
  /-- How long the evaluation of each part takes, in thousandths of a second. -/
  elapsed : String → Nat

/-- Files alone make a host that sets no limits and whose clock stands still. -/
instance : Coe Files Host :=
  ⟨fun files => ⟨files, .standard, fun _ => 0⟩⟩

/-- The times of the parts, if they are wanted. -/
def Host.times (host : Host) (options : Options) : Option (String → Nat) :=
  if options.bench then some host.elapsed else none

/-- The setting in which a script is run. -/
def Host.setting (host : Host) (options : Options) (program : Program) : Setting :=
  .ofProgram program options.verbosity host.files host.limits

/-- Loads a script and runs or tests it, after `asked` questions for files. -/
def runProgram (options : Options) (host : Host) (asked : Nat) (program : Program) : Outcome :=
  let setting := host.setting options program
  let run : Run Bool := do
    Run.loadItems setting [] program.items
    allParts setting (host.times options) options.test
  outcomeOf options program.source (run { State.initial with asked })

/-- Does what the options ask for with the text of a script. -/
def runSource (options : Options) (host : Host) (source : List Char) : Outcome :=
  if options.dumpTokens then
    match listTokens source with
    | (text, none) => finish 0 text ""
    | (text, some fault) => finish 1 text (faultText source fault)
  else
    match Program.parse source with
    | .error fault => finish 1 "" (faultText source fault)
    | .ok program =>
      if options.dumpTree then finish 0 (program.dump.text ++ "\n") ""
      else if options.verbosity = 0 then runProgram options host 1 program
      else
        match host.files.ask 1 traceFile none with
        | .folder => crashed traceFile .folder
        | .unknown => .waiting traceFile none
        | _ => runProgram options host 2 program

/-- Does what the options ask for. -/
def runOptions (options : Options) (host : Host) : Outcome :=
  let path := normalPath options.program
  match host.files.ask 0 path none with
  | .unknown => .waiting path none
  | .missing | .notFolder => finish 1 "" ("Error: file " ++ path ++ " not found\n")
  | reply =>
    match reply.text with
    | .error fault => crashed path fault
    | .ok source => runSource options host source.toList

/-- The summary of the arguments. -/
def usage : String :=
  "usage: " ++ programName ++ " [-h] [-t] [-b] [-v] [--debug-lex | --debug-ast] program\n"

/-- The exit code for arguments that cannot be followed. -/
def usageExit : Nat :=
  2

/-- Runs the program with the given arguments. -/
def run (arguments : List String) (host : Host) : Outcome :=
  match Options.parse arguments with
  | .error fault => finish usageExit "" (programName ++ ": error: " ++ fault.message ++ "\n")
  | .ok .help => finish 0 usage ""
  | .ok (.run options) => runOptions options host

end CommandLine

end PuzzleLang
