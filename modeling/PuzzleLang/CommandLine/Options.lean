import PuzzleLang.Text.Decimal
import PuzzleLang.Text.Quoted
import PuzzleLang.Text.Split

/-!
# Options

The arguments of the command line are flags and one program file.  Flags of one letter may be
joined, long flags may be shortened as long as they stay unambiguous, and `--` ends the flags.
Ambiguous flags are reported first, then what is wrong with a flag from left to right, then a
missing program, then arguments that are left over.
-/

namespace PuzzleLang

/-- The flags of the command line. -/
inductive Flag
  | help
  | test
  | bench
  | verbose
  | dumpTokens
  | dumpTree
deriving DecidableEq, Repr

namespace Flag

/-- The ways to write each flag. -/
def spellings : List (String × Flag) :=
  [("-h", help), ("--help", help), ("-t", test), ("-b", bench), ("-v", verbose),
   ("--debug-lex", dumpTokens), ("--debug-ast", dumpTree)]

/-- The flag that is written in full. -/
def ofSpelling? (text : String) : Option Flag :=
  spellings.lookup text

/-- The flag of one letter. -/
def ofLetter? (letter : Char) : Option Flag :=
  ofSpelling? (String.ofList ['-', letter])

/-- The name of a flag in messages. -/
def name : Flag → String
  | help => "-h/--help"
  | test => "-t"
  | bench => "-b"
  | verbose => "-v"
  | dumpTokens => "--debug-lex"
  | dumpTree => "--debug-ast"

/-- The flag that must not be given together with a flag. -/
def rival? : Flag → Option Flag
  | dumpTokens => some dumpTree
  | dumpTree => some dumpTokens
  | _ => none

end Flag

/-- What can be wrong with the arguments. -/
inductive UsageFault
  | ambiguous (argument : String) (spellings : List String)
  | ignoredArgument (flag : Flag) (text : String)
  | notAllowedWith (flag rival : Flag)
  | missingProgram
  | unrecognized (arguments : List String)
deriving DecidableEq, Repr

/-- The words for what is wrong with the arguments. -/
def UsageFault.message : UsageFault → String
  | ambiguous argument spellings =>
    "ambiguous option: " ++ argument ++ " could match " ++ String.intercalate ", " spellings
  | ignoredArgument flag text =>
    "argument " ++ flag.name ++ ": ignored explicit argument " ++ quoted text
  | notAllowedWith flag rival =>
    "argument " ++ flag.name ++ ": not allowed with argument " ++ rival.name
  | missingProgram => "the following arguments are required: program"
  | unrecognized arguments => "unrecognized arguments: " ++ String.intercalate " " arguments

/-- What an argument is. -/
inductive Argument
  /-- The mark after which no argument is a flag. -/
  | separator
  | plain (text : String)
  | flags (flags : List Flag)
  | unknownFlag (text : String)
  | faulty (fault : UsageFault)
deriving DecidableEq, Repr

namespace Argument

/-- Whether some characters are decimal digits of any scripts, at least one. -/
def isDigits (cs : List Char) : Bool :=
  !cs.isEmpty && cs.all isDecimalDigit

/-- Whether some characters are an unsigned number: digits, or digits after a point with or without
digits before it. -/
def isUnsignedNumber (cs : List Char) : Bool :=
  isDigits cs ||
    (match cs.dropWhile isDecimalDigit with
     | '.' :: digits => isDigits digits
     | _ => false)

/-- Some characters without a line feed at their end. -/
def dropLineFeed (cs : List Char) : List Char :=
  if cs.getLast? = some '\n' then cs.dropLast else cs

/-- Whether an argument that starts with a dash is a negative number.  One line feed may end it. -/
def isNegativeNumber (afterDash : List Char) : Bool :=
  isUnsignedNumber (dropLineFeed afterDash)

/-- The flags of a joined argument: `flag` and then those of the letters after it. -/
def joined (flag : Flag) : (letters : List Char) → (seen : List Flag) → Argument
  | [], seen => .flags (seen ++ [flag])
  | letter :: letters, seen =>
    match Flag.ofLetter? letter with
    | some next => joined next letters (seen ++ [flag])
    | none => .faulty (.ignoredArgument flag (String.ofList (letter :: letters)))

/-- The text before the first equals sign, and the text after it if there is one. -/
def atEquals (cs : List Char) : List Char × Option (List Char) :=
  match cs.dropWhile (· != '=') with
  | [] => (cs, none)
  | _ :: after => (cs.takeWhile (· != '='), some after)

/-- A flag that is followed by `text` in the same argument. -/
def withText (flag : Flag) (long : Bool) (text : List Char) : Argument :=
  if long || text.isEmpty then .faulty (.ignoredArgument flag (String.ofList text))
  else joined flag text []

/-- An argument that is none of the flags in full. -/
def other (argument : String) : Argument :=
  if isNegativeNumber (argument.toList.drop 1) || argument.contains ' ' then .plain argument
  else .unknownFlag argument

/-- An argument that starts with two dashes and is no flag in full: the beginning of one. -/
def shortened (argument : String) (start : List Char) (text : Option (List Char)) :
    Except UsageFault Argument :=
  let candidates := Flag.spellings.filter fun spelling => start.isPrefixOf spelling.1.toList
  match candidates with
  | [] => .ok (other argument)
  | [(_, flag)] =>
    match text with
    | some text => .ok (withText flag true text)
    | none => .ok (.flags [flag])
  | candidates => .error (.ambiguous argument (candidates.map Prod.fst))

/-- What an argument is, while flags have not ended. -/
def classify (argument : String) : Except UsageFault Argument :=
  match Flag.ofSpelling? argument with
  | some flag => .ok (.flags [flag])
  | none =>
    match argument.toList with
    | '-' :: second :: more =>
      let (start, text) := atEquals argument.toList
      match Flag.ofSpelling? (String.ofList start), text with
      | some flag, some text => .ok (withText flag (second == '-') text)
      | _, _ =>
        if second == '-' then shortened argument start text
        else
          match Flag.ofLetter? second with
          | some flag => .ok (joined flag more [])
          | none => .ok (other argument)
    | _ => .ok (.plain argument)

/-- What the arguments are. -/
def classifyAll : List String → Except UsageFault (List Argument)
  | [] => .ok []
  | "--" :: arguments => .ok (.separator :: arguments.map .plain)
  | argument :: arguments => do
    let first ← classify argument
    return first :: (← classifyAll arguments)

end Argument

/-- The options of a run. -/
structure Options where
  test : Bool
  bench : Bool
  verbosity : Nat
  dumpTokens : Bool
  dumpTree : Bool
  program : String
deriving DecidableEq, Repr

/-- What the arguments ask for. -/
inductive Order
  | help
  | run (options : Options)
deriving DecidableEq, Repr

namespace Options

/-- What has been gathered from the arguments: the flags, the program file and what is left over,
each in order. -/
structure Gathered where
  flags : List Flag
  program : Option String
  extras : List String

/-- Adds a flag, unless its rival has been given. -/
def Gathered.addFlag (gathered : Gathered) (flag : Flag) : Except UsageFault Gathered :=
  match flag.rival? with
  | some rival =>
    if gathered.flags.contains rival then .error (.notAllowedWith flag rival)
    else .ok { gathered with flags := gathered.flags ++ [flag] }
  | none => .ok { gathered with flags := gathered.flags ++ [flag] }

/-- Adds flags up to a request for help. -/
def Gathered.addFlags : Gathered → List Flag → Except UsageFault Gathered
  | gathered, [] => .ok gathered
  | gathered, flag :: flags => do
    let gathered ← gathered.addFlag flag
    if flag = .help then return gathered else gathered.addFlags flags

/-- Adds an argument that is left over. -/
def Gathered.addExtra (gathered : Gathered) (text : String) : Gathered :=
  { gathered with extras := gathered.extras ++ [text] }

/-- Gathers the arguments from left to right, up to a request for help.  The first plain one is the
program file; a separator beside it is dropped. -/
def gather : Gathered → List Argument → Except UsageFault Gathered
  | gathered, [] => .ok gathered
  | _, .faulty fault :: _ => .error fault
  | gathered, .flags flags :: arguments => do
    let gathered ← gathered.addFlags flags
    if gathered.flags.contains .help then return gathered else gather gathered arguments
  | gathered, .unknownFlag text :: arguments => gather (gathered.addExtra text) arguments
  | ⟨flags, none, extras⟩, .separator :: .plain text :: arguments =>
    gather ⟨flags, some text, extras⟩ arguments
  | gathered, .separator :: arguments => gather (gathered.addExtra "--") arguments
  | ⟨flags, none, extras⟩, .plain text :: .separator :: arguments =>
    gather ⟨flags, some text, extras⟩ arguments
  | ⟨flags, none, extras⟩, .plain text :: arguments =>
    gather ⟨flags, some text, extras⟩ arguments
  | gathered, .plain text :: arguments => gather (gathered.addExtra text) arguments

/-- What is asked for by what has been gathered. -/
def Gathered.order (gathered : Gathered) : Except UsageFault Order :=
  if gathered.flags.contains .help then .ok .help
  else
    match gathered.program, gathered.extras with
    | none, _ => .error .missingProgram
    | some _, _ :: _ => .error (.unrecognized gathered.extras)
    | some program, [] =>
      .ok (.run
        { test := gathered.flags.contains .test
          bench := gathered.flags.contains .bench
          verbosity := gathered.flags.count .verbose
          dumpTokens := gathered.flags.contains .dumpTokens
          dumpTree := gathered.flags.contains .dumpTree
          program })

/-- Reads the arguments. -/
def parse (arguments : List String) : Except UsageFault Order := do
  let classified ← Argument.classifyAll arguments
  let gathered ← gather ⟨[], none, []⟩ classified
  gathered.order

end Options

end PuzzleLang
