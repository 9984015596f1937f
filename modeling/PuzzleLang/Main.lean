import PuzzleLang.CommandLine

/-!
# The program

The outer layer reads the files that a run waits for, runs it again with their contents, and at the
end writes what its report holds.
-/

namespace PuzzleLang

/-- The number by which the operating system names an error with a file. -/
def errorCode : IO.Error → UInt32
  | .noFileOrDirectory _ code _ => code
  | .inappropriateType _ code _ => code
  | .illegalOperation code _ => code
  | .invalidArgument _ code _ => code
  | .otherError code _ => code
  | _ => 2

/-- The number of an error that may be given with a minus sign, as a word. -/
def unsignedCode (code : UInt32) : UInt32 :=
  min code (0 - code)

/-- Asks the operating system for a file. -/
def askSystem (path : String) : IO Reply := do
  try
    return .content (← IO.FS.readBinFile path)
  catch error =>
    match unsignedCode (errorCode error) with
    | 21 => return .folder
    | 20 => return .notFolder
    | 36 => return .nameTooLong
    | _ => return .missing

/-- Runs the program, reading files one after the other as they are waited for. -/
partial def runWith (arguments : List String) (known : Array Reply) :
    IO CommandLine.Report := do
  let files : Files := ⟨fun earlier _ _ => known.getD earlier .unknown⟩
  match CommandLine.run arguments files with
  | .done report => return report
  | .waiting path trace =>
    match trace with
    | some text => IO.FS.writeFile traceFile text
    | none => pure ()
    runWith arguments (known.push (← askSystem path))

/-- Writes what a report holds. -/
def writeReport (report : CommandLine.Report) : IO Unit := do
  match report.trace with
  | some text => IO.FS.writeFile traceFile text
  | none => pure ()
  IO.print report.output
  IO.eprint report.errors
  match report.crash with
  | some (path, fault) => IO.eprintln (fault.message path)
  | none => pure ()

end PuzzleLang

/-- The program. -/
def main (arguments : List String) : IO UInt32 := do
  let report ← PuzzleLang.runWith arguments #[]
  PuzzleLang.writeReport report
  return report.exitCode.toUInt32
