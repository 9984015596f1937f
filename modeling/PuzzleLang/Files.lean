import PuzzleLang.Fault
import PuzzleLang.Text.Split

/-!
# Files

A script sees files only by asking for one by its path.  A folder in memory answers such questions
as a file system does: a path is walked part by part from the working folder.
-/

namespace PuzzleLang

/-- The answer to the question for a file. -/
inductive Reply
  | content (bytes : ByteArray)
  | missing
  | folder
  | notFolder
  | nameTooLong
  /-- The answer is not known yet. -/
  | unknown

/-- The text of the file that was asked for. -/
def Reply.text : Reply → Except ReadFault String
  | content bytes => (decodeText bytes).mapError .encoding
  | missing => .error .missing
  | folder => .error .folder
  | notFolder => .error .notFolder
  | nameTooLong => .error .nameTooLong
  | unknown => .error .missing

/-- What answers the questions for files.  A question is asked with the number of questions before
it, the path, and the trace written so far if a trace is kept. -/
structure Files where
  ask : (earlier : Nat) → (path : String) → (trace : Option String) → Reply

/-- A file or a folder with its parts. -/
inductive FileTree
  | file (content : ByteArray)
  | folder (parts : List (String × FileTree))

/-- The name of the file in the working folder that holds the trace. -/
def traceFile : String :=
  "debug.txt"

/-- The parts of a path between its slashes. -/
def pathParts (path : String) : List String :=
  splitText path "/"

/-- Whether a part of a path names nothing of its own. -/
def isIdlePart (part : String) : Bool :=
  part == "" || part == "."

/-- The most bytes that a part of a path may have. -/
def maxPartBytes : Nat :=
  255

/-- The most bytes that a path may have. -/
def maxPathBytes : Nat :=
  4095

/-- The answer to the question for a part that a folder does not have. -/
def Reply.noPart (part : String) : Reply :=
  if maxPartBytes < part.utf8ByteSize then nameTooLong else missing

namespace FileTree

/-- The parts of a folder with one of them put in place of the part of that name. -/
def putPart (name : String) (tree : FileTree) : List (String × FileTree) → List (String × FileTree)
  | [] => [(name, tree)]
  | (name', tree') :: parts =>
    if name' == name then (name, tree) :: parts else (name', tree') :: putPart name tree parts

/-- A folder with a file or folder at a path, and the folders on the way to it. -/
def insert (new : FileTree) : (path : List String) → FileTree → FileTree
  | [], _ => new
  | part :: path, folder parts =>
    let inner := (parts.lookup part).getD (folder [])
    folder (putPart part (insert new path inner) parts)
  | part :: path, file _ => folder [(part, insert new path (folder []))]

/-- Walks on from a place, given as the trees from there up to the working folder.  Above the
working folder nothing is known but that there are folders. -/
def walk : (above : List FileTree) → (parts : List String) → Reply
  | file content :: _, [] => .content content
  | _, [] => .folder
  | file _ :: _, _ :: _ => .notFolder
  | [], part :: parts =>
    if isIdlePart part || part == ".." then walk [] parts else .noPart part
  | folder inner :: above, part :: parts =>
    if isIdlePart part then walk (folder inner :: above) parts
    else if part == ".." then walk above parts
    else
      match inner.lookup part with
      | some tree => walk (tree :: folder inner :: above) parts
      | none => .noPart part

/-- The answer of a working folder to the question for a path. -/
def find (root : FileTree) (path : String) : Reply :=
  if maxPathBytes < path.utf8ByteSize then .nameTooLong
  else
    match pathParts path with
    | [""] => .missing
    | "" :: parts => walk [] parts
    | parts => walk [root] parts

/-- The answers of a working folder in which the trace is kept. -/
def files (root : FileTree) : Files where
  ask _ path trace :=
    match trace with
    | some text => (insert (file text.toUTF8) [traceFile] root).find path
    | none => root.find path

/-- The folder with the given files and folders at their paths. -/
def ofList (entries : List (String × FileTree)) : FileTree :=
  entries.foldl
    (fun tree entry => insert entry.2 ((pathParts entry.1).filter (!isIdlePart ·)) tree)
    (folder [])

end FileTree

/-- A path in the form in which it is shown: without parts that name nothing, with `.` for an empty
one.  Exactly two slashes at the start are kept. -/
def normalPath (path : String) : String :=
  let parts := (pathParts path).filter (!isIdlePart ·)
  let slashes := (path.toList.takeWhile (· == '/')).length
  let root := if slashes = 0 then "" else if slashes = 2 then "//" else "/"
  let shown := root ++ String.intercalate "/" parts
  if shown == "" then "." else shown

end PuzzleLang
