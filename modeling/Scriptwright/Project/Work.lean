import Scriptwright.Project.Manifest

/-!
# Work on a file tree

Work reads and changes files, says things, and starts other programs. What it has done stays done
when it fails. The programs that it starts may change files as well; how they behave is given
beforehand.
-/

namespace Scriptwright.Project

/-- A program that was started, with the files as they were before and after it ran. -/
structure Run where
  argv : List String
  directory : Path
  before : Tree
  after : Tree

structure Ending where
  code : Int
  stderr : String
  tree : Tree

/-- How started programs behave. What one does may depend on the files and on the programs that were
started before it. -/
structure Behaviour where
  answer (argv : List String) (directory : Path) (files : Tree) (earlier : List Run) :
    Except SystemError Ending

namespace Behaviour

def missing : Behaviour where
  answer argv _ _ _ := .error (.noSuchFile (argv.headD ""))

/-- Every program is there, and none of them starts. -/
def refused (e : SystemError) : Behaviour where
  answer _ _ _ _ := .error e

def exits (code : Int) (stderr : String) : Behaviour where
  answer _ _ files _ := .ok ⟨code, stderr, files⟩

def noDirectory (files : Tree) (place : Path) : SystemError :=
  let shown := "PosixPath(" ++ Text.shown place.text ++ ")"
  if files.has place || files.blocked place then
    .other "NotADirectoryError" ("[Errno 20] Not a directory: " ++ shown)
  else .other "FileNotFoundError" ("[Errno 2] No such file or directory: " ++ shown)

/-- What comes of starting a program. It runs in a directory or not at all. -/
def outcome (b : Behaviour) (argv : List String) (directory : Path) (files : Tree)
    (earlier : List Run) : Except SystemError Ending :=
  if files.isDirectory directory then b.answer argv directory files earlier
  else .error (noDirectory files directory)

end Behaviour

structure World where
  tree : Tree
  log : List Log.Line
  runs : List Run
  behaviour : Behaviour

abbrev Work := ExceptT Failure (StateM World)

namespace Work

def say (level : Log.Level) (speaker : Log.Speaker) (message : String) : Work Unit :=
  modify fun w => { w with log := w.log ++ [⟨level, speaker, message⟩] }

def ofLogged {α : Type} (x : Logged α) : Work α := do
  modify fun w => { w with log := w.log ++ x.log }
  liftExcept x.outcome
where
  liftExcept (x : Except Failure α) : Work α :=
    match x with
    | .ok a => pure a
    | .error e => throw e

def change (f : Tree → Except SystemError Tree) : Work Unit := do
  match f (← get).tree with
  | .ok t => modify fun w => { w with tree := t }
  | .error e => throw (.system e)

def canStart (argv : List String) : Bool := argv.all fun word => !word.toList.contains '\x00'

def start (argv : List String) (directory : Path) :
    Work (Except SystemError (Int × String)) := do
  if !canStart argv then throw (.fault .badValue)
  let w ← get
  match w.behaviour.outcome argv directory w.tree w.runs with
  | .error e =>
    modify fun w => { w with runs := w.runs ++ [⟨argv, directory, w.tree, w.tree⟩] }
    return .error e
  | .ok ⟨code, stderr, tree⟩ =>
    modify fun w => { w with tree := tree, runs := w.runs ++ [⟨argv, directory, w.tree, tree⟩] }
    return .ok (code, stderr)

end Work

end Scriptwright.Project
