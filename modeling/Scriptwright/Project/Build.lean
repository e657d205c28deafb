import Scriptwright.Project.Words
import Scriptwright.Project.Work

/-!
# Building a project

Every document below an entry is compiled to a file of the same place below the output directory;
every other file is copied. A build stops at the first failure, and what was written before stays.
-/

namespace Scriptwright.Project

/-! ## Discovery -/

structure Located where
  path : Path
  base : Path
deriving DecidableEq, Repr

structure Found where
  inputs : List Located
  others : List Located

def isSource (p : Path) : Bool := sourceSuffixes.contains (p.suffix.map Char.toLower)

def candidates (t : Tree) (entry : Path) : List Located :=
  if t.isDirectory entry then (t.filesBelow entry).map fun p => ⟨p, entry⟩
    else [⟨entry, entry.parent⟩]

def entryNotFound (entry : Path) : Error :=
  .of .entryNotFound ("Cannot find input path: " ++ entry.text) (some entry.text) none

/-- The files of a project, entry by entry. The manifest is no document. -/
def discover (project : Project) (t : Tree) : Except Failure Found :=
  match project.entry.find? fun e => !t.has e with
  | some e => .error (.error (entryNotFound e))
  | none =>
    let (sources, others) := (project.entry.flatMap (candidates t)).partition fun f =>
      isSource f.path
    .ok ⟨sources.filter fun f => f.path ≠ project.manifest, others⟩

/-! ## Targets -/

def outputSuffix : String := ".js"

def within (f : Located) : Path := (f.path.relativeTo? f.base).getD f.path

def outputPath (project : Project) (f : Located) : Path :=
  project.output.join ((within f).withSuffix outputSuffix)

/-- Where a file is copied to: its place in the project, or in its entry if it lies outside. -/
def copyPath (project : Project) (f : Located) : Path :=
  project.output.join ((f.path.relativeTo? project.root).getD (within f))

/-! ## Compiling files -/

def compileFile [Loader] (options : Script.Options) (tidying : Source.TidyOptions) (t : Tree)
    (p : Path) : Logged Compiled :=
  (Logged.ofExcept (t.readText p)).bind (compileText options {} tidying (some p.text))

/-! ## Linting -/

def fileMark : List Char := "\x7bfile\x7d".toList

def mentions (part whole : List Char) : Bool := (Text.cutAt? part whole).isSome

/-- A text with every occurrence of a part replaced; the part is not empty. -/
def replaceAll (part new : List Char) (fuel : Nat) (s : List Char) : List Char :=
  match fuel with
  | 0 => s
  | fuel + 1 =>
    match Text.cutAt? part s with
    | some (before, after) => before ++ new ++ replaceAll part new fuel after
    | none => s

/-- The words of a lint command for a file, which takes the place of a mark or comes last. -/
def lintWords (command target : String) : Except Fault (List String) := do
  let words ← Words.split command
  if mentions fileMark command.toList then
    return words.map fun w => String.ofList (replaceAll fileMark target.toList w.length w.toList)
  return words ++ [target]

/-- The lint command of a project for a file, if it has one. Only a text can be split into words. -/
def lintCommand (lint : Value) (target : Path) : Except Fault (Option (List String)) :=
  if !lint.truthy then .ok none
  else
    match lint with
    | .string s => (lintWords s target.text).map some
    | .list _ | .map _ | .set _ | .knot _ _ _ => .error .notRecord
    | _ => .error .notIterable

/-- Runs the lint command on a file. The result says whether it succeeded; a program that fails is
not fatal. -/
def runLint (project : Project) (target : Path) : Work Bool := do
  match lintCommand project.lint target with
  | .error f => throw (.fault f)
  | .ok none => return true
  | .ok (some argv) =>
    match ← Work.start argv project.root with
    | .error e =>
      Work.say .warning .compiler ("Lint command failed to start for " ++ target.text ++
        ": " ++ e.text)
      return false
    | .ok (code, stderr) =>
      if code != 0 then
        Work.say .warning .compiler ("Lint command exited with " ++ toString code ++ " for " ++
          target.text ++ ": " ++
          String.ofList (Text.trim stderr.toList))
      return code == 0

/-! ## Building -/

structure BuildReport where
  compiled : List (Path × Path)
  copied : List (Path × Path)
  diagnostics : List Script.Diagnostic
  createdDirectories : List Path

def ensureDirectory (p : Path) : Work (List Path) := do
  if (← get).tree.has p then return []
  Work.change fun t => t.makeDirectory p
  Work.say .info .compiler ("Created directory: " ++ p.text)
  return [p]

/-- Compiles a document to its target. The result is the target, the diagnostics and the directories
made. -/
def buildInput [Loader] (project : Project) (options : Script.Options)
    (tidying : Source.TidyOptions) (f : Located) :
    Work (Path × List Script.Diagnostic × List Path) := do
  let c ← Work.ofLogged (compileFile options tidying (← get).tree f.path)
  let target := outputPath project f
  let created ← ensureDirectory target.parent
  Work.change fun t => t.write target c.code.toUTF8
  let _ ← runLint project target
  Work.say .info .compiler ("Compiled " ++ f.path.text ++ " to " ++ target.text)
  return (target, c.diagnostics, created)

def buildOther (project : Project) (f : Located) : Work (Path × List Path) := do
  let target := copyPath project f
  let created ← ensureDirectory target.parent
  Work.change fun t => t.copy f.path target
  Work.say .info .compiler ("Copied " ++ f.path.text ++ " to " ++ target.text)
  return (target, created)

/-- Builds a project; `strict` takes the place of the manifest's own choice. -/
def build [Loader] (project : Project) (tidying : Source.TidyOptions) (strict : Option Bool) :
    Work BuildReport := do
  let options := { project.options with strict := strict.getD project.options.strict }
  let found ← Work.ofLogged (.ofExcept (discover project (← get).tree))
  if found.inputs.isEmpty then
    Work.say .warning .compiler "No YAML files found to compile."
    return ⟨[], [], [], []⟩
  let made ← ensureDirectory project.output
  let compiled ← found.inputs.mapM (buildInput project options tidying)
  let copied ← found.others.mapM (buildOther project)
  return {
    compiled := (found.inputs.map Located.path).zip (compiled.map (·.1))
    copied := (found.others.map Located.path).zip (copied.map (·.1))
    diagnostics := compiled.flatMap (·.2.1)
    createdDirectories := made ++ compiled.flatMap (·.2.2) ++ copied.flatMap (·.2) }

end Scriptwright.Project
