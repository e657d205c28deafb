import Scriptwright.Command.Run

/-!
# The program

Reads the files a command line is about, carries the command out, and writes what it changed. This
program starts no other one, and says so where a command asks for it.
-/

open Scriptwright Project

namespace Scriptwright.Main

partial def snapshot (t : Tree) (p : Path) : IO Tree := do
  let here ← IO.currentDir
  let place := here / p.text
  if ← place.isDir then
    let t := (t.makeDirectory p).toOption.getD t
    (← place.readDir).foldlM (fun t e => snapshot t (p.join ⟨0, [e.fileName]⟩)) t
  else if ← place.pathExists then
    let t := (t.makeDirectory p.parent).toOption.getD t
    return (t.write p (← IO.FS.readBinFile place)).toOption.getD t
  else return t

/-- The places outside its root that a project names. -/
def outside (t : Tree) (root : Path) : List Path :=
  match (Project.load t root (manifestOf root) false).outcome with
  | .ok project => (project.output :: project.entry).filter fun p => !p.within root
  | .error _ => []

def writeChanges (before after : Tree) : IO Unit := do
  for (p, item) in after do
    if before.get? p != some item then
      match item with
      | .directory => IO.FS.createDirAll p.text
      | .file octets => IO.FS.writeBinFile p.text octets

def settings : List String := ["YSK_VERBOSE", "YSK_DEBUG", "YSK_RERAISE", "YSK_LOG_LEVEL"]

def environment : IO Command.Environment := do
  let found ← settings.mapM fun name => return (name, ← IO.getEnv name)
  return found.filterMap fun v => v.2.map (v.1, ·)

def treeFor (directory : Path) (args : List String) : IO Tree := do
  let start : Tree := [(Path.root, .directory)]
  match Command.parseRequest args with
  | .error _ => return start
  | .ok request =>
    match Command.rootOf directory request.general with
    | .error _ => return start
    | .ok root =>
      let t ← snapshot start root
      let out := (Command.given (request.special.value? "--out")).map fun o =>
        root.resolve (.parse o)
      (outside t root ++ out.toList.filter fun p => !p.within root).foldlM snapshot t

/-- No program is started, whether it is there or not. -/
def alone : Behaviour := .refused (.other "OSError" "starting other programs is not supported")

def exitCode : Command.Ending → UInt32
  | .exit code => UInt32.ofNat code
  | .raised _ => 1

def run (args : List String) : IO UInt32 := do
  let directory := Path.parse (← IO.currentDir).toString
  let tree ← treeFor directory args
  let (result, world) := Command.run (← environment) directory args ⟨tree, [], [], alone⟩
  writeChanges tree world.tree
  (← IO.getStdout).putStr result.stdout
  (← IO.getStderr).putStr result.stderr
  match result.ending with
  | .raised p => (← IO.getStderr).putStr (p.text false ++ "\n")
  | .exit _ => pure ()
  return exitCode result.ending

end Scriptwright.Main

def main (args : List String) : IO UInt32 := Scriptwright.Main.run args
