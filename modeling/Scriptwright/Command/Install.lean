import Scriptwright.Command.Error
import Scriptwright.Project.Words
import Scriptwright.Project.Work

/-!
# Installing packages

The packages a project depends on are installed by one command, to which they are appended.
-/

namespace Scriptwright.Command

def defaultInstall : String := "npm install"

def noDependencies : Error :=
  .of .validation "No dependencies defined in package.yml"
    (some "List packages under a top-level 'dependencies' key") []

def commandWords (command : Value) : Except Fault (List String) :=
  match command with
  | .string s => Project.Words.split s
  | _ => .error .notRecord

def installCommand (project : Project) : Except Problem (List String) :=
  if project.dependencies.isEmpty then .error (.command noDependencies)
  else
    let command := if project.install.truthy then project.install else .string defaultInstall
    ((commandWords command).map (· ++ project.dependencies)).mapError fun f => .failure (.fault f)

end Scriptwright.Command
