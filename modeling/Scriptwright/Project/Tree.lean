import Scriptwright.Error
import Scriptwright.Project.Path

/-!
# File trees

Files and directories by their paths. Writing needs the directory to be there, and nothing lies
below a file.
-/

namespace Scriptwright.Project

inductive Item where
  | directory
  | file (octets : ByteArray)

instance : BEq Item where
  beq
    | .directory, .directory => true
    | .file a, .file b => a.data == b.data
    | _, _ => false

/-- What stands at each path; a path that occurs twice has the first item. -/
abbrev Tree := List (Path × Item)

namespace Tree

def get? (t : Tree) (p : Path) : Option Item := List.lookup p t

/-- What stands at a path afterwards is the given item, and nothing else changes. -/
def put : Tree → Path → Item → Tree
  | [], p, i => [(p, i)]
  | (q, j) :: t, p, i => if q = p then (q, i) :: t else (q, j) :: put t p i

def has (t : Tree) (p : Path) : Bool := (t.get? p).isSome

def isDirectory (t : Tree) (p : Path) : Bool :=
  match t.get? p with
  | some .directory => true
  | _ => false

def isFile (t : Tree) (p : Path) : Bool :=
  match t.get? p with
  | some (.file _) => true
  | _ => false

def filesBelow (t : Tree) (p : Path) : List Path :=
  Path.sorted ((t.map (·.1)).filter fun q => q.below p && t.isFile q)

def around (p : Path) : List Path :=
  (List.range p.names.length).map fun n => ⟨p.slashes, p.names.take n⟩

/-- Whether a path leads through a file. -/
def blocked (t : Tree) (p : Path) : Bool := (around p).any t.isFile

def absence (t : Tree) (p : Path) : SystemError :=
  if t.blocked p then .notDirectory p.text else .noSuchFile p.text

def read (t : Tree) (p : Path) : Except SystemError ByteArray :=
  match t.get? p with
  | some (.file octets) => .ok octets
  | some .directory => .error (.isDirectory p.text)
  | none => .error (t.absence p)

def write (t : Tree) (p : Path) (octets : ByteArray) : Except SystemError Tree :=
  if t.isDirectory p then .error (.isDirectory p.text)
  else if t.isDirectory p.parent then .ok (t.put p (.file octets))
  else .error (t.absence p)

def makeDirectory (t : Tree) (p : Path) : Except SystemError Tree :=
  if t.blocked p then .error (.notDirectory p.text)
  else .ok ((around p ++ [p]).foldl (fun t q => if t.has q then t else t.put q .directory) t)

def copy (t : Tree) (source target : Path) : Except SystemError Tree := do
  if source = target then throw (.sameFile source.text target.text)
  t.write target (← t.read source)

def remove (t : Tree) (p : Path) : Tree := t.filter fun e => !e.1.within p

/-- Octets as text, with every kind of line break as a line feed. -/
def textOf (octets : ByteArray) : Except Failure String :=
  match String.fromUTF8? octets with
  | some s => .ok (String.ofList (unifyBreaks s.toList))
  | none => .error .notText
where
  unifyBreaks : List Char → List Char
    | [] => []
    | '\r' :: '\n' :: cs => '\n' :: unifyBreaks cs
    | '\r' :: cs => '\n' :: unifyBreaks cs
    | c :: cs => c :: unifyBreaks cs

def readText (t : Tree) (p : Path) : Except Failure String := do
  textOf (← (t.read p).mapError Failure.system)

end Tree

end Scriptwright.Project
