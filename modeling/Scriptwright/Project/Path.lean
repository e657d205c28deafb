import Scriptwright.Fault
import Scriptwright.Text.Blank

/-!
# Paths

A path is a list of names, counted from the root or from somewhere else. Two slashes in front are
another root than one or than three. Paths are compared name by name, so a directory comes before
its neighbours whose names go on with a character below the slash.

Where a path leads to is looked up in a file system, which may have links. The one here has none.
-/

namespace Scriptwright.Project

structure Path where
  /-- How many slashes stand in front: none, one or two. -/
  slashes : Nat
  names : List String
deriving DecidableEq, Repr

namespace Path

def root : Path := ⟨1, []⟩

def here : Path := ⟨0, []⟩

/-- The path a text writes out. Empty names and single points do not count. -/
def parse (s : String) : Path :=
  let slashes := (s.toList.takeWhile (· == '/')).length
  ⟨if slashes ≤ 2 then slashes else 1, ((Text.splitAt '/' s.toList).map String.ofList).filter
    fun n => n != "" && n != "."⟩

def text (p : Path) : String :=
  if p = here then "." else String.ofList (List.replicate p.slashes '/') ++ "/".intercalate p.names

def join (base p : Path) : Path :=
  if 0 < p.slashes then p else ⟨base.slashes, base.names ++ p.names⟩

/-- The names that are left when each step up takes back the one in front of it; `back` holds those
so far, the last one first. -/
def climb (back : List String) : List String → List String
  | [] => back.reverse
  | n :: ns => if n == ".." then climb back.tail ns else climb (n :: back) ns

/-- The place that a path leads to from a rooted one, without steps up. -/
def resolve (base p : Path) : Path := ⟨1, climb [] (base.join p).names⟩

def name (p : Path) : String := p.names.getLastD ""

def parent (p : Path) : Path := { p with names := p.names.dropLast }

def withName (p : Path) (name : String) : Path := { p with names := p.names.dropLast ++ [name] }

/-- Whether a path is another one or lies below it. -/
def within (p base : Path) : Bool := p.slashes == base.slashes && base.names.isPrefixOf p.names

def below (p base : Path) : Bool := p.within base && base.names.length < p.names.length

def relativeTo? (p base : Path) : Option Path :=
  if p.within base then some ⟨0, p.names.drop base.names.length⟩ else none

/-- The length of a name without its suffix: what follows the last point, if characters stand on
both sides of it. -/
def stemLength (name : List Char) : Nat :=
  let tail := name.reverse.takeWhile (· != '.')
  if tail.isEmpty || name.length ≤ tail.length + 1 then name.length
    else name.length - tail.length - 1

def suffix (p : Path) : String := String.ofList (p.name.toList.drop (stemLength p.name.toList))

def withSuffix (p : Path) (suffix : String) : Path :=
  p.withName (String.ofList (p.name.toList.take (stemLength p.name.toList)) ++ suffix)

def namesLe : List String → List String → Bool
  | [], _ => true
  | _ :: _, [] => false
  | a :: as, b :: bs => if a == b then namesLe as bs else a < b

def sorted (ps : List Path) : List Path := ps.mergeSort fun p q => namesLe p.names q.names

end Path

/-- A file system in which paths are followed. -/
class Resolver where
  resolve : Path → Except Fault Path

/-- Without links a path leads where it says, if its names can be names. -/
instance : Resolver where
  resolve p := if p.names.any fun n => n.toList.contains '\x00' then .error .badValue
    else .ok (Path.root.resolve p)

end Scriptwright.Project
