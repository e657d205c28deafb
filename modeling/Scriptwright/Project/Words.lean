import Scriptwright.Fault

/-!
# Words of a command

Splits the text of a command into words at white space. Between single quotes everything counts as
it stands; between double quotes a backslash takes away the meaning of a quote or of another
backslash, elsewhere of any character.
-/

namespace Scriptwright.Project.Words

inductive Mode where
  | plain
  | quoted (mark : Char)
  /-- Behind a backslash, with the quote around it if there is one. -/
  | escaped (mark : Option Char)

/-- A word as far as it has been read, last character first, and whether it had quotes. -/
structure Word where
  back : List Char
  marked : Bool

namespace Word

def empty : Word := ⟨[], false⟩

def push (w : Word) (c : Char) : Word := { w with back := c :: w.back }

def close (w : Word) : List String :=
  if w.back.isEmpty && !w.marked then [] else [String.ofList w.back.reverse]

end Word

def isSeparator (c : Char) : Bool := c == ' ' || c == '\t' || c == '\r' || c == '\n'

def isQuote (c : Char) : Bool := c == '\'' || c == '"'

/-- The character behind a backslash, with the backslash where it keeps its meaning. -/
def unescape (mark : Option Char) (w : Word) (c : Char) : Word :=
  match mark with
  | none => w.push c
  | some m => if c == '\\' || c == m then w.push c else (w.push '\\').push c

def afterEscape : Option Char → Mode
  | none => .plain
  | some m => .quoted m

def splitFrom (mode : Mode) (w : Word) : List Char → Except Fault (List String)
  | [] =>
    match mode with
    | .plain => .ok w.close
    | _ => .error .badValue
  | c :: cs =>
    match mode with
    | .plain =>
      if isSeparator c then (splitFrom .plain .empty cs).map (w.close ++ ·)
      else if isQuote c then splitFrom (.quoted c) { w with marked := true } cs
      else if c == '\\' then splitFrom (.escaped none) w cs
      else splitFrom .plain (w.push c) cs
    | .quoted m =>
      if c == m then splitFrom .plain w cs
      else if c == '\\' && m == '"' then splitFrom (.escaped (some m)) w cs
      else splitFrom (.quoted m) (w.push c) cs
    | .escaped mark => splitFrom (afterEscape mark) (unescape mark w c) cs

def split (s : String) : Except Fault (List String) := splitFrom .plain .empty s.toList

end Scriptwright.Project.Words
