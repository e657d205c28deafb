import Scriptwright.Script.Journal
import Scriptwright.Script.Layout
import Scriptwright.Script.Literal
import Scriptwright.Text.Blank

/-!
# Code

Source text before it is laid out. A piece of code knows its parts, where lines are indented and
what has to be noted; `Code.emit` writes it at a level. Parts are worked out from left to right, and
a `Shape` makes one text of theirs.
-/

namespace Scriptwright.Script

inductive Shape where
  | together
  | separated (mark : String)
  /-- The texts that are not empty, separated. -/
  | inked (mark : String)
  | swapped
  | last
  | operator (sign : String)
  /-- A statement that is an expression. -/
  | guarded
  | renamed
  /-- A local name and its other name, which stands in front if `otherFirst`. -/
  | alias (otherFirst : Bool)
  | element (bare : Bool)
  /-- What an import binds; a true flag marks a clause that stands outside the braces. -/
  | clauses (outside : List Bool)
  | exportList
  | member (close : String)
  | classBody
deriving DecidableEq, Repr

/-! ## Text rules -/

/-- Two signs must not run together, and a word needs a blank behind it. -/
def needsBlank (sign operand : List Char) : Bool :=
  (!sign.isEmpty && sign.all Text.isLetter) ||
    ((sign == ['+'] || sign == ['-']) && sign.isPrefixOf operand)

def operatorText (sign operand : String) : String :=
  if needsBlank sign.toList operand.toList then sign ++ " " ++ operand else sign ++ operand

def startsWithWord (word cs : List Char) : Bool :=
  word.isPrefixOf cs &&
    match cs.drop word.length with
    | [] => true
    | c :: _ => !Text.isWordChar c

def afterAsync (cs : List Char) : List Char :=
  let rest := cs.drop 5
  match rest with
  | c :: _ => if "async".toList.isPrefixOf cs && Text.isBlank c then rest.dropWhile Text.isBlank
      else cs
  | [] => cs

/-- Text that would be read as a block or a declaration at the start of a statement. -/
def startsDeclaration (cs : List Char) : Bool :=
  "\x7b".toList.isPrefixOf cs || startsWithWord "function".toList cs ||
    startsWithWord "function".toList (afterAsync cs) || startsWithWord "class".toList cs

def guardedText (s : String) : String := if startsDeclaration s.toList then "(" ++ s ++ ")" else s

def aliasText (otherFirst : Bool) (own other : String) : String :=
  if other == own then own else if otherFirst then other ++ " as " ++ own
    else own ++ " as " ++ other

def elementText (bare : Bool) (name attributes children : String) : String :=
  if bare then "<" ++ name ++ attributes ++ " />"
  else "<" ++ name ++ attributes ++ ">" ++ children ++ "</" ++ name ++ ">"

def flagged (flag : Bool) (flags : List Bool) (texts : List String) : List String :=
  (flags.zip texts).filterMap fun p => if p.1 == flag then some p.2 else none

def clausesText (outside : List Bool) (texts : List String) : String :=
  let named := flagged false outside texts
  let clauses := flagged true outside texts ++
    (if named.isEmpty then [] else ["\x7b " ++ ", ".intercalate named ++ " \x7d"])
  if clauses.isEmpty then "" else ", ".intercalate clauses ++ " from "

def Shape.apply : Shape → List String → String
  | .together, ts => String.join ts
  | .separated mark, ts => mark.intercalate ts
  | .inked mark, ts => mark.intercalate (ts.filter (· != ""))
  | .swapped, ts => String.join ts.reverse
  | .last, ts => (ts.getLast?).getD ""
  | .operator sign, ts => operatorText sign (String.join ts)
  | .guarded, ts => guardedText (String.join ts)
  | .renamed, ts => attributeName (String.join ts)
  | .alias otherFirst, [own, other] => aliasText otherFirst own other
  | .alias _, ts => String.join ts
  | .element bare, [name, attributes, children] => elementText bare name attributes children
  | .element _, ts => String.join ts
  | .clauses outside, ts => clausesText outside ts
  | .exportList, ts =>
    let t := String.join ts
    if t == "" then "export \x7b\x7d" else "export \x7b " ++ t ++ " \x7d"
  | .member close, [margin, text] => if text == "" then "" else margin ++ text ++ close ++ "\n"
  | .member _, ts => String.join ts
  | .classBody, [lines, margin] => if lines == "" then "\x7b\x7d"
      else "\x7b\n" ++ lines ++ margin ++ "\x7d"
  | .classBody, ts => String.join ts

/-! ## Code -/

inductive Code where
  | text (s : String)
  /-- The indentation of the level at which it stands. -/
  | margin
  | quoted (s : String)
  | deeper (c : Code)
  /-- No text, and a diagnostic. -/
  | report (category : String) (kind : Value)
  /-- No text, and a warning. -/
  | warn (message : String)
  | stop (fault : Fault)
  | shaped (shape : Shape) (parts : List Code)
  /-- Code that is worked out only when it is reached. -/
  | deferred (code : Unit → Code)

namespace Code

def together (parts : List Code) : Code := .shaped .together parts

def separated (mark : String) (parts : List Code) : Code := .shaped (.separated mark) parts

def nothing : Code := .text ""

def line (parts : List Code) : Code := together (.margin :: parts ++ [.text "\n"])

def ofExcept (parts : Except Fault Code) : Code :=
  match parts with
  | .ok c => c
  | .error f => .stop f

def spelling (v : Value) (c : Code) : Code := .ofExcept (v.written c)

def shown (v : Value) : Code := spelling v (.text v.display)

mutual

def emit (layout : Layout) (level : Int) : Code → Emission String
  | .text s => Emission.pure s
  | .margin => Emission.pure (layout.margin level)
  | .quoted s => Emission.pure (layout.quoted s)
  | .deeper c => emit layout (level + 1) c
  | .report category kind => fun j => (.ok "", j.report category kind)
  | .warn message => fun j => (.ok "", j.warn message)
  | .stop f => Emission.fail f
  | .shaped shape parts => (emitAll layout level parts).map shape.apply
  | .deferred code => emit layout level (code ())

def emitAll (layout : Layout) (level : Int) : List Code → Emission (List String)
  | [] => Emission.pure []
  | c :: cs => (emit layout level c).bind fun t => (emitAll layout level cs).map (t :: ·)

end

theorem emit_shaped (layout : Layout) (level : Int) (shape : Shape) (parts : List Code) :
    emit layout level (.shaped shape parts) = (emitAll layout level parts).map shape.apply := by
  rw [emit]

theorem emitAll_cons (layout : Layout) (level : Int) (c : Code) (cs : List Code) :
    emitAll layout level (c :: cs) = (emit layout level c).bind fun t =>
      (emitAll layout level cs).map (t :: ·) := by
  rw [emitAll]

end Code

end Scriptwright.Script
