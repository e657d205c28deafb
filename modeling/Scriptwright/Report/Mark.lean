import Scriptwright.Fault
import Scriptwright.Report.Pictograph

/-!
# Marks in texts for the terminal

A word in brackets that starts with a small letter or one of three signs is a mark: it gives a style
to what follows and is not shown itself. A mark that starts with a slash ends a style, which must
have been given before; without a name it ends the last one. A backslash in front of the bracket
takes that meaning away.
-/

namespace Scriptwright.Report

def startsMark (c : Char) : Bool := ('a' ≤ c && c ≤ 'z') || c == '#' || c == '/' || c == '@'

def mark? : List Char → Option (List Char × List Char)
  | '[' :: c :: cs =>
    if startsMark c then
      match cs.span fun d => d != ']' && d != '[' with
      | (inside, ']' :: rest) => some (c :: inside, rest)
      | _ => none
    else none
  | _ => none

inductive Part where
  | plain (cs : List Char)
  | mark (inside : List Char)

/-- The parts of a text, where `seen` is the plain text in front of it, the last character first.
`fuel` is more than its length. -/
def parts : Nat → List Char → List Char → List Part
  | 0, seen, _ => [.plain seen.reverse]
  | fuel + 1, seen, cs =>
    let slashes := cs.takeWhile (· == '\\')
    let rest := cs.drop slashes.length
    match mark? rest with
    | some (inside, after) =>
      let whole := ['['] ++ inside ++ [']']
      [.plain seen.reverse, .plain (slashes.take (slashes.length / 2)),
        if slashes.length % 2 = 0 then .mark inside else .plain whole] ++ parts fuel [] after
    | none =>
      match rest with
      | [] => [.plain (seen.reverse ++ slashes)]
      | c :: after => parts fuel (c :: slashes ++ seen) after

/-! ## Styles -/

/-- Names of styles that have a short form, in the order in which they are listed. -/
def styleNames : List (String × List String) :=
  [("bold", ["b"]), ("dim", ["d"]), ("italic", ["i"]), ("underline", ["u"]), ("blink", []),
    ("blink2", []), ("reverse", ["r"]), ("conceal", ["c"]), ("strike", ["s"]),
    ("underline2", ["uu"]), ("frame", []), ("encircle", []), ("overline", ["o"])]

def styleName? (word : String) : Option String :=
  (styleNames.find? fun n => n.1 == word || n.2.contains word).map (·.1)

def words : Nat → List Char → List (List Char)
  | 0, _ => []
  | fuel + 1, cs =>
    let cs := Text.trimLeft cs
    let (word, rest) := cs.span fun c => !Text.isBlank c
    if word.isEmpty then [] else word :: words fuel rest

def spelling (cs : List Char) : String :=
  let small := cs.map Char.toLower
  match (words (cs.length + 1) small).mapM fun w => styleName? (String.ofList w) with
  | some names => " ".intercalate ((styleNames.map (·.1)).filter names.contains)
  | none => String.ofList (Text.trim small)

def openStyles (styles : List String) (inside : List Char) : Except Fault (List String) :=
  match inside.takeWhile (· != '=') with
  | '/' :: name =>
    match Text.trim name, styles with
    | [], _ :: others => .ok others
    | [], [] => .error .unmatchedMark
    | style, _ =>
      if styles.contains (spelling style) then .ok (styles.erase (spelling style))
        else .error .unmatchedMark
  | name => .ok (spelling name :: styles)

/-! ## Plain texts -/

def unescaped : List Char → List Char
  | [] => []
  | c :: cs => if c == '\\' && cs.head? == some '[' then unescaped cs else c :: unescaped cs

/-- Characters that are not shown: the bell, the backspace, and line ends other than the usual one.
-/
def isSilent (c : Char) : Bool := [7, 8, 11, 12, 13].contains c.toNat

def shownPlain (cs : List Char) : List Char :=
  (withPictographs cs.length (unescaped cs)).filter fun c => !isSilent c

def joined (styles : List String) : List Part → Except Fault (List Char)
  | [] => .ok []
  | .plain cs :: ps => (joined styles ps).map (shownPlain cs ++ ·)
  | .mark inside :: ps => do joined (← openStyles styles inside) ps

def shown (s : String) : Except Fault (List Char) := joined [] (parts (s.length + 1) [] s.toList)

end Scriptwright.Report
