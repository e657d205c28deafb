import Scriptwright.Text.Blank

/-!
# Line breaks in template literals

A scan over source text that tells, for every line break, whether it is part of a template literal.
It follows string quotes, comments and substitutions nested to any depth. Quoted strings end with
the line, so that a stray apostrophe cannot leak into the following lines.
-/

namespace Scriptwright.Source

inductive Mode where
  | code
  | single
  | double
  | template
  | lineComment
  | blockComment
deriving DecidableEq, Repr

/-- Where a scan stands: the mode, the open braces of the innermost substitution, those of the
substitutions around it, and whether the next character has been read already. -/
structure Scan where
  mode : Mode
  depth : Nat
  saved : List Nat
  skip : Bool
deriving DecidableEq, Repr

namespace Scan

def start : Scan := ⟨.code, 0, [], false⟩

/-- Strings and line comments end with the line. -/
def atBreak (s : Scan) : Scan :=
  match s.mode with
  | .single | .double | .lineComment => { s with mode := .code }
  | _ => s

def closeBrace (s : Scan) : Scan :=
  match s.depth, s.saved with
  | 0, d :: ds => { s with mode := .template, depth := d, saved := ds }
  | d, _ => { s with depth := d - 1 }

def inCode (s : Scan) (c : Char) (next : Option Char) : Scan :=
  if c = '\'' then { s with mode := .single }
  else if c = '"' then { s with mode := .double }
  else if c = '\x60' then { s with mode := .template }
  else if c = '/' ∧ next = some '/' then { s with mode := .lineComment, skip := true }
  else if c = '/' ∧ next = some '*' then { s with mode := .blockComment, skip := true }
  else if c = '{' then { s with depth := s.depth + 1 }
  else if c = '}' then s.closeBrace
  else s

/-- In a string: a backslash takes the next character along, except for a line break. -/
def inString (s : Scan) (mark c : Char) (next : Option Char) : Scan :=
  if c = '\\' ∧ next ≠ some '\n' then { s with skip := true }
  else if c = mark then { s with mode := .code }
  else s

def inTemplate (s : Scan) (c : Char) (next : Option Char) : Scan :=
  if c = '\\' ∧ next ≠ some '\n' then { s with skip := true }
  else if c = '\x60' then { s with mode := .code }
  else if c = '$' ∧ next = some '{' then
    { s with mode := .code, depth := 0, saved := s.depth :: s.saved, skip := true }
  else s

def inBlockComment (s : Scan) (c : Char) (next : Option Char) : Scan :=
  if c = '*' ∧ next = some '/' then { s with mode := .code, skip := true } else s

def step (s : Scan) (c : Char) (next : Option Char) : Scan :=
  if s.skip then { s with skip := false }
  else if c = '\n' then s.atBreak
  else
    match s.mode with
    | .code => s.inCode c next
    | .single => s.inString '\'' c next
    | .double => s.inString '"' c next
    | .template => s.inTemplate c next
    | .lineComment => s
    | .blockComment => s.inBlockComment c next

def run (s : Scan) : List Char → Scan
  | [] => s
  | c :: cs => run (s.step c cs.head?) cs

def breaks (s : Scan) : List Char → List Bool
  | [] => []
  | c :: cs =>
    let rest := breaks (s.step c cs.head?) cs
    if c = '\n' ∧ s.skip = false then decide (s.mode = .template) :: rest else rest

end Scan

/-- For every line break of a text, whether it is part of a template literal. -/
def templateBreaks (text : List Char) : List Bool := Scan.start.breaks text

end Scriptwright.Source
