import Scriptwright.Yaml.Timestamp

/-!
# Tags

What kind of value a node stands for. A plain scalar without a tag gets one by what it looks like.
-/

namespace Scriptwright.Yaml

inductive Tag where
  | null
  | bool
  | int
  | float
  | binary
  | timestamp
  | text
  | sequence
  | mapping
  /-- A sequence of entries, each a mapping of its own. -/
  | pairs
  | set
  /-- The key whose value is merged into its mapping. -/
  | merge
  /-- The key of the value a mapping has as a scalar. -/
  | value
  /-- Any tag that stands for no kind of value. -/
  | foreign
deriving DecidableEq, Repr

def standardLead : String := "tag:yaml.org,2002:"

def standardTags : List (String × Tag) :=
  [("null", .null), ("bool", .bool), ("int", .int), ("float", .float), ("binary", .binary),
    ("timestamp", .timestamp), ("str", .text), ("seq", .sequence), ("map", .mapping),
    ("omap", .pairs), ("pairs", .pairs), ("set", .set), ("merge", .merge), ("value", .value)]

def Tag.ofUri (uri : String) : Tag :=
  (standardTags.find? fun t => standardLead ++ t.1 == uri).elim .foreign (·.2)

def Tag.isCollection : Tag → Bool
  | .sequence | .mapping | .pairs | .set => true
  | _ => false

/-! ## What a scalar looks like -/

def withoutSign : List Char → List Char
  | [] => []
  | c :: cs => if c == '-' || c == '+' then cs else c :: cs

def isSpacedDigit (c : Char) : Bool := c.isDigit || c == '_'

def nonempty (p : Char → Bool) (cs : List Char) : Bool := !cs.isEmpty && cs.all p

def isSpacedNumber : List Char → Bool
  | [] => false
  | c :: cs => c.isDigit && cs.all isSpacedDigit

def isSixtieth : List Char → Bool
  | [a] => a.isDigit
  | [a, b] => '0' ≤ a && a ≤ '5' && b.isDigit
  | _ => false

def isSexagesimal (cs : List Char) : Bool :=
  match Text.splitAt ':' cs with
  | first :: more => isSpacedNumber first && !more.isEmpty && more.all isSixtieth
  | [] => false

def looksInt (cs : List Char) : Bool :=
  match withoutSign cs with
  | [] => false
  | c :: rest =>
    if c == '0' then
      rest.isEmpty || nonempty (fun d => ('0' ≤ d && d ≤ '7') || d == '_') rest ||
        match rest with
        | 'b' :: ds => nonempty (fun d => d == '0' || d == '1' || d == '_') ds
        | 'x' :: ds => nonempty (fun d => isHexDigit d || d == '_') ds
        | _ => false
    else isSpacedNumber (c :: rest) || isSexagesimal (c :: rest)

def isExponent : List Char → Bool
  | [] => true
  | e :: sign :: ds => (e == 'e' || e == 'E') && (sign == '-' || sign == '+') &&
      nonempty Char.isDigit ds
  | _ => false

def isFraction (cs : List Char) : Bool := isExponent (cs.dropWhile isSpacedDigit)

def looksFloat (cs : List Char) : Bool :=
  [".nan", ".NaN", ".NAN"].contains (String.ofList cs) ||
    [".inf", ".Inf", ".INF"].contains (String.ofList (withoutSign cs)) ||
    (match cs with
      | '.' :: d :: rest => d.isDigit && isFraction rest
      | _ => false) ||
    match Text.cutAt? ['.'] (withoutSign cs) with
    | some (whole, rest) =>
      (isSpacedNumber whole && isFraction rest) || (isSexagesimal whole && rest.all isSpacedDigit)
    | none => false

def looksTimestamp (cs : List Char) : Bool :=
  match timestamp? cs with
  | some (.inl _) => cs.length == 10
  | some (.inr _) => true
  | none => false

def truthWords : List (String × Bool) :=
  [("yes", true), ("no", false), ("true", true), ("false", false), ("on", true), ("off", false)]

def spellings (word : String) : List String := [word, word.capitalize, word.map Char.toUpper]

def truthSpellings : List String := truthWords.flatMap fun w => spellings w.1

def nullSpellings : List String := "~" :: spellings "null"

/-- The tag of a plain scalar. One line break at the end does not count, except after nothing. -/
def implicitTag (s : String) : Tag :=
  if s == "" then .null
  else
    let cs := Text.dropLastBreak s.toList
    let t := String.ofList cs
    if truthSpellings.contains t then .bool
    else if looksFloat cs then .float
    else if looksInt cs then .int
    else if t == "<<" then .merge
    else if nullSpellings.contains t then .null
    else if looksTimestamp cs then .timestamp
    else if t == "=" then .value
    else if ["!", "&", "*"].contains t then .foreign
    else .text

end Scriptwright.Yaml
