import Scriptwright.Text.Blank
import Scriptwright.Value
import Scriptwright.Yaml.Cursor

/-!
# Timestamps

A date written as year, month and day, perhaps with a time of day, a fraction of a second and an
offset behind it. A fraction counts to six places.
-/

namespace Scriptwright.Yaml

def digitsOf (n : Nat) (cs : List Char) : Option (Nat × List Char) :=
  let ds := cs.take n
  if ds.length == n && ds.all Char.isDigit then some (numeral 10 ds, cs.drop n) else none

def shortNumber (cs : List Char) : Option (Nat × List Char) := (digitsOf 2 cs).or (digitsOf 1 cs)

def expect (mark : Char) : List Char → Option (List Char)
  | c :: cs => if c == mark then some cs else none
  | [] => none

def isTimeBlank (c : Char) : Bool := c == ' ' || c == '\t'

def afterDate : List Char → Option (List Char)
  | [] => none
  | c :: cs =>
    if c == 'T' || c == 't' then some cs else if isTimeBlank c then some (cs.dropWhile isTimeBlank)
      else none

def microseconds (ds : List Char) : Nat :=
  let ds := ds.take 6
  numeral 10 (ds ++ List.replicate (6 - ds.length) '0')

def fraction : List Char → Nat × List Char
  | '.' :: cs => (microseconds (cs.takeWhile Char.isDigit), cs.dropWhile Char.isDigit)
  | cs => (0, cs)

def offset? (cs : List Char) : Option (Option Int) :=
  if cs.isEmpty then some none
  else
    match cs.dropWhile isTimeBlank with
    | ['Z'] => some (some 0)
    | sign :: cs =>
      if sign == '-' || sign == '+' then do
        let (hours, cs) ← shortNumber cs
        let minutes ← match cs with
          | [] => some 0
          | c :: cs => if c == ':' then (digitsOf 2 cs).bind fun p => if p.2.isEmpty then some p.1
              else none else none
        let seconds : Int := hours * 3600 + minutes * 60
        return some (if sign == '-' then -seconds else seconds)
      else none
    | [] => none

/-- A date alone or a date and a time, which need not exist. -/
def timestamp? (cs : List Char) : Option (Date ⊕ Moment) := do
  let (year, cs) ← digitsOf 4 cs
  let (month, cs) ← shortNumber (← expect '-' cs)
  let (day, cs) ← shortNumber (← expect '-' cs)
  let date : Date := ⟨year, month, day⟩
  if cs.isEmpty then return .inl date
  let (hour, cs) ← shortNumber (← afterDate cs)
  let (minute, cs) ← digitsOf 2 (← expect ':' cs)
  let (second, cs) ← digitsOf 2 (← expect ':' cs)
  let (micro, cs) := fraction cs
  return .inr ⟨date, hour, minute, second, micro, ← offset? cs⟩

def timestampValue : Date ⊕ Moment → Except Fault Scalar
  | .inl d => if d.valid then .ok (.date d) else .error .badValue
  | .inr t => if t.valid then .ok (.moment t) else .error .badValue

end Scriptwright.Yaml
