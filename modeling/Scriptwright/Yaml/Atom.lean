import Scriptwright.Yaml.Tag

/-!
# Atoms

The value that the text of a scalar spells under its tag. A text that does not spell one is a fault;
what is no base-64 at all is malformed.
-/

namespace Scriptwright.Yaml

/-! ## Digits -/

/-- The zeros of the scripts that have digits of their own, each followed by the other nine digits.
-/
def zeros : List Nat := [
  0x660, 0x6F0, 0x7C0, 0x966, 0x9E6, 0xA66, 0xAE6, 0xB66, 0xBE6, 0xC66, 0xCE6, 0xD66, 0xDE6, 0xE50,
    0xED0, 0xF20, 0x1040,
  0x1090, 0x17E0, 0x1810, 0x1946, 0x19D0, 0x1A80, 0x1A90, 0x1B50, 0x1BB0, 0x1C40, 0x1C50, 0xA620,
  0xA8D0, 0xA900, 0xA9D0, 0xA9F0, 0xAA50, 0xABF0, 0xFF10, 0x104A0, 0x10D30, 0x11066, 0x110F0,
  0x11136, 0x111D0, 0x112F0, 0x11450, 0x114D0, 0x11650, 0x116C0, 0x11730, 0x118E0, 0x11950, 0x11C50,
  0x11D50, 0x11DA0, 0x16A60, 0x16AC0, 0x16B50, 0x1D7CE, 0x1D7D8, 0x1D7E2, 0x1D7EC, 0x1D7F6, 0x1E140,
  0x1E2F0, 0x1E950, 0x1FBF0]

def usualDigit (c : Char) : Char :=
  match zeros.find? fun z => z ≤ c.toNat && c.toNat < z + 10 with
  | some z => Char.ofNat ('0'.toNat + (c.toNat - z))
  | none => c

def numberText (cs : List Char) : List Char := (Text.trim cs).map usualDigit

/-! ## Whole numbers -/

def isDigitOf (base : Nat) (c : Char) : Bool := isHexDigit c && hexValue c < base

def baseLetter? (base : Nat) : Option Char :=
  if base = 2 then some 'b' else if base = 8 then some 'o' else if base = 16 then some 'x' else none

def withoutBase (base : Nat) : List Char → List Char
  | '0' :: c :: cs => if baseLetter? base == some c.toLower then cs else '0' :: c :: cs
  | cs => cs

def wholeNumber (base : Nat) (cs : List Char) : Except Fault Int :=
  let cs := numberText cs
  let ds := withoutBase base (withoutSign cs)
  if nonempty (isDigitOf base) ds && (base != 10 || ds.length ≤ mostDigits) then
    let n : Int := numeral base ds
    .ok (if cs.head? == some '-' then -n else n)
  else .error .badValue

/-- Places of base sixty, the highest first. -/
def sexagesimal (places : List Int) : Int := places.foldl (fun n d => n * 60 + d) 0

def signed : List Char → Except Fault (Bool × List Char)
  | [] => .error .outOfRange
  | c :: cs => .ok (c == '-', if c == '-' || c == '+' then cs else c :: cs)

def intMagnitude : List Char → Except Fault Int
  | [] => .error .outOfRange
  | '0' :: 'b' :: ds => wholeNumber 2 ds
  | '0' :: 'x' :: ds => wholeNumber 16 ds
  | '0' :: ds => if ds.isEmpty then .ok 0 else wholeNumber 8 ('0' :: ds)
  | cs => if cs.contains ':' then ((Text.splitAt ':' cs).mapM (wholeNumber 10)).map sexagesimal
      else wholeNumber 10 cs

def intOf (cs : List Char) : Except Fault Int := do
  let (negative, cs) ← signed (cs.filter (· != '_'))
  let n ← intMagnitude cs
  return if negative then -n else n

/-! ## Numbers with a point -/

def exponent? : List Char → Option Int
  | [] => some 0
  | e :: cs =>
    let ds := withoutSign cs
    if e == 'e' && nonempty Char.isDigit ds then
      let n : Int := numeral 10 ds
      some (if cs.head? == some '-' then -n else n)
    else none

def doubleMagnitude? (cs : List Char) : Option Double :=
  let s := String.ofList cs
  if s == "inf" || s == "infinity" then some (.infinity false)
  else if s == "nan" then some .notANumber
  else
    let whole := cs.takeWhile Char.isDigit
    let (places, rest) := match cs.dropWhile Char.isDigit with
      | '.' :: r => (r.takeWhile Char.isDigit, r.dropWhile Char.isDigit)
      | r => ([], r)
    if whole.isEmpty && places.isEmpty then none
    else (exponent? rest).map fun e => .ofDecimal false (numeral 10 (whole ++ places))
      (e - places.length)

def double (cs : List Char) : Except Fault Double :=
  let cs := numberText cs
  match doubleMagnitude? (withoutSign cs) with
  | some x => .ok (if cs.head? == some '-' then x.neg else x)
  | none => .error .badValue

/-- Places of base sixty, the lowest first, with the weight of the first of them. -/
def sexagesimalDouble (sum : Double) (weight : Nat) : List Double → Except Fault Double
  | [] => .ok sum
  | x :: xs =>
    let w := Double.ofNat weight
    if w == Double.infinity false then .error .tooLarge
    else sexagesimalDouble (sum.add (x.mul w)) (weight * 60) xs

def floatOf (cs : List Char) : Except Fault Double := do
  let (negative, cs) ← signed ((cs.filter (· != '_')).map Char.toLower)
  let x ←
    if cs == ".inf".toList then pure (Double.infinity false)
    else if cs == ".nan".toList then pure Double.notANumber
    else if cs.contains ':' then do
      let places ← (Text.splitAt ':' cs).mapM double
      sexagesimalDouble (.zero false) 1 places.reverse
    else double cs
  return if negative then x.neg else x

/-! ## Octets -/

def base64Digit? (c : Char) : Option Nat :=
  if 'A' ≤ c && c ≤ 'Z' then some (c.toNat - 'A'.toNat)
  else if 'a' ≤ c && c ≤ 'z' then some (c.toNat - 'a'.toNat + 26)
  else if c.isDigit then some (c.toNat - '0'.toNat + 52)
  else if c == '+' then some 62
  else if c == '/' then some 63
  else none

/-- The octets of digits of base 64. `left` holds the bits of the digits read so far that fill no
octet, `place` counts those digits in their group of four, and `pads` the padding after them. Other
characters do not count. -/
def base64 (place left pads : Nat) : List Char → Option (List UInt8)
  | [] => if place = 0 then some [] else none
  | c :: cs =>
    if c == '=' then
      if 2 ≤ place then (if 4 ≤ place + pads + 1 then some [] else base64 place left (pads + 1) cs)
      else base64 place left pads cs
    else
      match base64Digit? c with
      | none => base64 place left pads cs
      | some d =>
        match place with
        | 0 => base64 1 d 0 cs
        | 1 => (base64 2 (d % 16) 0 cs).map (UInt8.ofNat (left * 4 + d / 16) :: ·)
        | 2 => (base64 3 (d % 4) 0 cs).map (UInt8.ofNat (left * 16 + d / 4) :: ·)
        | _ => (base64 0 0 0 cs).map (UInt8.ofNat (left * 64 + d) :: ·)

def octetsOf (cs : List Char) : Except Trouble (List UInt8) :=
  if cs.all fun c => c.toNat < 128 then
    match base64 0 0 0 cs with
    | some octets => .ok octets
    | none => .error .malformed
  else .error .malformed

/-! ## Atoms -/

def boolOf (s : String) : Except Fault Bool :=
  match truthWords.lookup (s.map Char.toLower) with
  | some b => .ok b
  | none => .error .missingKey

def timestampOf (cs : List Char) : Except Fault Scalar :=
  match timestamp? (Text.dropLastBreak cs) with
  | some t => timestampValue t
  | none => .error .notRecord

def faulty {α : Type} (x : Except Fault α) : Except Trouble α := x.mapError .fault

def atom (tag : Tag) (s : String) : Except Trouble Scalar :=
  match tag with
  | .null => .ok .null
  | .text => .ok (.string s)
  | .bool => faulty ((boolOf s).map .bool)
  | .int => faulty ((intOf s.toList).map .int)
  | .float => faulty ((floatOf s.toList).map .float)
  | .binary => (octetsOf s.toList).map .bytes
  | .timestamp => faulty (timestampOf s.toList)
  | .sequence | .mapping | .pairs | .set | .merge | .value | .foreign => .error .malformed

end Scriptwright.Yaml
