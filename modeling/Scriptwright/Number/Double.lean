import Scriptwright.Number.Decimal

/-!
# Floating-point numbers

A `Double` is a 64-bit binary floating-point number held as its bit pattern, so that equality is
equality of patterns. Conversions from decimals and to text are exact integer arithmetic with one
rounding to nearest, ties to even.
-/

namespace Scriptwright

structure Double where
  bits : UInt64
deriving DecidableEq, Repr

namespace Double

/-- What a bit pattern stands for; `finite` is `±m * 2 ^ q`. -/
inductive Form where
  | nan
  | infinite (negative : Bool)
  | finite (negative : Bool) (m : Nat) (q : Int)
deriving DecidableEq, Repr

def signWeight : Nat := 0x8000000000000000

/-- The weight of the lowest exponent bit, which is also that of the bit a fraction leaves out. -/
def exponentWeight : Nat := 0x10000000000000

def negative (x : Double) : Bool := x.bits.toNat / signWeight == 1

def exponentField (x : Double) : Nat := x.bits.toNat / exponentWeight % 2048

def fractionField (x : Double) : Nat := x.bits.toNat % exponentWeight

def form (x : Double) : Form :=
  if x.exponentField = 2047 then
    if x.fractionField = 0 then .infinite x.negative else .nan
  else if x.exponentField = 0 then .finite x.negative x.fractionField (-1074)
  else .finite x.negative (exponentWeight + x.fractionField) ((x.exponentField : Int) - 1075)

/-- The pattern with the given sign and the given exponent and fraction fields taken together. -/
def ofFields (negative : Bool) (rest : Nat) : Double :=
  ⟨UInt64.ofNat ((if negative then signWeight else 0) + rest)⟩

def zero (negative : Bool) : Double := ofFields negative 0

def infinity (negative : Bool) : Double := ofFields negative (2047 * exponentWeight)

def notANumber : Double := ofFields false (2047 * exponentWeight + exponentWeight / 2)

/-- `n / d` to the nearest integer, a half to the even one. -/
def roundDiv (n d : Nat) : Nat :=
  let k := n / d
  let twice := 2 * (n % d)
  if twice < d then k else if d < twice then k + 1 else if k % 2 = 0 then k else k + 1

/-- The number nearest to `± n / d`. Values below the normal range lose digits, values above it are
infinite. -/
def ofRatio (negative : Bool) (n d : Nat) : Double :=
  if n = 0 then zero negative
  else
    let guess : Int := (n.log2 : Int) - (d.log2 : Int) - 53
    let scaled (q : Int) : Nat × Nat := (n * Decimal.scale 2 (-q), d * Decimal.scale 2 q)
    let fits (q : Int) : Bool := let s := scaled q; s.1 < 2 * exponentWeight * s.2
    let q := max (if fits guess then guess else if fits (guess + 1) then guess + 1
      else guess + 2) (-1074)
    let s := scaled q
    let m := roundDiv s.1 s.2
    -- a carry out of the fraction raises the exponent field by itself
    let rest := if m < exponentWeight then m else (q + 1074).toNat * exponentWeight + m
    if 2047 * exponentWeight ≤ rest then infinity negative else ofFields negative rest

def ofDecimal (negative : Bool) (digits : Nat) (exponent : Int) : Double :=
  if digits = 0 then zero negative
  else
    let size : Int := (Decimal.digitsOf digits).length + exponent
    if size > 400 then infinity negative
    else if size < -400 then zero negative
    else ofRatio negative (digits * Decimal.scale 10 exponent) (Decimal.scale 10 (-exponent))

def isZero (x : Double) : Bool := x.exponentField = 0 ∧ x.fractionField = 0

def neg (x : Double) : Double := ofFields (!x.negative) (x.bits.toNat % signWeight)

def ratio? (x : Double) : Option (Bool × Nat × Nat) :=
  match x.form with
  | .finite s m q => some (s, m * Decimal.scale 2 q, Decimal.scale 2 (-q))
  | _ => none

def toInt? (x : Double) : Option Int :=
  match x.ratio? with
  | some (s, n, d) =>
    if n % d = 0 then some (if s then -((n / d : Nat) : Int) else (n / d : Nat)) else none
  | none => none

/-- Numeric equality: both zeros are equal, and a NaN equals nothing. -/
def numEq (x y : Double) : Bool :=
  x.form ≠ .nan && y.form ≠ .nan && (x == y || (x.isZero && y.isZero))

/-- The sum, rounded once. Infinities of both signs add up to no number. -/
def add (x y : Double) : Double :=
  match x.ratio?, y.ratio? with
  | some (s, n, d), some (t, k, e) =>
    let a : Int := (if s then -1 else 1) * (n * e : Nat)
    let b : Int := (if t then -1 else 1) * (k * d : Nat)
    let total := a + b
    if total = 0 then zero (s && t) else ofRatio (total < 0) total.natAbs (d * e)
  | none, some _ => x
  | some _, none => y
  | none, none => if x == y then x else notANumber

/-- The product, rounded once. Zero times infinity is no number. -/
def mul (x y : Double) : Double :=
  match x.ratio?, y.ratio? with
  | some (s, n, d), some (t, k, e) => ofRatio (s != t) (n * k) (d * e)
  | _, _ =>
    if x.form = .nan || y.form = .nan || x.isZero || y.isZero then notANumber
      else infinity (x.negative != y.negative)

def ofNat (n : Nat) : Double := ofRatio false n 1

/-! ## Text -/

structure Special where
  infinity : String
  minusInfinity : String
  notANumber : String

def zeros (n : Nat) : List Char := List.replicate n '0'

/-- Digits with a point after the first `position` of them, padded with zeros; a whole number keeps
`.0`. -/
def positional (digits : List Char) (position : Int) : List Char :=
  if position ≤ 0 then '0' :: '.' :: zeros (-position).toNat ++ digits
  else
    let p := position.toNat
    if digits.length ≤ p then digits ++ zeros (p - digits.length) ++ ['.', '0']
    else digits.take p ++ '.' :: digits.drop p

/-- One digit, the others after a point, and an exponent of at least two digits with its sign. -/
def scientific (digits : List Char) (exponent : Int) : List Char :=
  let tail := digits.drop 1
  let size := Decimal.digitsOf exponent.natAbs
  digits.take 1 ++ (if tail.isEmpty then [] else '.' :: tail) ++
    'e' :: (if exponent < 0 then '-' else '+') :: zeros (2 - size.length) ++ size

/-- The shortest text that reads back as the number: positional for decimal exponents from -4 to 15.
-/
def text (special : Special) (x : Double) : String :=
  match x.form with
  | .nan => special.notANumber
  | .infinite s => if s then special.minusInfinity else special.infinity
  | .finite s m q =>
    let dec := Decimal.shortest m q (m == exponentWeight && decide (-1074 < q))
    let digits := Decimal.digitsOf dec.digits
    let position : Int := digits.length + dec.exponent
    let body :=
      if m = 0 then ['0', '.', '0']
      else if -4 < position ∧ position ≤ 16 then positional digits position
      else scientific digits (position - 1)
    String.ofList (if s then '-' :: body else body)

end Double

end Scriptwright
