/-!
# Shortest decimals

The value `m * 2 ^ q` stands for every real number that rounds to it. The decimal chosen for it is
the one with the fewest digits among those reals; of two with equally many digits the nearer one,
and of two equally near the even one. All of it is exact arithmetic on natural numbers.
-/

namespace Scriptwright

/-- The most digits that an integer may have where it is read or written in decimal. -/
def mostDigits : Nat := 4300

/-- The number `digits * 10 ^ exponent`. -/
structure Decimal where
  digits : Nat
  exponent : Int
deriving DecidableEq, Repr

namespace Decimal

def scale (b : Nat) (e : Int) : Nat := Nat.pow b e.toNat

def digitsOf (n : Nat) : List Char := Nat.toDigits 10 n

/-- The least `t ≤ bound` with `unit ≤ a * 10 ^ t`. -/
def shiftUp (a unit : Nat) : Nat → Nat → Nat
  | 0, t => t
  | bound + 1, t => if unit ≤ a * Nat.pow 10 t then t else shiftUp a unit bound (t + 1)

/-- The number of digits before the point of `a / unit`; zero or less when it is below one tenth. -/
def pointPosition (a unit : Nat) : Int :=
  if unit ≤ a then (digitsOf (a / unit)).length else 1 - (shiftUp a unit 400 0 : Int)

def trim : Nat → Nat → Int → Decimal
  | 0, d, e => ⟨d, e⟩
  | fuel + 1, d, e => if d ≠ 0 ∧ d % 10 = 0 then trim fuel (d / 10) (e + 1) else ⟨d, e⟩

/-- The reals that round to `m * 2 ^ q`, in units of `2 ^ (q - 2)`: from `low` to `high`, the ends
included exactly when `m` is even. -/
structure Interval where
  low : Nat
  centre : Nat
  high : Nat
  closed : Bool

/-- The gap below a power of two is half the gap above it. -/
def interval (m : Nat) (narrow : Bool) : Interval :=
  ⟨4 * m - (if narrow then 1 else 2), 4 * m, 4 * m + 2, m % 2 == 0⟩

def Interval.holds (i : Interval) (unit grid c : Nat) : Bool :=
  let at_ := c * grid
  if i.closed then i.low * unit ≤ at_ && at_ ≤ i.high * unit
  else i.low * unit < at_ && at_ < i.high * unit

/-- Of the two neighbours of the value on the grid, the one to use, if either rounds back. -/
def Interval.pick (i : Interval) (unit grid : Nat) : Option Nat :=
  let c := i.centre * unit / grid
  let below := i.holds unit grid c
  let above := i.holds unit grid (c + 1)
  if below && above then
    let down := i.centre * unit - c * grid
    let up := (c + 1) * grid - i.centre * unit
    if down < up then some c
    else if up < down then some (c + 1)
    else some (if c % 2 = 0 then c else c + 1)
  else if below then some c
  else if above then some (c + 1)
  else none

def search (i : Interval) (q : Int) (position : Int) : Nat → Nat → Decimal
  | 0, _ => ⟨i.centre, 0⟩
  | fuel + 1, count =>
    let k := position - count
    let unit := scale 2 (q - 2) * scale 10 (-k)
    let grid := scale 10 k * scale 2 (2 - q)
    match i.pick unit grid with
    | some c => trim 20 c k
    | none => search i q position fuel (count + 1)

/-- The shortest decimal that rounds to `m * 2 ^ q`. `narrow` says that the gap below is half the
gap above. -/
def shortest (m : Nat) (q : Int) (narrow : Bool) : Decimal :=
  if m = 0 then ⟨0, 0⟩
  else
    let i := interval m narrow
    let position := pointPosition (i.centre * scale 2 (q - 2)) (scale 2 (2 - q))
    search i q position 17 1

end Decimal

end Scriptwright
