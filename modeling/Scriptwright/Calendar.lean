/-!
# Dates and times

Calendar dates of the years 1 to 9999 and times of day with an optional offset from universal time,
with the two texts that documents show: the plain one and the one that stands inside lists and
mappings.
-/

namespace Scriptwright

structure Date where
  year : Nat
  month : Nat
  day : Nat
deriving DecidableEq, Repr

/-- A date with a time of day; `offset` is in seconds east of universal time. -/
structure Moment where
  date : Date
  hour : Nat
  minute : Nat
  second : Nat
  micro : Nat
  offset : Option Int
deriving DecidableEq, Repr

def padded (width n : Nat) : String :=
  let ds := Nat.toDigits 10 n
  String.ofList (List.replicate (width - ds.length) '0' ++ ds)

namespace Date

def isLeap (year : Nat) : Bool := year % 4 == 0 && (year % 100 != 0 || year % 400 == 0)

def daysIn (year month : Nat) : Nat :=
  if month = 2 then (if isLeap year then 29 else 28)
  else if month = 4 ∨ month = 6 ∨ month = 9 ∨ month = 11 then 30 else 31

def valid (d : Date) : Bool :=
  1 ≤ d.year && d.year ≤ 9999 && 1 ≤ d.month && d.month ≤ 12 && 1 ≤ d.day && d.day ≤
    daysIn d.year d.month

/-- Days since the first day of year one. -/
def ordinal (d : Date) : Nat :=
  let y := d.year - 1
  let months := (List.range (d.month - 1)).map fun m => daysIn d.year (m + 1)
  365 * y + y / 4 - y / 100 + y / 400 + months.foldl (· + ·) 0 + d.day

def text (d : Date) : String :=
  padded 4 d.year ++ "-" ++ padded 2 d.month ++ "-" ++ padded 2 d.day

def inner (d : Date) : String :=
  "datetime.date(" ++ toString d.year ++ ", " ++ toString d.month ++ ", " ++ toString d.day ++ ")"

end Date

namespace Moment

def valid (t : Moment) : Bool :=
  t.date.valid && t.hour ≤ 23 && t.minute ≤ 59 && t.second ≤ 59 &&
    match t.offset with
    | none => true
    | some s => s.natAbs < 86400

/-- Seconds since the start of year one in universal time, for a moment with an offset. -/
def instant (t : Moment) : Int :=
  ((t.date.ordinal * 86400 + t.hour * 3600 + t.minute * 60 + t.second : Nat) : Int) -
    t.offset.getD 0

/-- Two moments without offset are equal when they read the same, two with one when they are the
same instant. -/
def same (t u : Moment) : Bool :=
  match t.offset, u.offset with
  | none, none => t == u
  | some _, some _ => t.instant == u.instant && t.micro == u.micro
  | _, _ => false

def offsetText (s : Int) : String :=
  let n := s.natAbs
  (if s < 0 then "-" else "+") ++ padded 2 (n / 3600) ++ ":" ++ padded 2 (n / 60 % 60) ++
    (if n % 60 = 0 then "" else ":" ++ padded 2 (n % 60))

def text (t : Moment) : String :=
  t.date.text ++ " " ++ padded 2 t.hour ++ ":" ++ padded 2 t.minute ++ ":" ++ padded 2 t.second ++
    (if t.micro = 0 then "" else "." ++ padded 6 t.micro) ++ (t.offset.map offsetText).getD ""

def spanText (s : Int) : String :=
  let days := s / 86400
  let rest := s % 86400
  "datetime.timedelta(" ++
    (if days = 0 then "" else "days=" ++ toString days ++ (if rest = 0 then "" else ", ")) ++
    (if rest = 0 then "" else "seconds=" ++ toString rest) ++ ")"

def zoneText (s : Int) : String :=
  if s = 0 then "datetime.timezone.utc" else "datetime.timezone(" ++ spanText s ++ ")"

def inner (t : Moment) : String :=
  let fields := [t.date.year, t.date.month, t.date.day, t.hour, t.minute] ++
    (if t.micro ≠ 0 then [t.second, t.micro] else if t.second ≠ 0 then [t.second] else [])
  "datetime.datetime(" ++ ", ".intercalate (fields.map toString) ++
    (match t.offset with
      | none => ""
      | some s => ", tzinfo=" ++ zoneText s) ++ ")"

end Moment

end Scriptwright
