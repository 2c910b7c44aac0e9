import Allegiance.Instant.Calendar

namespace Allegiance

/-- Universal Time. The seconds of a minute go up to 60, in a leap second. -/
structure Instant where
  date : Calendar.Day
  minute : Nat
  second : Nat
  nano : Nat
  minute_lt : minute < 1440
  second_le : second ≤ 60
  nano_lt : nano < 1000000000
  deriving DecidableEq

namespace Instant

/-- The moment at which a clock `ahead` minutes (fewer than a day's) ahead of Universal Time shows
this. -/
def ofLocal? (date : Calendar.Day) (minute : Nat) (second : Nat) (nano : Nat) (ahead : Int) :
    Option Instant :=
  let m := (minute : Int) - ahead
  let date? := if m < 0 then date.previous? else if m < 1440 then some date else date.next?
  date?.bind fun d =>
    let m := (m % 1440).toNat
    if h : m < 1440 ∧ second ≤ 60 ∧ nano < 1000000000 then
      some ⟨d, m, second, nano, h.1, h.2.1, h.2.2⟩
    else none

def ofNumber? (nanoseconds : Int) : Option Instant :=
  let seconds := nanoseconds / 1000000000
  (Calendar.Day.ofNumber? (seconds / 86400)).bind fun date =>
    ofLocal? date (seconds % 86400 / 60).toNat (seconds % 60).toNat (nanoseconds % 1000000000).toNat 0

def padded (width n : Nat) : List Char :=
  let ds := Nat.toDigits 10 n
  List.replicate (width - ds.length) '0' ++ ds

/-- Four digits; with a sign, and more digits if need be, where four do not do. -/
def yearText (y : Int) : List Char :=
  if 0 ≤ y ∧ y ≤ 9999 then padded 4 y.toNat
  else (if y < 0 then '-' else '+') :: padded 4 y.natAbs

/-- A fraction of a second in as many of 0, 3, 6 or 9 digits as it needs. -/
def fractionText (nano : Nat) : List Char :=
  if nano = 0 then []
  else if nano % 1000000 = 0 then '.' :: padded 3 (nano / 1000000)
  else if nano % 1000 = 0 then '.' :: padded 6 (nano / 1000)
  else '.' :: padded 9 nano

def toText (t : Instant) : String :=
  String.ofList (yearText t.date.year ++ '-' :: padded 2 t.date.month ++ '-' :: padded 2 t.date.day ++
    'T' :: padded 2 (t.minute / 60) ++ ':' :: padded 2 (t.minute % 60) ++ ':' :: padded 2 t.second ++
    fractionText t.nano ++ ['Z'])

end Instant

end Allegiance
