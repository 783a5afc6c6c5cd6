import WalletScan.Decimal

/-!
# Moments and their calendar

A moment counts seconds since the beginning of 1970 in universal time. `Moment.civil` is its date
and time of day, and `Moment.render` the text `2023-11-14T22:13:20+00:00`, with three, six or nine
places of a second where they are needed.
-/

set_option autoImplicit false

namespace WalletScan

/-- A moment of universal time. -/
structure Moment where
  seconds : UInt64
  /-- Billionths of a second, fewer than a billion. -/
  nanos : Nat
deriving DecidableEq, Repr

/-- A date and a time of day. -/
structure Civil where
  year : Nat
  month : Nat
  day : Nat
  hour : Nat
  minute : Nat
  second : Nat
deriving DecidableEq, Repr

namespace Moment

/-- The date of a day, counted from the first of March of the year zero: years begin in March, so
that a leap day ends its year, and 400 years have 146097 days. -/
def dateOf (days : Nat) : Nat × Nat × Nat :=
  let era := days / 146097
  let dayOfEra := days % 146097
  let yearOfEra := (dayOfEra - dayOfEra / 1460 + dayOfEra / 36524 - dayOfEra / 146096) / 365
  let dayOfYear := dayOfEra - (365 * yearOfEra + yearOfEra / 4 - yearOfEra / 100)
  let monthFromMarch := (5 * dayOfYear + 2) / 153
  let day := dayOfYear - (153 * monthFromMarch + 2) / 5 + 1
  let month := if monthFromMarch < 10 then monthFromMarch + 3 else monthFromMarch - 9
  let year := yearOfEra + era * 400 + if month ≤ 2 then 1 else 0
  (year, month, day)

/-- The first of January 1970, counted from the first of March of the year zero. -/
def epochDay : Nat := 719468

/-- The date and the time of day of a moment. -/
def civil (m : Moment) : Civil :=
  let seconds := m.seconds.toNat
  let (year, month, day) := dateOf (seconds / 86400 + epochDay)
  let rest := seconds % 86400
  ⟨year, month, day, rest / 3600, rest / 60 % 60, rest % 60⟩

/-- A year has four digits; one beyond them has a sign. -/
def yearChars (year : Nat) : List Char :=
  if year < 10000 then paddedDigits 4 year else '+' :: paddedDigits 4 year

/-- A date: year, month and day. -/
def dateChars (c : Civil) : List Char :=
  yearChars c.year ++ '-' :: paddedDigits 2 c.month ++ '-' :: paddedDigits 2 c.day

/-- A time of day: hour, minute and second. -/
def timeChars (c : Civil) : List Char :=
  paddedDigits 2 c.hour ++ ':' :: paddedDigits 2 c.minute ++ ':' :: paddedDigits 2 c.second

/-- The places of a second, in threes, as few as are exact. -/
def fractionChars (nanos : Nat) : List Char :=
  if nanos = 0 then []
  else if nanos % 1000000 = 0 then '.' :: paddedDigits 3 (nanos / 1000000)
  else if nanos % 1000 = 0 then '.' :: paddedDigits 6 (nanos / 1000)
  else '.' :: paddedDigits 9 nanos

/-- The characters of a moment's text. -/
def chars (m : Moment) : List Char :=
  let c := m.civil
  dateChars c ++ 'T' :: timeChars c ++ fractionChars m.nanos ++ "+00:00".toList

/-- The text of a moment. -/
def render (m : Moment) : String := String.ofList m.chars

end Moment

end WalletScan
