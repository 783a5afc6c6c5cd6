import WalletScan.Toml.Lexeme
import WalletScan.Settings.Tree

/-!
# Numbers and moments of a TOML document

* `readInteger` — whole numbers of 64 bits with sign, in base ten, sixteen, eight or two;
* `readReal` — numbers with a fraction or an exponent, infinity, and no number at all;
* `readMoment` — dates, times and both, with their offset; a moment is kept as its canonical text.
-/

set_option autoImplicit false

namespace WalletScan.Toml

/-! ## Digits -/

/-- Reads further digits, each of which may follow an underscore. -/
def moreDigits (isDigit : Char → Bool) : List Char → List Char × List Char
  | '_' :: c :: rest =>
    if isDigit c then
      let (ds, rest) := moreDigits isDigit rest
      (c :: ds, rest)
    else ([], '_' :: c :: rest)
  | c :: rest =>
    if isDigit c then
      let (ds, rest) := moreDigits isDigit rest
      (c :: ds, rest)
    else ([], c :: rest)
  | [] => ([], [])

/-- Reads at least one digit; single underscores may stand between digits. -/
def readDigits (isDigit : Char → Bool) : Reader (List Char)
  | c :: rest => if isDigit c then some ((moreDigits isDigit (c :: rest))) else none
  | [] => none

/-- Whether a character is a digit of a base up to sixteen. -/
def isDigitOf (base : Nat) (c : Char) : Bool :=
  match hexValue? [c] with
  | some n => decide (n < base)
  | none => false

/-- The value of digits in a base. -/
def valueOf (base : Nat) (digits : List Char) : Nat :=
  digits.foldl (fun n c => n * base + (hexValue? [c]).getD 0) 0

/-- Reads a sign, if there is one; answers whether it is a minus. -/
def readSign : List Char → Bool × List Char
  | '+' :: rest => (false, rest)
  | '-' :: rest => (true, rest)
  | s => (false, s)

/-- Reads the digits of a whole number in base ten: a leading zero stands alone. -/
def readWhole : Reader (List Char)
  | '0' :: rest => some (['0'], rest)
  | s => readDigits Char.isDigit s

/-! ## Numbers -/

/-- A whole number, if it fits into 64 bits with sign. -/
def bounded (n : Int) : Option Setting :=
  if Int64.minValue.toInt ≤ n ∧ n ≤ Int64.maxValue.toInt then some (.integer n) else none

/-- Reads the digits of a whole number in a base that its first characters name. -/
def readBased (base : Nat) : Reader Setting := fun s => do
  let (digits, rest) ← readDigits (isDigitOf base) s
  return (← bounded (valueOf base digits), rest)

/-- Reads a whole number. -/
def readInteger : Reader Setting
  | '0' :: 'x' :: rest => readBased 16 rest
  | '0' :: 'o' :: rest => readBased 8 rest
  | '0' :: 'b' :: rest => readBased 2 rest
  | s => do
    let (negative, s) := readSign s
    let (digits, rest) ← readWhole s
    let n : Int := valueOf 10 digits
    return (← bounded (if negative then -n else n), rest)

/-- Reads an exponent at its letter. -/
def readExponent (s : List Char) : Option (Int × List Char) := do
  let rest ← match s with
    | 'e' :: rest => some rest
    | 'E' :: rest => some rest
    | _ => none
  let (negative, rest) := readSign rest
  let (digits, rest) ← readDigits Char.isDigit rest
  let n : Int := valueOf 10 digits
  return (if negative then -n else n, rest)

/-- Reads what makes a number a real one: a fraction, an exponent, or both. Answers the digits of
the fraction and the exponent. -/
def readScale (s : List Char) : Option ((List Char × Int) × List Char) :=
  match s with
  | '.' :: rest => do
    let (places, rest) ← readDigits Char.isDigit rest
    match readExponent rest with
    | some (e, rest) => return ((places, e), rest)
    | none => return ((places, 0), rest)
  | s => (readExponent s).map fun (e, rest) => (([], e), rest)

/-- Reads a real number. One that is too large is refused, but not one that is too small. -/
def readReal : Reader Setting := fun s =>
  let (negative, unsigned) := readSign s
  match unsigned with
  | 'i' :: 'n' :: 'f' :: rest => some (.real (.infinity negative), rest)
  | 'n' :: 'a' :: 'n' :: rest => some (.real .nan, rest)
  | _ => do
    let (digits, rest) ← readWhole unsigned
    let ((places, exponent), rest) ← readScale rest
    let x := Double.ofDecimal negative (valueOf 10 (digits ++ places)) (exponent - places.length)
    if x = .infinity false then none else return (.real x, rest)

/-! ## Moments -/

/-- Reads a number of exactly some digits within bounds. -/
def readField (width low high : Nat) (s : List Char) : Option (Nat × List Char) :=
  let digits := s.take width
  if digits.length = width ∧ digits.all Char.isDigit then
    let n := valueOf 10 digits
    if low ≤ n ∧ n ≤ high then some (n, s.drop width) else none
  else none

/-- Reads one character. -/
def readChar (c : Char) : List Char → Option (List Char)
  | x :: rest => if x = c then some rest else none
  | [] => none

/-- How many days a month has. -/
def daysOf (year month : Nat) : Nat :=
  if month = 2 then
    if year % 4 = 0 ∧ (year % 100 ≠ 0 ∨ year % 400 = 0) then 29 else 28
  else if month = 4 ∨ month = 6 ∨ month = 9 ∨ month = 11 then 30
  else 31

/-- Reads a day of the calendar. -/
def readDate : Reader (List Char) := fun s => do
  let (year, s) ← readField 4 0 9999 s
  let s ← readChar '-' s
  let (month, s) ← readField 2 1 12 s
  let s ← readChar '-' s
  let (day, s) ← readField 2 1 (daysOf year month) s
  return (paddedDigits 4 year ++ '-' :: paddedDigits 2 month ++ '-' :: paddedDigits 2 day, s)

/-- Reads a fraction of a second; nine places count, and zeros at the end are not kept. -/
def readSecondFraction : List Char → List Char × List Char
  | '.' :: rest =>
    match rest.takeWhile Char.isDigit with
    | [] => ([], '.' :: rest)
    | places =>
      let kept := Double.stripZeros (places.take 9)
      (if kept.isEmpty then [] else '.' :: kept, rest.dropWhile Char.isDigit)
  | s => ([], s)

/-- Reads a time of day; a minute may have a leap second. -/
def readTime : Reader (List Char) := fun s => do
  let (hour, s) ← readField 2 0 23 s
  let s ← readChar ':' s
  let (minute, s) ← readField 2 0 59 s
  let s ← readChar ':' s
  let (second, s) ← readField 2 0 60 s
  let (fraction, s) := readSecondFraction s
  return (paddedDigits 2 hour ++ ':' :: paddedDigits 2 minute ++ ':' :: paddedDigits 2 second
    ++ fraction, s)

/-- Reads an offset from universal time. -/
def readOffset : Reader (List Char)
  | 'Z' :: rest => some (['Z'], rest)
  | 'z' :: rest => some (['Z'], rest)
  | sign :: s =>
    if sign = '+' ∨ sign = '-' then do
      let (hour, s) ← readField 2 0 23 s
      let s ← readChar ':' s
      let (minute, s) ← readField 2 0 59 s
      let sign := if hour = 0 ∧ minute = 0 then '+' else sign
      return (sign :: (paddedDigits 2 hour ++ ':' :: paddedDigits 2 minute), s)
    else none
  | [] => none

/-- Reads a time after the letter or the space that joins it to a date. -/
def readJoinedTime : List Char → Option (List Char × List Char)
  | c :: rest =>
    if c = 'T' ∨ c = 't' ∨ c = ' ' then do
      let (time, rest) ← readTime rest
      match readOffset rest with
      | some (offset, rest) => return ('T' :: (time ++ offset), rest)
      | none => return ('T' :: time, rest)
    else none
  | [] => none

/-- Reads a moment: a date, a time, or a date with a time. -/
def readMoment : Reader Setting := fun s =>
  match readDate s with
  | some (date, rest) =>
    match readJoinedTime rest with
    | some (time, rest) => some (.text (String.ofList (date ++ time)), rest)
    | none => some (.text (String.ofList date), rest)
  | none => (readTime s).map fun (time, rest) => (.text (String.ofList time), rest)

/-- Reads a moment or a number. -/
def readNumber : Reader Setting := fun s =>
  (readMoment s).or ((readReal s).or (readInteger s))

end WalletScan.Toml
