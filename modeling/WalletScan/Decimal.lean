/-!
# Numbers in decimal digits

Natural numbers, and numbers of double precision. A finite number of double precision is
`mantissa * 2 ^ scale` with at most 53 binary digits. All arithmetic here is exact, on natural
numbers:

* `natural?` — what a person may type for a natural number: decimal digits, after a plus if need be;
* `paddedDigits` — a number with leading zeros;
* `Double.ofDecimal` — the number nearest to a decimal, a half going to the even neighbour;
* `Double.render` — the fewest digits that read back to the number, of those the nearest to it,
  written without exponent;
* `Double.toWord` — the nearest natural number of 64 bits, a half going away from zero.
-/

set_option autoImplicit false

namespace WalletScan

/-! ## Natural numbers -/

/-- The value of decimal digits. -/
def naturalOfDigits (digits : List Char) : Nat :=
  digits.foldl (fun n c => n * 10 + (c.toNat - '0'.toNat)) 0

/-- The natural number that a text spells. -/
def natural? (text : String) : Option Nat :=
  let digits :=
    match text.toList with
    | '+' :: rest => rest
    | cs => cs
  if digits.isEmpty ∨ ¬ digits.all Char.isDigit then none else some (naturalOfDigits digits)

/-- The number of 64 bits that a text spells. -/
def word64? (text : String) : Option UInt64 := do
  let n ← natural? text
  if n < UInt64.size then return UInt64.ofNat n else none

/-- The digits of a number, after as many zeros as they lack to a width. -/
def paddedDigits (width n : Nat) : List Char :=
  let digits := Nat.toDigits 10 n
  List.replicate (width - digits.length) '0' ++ digits

/-! ## Double precision -/

/-- A number of double precision. -/
inductive Double where
  | nan
  | infinity (negative : Bool)
  /-- A mantissa below `2 ^ 53` at a scale from -1074 to 971. -/
  | finite (negative : Bool) (mantissa : Nat) (scale : Int)
deriving DecidableEq, Repr

namespace Double

/-- How many binary digits a mantissa has. -/
def precision : Nat := 53

/-- The scale of the smallest numbers. -/
def minScale : Int := -1074

/-- The scale of the largest numbers. -/
def maxScale : Int := 971

/-- A quotient rounded to the nearest natural number, a half going to the even one. -/
def roundQuotient (num den : Nat) : Nat :=
  let whole := num / den
  let double := 2 * (num % den)
  if den < double ∨ (double = den ∧ whole % 2 = 1) then whole + 1 else whole

/-- The quotient `num / den / base ^ scale` as a numerator and a denominator. -/
def scaled (base num den : Nat) (scale : Int) : Nat × Nat :=
  if scale < 0 then (num * base.pow (-scale).toNat, den) else (num, den * base.pow scale.toNat)

/-- The number nearest to a positive quotient. -/
def ofQuotient (negative : Bool) (num den : Nat) : Double :=
  let fits (scale : Int) : Bool :=
    let (n, d) := scaled 2 num den scale
    n / d < Nat.pow 2 precision
  let guess := max minScale ((num.log2 : Int) - den.log2 - precision)
  let scale := if fits guess then guess else guess + 1
  let (n, d) := scaled 2 num den scale
  let mantissa := roundQuotient n d
  let (mantissa, scale) :=
    if mantissa = Nat.pow 2 precision then (Nat.pow 2 (precision - 1), scale + 1)
    else (mantissa, scale)
  if maxScale < scale then .infinity negative else .finite negative mantissa scale

/-- How many decimal digits a natural number has. -/
def decimalWidth (n : Nat) : Nat := (Nat.toDigits 10 n).length

/-- The number nearest to `digits * 10 ^ exponent`. Decimals from `10 ^ 310` on are infinite, and
those below `10 ^ -330` are zero. -/
def ofDecimal (negative : Bool) (digits : Nat) (exponent : Int) : Double :=
  let lead : Int := decimalWidth digits + exponent
  if digits = 0 ∨ lead < -330 then .finite negative 0 minScale
  else if 310 < lead then .infinity negative
  else
    let (num, den) := scaled 10 digits 1 (-exponent)
    ofQuotient negative num den

/-! ## Fewest digits -/

/-- The reals that round to a number, as the quotients of `low`, `value` and `high` by `unit`; the
ends belong to them if `closed`. -/
structure Interval where
  low : Nat
  value : Nat
  high : Nat
  unit : Nat
  closed : Bool

/-- The interval of a positive number: halfway to its neighbours. Below a power of two the gap is
half as wide. -/
def interval (mantissa : Nat) (scale : Int) : Interval :=
  let factor := Nat.pow 2 (scale - 2).toNat
  let narrow := mantissa = Nat.pow 2 (precision - 1) ∧ minScale < scale
  { low := (4 * mantissa - if narrow then 1 else 2) * factor
    value := 4 * mantissa * factor
    high := (4 * mantissa + 2) * factor
    unit := Nat.pow 2 (2 - scale).toNat
    closed := mantissa % 2 = 0 }

/-- Whether `digits * 10 ^ exponent` lies in an interval. -/
def Interval.contains (i : Interval) (digits : Nat) (exponent : Int) : Bool :=
  let (num, den) := scaled 10 digits 1 (-exponent)
  let (low, point, high) := (i.low * den, num * i.unit, i.high * den)
  if i.closed then low ≤ point ∧ point ≤ high else low < point ∧ point < high

/-- The point of the decimal grid `10 ^ exponent` that lies in an interval and is nearest to its
value. -/
def Interval.gridPoint? (i : Interval) (exponent : Int) : Option Nat :=
  let (num, den) := scaled 10 i.value i.unit exponent
  let below := num / den
  match i.contains below exponent, i.contains (below + 1) exponent with
  | true, true => some (roundQuotient num den)
  | true, false => some below
  | false, true => some (below + 1)
  | false, false => none

/-- The first grid with a point in the interval, from coarse to fine. -/
def Interval.coarsest (i : Interval) : Nat → Int → Option (Nat × Int)
  | 0, _ => none
  | grids + 1, exponent =>
    match i.gridPoint? exponent with
    | some digits => some (digits, exponent)
    | none => i.coarsest grids (exponent - 1)

/-- The fewest digits that read back to a positive number, with their exponent. Every grid that is
coarser than the number holds none of them; below its leading digit seventeen are enough. -/
def shortest (mantissa : Nat) (scale : Int) : Nat × Int :=
  let i := interval mantissa scale
  let lead : Int := (decimalWidth (i.value / i.unit) : Int) - decimalWidth (i.unit / i.value)
  (i.coarsest 24 (lead + 1)).getD (i.value / i.unit, 0)

/-- Digits without the zeros at their end. -/
def stripZeros (digits : List Char) : List Char :=
  (digits.reverse.dropWhile (· == '0')).reverse

/-- The positional text of `digits * 10 ^ exponent`. -/
def positional (digits : Nat) (exponent : Int) : List Char :=
  let spelled := Nat.toDigits 10 digits
  let kept := stripZeros spelled
  let exponent := exponent + (spelled.length - kept.length : Nat)
  if 0 ≤ exponent then kept ++ List.replicate exponent.toNat '0'
  else
    let places := (-exponent).toNat
    let padded := List.replicate (places + 1 - kept.length) '0' ++ kept
    padded.take (padded.length - places) ++ '.' :: padded.drop (padded.length - places)

/-- The text of a number: no exponent, and no point where no place follows it. -/
def render : Double → String
  | nan => "NaN"
  | infinity negative => if negative then "-inf" else "inf"
  | finite negative mantissa scale =>
    let digits :=
      if mantissa = 0 then ['0']
      else
        let (digits, exponent) := shortest mantissa scale
        positional digits exponent
    String.ofList (if negative then '-' :: digits else digits)

/-! ## Whole numbers -/

/-- The nearest natural number of 64 bits: a half goes up, and what is out of range goes to the
nearer end. What is no number at all is zero. -/
def toWord : Double → UInt64
  | nan => 0
  | infinity negative => if negative then 0 else UInt64.ofNat (UInt64.size - 1)
  | finite negative mantissa scale =>
    if negative then 0
    else
      let (num, den) := scaled 2 mantissa 1 (-scale)
      UInt64.ofNat (min ((2 * num + den) / (2 * den)) (UInt64.size - 1))

/-- Whether a number is zero, of either sign. -/
def isZero : Double → Bool
  | finite _ mantissa _ => mantissa == 0
  | _ => false

end Double

end WalletScan
