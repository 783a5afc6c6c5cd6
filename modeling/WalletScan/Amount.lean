import WalletScan.Decimal

/-!
# Amounts as decimal text

A chain counts an asset in its smallest unit. `Amount.render` writes such a count in whole units:
the digits before the point, then as many places as are needed and no trailing zero.

Counts are divided as numbers of 128 bits. Where a whole unit takes more bits than that, no count
reaches it, and nothing is divided.

Specification: section 11, the amounts of balances (`format_amount`).
-/

set_option autoImplicit false

namespace WalletScan.Amount

/-- A number of 128 bits. -/
abbrev Wide := BitVec 128

/-- Ten times a number, unless it takes more than 128 bits. -/
def tenfold? (n : Wide) : Option Wide :=
  if n.umulOverflow 10 then none else some (n * 10)

/-- A number multiplied by ten as often as told, unless it comes to take more than 128 bits. -/
def scaled? : Nat → Wide → Option Wide
  | 0, n => some n
  | places + 1, n => (tenfold? n).bind (scaled? places)

/-- How many smallest units make up a whole one, unless that takes more than 128 bits. -/
def unit? (decimals : UInt32) : Option Wide := scaled? decimals.toNat 1

/-- The whole units and the remaining smallest units of a count. -/
def split (amount : UInt64) (decimals : UInt32) : Nat × Nat :=
  let count : Wide := amount.toBitVec.setWidth 128
  match unit? decimals with
  | some unit => ((count / unit).toNat, (count % unit).toNat)
  | none => (0, count.toNat)

/-- A list without the zeros at its end. -/
def trimZeros (digits : List Char) : List Char :=
  (digits.reverse.dropWhile (· = '0')).reverse

/-- A count of smallest units, of which `10 ^ decimals` make one whole unit, as a decimal. -/
def render (amount : UInt64) (decimals : UInt32) : String :=
  let (whole, fraction) := split amount decimals
  let wholeDigits := Nat.toDigits 10 whole
  if fraction = 0 then String.ofList wholeDigits
  else
    String.ofList (wholeDigits ++ '.' :: trimZeros (paddedDigits decimals.toNat fraction))

end WalletScan.Amount
