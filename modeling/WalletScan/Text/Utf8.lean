/-!
# Texts as bytes

`Utf8.symbols` reads bytes as characters. Bytes that belong to no character are kept apart: a run of
them is as long as it could have been the beginning of a character, and at least one byte. So
`Utf8.lenient` puts one replacement character in place of each run.
-/

set_option autoImplicit false

namespace WalletScan.Utf8

/-- A character, or a number of bytes that belong to none. -/
inductive Symbol where
  | char (c : Char)
  | broken (bytes : Nat)
deriving DecidableEq, Repr

/-- How a character of several bytes begins: the bits of its first byte, how many bytes follow, and
between which bounds the first of them lies. -/
structure Lead where
  bits : Nat
  tails : Nat
  low : Nat
  high : Nat

/-- What a byte says about the character that it begins. The bounds leave out longer forms than
needed, surrogates, and what lies beyond the last code point. -/
def lead? (b : Nat) : Option Lead :=
  if 0xc2 ≤ b ∧ b ≤ 0xdf then some ⟨b - 0xc0, 1, 0x80, 0xbf⟩
  else if b = 0xe0 then some ⟨0, 2, 0xa0, 0xbf⟩
  else if b = 0xed then some ⟨0xd, 2, 0x80, 0x9f⟩
  else if 0xe1 ≤ b ∧ b ≤ 0xef then some ⟨b - 0xe0, 2, 0x80, 0xbf⟩
  else if b = 0xf0 then some ⟨0, 3, 0x90, 0xbf⟩
  else if 0xf1 ≤ b ∧ b ≤ 0xf3 then some ⟨b - 0xf0, 3, 0x80, 0xbf⟩
  else if b = 0xf4 then some ⟨4, 3, 0x80, 0x8f⟩
  else none

/-- The value of as many of the next bytes as continue a character, and how many are missing. -/
def continued (value : Nat) : Nat → Nat → Nat → List UInt8 → Nat × Nat
  | 0, _, _, _ => (value, 0)
  | tails + 1, low, high, b :: rest =>
    if low ≤ b.toNat ∧ b.toNat ≤ high then
      continued (value * 64 + (b.toNat - 0x80)) tails 0x80 0xbf rest
    else (value, tails + 1)
  | tails + 1, _, _, [] => (value, tails + 1)

/-- The first symbol of some bytes, and how many bytes it takes. -/
def firstSymbol (b : UInt8) (rest : List UInt8) : Symbol × Nat :=
  if b < 0x80 then (.char (Char.ofNat b.toNat), 1)
  else
    match lead? b.toNat with
    | none => (.broken 1, 1)
    | some l =>
      match continued l.bits l.tails l.low l.high rest with
      | (value, 0) => (.char (Char.ofNat value), l.tails + 1)
      | (_, missing) => (.broken (l.tails + 1 - missing), l.tails + 1 - missing)

/-- The symbols of some bytes; each takes a byte, so their number is enough fuel. -/
def symbolsWithin : Nat → List UInt8 → List Symbol
  | 0, _ => []
  | _ + 1, [] => []
  | fuel + 1, b :: rest =>
    let (symbol, size) := firstSymbol b rest
    symbol :: symbolsWithin fuel (rest.drop (size - 1))

/-- The symbols of some bytes. -/
def symbols (bytes : List UInt8) : List Symbol := symbolsWithin bytes.length bytes

/-- The character in place of bytes that belong to none. -/
def replacement : Char := '\ufffd'

/-- The characters of some bytes, with replacements. -/
def lenient (bytes : List UInt8) : List Char :=
  (symbols bytes).map fun
    | .char c => c
    | .broken _ => replacement

/-- The bytes of a text. -/
def encode (s : String) : List UInt8 := s.toUTF8.toList

end WalletScan.Utf8
