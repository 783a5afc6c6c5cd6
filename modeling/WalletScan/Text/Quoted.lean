import WalletScan.Text.Shapeless

/-!
# Values between double quotes

A value that is empty or holds white space is written between double quotes, so that its ends can be
told. Inside, the quote, the backslash and every character without a shape are escaped; of all white
space only the space itself is left as it is.

White space are the characters of every script that stand for nothing but space: the blanks, the
line ends, and the spaces of fixed width. There are twenty-five of them.
-/

set_option autoImplicit false

namespace WalletScan.Text

/-- The ranges of the code points of white space, in ascending order. -/
def blankRanges : List (Nat × Nat) :=
  [ (0x9, 0xd), (0x20, 0x20), (0x85, 0x85), (0xa0, 0xa0), (0x1680, 0x1680), (0x2000, 0x200a),
    (0x2028, 0x2029), (0x202f, 0x202f), (0x205f, 0x205f), (0x3000, 0x3000) ]

/-- Whether a character is white space. -/
def isBlank (c : Char) : Bool :=
  blankRanges.any fun r => decide (r.1 ≤ c.toNat) && decide (c.toNat ≤ r.2)

/-- How a character is written between quotes. -/
def escapedChar (c : Char) : List Char :=
  match c with
  | '\x00' => ['\\', '0']
  | '\t' => ['\\', 't']
  | '\r' => ['\\', 'r']
  | '\n' => ['\\', 'n']
  | '\\' => ['\\', '\\']
  | '"' => ['\\', '"']
  | c => if isShapeless c then '\\' :: 'u' :: '\x7b' :: Nat.toDigits 16 c.toNat ++ ['\x7d'] else [c]

/-- A text between quotes. -/
def quoted (s : List Char) : List Char := '"' :: s.flatMap escapedChar ++ ['"']

/-- Whether a text can only be told from what surrounds it between quotes. -/
def needsQuotes (s : List Char) : Bool := s.isEmpty || s.any isBlank

/-- A text, between quotes if it needs them. -/
def delimited (s : List Char) : List Char := if needsQuotes s then quoted s else s

end WalletScan.Text
