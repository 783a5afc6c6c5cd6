import WalletScan.Text.Utf8

/-!
# Character sets of a text's bytes

The name of a character set says how bytes are read, unless they begin with a byte order mark, which
wins over the name. A name that is not known here stands for UTF-8.
-/

set_option autoImplicit false

namespace WalletScan.Text

/-- How bytes are read as a text. -/
inductive Charset where
  | utf8
  /-- One byte is one character of a western European language. -/
  | western
  /-- Units of two bytes; `bigFirst` says that the higher one comes first. -/
  | utf16 (bigFirst : Bool)
deriving DecidableEq, Repr

namespace Charset

/-- The names of the western character set. -/
def westernNames : List String :=
  [ "ansi_x3.4-1968", "ascii", "cp1252", "cp819", "csisolatin1", "ibm819", "iso-8859-1",
    "iso-ir-100", "iso8859-1", "iso88591", "iso_8859-1", "iso_8859-1:1987", "l1", "latin1",
    "us-ascii", "windows-1252", "x-cp1252" ]

/-- The names of UTF-16 with the lower byte first. -/
def utf16Names : List String :=
  ["csunicode", "iso-10646-ucs-2", "ucs-2", "unicode", "unicodefeff", "utf-16", "utf-16le"]

/-- The character set of a name, in letters of either case. -/
def ofName (name : String) : Charset :=
  let name := name.toLower
  if westernNames.contains name then .western
  else if utf16Names.contains name then .utf16 false
  else if name = "utf-16be" ∨ name = "unicodefffe" then .utf16 true
  else .utf8

/-- The western characters from 0x80 to 0x9f. -/
def westernExtras : List Nat :=
  [ 0x20ac, 0x81, 0x201a, 0x192, 0x201e, 0x2026, 0x2020, 0x2021, 0x2c6, 0x2030, 0x160, 0x2039,
    0x152, 0x8d, 0x17d, 0x8f, 0x90, 0x2018, 0x2019, 0x201c, 0x201d, 0x2022, 0x2013, 0x2014, 0x2dc,
    0x2122, 0x161, 0x203a, 0x153, 0x9d, 0x17e, 0x178 ]

/-- The western character of a byte. -/
def westernChar (b : UInt8) : Char :=
  let n := b.toNat
  Char.ofNat (if 0x80 ≤ n ∧ n < 0xa0 then westernExtras.getD (n - 0x80) n else n)

/-- The units of two bytes; an odd byte at the end is no unit. -/
def units (bigFirst : Bool) : List UInt8 → List (Option Nat)
  | a :: b :: rest =>
    some (if bigFirst then a.toNat * 256 + b.toNat else b.toNat * 256 + a.toNat)
      :: units bigFirst rest
  | [_] => [none]
  | [] => []

/-- The characters of units; a surrogate without its partner is replaced. -/
def unitChars : List (Option Nat) → List Char
  | [] => []
  | none :: rest => Utf8.replacement :: unitChars rest
  | some high :: some low :: rest =>
    if 0xd800 ≤ high ∧ high < 0xdc00 ∧ 0xdc00 ≤ low ∧ low < 0xe000 then
      Char.ofNat ((high - 0xd800) * 1024 + (low - 0xdc00) + 0x10000) :: unitChars rest
    else if 0xd800 ≤ high ∧ high < 0xe000 then Utf8.replacement :: unitChars (some low :: rest)
    else Char.ofNat high :: unitChars (some low :: rest)
  | some unit :: rest =>
    (if 0xd800 ≤ unit ∧ unit < 0xe000 then Utf8.replacement else Char.ofNat unit) :: unitChars rest

/-- The characters of some bytes without a byte order mark. -/
def read (set : Charset) (bytes : List UInt8) : List Char :=
  match set with
  | utf8 => Utf8.lenient bytes
  | western => bytes.map westernChar
  | utf16 bigFirst => unitChars (units bigFirst bytes)

/-- The text of some bytes. -/
def decode (set : Charset) (bytes : List UInt8) : String :=
  String.ofList <|
    match bytes with
    | 0xef :: 0xbb :: 0xbf :: rest => read .utf8 rest
    | 0xfe :: 0xff :: rest => read (.utf16 true) rest
    | 0xff :: 0xfe :: rest => read (.utf16 false) rest
    | _ => set.read bytes

end Charset

end WalletScan.Text
