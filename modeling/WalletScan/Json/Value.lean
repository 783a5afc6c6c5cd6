import WalletScan.Digest.Sha256

/-!
# JSON values and their text

`Value.render` writes a value on one line without blanks; `Value.renderPretty` indents by two
spaces per level. Members keep their order. In a text only the quote, the backslash and the
characters below U+0020 are escaped.
-/

set_option autoImplicit false

namespace WalletScan.Json

/-- A JSON value whose numbers are natural. -/
inductive Value where
  | null
  | bool (b : Bool)
  | number (n : Nat)
  | text (s : String)
  | array (items : List Value)
  | object (members : List (String × Value))
deriving Repr, Inhabited

/-- How a character is written inside a text. -/
def escapedChar (c : Char) : List Char :=
  match c with
  | '"' => ['\\', '"']
  | '\\' => ['\\', '\\']
  | '\x08' => ['\\', 'b']
  | '\x0c' => ['\\', 'f']
  | '\n' => ['\\', 'n']
  | '\r' => ['\\', 'r']
  | '\t' => ['\\', 't']
  | c =>
    if c.toNat < 0x20 then ['\\', 'u', '0', '0', hexDigit (c.toNat / 16), hexDigit (c.toNat % 16)]
    else [c]

/-- A text in quotes. -/
def quotedChars (s : String) : List Char := '"' :: (s.toList.flatMap escapedChar ++ ['"'])

mutual

/-- The characters of a value on one line. -/
def Value.chars : Value → List Char
  | .null => ['n', 'u', 'l', 'l']
  | .bool true => ['t', 'r', 'u', 'e']
  | .bool false => ['f', 'a', 'l', 's', 'e']
  | .number n => Nat.toDigits 10 n
  | .text s => quotedChars s
  | .array [] => ['[', ']']
  | .array (v :: rest) => '[' :: (v.chars ++ itemsChars rest)
  | .object [] => ['\x7b', '\x7d']
  | .object ((k, v) :: rest) => '\x7b' :: (quotedChars k ++ ':' :: (v.chars ++ membersChars rest))

/-- The further items of an array and its closing bracket. -/
def itemsChars : List Value → List Char
  | [] => [']']
  | v :: rest => ',' :: (v.chars ++ itemsChars rest)

/-- The further members of an object and its closing brace. -/
def membersChars : List (String × Value) → List Char
  | [] => ['\x7d']
  | (k, v) :: rest => ',' :: (quotedChars k ++ ':' :: (v.chars ++ membersChars rest))

end

/-- The text of a value on one line. -/
def Value.render (v : Value) : String := String.ofList v.chars

/-- A line break followed by two spaces per level. -/
def newLine (depth : Nat) : List Char := '\n' :: List.replicate (2 * depth) ' '

mutual

/-- The characters of a value, indented, from the given level on. -/
def Value.prettyChars (depth : Nat) : Value → List Char
  | .array (v :: rest) =>
    '[' :: (newLine (depth + 1) ++ v.prettyChars (depth + 1) ++ prettyItems depth rest)
  | .object ((k, v) :: rest) =>
    '\x7b' :: (newLine (depth + 1) ++ quotedChars k ++ ':' :: ' ' :: v.prettyChars (depth + 1)
      ++ prettyMembers depth rest)
  | .array [] => ['[', ']']
  | .object [] => ['\x7b', '\x7d']
  | .null => Value.null.chars
  | .bool b => (Value.bool b).chars
  | .number n => (Value.number n).chars
  | .text s => (Value.text s).chars

/-- The further items of an indented array and its closing bracket. -/
def prettyItems (depth : Nat) : List Value → List Char
  | [] => newLine depth ++ [']']
  | v :: rest =>
    ',' :: (newLine (depth + 1) ++ v.prettyChars (depth + 1) ++ prettyItems depth rest)

/-- The further members of an indented object and its closing brace. -/
def prettyMembers (depth : Nat) : List (String × Value) → List Char
  | [] => newLine depth ++ ['\x7d']
  | (k, v) :: rest =>
    ',' :: (newLine (depth + 1) ++ quotedChars k ++ ':' :: ' ' :: v.prettyChars (depth + 1)
      ++ prettyMembers depth rest)

end

/-- The indented text of a value. -/
def Value.renderPretty (v : Value) : String := String.ofList (v.prettyChars 0)

end WalletScan.Json
