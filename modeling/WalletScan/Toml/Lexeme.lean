/-!
# Words of a TOML document

Blanks, line ends, comments, names and texts. A reader takes what it needs from the front of the
document and returns the rest, or it refuses.
-/

set_option autoImplicit false

namespace WalletScan.Toml

/-- Reads something from the front of a document. -/
abbrev Reader (α : Type) := List Char → Option (α × List Char)

/-- Blanks within a line. -/
def isBlank (c : Char) : Bool := c == ' ' || c == '\t'

/-- Whether a character may stand in a comment: no control character but the tab. -/
def isPrintable (c : Char) : Bool := c == '\t' || (decide (' ' ≤ c) && c != '\x7f')

/-- The rest of the line after its blanks. -/
def skipBlanks (s : List Char) : List Char := s.dropWhile isBlank

/-- Reads the end of a line; a carriage return needs a line feed after it. -/
def lineBreak? : List Char → Option (List Char)
  | '\n' :: rest => some rest
  | '\r' :: '\n' :: rest => some rest
  | _ => none

/-- The rest of the line after a comment, if one starts here. -/
def skipComment : List Char → List Char
  | '#' :: rest => rest.dropWhile isPrintable
  | s => s

/-- Reads what may follow the last word of a line: blanks, a comment, and the end of the line or of
the document. -/
def endOfLine? (s : List Char) : Option (List Char) :=
  match skipComment (skipBlanks s) with
  | [] => some []
  | s => lineBreak? s

/-- The rest of the document after blanks, comments and line ends. Every line takes a character, so
the length of the document is enough fuel. -/
def skipLines : Nat → List Char → List Char
  | 0, s => s
  | fuel + 1, s =>
    let s := skipComment (skipBlanks s)
    match lineBreak? s with
    | some rest => skipLines fuel rest
    | none => s

/-! ## Texts -/

/-- The value of some hexadecimal digits. -/
def hexValue? (digits : List Char) : Option Nat :=
  digits.foldlM (fun n c =>
    if c.isDigit then some (n * 16 + (c.toNat - '0'.toNat))
    else if 'a' ≤ c ∧ c ≤ 'f' then some (n * 16 + (c.toNat - 'a'.toNat + 10))
    else if 'A' ≤ c ∧ c ≤ 'F' then some (n * 16 + (c.toNat - 'A'.toNat + 10))
    else none) 0

/-- Reads the character that a number of hexadecimal digits names; surrogates name none. -/
def readCodePoint (width : Nat) : Reader Char := fun s => do
  let digits := s.take width
  let n ← hexValue? digits
  if digits.length = width ∧ n.isValidChar then return (Char.ofNat n, s.drop width) else none

/-- Reads an escape after its backslash. -/
def readEscape : Reader Char
  | 'b' :: rest => some ('\x08', rest)
  | 'f' :: rest => some ('\x0c', rest)
  | 'n' :: rest => some ('\n', rest)
  | 'r' :: rest => some ('\r', rest)
  | 't' :: rest => some ('\t', rest)
  | '\\' :: rest => some ('\\', rest)
  | '"' :: rest => some ('"', rest)
  | 'u' :: rest => readCodePoint 4 rest
  | 'U' :: rest => readCodePoint 8 rest
  | _ => none

/-- Reads a text of one line up to its closing quote. Every step takes a character. -/
def readLine : Nat → Reader (List Char)
  | 0, _ => none
  | _ + 1, '"' :: rest => some ([], rest)
  | fuel + 1, '\\' :: rest => do
    let (c, rest) ← readEscape rest
    let (cs, rest) ← readLine fuel rest
    return (c :: cs, rest)
  | fuel + 1, c :: rest =>
    if isPrintable c then do
      let (cs, rest) ← readLine fuel rest
      return (c :: cs, rest)
    else none
  | _ + 1, [] => none

/-- Reads a text of one line without escapes up to its closing quote. -/
def readPlainLine (s : List Char) : Option (List Char × List Char) :=
  let body := s.takeWhile fun c => isPrintable c && c != '\''
  match s.drop body.length with
  | '\'' :: rest => some (body, rest)
  | _ => none

/-- The rest after blanks and line ends. -/
def skipSpace : Nat → List Char → List Char
  | 0, s => s
  | fuel + 1, s =>
    match lineBreak? (skipBlanks s) with
    | some rest => skipSpace fuel rest
    | none => skipBlanks s

/-- Reads a text of several lines up to its three closing quotes. Up to two quotes may stand right
before them, so a run of three to five quotes ends the text. Line ends are read as line feeds, and a
backslash at the end of a line joins it with the next text. -/
def readLines (quote : Char) (escapes : Bool) : Nat → Reader (List Char)
  | 0, _ => none
  | fuel + 1, s =>
    let run := (s.takeWhile (· == quote)).length
    if 3 ≤ run then
      let ending := min run 5
      some (List.replicate (ending - 3) quote, s.drop ending)
    else
      let one (c : Char) (rest : List Char) : Option (List Char × List Char) := do
        let (cs, rest) ← readLines quote escapes fuel rest
        return (c :: cs, rest)
      match lineBreak? s, s with
      | some rest, _ => one '\n' rest
      | none, '\\' :: rest =>
        if escapes then
          match lineBreak? (skipBlanks rest) with
          | some below => readLines quote escapes fuel (skipSpace below.length below)
          | none => do
            let (c, rest) ← readEscape rest
            one c rest
        else one '\\' rest
      | none, c :: rest => if isPrintable c then one c rest else none
      | none, [] => none

/-- Reads the lines of a text after its three opening quotes, where a first line end is dropped. -/
def readBlock (quote : Char) (escapes : Bool) : Reader (List Char) := fun s =>
  let s := (lineBreak? s).getD s
  readLines quote escapes (s.length + 1) s

/-- Reads a text at its opening quote. -/
def readText : Reader String := fun s => do
  let (cs, rest) ←
    match s with
    | '"' :: '"' :: '"' :: rest => readBlock '"' true rest
    | '\'' :: '\'' :: '\'' :: rest => readBlock '\'' false rest
    | '"' :: rest => readLine (rest.length + 1) rest
    | '\'' :: rest => readPlainLine rest
    | _ => none
  return (String.ofList cs, rest)

/-! ## Names -/

/-- The characters of a name without quotes. -/
def isNameChar (c : Char) : Bool := c.isAlphanum || c == '_' || c == '-'

/-- Reads one name; in quotes it is a text of one line. -/
def readName : Reader String := fun s => do
  match s with
  | '"' :: rest =>
    let (cs, rest) ← readLine (rest.length + 1) rest
    return (String.ofList cs, rest)
  | '\'' :: rest =>
    let (cs, rest) ← readPlainLine rest
    return (String.ofList cs, rest)
  | s =>
    match s.takeWhile isNameChar with
    | [] => none
    | name => return (String.ofList name, s.dropWhile isNameChar)

/-- How deep names, lists and tables may be nested. -/
def maxDepth : Nat := 80

/-- Reads names that are joined by points. -/
def readNames : Nat → Reader (List String)
  | 0, _ => none
  | fuel + 1, s => do
    let (name, rest) ← readName (skipBlanks s)
    match skipBlanks rest with
    | '.' :: rest =>
      let (names, rest) ← readNames fuel rest
      return (name :: names, rest)
    | rest => return ([name], rest)

/-- Reads a key: fewer names than the depth allows, joined by points. -/
def readKey : Reader (List String) := readNames (maxDepth - 1)

end WalletScan.Toml
