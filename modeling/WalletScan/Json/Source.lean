import WalletScan.Json.Value

/-!
# Reading JSON: characters, numerals and texts

A source is the list of symbols that are still to be read. A symbol is a character, or `none` for a
byte that belongs to no character. A reader takes what it needs from the front of a source and
returns the rest, or it answers the first fault met from left to right:

* `Fault.malformed` — a symbol stands where the grammar allows none of its kind;
* `Fault.mismatched` — the value is well formed but not what the reader expects;
* `Fault.cutShort` — the source ends inside a value.
-/

set_option autoImplicit false

namespace WalletScan.Json

/-- The symbols still to be read. -/
abbrev Source := List (Option Char)

/-- The source of a text. -/
def Source.ofString (s : String) : Source := s.toList.map some

/-- The first fault met. -/
inductive Fault where
  | malformed
  | mismatched
  | cutShort
deriving DecidableEq, Repr

/-- Reads a value from the front of a source. -/
abbrev Reader (α : Type) := Source → Except Fault (α × Source)

/-- Whether a character may stand between the parts of a value. -/
def isBlank (c : Char) : Bool := c == ' ' || c == '\n' || c == '\t' || c == '\r'

/-- The source after its leading blanks. -/
def skipBlanks (s : Source) : Source :=
  s.dropWhile fun
    | some c => isBlank c
    | none => false

/-- Reads the given characters one by one. -/
def readWord : List Char → Source → Except Fault Source
  | [], s => .ok s
  | _ :: _, [] => .error .cutShort
  | c :: word, x :: rest => if x = some c then readWord word rest else .error .malformed

/-- The value of a decimal digit. -/
def digitValue (c : Char) : Nat := c.toNat - '0'.toNat

/-- The leading decimal digits of a source. -/
def leadingDigits : Source → List Char
  | some c :: rest => if c.isDigit then c :: leadingDigits rest else []
  | _ => []

/-! ## Numerals -/

/-- What a numeral stands for. -/
inductive Numeral where
  /-- A natural number below `2 ^ 64`, written without sign, fraction and exponent. -/
  | natural (n : Nat)
  /-- Any other number. -/
  | other
deriving DecidableEq, Repr

/-- The bound of the numbers that are kept exactly. -/
def wordBound : Nat := UInt64.size

/-- Appends digits to a number as long as it stays below `2 ^ 64`; the first digit that does not
fit and all that follow it are only counted. -/
def appendDigits : Nat → List Char → Nat × Nat
  | n, [] => (n, 0)
  | n, c :: rest =>
    let next := n * 10 + digitValue c
    if next < wordBound then appendDigits next rest else (n, rest.length + 1)

/-- A number rounded to 53 binary digits, a half going to the even neighbour. -/
def roundBinary (n : Nat) : Nat :=
  let excess := n.log2 + 1 - 53
  let unit := Nat.pow 2 excess
  let whole := n / unit
  let double := 2 * (n % unit)
  let up := decide (unit < double) || (double == unit && whole % 2 == 1)
  (if up then whole + 1 else whole) * unit

/-- Whether `digits * 10 ^ exponent` rounds to no finite number of double precision. -/
def isTooLarge (digits : Nat) (exponent : Int) : Bool :=
  if digits = 0 ∨ exponent < 0 then false
  else if exponent > 308 then true
  else decide (Nat.pow 2 1024 - Nat.pow 2 970
    ≤ roundBinary digits * roundBinary (Nat.pow 10 exponent.toNat))

/-- The largest exponent that a numeral may spell. -/
def maxExponent : Nat := 2147483647

/-- Reads the exponent of a numeral, after its letter. -/
def readExponent (digits : Nat) (scale : Int) (s : Source) : Except Fault (Numeral × Source) :=
  let (negative, s) :=
    match s with
    | some '+' :: rest => (false, rest)
    | some '-' :: rest => (true, rest)
    | _ => (false, s)
  match s with
  | [] => .error .cutShort
  | _ :: _ =>
    let spelled := leadingDigits s
    if spelled.isEmpty then .error .malformed
    else
      let rest := s.drop spelled.length
      let power := spelled.foldl (fun n c => n * 10 + digitValue c) 0
      if power > maxExponent then
        if digits ≠ 0 ∧ ¬ negative then .error .malformed else .ok (.other, rest)
      else
        let exponent : Int := if negative then scale - power else scale + power
        if isTooLarge digits exponent then .error .malformed else .ok (.other, rest)

/-- Reads what follows the digits of a numeral that is no natural number. -/
def readScale (digits : Nat) (scale : Int) (s : Source) : Except Fault (Numeral × Source) :=
  match s with
  | some 'e' :: rest => readExponent digits scale rest
  | some 'E' :: rest => readExponent digits scale rest
  | _ => if isTooLarge digits scale then .error .malformed else .ok (.other, s)

/-- Reads the fraction of a numeral, after its point. -/
def readFraction (digits : Nat) (scale : Int) (s : Source) : Except Fault (Numeral × Source) :=
  let spelled := leadingDigits s
  let rest := s.drop spelled.length
  if spelled.isEmpty then
    match rest with
    | [] => .error .cutShort
    | _ :: _ => .error .malformed
  else
    let (digits, dropped) := appendDigits digits spelled
    readScale digits (scale - (spelled.length - dropped : Nat)) rest

/-- Reads a numeral after its sign. -/
def readUnsigned (negative : Bool) (s : Source) : Except Fault (Numeral × Source) :=
  match s with
  | [] => .error .cutShort
  | _ :: _ =>
    let spelled := leadingDigits s
    let rest := s.drop spelled.length
    match spelled with
    | [] => .error .malformed
    | '0' :: _ :: _ => .error .malformed
    | _ :: _ =>
      let (n, dropped) := appendDigits 0 spelled
      match rest with
      | some '.' :: after => readFraction n dropped after
      | some 'e' :: after => readExponent n dropped after
      | some 'E' :: after => readExponent n dropped after
      | _ =>
        if dropped ≠ 0 then readScale n dropped rest
        else if negative then .ok (.other, rest)
        else .ok (.natural n, rest)

/-- Reads a numeral at its first symbol. -/
def readNumeral : Reader Numeral
  | some '-' :: rest => readUnsigned true rest
  | s => readUnsigned false s

/-! ## Texts -/

/-- The value of a hexadecimal digit of either case. -/
def hexValue? (c : Char) : Option Nat :=
  if c.isDigit then some (c.toNat - '0'.toNat)
  else if 'a' ≤ c ∧ c ≤ 'f' then some (c.toNat - 'a'.toNat + 10)
  else if 'A' ≤ c ∧ c ≤ 'F' then some (c.toNat - 'A'.toNat + 10)
  else none

/-- How many bytes a symbol takes. -/
def symbolSize : Option Char → Nat
  | some c => c.utf8Size
  | none => 1

/-- The four digits of an escape. Fewer than four bytes, whatever they are, are cut short. -/
def readHex4 : Reader Nat
  | some a :: some b :: some c :: some d :: rest =>
    match hexValue? a, hexValue? b, hexValue? c, hexValue? d with
    | some a, some b, some c, some d => .ok (((a * 16 + b) * 16 + c) * 16 + d, rest)
    | _, _, _, _ => .error .malformed
  | s =>
    let size := (s.take 4).foldl (fun n symbol => n + symbolSize symbol) 0
    .error (if size < 4 then .cutShort else .malformed)

/-- The character of an escape of four digits; a leading surrogate needs its partner. -/
def readUnicodeEscape (s : Source) : Except Fault (Char × Source) := do
  let (high, rest) ← readHex4 s
  if 0xDC00 ≤ high ∧ high ≤ 0xDFFF then throw .malformed
  else if high < 0xD800 ∨ 0xDBFF < high then return (Char.ofNat high, rest)
  else
    let rest ← readWord ['\\', 'u'] rest
    let (low, rest) ← readHex4 rest
    if low < 0xDC00 ∨ 0xDFFF < low then throw .malformed
    else return (Char.ofNat ((high - 0xD800) * 1024 + (low - 0xDC00) + 0x10000), rest)

/-- The character that a letter after a backslash stands for. -/
def simpleEscape? : Char → Option Char
  | '"' => some '"'
  | '\\' => some '\\'
  | '/' => some '/'
  | 'b' => some '\x08'
  | 'f' => some '\x0c'
  | 'n' => some '\n'
  | 'r' => some '\r'
  | 't' => some '\t'
  | _ => none

/-- Reads a text up to its closing quote. Every step uses up a symbol, so the length of the source
is enough fuel. -/
def readTextBody : Nat → Source → Except Fault (List Char × Source)
  | 0, _ => .error .cutShort
  | _ + 1, [] => .error .cutShort
  | _ + 1, none :: _ => .error .malformed
  | _ + 1, some '"' :: rest => .ok ([], rest)
  | fuel + 1, some '\\' :: some 'u' :: rest => do
    let (c, rest) ← readUnicodeEscape rest
    let (cs, rest) ← readTextBody fuel rest
    return (c :: cs, rest)
  | _ + 1, [some '\\'] => .error .cutShort
  | fuel + 1, some '\\' :: x :: rest =>
    match x.bind simpleEscape? with
    | none => .error .malformed
    | some c => do
      let (cs, rest) ← readTextBody fuel rest
      return (c :: cs, rest)
  | fuel + 1, some c :: rest =>
    if c.toNat < 0x20 then .error .malformed
    else do
      let (cs, rest) ← readTextBody fuel rest
      return (c :: cs, rest)

/-- Reads a text after its opening quote. -/
def readText : Reader String := fun s => do
  let (cs, rest) ← readTextBody (s.length + 1) s
  return (String.ofList cs, rest)

/-! ## Skipping a value -/

/-- Skips a text after its opening quote. Escapes may name lone surrogates, and any byte may stand
in it. -/
def skipText : Nat → Source → Except Fault Source
  | 0, _ => .error .cutShort
  | _ + 1, [] => .error .cutShort
  | fuel + 1, none :: rest => skipText fuel rest
  | _ + 1, some '"' :: rest => .ok rest
  | fuel + 1, some '\\' :: some 'u' :: rest => do
    let (_, rest) ← readHex4 rest
    skipText fuel rest
  | _ + 1, [some '\\'] => .error .cutShort
  | fuel + 1, some '\\' :: x :: rest =>
    if (x.bind simpleEscape?).isSome then skipText fuel rest else .error .malformed
  | fuel + 1, some c :: rest => if c.toNat < 0x20 then .error .malformed else skipText fuel rest

/-- Skips an exponent after its letter. -/
def skipExponent (s : Source) : Except Fault Source :=
  let s :=
    match s with
    | some '+' :: rest => rest
    | some '-' :: rest => rest
    | _ => s
  let spelled := leadingDigits s
  if spelled.isEmpty then .error .malformed else .ok (s.drop spelled.length)

/-- Skips an exponent, if there is one. -/
def skipScale : Source → Except Fault Source
  | some 'e' :: rest => skipExponent rest
  | some 'E' :: rest => skipExponent rest
  | s => .ok s

/-- Skips a numeral after its sign; here a missing digit is malformed even at the end. -/
def skipUnsigned (s : Source) : Except Fault Source :=
  let spelled := leadingDigits s
  match spelled, s.drop spelled.length with
  | [], _ => .error .malformed
  | '0' :: _ :: _, _ => .error .malformed
  | _ :: _, some '.' :: after =>
    let places := leadingDigits after
    if places.isEmpty then .error .malformed else skipScale (after.drop places.length)
  | _ :: _, rest => skipScale rest

mutual

/-- Skips a value of any kind. Every call uses up a symbol or hands over to one that does. -/
def skipValue : Nat → Source → Except Fault Source
  | 0, _ => .error .cutShort
  | fuel + 1, s =>
    match skipBlanks s with
    | [] => .error .cutShort
    | some 'n' :: rest => readWord ['u', 'l', 'l'] rest
    | some 't' :: rest => readWord ['r', 'u', 'e'] rest
    | some 'f' :: rest => readWord ['a', 'l', 's', 'e'] rest
    | some '"' :: rest => skipText (rest.length + 1) rest
    | some '-' :: rest => skipUnsigned rest
    | some '[' :: rest => skipItems fuel true rest
    | some '\x7b' :: rest => skipMembers fuel true rest
    | some c :: rest => if c.isDigit then skipUnsigned (some c :: rest) else .error .malformed
    | none :: _ => .error .malformed

/-- Skips the items of an array and its closing bracket. -/
def skipItems : Nat → Bool → Source → Except Fault Source
  | 0, _, _ => .error .cutShort
  | fuel + 1, first, s =>
    match skipBlanks s with
    | [] => .error .cutShort
    | some ']' :: rest => .ok rest
    | x :: rest =>
      if first then do
        let rest ← skipValue fuel (x :: rest)
        skipItems fuel false rest
      else if x = some ',' then do
        let rest ← skipValue fuel rest
        skipItems fuel false rest
      else .error .malformed

/-- Skips the members of an object and its closing brace. -/
def skipMembers : Nat → Bool → Source → Except Fault Source
  | 0, _, _ => .error .cutShort
  | fuel + 1, first, s =>
    match skipBlanks s with
    | [] => .error .cutShort
    | some '\x7d' :: rest => .ok rest
    | x :: rest =>
      if first then skipMember fuel (x :: rest)
      else if x = some ',' then skipMember fuel rest
      else .error .malformed

/-- Skips a key, its colon and its value, and then the members that follow. -/
def skipMember : Nat → Source → Except Fault Source
  | 0, _ => .error .cutShort
  | fuel + 1, s =>
    match skipBlanks s with
    | [] => .error .cutShort
    | some '"' :: rest => do
      let rest ← skipText (rest.length + 1) rest
      match skipBlanks rest with
      | [] => .error .cutShort
      | some ':' :: rest =>
        let rest ← skipValue fuel rest
        skipMembers fuel false rest
      | _ => .error .malformed
    | _ => .error .malformed

end

/-- Skips a value whose kind does not matter. -/
def skip (s : Source) : Except Fault Source := skipValue (2 * s.length + 2) s

end WalletScan.Json
