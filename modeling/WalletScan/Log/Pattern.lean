import WalletScan.Log.Record
import WalletScan.Text.Quoted

/-!
# Patterns and lines of the log

A pattern is text with fields in braces: a name, arguments in parentheses, and after a colon how to
lay the field out. `{h({l:5})}` is the level, filled up to five characters, in the colour of the
level. A character that is part of this notation stands for itself when it is doubled or follows a
backslash.

* `Pattern.parse` — the pieces of a pattern; what is wrong in it becomes a piece that says so;
* `Pattern.marks` — what a pattern writes for a record: characters, and changes of colour;
* `lineMarks` — a line: what a pattern writes, then every named value as ` name=value`, and one line
  feed. The name is in colour, and a value stands between quotes if it is empty or holds white
  space, so that no value can break the line.

Specification: section 10.2 (`structured_console`).
-/

set_option autoImplicit false

namespace WalletScan.Log

/-- The colours of the log. -/
inductive Colour where
  | red
  | yellow
  | green
  | cyan
deriving DecidableEq, Repr

/-- What is written: a character, or a change of the colour of all that follows. -/
inductive Mark where
  | char (c : Char)
  | paint (colour : Option Colour)
deriving DecidableEq, Repr

/-- A text as marks. -/
def Mark.ofChars (s : List Char) : List Mark := s.map .char

/-- How a field is laid out. -/
structure Layout where
  fill : Char
  /-- Whether the field is filled up before its text, and not after it. -/
  atRight : Bool
  least : Option Nat
  most : Option Nat
deriving DecidableEq, Repr

/-- A part of a pattern. -/
inductive Piece where
  | text (s : List Char)
  | field (name : String) (arguments : List (List Piece)) (layout : Layout)
  | fault (message : String)
deriving Inhabited

namespace Pattern

/-! ## Reading -/

/-- The characters of the notation. -/
def isReserved (c : Char) : Bool := c == '\x7b' || c == '\x7d' || c == '(' || c == ')' || c == '\\'

/-- Whether a name may begin with a character. -/
def isNameStart (c : Char) : Bool := c.isAlpha || c == '_' || decide ('\x7f' < c)

/-- Whether a name may go on with a character. -/
def isNameChar (c : Char) : Bool := isNameStart c || c.isDigit

/-- Reads a name, which may be empty. -/
def readName : List Char → String × List Char
  | c :: rest =>
    if isNameStart c then
      (String.ofList (c :: rest.takeWhile isNameChar), rest.dropWhile isNameChar)
    else ("", c :: rest)
  | [] => ("", [])

/-- Reads a number, if one stands here. -/
def readNumber (s : List Char) : Option Nat × List Char :=
  match s.takeWhile Char.isDigit with
  | [] => (none, s)
  | digits =>
    (some (digits.foldl (fun n c => n * 10 + (c.toNat - '0'.toNat)) 0), s.dropWhile Char.isDigit)

/-- The layout of a field that says nothing about it. -/
def plainLayout : Layout := ⟨' ', false, none, none⟩

/-- Reads a layout, if a colon stands here. -/
def readLayout : List Char → Layout × List Char
  | ':' :: s =>
    let (fill, s) :=
      match s with
      | c :: '<' :: rest => (c, '<' :: rest)
      | c :: '>' :: rest => (c, '>' :: rest)
      | s => (' ', s)
    let (atRight, s) :=
      match s with
      | '<' :: rest => (false, rest)
      | '>' :: rest => (true, rest)
      | s => (false, s)
    let (least, s) := readNumber s
    match s with
    | '.' :: rest =>
      let (most, rest) := readNumber rest
      (⟨fill, atRight, least, most⟩, rest)
    | s => (⟨fill, atRight, least, none⟩, s)
  | s => (plainLayout, s)

mutual

/-- Reads a piece. Every call takes a character or hands over to one that does. -/
def readPiece : Nat → List Char → Piece × List Char
  | 0, s => (.text s, [])
  | fuel + 1, s =>
    match s with
    | '\x7b' :: '\x7b' :: rest => (.text ['\x7b'], rest)
    | '\x7d' :: '\x7d' :: rest => (.text ['\x7d'], rest)
    | '(' :: '(' :: rest => (.text ['('], rest)
    | ')' :: ')' :: rest => (.text [')'], rest)
    | '\x7b' :: rest =>
      match readField fuel rest with
      | (piece, '\x7d' :: rest) => (piece, rest)
      | _ => (.fault "expected '\x7d'", [])
    | '\x7d' :: rest => (.fault "unmatched '\x7d'", rest)
    | '(' :: rest => (.fault "unexpected '('", rest)
    | ')' :: rest => (.fault "unexpected ')'", rest)
    | '\\' :: c :: rest =>
      if isReserved c then (.text [c], rest) else (.fault "unexpected '\\'", c :: rest)
    | ['\\'] => (.fault "unexpected '\\'", [])
    | s => (.text (s.takeWhile (!isReserved ·)), s.dropWhile (!isReserved ·))

/-- Reads a field after its opening brace. -/
def readField : Nat → List Char → Piece × List Char
  | 0, s => (.fault "expected '\x7d'", s)
  | fuel + 1, s =>
    let (name, s) := readName s
    match readArguments fuel s with
    | (.error message, s) => (.fault message, s)
    | (.ok arguments, s) =>
      let (layout, s) := readLayout s
      (.field name arguments layout, s)

/-- Reads the arguments of a field. -/
def readArguments : Nat → List Char → Except String (List (List Piece)) × List Char
  | 0, s => (.ok [], s)
  | fuel + 1, s =>
    match s with
    | '(' :: rest =>
      match readArgument fuel rest with
      | (.error message, s) => (.error message, s)
      | (.ok argument, s) =>
        match readArguments fuel s with
        | (.error message, s) => (.error message, s)
        | (.ok arguments, s) => (.ok (argument :: arguments), s)
    | s => (.ok [], s)

/-- Reads the pieces of an argument and its closing parenthesis. -/
def readArgument : Nat → List Char → Except String (List Piece) × List Char
  | 0, s => (.error "unclosed '('", s)
  | fuel + 1, s =>
    match s with
    | [] => (.error "unclosed '('", [])
    | ')' :: rest => (.ok [], rest)
    | s =>
      let (piece, s) := readPiece fuel s
      match readArgument fuel s with
      | (.error message, s) => (.error message, s)
      | (.ok pieces, s) => (.ok (piece :: pieces), s)

end

/-- The pieces of a pattern. -/
def pieces : Nat → List Char → List Piece
  | 0, _ => []
  | _ + 1, [] => []
  | fuel + 1, c :: rest =>
    let (piece, s) := readPiece (3 * (rest.length + 2)) (c :: rest)
    piece :: pieces fuel s

/-- Reads a pattern. -/
def parse (pattern : String) : List Piece :=
  let s := pattern.toList
  pieces (s.length + 1) s

/-! ## Writing -/

/-- A text of some characters at most and at least. Text before which a field is filled up may be
cut together with what fills it. -/
def arrange (layout : Layout) (body : List Mark) : List Mark :=
  let isChar (m : Mark) : Bool :=
    match m with
    | .char _ => true
    | .paint _ => false
  let rec cut (n : Nat) : List Mark → List Mark
    | [] => []
    | .paint c :: rest => .paint c :: cut n rest
    | .char c :: rest =>
      match n with
      | 0 => cut 0 rest
      | n + 1 => .char c :: cut n rest
  let missing := layout.least.getD 0 - (body.filter isChar).length
  let filling := List.replicate missing (Mark.char layout.fill)
  let limited (ms : List Mark) : List Mark :=
    match layout.most with
    | none => ms
    | some most => cut most ms
  if layout.atRight then limited (filling ++ body) else limited body ++ filling

/-- The colour of a level; the one that is of use to developers alone has none. -/
def colourOf : Level → Option Colour
  | .error => some .red
  | .warn => some .yellow
  | .info => some .green
  | .debug => none
  | .trace => some .cyan

/-- What a fault of a pattern writes. -/
def faultChars (message : String) : List Char :=
  "\x7bERROR: ".toList ++ message.toList ++ ['\x7d']

/-- The text of the argument that says how a moment is written. -/
def momentPattern : List Piece → List Char
  | [] => []
  | .text s :: rest => s ++ momentPattern rest
  | .field _ _ _ :: rest => faultChars "unexpected formatter" ++ momentPattern rest
  | .fault message :: rest => faultChars message ++ momentPattern rest

/-- A moment written as letters after percent signs say. -/
def momentChars (now : Moment) : List Char → List Char
  | '%' :: letter :: rest =>
    let c := now.civil
    let written : List Char :=
      match letter with
      | 'Y' => Moment.yearChars c.year
      | 'y' => paddedDigits 2 (c.year % 100)
      | 'm' => paddedDigits 2 c.month
      | 'd' => paddedDigits 2 c.day
      | 'H' => paddedDigits 2 c.hour
      | 'M' => paddedDigits 2 c.minute
      | 'S' => paddedDigits 2 c.second
      | 'f' => paddedDigits 9 now.nanos
      | 'F' => Moment.dateChars c
      | 'T' => Moment.timeChars c
      | 's' => Nat.toDigits 10 now.seconds.toNat
      | '+' => now.chars
      | 'z' => "+0000".toList
      | 'Z' => "UTC".toList
      | 'n' => ['\n']
      | 't' => ['\t']
      | '%' => ['%']
      | other => ['%', other]
    written ++ momentChars now rest
  | c :: rest => c :: momentChars now rest
  | [] => []

/-- The moment of a record, as an argument says; the zone may be named. -/
def momentField (now : Moment) (arguments : List (List Piece)) : Except String (List Char) :=
  let format := (arguments.head?.map momentPattern).getD "%+".toList
  match arguments.drop 1 with
  | [] => .ok (momentChars now format)
  | [zone] =>
    match zone.head? with
    | some (.text z) =>
      if z = "utc".toList ∨ z = "local".toList then .ok (momentChars now format)
      else .error ("invalid timezone `" ++ String.ofList z ++ "`")
    | _ => .error "invalid timezone"
  | _ => .error "expected at most two arguments"

/-- The value of a name that is looked up for the running thread; none is ever set there. -/
def contextField (arguments : List (List Piece)) : Except String (List Char) :=
  match arguments with
  | [] => .error "missing MDC key"
  | key :: rest =>
    match key.head?, rest with
    | some (.text _), [] => .ok []
    | some (.text _), [fallback] =>
      match fallback.head? with
      | some (.text s) => .ok s
      | some (.fault message) => .error message
      | _ => .error "invalid MDC default"
    | some (.text _), _ => .error "expected at most two arguments"
    | some (.fault message), _ => .error message
    | _, _ => .error "invalid MDC key"

/-- What a field without nested pieces writes. -/
def simpleField (now : Moment) (record : Record) (name : String)
    (arguments : List (List Piece)) : Except String (List Char) :=
  let plain (s : List Char) : Except String (List Char) :=
    if arguments.isEmpty then .ok s else .error "unexpected arguments"
  if name = "d" ∨ name = "date" then momentField now arguments
  else if name = "l" ∨ name = "level" then plain record.level.name.toList
  else if name = "m" ∨ name = "message" then plain record.message.toList
  else if name = "t" ∨ name = "target" then plain record.target.toList
  else if name = "n" then plain ['\n']
  else if name = "f" ∨ name = "file" ∨ name = "L" ∨ name = "line" ∨ name = "M"
      ∨ name = "module" then
    plain "???".toList
  else if name = "T" ∨ name = "thread" then plain "main".toList
  else if name = "X" ∨ name = "mdc" then contextField arguments
  else .error ("unknown formatter `" ++ name ++ "`")

mutual

/-- What a piece writes. -/
def pieceMarks (now : Moment) (record : Record) : Piece → List Mark
  | .text s => Mark.ofChars s
  | .fault message => Mark.ofChars (faultChars message)
  | .field name [inner] layout =>
    if name = "h" ∨ name = "highlight" then
      match colourOf record.level with
      | some colour =>
        arrange layout (.paint (some colour) :: marks now record inner ++ [.paint none])
      | none => arrange layout (marks now record inner)
    else if name = "" then arrange layout (marks now record inner)
    else
      match simpleField now record name [inner] with
      | .ok s => arrange layout (Mark.ofChars s)
      | .error message => Mark.ofChars (faultChars message)
  | .field name arguments layout =>
    if name = "h" ∨ name = "highlight" ∨ name = "" then
      Mark.ofChars (faultChars "expected exactly one argument")
    else
      match simpleField now record name arguments with
      | .ok s => arrange layout (Mark.ofChars s)
      | .error message => Mark.ofChars (faultChars message)

/-- What the pieces of a pattern write. -/
def marks (now : Moment) (record : Record) : List Piece → List Mark
  | [] => []
  | piece :: rest => pieceMarks now record piece ++ marks now record rest

end

end Pattern

/-! ## Lines -/

/-- A named value of a line. -/
def pairMarks (pair : String × Value) : List Mark :=
  .paint (some .cyan) :: Mark.ofChars (' ' :: pair.1.toList ++ ['='])
    ++ .paint none :: Mark.ofChars (Text.delimited pair.2.render.toList)

/-- The named values of a line and its end. -/
def pairsMarks (pairs : List (String × Value)) : List Mark :=
  pairs.flatMap pairMarks ++ [.char '\n']

/-- A line of the log. -/
def lineMarks (pattern : List Piece) (now : Moment) (record : Record) : List Mark :=
  Pattern.marks now record pattern ++ pairsMarks record.pairs

/-- The pattern that is used where none is given. -/
def defaultPattern : String :=
  "\x7bd(%Y-%m-%d %H:%M:%S)\x7d \x7bh(\x7bl:5\x7d)\x7d \x7bt\x7d \x7bm\x7d"

/-- The text of a line without its colours. -/
def plainText (marks : List Mark) : String :=
  String.ofList (marks.filterMap fun
    | .char c => some c
    | .paint _ => none)

end WalletScan.Log
