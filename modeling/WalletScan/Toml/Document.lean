import WalletScan.Toml.Scalar
import WalletScan.Toml.Section

/-!
# TOML documents

`Toml.read?` reads a document as a table of settings, or refuses it. A document is a sequence of
lines: a key with its value, the header of a table, the header of a row of a list of tables, or
nothing but a comment.
-/

set_option autoImplicit false

namespace WalletScan.Toml

/-- Reads the items of a list and its closing bracket, given how to read an item. A comma may follow
the last item. -/
def readItems (item : Reader Setting) : Nat → Reader (List Setting)
  | 0, _ => none
  | fuel + 1, s =>
    match skipLines s.length s with
    | ']' :: rest => some ([], rest)
    | s => do
      let (v, rest) ← item s
      match skipLines rest.length rest with
      | ',' :: rest =>
        let (vs, rest) ← readItems item fuel rest
        return (v :: vs, rest)
      | ']' :: rest => return ([v], rest)
      | _ => none

/-- Reads a key, the sign after it and its value. -/
def readPair (value : Reader Setting) : Reader (List String × Setting) := fun s => do
  let (key, rest) ← readKey s
  let rest ← readChar '=' (skipBlanks rest)
  let (v, rest) ← value (skipBlanks rest)
  return ((key, v), rest)

/-- Reads further pairs of a table within a line, and its closing brace. -/
def readPairs (value : Reader Setting) : Nat → Entries → Reader Entries
  | 0, _, _ => none
  | fuel + 1, es, s => do
    let ((key, v), rest) ← readPair value s
    let es ← put v key es
    match skipBlanks rest with
    | ',' :: rest => readPairs value fuel es rest
    | '\x7d' :: rest => return (es, rest)
    | _ => none

/-- Reads a table within a line after its opening brace. -/
def readInlineTable (value : Reader Setting) : Reader Setting := fun s =>
  match skipBlanks s with
  | '\x7d' :: rest => some (.table [], rest)
  | s => (readPairs value (s.length + 1) [] s).map fun (es, rest) => (.table (settingsOf es), rest)

/-- Reads a value in which lists and tables are nested less deep than a bound. -/
def readValue : Nat → Reader Setting
  | depth, s =>
    match s with
    | '"' :: _ => (readText s).map fun (t, rest) => (.text t, rest)
    | '\'' :: _ => (readText s).map fun (t, rest) => (.text t, rest)
    | 't' :: 'r' :: 'u' :: 'e' :: rest => some (.bool true, rest)
    | 'f' :: 'a' :: 'l' :: 's' :: 'e' :: rest => some (.bool false, rest)
    | '[' :: rest =>
      match depth with
      | 0 => none
      | depth + 1 =>
        (readItems (readValue depth) (rest.length + 1) rest).map fun (vs, rest) => (.list vs, rest)
    | '\x7b' :: rest =>
      match depth with
      | 0 => none
      | depth + 1 => readInlineTable (readValue depth) rest
    | s => readNumber s

/-- Reads a header after its first bracket: the key, and whether it is a row's. -/
def readHeader (s : List Char) : Option ((List String × Bool) × List Char) :=
  match s with
  | '[' :: s => do
    let (key, rest) ← readKey s
    match rest with
    | ']' :: ']' :: rest => return ((key, true), rest)
    | _ => none
  | s => do
    let (key, rest) ← readKey s
    match rest with
    | ']' :: rest => return ((key, false), rest)
    | _ => none

/-- Reads the lines of a document into its table, given the key of the last header. Every line takes
a character, so the length of the document is enough fuel. -/
def readStatements : Nat → List String → Entries → List Char → Option Entries
  | 0, _, _, _ => none
  | fuel + 1, current, root, s =>
    match skipBlanks s with
    | [] => some root
    | '[' :: rest => do
      let ((key, isRow), rest) ← readHeader rest
      let root ← if isRow then openRow key root else openTable key root
      readStatements fuel key root (← endOfLine? rest)
    | c :: rest =>
      if c = '#' ∨ (lineBreak? (c :: rest)).isSome then do
        readStatements fuel current root (← endOfLine? (c :: rest))
      else do
        let ((key, v), rest) ← readPair (readValue (maxDepth - 1)) (c :: rest)
        let root ← alongHeader (put v key) current root
        readStatements fuel current root (← endOfLine? rest)

/-- Reads a document, which may begin with a byte order mark. -/
def read? (document : String) : Option (List (String × Setting)) :=
  let s :=
    match document.toList with
    | '\ufeff' :: rest => rest
    | s => s
  (readStatements (s.length + 1) [] [] s).map settingsOf

end WalletScan.Toml
