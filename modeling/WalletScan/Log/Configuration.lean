import WalletScan.Log.Pattern

/-!
# The document that configures the log

Of the document only the pattern of the first encoder counts: the scalar after `pattern:`, plain or
between quotes of either kind.

Specification: section 10.2.
-/

set_option autoImplicit false

namespace WalletScan.Log

/-- The document's usual place. -/
def configurationPath : String := "log4rs.yml"

/-- The characters up to a double quote; a backslash takes the character after it as it is. -/
def untilDoubleQuote : List Char → List Char
  | [] => []
  | '"' :: _ => []
  | '\\' :: 'n' :: rest => '\n' :: untilDoubleQuote rest
  | '\\' :: 't' :: rest => '\t' :: untilDoubleQuote rest
  | '\\' :: c :: rest => c :: untilDoubleQuote rest
  | c :: rest => c :: untilDoubleQuote rest

/-- The characters up to a single quote, of which two stand for one. -/
def untilSingleQuote : List Char → List Char
  | [] => []
  | '\'' :: '\'' :: rest => '\'' :: untilSingleQuote rest
  | '\'' :: _ => []
  | c :: rest => c :: untilSingleQuote rest

/-- The characters of a plain scalar: up to a comment, without the blanks after them. -/
def plainScalar (s : List Char) : List Char :=
  let rec upToComment : List Char → List Char
    | ' ' :: '#' :: _ => []
    | c :: rest => c :: upToComment rest
    | [] => []
  ((upToComment s).reverse.dropWhile (·.isWhitespace)).reverse

/-- The characters of a scalar of either form. -/
def scalar (s : List Char) : List Char :=
  match s.dropWhile (· == ' ') with
  | '"' :: rest => untilDoubleQuote rest
  | '\'' :: rest => untilSingleQuote rest
  | rest => plainScalar rest

/-- The pattern that a line sets, if it sets one. -/
def patternOfLine? (line : String) : Option String :=
  let lead := "pattern:".toList
  let chars := line.toList.dropWhile fun c => c == ' ' || c == '-'
  if lead.isPrefixOf chars then some (String.ofList (scalar (chars.drop lead.length))) else none

/-- The pattern that a document configures. -/
def configuredPattern (document : String) : String :=
  ((document.splitOn "\n").findSome? patternOfLine?).getD defaultPattern

end WalletScan.Log
