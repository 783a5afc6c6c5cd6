import WalletScan.Decimal
import WalletScan.Text.Utf8
import WalletScan.Digest.Sha256

/-!
# Locations of resources

A location is an origin with a path and perhaps a query. `Location.parse` reads an absolute one, and
`Location.join` an absolute path relative to a base, of which only the origin is kept. In a path,
the segments `.` and `..` are resolved, a backslash is a slash, and what a path may not hold is
written as its bytes in hexadecimal after percent signs.
-/

set_option autoImplicit false

namespace WalletScan.Http

/-- Why a text is no location. -/
inductive LocationError where
  | relative
  | emptyHost
  | invalidHost
  | invalidService
deriving DecidableEq, Repr

/-- The wording of an error. -/
def LocationError.message : LocationError → String
  | .relative => "relative URL without a base"
  | .emptyHost => "empty host"
  | .invalidHost => "invalid domain character"
  | .invalidService => "invalid port number"

/-- A location on a server. -/
structure Location where
  scheme : String
  host : String
  /-- The number of the service on the host, unless it is the one that the scheme has by itself. -/
  service : Option Nat
  path : String
  query : Option String
deriving DecidableEq, Repr

/-! ## Percent signs -/

/-- The bytes of a character in hexadecimal, each after a percent sign. -/
def percentChars (c : Char) : List Char :=
  (Utf8.encode c.toString).flatMap fun b =>
    ['%', (hexDigit (b.toNat / 16)).toUpper, (hexDigit (b.toNat % 16)).toUpper]

/-- A text in which the characters of a class are written with percent signs. -/
def percentEncode (escapes : Char → Bool) (s : List Char) : List Char :=
  s.flatMap fun c => if escapes c then percentChars c else [c]

/-- Whether a character is a control or beyond ASCII. -/
def isUnprintable (c : Char) : Bool := decide (c < ' ') || decide ('\x7e' < c)

/-- What a path may not hold. -/
def escapesInPath (c : Char) : Bool :=
  isUnprintable c || [' ', '"', '#', '<', '>', '?', '\x60', '\x7b', '\x7d'].contains c

/-- What a query may not hold. -/
def escapesInQuery (c : Char) : Bool :=
  isUnprintable c || [' ', '"', '#', '<', '>', '\''].contains c

/-- A value of a form: a space is a plus, and only letters, digits and four signs stand for
themselves. -/
def formEncode (s : String) : String :=
  String.ofList <| s.toList.flatMap fun c =>
    if c == ' ' then ['+']
    else if c.isAlphanum || ['*', '-', '.', '_'].contains c then [c]
    else percentChars c

/-! ## Paths -/

/-- Whether a segment stands for the one it is in. -/
def isSingleDot (segment : List Char) : Bool :=
  [".", "%2e"].contains (String.ofList segment).toLower

/-- Whether a segment stands for the one above. -/
def isDoubleDot (segment : List Char) : Bool :=
  ["..", ".%2e", "%2e.", "%2e%2e"].contains (String.ofList segment).toLower

/-- The segments of a path between slashes of either kind. -/
def segments (s : List Char) : List (List Char) :=
  s.foldr (fun c acc =>
    if c == '/' || c == '\\' then [] :: acc
    else
      match acc with
      | segment :: rest => (c :: segment) :: rest
      | [] => [[c]]) [[]]

/-- Resolves the dots among the segments of a path, given the ones before in reverse. -/
def resolve (above : List (List Char)) : List (List Char) → List (List Char)
  | [] => above.reverse
  | segment :: rest =>
    let above' :=
      if isDoubleDot segment then above.drop 1
      else if isSingleDot segment then above
      else percentEncode escapesInPath segment :: above
    if rest.isEmpty && (isDoubleDot segment || isSingleDot segment) then resolve ([] :: above') rest
    else resolve above' rest

/-- The path of the characters after a first slash. -/
def pathOf (s : List Char) : String :=
  String.ofList ((resolve [] (segments s)).flatMap fun segment => '/' :: segment)

/-- What is read of a location: blanks and controls around it do not count, and neither do line ends
and tabs within. -/
def cleaned (s : String) : List Char :=
  let blank (c : Char) : Bool := decide (c ≤ ' ')
  let inner := ((s.toList.dropWhile blank).reverse.dropWhile blank).reverse
  inner.filter fun c => c != '\t' && c != '\n' && c != '\r'

/-- The path and the query of the characters after a host. A fragment is left out. -/
def pathAndQuery (s : List Char) : String × Option String :=
  let s := s.takeWhile (· != '#')
  let path := s.takeWhile (· != '?')
  let path :=
    match path with
    | '/' :: rest => rest
    | '\\' :: rest => rest
    | rest => rest
  match s.dropWhile (· != '?') with
  | [] => (pathOf path, none)
  | _ :: query => (pathOf path, some (String.ofList (percentEncode escapesInQuery query)))

namespace Location

/-- The number of the service that a scheme has by itself. -/
def schemeService (scheme : String) : Option Nat :=
  if scheme = "http" then some 80 else if scheme = "https" then some 443 else none

/-- The characters of a host's name. -/
def isHostChar (c : Char) : Bool :=
  let delimiters := [' ', '#', '/', ':', '<', '>', '?', '@', '[', '\\', ']', '^', '|', '%']
  !isUnprintable c && !delimiters.contains c

/-- Reads a host and the number of a service on it. -/
def readAuthority (scheme : String) (s : List Char) :
    Except LocationError (String × Option Nat) := do
  let s := (s.reverse.takeWhile (· != '@')).reverse
  let host := s.takeWhile (· != ':')
  if host.isEmpty then throw .emptyHost
  if ¬ host.all isHostChar then throw .invalidHost
  let host := (String.ofList host).toLower
  match s.dropWhile (· != ':') with
  | [] => return (host, none)
  | [_] => return (host, none)
  | _ :: digits =>
    let service := naturalOfDigits digits
    if ¬ digits.all Char.isDigit ∨ 65535 < service then throw .invalidService
    return (host, if schemeService scheme = some service then none else some service)

/-- Whether some characters are the name of a scheme. -/
def isScheme : List Char → Bool
  | c :: rest => c.isAlpha && rest.all fun c => c.isAlphanum || ['+', '-', '.'].contains c
  | [] => false

/-- Reads an absolute location on a server. -/
def parse (s : String) : Except LocationError Location := do
  let s := cleaned s
  let scheme := (String.ofList (s.takeWhile (· != ':'))).toLower
  let isSlash (c : Char) : Bool := c == '/' || c == '\\'
  if ¬ isScheme scheme.toList ∨ ¬ s.contains ':' then throw .relative
  let s := ((s.dropWhile (· != ':')).drop 1).dropWhile isSlash
  let inAuthority (c : Char) : Bool := !isSlash c && c != '?' && c != '#'
  let (host, service) ← readAuthority scheme (s.takeWhile inAuthority)
  let (path, query) := pathAndQuery (s.dropWhile inAuthority)
  return ⟨scheme, host, service, path, query⟩

/-- The location of an absolute path on the server of a base. -/
def join (base : Location) (path : String) : Location :=
  let (path, query) := pathAndQuery (cleaned path)
  { base with path := path, query := query }

/-- What a request names: the path and the query. -/
def target (l : Location) : String :=
  l.path ++ match l.query with
    | some query => "?" ++ query
    | none => ""

/-- The host with the number of the service. -/
def authority (l : Location) : String :=
  l.host ++ match l.service with
    | some service => ":" ++ toString service
    | none => ""

/-- The text of a location. -/
def render (l : Location) : String := l.scheme ++ "://" ++ l.authority ++ l.target

/-- Whether two locations are on one server. -/
def sameOrigin (a b : Location) : Bool :=
  a.scheme == b.scheme && a.host == b.host && a.service == b.service

end Location

end WalletScan.Http
