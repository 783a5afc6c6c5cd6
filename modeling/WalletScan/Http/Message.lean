import WalletScan.Http.Location
import WalletScan.Http.Response

/-!
# Messages between a client and a server

A request is a line that names the resource, headers, an empty line, and the body. An answer is read
from all bytes that came before the connection closed; `readResponse?` refuses one that is not
whole. Each reader answers what it read and the bytes after it.
-/

set_option autoImplicit false

namespace WalletScan.Http

/-! ## Requests -/

/-- A request before it is sent. -/
structure Request where
  method : String
  location : Location
  headers : List (String × String)
  body : List UInt8
deriving DecidableEq, Repr

/-- The end of a line. -/
def lineEnd : String := "\r\n"

/-- The headers that every request has. -/
def Request.framing (r : Request) : List (String × String) :=
  [("host", r.location.authority), ("accept", "*/*"), ("connection", "close")]
    ++ if r.body.isEmpty then [] else [("content-length", toString r.body.length)]

/-- The bytes of a request. -/
def Request.bytes (r : Request) : List UInt8 :=
  let headers := (r.framing ++ r.headers).map fun (name, value) => name ++ ": " ++ value ++ lineEnd
  Utf8.encode (r.method ++ " " ++ r.location.target ++ " HTTP/1.1" ++ lineEnd
    ++ String.join headers ++ lineEnd) ++ r.body

/-! ## Answers -/

/-- The first line of some bytes, without its end. -/
def readLine? : List UInt8 → Option (List Char × List UInt8)
  | 13 :: 10 :: rest => some ([], rest)
  | b :: rest =>
    match readLine? rest with
    | some (line, rest) => some (Char.ofNat b.toNat :: line, rest)
    | none => none
  | [] => none

/-- The status of a status line. -/
def statusOf? (line : List Char) : Option Nat :=
  if "HTTP/1.".toList.isPrefixOf line then
    natural? (String.ofList (((line.dropWhile (· != ' ')).drop 1).takeWhile (· != ' ')))
  else none

/-- A header by its name in small letters. -/
def headerOf (line : List Char) : String × String :=
  ((String.ofList (line.takeWhile (· != ':'))).toLower,
    String.ofList (Response.trimmed ((line.dropWhile (· != ':')).drop 1)))

/-- The headers up to the empty line. At most as many lines are read as there are bytes. -/
def readHeaders? : Nat → List UInt8 → Option (List (String × String) × List UInt8)
  | 0, _ => none
  | fuel + 1, bytes =>
    match readLine? bytes with
    | none => none
    | some ([], rest) => some ([], rest)
    | some (line, rest) =>
      match readHeaders? fuel rest with
      | some (headers, rest) => some (headerOf line :: headers, rest)
      | none => none

/-- The number of a digit of hexadecimal numerals. -/
def hexValue? (c : Char) : Option Nat :=
  if c.isDigit then some (c.toNat - '0'.toNat)
  else if 'a' ≤ c ∧ c ≤ 'f' then some (c.toNat - 'a'.toNat + 10)
  else if 'A' ≤ c ∧ c ≤ 'F' then some (c.toNat - 'A'.toNat + 10)
  else none

/-- The size that begins a chunk: a hexadecimal numeral, after which a sign may add more. -/
def chunkSize? (line : List Char) : Option Nat :=
  match Response.trimmed (line.takeWhile (· != ';')) with
  | [] => none
  | digits => digits.foldl (fun n c => do return (← n) * 16 + (← hexValue? c)) (some 0)

/-- The bytes of all chunks up to the empty one. At most as many are read as there are bytes. -/
def readChunks? : Nat → List UInt8 → Option (List UInt8)
  | 0, _ => none
  | fuel + 1, bytes => do
    let (line, rest) ← readLine? bytes
    let size ← chunkSize? line
    if size = 0 then return []
    if rest.length < size + 2 then none
    else return rest.take size ++ (← readChunks? fuel (rest.drop (size + 2)))

/-- The body after the headers: in chunks, of a stated length, or all that came. -/
def readBody? (headers : List (String × String)) (rest : List UInt8) : Option (List UInt8) :=
  if headers.lookup "transfer-encoding" = some "chunked" then readChunks? (rest.length + 1) rest
  else
    match headers.lookup "content-length" with
    | none => some rest
    | some length => do
      let length ← natural? length
      if rest.length < length then none else return rest.take length

/-- The answer that some bytes hold. -/
def readResponse? (bytes : List UInt8) : Option Response := do
  let (line, rest) ← readLine? bytes
  let status ← statusOf? line
  let (headers, rest) ← readHeaders? (rest.length + 1) rest
  return ⟨status, headers.lookup "content-type", ← readBody? headers rest⟩

end WalletScan.Http
