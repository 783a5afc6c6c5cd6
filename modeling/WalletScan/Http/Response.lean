import WalletScan.Text.Charset

/-!
# Answers of a server

An answer has a status, perhaps the type of its content, and bytes. A connection may also be closed
without an answer, which is a reply of its own.
-/

set_option autoImplicit false

namespace WalletScan.Http

/-- The answer of a server. -/
structure Response where
  status : Nat
  contentType : Option String
  body : List UInt8
deriving DecidableEq, Repr

/-- A connection that was closed without an answer, or never made. -/
structure Unreachable where
  /-- The location that was asked for. -/
  location : String
deriving DecidableEq, Repr

/-- The wording of a closed connection. -/
def Unreachable.message (u : Unreachable) : String :=
  "error sending request for url (" ++ u.location ++ ")"

/-- What became of a request. -/
abbrev Reply := Except Unreachable Response

/-- The registered reason of a status. -/
def reason? (status : Nat) : Option String :=
  List.lookup status
    [ (100, "Continue"), (101, "Switching Protocols"), (102, "Processing"), (103, "Early Hints"),
      (200, "OK"), (201, "Created"), (202, "Accepted"), (203, "Non Authoritative Information"),
      (204, "No Content"), (205, "Reset Content"), (206, "Partial Content"), (207, "Multi-Status"),
      (208, "Already Reported"), (226, "IM Used"), (300, "Multiple Choices"),
      (301, "Moved Permanently"), (302, "Found"), (303, "See Other"), (304, "Not Modified"),
      (305, "Use Proxy"), (307, "Temporary Redirect"), (308, "Permanent Redirect"),
      (400, "Bad Request"), (401, "Unauthorized"), (402, "Payment Required"), (403, "Forbidden"),
      (404, "Not Found"), (405, "Method Not Allowed"), (406, "Not Acceptable"),
      (407, "Proxy Authentication Required"), (408, "Request Timeout"), (409, "Conflict"),
      (410, "Gone"), (411, "Length Required"), (412, "Precondition Failed"),
      (413, "Payload Too Large"), (414, "URI Too Long"), (415, "Unsupported Media Type"),
      (416, "Range Not Satisfiable"), (417, "Expectation Failed"), (418, "I'm a teapot"),
      (421, "Misdirected Request"), (422, "Unprocessable Entity"), (423, "Locked"),
      (424, "Failed Dependency"), (425, "Too Early"), (426, "Upgrade Required"),
      (428, "Precondition Required"), (429, "Too Many Requests"),
      (431, "Request Header Fields Too Large"), (451, "Unavailable For Legal Reasons"),
      (500, "Internal Server Error"), (501, "Not Implemented"), (502, "Bad Gateway"),
      (503, "Service Unavailable"), (504, "Gateway Timeout"), (505, "HTTP Version Not Supported"),
      (506, "Variant Also Negotiates"), (507, "Insufficient Storage"), (508, "Loop Detected"),
      (510, "Not Extended"), (511, "Network Authentication Required") ]

namespace Response

/-- Whether a request succeeded. -/
def isSuccess (r : Response) : Bool := decide (200 ≤ r.status) && decide (r.status < 300)

/-- Whether the request was at fault. -/
def isClientError (r : Response) : Bool := decide (400 ≤ r.status) && decide (r.status < 500)

/-- A status with its reason. -/
def statusText (r : Response) : String :=
  toString r.status ++ " " ++ (reason? r.status).getD "<unknown status code>"

/-- The bytes of the content; answers of two kinds have none. -/
def content (r : Response) : List UInt8 :=
  if r.status = 204 ∨ r.status = 304 then [] else r.body

/-- Whether the server may answer otherwise when it is asked again. -/
def isTransient (r : Response) : Bool :=
  r.status == 408 || r.status == 429 || decide (500 ≤ r.status)

/-- Text without blanks around it. -/
def trimmed (s : List Char) : List Char :=
  let blank (c : Char) : Bool := c == ' ' || c == '\t'
  ((s.dropWhile blank).reverse.dropWhile blank).reverse

/-- The value of a parameter of a content type: what follows its name and the sign after it, without
quotes. -/
def parameter? (name : String) (part : String) : Option String :=
  let cs := trimmed part.toList
  let key := cs.takeWhile (· != '=')
  match cs.dropWhile (· != '=') with
  | '=' :: value =>
    if (String.ofList key).toLower = name then some (String.ofList (value.filter (· != '"')))
    else none
  | _ => none

/-- The character set of the content: the one its type names, and UTF-8 otherwise. -/
def charset (r : Response) : Text.Charset :=
  match (r.contentType.getD "").splitOn ";" with
  | kind :: parameters =>
    if kind.toList.contains '/' then
      ((parameters.filterMap (parameter? "charset")).head?.map Text.Charset.ofName).getD .utf8
    else .utf8
  | [] => .utf8

/-- The text of the content. -/
def text (r : Response) : String := r.charset.decode r.content

end Response

/-- Whether it may help to ask again. -/
def Reply.isTransient : Reply → Bool
  | .ok r => r.isTransient
  | .error _ => true

end WalletScan.Http
