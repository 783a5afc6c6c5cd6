import WalletScan.Time.Moment

/-!
# Log records

What is logged: a message at a level, with named values.
-/

set_option autoImplicit false

namespace WalletScan.Log

/-- How much a record matters. -/
inductive Level where
  | error
  | warn
  | info
  | debug
  | trace
deriving DecidableEq, Repr

/-- The name of a level. -/
def Level.name : Level → String
  | error => "ERROR"
  | warn => "WARN"
  | info => "INFO"
  | debug => "DEBUG"
  | trace => "TRACE"

/-- A value of a record. -/
inductive Value where
  | missing
  | bool (b : Bool)
  | integer (n : Int)
  | text (s : String)
deriving DecidableEq, Repr

/-- The text of a value. -/
def Value.render : Value → String
  | missing => "None"
  | bool b => if b then "true" else "false"
  | integer n => toString n
  | text s => s

/-- A number as a value. -/
def Value.ofWord (n : UInt64) : Value := .integer n.toNat

/-- A record of the log. -/
structure Record where
  level : Level
  /-- What part of the program logs it. -/
  target : String
  message : String
  pairs : List (String × Value)
deriving DecidableEq, Repr

end WalletScan.Log
