import WalletScan.Decimal

/-!
# Settings as a tree

What a configuration says before anybody asks for a setting of a certain kind: scalars, lists and
tables. A value may be set at a path, and setting a table merges it into the one that is there.
Names are compared in small letters: whatever is set under a name is stored under its small form.

* `Setting.put` — sets a value under a name of a table;
* `Path.parse?` — the text of a path: a name, then names after points and positions in brackets;
* `Path.set` — sets a value at a path.
-/

set_option autoImplicit false

namespace WalletScan

/-- A value of a configuration. -/
inductive Setting where
  /-- A place of a list at which nothing was set. -/
  | unset
  | bool (b : Bool)
  | integer (n : Int)
  | real (x : Double)
  | text (s : String)
  | list (items : List Setting)
  | table (entries : List (String × Setting))
deriving Repr, Inhabited

namespace Setting

/-- The small form of a letter. The sign of the kelvin is the only other character whose small form
is a letter of the names in use. -/
def smallChar (c : Char) : Char := if c == '\u212a' then 'k' else c.toLower

/-- The small form of a name. -/
def small (name : String) : String := String.ofList (name.toList.map smallChar)

/-- The entries of a table; anything else has none. -/
def entries : Setting → List (String × Setting)
  | table es => es
  | _ => []

/-- The items of a list; anything else has none. -/
def items : Setting → List Setting
  | list vs => vs
  | _ => []

/-- Stores a value under a name as it is spelled, in place of what was there. -/
def store (name : String) (v : Setting) : List (String × Setting) → List (String × Setting)
  | [] => [(name, v)]
  | (k, old) :: rest => if k = name then (k, v) :: rest else (k, old) :: store name v rest

mutual

/-- Sets a value under a name. A table is merged into what is there, entry by entry. -/
def put (name : String) : Setting → List (String × Setting) → List (String × Setting)
  | table [], root => store (small name) ((root.lookup (small name)).getD (table [])) root
  | table (e :: es), root =>
    let target := ((root.lookup (small name)).getD unset).entries
    store (small name) (table (merge (e :: es) target)) root
  | v, root => store (small name) v root

/-- Sets values under their names, one after the other. -/
def merge : List (String × Setting) → List (String × Setting) → List (String × Setting)
  | [], root => root
  | (k, v) :: rest, root => merge rest (put k v root)

end

/-- Replaces an item of a list, which grows as far as needed. -/
def replaceItem (index : Nat) (v : Setting) (vs : List Setting) : List Setting :=
  let padded := vs ++ List.replicate (index + 1 - vs.length) unset
  padded.set index v

end Setting

/-! ## Paths -/

/-- A step into a table or a list. -/
inductive Path.Step where
  | name (name : String)
  /-- The position of an item; a negative one counts from the end. -/
  | position (index : Int)
deriving DecidableEq, Repr

/-- The way to a setting. -/
structure Path where
  head : String
  steps : List Path.Step
deriving DecidableEq, Repr

namespace Path

/-- The characters of a name inside a path. -/
def isNameChar (c : Char) : Bool := c.isAlphanum || c == ' ' || c == '_' || c == '-'

/-- A name at the front of a text. -/
def readName? (s : List Char) : Option (String × List Char) :=
  match s.takeWhile isNameChar with
  | [] => none
  | name => some (String.ofList name, s.dropWhile isNameChar)

/-- A position after its opening bracket, up to and with the closing one. -/
def readPosition? (s : List Char) : Option (Int × List Char) :=
  let blank (c : Char) : Bool := c == ' ' || c == '\t' || c == '\n' || c == '\r'
  let (negative, s) :=
    match s.dropWhile blank with
    | '-' :: rest => (true, rest)
    | s => (false, s)
  match s.takeWhile Char.isDigit, (s.dropWhile Char.isDigit).dropWhile blank with
  | [], _ => none
  | digits, ']' :: rest =>
    let n := naturalOfDigits digits
    let index : Int := if negative then -n else n
    if Int64.minValue.toInt ≤ index ∧ index ≤ Int64.maxValue.toInt then some (index, rest) else none
  | _, _ => none

/-- The steps that a text spells; each takes a character, so the length of the text is enough
fuel. -/
def readSteps? : Nat → List Char → Option (List Step)
  | _, [] => some []
  | 0, _ => none
  | fuel + 1, '.' :: rest => do
    let (name, rest) ← readName? rest
    return .name name :: (← readSteps? fuel rest)
  | fuel + 1, '[' :: rest => do
    let (index, rest) ← readPosition? rest
    return .position index :: (← readSteps? fuel rest)
  | _, _ => none

/-- The path that a text spells. -/
def parse? (text : String) : Option Path := do
  let (head, rest) ← readName? text.toList
  return ⟨head, ← readSteps? rest.length rest⟩

/-- The path that a text spells, or its one name if it spells none. -/
def ofText (text : String) : Path := (parse? text).getD ⟨text, []⟩

/-- The place of an item in a list of some length. -/
def place (index : Int) (length : Nat) : Nat :=
  if index < 0 then length - index.natAbs else index.toNat

/-- Sets a value some steps below a setting, which becomes a table or a list if it is none. -/
def descend (v : Setting) : List Step → Setting → Setting
  | [], _ => v
  | [.name name], target => .table (Setting.put name v target.entries)
  | .name name :: steps, target =>
    let inner := (target.entries.lookup name).getD .unset
    .table (Setting.store name (descend v steps inner) target.entries)
  | .position index :: steps, target =>
    let i := place index target.items.length
    .list (Setting.replaceItem i (descend v steps ((target.items[i]?).getD .unset)) target.items)

/-- Sets a value at a path. -/
def set (p : Path) (v : Setting) (root : List (String × Setting)) : List (String × Setting) :=
  match p.steps with
  | [] => Setting.put p.head v root
  | steps =>
    Setting.store p.head (descend v steps ((root.lookup p.head).getD .unset)) root

end Path

end WalletScan
