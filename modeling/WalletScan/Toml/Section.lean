import WalletScan.Settings.Tree

/-!
# How tables of a TOML document are defined

A table may be spelled by a header, by a dotted key, or by being on the way to either, and it may be
spelled only once. A document under construction is a tree whose tables know how they came about:

* `put` — a key with a value, below the table of the last header;
* `openTable` — the header of a table;
* `openRow` — the header of a further row of a list of tables.

All three refuse what would define anything twice.
-/

set_option autoImplicit false

namespace WalletScan.Toml

/-- How a table came about. -/
inductive Origin where
  /-- It has a header of its own. -/
  | header
  /-- It is on the way to a table with a header, and may still get its own. -/
  | passed
  /-- A dotted key leads through it. -/
  | dotted
deriving DecidableEq, Repr

/-- A part of a document under construction. -/
inductive Node where
  | value (v : Setting)
  | table (origin : Origin) (entries : List (String × Node))
  /-- The rows of a list of tables: the last one and those before it, latest first. -/
  | rows (last : List (String × Node)) (before : List (List (String × Node)))
deriving Inhabited

/-- The entries of a table under construction. -/
abbrev Entries := List (String × Node)

/-- Stores a part under a name in place of what was there. -/
def Entries.store (name : String) (n : Node) : Entries → Entries
  | [] => [(name, n)]
  | (k, old) :: rest => if k = name then (k, n) :: rest else (k, old) :: Entries.store name n rest

/-- Changes the table that header names lead to from a table; tables on the way are made where they
are missing, and a list of tables leads to its last row. -/
def alongHeader (change : Entries → Option Entries) : List String → Entries → Option Entries
  | [], es => change es
  | name :: names, es => do
    let inner ← match es.lookup name with
      | none => (alongHeader change names []).map (Node.table .passed)
      | some (.table origin sub) => (alongHeader change names sub).map (Node.table origin)
      | some (.rows last before) => (alongHeader change names last).map (Node.rows · before)
      | some (.value _) => none
    return es.store name inner

/-- Stores a value at a dotted key. The key may lead through tables that have no header of their
own, and the table that gets the value has to be made by dotted keys alone. -/
def put (v : Setting) : List String → Entries → Option Entries
  | [], _ => none
  | [name], es => if (es.lookup name).isSome then none else some (es.store name (.value v))
  | name :: names, es => do
    let inner ← match es.lookup name, names with
      | none, _ => (put v names []).map (Node.table .dotted)
      | some (.table .dotted sub), _ => (put v names sub).map (Node.table .dotted)
      | some (.table .passed sub), _ :: _ :: _ => (put v names sub).map (Node.table .passed)
      | some (.rows last before), _ :: _ :: _ => (put v names last).map (Node.rows · before)
      | _, _ => none
    return es.store name inner

/-- Defines a table by its header. -/
def defineTable (name : String) (es : Entries) : Option Entries :=
  match es.lookup name with
  | none => some (es.store name (.table .header []))
  | some (.table .passed sub) => some (es.store name (.table .header sub))
  | some _ => none

/-- Adds a row to a list of tables by its header. -/
def addRow (name : String) (es : Entries) : Option Entries :=
  match es.lookup name with
  | none => some (es.store name (.rows [] []))
  | some (.rows last before) => some (es.store name (.rows [] (last :: before)))
  | some _ => none

/-- Changes the table in which the last name of a header stands. -/
def atHeader (change : String → Entries → Option Entries) (key : List String) (root : Entries) :
    Option Entries := do
  let name ← key.getLast?
  alongHeader (change name) key.dropLast root

/-- The header of a table. -/
def openTable : List String → Entries → Option Entries := atHeader defineTable

/-- The header of a row of a list of tables. -/
def openRow : List String → Entries → Option Entries := atHeader addRow

/-! ## Finished tables -/

mutual

/-- A part of a finished document. -/
def Node.setting : Node → Setting
  | .value v => v
  | .table _ es => .table (settingsOf es)
  | .rows last before => .list ((settingsOf last |> Setting.table) :: rowsOf before).reverse

/-- The entries of a finished table. -/
def settingsOf : List (String × Node) → List (String × Setting)
  | [] => []
  | (k, n) :: rest => (k, n.setting) :: settingsOf rest

/-- The rows of a finished list of tables, latest first. -/
def rowsOf : List (List (String × Node)) → List Setting
  | [] => []
  | row :: rest => .table (settingsOf row) :: rowsOf rest

end

end WalletScan.Toml
