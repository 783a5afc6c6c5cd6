import WalletScan.Json.Source

/-!
# Forms: what a JSON text may be

A form reads one kind of value and answers it in normal shape: a record's members stand in the order
of its fields, with the values of missing fields filled in, and a variant without content is its
name. Reading stops at the first fault from left to right.

* `Form.record` — an object with known members in any order, each at most once; members of other
  names are skipped. A record may also be written as the array of its fields in order.
* `Form.choice` — the name of a variant, or an object whose only member is the variant's.
* `decode` — a form over a whole text, after which only blanks may follow.
-/

set_option autoImplicit false

namespace WalletScan.Json

/-- Reads one kind of value. -/
abbrev Form := Reader Value

/-- The fault of a value of the wrong kind: a scalar is read first, and may be malformed itself. -/
def wrongKind (s : Source) : Fault :=
  let scalar (r : Except Fault Unit) : Fault :=
    match r with
    | .ok _ => .mismatched
    | .error f => f
  match s with
  | some 'n' :: rest => scalar ((readWord ['u', 'l', 'l'] rest).map fun _ => ())
  | some 't' :: rest => scalar ((readWord ['r', 'u', 'e'] rest).map fun _ => ())
  | some 'f' :: rest => scalar ((readWord ['a', 'l', 's', 'e'] rest).map fun _ => ())
  | some '"' :: rest => scalar ((readText rest).map fun _ => ())
  | some '[' :: _ => .mismatched
  | some '\x7b' :: _ => .mismatched
  | some c :: rest =>
    if c == '-' || c.isDigit then scalar ((readNumeral (some c :: rest)).map fun _ => ())
    else .malformed
  | none :: _ => .malformed
  | [] => .cutShort

namespace Form

/-- A natural number below a bound that is at most `2 ^ 64`. -/
def number (bound : Nat) : Form := fun s =>
  match skipBlanks s with
  | some c :: rest =>
    if c == '-' || c.isDigit then do
      match ← readNumeral (some c :: rest) with
      | (.natural n, rest) => if n < bound then return (.number n, rest) else throw .mismatched
      | (.other, _) => throw .mismatched
    else .error (wrongKind (some c :: rest))
  | s => .error (wrongKind s)

/-- A number of 64 bits. -/
def word64 : Form := number UInt64.size

/-- A number of 32 bits. -/
def word32 : Form := number UInt32.size

/-- A text. -/
def text : Form := fun s =>
  match skipBlanks s with
  | some '"' :: rest => do
    let (t, rest) ← readText rest
    return (.text t, rest)
  | s => .error (wrongKind s)

/-- A truth value. -/
def bool : Form := fun s =>
  match skipBlanks s with
  | some 't' :: rest => do return (.bool true, ← readWord ['r', 'u', 'e'] rest)
  | some 'f' :: rest => do return (.bool false, ← readWord ['a', 'l', 's', 'e'] rest)
  | s => .error (wrongKind s)

/-- The value `null`. -/
def unit : Form := fun s =>
  match skipBlanks s with
  | some 'n' :: rest => do return (.null, ← readWord ['u', 'l', 'l'] rest)
  | s => .error (wrongKind s)

/-- The value `null`, or a value of another form. -/
def optional (form : Form) : Form := fun s =>
  match skipBlanks s with
  | some 'n' :: rest => do return (.null, ← readWord ['u', 'l', 'l'] rest)
  | s => form s

/-! ## Lists -/

/-- Whether another item follows in an array; the source then stands at the item, and otherwise at
the closing bracket. -/
def nextItem (first : Bool) (s : Source) : Except Fault (Bool × Source) :=
  match skipBlanks s with
  | [] => .error .cutShort
  | some ']' :: rest => .ok (false, some ']' :: rest)
  | x :: rest =>
    if first then .ok (true, x :: rest)
    else if x = some ',' then
      match skipBlanks rest with
      | [] => .error .cutShort
      | some ']' :: _ => .error .malformed
      | rest => .ok (true, rest)
    else .error .malformed

/-- Reads the closing bracket of an array. -/
def closeArray (s : Source) : Except Fault Source :=
  match skipBlanks s with
  | [] => .error .cutShort
  | some ']' :: rest => .ok rest
  | _ => .error .malformed

/-- Reads the items of an array; each uses up a symbol, so the length of the source is enough
fuel. -/
def items (form : Form) : Nat → Bool → Source → Except Fault (List Value × Source)
  | 0, _, _ => .error .cutShort
  | fuel + 1, first, s => do
    match ← nextItem first s with
    | (false, rest) => return ([], rest)
    | (true, rest) =>
      let (v, rest) ← form rest
      let (vs, rest) ← items form fuel false rest
      return (v :: vs, rest)

/-- An array whose items all have one form. -/
def list (form : Form) : Form := fun s =>
  match skipBlanks s with
  | some '[' :: rest => do
    let (vs, rest) ← items form (rest.length + 1) true rest
    return (.array vs, ← closeArray rest)
  | s => .error (wrongKind s)

/-! ## Records -/

/-- What stands for a field that is missing. -/
inductive Missing where
  /-- Nothing: the record is refused. -/
  | refuse
  /-- `null`, but only in an object. -/
  | null
  /-- A default. -/
  | fill (v : Value)

/-- A field of a record. -/
structure Field where
  name : String
  form : Form
  missing : Missing

/-- A field that has to be present. -/
def Field.required (name : String) (form : Form) : Field := ⟨name, form, .refuse⟩

/-- A field that may be missing or `null`. -/
def Field.optional (name : String) (form : Form) : Field := ⟨name, Form.optional form, .null⟩

/-- A field with a default. -/
def Field.default (name : String) (form : Form) (v : Value) : Field := ⟨name, form, .fill v⟩

/-- The fields in order as an array of values. -/
def fieldItems : List Field → Bool → Source → Except Fault (List (String × Value) × Source)
  | [], _, s => .ok ([], s)
  | f :: fields, first, s => do
    match ← nextItem first s with
    | (true, rest) =>
      let (v, rest) ← f.form rest
      let (vs, rest) ← fieldItems fields false rest
      return ((f.name, v) :: vs, rest)
    | (false, rest) =>
      match f.missing with
      | .fill v =>
        let (vs, rest) ← fieldItems fields first rest
        return ((f.name, v) :: vs, rest)
      | _ => throw .mismatched

/-- The values of the fields in order, from the members that were read. -/
def collect (members : List (String × Value)) :
    List Field → Except Fault (List (String × Value))
  | [] => .ok []
  | f :: fields => do
    let v ←
      match members.lookup f.name, f.missing with
      | some v, _ => pure v
      | none, .null => pure .null
      | none, .fill v => pure v
      | none, .refuse => throw Fault.mismatched
    return (f.name, v) :: (← collect members fields)

/-- Reads a member's key at its opening quote, or finds the closing brace, where the source then
stands. -/
def nextKey (first : Bool) (s : Source) : Except Fault (Option String × Source) :=
  let key (s : Source) : Except Fault (Option String × Source) :=
    match s with
    | [] => .error .cutShort
    | some '"' :: rest => do
      let (k, rest) ← readText rest
      return (some k, rest)
    | _ => .error .malformed
  match skipBlanks s with
  | [] => .error .cutShort
  | some '\x7d' :: rest => .ok (none, some '\x7d' :: rest)
  | x :: rest =>
    if first then key (x :: rest)
    else if x = some ',' then key (skipBlanks rest)
    else .error .malformed

/-- Reads the colon between a key and its value. -/
def readColon (s : Source) : Except Fault Source :=
  match skipBlanks s with
  | [] => .error .cutShort
  | some ':' :: rest => .ok rest
  | _ => .error .malformed

/-- Reads the members of an object up to its closing brace; a known name may occur once. -/
def members (fields : List Field) :
    Nat → List (String × Value) → Bool → Source → Except Fault (List (String × Value) × Source)
  | 0, _, _, _ => .error .cutShort
  | fuel + 1, seen, first, s => do
    match ← nextKey first s with
    | (none, rest) => return (seen, rest)
    | (some key, rest) =>
      match fields.find? fun f => f.name == key with
      | none =>
        let rest ← skip (← readColon rest)
        members fields fuel seen false rest
      | some f =>
        if (seen.lookup key).isSome then throw .mismatched
        else
          let (v, rest) ← f.form (← readColon rest)
          members fields fuel (seen ++ [(key, v)]) false rest

/-- A record with the given fields. -/
def record (fields : List Field) : Form := fun s =>
  match skipBlanks s with
  | some '[' :: rest => do
    let (vs, rest) ← fieldItems fields true rest
    return (.object vs, ← closeArray rest)
  | some '\x7b' :: rest => do
    let (seen, rest) ← members fields (rest.length + 1) [] true rest
    let vs ← collect seen fields
    return (.object vs, ← readWord ['\x7d'] rest)
  | s => .error (wrongKind s)

/-! ## Choices -/

/-- A variant of a choice, with the form of its content if it has one. -/
structure Variant where
  name : String
  content : Option Form

/-- One of several variants, named by a text or by the only member of an object. -/
def choice (variants : List Variant) : Form := fun s =>
  let named (s : Source) : Except Fault (Variant × Source) := do
    match ← text s with
    | (.text name, rest) =>
      match variants.find? fun v => v.name == name with
      | some v => return (v, rest)
      | none => throw .mismatched
    | _ => throw .mismatched
  match skipBlanks s with
  | [] => .error .cutShort
  | some '"' :: rest => do
    let (v, rest) ← named (some '"' :: rest)
    match v.content with
    | none => return (.text v.name, rest)
    | some _ => throw .mismatched
  | some '\x7b' :: rest => do
    let (v, rest) ← named rest
    let rest ← readColon rest
    let (value, rest) ←
      match v.content with
      | none => do
        let (_, rest) ← unit rest
        pure (Value.text v.name, rest)
      | some form => do
        let (content, rest) ← form rest
        pure (Value.object [(v.name, content)], rest)
    match skipBlanks rest with
    | [] => throw .cutShort
    | some '\x7d' :: rest => return (value, rest)
    | _ => throw .malformed
  | _ => .error .malformed

end Form

/-- Reads a whole source as a value of a form. -/
def decode (form : Form) (s : Source) : Except Fault Value := do
  let (v, rest) ← form s
  match skipBlanks rest with
  | [] => return v
  | _ => throw .malformed

end WalletScan.Json
