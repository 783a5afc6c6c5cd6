import WalletScan.Json.Form

/-!
# Types with a JSON form

A `Wire` type is written as a value and read back from a value of its form. `Wire.encode` and
`Wire.decode` go through the text.
-/

set_option autoImplicit false

namespace WalletScan

open Json (Value Form Source Fault)

/-- A type that is stored and sent as JSON. -/
class Wire (α : Type) where
  form : Form
  toValue : α → Value
  ofValue? : Value → Option α

namespace Wire

/-- The text of a value of the type. -/
def encode {α : Type} [Wire α] (a : α) : String := (toValue a).render

/-- Reads a value of the type from a whole source. -/
def decodeSource {α : Type} [Wire α] (s : Source) : Except Fault α := do
  let v ← Json.decode (form α) s
  match ofValue? v with
  | some a => return a
  | none => throw .mismatched

/-- Reads a value of the type from a whole text. -/
def decode {α : Type} [Wire α] (text : String) : Except Fault α := decodeSource (.ofString text)

instance : Wire UInt64 where
  form := Form.word64
  toValue n := .number n.toNat
  ofValue?
    | .number n => some (UInt64.ofNat n)
    | _ => none

instance : Wire UInt32 where
  form := Form.word32
  toValue n := .number n.toNat
  ofValue?
    | .number n => some (UInt32.ofNat n)
    | _ => none

instance : Wire String where
  form := Form.text
  toValue s := .text s
  ofValue?
    | .text s => some s
    | _ => none

instance : Wire Bool where
  form := Form.bool
  toValue b := .bool b
  ofValue?
    | .bool b => some b
    | _ => none

instance {α : Type} [Wire α] : Wire (List α) where
  form := Form.list (form α)
  toValue items := .array (items.map toValue)
  ofValue?
    | .array items => items.mapM ofValue?
    | _ => none

instance {α : Type} [Wire α] : Wire (Option α) where
  form := Form.optional (form α)
  toValue
    | none => .null
    | some a => toValue a
  ofValue?
    | .null => some none
    | v => (ofValue? v).map some

/-- A required field of a wire type. -/
def field (α : Type) [Wire α] (name : String) : Form.Field := .required name (form α)

/-- A field that may be missing from an object. -/
def optionalField (α : Type) [Wire α] (name : String) : Form.Field := .optional name (form α)

/-- A field with a default. -/
def defaultField {α : Type} [Wire α] (name : String) (default : α) : Form.Field :=
  .default name (form α) (toValue default)

/-- The member at a position of a record in normal shape. -/
def member? {α : Type} [Wire α] (members : List (String × Value)) (name : String) : Option α := do
  ofValue? (← members.lookup name)

end Wire

end WalletScan
