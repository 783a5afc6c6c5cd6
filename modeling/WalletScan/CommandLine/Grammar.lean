import WalletScan.Decimal

/-!
# The grammar of a command line

A grammar says which options a command takes, whether it takes an argument without a name, and which
commands may follow it. `Grammar.gather` reads words by a grammar into given values, up to the name
of a command:

* an option is given as `--name value`, `--name=value`, `-n value`, `-nvalue` or `-n=value`;
* the word `--` ends the options;
* a value is checked only when the next option or argument is met, or at the end, so that the first
  fault from left to right is not always the one that is reported.
-/

set_option autoImplicit false

namespace WalletScan.CommandLine

/-- Why a command line is refused, or answered by the help text. -/
inductive UsageError where
  | helpRequested
  /-- Nothing at all was given. -/
  | nothingGiven
  | missingCommand
  | unknownCommand
  | unknownArgument
  /-- A required argument was not given. -/
  | missingArgument
  /-- An option was given without its value, or with an empty path. -/
  | missingValue
  /-- An option that takes no value was given one. -/
  | unneededValue
  /-- An option was given twice that may be given once. -/
  | repeated
  /-- A value is not of its kind. -/
  | invalidValue
deriving DecidableEq, Repr

/-- What kind of value is expected. -/
inductive ValueKind where
  | text
  /-- A text that is not empty. -/
  | path
  /-- A natural number of 64 bits. -/
  | number
deriving DecidableEq, Repr

/-- What an option is for. -/
inductive Role where
  /-- Asks for the help text. -/
  | help
  /-- May be given once, without a value. -/
  | switch
  /-- May be given once, with a value. -/
  | single (kind : ValueKind)
  /-- May be given any number of times, each time with a value. -/
  | repeatable (kind : ValueKind)
deriving DecidableEq, Repr

/-- The kind of value that an option takes, if it takes one. -/
def Role.kind? : Role → Option ValueKind
  | help => none
  | switch => none
  | single kind => some kind
  | repeatable kind => some kind

/-- Something that can be given: an option, or the argument without a name. -/
structure Slot where
  name : String
  letter : Option Char
  role : Role
deriving DecidableEq, Repr

/-- What may be given to a command. -/
structure Grammar where
  options : List Slot
  argument : Option Slot
  commands : List String
deriving DecidableEq, Repr

/-- A slot that waits for its value, or for its value to be checked. -/
structure Pending where
  slot : Slot
  value : Option String
deriving DecidableEq, Repr

/-- What was gathered from the words so far. -/
structure Gathered where
  /-- The checked values under the names of their slots, in order. -/
  given : List (String × String)
  pending : Option Pending
  /-- Whether the argument without a name was given. -/
  argumentGiven : Bool
deriving DecidableEq, Repr

namespace Gathered

/-- Nothing gathered yet. -/
def empty : Gathered := ⟨[], none, false⟩

/-- Whether something was given under a name. -/
def has (name : String) (g : Gathered) : Bool := g.given.any fun e => e.1 == name

/-- The values given under a name. -/
def values (name : String) (g : Gathered) : List String :=
  (g.given.filter fun e => e.1 == name).map (·.2)

/-- The value given under a name. -/
def value? (name : String) (g : Gathered) : Option String := (g.values name).head?

/-- The number given under a name. -/
def number? (name : String) (g : Gathered) : Option UInt64 := (g.value? name).bind word64?

end Gathered

/-- Checks the value of a slot. -/
def checkValue (kind : ValueKind) (value : String) : Except UsageError Unit :=
  match kind with
  | .text => .ok ()
  | .path => if value = "" then .error .missingValue else .ok ()
  | .number => if (word64? value).isSome then .ok () else .error .invalidValue

/-- Adds a slot with its value to what was gathered. -/
def accept (slot : Slot) (value : Option String) (g : Gathered) : Except UsageError Gathered := do
  let once : Except UsageError Unit := if g.has slot.name then .error .repeated else .ok ()
  match slot.role with
  | .help => throw .helpRequested
  | .switch => do
    once
    return { g with given := g.given ++ [(slot.name, "true")] }
  | .single kind =>
    let some value := value | throw .missingValue
    once
    checkValue kind value
    return { g with given := g.given ++ [(slot.name, value)] }
  | .repeatable kind =>
    let some value := value | throw .missingValue
    checkValue kind value
    return { g with given := g.given ++ [(slot.name, value)] }

/-- Checks the slot that waits, if there is one. -/
def settle (g : Gathered) : Except UsageError Gathered :=
  match g.pending with
  | none => .ok g
  | some p => accept p.slot p.value { g with pending := none }

/-- Adds an option with the value that is attached to it, or lets it wait for its value. -/
def giveOption (slot : Slot) (attached : Option String) (g : Gathered) :
    Except UsageError Gathered := do
  let g ← settle g
  match slot.role.kind?, attached with
  | some _, none => return { g with pending := some ⟨slot, none⟩ }
  | _, value => accept slot value g

/-- Adds an option that is given by its name, after the two dashes. -/
def giveNamed (options : List Slot) (word : List Char) (g : Gathered) :
    Except UsageError Gathered :=
  let name := String.ofList (word.takeWhile (· != '='))
  let attached :=
    match word.dropWhile (· != '=') with
    | [] => none
    | _ :: value => some (String.ofList value)
  match options.find? fun o => o.name == name with
  | none => .error .unknownArgument
  | some slot =>
    if slot.role.kind?.isNone ∧ attached.isSome then .error .unneededValue
    else giveOption slot attached g

/-- Adds options that are given by their letters, after the one dash. The first one that takes a
value takes the rest of the word. -/
def giveLetters (options : List Slot) : List Char → Gathered → Except UsageError Gathered
  | [], g => .ok g
  | c :: rest, g =>
    match options.find? fun o => o.letter == some c with
    | none => .error .unknownArgument
    | some slot =>
      if slot.role.kind?.isSome then
        match rest with
        | [] => giveOption slot none g
        | '=' :: value => giveOption slot (some (String.ofList value)) g
        | value => giveOption slot (some (String.ofList value)) g
      else do
        let g ← giveOption slot none g
        giveLetters options rest g

namespace Grammar

/-- The name of the command that explains other commands. -/
def helpName : String := "help"

/-- Whether a word names a command that may follow. -/
def isCommand (grammar : Grammar) (word : String) : Bool :=
  !grammar.commands.isEmpty && (grammar.commands.contains word || word == helpName)

/-- Why a word is refused that is neither an option nor an argument. -/
def refusal (grammar : Grammar) (optionsEnded : Bool) (word : String) : UsageError :=
  if grammar.commands.isEmpty ∨ (optionsEnded ∧ grammar.isCommand word) then .unknownArgument
  else .unknownCommand

/-- Adds a word that is no option. -/
def giveWord (grammar : Grammar) (optionsEnded : Bool) (word : String) (g : Gathered) :
    Except UsageError Gathered :=
  match grammar.argument, g.argumentGiven with
  | some slot, false => do
    let g ← settle g
    return { g with pending := some ⟨slot, some word⟩, argumentGiven := true }
  | _, _ => .error (grammar.refusal optionsEnded word)

/-- Adds one word before the options have ended. -/
def step (grammar : Grammar) (word : String) (g : Gathered) : Except UsageError Gathered :=
  match word.toList, g.pending with
  | '-' :: '-' :: name, _ => giveNamed grammar.options name g
  | '-' :: c :: letters, _ => giveLetters grammar.options (c :: letters) g
  | _, some ⟨slot, none⟩ => .ok { g with pending := some ⟨slot, some word⟩ }
  | _, _ => grammar.giveWord false word g

/-- Gathers words up to the name of a command; answers that name and the words after it. -/
def gather (grammar : Grammar) :
    Bool → List String → Gathered → Except UsageError (Gathered × Option (String × List String))
  | _, [], g => .ok (g, none)
  | true, word :: rest, g => do
    let g ← grammar.giveWord true word g
    gather grammar true rest g
  | false, word :: rest, g =>
    let waits :=
      match g.pending with
      | some ⟨_, none⟩ => true
      | _ => false
    if !waits && grammar.isCommand word then .ok (g, some (word, rest))
    else if word = "--" then gather grammar true rest g
    else do
      let g ← grammar.step word g
      gather grammar false rest g

end Grammar

end WalletScan.CommandLine
