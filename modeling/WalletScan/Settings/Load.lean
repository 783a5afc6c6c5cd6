import WalletScan.Settings.Basic
import WalletScan.Decimal
import WalletScan.Toml.Document

/-!
# Loading the settings

The settings come from a document, and the environment wins over it: a variable whose name begins
with `CHAINSCAN_` sets the path that follows, in which two underscores stand for a point. What was
set is then read as the kind of value that each setting needs:

* a number of a setting may be given as a text, a truth value or a real number, which is rounded;
* a truth value may be given as a number or as one of eight words;
* a text may be given as any scalar.

Specification: section 10.3.
-/

set_option autoImplicit false

namespace WalletScan

/-- Why there are no settings. -/
inductive SettingsError where
  /-- The document is no TOML. -/
  | unreadable
  /-- A setting has the wrong kind of value, or a record lacks one. -/
  | invalid
  /-- There is no document, and none can be written. -/
  | unwritable
deriving DecidableEq, Repr

/-- The wording of an error. -/
def SettingsError.message : SettingsError → String
  | .unreadable => "Could not build config"
  | .invalid => "Invalid scanner configuration"
  | .unwritable => "Could not create default config"

namespace Setting

/-! ## Kinds of values -/

/-- The truth value that a word names, in letters of either case. -/
def truthWord? (word : String) : Option Bool :=
  let word := word.toLower
  if word = "true" ∨ word = "on" ∨ word = "yes" then some true
  else if word = "false" ∨ word = "off" ∨ word = "no" then some false
  else none

/-- A natural number below a bound that is at most `2 ^ 64`. -/
def number? (bound : Nat) (v : Setting) : Option Nat := do
  let n ← match v with
    | bool b => some b.toNat
    | integer n => if 0 ≤ n then some n.toNat else none
    | real x => some x.toWord.toNat
    | text s =>
      match truthWord? s with
      | some b => some b.toNat
      | none => natural? s
    | _ => none
  if n < bound then return n else none

/-- A number of 64 bits. -/
def word? (v : Setting) : Option UInt64 := (v.number? UInt64.size).map UInt64.ofNat

/-- A number of 32 bits. -/
def word32? (v : Setting) : Option UInt32 := (v.number? UInt32.size).map UInt32.ofNat

/-- A truth value. -/
def bool? : Setting → Option Bool
  | bool b => some b
  | integer n => some (n != 0)
  | real x => some (!x.isZero)
  | text s => if s = "1" then some true else if s = "0" then some false else truthWord? s
  | _ => none

/-- A text. -/
def text? : Setting → Option String
  | bool b => some (if b then "true" else "false")
  | integer n => some (toString n)
  | real x => some x.render
  | text s => some s
  | _ => none

/-- The values of a record's fields: the entries of a table by name, or the items of a list by
position. What is beyond them does not matter. -/
def fields? (names : List String) : Setting → Option (List Setting)
  | table es => names.mapM fun name => es.lookup name
  | list vs => if names.length ≤ vs.length then some (vs.take names.length) else none
  | _ => none

/-! ## Records -/

/-- The asset of a chain. -/
def asset? (v : Setting) : Option ChainAsset := do
  match ← v.fields? ["symbol", "name", "native_denom", "decimals"] with
  | [symbol, name, nativeDenom, decimals] =>
    return ⟨← symbol.text?, ← name.text?, ← nativeDenom.text?, ← decimals.word32?⟩
  | _ => none

/-- Where data is posted to, unless it is unset. -/
def webhook? (v : Setting) : Option (Option WebhookSettings) :=
  match v with
  | unset => some none
  | v => do
    match ← v.fields? ["url", "secret"] with
    | [url, secret] => return some ⟨← url.text?, ← secret.text?⟩
    | _ => none

/-- A watched address. -/
def watchEntry? (v : Setting) : Option WatchEntry := do
  match ← v.fields? ["address", "source_key"] with
  | [address, sourceKey] => return ⟨← address.text?, ← sourceKey.text?⟩
  | _ => none

/-- The watched addresses. -/
def watch? : Setting → Option (List WatchEntry)
  | list vs => vs.mapM watchEntry?
  | _ => none

end Setting

namespace Settings

/-- The settings of a tree; one that is not in it has its default. -/
def ofTree? (root : List (String × Setting)) : Option Settings := do
  let ask {α : Type} (name : String) (default : α) (read : Setting → Option α) : Option α :=
    match root.lookup name with
    | some v => read v
    | none => some default
  return {
    baseUrl := ← ask "base_url" Settings.default.baseUrl Setting.text?
    databasePath := ← ask "database_path" Settings.default.databasePath Setting.text?
    scanIntervalSecs := ← ask "scan_interval_secs" Settings.default.scanIntervalSecs Setting.word?
    maxConcurrentExtractions :=
      ← ask "max_concurrent_extractions" Settings.default.maxConcurrentExtractions Setting.word?
    rescanLastBlockCount :=
      ← ask "rescan_last_block_count" Settings.default.rescanLastBlockCount Setting.word?
    scanMempool := ← ask "scan_mempool" Settings.default.scanMempool Setting.bool?
    requestTimeoutSecs :=
      ← ask "request_timeout_secs" Settings.default.requestTimeoutSecs Setting.word?
    maxRetries := ← ask "max_retries" Settings.default.maxRetries Setting.word32?
    asset := ← ask "asset" Settings.default.asset Setting.asset?
    webhook := ← ask "webhook" Settings.default.webhook Setting.webhook?
    watch := ← ask "watch" Settings.default.watch Setting.watch? }

/-! ## Layers -/

/-- How the name of a variable begins that holds a setting, in small letters. -/
def variableLead : List Char := "chainscan_".toList

/-- A text in which every two underscores are a point. -/
def pointed : List Char → List Char
  | '_' :: '_' :: rest => '.' :: pointed rest
  | c :: rest => c :: pointed rest
  | [] => []

/-- The path that a variable sets, if it holds a setting. -/
def variablePath? (name : String) : Option Path :=
  let chars := (Setting.small name).toList
  if variableLead.isPrefixOf chars then
    some (.ofText (String.ofList (pointed (chars.drop variableLead.length))))
  else none

/-- The tree of a document: each of its entries is set at the path that its name spells. -/
def documentTree (document : List (String × Setting)) : List (String × Setting) :=
  document.foldl (fun root (name, v) => (Path.ofText name).set v root) []

/-- Sets what the environment holds. -/
def withEnvironment (environment : List (String × String)) (root : List (String × Setting)) :
    List (String × Setting) :=
  environment.foldl (fun root (name, v) =>
    match variablePath? name with
    | some path => path.set (.text v) root
    | none => root) root

/-- The settings of a document under an environment. -/
def load (document : String) (environment : List (String × String)) :
    Except SettingsError Settings := do
  match Toml.read? document with
  | none => throw .unreadable
  | some entries =>
    match ofTree? (withEnvironment environment (documentTree entries)) with
    | some settings => return settings
    | none => throw .invalid

/-- The document that is written where there is none. -/
def defaultDocument : String := "\n".intercalate
  [ "# chainscan configuration",
    "#",
    "# Every key can be overridden from the environment with the CHAINSCAN_ prefix and `__` as the",
    "# nesting separator, e.g. CHAINSCAN_ASSET__DECIMALS=8 or CHAINSCAN_SCAN_MEMPOOL=true.",
    "",
    "base_url = \"http://127.0.0.1:8080\"",
    "database_path = \"data/chainscan.db\"",
    "scan_interval_secs = 10",
    "max_concurrent_extractions = 20",
    "rescan_last_block_count = 1",
    "scan_mempool = false",
    "request_timeout_secs = 30",
    "max_retries = 3",
    "",
    "[asset]",
    "symbol = \"BNB\"",
    "name = \"Binance Chain\"",
    "native_denom = \"BNB\"",
    "decimals = 8",
    "",
    "# Extracted data is posted here when set.",
    "# [webhook]",
    "# url = \"https://example.com/chainscan\"",
    "# secret = \"change-me\"",
    "",
    "# Addresses whose movements are extracted, and the wallet source key they belong to.",
    "# [[watch]]",
    "# address = \"bnb1...\"",
    "# source_key = \"hot-wallet\"",
    "" ]

end Settings

end WalletScan
