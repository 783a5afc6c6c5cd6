import WalletScan.Engine

/-!
# Settings of a scanner

Everything that a scanner needs to run. Each setting has a default, and values given on the command
line win over the ones of the configuration.

Specification: section 10.3 (`ScannerConfig`).
-/

set_option autoImplicit false

namespace WalletScan

open Wire
open Json (Form Value)

/-- Where extracted data is posted to, and the secret that signs it. -/
structure WebhookSettings where
  url : String
  secret : String
deriving DecidableEq, Repr

instance : Wire WebhookSettings where
  form := Form.record
    [ field String "url",
      field String "secret" ]
  toValue a := .object
    [ ("url", toValue a.url),
      ("secret", toValue a.secret) ]
  ofValue?
    | .object members => do
      pure
        { url := ← member? members "url"
          secret := ← member? members "secret" }
    | _ => none

/-- The settings of a scanner. -/
structure Settings where
  baseUrl : String
  databasePath : String
  scanIntervalSecs : UInt64
  maxConcurrentExtractions : UInt64
  rescanLastBlockCount : UInt64
  scanMempool : Bool
  requestTimeoutSecs : UInt64
  maxRetries : UInt32
  asset : ChainAsset
  webhook : Option WebhookSettings
  watch : List WatchEntry
deriving DecidableEq, Repr

/-- The settings that are assumed when none are given. -/
def Settings.default : Settings :=
  { baseUrl := "http://127.0.0.1:8080"
    databasePath := "data/chainscan.db"
    scanIntervalSecs := 10
    maxConcurrentExtractions := EngineConfig.default.maxConcurrent
    rescanLastBlockCount := EngineConfig.default.rescanCount
    scanMempool := EngineConfig.default.scanMempool
    requestTimeoutSecs := 30
    maxRetries := 3
    asset := .default
    webhook := none
    watch := [] }

instance : Wire Settings where
  form := Form.record
    [ defaultField "base_url" (Settings.default.baseUrl),
      defaultField "database_path" (Settings.default.databasePath),
      defaultField "scan_interval_secs" (Settings.default.scanIntervalSecs),
      defaultField "max_concurrent_extractions" (Settings.default.maxConcurrentExtractions),
      defaultField "rescan_last_block_count" (Settings.default.rescanLastBlockCount),
      defaultField "scan_mempool" (Settings.default.scanMempool),
      defaultField "request_timeout_secs" (Settings.default.requestTimeoutSecs),
      defaultField "max_retries" (Settings.default.maxRetries),
      defaultField "asset" (Settings.default.asset),
      defaultField "webhook" (Settings.default.webhook),
      defaultField "watch" (Settings.default.watch) ]
  toValue a := .object
    [ ("base_url", toValue a.baseUrl),
      ("database_path", toValue a.databasePath),
      ("scan_interval_secs", toValue a.scanIntervalSecs),
      ("max_concurrent_extractions", toValue a.maxConcurrentExtractions),
      ("rescan_last_block_count", toValue a.rescanLastBlockCount),
      ("scan_mempool", toValue a.scanMempool),
      ("request_timeout_secs", toValue a.requestTimeoutSecs),
      ("max_retries", toValue a.maxRetries),
      ("asset", toValue a.asset),
      ("webhook", toValue a.webhook),
      ("watch", toValue a.watch) ]
  ofValue?
    | .object members => do
      pure
        { baseUrl := ← member? members "base_url"
          databasePath := ← member? members "database_path"
          scanIntervalSecs := ← member? members "scan_interval_secs"
          maxConcurrentExtractions := ← member? members "max_concurrent_extractions"
          rescanLastBlockCount := ← member? members "rescan_last_block_count"
          scanMempool := ← member? members "scan_mempool"
          requestTimeoutSecs := ← member? members "request_timeout_secs"
          maxRetries := ← member? members "max_retries"
          asset := ← member? members "asset"
          webhook := ← member? members "webhook"
          watch := ← member? members "watch" }
    | _ => none

/-- Values of the command line that win over the configuration. -/
structure Overrides where
  baseUrl : Option String
  databasePath : Option String
  scanIntervalSecs : Option UInt64
  /-- Switches the mempool on, but never off. -/
  scanMempool : Bool
deriving DecidableEq, Repr

/-- No override at all. -/
def Overrides.none : Overrides := ⟨Option.none, Option.none, Option.none, false⟩

namespace Settings

/-- The settings under the values of the command line. -/
def apply (o : Overrides) (s : Settings) : Settings :=
  { s with
    baseUrl := o.baseUrl.getD s.baseUrl
    databasePath := o.databasePath.getD s.databasePath
    scanIntervalSecs := o.scanIntervalSecs.getD s.scanIntervalSecs
    scanMempool := o.scanMempool || s.scanMempool }

/-- The tuning of the engine. -/
def engineConfig (s : Settings) : EngineConfig :=
  ⟨s.maxConcurrentExtractions, s.rescanLastBlockCount, s.scanMempool⟩

/-- The registry of watched addresses. -/
def watchList (s : Settings) : WatchList := .ofEntries s.watch

end Settings

end WalletScan
