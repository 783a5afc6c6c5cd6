import WalletScan.Rehearsal.World
import WalletScan.Wire.Records
import WalletScan.Cycle
import WalletScan.Webhook.Delivery

/-!
# Accounts of a rehearsal

What happened in a rehearsal, as JSON: the result of a step, the events that came through the
channel, the questions that the chain source heard, the deliveries to each sink, and the state of
the ledger afterwards. Also what a gateway answered, and what was posted to a webhook.
-/

set_option autoImplicit false

namespace WalletScan.Rehearsal.Account

open Json (Value)

/-! ## Values -/

/-- A number of 64 bits. -/
def word (n : UInt64) : Value := .number n.toNat

/-- A value that may be missing. -/
def optional {α : Type} (write : α → Value) : Option α → Value
  | none => .null
  | some a => write a

/-- A list of texts. -/
def texts (l : List String) : Value := .array (l.map .text)

/-- A block's header: height, hash, hash of the block before, and time. -/
def header (h : BlockHeader) : Value :=
  .array [word h.height, .text h.hash, .text h.previousHash, word h.timestamp]

/-- A cursor: height and hash. -/
def cursor (c : Cursor) : Value := .array [word c.height, .text c.hash]

/-- What belongs to each owner, in the order of the owners. -/
def ownerRows {α : Type} (write : α → Value) (m : OwnerMap α) : Value :=
  .array (m.map fun (k, v) => .array [.text k.render, .bool k.isFee, write v])

/-! ## Errors -/

/-- An error by its kind and its wording. -/
def fault (kind message : String) : Value :=
  .object [("error", .text kind), ("message", .text message)]

/-- The kind of a chain error. -/
def chainKind : ChainError → String
  | .transactionNotFound _ => "TransactionNotFound"
  | .blockNotFound _ => "BlockNotFound"
  | .unavailable _ => "Unavailable"
  | .malformed _ => "Malformed"
  | .unsupported _ => "Unsupported"

/-- The kind of a delivery error. -/
def notifyKind : NotifyError → String
  | .rejected _ => "Rejected"
  | .transport _ => "Transport"
  | .closed => "Closed"

/-- A ledger error; what is wrong with an unreadable list is not worded. -/
def ledgerError : LedgerError → Value
  | .invalidInput d => fault "InvalidInput" (LedgerError.invalidInput d).message
  | .unexpected d => fault "Unexpected" (LedgerError.unexpected d).message
  | .unreadable => .object [("error", .text "Unreadable")]

/-- An error that a ledger error caused. -/
def causedBy (kind : String) (cause : LedgerError) (message : String) : Value :=
  .object ([("error", .text kind), ("cause", ledgerError cause)]
    ++ if cause = .unreadable then [] else [("message", .text message)])

/-- A scan error. -/
def scanError (e : ScanError) : Value :=
  match e with
  | .fatal _ => fault "Fatal" e.message
  | .intermittent _ => fault "Intermittent" e.message
  | .extraction _ _ => fault "Extraction" e.message
  | .invalidHeight _ => fault "InvalidHeight" e.message
  | .chain _ => fault "Chain" e.message
  | .ledger cause => causedBy "DbError" cause e.message

/-- Why a step ended without a result. -/
def halt : Halt → Value
  | .failed e => scanError e
  | .crashed d => fault "Crashed" d
  | .exhausted => .object [("error", .text "Exhausted")]

/-- The outcome of a batch. -/
def batchOutcome : Except BatchError BatchSummary → Value
  | .ok s => .object [("total", .number s.total), ("delivered", .number s.delivered)]
  | .error e =>
    match e with
    | .incomplete h failed total =>
      .object [("error", .text "Incomplete"), ("height", word h), ("failed", texts failed),
        ("total", .number total), ("message", .text e.message)]
    | .ledger cause => causedBy "Ledger" cause e.message

/-- The report of a cycle. -/
def report (r : CycleReport) : Value :=
  .object [("start", word r.startHeight), ("final", word r.finalHeight),
    ("blocks", .number r.blocksScanned), ("forks", .number r.forks),
    ("retried", .number r.retriedHeights), ("purged", .number r.purgedRecords),
    ("interrupted", .bool r.interrupted)]

/-! ## Servers -/

/-- An error of a gateway; the wording of a decoder or of a connection is left out. -/
def gatewayError (e : ChainError) : Value :=
  let worded : Bool :=
    match e with
    | .malformed detail => "requested block ".isPrefixOf detail
    | .unavailable detail => "Server error ".isPrefixOf detail
    | _ => true
  if worded then fault (chainKind e) e.message else .object [("error", .text (chainKind e))]

/-- What a gateway answered. -/
def gatewayAnswer {α : Type} (write : α → Value) : Except ChainError α → Value
  | .ok a => write a
  | .error e => gatewayError e

/-- A request to a webhook. -/
def webhookRequest (target : String) (r : Webhook.Request) : Value :=
  .object [("request", .text ("POST " ++ target)), ("content_type", .text r.contentType),
    ("user_agent", .text r.userAgent), ("signature", .text r.signature),
    ("timestamp", .text r.timestamp), ("body", .text r.body)]

/-- What became of a delivery; the wording of a connection is left out. -/
def deliveryVerdict (reply : Http.Reply) : Value :=
  match Webhook.verdict reply, reply with
  | .ok (), _ => .text "ok"
  | .error e, .ok _ => fault (notifyKind e) e.message
  | .error e, .error _ => .object [("error", .text (notifyKind e))]

/-! ## Traces -/

/-- The data of an owner, in short. -/
def dataEvent (owner : OwnerKey) (d : ExtractedData) : Value :=
  let input (i : TxInput) : Value := .array [word i.index, .text i.address, word i.amount,
    .text i.coin.denom, .number i.txType.code]
  let output (o : TxOutput) : Value :=
    .array [word o.index, .text o.address, word o.amount, .text o.coin.denom]
  let summary (s : TransactionSummary) : Value := .object [("txid", .text s.txid),
    ("wx_id", .text s.wxId), ("height", word s.blockHeight), ("hash", .text s.blockHash),
    ("amount", optional word s.amount)]
  .object [("owner", .text owner.render), ("data", .object [
    ("inputs", .array (d.inputs.map input)), ("outputs", .array (d.outputs.map output)),
    ("tx", optional summary d.transaction)])]

/-- A status event. -/
def statusEvent : StatusEvent → Value
  | .started h => .object [("started", word h)]
  | .progress h n => .object [("progress", .array [word h, .number n])]
  | .forkDetected a r => .object [("fork_detected", .array [word a, word r])]
  | .completed h n => .object [("completed", .array [word h, .number n])]
  | .paused h .paused => .object [("paused", .array [word h, .text "Paused"])]
  | .paused h .stopped => .object [("paused", .array [word h, .text "Stopped"])]

/-- What came through the channel, if it is open. -/
def events (w : World) (trace : List Exchange) : List Value :=
  if w.channel ≠ some true then []
  else trace.filterMap fun
    | ⟨.report e, _⟩ => some (statusEvent e)
    | ⟨.announce h f, .ok ()⟩ => some (.object [("block", header h), ("fork", .bool f)])
    | ⟨.deliver k owner d, .ok ()⟩ => if k = w.sinks.length then some (dataEvent owner d) else none
    | _ => none

/-- A question to the chain source. -/
def call : ChainQuery → String
  | .tip => "tip"
  | .block h => "block " ++ toString h.toNat
  | .transaction id => "tx " ++ id
  | .mempool => "mempool"
  | .mempoolTransaction id => "mempool_tx " ++ id
  | .fee .single h => "fee " ++ toString h.toNat
  | .fee .multi h => "multi_fee " ++ toString h.toNat
  | .balance a d => "balance " ++ a ++ " " ++ d
  | .history a => "history " ++ a

/-- The questions that the chain source heard. -/
def calls (w : World) (trace : List Exchange) : List Value :=
  trace.filterMap fun
    | ⟨.chain q, _⟩ => if w.chain.hears q then some (.text (call q)) else none
    | _ => none

/-- The deliveries to each sink but the channel. -/
def deliveries (w : World) (trace : List Exchange) : List Value :=
  (List.range w.sinks.length).map fun k => .array (trace.filterMap fun
    | ⟨.deliver k' owner d, answer⟩ =>
      let accepted := match answer with
        | .ok () => true
        | .error _ => false
      if k' = k then
        some (.array [.text owner.render, optional .text (d.transaction.map (·.txid)),
          .bool accepted])
      else none
    | _ => none)

/-- The state of a ledger: cursor, blocks by height, and what has to be tried again. -/
def ledgerState (l : Ledger) : Value :=
  let heights : List UInt64 :=
    match l with
    | .memory m => m.blocks.keys
    | .rows r => r.blocks.map fun row => row.height.toUInt64
  let block (h : UInt64) : Option Value :=
    match (l.perform (.getBlock h)).1 with
    | .ok (some b) => some (.array [word h, .text b.hash])
    | .ok none => none
    | .error e => some (.array [word h, ledgerError e])
  let position : Option Cursor := match (l.perform .getCursor).1 with
    | .ok c => c
    | .error _ => none
  let records : List UnscannedRecord := match (l.perform .listUnscanned).1 with
    | .ok rs => rs
    | .error _ => []
  .object [("cursor", optional cursor position),
    ("blocks", .array ((heights.mergeSort fun a b => decide (a ≤ b)).filterMap block)),
    ("unscanned", .array (records.map fun r =>
      .array [word r.height, .text r.txid, .text r.reason]))]

/-- A list that is left out when it is empty. -/
def nonEmpty (name : String) (l : List Value) : List (String × Value) :=
  if l.isEmpty then [] else [(name, .array l)]

/-! ## Steps -/

/-- The name of a task's state. -/
def taskState : TaskState → Value
  | .idle => .text "Idle"
  | .running => .text "Running"
  | .paused => .text "Paused"
  | .stopped => .text "Stopped"

/-- What a loop answered to the call that waited for it, if it ended. -/
def loopResult : Option (Except ScanError Unit) → Value
  | some (.ok ()) => .text "ok"
  | some (.error e) => scanError e
  | none => .text "pending"

/-- What a step answers, and what it did. -/
structure Outcome where
  result : Value
  world : World
  trace : List Exchange
  /-- Whether the chain calls are answered. -/
  showCalls : Bool

/-- The outcome of a step that runs no script. -/
def Outcome.still (result : Value) (w : World) : Outcome := ⟨result, w, [], true⟩

/-- The outcome of a script. After a ledger error the chain calls are not answered. -/
def Outcome.ofRun {α : Type} (write : α → Value) (r : Run World α) : Outcome :=
  match r.result with
  | .ok a => ⟨write a, r.state, r.trace, true⟩
  | .error (.failed (.ledger cause)) =>
    ⟨halt (.failed (.ledger cause)), r.state, r.trace, false⟩
  | .error h => ⟨halt h, r.state, r.trace, true⟩

/-- The account of a step of an engine. -/
def Outcome.render (before : World) (name : String) (o : Outcome) : Value :=
  .object ([("op", .text name), ("result", o.result)]
    ++ nonEmpty "events" (events before o.trace)
    ++ (if o.showCalls then nonEmpty "calls" (calls before o.trace) else [])
    ++ nonEmpty "sinks" (deliveries before o.trace)
    ++ [("ledger", ledgerState o.world.ledger)])

end WalletScan.Rehearsal.Account
