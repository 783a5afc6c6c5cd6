import Std.Async.DNS
import Std.Async.Signal
import Std.Async.TCP
import Std.Async.Timer
import Std.Internal.UV.System
import WalletScan.CommandLine.Host
import WalletScan.Http.Message
import WalletScan.Ledger.Store
import WalletScan.Log.Configuration

/-!
# The program

The machine that the program runs on, as a host: files, connections, the clock and the terminal. All
decisions are made in `WalletScan.CommandLine`; here they are only carried out.
-/

set_option autoImplicit false

namespace WalletScan.Machine

open CommandLine (Ending Host Job Patience)
open Std.Async (Async)
open Std.Async.TCP.Socket (Client)

/-! ## Connections -/

/-- How many bytes are received at a time. -/
def chunkSize : UInt64 := 65536

/-- The address of a server. -/
def address (location : Http.Location) : Async Std.Net.SocketAddress := do
  let service := (location.service.orElse fun _ =>
    Http.Location.schemeService location.scheme).getD 80
  let addresses : Array Std.Net.IPAddr ←
    Std.Async.DNS.getAddrInfo location.host (toString service)
  match addresses.toList with
  | .v4 a :: _ => return .v4 ⟨a, UInt16.ofNat service⟩
  | .v6 a :: _ => return .v6 ⟨a, UInt16.ofNat service⟩
  | [] => throw (.userError "the host has no address")

/-- Sends bytes to a server, and answers all bytes that come before it closes the connection. -/
def converse (location : Http.Location) (bytes : ByteArray) : Async ByteArray := do
  let client ← Client.mk
  client.connect (← address location)
  client.sendAll #[bytes]
  let mut received := ByteArray.empty
  repeat
    match ← client.recv? chunkSize with
    | some chunk => received := received ++ chunk
    | none => break
  return received

/-- Gives up after some seconds. -/
def expire (seconds : UInt64) : Async ByteArray := do
  Std.Async.sleep (.ofNat (seconds.toNat * 1000))
  throw (.userError "the server took too long")

/-- Sends a request over a connection of its own. -/
def request (seconds : UInt64) (r : Http.Request) : IO Http.Reply := do
  let bytes := ByteArray.mk r.bytes.toArray
  let received ←
    try (Async.race (converse r.location bytes) (expire seconds)).block
    catch _ => pure .empty
  match Http.readResponse? received.toList with
  | some response => return .ok response
  | none => return .error ⟨r.location.render⟩

/-- How long the first pause before asking again is, in milliseconds. -/
def firstPause : UInt32 := 1000

/-- Asks a server, and again after growing pauses while that may help. -/
def fetch (patience : Patience) (location : Http.Location) : IO Http.Reply := do
  let r : Http.Request := ⟨"GET", location, [], []⟩
  let mut reply ← request patience.seconds r
  let mut pause := firstPause
  for _ in [0:patience.retries.toNat] do
    if reply.isTransient then
      IO.sleep pause
      pause := 2 * pause
      reply ← request patience.seconds r
  return reply

/-- How many seconds a webhook may take. -/
def webhookPatience : UInt64 := 20

/-- Posts to a webhook. -/
def post (location : Http.Location) (r : Webhook.Request) : IO Http.Reply :=
  request webhookPatience
    { method := "POST"
      location := location
      headers :=
        [ ("content-type", r.contentType), ("user-agent", r.userAgent),
          ("x-chainscan-signature", r.signature), ("x-chainscan-timestamp", r.timestamp) ]
      body := Utf8.encode r.body }

/-! ## Files -/

/-- The directory that a file is in, if its path names one. -/
def directoryOf (path : String) : Option String :=
  match (path.splitOn "/").dropLast with
  | [] => none
  | parts => some ("/".intercalate parts)

/-- Writes a file, and the directory that it is in. -/
def write (path content : String) : IO Unit := do
  if let some directory := directoryOf path then
    unless directory.isEmpty do IO.FS.createDirAll directory
  IO.FS.writeFile path content

/-- The content of a file, if there is such a file. -/
def read? (path : String) : IO (Option String) := do
  try return some (← IO.FS.readFile path)
  catch
    | .noFileOrDirectory _ _ _ => return none
    | cause => throw cause

/-- The document at a path; the given one is written where there is none. -/
def document (path fresh : String) : IO (Except SettingsError String) := do
  match ← (read? path).toBaseIO with
  | .ok (some content) => return .ok content
  | .error _ => return .error .unreadable
  | .ok none =>
    match ← (write path fresh).toBaseIO with
    | .ok () => return .ok fresh
    | .error _ => return .error .unwritable

/-- The ledger in a file; the tables are empty where there is none. -/
def openLedger (path : String) : IO RowLedger := do
  match ← read? path with
  | none => return .empty
  | some content =>
    match RowLedger.restore? content with
    | some ledger => return ledger
    | none => throw (.userError "the file holds no ledger")

/-- Performs an operation on the ledger in a file. -/
def perform (opened : IO.Ref (Table String RowLedger)) (path : String) (op : LedgerOp) :
    IO (Except LedgerError op.Answer) := do
  try
    let ledger ←
      match (← opened.get).lookup path with
      | some ledger => pure ledger
      | none => openLedger path
    let (answer, next) := ledger.perform op
    if next ≠ ledger then write path next.save
    opened.modify (·.insert path next)
    return answer
  catch cause => return .error (.unexpected (toString cause))

/-! ## Host -/

/-- The wall clock. -/
def now : IO Moment := do
  let time := (← Std.Time.Timestamp.now).val
  return ⟨UInt64.ofNat time.second.val.toNat, time.nano.val.toNat⟩

/-- The environment's variables in the order of their names. -/
def environment : IO (List (String × String)) := do
  let pairs ← Std.Internal.UV.System.osEnviron
  return pairs.toList.mergeSort fun a b => decide (a.1 ≤ b.1)

/-- The machine as a host, given how the log is written, and whether the program was interrupted. -/
def host (pattern : List Log.Piece) (interrupted : IO Bool)
    (opened : IO.Ref (Table String RowLedger)) : Host IO where
  environment := environment
  document := document
  fetch := fetch
  post := post
  store := perform opened
  note record := do
    IO.print (Log.plainText (Log.lineMarks pattern (← now) record))
    (← IO.getStdout).flush
  now := now
  taskState := return if ← interrupted then .stopped else .running

/-- The pattern of the log. -/
def logPattern : IO (List Log.Piece) := do
  let content ← try read? Log.configurationPath catch _ => pure none
  return Log.Pattern.parse ((content.map Log.configuredPattern).getD Log.defaultPattern)

/-- How many milliseconds pass between two looks at whether the program was interrupted. -/
def glance : Nat := 100

/-- Lets some seconds pass; answers early, and with `true`, if the program is interrupted. -/
def rest (interrupted : IO Bool) (seconds : UInt64) : IO Bool := do
  for _ in [0:seconds.toNat * 1000 / glance] do
    if ← interrupted then return true
    IO.sleep (UInt32.ofNat glance)
  interrupted

/-- Carries the job of a daemon out until it fails or is interrupted. -/
def repeatedly (h : Host IO) (interrupted : IO Bool) (job : Job) : IO Ending := do
  let mut ending ← h.carryOut job
  repeat
    if ending.code ≠ 0 then break
    if ← rest interrupted job.settings.scanIntervalSecs then break
    ending ← h.carryOut job
  return ending

/-- Runs a command line. -/
def run (words : List String) : IO Ending := do
  let waiter ← Std.Async.Signal.Waiter.mk .sigint false
  let opened ← IO.mkRef []
  let pattern ← logPattern
  match ← (host pattern (pure false) opened).prepare words with
  | .error ending => return ending
  | .ok job =>
    match job.command with
    | .daemon _ _ _ =>
      let signal ← waiter.wait
      let interrupted : IO Bool := IO.hasFinished signal
      repeatedly (host pattern interrupted opened) interrupted job
    | _ => (host pattern (pure false) opened).carryOut job

/-- Prints what a program has to say, and answers its exit code. -/
def finish (ending : Ending) : IO UInt32 := do
  for line in ending.lines do IO.println line
  match ending.complaint with
  | some complaint => IO.eprintln ("Error: " ++ complaint)
  | none => if ending.code = 2 then for line in CommandLine.usage do IO.eprintln line
  return UInt32.ofNat ending.code

end WalletScan.Machine

/-- Runs the program on the words of its command line. -/
def main (words : List String) : IO UInt32 := do
  WalletScan.Machine.finish (← WalletScan.Machine.run words)
