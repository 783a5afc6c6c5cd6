import WalletScan.CommandLine.Program
import WalletScan.Gateway.Client
import WalletScan.Mask
import WalletScan.Task
import WalletScan.Webhook.Delivery

/-!
# Running the program

A `Host` is what the program needs of the machine that it runs on: an environment, documents,
servers, ledgers, a log and a clock. Given a host, `Host.perform` runs a command line to its end.

* `Host.answer` — how a host answers the queries of a scan. The first sink is the log and never
  refuses; the second is the webhook.
* `Job.ending` — what is printed, and how the program ends. A daemon only fails where its loop does.

Specification: section 11, the command line and the daemon.
-/

set_option autoImplicit false

namespace WalletScan.CommandLine

/-- How long a server may take to answer, and how often it is asked again. -/
structure Patience where
  seconds : UInt64
  retries : UInt32
deriving DecidableEq, Repr

/-- What the program needs of the machine that it runs on. -/
structure Host (m : Type → Type) where
  environment : m (List (String × String))
  /-- The document at a path; the given one is written where there is none. -/
  document : (path fresh : String) → m (Except SettingsError String)
  fetch : Patience → Http.Location → m Http.Reply
  post : Http.Location → Webhook.Request → m Http.Reply
  /-- Performs an operation on the ledger at a path. -/
  store : (path : String) → (op : LedgerOp) → m (Except LedgerError op.Answer)
  note : Log.Record → m Unit
  now : m Moment
  taskState : m TaskState

/-- A command that is ready to be carried out. -/
structure Job where
  settings : Settings
  /-- Whether the log shows addresses in full. -/
  reveal : Bool
  command : Command
  plan : Plan

/-- How the program ends: its exit code, the lines that it prints, and its complaint. -/
structure Ending where
  code : Nat
  lines : List String
  complaint : Option String
deriving DecidableEq, Repr

/-- The end of a program that failed. -/
def Ending.failed (cause : Failure) : Ending := ⟨1, [], some cause.message⟩

/-- The end of a program that did what it was asked to. -/
def Ending.done (lines : List String) : Ending := ⟨0, lines, none⟩

/-- The end of a program whose command line was refused. -/
def Ending.refused (cause : UsageError) : Ending :=
  ⟨cause.exitCode, if cause = .helpRequested then usage else [], none⟩

namespace Job

/-- The job of an invocation, given its document and its environment. -/
def of (i : Invocation) (document : String) (environment : List (String × String)) :
    Except Failure Job := do
  let settings ← i.settings document environment
  let plan ← i.command.plan settings
  return ⟨settings, revealsAddresses environment, i.command, plan⟩

/-- How long the gateway may take. -/
def patience (job : Job) : Patience := ⟨job.settings.requestTimeoutSecs, job.settings.maxRetries⟩

/-- The failure of a script that halted; a daemon outlives all but the errors that end its loop. -/
def failure? (job : Job) (halt : Halt) : Option Failure :=
  match job.command with
  | .daemon _ _ _ =>
    match LoopPhase.afterCycle (α := Unit) 0 (.error halt) with
    | .ended (.error cause) => some (.scan cause)
    | _ => none
  | .unscanned _ _ =>
    match halt with
    | .failed (.ledger cause) => some (.ledger cause)
    | halt => some (.ofHalt halt)
  | _ => some (.ofHalt halt)

/-- How the program ends after its script. -/
def ending (job : Job) : Except Halt (List String) → Ending
  | .ok lines => .done lines
  | .error halt =>
    match job.failure? halt with
    | some cause => .failed cause
    | none => .done []

end Job

namespace Host

variable {m : Type → Type} [Monad m]

/-- Asks the chain; without a location nobody answers. -/
def ask (h : Host m) (job : Job) (q : ChainQuery) : m q.Answer := do
  match job.plan.base with
  | some base => return Gateway.answer q (← h.fetch job.patience (Gateway.location base q))
  | none => return Gateway.answer q (.error ⟨job.settings.baseUrl⟩)

/-- Posts a delivery to the webhook. -/
def postDelivery (h : Host m) (webhook : WebhookSettings) (d : Webhook.Delivery) :
    m (Except NotifyError Unit) := do
  match Http.Location.parse webhook.url with
  | .ok location =>
    let request := d.request webhook.secret (← h.now)
    return Webhook.verdict (← h.post location request)
  | .error _ => return .error Webhook.unaddressed

/-- Hands an owner's data to a sink. -/
def deliver (h : Host m) (job : Job) (sink : Nat) (owner : OwnerKey) (data : ExtractedData) :
    m (Except NotifyError Unit) := do
  match sink, job.settings.webhook with
  | _ + 1, some webhook => h.postDelivery webhook ⟨owner, data⟩
  | _, _ =>
    (Log.dataNotices job.reveal owner data).forM h.note
    return .ok ()

/-- Answers the queries of a job. -/
def answer (h : Host m) (job : Job) : (q : Query) → m q.Answer
  | .chain q => h.ask job q
  | .ledger op => h.store job.settings.databasePath op
  | .deliver sink owner data => h.deliver job sink owner data
  | .announce header isFork => do
    h.note (Log.blockNotice header isFork)
    return .ok ()
  | .report _ => return ()
  | .taskState => h.taskState

/-- Makes the words of a command line into a job, or ends at once. -/
def prepare (h : Host m) (words : List String) : m (Except Ending Job) := do
  match Invocation.parse words with
  | .error cause => return .error (.refused cause)
  | .ok i =>
    let environment ← h.environment
    match ← h.document i.configPath (Settings.defaultDocument ++ "\n") with
    | .error cause => return .error (.failed (.settings cause))
    | .ok document =>
      match Job.of i document environment with
      | .ok job => return .ok job
      | .error cause => return .error (.failed cause)

/-- Carries a job out once; the job of a daemon is one cycle. -/
def carryOut (h : Host m) (job : Job) : m Ending := do
  return job.ending (← job.plan.script.runIn (h.answer job))

/-- Runs a command line to its end; a daemon ends after its first cycle. -/
def perform (h : Host m) (words : List String) : m Ending := do
  match ← h.prepare words with
  | .ok job => h.carryOut job
  | .error ending => return ending

end Host

end WalletScan.CommandLine
