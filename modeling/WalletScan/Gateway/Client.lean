import WalletScan.Gateway.Message
import WalletScan.Http.Response
import WalletScan.Http.Location
import WalletScan.Script

/-!
# A chain source behind a gateway

Every question to the chain is one request to the gateway, and its answer is read off the gateway's
reply.

* `Gateway.path` — what is asked for;
* `Gateway.answer` — what the reply says. An unknown block or transaction is a cause of its own, an
  unknown account holds nothing, and a block of another height than the requested one is malformed.

Specification: section 11 (`HttpChainSource`).
-/

set_option autoImplicit false

namespace WalletScan.Gateway

open Http (Reply Response)

/-- Why the gateway gave no answer. -/
inductive Failure where
  | unreachable (cause : Http.Unreachable)
  /-- The gateway refused with a status and a text. -/
  | refused (response : Response)
  /-- The answer is not what was asked for. -/
  | undecodable (fault : Json.Fault)
  /-- The gateway only takes requests of two kinds. -/
  | unsupportedMethod
deriving DecidableEq, Repr

/-- The wording of what is wrong with a text. -/
def faultText : Json.Fault → String
  | .malformed => "malformed text"
  | .mismatched => "unexpected value"
  | .cutShort => "text ends early"

namespace Failure

/-- The wording of a failure. -/
def message : Failure → String
  | unreachable cause => "Middleware error: Middleware error: Request error: " ++ cause.message
  | refused r => "Server error " ++ r.statusText ++ ": " ++ r.text
  | undecodable fault => faultText fault
  | unsupportedMethod => "Unsupported HTTP method"

/-- The failure as an error of the chain source. -/
def chainError (f : Failure) : ChainError :=
  match f with
  | undecodable _ => .malformed f.message
  | _ => .unavailable f.message

/-- Whether the gateway says that there is no such thing. -/
def isNotFound : Failure → Bool
  | refused r => r.status == 404
  | _ => false

end Failure

/-- The symbols of a text's bytes. -/
def sourceOf (bytes : List UInt8) : Json.Source :=
  (Utf8.symbols bytes).flatMap fun
    | .char c => [some c]
    | .broken n => List.replicate n none

/-- The message of a reply. -/
def decode (α : Type) [Wire α] (reply : Reply) : Except Failure α :=
  match reply with
  | .error cause => .error (.unreachable cause)
  | .ok r =>
    if r.isSuccess then
      match Wire.decodeSource (sourceOf r.content) with
      | .ok a => .ok a
      | .error fault => .error (.undecodable fault)
    else .error (.refused r)

/-- A failure as an error, where a missing thing has its own. -/
def orMissing {α : Type} (missing : ChainError) : Except Failure α → Except ChainError α
  | .ok a => .ok a
  | .error f => .error (if f.isNotFound then missing else f.chainError)

/-- A failure as an error. -/
def orFailed {α : Type} : Except Failure α → Except ChainError α
  | .ok a => .ok a
  | .error f => .error f.chainError

/-- The path of a question. -/
def path : ChainQuery → String
  | .tip => "/api/v1/tip"
  | .block h => "/api/v1/blocks/" ++ toString h.toNat
  | .transaction txid => "/api/v1/txs/" ++ txid
  | .mempool => "/api/v1/mempool"
  | .mempoolTransaction txid => "/api/v1/mempool/" ++ txid
  | .fee _ h => "/api/v1/fees/" ++ toString h.toNat
  | .balance address _ => "/api/v1/balances/" ++ address
  | .history address => "/api/v1/txs?address=" ++ Http.formEncode address

/-- The location of a question. -/
def location (base : Http.Location) (q : ChainQuery) : Http.Location := base.join (path q)

/-- The block of a reply to the question for one height. -/
def blockAnswer (height : UInt64) (reply : Reply) : Except ChainError Block := do
  let r ← orMissing (.blockNotFound height) (decode BlockReply reply)
  if r.height ≠ height then
    throw (.malformed ("requested block " ++ toString height.toNat ++ " but gateway returned "
      ++ toString r.height.toNat))
  return r.block

/-- The transaction of a reply. -/
def transactionAnswer (txid : String) (reply : Reply) : Except ChainError Transaction := do
  let r ← orMissing (.transactionNotFound txid) (decode TransactionReply reply)
  return r.transaction

/-- The balance of a reply; what is not listed is zero. -/
def balanceAnswer (denom : String) (reply : Reply) : Except ChainError UInt64 :=
  match decode AccountReply reply with
  | .ok r => .ok (((r.balances.find? fun b => b.denom == denom).map (·.free)).getD 0)
  | .error f => if f.isNotFound then .ok 0 else .error f.chainError

/-- The answer to a question. -/
def answer : (q : ChainQuery) → Reply → q.Answer
  | .tip, reply => (orFailed (decode TipReply reply)).map (·.height)
  | .block h, reply => blockAnswer h reply
  | .transaction txid, reply =>
    match transactionAnswer txid reply with
    | .ok tx => .found tx
    | .error cause => .failed cause
  | .mempool, reply => (orFailed (decode MempoolReply reply)).map (·.txids)
  | .mempoolTransaction txid, reply => transactionAnswer txid reply
  | .fee kind _, reply =>
    (orFailed (decode FeeReply reply)).map fun r =>
      match kind with
      | .single => r.single
      | .multi => r.multi
  | .balance _ denom, reply => balanceAnswer denom reply
  | .history _, reply =>
    (orFailed (decode HistoryReply reply)).map fun r => r.txs.map (·.transaction)

end WalletScan.Gateway
