import WalletScan.Script
import WalletScan.Table

/-!
# A scripted chain source

A scripted chain source answers from tables that are filled in beforehand. It serves to rehearse a
scan against any behaviour of a node: blocks that are served once and then replaced, failing
lookups, workers that die, a tip that moves with every question.
-/

set_option autoImplicit false

namespace WalletScan.Rehearsal

/-- The tables of a scripted chain source. -/
structure ChainTables where
  /-- What is served at a height, whatever height the block claims. -/
  blocks : Table UInt64 (Except ChainError Block)
  /-- Answers that are given once each, before the ones of `blocks`. -/
  once : Table UInt64 (List (Except ChainError Block))
  /-- The answers to questions for the tip; the last one repeats. -/
  tips : List (Except ChainError UInt64)
  /-- How often the tip may still be asked for. -/
  tipBudget : Nat
  transactions : Table String Lookup
  pending : Table String (Except ChainError Transaction)
  pendingIds : Except ChainError (List String)
  /-- Fees by height, for single and for multi transfers. -/
  fees : Table UInt64 (Except ChainError UInt64 × Except ChainError UInt64)
  balances : Table (String × String) (Except ChainError UInt64)
  history : Table String (Except ChainError (List Transaction))
  /-- Whether the source only answers what every source must. -/
  minimal : Bool

namespace ChainTables

/-- How often the tip may be asked for within one step of a rehearsal. -/
def tipsPerStep : Nat := 300

/-- A chain source that knows nothing. -/
def empty : ChainTables := ⟨[], [], [], tipsPerStep, [], [], .ok [], [], [], [], false⟩

/-- The fees of a height that has none of its own. -/
def defaultFee : FeeKind → UInt64
  | .single => 37500
  | .multi => 30000

/-- The height of the highest stored block. -/
def highest (c : ChainTables) : UInt64 := c.blocks.foldl (fun h e => max h e.1) 0

/-- Answers a question for the tip. -/
def askTip (c : ChainTables) : Except ChainError UInt64 × ChainTables :=
  match c.tipBudget with
  | 0 => (.error (.unavailable "tip budget exhausted"), c)
  | budget + 1 =>
    let c := { c with tipBudget := budget }
    match c.tips with
    | [] => (.ok c.highest, c)
    | [tip] => (tip, c)
    | tip :: rest => (tip, { c with tips := rest })

/-- Answers a question for a block. -/
def askBlock (height : UInt64) (c : ChainTables) : Except ChainError Block × ChainTables :=
  match (c.once.lookup height).getD [] with
  | answer :: rest => (answer, { c with once := c.once.insert height rest })
  | [] => ((c.blocks.lookup height).getD (.error (.blockNotFound height)), c)

/-- Answers a question to the chain source. -/
def answer : (q : ChainQuery) → ChainTables → q.Answer × ChainTables
  | .tip, c => c.askTip
  | .block h, c => c.askBlock h
  | .transaction txid, c =>
    ((c.transactions.lookup txid).getD (.failed (.transactionNotFound txid)), c)
  | .mempool, c => (if c.minimal then .ok [] else c.pendingIds, c)
  | .mempoolTransaction txid, c =>
    let unknown := .error (.transactionNotFound txid)
    (if c.minimal then unknown else (c.pending.lookup txid).getD unknown, c)
  | .fee kind h, c =>
    let fees := c.fees.lookup h
    match kind with
    | .single => ((fees.map (·.1)).getD (.ok (defaultFee .single)), c)
    | .multi => ((fees.map (·.2)).getD (.ok (defaultFee .multi)), c)
  | .balance address denom, c => ((c.balances.lookup (address, denom)).getD (.ok 0), c)
  | .history address, c =>
    (if c.minimal then .error (.unsupported "transactions_by_address")
      else (c.history.lookup address).getD (.ok []), c)

/-- Whether a question reaches the source; a minimal one leaves some to their defaults. -/
def hears (c : ChainTables) : ChainQuery → Bool
  | .mempool => !c.minimal
  | .mempoolTransaction _ => !c.minimal
  | .history _ => !c.minimal
  | _ => true

/-- The block of a chain whose hashes are a lead followed by the height. -/
def linearBlock (lead : String) (height : UInt64) : Block :=
  let hash (h : UInt64) := lead ++ toString h.toNat
  ⟨⟨hash height, hash (lowered height 1), height, 0⟩, []⟩

/-- Stores the blocks of such a chain over a range of heights. -/
def addLinear (first last : UInt64) (lead : String) (c : ChainTables) : ChainTables :=
  { c with
    blocks := (List.range (last.toNat + 1 - first.toNat)).foldl
      (fun blocks i =>
        let height := first + UInt64.ofNat i
        blocks.insert height (.ok (linearBlock lead height)))
      c.blocks }

end ChainTables

end WalletScan.Rehearsal
