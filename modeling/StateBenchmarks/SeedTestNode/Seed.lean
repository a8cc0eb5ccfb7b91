/-
# The seeder of the test node

`seed_test_node.main` waits for the chain, funds three addresses, deploys a test
contract unless `find_existing_contract` finds one, grows the chain by transfers and
records the address of the contract.  All it knows of the chain it asks the node.

An answer is taken as what the script makes of it: a quantity is the number after
`int(…, 16)`, and an object is the fields the script reads.  A request that fails, and an
answer the script cannot read, are both a question that fails.
-/

import StateBenchmarks.Control.Dialogue
import StateBenchmarks.Python.Json

namespace StateBenchmarks.SeedTestNode

open Python Control

/-- `TEST_ADDRESSES`. -/
def testAddresses : List String :=
  ["0x1111111111111111111111111111111111111111",
    "0x2222222222222222222222222222222222222222",
    "0x3333333333333333333333333333333333333333"]

/-- `DEPLOY_BYTECODE`. -/
def deployBytecode : String :=
  "0x60016000556002600155600b6016600039600b6000f36103e860005260206000f3"

/-- A receipt. -/
structure Receipt where
  status : Option String
  contractAddress : Option String

/-- A transaction as the block that holds it shows it: its `hash`, `from` and `to`. -/
structure TxView where
  hash : String
  sender : Option String
  recipient : Option String

/-- A transaction the script hands to the node. -/
structure TxRequest where
  sender : String
  recipient : Option String
  value : Option String
  data : Option String
  gas : String

/-- The requests that read. -/
inductive Query where
  | accounts
  | balance (address : String)
  | transactionCount (address : String)
  | blockNumber
  | blockByNumber (number : ℕ)
  | receipt (hash : String)
  | code (address : String)

/-- What they answer.  A block is its transactions. -/
@[reducible]
def Query.Answer : Query → Type
  | .accounts => List String
  | .balance _ => ℕ
  | .transactionCount _ => ℕ
  | .blockNumber => ℕ
  | .blockByNumber _ => Option (List TxView)
  | .receipt _ => Option Receipt
  | .code _ => Option String

/-- What the script asks of its surroundings: a request, a transaction to be sent, how often
a loop with a timeout comes to its condition before the deadline, and the state file to
be written. -/
inductive Ask where
  | rpc (query : Query)
  | sendTransaction (tx : TxRequest)
  | polls (timeout : ℕ)
  | writeState (rpc : String) (contract : Option String) (funded : List String)

/-- What it gets: the hash of the transaction, or the number of rounds. -/
@[reducible]
def Ask.Answer : Ask → Type
  | .rpc query => query.Answer
  | .sendTransaction _ => String
  | .polls _ => ℕ
  | .writeState _ _ _ => Unit

/-- A part of the script. -/
abbrev Seeder (α : Type) : Type := Dialogue Ask Ask.Answer Exn α

/-- `rpc(url, …)` for a request that reads. -/
def rpc (query : Query) : Seeder query.Answer := Dialogue.query (Ask.rpc query)

/-- What an f-string makes of the last error. -/
def errorText : Option Exn → FString
  | none => [.text "None"]
  | some (.valueError message) => message
  | some (.runtimeError message) => message
  | some (.fileNotFoundError message) => message
  | some (.external name) => [.text name]
  | some _ => []

/-- What to do where nothing answers. -/
def unreachableHint : String :=
  "). Is the test stack up? Check with: docker ps --filter name=benchmark_test-client\n" ++
    "Common cause: a previous benchmark left another client holding port 8545 — the " ++
    "runner leaves its stack up by default. Tear everything down first:\n" ++
    "  docker ps -aq --filter name=benchmark_ | xargs docker rm -f\n" ++
    "then re-run: docker compose -f docker/docker-compose.test.yml up -d"

/-- What to do where the chain does not grow. -/
def stuckHint : String :=
  "s. The node reachable on this port is not the Geth --dev test client " ++
    "(dev mode mines a block per second). Check what is bound to 8545: " ++
    "docker ps --filter publish=8545"

/-- Why `wait_for_chain` gives up. -/
def chainError (url : String) (timeout : ℕ) (sawRpc : Bool) (lastError : Option Exn) : Exn :=
  if sawRpc then
    .runtimeError [.text "RPC at ", .str (.str url),
      .text " responds but the chain head stayed at 0 for ", .str (.int timeout),
      .text stuckHint]
  else
    .runtimeError ([.text "Could not reach the RPC at ", .str (.str url), .text " within ",
      .str (.int timeout), .text "s (last error: "] ++ errorText lastError ++
      [.text unreachableHint])

/-- The rounds of `wait_for_chain`. -/
def waitForChainRounds (url : String) (timeout : ℕ) : ℕ → Bool → Option Exn → Seeder Unit
  | 0, sawRpc, lastError => .raise (chainError url timeout sawRpc lastError)
  | n + 1, sawRpc, lastError => do
      match ← Dialogue.attempt (Ask.rpc .blockNumber) with
      | .ok block =>
          if 0 < block then pure ()
          else waitForChainRounds url timeout n true lastError
      | .error e => waitForChainRounds url timeout n sawRpc (some e)

/-- `wait_for_chain`. -/
def waitForChain (url : String) : Seeder Unit := do
  let rounds ← Dialogue.query (Ask.polls 60)
  waitForChainRounds url 60 rounds false none

/-- The rounds of `wait_for_tx`. -/
def waitForTxRounds (txHash : String) : ℕ → Seeder Receipt
  | 0 =>
      .raise (.runtimeError [.text "Tx ", .str (.str txHash), .text " not mined within ",
        .str (.int 30), .text "s"])
  | n + 1 => do
      match ← rpc (.receipt txHash) with
      | some receipt => pure receipt
      | none => waitForTxRounds txHash n

/-- `wait_for_tx`. -/
def waitForTx (txHash : String) : Seeder Receipt := do
  let rounds ← Dialogue.query (Ask.polls 30)
  waitForTxRounds txHash rounds

/-- The fields of a receipt that the script reads. -/
def Receipt.json (receipt : Receipt) : Json :=
  .obj [("status", (receipt.status.map Json.str).getD .null),
    ("contractAddress", (receipt.contractAddress.map Json.str).getD .null)]

/-- The transaction of `send_value`. -/
def valueRequest (sender recipient value : String) : TxRequest where
  sender := sender
  recipient := some recipient
  value := some value
  data := none
  gas := "0x5208"

/-- `send_value`. -/
def sendValue (sender recipient value : String) : Seeder String := do
  let txHash ← Dialogue.query (Ask.sendTransaction (valueRequest sender recipient value))
  let receipt ← waitForTx txHash
  if receipt.status ≠ some "0x1" then
    .raise (.runtimeError [.text "Transfer to ", .str (.str recipient), .text " failed: ",
      .str receipt.json])
  else pure txHash

/-- The transaction of `deploy_contract`. -/
def deployRequest (sender : String) : TxRequest where
  sender := sender
  recipient := none
  value := none
  data := some deployBytecode
  gas := "0x100000"

/-- `deploy_contract`. -/
def deployContract (sender : String) : Seeder (Option String) := do
  let txHash ← Dialogue.query (Ask.sendTransaction (deployRequest sender))
  let receipt ← waitForTx txHash
  if receipt.status ≠ some "0x1" then
    .raise (.runtimeError [.text "Contract deploy failed: ", .str receipt.json])
  else pure receipt.contractAddress

/-- `if code and code != "0x"`. -/
def HasCode (code : String) : Prop := code ≠ "" ∧ code ≠ "0x"

instance (code : String) : Decidable (HasCode code) :=
  inferInstanceAs (Decidable (code ≠ "" ∧ code ≠ "0x"))

/-- The loop over the transactions of a block. -/
def scanTransactions (sender : String) : List TxView → Seeder (Option String)
  | [] => pure none
  | tx :: rest => do
      if lower (tx.sender.getD "") ≠ lower sender then scanTransactions sender rest
      else if tx.recipient.isSome then scanTransactions sender rest
      else
        match (← rpc (.receipt tx.hash)).bind (·.contractAddress) with
        | none => scanTransactions sender rest
        | some address =>
            if address = "" then scanTransactions sender rest
            else
              match ← rpc (.code address) with
              | none => scanTransactions sender rest
              | some code =>
                  if HasCode code then pure (some address)
                  else scanTransactions sender rest

/-- The loop over the blocks. -/
def scanBlocks (sender : String) : List ℕ → Seeder (Option String)
  | [] => pure none
  | number :: rest => do
      match ← rpc (.blockByNumber number) with
      | none => scanBlocks sender rest
      | some transactions =>
          match ← scanTransactions sender transactions with
          | some address => pure (some address)
          | none => scanBlocks sender rest

/-- `range(head, max(0, head - look_back) - 1, -1)`: the last 201 blocks, the newest first. -/
def scanRange (head : ℕ) : List ℕ :=
  let lookBack := min head 200
  (List.range' (max 0 (head - lookBack)) (lookBack + 1)).reverse

/-- `find_existing_contract`. -/
def findExistingContract (sender : String) : Seeder (Option String) := do
  let nonce ← rpc (.transactionCount sender)
  if nonce = 0 then pure none
  else
    let head ← rpc .blockNumber
    scanBlocks sender (scanRange head)

/-- The command line. -/
structure Args where
  rpc : String
  fundWei : String
  extraTxs : ℤ
  stateFile : String

/-- Fund the addresses that have nothing. -/
def fundAddresses (sender fundWei : String) : List String → Seeder Unit
  | [] => pure ()
  | address :: rest => do
      let balance ← rpc (.balance address)
      if 0 < balance then fundAddresses sender fundWei rest
      else
        let _ ← sendValue sender address fundWei
        fundAddresses sender fundWei rest

/-- The extra transfers, numbered from `i`. -/
def extraTransfers (sender : String) : ℕ → ℕ → Seeder Unit
  | _, 0 => pure ()
  | i, n + 1 => do
      let target := testAddresses.getD (i % testAddresses.length) ""
      let _ ← sendValue sender target "0x1"
      extraTransfers sender (i + 1) n

/-- The contract that was found, or a new one. -/
def ensureContract (sender : String) : Seeder (Option String) := do
  match ← findExistingContract sender with
  | some existing => if existing ≠ "" then pure (some existing) else deployContract sender
  | none => deployContract sender

/-- `main`, which returns the address it reports in the end. -/
def main (args : Args) : Seeder (Option String) := do
  waitForChain args.rpc
  match ← rpc .accounts with
  | [] => .raise (.external "SystemExit")
  | dev :: _ =>
      fundAddresses dev args.fundWei testAddresses
      let contractAddr ← ensureContract dev
      extraTransfers dev 0 args.extraTxs.toNat
      if args.stateFile ≠ "" then
        Dialogue.query (Ask.writeState args.rpc contractAddr testAddresses)
      pure contractAddr

end StateBenchmarks.SeedTestNode
