/-
# The chain of the test node

The node holds a chain of blocks and answers from it.  It is not part of the repository,
so what it does is a parameter: how its chain grows while nobody asks, and what becomes
of a transaction handed to it.  `DevNode` states what the seeder may rely on, which is
that the chain only grows, that a hash and a contract address stand for one transaction,
and that a deployment once handed in is mined at most once.
-/

import StateBenchmarks.SeedTestNode.Seed
import Mathlib.Data.List.Nodup
import Mathlib.Data.List.Infix

namespace StateBenchmarks.SeedTestNode

open Python Control

/-- A mined transaction and its receipt.  `seeded` marks those the seeder handed in, which
nothing on the chain shows. -/
structure Tx where
  hash : String
  sender : String
  recipient : Option String
  data : String
  receipt : Receipt
  seeded : Bool

/-- What a block shows of a transaction. -/
def Tx.view (tx : Tx) : TxView where
  hash := tx.hash
  sender := some tx.sender
  recipient := tx.recipient

/-- The mined transaction is the requested one. -/
structure Tx.Carries (tx : Tx) (request : TxRequest) : Prop where
  sender : tx.sender = request.sender
  recipient : tx.recipient = request.recipient
  data : tx.data = request.data.getD "0x"

/-- A node with its development account: the blocks of its chain by number, the balance
and the code at an address, how many deployments of the seeder wait to be mined, how it
moves on by itself, and how it takes a transaction. -/
structure Node (σ : Type) where
  dev : String
  others : List String
  chain : σ → List (List Tx)
  balance : σ → String → ℕ
  code : σ → String → String
  pending : σ → ℕ
  moves : σ → σ → Prop
  submits : σ → TxRequest → Except Exn String → σ → Prop

namespace Node

variable {σ : Type} (node : Node σ) (s : σ)

/-- The transactions on the chain. -/
def mined : List Tx := (node.chain s).flatten

/-- The number of the newest block. -/
def head : ℕ := (node.chain s).length - 1

/-- What the node answers. -/
def answer : (query : Query) → query.Answer
  | .accounts => node.dev :: node.others
  | .balance address => node.balance s address
  | .transactionCount address =>
      (node.mined s).countP fun tx => lower tx.sender = lower address
  | .blockNumber => node.head s
  | .blockByNumber number => ((node.chain s)[number]?).map (List.map Tx.view)
  | .receipt hash => ((node.mined s).find? fun tx => tx.hash = hash).map Tx.receipt
  | .code address => some (node.code s address)

/-- The transaction deployed the test contract for the development account. -/
def IsTestDeployment (tx : Tx) : Prop :=
  lower tx.sender = lower node.dev ∧ tx.recipient = none ∧ tx.data = deployBytecode ∧
    tx.receipt.status = some "0x1"

instance (tx : Tx) : Decidable (node.IsTestDeployment tx) :=
  inferInstanceAs (Decidable (lower tx.sender = lower node.dev ∧ tx.recipient = none ∧
    tx.data = deployBytecode ∧ tx.receipt.status = some "0x1"))

/-- The address is that of a test contract of the development account. -/
def TestContract (address : String) : Prop :=
  ∃ tx ∈ node.mined s, node.IsTestDeployment tx ∧ tx.receipt.contractAddress = some address

/-- How many of the deployments on the chain are the seeder's. -/
def deployed : ℕ := (node.mined s).countP fun tx => tx.seeded && node.IsTestDeployment tx

/-- Some time later. -/
def Later : σ → σ → Prop :=
  Relation.ReflTransGen fun s t => node.moves s t ∨ ∃ request r, node.submits s request r t

end Node

/-- A node that behaves as a development node does. -/
structure DevNode (σ : Type) extends Node σ where
  chain_ne_nil : ∀ s, chain s ≠ []
  moves_trans : ∀ {s t u}, moves s t → moves t u → moves s u
  /-- Blocks are never taken back. -/
  chain_grows : ∀ {s t}, toNode.Later s t → chain s <+: chain t
  /-- A hash stands for one transaction, and so does the address of a contract. -/
  hash_inj : ∀ {s tx tx'}, tx ∈ toNode.mined s → tx' ∈ toNode.mined s →
    tx.hash = tx'.hash → tx = tx'
  address_inj : ∀ {s tx tx' address}, tx ∈ toNode.mined s → tx' ∈ toNode.mined s →
    tx.receipt.contractAddress = some address → tx'.receipt.contractAddress = some address →
    tx = tx'
  /-- The test contract stays where its deployment put it. -/
  code_deployed : ∀ {s tx}, tx ∈ toNode.mined s → toNode.IsTestDeployment tx →
    ∃ address, tx.receipt.contractAddress = some address ∧ address ≠ "" ∧ HasCode (code s address)
  /-- Where a creation left no code there will be none. -/
  code_later : ∀ {s t tx address}, toNode.Later s t → tx ∈ toNode.mined s →
    tx.receipt.contractAddress = some address → HasCode (code t address) → HasCode (code s address)
  /-- A deployment of the seeder is mined at most once. -/
  pending_moves : ∀ {s t}, moves s t →
    toNode.deployed t + pending t ≤ toNode.deployed s + pending s
  pending_submits : ∀ {s request r t}, submits s request r t →
    toNode.deployed t + pending t ≤
      toNode.deployed s + pending s + if request.data = some deployBytecode then 1 else 0
  /-- The hash the node answers is that of the transaction it was handed. -/
  submits_hash : ∀ {s request hash t u tx}, submits s request (.ok hash) t → toNode.Later t u →
    tx ∈ toNode.mined u → tx.hash = hash → tx.Carries request

namespace DevNode

variable {σ : Type} (node : DevNode σ)

/-- How the surroundings of the seeder reply: a request reads the chain as it is by then,
and all but a transaction may also fail without any effect. -/
inductive Replies : σ → (q : Ask) → Except Exn q.Answer → σ → Prop
  | fails {s t : σ} (q : Ask) (e : Exn) (hq : ∀ request, q ≠ .sendTransaction request)
      (hmoves : node.moves s t) : Replies s q (.error e) t
  | rpc {s t : σ} (query : Query) (hmoves : node.moves s t) :
      Replies s (.rpc query) (.ok (node.answer t query)) t
  | sendTransaction {s t u : σ} {request : TxRequest} {r : Except Exn String}
      (hmoves : node.moves s t) (hsubmits : node.submits t request r u) :
      Replies s (.sendTransaction request) r u
  | polls {s t : σ} (timeout rounds : ℕ) (hmoves : node.moves s t) :
      Replies s (.polls timeout) (.ok rounds) t
  | writeState {s t : σ} (url : String) (contract : Option String) (funded : List String)
      (hmoves : node.moves s t) : Replies s (.writeState url contract funded) (.ok ()) t

/-- The node as the seeder meets it. -/
def server : Server Ask Ask.Answer Exn σ where
  moves := node.moves
  replies := node.Replies
  replies_of_moves := by
    intro s t u q r hmoves hreplies
    cases hreplies with
    | fails q e hq hmoves' => exact .fails q e hq (node.moves_trans hmoves hmoves')
    | rpc query hmoves' => exact .rpc query (node.moves_trans hmoves hmoves')
    | sendTransaction hmoves' hsubmits =>
        exact .sendTransaction (node.moves_trans hmoves hmoves') hsubmits
    | polls timeout rounds hmoves' =>
        exact .polls timeout rounds (node.moves_trans hmoves hmoves')
    | writeState url contract funded hmoves' =>
        exact .writeState url contract funded (node.moves_trans hmoves hmoves')

/-- The answers at a moment at which nothing else goes on. -/
def quietly (s : σ) : (q : Ask) → Except Exn q.Answer
  | .rpc query => .ok (node.answer s query)
  | .sendTransaction _ => .error (.external "Quiet")
  | .polls _ => .error (.external "Quiet")
  | .writeState _ _ _ => .error (.external "Quiet")

variable {node : DevNode σ} {s t u : σ}

theorem later_of_moves (h : node.moves s t) : node.Later s t := .single (.inl h)

theorem later_of_replies {q : Ask} {r : Except Exn q.Answer} (h : node.Replies s q r t) :
    node.Later s t := by
  cases h with
  | fails q e hq hmoves => exact later_of_moves hmoves
  | rpc query hmoves => exact later_of_moves hmoves
  | sendTransaction hmoves hsubmits =>
      exact (later_of_moves hmoves).tail (.inr ⟨_, _, hsubmits⟩)
  | polls timeout rounds hmoves => exact later_of_moves hmoves
  | writeState url contract funded hmoves => exact later_of_moves hmoves

theorem mined_grows (h : node.Later s t) : node.mined s <+: node.mined t := by
  obtain ⟨new, hnew⟩ := node.chain_grows h
  rw [Node.mined, Node.mined, ← hnew, List.flatten_append]
  exact List.prefix_append _ _

theorem mem_mined_of_later (h : node.Later s t) {tx : Tx} (htx : tx ∈ node.mined s) :
    tx ∈ node.mined t := (mined_grows h).subset htx

theorem testContract_of_later (h : node.Later s t) {address : String}
    (ha : node.TestContract s address) : node.TestContract t address := by
  obtain ⟨tx, htx, hdeployment, haddress⟩ := ha
  exact ⟨tx, mem_mined_of_later h htx, hdeployment, haddress⟩

theorem deployed_le_of_later (h : node.Later s t) : node.deployed s ≤ node.deployed t :=
  (mined_grows h).sublist.countP_le

/-- A deployment of the seeder puts a test contract on the chain. -/
theorem exists_testDeployment_of_deployed (h : node.deployed s ≠ 0) :
    ∃ tx ∈ node.mined s, node.IsTestDeployment tx := by
  obtain ⟨tx, htx, hseeded⟩ := List.countP_pos_iff.mp (Nat.pos_of_ne_zero h)
  rw [Bool.and_eq_true] at hseeded
  exact ⟨tx, htx, of_decide_eq_true hseeded.2⟩

theorem exists_testContract_iff :
    (∃ address, node.TestContract s address) ↔ ∃ tx ∈ node.mined s, node.IsTestDeployment tx := by
  apply Iff.intro
  · rintro ⟨address, tx, htx, hdeployment, -⟩
    exact ⟨tx, htx, hdeployment⟩
  · rintro ⟨tx, htx, hdeployment⟩
    obtain ⟨address, haddress, -⟩ := node.code_deployed htx hdeployment
    exact ⟨address, tx, htx, hdeployment, haddress⟩

/-- A mined transaction has its receipt. -/
theorem answer_receipt {tx : Tx} (htx : tx ∈ node.mined s) :
    node.answer s (.receipt tx.hash) = some tx.receipt := by
  have hfind : ((node.mined s).find? fun tx' => tx'.hash = tx.hash) = some tx := by
    cases hfound : (node.mined s).find? fun tx' => tx'.hash = tx.hash with
    | none =>
        have hnone := List.find?_eq_none.mp hfound tx htx
        simp at hnone
    | some tx' =>
        have hhash : tx'.hash = tx.hash := by simpa using List.find?_some hfound
        rw [node.hash_inj (List.mem_of_find?_eq_some hfound) htx hhash]
  rw [Node.answer, hfind, Option.map_some]

/-- A receipt is that of a mined transaction. -/
theorem exists_mined_of_receipt {hash : String} {receipt : Receipt}
    (h : node.answer s (.receipt hash) = some receipt) :
    ∃ tx ∈ node.mined s, tx.hash = hash ∧ tx.receipt = receipt := by
  obtain ⟨tx, hfound, rfl⟩ := Option.map_eq_some_iff.mp h
  exact ⟨tx, List.mem_of_find?_eq_some hfound, by simpa using List.find?_some hfound, rfl⟩

end DevNode

end StateBenchmarks.SeedTestNode
