/-
# An execution client behind the Engine API

The replay exists to move another program: an execution client that holds a
snapshot, takes blocks through `newPayload` and moves its head when
`forkchoiceUpdated` tells it to.  `ExecutionLayer` is that client, with what the
Engine API promises of it as laws.  A queued block may be executed at any time
(`works`), and a call that raised may have been carried out or not: the answer
was lost, not the request.

An update to an ancestor of the head may be answered `VALID` and skipped, so a
`VALID` alone does not say where the head is.
-/

import StateBenchmarks.Chain.BlockTree
import StateBenchmarks.MockCl.Replay

namespace StateBenchmarks.MockCl

open Python Control Chain

/-- The block hash and the parent hash a `newPayload` carries. -/
def EngineCall.offered : EngineCall → Option (Json × Json)
  | .newPayload payload .. => some (Dict.get payload "blockHash", Dict.get payload "parentHash")
  | .forkchoiceUpdated _ => none

/-- A `newPayload` answered `VALID`, `ACCEPTED` or `SYNCING`. -/
def TakenBy (result : Except Exn Json) : Prop :=
  ∃ status, (result >>= payloadStatus) = .ok status ∧ accepted status = true

/-- A `forkchoiceUpdated` answered `VALID`. -/
def ValidBy (result : Except Exn Json) : Prop :=
  (result >>= forkchoiceStatus) = .ok (.str "VALID")

/-- An execution client: its head, the blocks it has received, those it has
executed, and what its background work and its answers do to them. -/
structure ExecutionLayer (σ : Type) where
  tree : BlockTree Json
  head : σ → Json
  known : σ → Json → Prop
  executed : σ → Json → Prop
  works : σ → σ → Prop
  replies : σ → EngineCall → Except Exn Json → σ → Prop
  /-- Hashes are text. -/
  parent_str : ∀ {h p}, tree.parent h = some p → ∃ text, h = .str text
  head_works : ∀ {s t}, works s t → head t = head s
  known_works : ∀ {s t h}, works s t → known t h → known s h
  executed_works : ∀ {s t h}, works s t → executed s h → executed t h
  /-- Blocks come from payloads: the client has no peers. -/
  known_replies : ∀ {s t h call result}, replies s call result t → known t h →
    known s h ∨ ∃ parent, call.offered = some (h, parent)
  executed_replies : ∀ {s t h call result}, replies s call result t → executed s h → executed t h
  /-- A payload does not move the head. -/
  head_offered : ∀ {s t call result block}, replies s call result t →
    call.offered = some block → head t = head s
  /-- A payload is taken only if its hash is that of a block with this parent. -/
  parent_taken : ∀ {s t call result h p}, replies s call result t →
    call.offered = some (h, p) → TakenBy result → tree.parent h = some p
  head_forkchoice : ∀ {s t h result}, replies s (.forkchoiceUpdated h) result t →
    head t = head s ∨ head t = h ∧ executed t h
  /-- A `VALID` update reached its block, or found it below the head and was skipped. -/
  head_valid : ∀ {s t h result}, replies s (.forkchoiceUpdated h) result t → ValidBy result →
    executed t h ∧ (head t = h ∨ head t = head s ∧ tree.OnChain (head s) h)

namespace ExecutionLayer

variable {σ : Type} (el : ExecutionLayer σ)

/-- The client answers a list of calls in turn, doing background work in between. -/
inductive Serves (s₀ : σ) : List Exchange → σ → Prop
  | idle : Serves s₀ [] s₀
  | works {calls : List Exchange} {s t : σ} (before : Serves s₀ calls s) (work : el.works s t) :
      Serves s₀ calls t
  | replies {calls : List Exchange} {s t : σ} {x : Exchange} (before : Serves s₀ calls s)
      (reply : el.replies s x.call x.result t) : Serves s₀ (calls ++ [x]) t

variable {el}

/-- Serving some calls and then others is serving them all. -/
theorem Serves.append {s₀ s t : σ} {calls more : List Exchange} (h : el.Serves s₀ calls s)
    (hmore : el.Serves s more t) : el.Serves s₀ (calls ++ more) t := by
  induction hmore with
  | idle => rwa [List.append_nil]
  | works before work ih => exact .works ih work
  | replies before reply ih =>
      rw [← List.append_assoc]
      exact .replies ih reply

end ExecutionLayer

/-- How far a replay that advances the head has got: between two records; with the
next record offered, and not taken; or with it taken, and being polled for. -/
inductive Stage where
  | idle (n : ℕ)
  | offered (n : ℕ)
  | taken (n : ℕ)

/-- The records submitted so far. -/
def Stage.submitted : Stage → ℕ
  | .idle n => n
  | .offered n | .taken n => n + 1

namespace ReplayDriver

/-- The hash remembered once `n` records are done. -/
def remembered (records : List PayloadRecord) : ℕ → Json
  | 0 => .null
  | n + 1 =>
      match records[n]? with
      | some r => r.blockHash
      | none => .null

variable (d : ReplayDriver) (records : List PayloadRecord)

/-- The engine calls the driver makes, and where each one takes it. -/
inductive Moves : Stage → Exchange → Stage → Prop
  /-- With no hash remembered, ask whether the engine knows the parent. -/
  | preflight {n : ℕ} {r : PayloadRecord} {x : Exchange} (record : records[n]? = some r)
      (first : remembered records n = .null) (call : x.call = .forkchoiceUpdated r.parentHash) :
      Moves (.idle n) x (.idle n)
  | refused {n : ℕ} {r : PayloadRecord} {x : Exchange} (record : records[n]? = some r)
      (call : d.submission r = .ok x.call) : Moves (.idle n) x (.offered n)
  | taken {n : ℕ} {r : PayloadRecord} {x : Exchange} (record : records[n]? = some r)
      (parent : remembered records n ≠ .null →
        r.parentHash.pyEq (remembered records n) = true)
      (call : d.submission r = .ok x.call) (took : TakenBy x.result) :
      Moves (.idle n) x (.taken n)
  | polled {n : ℕ} {r : PayloadRecord} {x : Exchange} (record : records[n]? = some r)
      (call : x.call = .forkchoiceUpdated r.blockHash) : Moves (.taken n) x (.taken n)
  | landed {n : ℕ} {r : PayloadRecord} {x : Exchange} (record : records[n]? = some r)
      (call : x.call = .forkchoiceUpdated r.blockHash) (valid : ValidBy x.result) :
      Moves (.taken n) x (.idle (n + 1))

/-- The conversations of this protocol, and the stage each one leaves the driver in. -/
inductive Spoken : List Exchange → Stage → Prop
  | silence : Spoken [] (.idle 0)
  | move {calls : List Exchange} {x : Exchange} {stage stage' : Stage}
      (before : Spoken calls stage) (next : d.Moves records stage x stage') :
      Spoken (calls ++ [x]) stage'

variable {d records}

/-- Every earlier moment of a conversation is one too. -/
theorem Spoken.exists_of_append {front back : List Exchange} {stage : Stage}
    (h : d.Spoken records (front ++ back) stage) : ∃ stage, d.Spoken records front stage := by
  induction back using List.reverseRecOn generalizing stage with
  | nil =>
      rw [List.append_nil] at h
      exact ⟨stage, h⟩
  | append_singleton back x ih =>
      rw [← List.append_assoc] at h
      generalize hcalls : front ++ back ++ [x] = calls at h
      cases h with
      | silence => simp at hcalls
      | move before next =>
          obtain ⟨rfl, -⟩ := List.append_inj' hcalls rfl
          exact ih before

end ReplayDriver

end StateBenchmarks.MockCl
