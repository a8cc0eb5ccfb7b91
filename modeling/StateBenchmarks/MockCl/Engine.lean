/-
# The Engine API as the drivers use it

`src/mock_cl/engine.py` wraps two Engine API methods.  A driver sees each of
them as a call with arguments and an answer that is either a JSON value or an
exception; nothing else about the execution client is visible to it.
-/

import StateBenchmarks.Python.Json

namespace StateBenchmarks.MockCl

open Python

/-- An Engine API call with the arguments the drivers pass. -/
inductive EngineCall where
  | newPayload (payload : Dict Json)
      (versionedHashes parentBeaconBlockRoot version executionRequests : Json)
  | forkchoiceUpdated (head : Json)

/-- `FORK_TO_NEWPAYLOAD_VERSION`. -/
def forkToNewpayloadVersion : Dict ℤ :=
  [("paris", 1), ("shanghai", 2), ("cancun", 3), ("prague", 4)]

/-- `newpayload_version_for_fork`: a falsy fork has no version, and a fork that
is not text has no `strip` method. -/
def newpayloadVersionForFork (fork : Json) : Except Exn Json :=
  if fork.truthy then
    match fork with
    | .str name =>
        match forkToNewpayloadVersion.get? (lower (strip name)) with
        | some version => .ok (.int version)
        | none => .ok .null
    | _ => .error .attributeError
  else .ok .null

/-- A JSON-RPC request: its method, as the f-string that names it, and its parameters. -/
structure RpcRequest where
  method : FString
  params : List Json

/-- The version `new_payload` picks where none is given: by what goes along with the
payload, else by its shape. -/
def autoVersion (payload : Dict Json) (executionRequests : Json) : ℤ :=
  match executionRequests with
  | .null =>
      if (payload.get? "blobGasUsed").isSome ∨ (payload.get? "excessBlobGas").isSome then 3
      else if (payload.get? "withdrawals").isSome then 2
      else 1
  | _ => 4

/-- The request of a call: `new_payload`, and `forkchoice_updated` in its default
version. -/
def EngineCall.request : EngineCall → Except Exn RpcRequest
  | .newPayload payload versionedHashes parentBeaconBlockRoot version executionRequests =>
      let version : Json :=
        match version with
        | .null => .int (autoVersion payload executionRequests)
        | version => version
      let hashes := if versionedHashes.truthy then versionedHashes else .arr []
      let requests := if executionRequests.truthy then executionRequests else .arr []
      let method : FString := [.text "engine_newPayloadV", .str version]
      if version.pyEq (.int 1) then .ok ⟨method, [.obj payload]⟩
      else if version.pyEq (.int 2) then .ok ⟨method, [.obj payload]⟩
      else if version.pyEq (.int 3) then
        .ok ⟨method, [.obj payload, hashes, parentBeaconBlockRoot]⟩
      else if version.pyEq (.int 4) then
        .ok ⟨method, [.obj payload, hashes, parentBeaconBlockRoot, requests]⟩
      else .error (.valueError [.text "unsupported newPayload version: ", .str version])
  | .forkchoiceUpdated head =>
      .ok ⟨[.text "engine_forkchoiceUpdatedV", .str (.int 3)],
        [.obj [("headBlockHash", head), ("safeBlockHash", head), ("finalizedBlockHash", head)],
          .null]⟩

/-- `(answer or {}).get("status")`: the status of a `newPayload` answer. -/
def payloadStatus (answer : Json) : Except Exn Json := answer.orEmptyGet "status"

/-- `((answer or {}).get("payloadStatus") or {}).get("status")`: the status of a
`forkchoiceUpdated` answer. -/
def forkchoiceStatus (answer : Json) : Except Exn Json := do
  let inner ← answer.orEmptyGet "payloadStatus"
  inner.orEmptyGet "status"

end StateBenchmarks.MockCl
