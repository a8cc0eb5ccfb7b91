/-
# The conversion of `rlp_to_mocks`

From a stream of length-prefixed RLP bodies to the JSON records the replay
loads.  Decoded values are untyped: the conversion meets a list where it expects
a string, or the other way round, through whatever Python does with it.  A list
has no `hex` method and an integer cannot be unpacked, but an empty list is
falsy and iterating over a string yields integers.  `Element` has those cases.

The output file is the list of records written; `json.dumps` and the `json.loads`
of the reader are taken to undo each other.
-/

import StateBenchmarks.Control.Loop
import StateBenchmarks.RlpToMocks.Decode

namespace StateBenchmarks.RlpToMocks

open Python Rlp Control

/-- One round of `iter_record_bodies`: nothing at the end of the file, or the
next body and what is left of the file. -/
def readRecord (data : Bytes) : Except Exn (Option (Bytes × Bytes)) :=
  let lenPrefix := data.take 4
  if lenPrefix.isEmpty then .ok none
  else if lenPrefix.length < 4 then .error (.valueError [.text "truncated length prefix"])
  else
    let length := fromBytes lenPrefix
    let body := (data.drop 4).take length
    if body.length < length then
      .error (.valueError [.text "record claims ", .str (.int length), .text " bytes, only ",
        .str (.int body.length), .text " present"])
    else .ok (some (body, (data.drop 4).drop length))

theorem length_lt_of_readRecord {data body rest : Bytes}
    (h : readRecord data = .ok (some (body, rest))) : rest.length < data.length := by
  unfold readRecord at h
  dsimp only at h
  split_ifs at h with hempty
  · cases h
  · cases h
    rw [List.length_drop, List.length_drop]
    have hpos : 0 < data.length := by
      rw [List.length_pos_iff]
      rintro rfl
      exact hempty rfl
    omega

/-- `iter_record_bodies`: the bodies yielded, and the exception that ended the
generator if one did. -/
def iterRecordBodies (data : Bytes) : Option Exn × List Bytes :=
  match hread : readRecord data with
  | .error e => (some e, [])
  | .ok none => (none, [])
  | .ok (some (body, rest)) =>
      have _hlt : rest.length < data.length := length_lt_of_readRecord hread
      ((iterRecordBodies rest).1, body :: (iterRecordBodies rest).2)
termination_by data.length

/-- What Python sees where the conversion expects a string: a decoded value, or
an integer out of a string it iterated over. -/
inductive Element where
  | item (v : Item)
  | int (x : UInt8)

/-- `"0x" + b.hex()`. -/
def dataText (b : Bytes) : String := String.ofList ('0' :: 'x' :: bytesHex b)

/-- `_to_data(b)`. -/
def toData : Element → Except Exn String
  | .item (.bytes b) => .ok (dataText b)
  | .item (.list _) | .int _ => .error .attributeError

/-- `int.from_bytes(b, "big") if b else 0`: falsy values are zero, and neither
an integer nor a list of values is bytes. -/
def fromBytesOrZero : Element → Except Exn ℕ
  | .item (.bytes b) => .ok (fromBytes b)
  | .item (.list []) => .ok 0
  | .item (.list _) => .error .typeError
  | .int x => if x = 0 then .ok 0 else .error .typeError

/-- `_to_qty(b)`. -/
def toQty (b : Element) : Except Exn String := (fromBytesOrZero b).map hex

/-- `for x in v`. -/
def elements : Item → List Element
  | .bytes b => b.map .int
  | .list items => items.map .item

/-- `_FIELDS`. -/
def fields : List (String × (Element → Except Exn String)) :=
  [("parentHash", toData),
    ("feeRecipient", toData),
    ("stateRoot", toData),
    ("receiptsRoot", toData),
    ("logsBloom", toData),
    ("prevRandao", toData),
    ("blockNumber", toQty),
    ("gasLimit", toQty),
    ("gasUsed", toQty),
    ("timestamp", toQty),
    ("extraData", toData),
    ("baseFeePerGas", toQty),
    ("blockHash", toData),
    ("blobGasUsed", toQty),
    ("excessBlobGas", toQty)]

/-- `scalar_indices`. -/
def scalarIndices : List ℕ := List.range 13 ++ [15, 16]

/-- `index, validator_index, address, amount = w`. -/
def unpackFour (w : Element) : Except Exn (Element × Element × Element × Element) :=
  match w with
  | .int _ => .error .typeError
  | .item v =>
      match elements v with
      | [index, validatorIndex, address, amount] =>
          .ok (index, validatorIndex, address, amount)
      | values =>
          if values.length < 4 then
            .error (.valueError [.text "not enough values to unpack (expected 4, got ",
              .str (.int values.length), .text ")"])
          else .error (.valueError [.text "too many values to unpack (expected 4)"])

/-- `_withdrawal_to_obj(w)`. -/
def withdrawalToObj (w : Element) : Except Exn Json := do
  let (index, validatorIndex, address, amount) ← unpackFour w
  let index ← toQty index
  let validatorIndex ← toQty validatorIndex
  let address ← toData address
  let amount ← toQty amount
  return .obj [("index", .str index), ("validatorIndex", .str validatorIndex),
    ("address", .str address), ("amount", .str amount)]

/-- `fields[i]`. -/
def fieldAt (items : List Item) (i : ℕ) : Except Exn Item :=
  match items[i]? with
  | some v => .ok v
  | none => .error .indexError

/-- `payload[key] = enc(fields[idx])`. -/
def setScalar (items : List Item) (payload : Dict Json)
    (entry : (String × (Element → Except Exn String)) × ℕ) : Except Exn (Dict Json) := do
  let field ← fieldAt items entry.2
  let text ← entry.1.2 (.item field)
  return payload.set entry.1.1 (.str text)

/-- The error of `payload_from_rlp` on a value that is not a long enough list. -/
def notAPayload (typeName : String) (count : Fragment) : Exn :=
  .valueError [.text "expected a 17-field ExecutionPayloadV3 list, got ", .text typeName,
    .text " with ", count, .text " fields"]

/-- `payload_from_rlp(fields)`. -/
def payloadFromRlp (decoded : Item) : Except Exn (Dict Json) :=
  match decoded with
  | .bytes _ => .error (notAPayload "bytes" (.text "?"))
  | .list items =>
      if items.length < 17 then .error (notAPayload "list" (.str (.int items.length)))
      else do
        let payload ← (fields.zip scalarIndices).foldlM (setScalar items) []
        let transactions ← (elements (← fieldAt items 13)).mapM toData
        let payload := payload.set "transactions" (.arr (transactions.map .str))
        let withdrawals ← (elements (← fieldAt items 14)).mapM withdrawalToObj
        return payload.set "withdrawals" (.arr withdrawals)

/-- `for _ in range(n): item, cursor = _decode(body, cursor)`. -/
def decodeTimes (body : Bytes) : ℕ → Item × ℕ → Except Exn (Item × ℕ)
  | 0, last => .ok last
  | n + 1, (_, cursor) => do decodeTimes body n (← decodeAt body cursor)

/-- `block_number_of(body)`. -/
def blockNumberOf (body : Bytes) : Except Exn ℕ :=
  match body with
  | [] => .error .indexError
  | first :: _ => do
      let cursor := if first.toNat < 0xf8 then 1 else 1 + (first.toNat - 0xf7)
      let (item, _) ← decodeTimes body 7 (.bytes [], cursor)
      fromBytesOrZero (.item item)

/-- The Engine API extras stamped into every record. -/
structure Stamps where
  newpayloadVersion : Json
  parentBeaconBlockRoot : Json
  versionedHashes : Json
  executionRequests : Json
  fork : Json

/-- The local variables of `convert`, the records written to the output, and the
number of bodies it took from the input. -/
structure Conversion where
  lines : List Json
  written : ℕ
  firstBlock : Option ℤ
  lastBlock : Option ℤ
  bodiesRead : ℕ

namespace Conversion

/-- Before the first body. -/
def start : Conversion := ⟨[], 0, none, none, 0⟩

/-- After the line of one more record. -/
def write (c : Conversion) (record : Json) : Conversion :=
  { c with lines := c.lines ++ [record] }

/-- After the number of that record is noted. -/
def note (c : Conversion) (blockNumber : ℤ) : Conversion :=
  { c with
    written := c.written + 1
    firstBlock := some (c.firstBlock.getD blockNumber)
    lastBlock := some blockNumber }

end Conversion

/-- How the loop of `convert` can be left. -/
inductive ConvertExit where
  | countReached
  | raised (e : Exn)

/-- The record written for a payload. -/
def recordJson (stamps : Stamps) (payload : Dict Json) : Json :=
  .obj [("payload", .obj payload),
    ("versioned_hashes", stamps.versionedHashes),
    ("parent_beacon_block_root", stamps.parentBeaconBlockRoot),
    ("execution_requests", stamps.executionRequests),
    ("newpayload_version", stamps.newpayloadVersion),
    ("fork", stamps.fork)]

/-- A body is below `start_block`. -/
def belowStart (startBlock : Option ℤ) (body : Bytes) : Except Exn Bool :=
  match startBlock with
  | none => .ok false
  | some first => (blockNumberOf body).map fun number => (number : ℤ) < first

/-- The payload of a body. -/
def convertBody (body : Bytes) : Except Exn (Dict Json) := do
  let (decoded, _) ← decodeAt body 0
  payloadFromRlp decoded

/-- One iteration of `convert`. -/
def convertStep (stamps : Stamps) (startBlock count : Option ℤ) (_ : ℕ) (body : Bytes)
    (c : Conversion) : Option ConvertExit × Conversion :=
  let c := { c with bodiesRead := c.bodiesRead + 1 }
  match belowStart startBlock body with
  | .error e => (some (.raised e), c)
  | .ok true => (none, c)
  | .ok false =>
      match convertBody body with
      | .error e => (some (.raised e), c)
      | .ok payload =>
          let c := c.write (recordJson stamps payload)
          match (Dict.get payload "blockNumber").int16 with
          | .error e => (some (.raised e), c)
          | .ok blockNumber =>
              let c := c.note blockNumber
              match count with
              | some n => if n ≤ c.written then (some .countReached, c) else (none, c)
              | none => (none, c)

/-- `convert`: the exception that ended it if one did, and what it wrote.  The
generator's own exception surfaces when the loop asks for one body too many. -/
def convert (stamps : Stamps) (startBlock count : Option ℤ) (data : Bytes) :
    Option Exn × Conversion :=
  match forEach (convertStep stamps startBlock count) 0 (iterRecordBodies data).2 .start with
  | (none, c) => ((iterRecordBodies data).1, c)
  | (some .countReached, c) => (none, c)
  | (some (.raised e), c) => (some e, c)

end StateBenchmarks.RlpToMocks
