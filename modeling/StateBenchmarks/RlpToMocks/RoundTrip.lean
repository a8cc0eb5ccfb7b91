/-
# From payloads to replay records and back

A list of execution payloads is encoded, framed, converted and loaded.  Nothing
is lost on the way but the leading zeros of numbers: every record states, field
by field, the bytes its payload had.
-/

import StateBenchmarks.MockCl.Payloads
import StateBenchmarks.RlpToMocks.Convert
import StateBenchmarks.RlpToMocks.DecodeSound
import Mathlib.Data.List.Forall2

namespace StateBenchmarks.RlpToMocks

open Python Rlp Control MockCl

/-- A withdrawal of an execution payload. -/
structure Withdrawal where
  index : Bytes
  validatorIndex : Bytes
  address : Bytes
  amount : Bytes

/-- An execution payload, every number as big-endian bytes of any width. -/
structure ExecutionPayloadV3 where
  parentHash : Bytes
  feeRecipient : Bytes
  stateRoot : Bytes
  receiptsRoot : Bytes
  logsBloom : Bytes
  prevRandao : Bytes
  blockNumber : Bytes
  gasLimit : Bytes
  gasUsed : Bytes
  timestamp : Bytes
  extraData : Bytes
  baseFeePerGas : Bytes
  blockHash : Bytes
  transactions : List Bytes
  withdrawals : List Withdrawal
  blobGasUsed : Bytes
  excessBlobGas : Bytes

/-- The four strings of a withdrawal. -/
def Withdrawal.toItem (w : Withdrawal) : Item :=
  .list [.bytes w.index, .bytes w.validatorIndex, .bytes w.address, .bytes w.amount]

namespace ExecutionPayloadV3

/-- The seventeen fields of a payload, in the order of the format. -/
def items (p : ExecutionPayloadV3) : List Item :=
  [.bytes p.parentHash, .bytes p.feeRecipient, .bytes p.stateRoot, .bytes p.receiptsRoot,
    .bytes p.logsBloom, .bytes p.prevRandao, .bytes p.blockNumber, .bytes p.gasLimit,
    .bytes p.gasUsed, .bytes p.timestamp, .bytes p.extraData, .bytes p.baseFeePerGas,
    .bytes p.blockHash, .list (p.transactions.map .bytes),
    .list (p.withdrawals.map Withdrawal.toItem), .bytes p.blobGasUsed, .bytes p.excessBlobGas]

/-- The canonical encoding of a payload. -/
def body (p : ExecutionPayloadV3) : Bytes := encode (.list p.items)

/-- Four bytes can state the length of the encoding. -/
def Framable (p : ExecutionPayloadV3) : Prop := p.body.length < 256 ^ 4

/-- The fields written as DATA, by their names in a record. -/
def dataFields : List (String × (ExecutionPayloadV3 → Bytes)) :=
  [("parentHash", parentHash), ("feeRecipient", feeRecipient), ("stateRoot", stateRoot),
    ("receiptsRoot", receiptsRoot), ("logsBloom", logsBloom), ("prevRandao", prevRandao),
    ("extraData", extraData), ("blockHash", blockHash)]

/-- The fields written as QUANTITY, by their names in a record. -/
def quantityFields : List (String × (ExecutionPayloadV3 → Bytes)) :=
  [("blockNumber", blockNumber), ("gasLimit", gasLimit), ("gasUsed", gasUsed),
    ("timestamp", timestamp), ("baseFeePerGas", baseFeePerGas), ("blobGasUsed", blobGasUsed),
    ("excessBlobGas", excessBlobGas)]

end ExecutionPayloadV3

/-- A body behind its length. -/
def frame (body : Bytes) : Bytes := toBytes 4 body.length ++ body

/-- The stream of some payloads. -/
def stream (payloads : List ExecutionPayloadV3) : Bytes := payloads.flatMap fun p => frame p.body

/-- Read `0x`-prefixed pairs of digits. -/
def fromData (text : String) : Option Bytes :=
  match text.toList with
  | '0' :: 'x' :: digits => unhex digits
  | _ => none

/-- The value is text whose digits decode to the bytes. -/
def DataOf (v : Json) (b : Bytes) : Prop := ∃ text, v = .str text ∧ fromData text = some b

/-- The value is the one numeral, without leading zeros, of the number the bytes
stand for. -/
def QuantityOf (v : Json) (b : Bytes) : Prop :=
  ∃ digits, v = .str (String.ofList ('0' :: 'x' :: digits)) ∧
    (∀ c ∈ digits, ∃ d < 16, c = hexChar d) ∧ readDigits 0 true digits = some (fromBytes b) ∧
    (fromBytes b = 0 → digits = ['0']) ∧ (fromBytes b ≠ 0 → digits.head? ≠ some '0')

/-- The value is an object with the fields of the withdrawal. -/
def WithdrawalOf (w : Withdrawal) (v : Json) : Prop :=
  ∃ fields : Dict Json, v = .obj fields ∧
    QuantityOf (Dict.get fields "index") w.index ∧
    QuantityOf (Dict.get fields "validatorIndex") w.validatorIndex ∧
    DataOf (Dict.get fields "address") w.address ∧ QuantityOf (Dict.get fields "amount") w.amount

/-- The record has everything the payload had, and the extras. -/
structure RecordOf (stamps : Stamps) (p : ExecutionPayloadV3) (r : PayloadRecord) : Prop where
  data : ∀ field ∈ ExecutionPayloadV3.dataFields,
    DataOf (Dict.get r.payload field.1) (field.2 p)
  quantity : ∀ field ∈ ExecutionPayloadV3.quantityFields,
    QuantityOf (Dict.get r.payload field.1) (field.2 p)
  transactions : ∃ values, Dict.get r.payload "transactions" = .arr values ∧
    List.Forall₂ (fun tx v => DataOf v tx) p.transactions values
  withdrawals : ∃ values, Dict.get r.payload "withdrawals" = .arr values ∧
    List.Forall₂ WithdrawalOf p.withdrawals values
  blockNumber : r.blockNumber = fromBytes p.blockNumber
  blockHash : DataOf r.blockHash p.blockHash
  versionedHashes : r.versionedHashes = stamps.versionedHashes
  parentBeaconBlockRoot : r.parentBeaconBlockRoot = stamps.parentBeaconBlockRoot
  executionRequests : r.executionRequests = stamps.executionRequests
  newpayloadVersion : r.newpayloadVersion = stamps.newpayloadVersion
  fork : r.fork = stamps.fork

/-- Converting the data and loading what was written gives the records. -/
def Loads (stamps : Stamps) (path : String) (data : Bytes) (records : List PayloadRecord) :
    Prop :=
  ∃ c, convert stamps none none data = (none, c) ∧
    loadPayloads path (c.lines.map .json) = (none, records)

theorem readRecord_frame {body : Bytes} (h : body.length < 256 ^ 4) (rest : Bytes) :
    readRecord (frame body ++ rest) = .ok (some (body, rest)) := by
  have htake : (frame body ++ rest).take 4 = toBytes 4 body.length := by
    rw [frame, List.append_assoc]
    exact List.take_left' (length_toBytes 4 _)
  have hdrop : (frame body ++ rest).drop 4 = body ++ rest := by
    rw [frame, List.append_assoc]
    exact List.drop_left' (length_toBytes 4 _)
  have hlength := length_toBytes 4 body.length
  have hne : (toBytes 4 body.length).isEmpty = false := by
    rw [List.isEmpty_eq_false_iff, ← List.length_pos_iff]
    omega
  unfold readRecord
  dsimp only
  rw [htake, hdrop, fromBytes_toBytes h, hne, hlength]
  simp

theorem iterRecordBodies_nil : iterRecordBodies [] = (none, []) := by
  rw [iterRecordBodies]
  rfl

theorem iterRecordBodies_frame {body : Bytes} (h : body.length < 256 ^ 4) (rest : Bytes) :
    iterRecordBodies (frame body ++ rest) =
      ((iterRecordBodies rest).1, body :: (iterRecordBodies rest).2) := by
  rw [iterRecordBodies]
  split
  · rename_i e hread
    rw [readRecord_frame h] at hread
    cases hread
  · rename_i hread
    rw [readRecord_frame h] at hread
    cases hread
  · rename_i body' rest' hread
    rw [readRecord_frame h] at hread
    cases hread
    rfl

/-- The stream of some bodies. -/
def framed (bodies : List Bytes) : Bytes := bodies.flatMap frame

/-- Framed bodies are read back one by one, and then what follows them. -/
theorem iterRecordBodies_framed {bodies : List Bytes} (h : ∀ b ∈ bodies, b.length < 256 ^ 4)
    (rest : Bytes) :
    iterRecordBodies (framed bodies ++ rest) =
      ((iterRecordBodies rest).1, bodies ++ (iterRecordBodies rest).2) := by
  induction bodies with
  | nil => rfl
  | cons b bodies ih =>
      have hrest := ih fun b' hb' => h b' (List.mem_cons_of_mem b hb')
      rw [framed, List.flatMap_cons, List.append_assoc,
        iterRecordBodies_frame (h b List.mem_cons_self), ← framed, hrest]
      rfl

/-- The bodies of payloads are read back one by one. -/
theorem iterRecordBodies_stream {payloads : List ExecutionPayloadV3}
    (h : ∀ p ∈ payloads, p.Framable) :
    iterRecordBodies (stream payloads) = (none, payloads.map ExecutionPayloadV3.body) := by
  have hread := iterRecordBodies_framed (List.forall_mem_map.mpr h) []
  rw [List.append_nil, iterRecordBodies_nil, List.append_nil, framed, List.flatMap_map] at hread
  exact hread

/-- Decoding the canonical encoding of an item gives the item. -/
theorem decodeAt_encode {item : Item} (h : (encode item).length < 256 ^ 8) :
    ∃ next, decodeAt (encode item) 0 = .ok (item, next) := by
  have hdecode := (decodeItems_of_encodes (encodes_encode item h) [] []).1
  simp only [List.nil_append, List.append_nil, List.length_nil, Nat.zero_add] at hdecode
  rw [decodeItems_eq] at hdecode
  split at hdecode
  · rcases hitem : decodeAt (encode item) 0 with err | ⟨item', next⟩
    · rw [hitem] at hdecode
      cases hdecode
    · rw [hitem] at hdecode
      dsimp only at hdecode
      rcases hrest : decodeItems (encode item) next (encode item).length with err | rest
      · rw [hrest] at hdecode
        cases hdecode
      · rw [hrest] at hdecode
        cases hdecode
        exact ⟨next, rfl⟩
  · cases hdecode

/-- The withdrawal object written for a withdrawal. -/
def Withdrawal.toJson (w : Withdrawal) : Json :=
  .obj [("index", .str (hex (fromBytes w.index))),
    ("validatorIndex", .str (hex (fromBytes w.validatorIndex))),
    ("address", .str (dataText w.address)), ("amount", .str (hex (fromBytes w.amount)))]

/-- The dictionary written for a payload. -/
def ExecutionPayloadV3.toDict (p : ExecutionPayloadV3) : Dict Json :=
  [("parentHash", .str (dataText p.parentHash)),
    ("feeRecipient", .str (dataText p.feeRecipient)),
    ("stateRoot", .str (dataText p.stateRoot)),
    ("receiptsRoot", .str (dataText p.receiptsRoot)),
    ("logsBloom", .str (dataText p.logsBloom)),
    ("prevRandao", .str (dataText p.prevRandao)),
    ("blockNumber", .str (hex (fromBytes p.blockNumber))),
    ("gasLimit", .str (hex (fromBytes p.gasLimit))),
    ("gasUsed", .str (hex (fromBytes p.gasUsed))),
    ("timestamp", .str (hex (fromBytes p.timestamp))),
    ("extraData", .str (dataText p.extraData)),
    ("baseFeePerGas", .str (hex (fromBytes p.baseFeePerGas))),
    ("blockHash", .str (dataText p.blockHash)),
    ("blobGasUsed", .str (hex (fromBytes p.blobGasUsed))),
    ("excessBlobGas", .str (hex (fromBytes p.excessBlobGas))),
    ("transactions", .arr (p.transactions.map fun tx => .str (dataText tx))),
    ("withdrawals", .arr (p.withdrawals.map Withdrawal.toJson))]

/-- A map of computations that all succeed. -/
theorem mapM_map_ok {α β γ : Type} {f : α → β} {g : β → Except Exn γ} {result : α → γ}
    (h : ∀ x, g (f x) = .ok (result x)) (xs : List α) :
    (xs.map f).mapM g = .ok (xs.map result) := by
  induction xs with
  | nil => rfl
  | cons x rest ih =>
      rw [List.map_cons, List.mapM_cons, h, ih]
      rfl

theorem withdrawalToObj_toItem (w : Withdrawal) :
    withdrawalToObj (.item w.toItem) = .ok w.toJson := rfl

/-- The entry is what the scalar field of the table becomes. -/
def ScalarOf (items : List Item) (field : (String × (Element → Except Exn String)) × ℕ)
    (entry : String × Json) : Prop :=
  entry.1 = field.1.1 ∧
    ∃ v text, items[field.2]? = some v ∧ field.1.2 (.item v) = .ok text ∧ entry.2 = .str text

/-- Scalars with keys of their own are written one after the other. -/
theorem foldlM_setScalar {items : List Item}
    {table : List ((String × (Element → Except Exn String)) × ℕ)} {entries : Dict Json}
    (h : List.Forall₂ (ScalarOf items) table entries) (payload : Dict Json)
    (hkeys : ((payload ++ entries).map Prod.fst).Nodup) :
    table.foldlM (setScalar items) payload = .ok (payload ++ entries) := by
  induction h generalizing payload with
  | nil =>
      rw [List.append_nil]
      rfl
  | @cons field entry table entries hfield hrest ih =>
      obtain ⟨⟨key, enc⟩, i⟩ := field
      obtain ⟨key', v⟩ := entry
      obtain ⟨rfl, item, text, hitem, henc, rfl⟩ := hfield
      have hsplit : payload ++ (key', Json.str text) :: entries =
          payload ++ [(key', Json.str text)] ++ entries := by simp
      have hfresh : key' ∉ payload.map Prod.fst := by
        rw [List.map_append, List.map_cons] at hkeys
        intro hmem
        exact (List.nodup_append.mp hkeys).2.2 key' hmem key' List.mem_cons_self rfl
      have hset : setScalar items payload ((key', enc), i) =
          .ok (payload ++ [(key', .str text)]) := by
        simp only at hitem henc
        simp only [setScalar, fieldAt, hitem, henc, bind, Except.bind, pure, Except.pure]
        rw [Dict.set_of_not_mem hfresh]
      rw [List.foldlM_cons, hset, hsplit]
      exact ih _ (by rwa [hsplit] at hkeys)

/-- Every field of the table finds its string. -/
theorem scalarOf_fields (p : ExecutionPayloadV3) :
    List.Forall₂ (ScalarOf p.items) (fields.zip scalarIndices) (p.toDict.take 15) := by
  repeat' first | exact .nil | refine .cons ⟨rfl, _, _, rfl, rfl, rfl⟩ ?_

theorem payloadFromRlp_items (p : ExecutionPayloadV3) :
    payloadFromRlp (.list p.items) = .ok p.toDict := by
  have hscalars : (fields.zip scalarIndices).foldlM (setScalar p.items) [] =
      .ok (p.toDict.take 15) :=
    foldlM_setScalar (scalarOf_fields p) [] (by
      show ["parentHash", "feeRecipient", "stateRoot", "receiptsRoot", "logsBloom", "prevRandao",
        "blockNumber", "gasLimit", "gasUsed", "timestamp", "extraData", "baseFeePerGas",
        "blockHash", "blobGasUsed", "excessBlobGas"].Nodup
      decide)
  have htransactions : (elements (.list (p.transactions.map .bytes))).mapM toData =
      .ok (p.transactions.map dataText) := by
    rw [elements, List.map_map]
    have htoData : ∀ tx, toData (.item (.bytes tx)) = .ok (dataText tx) := fun tx => rfl
    exact mapM_map_ok htoData p.transactions
  have hwithdrawals : (elements (.list (p.withdrawals.map Withdrawal.toItem))).mapM
      withdrawalToObj = .ok (p.withdrawals.map Withdrawal.toJson) := by
    rw [elements, List.map_map]
    exact mapM_map_ok withdrawalToObj_toItem p.withdrawals
  have h13 : fieldAt p.items 13 = .ok (.list (p.transactions.map .bytes)) := rfl
  have h14 : fieldAt p.items 14 = .ok (.list (p.withdrawals.map Withdrawal.toItem)) := rfl
  have hlength : ¬ p.items.length < 17 := by
    show ¬ 17 < 17
    omega
  have hfirst : ∀ v, Dict.set (p.toDict.take 15) "transactions" v =
      p.toDict.take 15 ++ [("transactions", v)] :=
    fun v => Dict.set_of_not_mem (by simp [ExecutionPayloadV3.toDict])
  have hsecond : ∀ v w, Dict.set (p.toDict.take 15 ++ [("transactions", v)]) "withdrawals" w =
      p.toDict.take 15 ++ [("transactions", v)] ++ [("withdrawals", w)] :=
    fun v w => Dict.set_of_not_mem (by simp [ExecutionPayloadV3.toDict])
  unfold payloadFromRlp
  simp only [if_neg hlength, hscalars, h13, h14, bind, Except.bind, htransactions,
    hwithdrawals, pure, Except.pure, hfirst, hsecond, List.map_map]
  rfl

/-! ## The record comes out -/

/-- The record loaded for a payload. -/
def loadedRecord (stamps : Stamps) (p : ExecutionPayloadV3) : PayloadRecord where
  payload := p.toDict
  blockHash := .str (dataText p.blockHash)
  blockNumber := fromBytes p.blockNumber
  versionedHashes := stamps.versionedHashes
  parentBeaconBlockRoot := stamps.parentBeaconBlockRoot
  fork := stamps.fork
  executionRequests := stamps.executionRequests
  newpayloadVersion := stamps.newpayloadVersion

theorem blockNumberOf_toDict (p : ExecutionPayloadV3) :
    MockCl.blockNumberOf p.toDict = .ok (fromBytes p.blockNumber : ℤ) := by
  show Json.int16 (.str (hex (fromBytes p.blockNumber))) = _
  exact Json.int16_hex _

theorem recordOfObject_recordJson {stamps : Stamps} (hroot : stamps.parentBeaconBlockRoot ≠ .null)
    (path : String) (lineNo : ℕ) (p : ExecutionPayloadV3) :
    recordOfObject path lineNo (recordJson stamps p.toDict) = .ok (loadedRecord stamps p) := by
  have hpayload : (recordJson stamps p.toDict).get "payload" = .ok (.obj p.toDict) := rfl
  have hhashes : (recordJson stamps p.toDict).get "versioned_hashes" =
      .ok stamps.versionedHashes := rfl
  have hbeacon : (recordJson stamps p.toDict).get "parent_beacon_block_root" =
      .ok stamps.parentBeaconBlockRoot := rfl
  have hrequests : (recordJson stamps p.toDict).get "execution_requests" =
      .ok stamps.executionRequests := rfl
  have hversion : (recordJson stamps p.toDict).get "newpayload_version" =
      .ok stamps.newpayloadVersion := rfl
  have hfork : (recordJson stamps p.toDict).get "fork" = .ok stamps.fork := rfl
  simp only [recordOfObject, hpayload, bind, Except.bind, blockNumberOf_toDict, hhashes, hbeacon,
    hrequests, hversion, hfork, pure, Except.pure]
  rfl

/-- The text of DATA is read back. -/
theorem dataOf_dataText (b : Bytes) : DataOf (.str (dataText b)) b := by
  refine ⟨dataText b, rfl, ?_⟩
  rw [fromData, dataText, String.toList_ofList]
  exact unhex_bytesHex b

/-- Python's `hex` prints quantities. -/
theorem quantityOf_hex (b : Bytes) : QuantityOf (.str (hex (fromBytes b))) b := by
  refine ⟨hexDigits (fromBytes b), rfl, fun c => mem_hexDigits, readDigits_hexDigits _, ?_,
    head_hexDigits⟩
  intro hzero
  rw [hzero]
  rfl

theorem withdrawalOf_toJson (w : Withdrawal) : WithdrawalOf w w.toJson :=
  ⟨_, rfl, quantityOf_hex _, quantityOf_hex _, dataOf_dataText _, quantityOf_hex _⟩

theorem get_dataFields {field : String × (ExecutionPayloadV3 → Bytes)}
    (h : field ∈ ExecutionPayloadV3.dataFields) (p : ExecutionPayloadV3) :
    Dict.get p.toDict field.1 = .str (dataText (field.2 p)) := by
  simp only [ExecutionPayloadV3.dataFields, List.mem_cons, List.not_mem_nil, or_false] at h
  rcases h with rfl | rfl | rfl | rfl | rfl | rfl | rfl | rfl <;> rfl

theorem get_quantityFields {field : String × (ExecutionPayloadV3 → Bytes)}
    (h : field ∈ ExecutionPayloadV3.quantityFields) (p : ExecutionPayloadV3) :
    Dict.get p.toDict field.1 = .str (hex (fromBytes (field.2 p))) := by
  simp only [ExecutionPayloadV3.quantityFields, List.mem_cons, List.not_mem_nil, or_false] at h
  rcases h with rfl | rfl | rfl | rfl | rfl | rfl | rfl <;> rfl

/-- A function that keeps a relation pointwise keeps it on lists. -/
theorem forall₂_map_right {α β : Type} {R : α → β → Prop} {f : α → β} (h : ∀ x, R x (f x))
    (xs : List α) : List.Forall₂ R xs (xs.map f) := by
  rw [List.forall₂_map_right_iff]
  exact List.forall₂_same.mpr fun x _ => h x

theorem recordOf_loadedRecord (stamps : Stamps) (p : ExecutionPayloadV3) :
    RecordOf stamps p (loadedRecord stamps p) where
  data field h := by
    rw [show (loadedRecord stamps p).payload = p.toDict from rfl, get_dataFields h]
    exact dataOf_dataText _
  quantity field h := by
    rw [show (loadedRecord stamps p).payload = p.toDict from rfl, get_quantityFields h]
    exact quantityOf_hex _
  transactions := by
    refine ⟨_, rfl, ?_⟩
    apply forall₂_map_right
    exact dataOf_dataText
  withdrawals := ⟨_, rfl, forall₂_map_right withdrawalOf_toJson _⟩
  blockNumber := rfl
  blockHash := dataOf_dataText _
  versionedHashes := rfl
  parentBeaconBlockRoot := rfl
  executionRequests := rfl
  newpayloadVersion := rfl
  fork := rfl

/-- What one body adds to the conversion. -/
def converted (stamps : Stamps) (p : ExecutionPayloadV3) (c : Conversion) : Conversion :=
  ({ c with bodiesRead := c.bodiesRead + 1 }.write (recordJson stamps p.toDict)).note
    (fromBytes p.blockNumber)

theorem convertBody_body {p : ExecutionPayloadV3} (h : p.Framable) :
    convertBody p.body = .ok p.toDict := by
  have hsmall : (encode (.list p.items)).length < 256 ^ 8 := by
    unfold ExecutionPayloadV3.Framable ExecutionPayloadV3.body at h
    omega
  obtain ⟨next, hdecode⟩ := decodeAt_encode hsmall
  simp only [convertBody, ExecutionPayloadV3.body, hdecode, bind, Except.bind,
    payloadFromRlp_items]

theorem convertStep_body {p : ExecutionPayloadV3} (h : p.Framable) (stamps : Stamps) (i : ℕ)
    (c : Conversion) :
    convertStep stamps none none i p.body c = (none, converted stamps p c) := by
  have hnumber : (Dict.get p.toDict "blockNumber").int16 = .ok (fromBytes p.blockNumber : ℤ) :=
    Json.int16_hex _
  simp only [convertStep, belowStart, convertBody_body h, hnumber]
  rfl

theorem lines_foldl_converted (stamps : Stamps) (payloads : List ExecutionPayloadV3)
    (c : Conversion) :
    (payloads.foldl (fun c p => converted stamps p c) c).lines =
      c.lines ++ payloads.map fun p => recordJson stamps p.toDict := by
  induction payloads generalizing c with
  | nil => simp
  | cons p rest ih =>
      rw [List.foldl_cons, ih]
      simp [converted, Conversion.write, Conversion.note]

/-- Converting a stream writes one record for each payload. -/
theorem convert_stream {payloads : List ExecutionPayloadV3} (h : ∀ p ∈ payloads, p.Framable)
    (stamps : Stamps) :
    ∃ c, convert stamps none none (stream payloads) = (none, c) ∧
      c.lines = payloads.map fun p => recordJson stamps p.toDict := by
  have hloop := forEach_map_of_falls
    (fun i p hp c => convertStep_body (h p hp) stamps i c) 0 Conversion.start
  refine ⟨payloads.foldl (fun c p => converted stamps p c) .start, ?_, ?_⟩
  · simp only [convert, iterRecordBodies_stream h, hloop]
  · rw [lines_foldl_converted]
    rfl

/-- Loading the records written gives one record for each payload. -/
theorem loadPayloads_lines {stamps : Stamps} (hroot : stamps.parentBeaconBlockRoot ≠ .null)
    (path : String) (payloads : List ExecutionPayloadV3) :
    loadPayloads path ((payloads.map fun p => recordJson stamps p.toDict).map .json) =
      (none, payloads.map (loadedRecord stamps)) := by
  have hline : ∀ (i : ℕ), ∀ p ∈ payloads, ∀ records,
      loadLine path i (.json (recordJson stamps p.toDict)) records =
        (none, records ++ [loadedRecord stamps p]) := by
    intro i p _ records
    rw [loadLine, recordOfObject_recordJson hroot]
  rw [loadPayloads, List.map_map]
  have hloop := forEach_map_of_falls hline 1 []
  rw [List.foldl_append_eq_append, List.nil_append] at hloop
  rw [← List.flatMap_def, ← List.map_eq_flatMap] at hloop
  exact hloop

/-- The same withdrawal, up to leading zeros of its numbers. -/
structure Withdrawal.Agrees (v w : Withdrawal) : Prop where
  index : stripZeros v.index = stripZeros w.index
  validatorIndex : stripZeros v.validatorIndex = stripZeros w.validatorIndex
  address : v.address = w.address
  amount : stripZeros v.amount = stripZeros w.amount

/-- The same payload, up to leading zeros of its numbers. -/
structure ExecutionPayloadV3.Agrees (p q : ExecutionPayloadV3) : Prop where
  data : ∀ field ∈ dataFields, field.2 p = field.2 q
  quantity : ∀ field ∈ quantityFields, stripZeros (field.2 p) = stripZeros (field.2 q)
  transactions : p.transactions = q.transactions
  withdrawals : List.Forall₂ Withdrawal.Agrees p.withdrawals q.withdrawals

theorem DataOf.unique {v : Json} {b b' : Bytes} (h : DataOf v b) (h' : DataOf v b') : b = b' := by
  obtain ⟨text, rfl, htext⟩ := h
  obtain ⟨text', heq, htext'⟩ := h'
  obtain rfl := Json.str.inj heq
  exact Option.some_inj.mp (htext.symm.trans htext')

theorem QuantityOf.unique {v : Json} {b b' : Bytes} (h : QuantityOf v b) (h' : QuantityOf v b') :
    stripZeros b = stripZeros b' := by
  obtain ⟨digits, rfl, -, hvalue, -⟩ := h
  obtain ⟨digits', heq, -, hvalue', -⟩ := h'
  have hchars := String.ofList_injective (Json.str.inj heq)
  obtain rfl : digits = digits' := (List.cons.inj (List.cons.inj hchars).2).2
  exact stripZeros_congr (Option.some_inj.mp (hvalue.symm.trans hvalue'))

theorem WithdrawalOf.agrees {w w' : Withdrawal} {v : Json} (h : WithdrawalOf w v)
    (h' : WithdrawalOf w' v) : w.Agrees w' := by
  obtain ⟨fields, rfl, hindex, hvalidator, haddress, hamount⟩ := h
  obtain ⟨fields', heq, hindex', hvalidator', haddress', hamount'⟩ := h'
  obtain rfl := Json.obj.inj heq
  exact ⟨hindex.unique hindex', hvalidator.unique hvalidator', haddress.unique haddress',
    hamount.unique hamount'⟩

/-- Two lists matched with a third are matched with each other. -/
theorem forall₂_of_common {α β : Type} {R : α → β → Prop} {S : α → α → Prop}
    (h : ∀ x y z, R x z → R y z → S x y) {xs ys : List α} {zs : List β}
    (hxs : List.Forall₂ R xs zs) (hys : List.Forall₂ R ys zs) : List.Forall₂ S xs ys := by
  induction hxs generalizing ys with
  | nil =>
      cases hys
      exact .nil
  | cons hx hrest ih =>
      cases hys with
      | cons hy hrest' => exact .cons (h _ _ _ hx hy) (ih hrest')

theorem RecordOf.agrees {stamps : Stamps} {p q : ExecutionPayloadV3} {r : PayloadRecord}
    (hp : RecordOf stamps p r) (hq : RecordOf stamps q r) : p.Agrees q where
  data field h := (hp.data field h).unique (hq.data field h)
  quantity field h := (hp.quantity field h).unique (hq.quantity field h)
  transactions := by
    obtain ⟨values, hvalues, hall⟩ := hp.transactions
    obtain ⟨values', hvalues', hall'⟩ := hq.transactions
    obtain rfl := Json.arr.inj (hvalues.symm.trans hvalues')
    have heq := forall₂_of_common (fun _ _ _ hx hy => hx.unique hy) hall hall'
    rwa [List.forall₂_eq_eq_eq] at heq
  withdrawals := by
    obtain ⟨values, hvalues, hall⟩ := hp.withdrawals
    obtain ⟨values', hvalues', hall'⟩ := hq.withdrawals
    obtain rfl := Json.arr.inj (hvalues.symm.trans hvalues')
    refine forall₂_of_common ?_ hall hall'
    intro w w' v hw hw'
    exact hw.agrees hw'

theorem loads_stream {stamps : Stamps} (hroot : stamps.parentBeaconBlockRoot ≠ .null)
    (path : String) {payloads : List ExecutionPayloadV3} (h : ∀ p ∈ payloads, p.Framable)
    (records : List PayloadRecord) :
    Loads stamps path (stream payloads) records ↔ records = payloads.map (loadedRecord stamps) := by
  obtain ⟨c, hconvert, hlines⟩ := convert_stream h stamps
  have hload := loadPayloads_lines hroot path payloads
  rw [← hlines] at hload
  constructor
  · rintro ⟨c', hconvert', hload'⟩
    obtain rfl : c = c' := (Prod.mk.inj (hconvert.symm.trans hconvert')).2
    exact (Prod.mk.inj (hload'.symm.trans hload)).2
  · rintro rfl
    exact ⟨c, hconvert, hload⟩

/-- **The round trip.**  A stream of payloads loads as one record for each, with
everything the payload had; and streams that load as the same records differ at
most in leading zeros. -/
theorem stream_roundTrip (stamps : Stamps) (hroot : stamps.parentBeaconBlockRoot ≠ .null)
    (path : String) :
    (∀ payloads : List ExecutionPayloadV3, (∀ p ∈ payloads, p.Framable) →
      ∃ records, Loads stamps path (stream payloads) records ∧
        List.Forall₂ (RecordOf stamps) payloads records) ∧
    ∀ (payloads payloads' : List ExecutionPayloadV3) (records : List PayloadRecord),
      (∀ p ∈ payloads, p.Framable) → (∀ p ∈ payloads', p.Framable) →
      Loads stamps path (stream payloads) records →
      Loads stamps path (stream payloads') records →
      List.Forall₂ ExecutionPayloadV3.Agrees payloads payloads' := by
  have hrecords : ∀ payloads : List ExecutionPayloadV3,
      List.Forall₂ (RecordOf stamps) payloads (payloads.map (loadedRecord stamps)) :=
    fun payloads => forall₂_map_right (recordOf_loadedRecord stamps) payloads
  constructor
  · intro payloads h
    exact ⟨_, (loads_stream hroot path h _).mpr rfl, hrecords payloads⟩
  · intro payloads payloads' records h h' hload hload'
    obtain rfl := (loads_stream hroot path h records).mp hload
    have hsame := (loads_stream hroot path h' _).mp hload'
    have hother := hrecords payloads'
    rw [← hsame] at hother
    refine forall₂_of_common ?_ (hrecords payloads) hother
    intro p q r hp hq
    exact hp.agrees hq

/-- A payload with a one-byte number, a two-byte number with a leading zero, one
transaction and one withdrawal. -/
def smallPayload : ExecutionPayloadV3 where
  parentHash := [0x01]
  feeRecipient := []
  stateRoot := []
  receiptsRoot := []
  logsBloom := []
  prevRandao := []
  blockNumber := [0x07]
  gasLimit := [0x00, 0xff]
  gasUsed := []
  timestamp := []
  extraData := []
  baseFeePerGas := []
  blockHash := [0x02]
  transactions := [[0x02, 0xab]]
  withdrawals := [⟨[0x01], [], [0xaa], [0x10]⟩]
  blobGasUsed := []
  excessBlobGas := []

/-- The default extras of the script. -/
def defaultStamps : Stamps where
  newpayloadVersion := .int 4
  parentBeaconBlockRoot := .str zeroBeaconRoot
  versionedHashes := .arr []
  executionRequests := .arr []
  fork := .str "prague"

/-- The payload of the next block, without transactions. -/
def nextPayload : ExecutionPayloadV3 :=
  { smallPayload with
    parentHash := [0x02]
    blockNumber := [0x08]
    blockHash := [0x03]
    transactions := [] }

def smallPayloads : List ExecutionPayloadV3 := [smallPayload, nextPayload]

theorem framable_smallPayloads : ∀ p ∈ smallPayloads, p.Framable := by
  have hsmall : smallPayload.body.length < 256 ^ 4 := by decide
  have hnext : nextPayload.body.length < 256 ^ 4 := by decide
  exact List.forall_mem_cons.mpr ⟨hsmall, List.forall_mem_singleton.mpr hnext⟩

/-- Their stream loads as one record each, with everything in it. -/
theorem smallPayloads_load :
    ∃ records, Loads defaultStamps "payloads.jsonl" (stream smallPayloads) records ∧
      List.Forall₂ (RecordOf defaultStamps) smallPayloads records :=
  (stream_roundTrip defaultStamps nofun "payloads.jsonl").1 smallPayloads framable_smallPayloads

end StateBenchmarks.RlpToMocks
