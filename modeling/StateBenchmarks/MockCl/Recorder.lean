/-
# Recording blocks to replay them

`record_from_el` of `src/mock_cl/payloads.py` asks an execution client for its
blocks and writes a payload file from the answers, which the replay driver later
sends to another client.  A block and an execution payload have most fields in
common.  Transactions are the exception: the request asks for them as objects,
the Engine API takes them as encoded data, and the recorder copies them as they
are.
-/

import StateBenchmarks.MockCl.ReplayChaining
import StateBenchmarks.MockCl.ReplayProtocol

namespace StateBenchmarks.MockCl

open Python Control

/-- `_DIRECT_FIELDS`. -/
def directFields : List String :=
  ["parentHash", "stateRoot", "receiptsRoot", "logsBloom", "gasLimit", "gasUsed", "timestamp",
    "extraData", "baseFeePerGas", "transactions"]

/-- `_RENAMED_FIELDS`. -/
def renamedFields : List (String × String) :=
  [("miner", "feeRecipient"), ("mixHash", "prevRandao"), ("number", "blockNumber"),
    ("hash", "blockHash")]

/-- `_OPTIONAL_FIELDS`. -/
def optionalFields : List String := ["withdrawals", "blobGasUsed", "excessBlobGas"]

/-- A field that is copied where the block has it. -/
def copyField (block payload : Dict Json) (names : String × String) : Dict Json :=
  match block.get? names.1 with
  | some v => payload.set names.2 v
  | none => payload

/-- A field that is copied where the block has a value for it. -/
def copyPresent (block payload : Dict Json) (field : String) : Dict Json :=
  match block.get field with
  | .null => payload
  | v => payload.set field v

/-- `_block_to_payload`. -/
def blockToPayload (block : Dict Json) : Dict Json :=
  let direct := directFields.foldl (fun payload field => copyField block payload (field, field)) []
  let renamed := renamedFields.foldl (copyField block) direct
  optionalFields.foldl (copyPresent block) renamed

/-- The record written for a block. -/
def recordedLine (block : Dict Json) : Json :=
  .obj [("payload", .obj (blockToPayload block)), ("fork", .null)]

/-- One iteration of `record_from_el`; an unavailable block ends it. -/
def recordBlock (ethGetBlock : ℤ → Option (Dict Json)) (_ : ℕ) (n : ℤ) (written : List Json) :
    Option Unit × List Json :=
  match ethGetBlock n with
  | none => (some (), written)
  | some block => (none, written ++ [recordedLine block])

/-- `range(start_block, start_block + count)`. -/
def blockNumbers (startBlock count : ℤ) : List ℤ :=
  (List.range count.toNat).map fun i : ℕ => startBlock + i

/-- `record_from_el`: the records written, whose number it returns.  `ethGetBlock` is
`_eth_get_block`, by what it answers for each block. -/
def recordFromEl (ethGetBlock : ℤ → Option (Dict Json)) (startBlock count : ℤ) : List Json :=
  (forEach (recordBlock ethGetBlock) 0 (blockNumbers startBlock count) []).2

/-- The records `load_payloads` yields from a file `record_from_el` wrote. -/
def recordedPayloads (ethGetBlock : ℤ → Option (Dict Json)) (startBlock count : ℤ)
    (path : String) : List PayloadRecord :=
  (loadPayloads path ((recordFromEl ethGetBlock startBlock count).map .json)).2

/-- The fields of an `ExecutionPayloadV1`, each with the block's name for it. -/
def v1Fields : List (String × String) :=
  [("parentHash", "parentHash"), ("miner", "feeRecipient"), ("stateRoot", "stateRoot"),
    ("receiptsRoot", "receiptsRoot"), ("logsBloom", "logsBloom"), ("mixHash", "prevRandao"),
    ("number", "blockNumber"), ("gasLimit", "gasLimit"), ("gasUsed", "gasUsed"),
    ("timestamp", "timestamp"), ("extraData", "extraData"), ("baseFeePerGas", "baseFeePerGas"),
    ("hash", "blockHash"), ("transactions", "transactions")]

def isHexDigit (c : Char) : Bool :=
  c.isDigit || ('a' ≤ c && c ≤ 'f') || ('A' ≤ c && c ≤ 'F')

/-- Encoded data: `0x` and two hexadecimal digits for each byte. -/
def isData : Json → Bool
  | .str text =>
      match text.toList with
      | '0' :: 'x' :: digits => digits.length % 2 == 0 && digits.all isHexDigit
      | _ => false
  | _ => false

/-- A field the block has a value for. -/
def present (block : Dict Json) (field : String) : Option Json :=
  match block.get field with
  | .null => none
  | v => some v

/-- The `newPayload` version of a block before Cancun: the second one brought
withdrawals. -/
def payloadVersion (block : Dict Json) : ℤ :=
  if (present block "withdrawals").isSome then 2 else 1

/-- The payload has the block's values, and its transactions are encoded. -/
structure PayloadShaped (block payload : Dict Json) : Prop where
  fields : ∀ names ∈ v1Fields, ∃ v, block.get? names.1 = some v ∧ payload.get? names.2 = some v
  withdrawals : payload.get? "withdrawals" = present block "withdrawals"
  transactions : ∃ txs, payload.get? "transactions" = some (.arr txs) ∧
    ∀ tx ∈ txs, isData tx = true

/-- The call is a request in the block's version, for its payload. -/
def SendsShaped (block : Dict Json) (call : EngineCall) : Prop :=
  ∃ payload, call.request =
      .ok ⟨[.text "engine_newPayloadV", .str (.int (payloadVersion block))], [.obj payload]⟩ ∧
    PayloadShaped block payload

/-- A block before Cancun as a client answers it: its transactions are objects. -/
structure PreCancun (block : Dict Json) : Prop where
  blobGasUsed : block.get "blobGasUsed" = .null
  excessBlobGas : block.get "excessBlobGas" = .null
  transactions : ∃ txs : List (Dict Json),
    block.get? "transactions" = some (.arr (txs.map Json.obj))

/-- The block has every field of a payload but no transaction, and the driver does
not force another version on it. -/
structure ReplaysDirectly (d : ReplayDriver) (block : Dict Json) : Prop where
  complete : ∀ names ∈ v1Fields, (block.get? names.1).isSome = true
  empty : block.get? "transactions" = some (.arr [])
  unforced : ∀ v, d.newpayloadVersion = some v → v = 0 ∨ v = payloadVersion block

variable {block payload : Dict Json}

theorem get?_copyField (names : String × String) (key : String) :
    (copyField block payload names).get? key =
      if key = names.2 then (block.get? names.1).or (payload.get? key) else payload.get? key := by
  rw [copyField]
  cases block.get? names.1 with
  | none =>
      rw [Option.none_or]
      split_ifs <;> rfl
  | some v => exact Dict.get?_set payload names.2 key v

/-- Copying into distinct names, each gets its field and every other name keeps its
value. -/
theorem get?_foldl_copyField {pairs : List (String × String)}
    (hnodup : (pairs.map Prod.snd).Nodup) :
    (∀ names ∈ pairs, (pairs.foldl (copyField block) payload).get? names.2 =
        (block.get? names.1).or (payload.get? names.2)) ∧
      ∀ key, key ∉ pairs.map Prod.snd →
        (pairs.foldl (copyField block) payload).get? key = payload.get? key := by
  induction pairs generalizing payload with
  | nil => exact ⟨nofun, fun _ _ => rfl⟩
  | cons first rest ih =>
      rw [List.map_cons, List.nodup_cons] at hnodup
      obtain ⟨hcopied, hkept⟩ := @ih (copyField block payload first) hnodup.2
      refine ⟨fun names hnames => ?_, fun key hkey => ?_⟩
      · rcases List.mem_cons.mp hnames with rfl | hnames
        · rw [List.foldl_cons, hkept _ hnodup.1, get?_copyField, if_pos rfl]
        · have hne : names.2 ≠ first.2 := fun heq =>
            hnodup.1 (heq ▸ List.mem_map_of_mem hnames)
          rw [List.foldl_cons, hcopied names hnames, get?_copyField, if_neg hne]
      · rw [List.map_cons, List.mem_cons, not_or] at hkey
        rw [List.foldl_cons, hkept key hkey.2, get?_copyField, if_neg hkey.1]

theorem get?_copyPresent_of_ne {field key : String} (h : key ≠ field) :
    (copyPresent block payload field).get? key = payload.get? key := by
  rw [copyPresent]
  split
  · rfl
  · exact Dict.get?_set_of_ne h

theorem get?_copyPresent_self (field : String) :
    (copyPresent block payload field).get? field =
      (present block field).or (payload.get? field) := by
  rw [copyPresent, present]
  split
  · rfl
  · exact Dict.get?_set_self payload field _

theorem get?_foldl_copyPresent {fields : List String} (hnodup : fields.Nodup) :
    (∀ field ∈ fields, (fields.foldl (copyPresent block) payload).get? field =
        (present block field).or (payload.get? field)) ∧
      ∀ key, key ∉ fields → (fields.foldl (copyPresent block) payload).get? key =
        payload.get? key := by
  induction fields generalizing payload with
  | nil => exact ⟨nofun, fun _ _ => rfl⟩
  | cons first rest ih =>
      rw [List.nodup_cons] at hnodup
      obtain ⟨hcopied, hkept⟩ := @ih (copyPresent block payload first) hnodup.2
      refine ⟨fun field hfield => ?_, fun key hkey => ?_⟩
      · rcases List.mem_cons.mp hfield with rfl | hfield
        · rw [List.foldl_cons, hkept _ hnodup.1, get?_copyPresent_self]
        · have hne : field ≠ first := fun heq => hnodup.1 (heq ▸ hfield)
          rw [List.foldl_cons, hcopied field hfield, get?_copyPresent_of_ne hne]
      · rw [List.mem_cons, not_or] at hkey
        rw [List.foldl_cons, hkept key hkey.2, get?_copyPresent_of_ne hkey.1]

/-- The fields that are copied by name, in their order. -/
def namedFields : List (String × String) :=
  directFields.map (fun field => (field, field)) ++ renamedFields

theorem blockToPayload_eq (block : Dict Json) :
    blockToPayload block =
      optionalFields.foldl (copyPresent block) (namedFields.foldl (copyField block) []) := by
  rw [blockToPayload, namedFields, List.foldl_append, List.foldl_map]

/-- The fields of the first version carry the block's values. -/
theorem get?_blockToPayload (names : String × String) (h : names ∈ v1Fields) :
    (blockToPayload block).get? names.2 = block.get? names.1 := by
  have hnamed : names ∈ namedFields := by
    revert h names
    decide
  have hrequired : names.2 ∉ optionalFields := by
    revert h names
    decide
  rw [blockToPayload_eq, (get?_foldl_copyPresent (by decide)).2 names.2 hrequired,
    (get?_foldl_copyField (by decide)).1 names hnamed]
  exact Option.or_none

/-- The optional fields carry the values the block has for them. -/
theorem get?_blockToPayload_optional {field : String} (h : field ∈ optionalFields) :
    (blockToPayload block).get? field = present block field := by
  have hunnamed : field ∉ namedFields.map Prod.snd := by
    revert h field
    decide
  rw [blockToPayload_eq, (get?_foldl_copyPresent (by decide)).1 field h,
    (get?_foldl_copyField (by decide)).2 field hunnamed]
  exact Option.or_none

/-! ## From the block to the request -/

/-- The record of a block: no version of its own, and nothing beside its payload. -/
def recordOf (block : Dict Json) (blockNumber : ℤ) : PayloadRecord where
  payload := blockToPayload block
  blockHash := (blockToPayload block).get "blockHash"
  blockNumber := blockNumber
  versionedHashes := .null
  parentBeaconBlockRoot := .str zeroBeaconRoot
  fork := .null
  executionRequests := .null
  newpayloadVersion := .null

/-- Loading the line of a block gives its record, if its number can be read. -/
theorem recordOfObject_recordedLine (block : Dict Json) (path : String) (lineNo : ℕ) :
    recordOfObject path lineNo (recordedLine block) =
      (blockNumberOf (blockToPayload block)).map (recordOf block) := by
  have hpayload : (recordedLine block).get "payload" = .ok (.obj (blockToPayload block)) := rfl
  rw [recordOfObject, hpayload]
  cases hnumber : blockNumberOf (blockToPayload block) with
  | error e =>
      show (blockNumberOf (blockToPayload block) >>= _) = _
      rw [hnumber]
      rfl
  | ok n =>
      show (blockNumberOf (blockToPayload block) >>= _) = _
      rw [hnumber]
      rfl

/-- The version a driver forces on every payload. -/
def ReplayDriver.forcedVersion (d : ReplayDriver) : Json :=
  match d.newpayloadVersion with
  | none | some 0 => .null
  | some v => .int v

theorem submission_of_recordedLine (d : ReplayDriver) {path : String} {lineNo : ℕ}
    {r : PayloadRecord} (h : recordOfObject path lineNo (recordedLine block) = .ok r) :
    d.submission r =
      .ok (.newPayload (blockToPayload block) .null (.str zeroBeaconRoot) d.forcedVersion
        .null) := by
  rw [recordOfObject_recordedLine] at h
  obtain ⟨blockNumber, rfl⟩ : ∃ blockNumber, recordOf block blockNumber = r := by
    cases hnumber : blockNumberOf (blockToPayload block) with
    | error e =>
        rw [hnumber] at h
        cases h
    | ok n =>
        rw [hnumber] at h
        exact ⟨n, Except.ok.inj h⟩
  rw [ReplayDriver.submission, ReplayDriver.version, ReplayDriver.forcedVersion]
  rcases d.newpayloadVersion with _ | v
  · rfl
  · by_cases hzero : v = 0
    · rw [hzero]
      rfl
    · have htruthy : (Json.int v).truthy = true := bne_iff_ne.mpr hzero
      dsimp only
      rw [if_pos htruthy]
      split
      · rename_i heq
        cases heq
      · rename_i heq
        exact absurd (Option.some.inj heq) hzero
      · rename_i w _ heq
        cases heq
        rfl

theorem pyEq_int_iff {v w : ℤ} : (Json.int v).pyEq (.int w) = true ↔ v = w := by
  simp [Json.pyEq, Json.number?]

/-- In the first two versions a payload is sent alone, in the others it is not. -/
theorem request_eq_iff {hashes root requests : Json} {v w : ℤ} (hw : w = 1 ∨ w = 2)
    {other : Dict Json} :
    (EngineCall.newPayload payload hashes root (.int v) requests).request =
        .ok ⟨[.text "engine_newPayloadV", .str (.int w)], [.obj other]⟩ ↔
      v = w ∧ other = payload := by
  by_cases hv : v = 1 ∨ v = 2
  · have hsent : (EngineCall.newPayload payload hashes root (.int v) requests).request =
        .ok ⟨[.text "engine_newPayloadV", .str (.int v)], [.obj payload]⟩ := by
      rcases hv with rfl | rfl <;> rfl
    rw [hsent]
    simp [eq_comm]
  · have hne : v ≠ w := fun heq => hv (heq ▸ hw)
    rw [not_or] at hv
    refine iff_of_false (fun hsent => ?_) fun h => hne h.1
    have hone : ¬ (Json.int v).pyEq (.int 1) = true := mt pyEq_int_iff.mp hv.1
    have htwo : ¬ (Json.int v).pyEq (.int 2) = true := mt pyEq_int_iff.mp hv.2
    dsimp only [EngineCall.request] at hsent
    rw [if_neg hone, if_neg htwo] at hsent
    split_ifs at hsent <;> cases hsent

/-- The version a payload is sent in. -/
def sentVersion (d : ReplayDriver) (payload : Dict Json) : ℤ :=
  match d.newpayloadVersion with
  | none | some 0 => autoVersion payload .null
  | some v => v

theorem request_forced (d : ReplayDriver) (hashes root : Json) :
    (EngineCall.newPayload payload hashes root d.forcedVersion .null).request =
      (EngineCall.newPayload payload hashes root (.int (sentVersion d payload)) .null).request := by
  rw [ReplayDriver.forcedVersion, sentVersion]
  split <;> rfl

/-- Before Cancun the shape of a recorded payload tells its version. -/
theorem autoVersion_blockToPayload (h : PreCancun block) :
    autoVersion (blockToPayload block) .null = payloadVersion block := by
  have hblob : present block "blobGasUsed" = none := by rw [present, h.blobGasUsed]
  have hexcess : present block "excessBlobGas" = none := by rw [present, h.excessBlobGas]
  rw [autoVersion, get?_blockToPayload_optional (by decide),
    get?_blockToPayload_optional (by decide), get?_blockToPayload_optional (by decide), hblob,
    hexcess]
  rfl

/-- The version is the block's unless another one is forced. -/
theorem sentVersion_eq_iff (d : ReplayDriver) (h : PreCancun block) :
    sentVersion d (blockToPayload block) = payloadVersion block ↔
      ∀ v, d.newpayloadVersion = some v → v = 0 ∨ v = payloadVersion block := by
  rw [sentVersion]
  split
  · rename_i hnone
    exact iff_of_true (autoVersion_blockToPayload h) (by simp [hnone])
  · rename_i hzero
    exact iff_of_true (autoVersion_blockToPayload h) (by simp [hzero])
  · rename_i v hnonzero hsome
    simp [hsome, show v ≠ 0 from hnonzero]

/-- Objects are not encoded data. -/
theorem forall_isData_iff (txs : List (Dict Json)) :
    (∀ tx ∈ txs.map Json.obj, isData tx = true) ↔ txs = [] := by
  cases txs with
  | nil => simp
  | cons tx rest => simp [isData]

/-- The recorded payload has the right shape exactly if the block has every field and
no transaction. -/
theorem payloadShaped_iff (h : PreCancun block) :
    PayloadShaped block (blockToPayload block) ↔
      (∀ names ∈ v1Fields, (block.get? names.1).isSome = true) ∧
        block.get? "transactions" = some (.arr []) := by
  have htransactions : (blockToPayload block).get? "transactions" = block.get? "transactions" :=
    get?_blockToPayload ("transactions", "transactions") (by decide)
  obtain ⟨txs, htxs⟩ := h.transactions
  apply Iff.intro
  · intro hshaped
    refine ⟨fun names hnames => ?_, ?_⟩
    · obtain ⟨v, hv, -⟩ := hshaped.fields names hnames
      rw [hv]
      rfl
    · obtain ⟨sent, hsent, hdata⟩ := hshaped.transactions
      rw [htransactions, htxs] at hsent
      cases hsent
      rw [htxs, (forall_isData_iff txs).mp hdata]
      rfl
  · rintro ⟨hcomplete, hempty⟩
    refine ⟨fun names hnames => ?_, get?_blockToPayload_optional (by decide), [], ?_, nofun⟩
    · obtain ⟨v, hv⟩ := Option.isSome_iff_exists.mp (hcomplete names hnames)
      exact ⟨v, hv, (get?_blockToPayload names hnames).trans hv⟩
    · rw [htransactions, hempty]

/-- The call for a recorded block is shaped as its version asks exactly if the block
replays directly. -/
theorem sendsShaped_iff (d : ReplayDriver) {path : String} {lineNo : ℕ} {r : PayloadRecord}
    {call : EngineCall} (h : PreCancun block)
    (hrecord : recordOfObject path lineNo (recordedLine block) = .ok r)
    (hcall : d.submission r = .ok call) : SendsShaped block call ↔ ReplaysDirectly d block := by
  rw [submission_of_recordedLine d hrecord] at hcall
  cases hcall
  have hversion : payloadVersion block = 1 ∨ payloadVersion block = 2 := by
    rw [payloadVersion]
    split_ifs <;> simp
  rw [SendsShaped]
  simp only [request_forced, request_eq_iff hversion]
  apply Iff.intro
  · rintro ⟨_, ⟨hsent, rfl⟩, hshaped⟩
    obtain ⟨hcomplete, hempty⟩ := (payloadShaped_iff h).mp hshaped
    exact ⟨hcomplete, hempty, (sentVersion_eq_iff d h).mp hsent⟩
  · intro hdirect
    exact ⟨_, ⟨(sentVersion_eq_iff d h).mpr hdirect.unforced, rfl⟩,
      (payloadShaped_iff h).mpr ⟨hdirect.complete, hdirect.empty⟩⟩

/-- The records written are those of the blocks asked for, in their order. -/
theorem recordFromEl_lines (ethGetBlock : ℤ → Option (Dict Json)) (numbers : List ℤ) (start : ℕ)
    (written : List Json) : ∃ blocks : List (Dict Json),
      (forEach (recordBlock ethGetBlock) start numbers written).2 =
          written ++ blocks.map recordedLine ∧
        ∀ (i : ℕ) block, blocks[i]? = some block → ∃ n, numbers[i]? = some n ∧
          ethGetBlock n = some block := by
  induction numbers generalizing start written with
  | nil => exact ⟨[], by simp [forEach], nofun⟩
  | cons n rest ih =>
      cases hblock : ethGetBlock n with
      | none =>
          rw [forEach_cons_of_some (by rw [recordBlock, hblock])]
          exact ⟨[], by simp, nofun⟩
      | some block =>
          rw [forEach_cons_of_none (by rw [recordBlock, hblock])]
          obtain ⟨blocks, hlines, hblocks⟩ := ih (start + 1) (written ++ [recordedLine block])
          refine ⟨block :: blocks, by rw [hlines]; simp, fun i other hother => ?_⟩
          cases i with
          | zero =>
              cases hother
              exact ⟨n, rfl, hblock⟩
          | succ i => exact hblocks i other hother

/-- The records loaded from a file of JSON lines are those of its lines. -/
theorem loadPayloads_records (path : String) (objs : List Json) (lineNo : ℕ)
    (records : List PayloadRecord) : ∃ loaded : List PayloadRecord,
      (forEach (loadLine path) lineNo (objs.map .json) records).2 = records ++ loaded ∧
        ∀ (i : ℕ) r, loaded[i]? = some r → ∃ obj, objs[i]? = some obj ∧
          recordOfObject path (lineNo + i) obj = .ok r := by
  induction objs generalizing lineNo records with
  | nil => exact ⟨[], by simp [forEach], nofun⟩
  | cons obj rest ih =>
      cases hrecord : recordOfObject path lineNo obj with
      | error e =>
          rw [List.map_cons, forEach_cons_of_some (by rw [loadLine, hrecord])]
          exact ⟨[], by simp, nofun⟩
      | ok record =>
          rw [List.map_cons, forEach_cons_of_none (by rw [loadLine, hrecord])]
          obtain ⟨loaded, hloaded, hrecords⟩ := ih (lineNo + 1) (records ++ [record])
          refine ⟨record :: loaded, by rw [hloaded]; simp, fun i r hr => ?_⟩
          cases i with
          | zero =>
              cases hr
              exact ⟨obj, rfl, hrecord⟩
          | succ i =>
              obtain ⟨other, hother, hok⟩ := hrecords i r hr
              refine ⟨other, hother, ?_⟩
              rw [← hok]
              congr 1
              omega

/-- The record at position `i` is that of the `i`-th block asked for. -/
theorem recordedPayloads_get {ethGetBlock : ℤ → Option (Dict Json)} {startBlock count : ℤ}
    {path : String} {i : ℕ} {r : PayloadRecord}
    (h : (recordedPayloads ethGetBlock startBlock count path)[i]? = some r) :
    ∃ block, ethGetBlock (startBlock + (i : ℤ)) = some block ∧
      recordOfObject path (1 + i) (recordedLine block) = .ok r := by
  obtain ⟨blocks, hlines, hblocks⟩ :=
    recordFromEl_lines ethGetBlock (blockNumbers startBlock count) 0 []
  obtain ⟨loaded, hloaded, hrecords⟩ := loadPayloads_records path
    (recordFromEl ethGetBlock startBlock count) 1 []
  have hget : loaded[i]? = some r := by
    rw [← List.nil_append loaded, ← hloaded]
    exact h
  obtain ⟨obj, hobj, hok⟩ := hrecords i r hget
  rw [recordFromEl, hlines, List.nil_append, List.getElem?_map] at hobj
  obtain ⟨block, hblock, rfl⟩ := Option.map_eq_some_iff.mp hobj
  obtain ⟨n, hn, hanswer⟩ := hblocks i block hblock
  rw [blockNumbers, List.getElem?_map] at hn
  obtain ⟨j, hj, rfl⟩ := Option.map_eq_some_iff.mp hn
  obtain ⟨hlt, rfl⟩ := List.getElem?_eq_some_iff.mp hj
  rw [List.getElem_range] at hanswer
  exact ⟨block, hanswer, hok⟩

/-- A payload that is sent in a replay is the submission of its block's record. -/
theorem record_of_sent {d : ReplayDriver} {ethGetBlock : ℤ → Option (Dict Json)}
    {startBlock count : ℤ} {path : String} {content : Option String} {turns : List Turn}
    {x : Exchange}
    (hx : x ∈ (d.run content
      ((recordedPayloads ethGetBlock startBlock count path).zip turns)).2.trace)
    (hsends : x.call.isNewPayload = true) :
    ∃ block r, ethGetBlock (startBlock + (x.turn : ℤ)) = some block ∧
      recordOfObject path (1 + x.turn) (recordedLine block) = .ok r ∧
        d.submission r = .ok x.call := by
  obtain ⟨r, hr, hcall⟩ := ReplayDriver.submission_of_mem_trace hx hsends
  rw [List.getElem?_map] at hr
  obtain ⟨step, hstep, rfl⟩ := Option.map_eq_some_iff.mp hr
  obtain ⟨block, hblock, hok⟩ := recordedPayloads_get (List.getElem?_zip_eq_some.mp hstep).1
  exact ⟨block, step.1, hblock, hok, hcall⟩

/-! Where every block is available under a readable number, the whole range is
recorded and loaded. -/

section Available

variable {ethGetBlock : ℤ → Option (Dict Json)} {startBlock count : ℤ} {blockAt : ℕ → Dict Json}

theorem recordFromEl_of_available
    (h : ∀ i < count.toNat, ethGetBlock (startBlock + i) = some (blockAt i)) :
    recordFromEl ethGetBlock startBlock count =
      (List.range count.toNat).map fun i => recordedLine (blockAt i) := by
  have hblock : ∀ (k : ℕ), ∀ i ∈ List.range count.toNat, ∀ written,
      recordBlock ethGetBlock k (startBlock + (i : ℤ)) written =
        (none, written ++ [recordedLine (blockAt i)]) := by
    intro k i hi written
    rw [recordBlock, h i (List.mem_range.mp hi)]
  have hloop := forEach_map_of_falls hblock 0 []
  rw [List.foldl_append_eq_append, List.nil_append, ← List.flatMap_def,
    ← List.map_eq_flatMap] at hloop
  exact congrArg Prod.snd hloop

theorem loadPayloads_of_available {number : ℕ → ℕ}
    (h : ∀ i < count.toNat, ethGetBlock (startBlock + i) = some (blockAt i))
    (hnumber : ∀ i < count.toNat, (blockAt i).get? "number" = some (.str (hex (number i))))
    (path : String) :
    loadPayloads path ((recordFromEl ethGetBlock startBlock count).map .json) =
      (none, (List.range count.toNat).map fun i => recordOf (blockAt i) (number i)) := by
  have hline : ∀ (k : ℕ), ∀ i ∈ List.range count.toNat, ∀ records,
      loadLine path k (.json (recordedLine (blockAt i))) records =
        (none, records ++ [recordOf (blockAt i) (number i)]) := by
    intro k i hi records
    have hread : blockNumberOf (blockToPayload (blockAt i)) = .ok (number i : ℤ) := by
      rw [blockNumberOf, Dict.get, get?_blockToPayload ("number", "blockNumber") (by decide),
        hnumber i (List.mem_range.mp hi)]
      exact Json.int16_hex _
    rw [loadLine, recordOfObject_recordedLine, hread]
    rfl
  rw [recordFromEl_of_available h, loadPayloads, List.map_map]
  have hloop := forEach_map_of_falls hline 1 []
  rw [List.foldl_append_eq_append, List.nil_append, ← List.flatMap_def,
    ← List.map_eq_flatMap] at hloop
  exact hloop

end Available

/-- **In every replay of a recorded file, a payload that is sent is that of its block,
and has the shape the Engine API asks of a block before Cancun if and only if the
block has every field of a payload and no transaction, and no other version is
forced.** -/
theorem sent_shaped_iff (d : ReplayDriver) (ethGetBlock : ℤ → Option (Dict Json))
    (startBlock count : ℤ) (path : String) (content : Option String) (turns : List Turn)
    {x : Exchange}
    (hx : x ∈ (d.run content
      ((recordedPayloads ethGetBlock startBlock count path).zip turns)).2.trace)
    (hsends : x.call.isNewPayload = true) :
    ∃ block, ethGetBlock (startBlock + (x.turn : ℤ)) = some block ∧
      (PreCancun block → (SendsShaped block x.call ↔ ReplaysDirectly d block)) := by
  obtain ⟨block, r, hblock, hrecord, hcall⟩ := record_of_sent hx hsends
  exact ⟨block, hblock, fun hpre => sendsShaped_iff d hpre hrecord hcall⟩

/-- A block of Paris with the given transactions. -/
def parisBlock (txs : List (Dict Json)) : Dict Json :=
  [("number", .str (hex 1)), ("hash", .str "0x02"), ("parentHash", .str "0x01"),
    ("miner", .str "0x00"), ("stateRoot", .str "0x00"), ("receiptsRoot", .str "0x00"),
    ("logsBloom", .str "0x00"), ("mixHash", .str "0x00"), ("gasLimit", .str "0x1c9c380"),
    ("gasUsed", .str "0x5208"), ("timestamp", .str "0x64"), ("extraData", .str "0x"),
    ("baseFeePerGas", .str "0x7"), ("transactions", .arr (txs.map Json.obj))]

/-- A transfer as a client answers it. -/
def transfer : Dict Json := [("hash", .str "0x03"), ("nonce", .str "0x0"), ("value", .str "0x1")]

/-- The calls of replaying one recorded block. -/
def replayOf (block : Dict Json) : List Exchange :=
  (ReplayDriver.plainReplay.run none
    ((recordedPayloads (fun _ => some block) 1 1 "payloads.jsonl").zip
      [ReplayDriver.agreeable])).2.trace

/-- Each of the two blocks is sent. -/
theorem exists_sent (txs : List (Dict Json)) :
    ∃ x ∈ replayOf (parisBlock txs), x.call.isNewPayload = true := by
  have hloaded : recordedPayloads (fun _ => some (parisBlock txs)) 1 1 "payloads.jsonl" =
      [recordOf (parisBlock txs) 1] :=
    congrArg Prod.snd (@loadPayloads_of_available (fun _ => some (parisBlock txs)) 1 1
      (fun _ => parisBlock txs) (fun _ => 1) (fun _ _ => rfl) (fun _ _ => rfl) _)
  rw [replayOf, hloaded]
  exact ⟨_, List.mem_cons_of_mem _ (List.mem_cons_self ..), rfl⟩

/-- The transactions of a recorded block are sent as objects. -/
theorem transfer_not_shaped :
    PreCancun (parisBlock [transfer]) ∧ ∃ x ∈ replayOf (parisBlock [transfer]),
      x.call.isNewPayload = true ∧ ¬ SendsShaped (parisBlock [transfer]) x.call := by
  have hpre : PreCancun (parisBlock [transfer]) := ⟨rfl, rfl, [transfer], rfl⟩
  obtain ⟨x, hx, hsends⟩ := exists_sent [transfer]
  refine ⟨hpre, x, hx, hsends, fun hshaped => ?_⟩
  obtain ⟨block, r, hblock, hrecord, hcall⟩ := record_of_sent hx hsends
  cases hblock
  cases ((sendsShaped_iff _ hpre hrecord hcall).mp hshaped).empty

/-- A block without transactions replays directly. -/
theorem emptyBlock_shaped :
    ∃ x ∈ replayOf (parisBlock []), x.call.isNewPayload = true ∧
      SendsShaped (parisBlock []) x.call := by
  obtain ⟨x, hx, hsends⟩ := exists_sent []
  obtain ⟨block, hblock, hshaped⟩ := sent_shaped_iff ReplayDriver.plainReplay
    (fun _ => some (parisBlock [])) 1 1 "payloads.jsonl" none [ReplayDriver.agreeable] hx hsends
  cases hblock
  have hpre : PreCancun (parisBlock []) := ⟨rfl, rfl, [], rfl⟩
  exact ⟨x, hx, hsends, (hshaped hpre).mpr ⟨by decide, rfl, nofun⟩⟩

end StateBenchmarks.MockCl
