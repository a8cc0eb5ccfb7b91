/-
# The text of a payload file

Both writers of payload files, the converter of RLP streams and the recorder of a
live client, write `json.dumps(record) + "\n"` for each record, and `load_payloads`
strips the lines and parses them one by one.  Whatever the input of the writers,
what they managed to write is read back as it was, one record a line.

`floatText` and `floatOf` are `float.__repr__` and `float`, of which only a recorded
block can have a use.
-/

import StateBenchmarks.MockCl.Recorder
import StateBenchmarks.Python.JsonLines
import StateBenchmarks.RlpToMocks.RoundTrip
import StateBenchmarks.RlpToMocks.Shape

namespace StateBenchmarks.MockCl

open Python JsonText Control

/-- A line as `load_payloads` finds it; `reason` is the text of a `JSONDecodeError`. -/
def lineOf (floatOf : List Char → ℚ) (reason : String → String) (text : String) : Line :=
  let line := strip text
  if line = "" then .blank
  else
    match loads floatOf line with
    | some v => .json v
    | none => .invalid (reason line)

/-- `load_payloads`, from the text of the file. -/
def loadPayloadsText (floatOf : List Char → ℚ) (reason : String → String) (path text : String) :
    Option Exn × List PayloadRecord :=
  loadPayloads path ((textLines text).map (lineOf floatOf reason))

variable {floatOf : List Char → ℚ} {floatText : ℚ → List Char} {ok : ℚ → Prop}

theorem lineOf_dump (hok : ∀ q, ok q → Solid (floatText q) ∧ ReadsBack floatOf floatText q)
    (reason : String → String) {r : Json} (h : Proper ok r) :
    lineOf floatOf reason (String.ofList (dump .standard floatText 0 r ++ ['\n'])) = .json r := by
  have hsolid := solid_dump flat_standard (fun q hq => (hok q hq).1) h 0
  have hread : loads floatOf (String.ofList (dump .standard floatText 0 r)) = some r :=
    loads_dumps blank_standard (h.mono fun q hq => (hok q hq).2)
  have hne : String.ofList (dump .standard floatText 0 r) ≠ "" := by
    obtain ⟨c, rest, heq, -⟩ := hsolid.first
    rw [heq]
    exact fun hnil => List.cons_ne_nil c rest (String.ofList_injective hnil)
  rw [lineOf, hsolid.strip_line, if_neg hne, hread]

/-- Written records are loaded like the values they were. -/
theorem loadPayloadsText_jsonLines
    (hok : ∀ q, ok q → Solid (floatText q) ∧ ReadsBack floatOf floatText q)
    (reason : String → String) (path : String) {records : List Json}
    (h : ∀ r ∈ records, Proper ok r) :
    loadPayloadsText floatOf reason path (jsonLines floatText records) =
      loadPayloads path (records.map .json) := by
  have hlines : (textLines (jsonLines floatText records)).map (lineOf floatOf reason) =
      records.map .json := by
    rw [textLines_jsonLines (fun q hq => (hok q hq).1) h, List.map_map]
    apply List.map_congr_left
    intro r hr
    rw [Function.comp_apply]
    exact lineOf_dump hok reason (h r hr)
  rw [loadPayloadsText, hlines]

theorem proper_of_get? {d : Dict Json} (hd : Proper ok (.obj d)) {key : String} {v : Json}
    (h : d.get? key = some v) : Proper ok v :=
  properFields_iff.mp hd.2 (key, v) ((Dict.get?_eq_some_iff hd.1).mp h)

variable {block payload : Dict Json}

theorem proper_copyField (hblock : Proper ok (.obj block)) (hpayload : Proper ok (.obj payload))
    (names : String × String) : Proper ok (.obj (copyField block payload names)) := by
  rw [copyField]
  split
  · rename_i v hv
    exact proper_set hpayload _ (proper_of_get? hblock hv)
  · exact hpayload

theorem proper_copyPresent (hblock : Proper ok (.obj block))
    (hpayload : Proper ok (.obj payload)) (field : String) :
    Proper ok (.obj (copyPresent block payload field)) := by
  unfold copyPresent
  cases hfield : block.get? field with
  | none => simpa [Dict.get, hfield] using hpayload
  | some v =>
      have hset := proper_set hpayload field (proper_of_get? hblock hfield)
      cases v with
      | null => simpa [Dict.get, hfield] using hpayload
      | _ => simpa [Dict.get, hfield] using hset

/-- A fold of copies keeps what each of them keeps. -/
theorem proper_foldl {α : Type} {copy : Dict Json → α → Dict Json}
    (hcopy : ∀ {d}, Proper ok (.obj d) → ∀ x, Proper ok (.obj (copy d x))) (xs : List α)
    {d : Dict Json} (hd : Proper ok (.obj d)) : Proper ok (.obj (xs.foldl copy d)) := by
  induction xs generalizing d with
  | nil => exact hd
  | cons x xs ih => exact ih (hcopy hd x)

/-- The record of a block is as proper as the block. -/
theorem proper_recordedLine (hblock : Proper ok (.obj block)) : Proper ok (recordedLine block) := by
  have hpayload : Proper ok (.obj (blockToPayload block)) := by
    apply proper_foldl fun hd => proper_copyPresent hblock hd
    apply proper_foldl fun hd => proper_copyField hblock hd
    apply proper_foldl fun hd field => proper_copyField hblock hd (field, field)
    exact ⟨List.nodup_nil, trivial⟩
  have hnodup : ["payload", "fork"].Nodup := by decide
  exact ⟨hnodup, hpayload, trivial, trivial⟩

/-- So are all the lines of a recording. -/
theorem proper_recordFromEl {ethGetBlock : ℤ → Option (Dict Json)}
    (hblocks : ∀ n block, ethGetBlock n = some block → Proper ok (.obj block))
    (startBlock count : ℤ) :
    ∀ line ∈ recordFromEl ethGetBlock startBlock count, Proper ok line := by
  obtain ⟨blocks, hlines, hfound⟩ :=
    recordFromEl_lines ethGetBlock (blockNumbers startBlock count) 0 []
  intro line hline
  rw [recordFromEl, hlines, List.nil_append] at hline
  obtain ⟨block, hblock, rfl⟩ := List.mem_map.mp hline
  obtain ⟨i, hi⟩ := List.getElem?_of_mem hblock
  obtain ⟨n, -, hn⟩ := hfound i block hi
  exact proper_recordedLine (hblocks n block hn)

end StateBenchmarks.MockCl

namespace StateBenchmarks.RlpToMocks

open Python JsonText Control MockCl

variable {ok : ℚ → Prop}

/-- The extras are values of a program, as those of the command line are. -/
structure Stamps.Proper (ok : ℚ → Prop) (stamps : Stamps) : Prop where
  newpayloadVersion : JsonText.Proper ok stamps.newpayloadVersion
  parentBeaconBlockRoot : JsonText.Proper ok stamps.parentBeaconBlockRoot
  versionedHashes : JsonText.Proper ok stamps.versionedHashes
  executionRequests : JsonText.Proper ok stamps.executionRequests
  fork : JsonText.Proper ok stamps.fork

theorem proper_withdrawal {w : Element} {v : Json} (h : withdrawalToObj w = .ok v) :
    JsonText.Proper ok v := by
  obtain ⟨unpacked, -, h⟩ := except_bind_eq_ok h
  obtain ⟨index, -, h⟩ := except_bind_eq_ok h
  obtain ⟨validatorIndex, -, h⟩ := except_bind_eq_ok h
  obtain ⟨address, -, h⟩ := except_bind_eq_ok h
  obtain ⟨amount, -, h⟩ := except_bind_eq_ok h
  obtain rfl := Except.ok.inj h
  have hnodup : ["index", "validatorIndex", "address", "amount"].Nodup := by decide
  exact ⟨hnodup, trivial, trivial, trivial, trivial, trivial⟩

/-- A payload has each of its names once and no floats. -/
theorem proper_payloadFromRlp {v : Rlp.Item} {payload : Dict Json}
    (h : payloadFromRlp v = .ok payload) : JsonText.Proper ok (.obj payload) := by
  cases v with
  | bytes b => cases h
  | list items =>
      obtain ⟨-, scalars, transactions, texts, withdrawals, objs, hscalars, -, -, -, hobjs, rfl⟩ :=
        payloadFromRlp_eq_ok_iff.mp h
      refine ⟨?_, properFields_iff.mpr ?_⟩
      · rw [assembled, List.map_append, map_fst_of_scalarOf hscalars]
        exact nodup_keys_fields
      · intro field hfield
        rcases List.mem_append.mp hfield with hfield | hfield
        · obtain ⟨entry, -, hscalar⟩ := exists_mem_of_forall₂ hscalars.flip hfield
          obtain ⟨-, v, text, -, -, hvalue⟩ := hscalar
          rw [hvalue]
          trivial
        · rcases List.mem_cons.mp hfield with rfl | hfield
          · refine properItems_iff.mpr fun x hx => ?_
            obtain ⟨text, -, rfl⟩ := List.mem_map.mp hx
            trivial
          · obtain rfl := List.mem_singleton.mp hfield
            refine properItems_iff.mpr fun x hx => ?_
            obtain ⟨w, -, hw⟩ := mem_of_mapM hobjs hx
            exact proper_withdrawal hw

theorem proper_recordJson {stamps : Stamps} (hstamps : stamps.Proper ok) {v : Rlp.Item}
    {payload : Dict Json} (h : payloadFromRlp v = .ok payload) :
    JsonText.Proper ok (recordJson stamps payload) := by
  have hnodup : ["payload", "versioned_hashes", "parent_beacon_block_root", "execution_requests",
      "newpayload_version", "fork"].Nodup := by decide
  exact ⟨hnodup, proper_payloadFromRlp h, hstamps.versionedHashes, hstamps.parentBeaconBlockRoot,
    hstamps.executionRequests, hstamps.newpayloadVersion, hstamps.fork, trivial⟩

/-- The step lemma: one body adds at most one line, and that is a proper one. -/
theorem proper_convertStep {stamps : Stamps} (hstamps : stamps.Proper ok)
    (startBlock count : Option ℤ) (i : ℕ) (body : Bytes) {c : Conversion}
    (hc : ∀ line ∈ c.lines, JsonText.Proper ok line) :
    ∀ line ∈ (convertStep stamps startBlock count i body c).2.lines, JsonText.Proper ok line := by
  unfold convertStep
  dsimp only
  split
  · exact hc
  · exact hc
  · cases hbody : convertBody body with
    | error e => exact hc
    | ok payload =>
        obtain ⟨decoded, -, hpayload⟩ := except_bind_eq_ok hbody
        have hwritten : ∀ line ∈ c.lines ++ [recordJson stamps payload],
            JsonText.Proper ok line := by
          intro line hline
          rcases List.mem_append.mp hline with hline | hline
          · exact hc line hline
          · obtain rfl := List.mem_singleton.mp hline
            exact proper_recordJson hstamps hpayload
        dsimp only
        cases (Dict.get payload "blockNumber").int16 with
        | error e => exact hwritten
        | ok blockNumber =>
            cases count with
            | none => exact hwritten
            | some n =>
                dsimp only
                split <;> exact hwritten

/-- The run lemma: all the lines of a conversion are proper, also when it fails. -/
theorem proper_convert {stamps : Stamps} (hstamps : stamps.Proper ok)
    (startBlock count : Option ℤ) (data : Bytes) :
    ∀ line ∈ (convert stamps startBlock count data).2.lines, JsonText.Proper ok line := by
  have hloop : ∀ (bodies : List Bytes) (i : ℕ) {c : Conversion},
      (∀ line ∈ c.lines, JsonText.Proper ok line) →
      ∀ line ∈ (forEach (convertStep stamps startBlock count) i bodies c).2.lines,
        JsonText.Proper ok line := by
    intro bodies
    induction bodies with
    | nil => exact fun _ _ hc => hc
    | cons body rest ih =>
        intro i c hc
        have hstep := proper_convertStep hstamps startBlock count i body hc
        rcases hrun : convertStep stamps startBlock count i body c with ⟨_ | exit, c'⟩
        · rw [hrun] at hstep
          rw [forEach_cons_of_none hrun]
          exact ih (i + 1) hstep
        · rw [hrun] at hstep
          rw [forEach_cons_of_some hrun]
          exact hstep
  have hlines := hloop (iterRecordBodies data).2 0 (c := .start) nofun
  unfold convert
  split <;> rename_i hrun <;> rw [hrun] at hlines <;> exact hlines

/-- **A payload file is read back as it was written**, record by record: a converted one
whatever the input was, a recorded one whatever the blocks were, and one converted from
payloads as those payloads. -/
theorem payloadFile_readBack (floatOf : List Char → ℚ) (floatText : ℚ → List Char)
    (ok : ℚ → Prop) (hok : ∀ q, ok q → Solid (floatText q) ∧ ReadsBack floatOf floatText q)
    (reason : String → String) (path : String) :
    (∀ (stamps : Stamps) (startBlock count : Option ℤ) (data : Bytes), stamps.Proper ok →
      loadPayloadsText floatOf reason path
          (jsonLines floatText (convert stamps startBlock count data).2.lines) =
        loadPayloads path ((convert stamps startBlock count data).2.lines.map .json)) ∧
    (∀ (ethGetBlock : ℤ → Option (Dict Json)) (startBlock count : ℤ),
      (∀ n block, ethGetBlock n = some block → JsonText.Proper ok (.obj block)) →
      (loadPayloadsText floatOf reason path
          (jsonLines floatText (recordFromEl ethGetBlock startBlock count))).2 =
        recordedPayloads ethGetBlock startBlock count path) ∧
    ∀ (stamps : Stamps) (payloads : List ExecutionPayloadV3), stamps.Proper ok →
      stamps.parentBeaconBlockRoot ≠ .null → (∀ p ∈ payloads, p.Framable) →
      ∃ c, convert stamps none none (stream payloads) = (none, c) ∧
        loadPayloadsText floatOf reason path (jsonLines floatText c.lines) =
          (none, payloads.map (loadedRecord stamps)) := by
  refine ⟨?_, ?_, ?_⟩
  · intro stamps startBlock count data hstamps
    exact loadPayloadsText_jsonLines hok reason path (proper_convert hstamps startBlock count data)
  · intro ethGetBlock startBlock count hblocks
    rw [loadPayloadsText_jsonLines hok reason path (proper_recordFromEl hblocks startBlock count)]
    rfl
  · intro stamps payloads hstamps hroot hframable
    obtain ⟨c, hconvert, hlines⟩ := convert_stream hframable stamps
    refine ⟨c, hconvert, ?_⟩
    have hproper := proper_convert hstamps none none (stream payloads)
    rw [hconvert] at hproper
    rw [loadPayloadsText_jsonLines hok reason path hproper, hlines, loadPayloads_lines hroot]

/-- Two small payloads, with the extras of the command line. -/
theorem payloadFile_readBack_smallPayloads :
    ∃ c, convert defaultStamps none none (stream smallPayloads) = (none, c) ∧
      loadPayloadsText (fun _ => 0) id "payloads.jsonl" (jsonLines (fun _ => []) c.lines) =
        (none, [loadedRecord defaultStamps smallPayload,
          loadedRecord defaultStamps nextPayload]) := by
  have hfile := payloadFile_readBack (fun _ => 0) (fun _ => []) (fun _ => False)
    (fun _ h => h.elim) id "payloads.jsonl"
  exact hfile.2.2 defaultStamps smallPayloads ⟨trivial, trivial, trivial, trivial, trivial⟩ nofun
    framable_smallPayloads

end StateBenchmarks.RlpToMocks
