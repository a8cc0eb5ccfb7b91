/-
# Payload records

`src/mock_cl/payloads.py`: the records a JSONL payload file holds.  The text of
a line is either blank, or not JSON, or one JSON value; everything after
`json.loads` is modelled as written.  `load_payloads` is a generator, so a
malformed line ends it only after the records of the lines before it.
-/

import StateBenchmarks.Control.Loop
import StateBenchmarks.Python.Json

namespace StateBenchmarks.MockCl

open Python Control

/-- `ZERO_BEACON_ROOT`: `"0x"` and thirty-two zero bytes. -/
def zeroBeaconRoot : String := String.ofList ('0' :: 'x' :: List.replicate 64 '0')

/-- One recorded block, ready to feed to `engine_newPayload`. -/
structure PayloadRecord where
  payload : Dict Json
  blockHash : Json
  blockNumber : ℤ
  versionedHashes : Json
  parentBeaconBlockRoot : Json
  fork : Json
  executionRequests : Json
  newpayloadVersion : Json

/-- `record.payload.get("parentHash")`. -/
def PayloadRecord.parentHash (r : PayloadRecord) : Json := r.payload.get "parentHash"

/-- A line of the file after `strip`. -/
inductive Line where
  | blank
  | invalid (reason : String)
  | json (v : Json)

/-- `_block_number`. -/
def blockNumberOf (payload : Dict Json) : Except Exn ℤ :=
  match payload.get "blockNumber" with
  | .null => .ok (-1)
  | .bool b => .ok (if b then 1 else 0)
  | .int n => .ok n
  | raw => raw.int16

/-- The record of one parsed line. -/
def recordOfObject (path : String) (lineNo : ℕ) (obj : Json) : Except Exn PayloadRecord := do
  match ← obj.get "payload" with
  | .obj payload =>
      let blockNumber ← blockNumberOf payload
      let beaconRoot ← obj.get "parent_beacon_block_root"
      return {
        payload := payload
        blockHash := Dict.get payload "blockHash"
        blockNumber := blockNumber
        versionedHashes := ← obj.get "versioned_hashes"
        parentBeaconBlockRoot :=
          match beaconRoot with
          | .null => .str zeroBeaconRoot
          | root => root
        fork := ← obj.get "fork"
        executionRequests := ← obj.get "execution_requests"
        newpayloadVersion := ← obj.get "newpayload_version" }
  | _ =>
      throw (.valueError [.text path, .text ":", .str (.int lineNo),
        .text ": missing or non-object 'payload'"])

/-- One iteration of `load_payloads`. -/
def loadLine (path : String) (lineNo : ℕ) (line : Line) (records : List PayloadRecord) :
    Option Exn × List PayloadRecord :=
  match line with
  | .blank => (none, records)
  | .invalid reason =>
      (some (.valueError [.text path, .text ":", .str (.int lineNo),
        .text ": invalid JSON: ", .text reason]), records)
  | .json obj =>
      match recordOfObject path lineNo obj with
      | .ok record => (none, records ++ [record])
      | .error e => (some e, records)

/-- `load_payloads`: the records yielded, and the exception that ended the
generator if one did. -/
def loadPayloads (path : String) (lines : List Line) : Option Exn × List PayloadRecord :=
  forEach (loadLine path) 1 lines []

/-- A record carries the hash of its payload. -/
theorem blockHash_of_recordOfObject {path : String} {lineNo : ℕ} {obj : Json} {r : PayloadRecord}
    (h : recordOfObject path lineNo obj = .ok r) :
    r.blockHash = Dict.get r.payload "blockHash" := by
  obtain ⟨payload, -, hrest⟩ := except_bind_eq_ok h
  cases payload with
  | obj payload =>
      obtain ⟨blockNumber, -, hrest⟩ := except_bind_eq_ok hrest
      obtain ⟨beaconRoot, -, hrest⟩ := except_bind_eq_ok hrest
      obtain ⟨hashes, -, hrest⟩ := except_bind_eq_ok hrest
      obtain ⟨fork, -, hrest⟩ := except_bind_eq_ok hrest
      obtain ⟨requests, -, hrest⟩ := except_bind_eq_ok hrest
      obtain ⟨version, -, hrest⟩ := except_bind_eq_ok hrest
      obtain rfl := Except.ok.inj hrest
      rfl
  | null | bool | int | float | str | arr => cases hrest

theorem blockHash_of_mem_forEach {path : String} {lines : List Line} (start : ℕ)
    {records : List PayloadRecord}
    (hrecords : ∀ r ∈ records, r.blockHash = Dict.get r.payload "blockHash") :
    ∀ r ∈ (forEach (loadLine path) start lines records).2,
      r.blockHash = Dict.get r.payload "blockHash" := by
  induction lines generalizing start records with
  | nil => exact hrecords
  | cons line rest ih =>
      cases line with
      | blank => exact ih (start + 1) hrecords
      | invalid reason => exact hrecords
      | json obj =>
          rcases hrecord : recordOfObject path start obj with e | record
          · rw [forEach_cons_of_some (by rw [loadLine, hrecord])]
            exact hrecords
          · rw [forEach_cons_of_none (by rw [loadLine, hrecord])]
            apply ih (start + 1)
            intro r hr
            rcases List.mem_append.mp hr with hr | hr
            · exact hrecords r hr
            · obtain rfl := List.mem_singleton.mp hr
              exact blockHash_of_recordOfObject hrecord

/-- So do all the records of a file. -/
theorem blockHash_of_mem_loadPayloads {path : String} {lines : List Line} :
    ∀ r ∈ (loadPayloads path lines).2, r.blockHash = Dict.get r.payload "blockHash" :=
  blockHash_of_mem_forEach 1 nofun

end StateBenchmarks.MockCl
