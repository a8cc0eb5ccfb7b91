/-
# From a stream of payloads to the head of a client

A benchmark converts a recorded stream, loads the records and replays them.  What
reaches the client is the stream: one `engine_newPayloadV4` for each payload, in
order, with everything the payload had and the extras of the conversion.  A client
that starts at the parent of the first payload has the last one as its head when
the replay returns.
-/

import StateBenchmarks.MockCl.ReplayFollowed
import StateBenchmarks.RlpToMocks.RoundTrip

namespace StateBenchmarks.RlpToMocks

open Python Control Chain MockCl

/-- The extras of a conversion for `engine_newPayloadV4`, as the command line makes them. -/
structure Stamps.Prague (stamps : Stamps) : Prop where
  version : stamps.newpayloadVersion = .int 4
  root : stamps.parentBeaconBlockRoot ≠ .null
  hashes : ∃ values, stamps.versionedHashes = .arr values
  requests : ∃ values, stamps.executionRequests = .arr values

/-- The request for a payload with these extras. -/
def newPayloadV4 (stamps : Stamps) (p : ExecutionPayloadV3) : RpcRequest where
  method := [.text "engine_newPayloadV", .str (.int 4)]
  params := [.obj p.toDict, stamps.versionedHashes, stamps.parentBeaconBlockRoot,
    stamps.executionRequests]

/-- The payload requests of some engine calls. -/
def requestsSent (trace : List Exchange) : List (Except Exn RpcRequest) :=
  (newPayloadCalls trace).map fun sent => sent.2 >>= EngineCall.request

/-- The hash of a payload as the records have it. -/
def blockHashText (p : ExecutionPayloadV3) : Json := .str (dataText p.blockHash)

variable {stamps : Stamps} {d : ReplayDriver} {p : ExecutionPayloadV3}
  {payloads : List ExecutionPayloadV3} {steps : List (PayloadRecord × Turn)}

/-- An empty list is falsy and is replaced by an empty list. -/
theorem orEmptyList_arr (values : List Json) :
    (if (Json.arr values).truthy then Json.arr values else .arr []) = .arr values := by
  cases values <;> rfl

theorem request_loadedRecord (h : stamps.Prague) (hversion : d.newpayloadVersion = none)
    (p : ExecutionPayloadV3) :
    d.submission (loadedRecord stamps p) >>= EngineCall.request = .ok (newPayloadV4 stamps p) := by
  obtain ⟨hashes, hhashes⟩ := h.hashes
  obtain ⟨requests, hrequests⟩ := h.requests
  have hsubmission : d.submission (loadedRecord stamps p) =
      .ok (.newPayload p.toDict (.arr hashes) stamps.parentBeaconBlockRoot (.int 4)
        (.arr requests)) := by
    rw [ReplayDriver.submission, ReplayDriver.version, hversion]
    simp only [loadedRecord, h.version, hhashes, hrequests]
    rfl
  rw [hsubmission, newPayloadV4, hhashes, hrequests]
  simp only [bind, Except.bind, EngineCall.request, orEmptyList_arr]
  rfl

theorem submissions_loadedRecord (h : stamps.Prague) (hversion : d.newpayloadVersion = none)
    (payloads : List ExecutionPayloadV3) (n : ℕ) :
    ((d.submissions (payloads.map (loadedRecord stamps)) n).map
        fun sent => sent.2 >>= EngineCall.request) =
      (payloads.take n).map fun p => .ok (newPayloadV4 stamps p) := by
  rw [ReplayDriver.submissions, ← List.map_take]
  apply List.ext_getElem?
  intro i
  rw [List.getElem?_map, List.getElem?_mapIdx, List.getElem?_map, List.getElem?_map]
  cases (payloads.take n)[i]? with
  | none => rfl
  | some p => exact congrArg some (request_loadedRecord h hversion p)

/-- With neither a count nor a stop event, a replay that returns has been through the file. -/
theorem blocks_of_returned {content : Option String} {summary : Summary}
    (hcount : d.count = none) (hstop : ∀ step ∈ steps, step.2.stopSet = false)
    (hreturned : (d.run content steps).1 = .returned summary) : summary.blocks = steps.length := by
  rcases d.run_cases content steps with
    ⟨s, hs, hrun⟩ | ⟨k, r, t, s, exit, s', hs, item, hturn, hrun⟩
  · rw [hrun] at hreturned
    cases hreturned
    rw [ReplayDriver.summary, ReplayDriver.writeCsv_rows,
      (ReplayDriver.between_of_arrives hs).rows]
  · rw [hrun] at hreturned
    cases exit with
    | raised e | waiting => simp [ReplayDriver.ending] at hreturned
    | stop =>
        have hstep := d.turn_step k r t s
        rw [hturn] at hstep
        cases hstep with
        | stopped hcut =>
            rcases hcut with hreached | hset
            · rw [ReplayDriver.countReached, hcount] at hreached
              cases hreached
            · rw [hstop _ (List.mem_of_getElem? item)] at hset
              cases hset

variable {σ : Type}

/-- A replay of a stream.  The requests are those of a front part of its payloads; a
replay that returns has chained their blocks onto the client's head; and one that is not
told to stop early has sent them all. -/
structure Replayed (el : ExecutionLayer σ) (d : ReplayDriver) (s₀ : σ) (stamps : Stamps)
    (payloads : List ExecutionPayloadV3) (steps : List (PayloadRecord × Turn))
    (result : Outcome × Progress) : Prop where
  requests : ∃ n ≤ payloads.length,
    requestsSent result.2.trace = (payloads.take n).map fun p => .ok (newPayloadV4 stamps p)
  head : ∀ summary s, result.1 = .returned summary → el.Serves s₀ result.2.trace s →
    el.tree.Linked (el.head s₀) ((payloads.take summary.blocks).map blockHashText) ∧
      el.head s = BlockTree.tip (el.head s₀) ((payloads.take summary.blocks).map blockHashText) ∧
      (requestsSent result.2.trace).length = summary.blocks
  all : ∀ summary, result.1 = .returned summary → d.count = none →
    (∀ step ∈ steps, step.2.stopSet = false) → summary.blocks = payloads.length

theorem hashes_loadedRecord (payloads : List ExecutionPayloadV3) (n : ℕ) :
    hashes (payloads.map (loadedRecord stamps)) n =
      (payloads.take n).map blockHashText := by
  rw [hashes, ← List.map_take, List.map_map]
  rfl

/-- **What is recorded is what the client gets.** -/
theorem stream_replayed (el : ExecutionLayer σ) (d : ReplayDriver) (stamps : Stamps)
    (hprague : stamps.Prague) (hversion : d.newpayloadVersion = none)
    (hadvance : d.advanceHead = true) (path : String) (payloads : List ExecutionPayloadV3)
    (hframable : ∀ p ∈ payloads, p.Framable) (content : Option String)
    (steps : List (PayloadRecord × Turn))
    (hloads : Loads stamps path (stream payloads) (steps.map Prod.fst)) (s₀ : σ)
    (hbase : ∀ p ∈ payloads.head?, .str (dataText p.parentHash) = el.head s₀) :
    Replayed el d s₀ stamps payloads steps (d.run content steps) := by
  have hrecords := (loads_stream hprague.root path hframable _).mp hloads
  have hlength : steps.length = payloads.length := by
    rw [← List.length_map (f := Prod.fst), hrecords, List.length_map]
  have hfile : steps.map Prod.fst <+: (loadPayloads path
      ((payloads.map fun p => recordJson stamps p.toDict).map .json)).2 := by
    rw [loadPayloads_lines hprague.root, hrecords]
  have hstarts : el.StartsAtHead s₀ (steps.map Prod.fst) := by
    intro r hr
    rw [hrecords] at hr
    cases payloads with
    | nil => cases hr
    | cons p rest =>
        obtain rfl := Option.some_inj.mp hr
        exact hbase p rfl
  have hfollowed := ExecutionLayer.run_followed el d content steps path _ hfile hadvance s₀ hstarts
  obtain ⟨n, hsafe⟩ := d.exists_safe_run content steps
  have hsent : requestsSent (d.run content steps).2.trace =
      (payloads.take n).map fun p => .ok (newPayloadV4 stamps p) := by
    rw [requestsSent, hsafe.inOrder, hrecords, submissions_loadedRecord hprague hversion]
  have hle : n ≤ payloads.length := by
    have h := hsafe.le_length
    rwa [List.length_map, hlength] at h
  constructor
  · exact ⟨n, hle, hsent⟩
  · intro summary s hreturned hserves
    obtain ⟨hat, -, -⟩ := hfollowed.returned summary s hreturned hserves
    have hblocks := (d.run_protocolSafe content steps).blocks summary hreturned
    have hhead := hat.head
    have hlinked := hat.linked
    rw [hrecords, hashes_loadedRecord] at hhead hlinked
    refine ⟨hlinked, hhead, ?_⟩
    rw [requestsSent, List.length_map, hblocks]
  · intro summary hreturned hcount hstop
    rw [blocks_of_returned hcount hstop hreturned, hlength]

/-- Two payloads, to a client whose head is the first one's parent. -/
theorem stream_replayed_smallPayloads :
    Replayed ExecutionLayer.promptClient ReplayDriver.plainReplay ⟨.str "0x01", ["0x01"]⟩
      defaultStamps smallPayloads
      (smallPayloads.map fun p => (loadedRecord defaultStamps p, ReplayDriver.agreeable))
      (ReplayDriver.plainReplay.run none
        (smallPayloads.map fun p => (loadedRecord defaultStamps p, ReplayDriver.agreeable))) := by
  apply stream_replayed ExecutionLayer.promptClient ReplayDriver.plainReplay defaultStamps
    ⟨rfl, nofun, ⟨[], rfl⟩, ⟨[], rfl⟩⟩ rfl rfl "payloads.jsonl" smallPayloads
    framable_smallPayloads none
  · apply (loads_stream ?_ "payloads.jsonl" framable_smallPayloads _).mpr
    · rw [List.map_map]
      rfl
    · exact nofun
  · intro p hp
    obtain rfl := Option.some_inj.mp hp
    rfl

end StateBenchmarks.RlpToMocks
