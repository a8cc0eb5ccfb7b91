/-
# The sizes of proofs

Every user of the load test that gets a proof adds a row to one CSV file, which the
aggregator reads when the test is over.  The users share the writer; a test may end while
some of them still wait for their answers, and another may begin in the same process.
What they do to the file they do under a lock, so a run is the order in which they get it.

The file is flushed after every hundred rows.  When the process is killed, what it wrote
since may be lost from any character on.
-/

import StateBenchmarks.Metrics.Aggregator
import StateBenchmarks.Python.Csv

namespace StateBenchmarks.LoadTests.ProofSizes

open Python Metrics

/-- The answer to a request.  `json` is `none` where the body does not parse. -/
structure Response where
  statusCode : ℤ
  json : Option Json
  /-- `len(response.content)`. -/
  size : ℕ

/-- `rpc_call`: the response, unless it counts as a failure. -/
def rpcCall (r : Response) : Except Exn (Option Response) := do
  if r.statusCode ≠ 200 then return none
  match r.json with
  | none => return none
  | some body => if ← body.contains "error" then return none else return some r

/-- A call of `eth_get_proof` that has been answered. -/
structure ProofCall where
  timestampMs : ℕ
  address : String
  block : String
  response : Response

/-- The call was counted as a success. -/
def ProofCall.succeeded (call : ProofCall) : Bool :=
  match rpcCall call.response with
  | .ok (some _) => true
  | _ => false

/-- `_PROOF_FLUSH_EVERY`. -/
def proofFlushEvery : ℕ := 100

/-- The globals, and the rows the file object was given since the file was opened. -/
structure Recorder where
  writer : Bool
  rowsSinceFlush : ℕ
  written : List Csv.Row
  /-- Of these, the ones that are on the disk for certain. -/
  flushed : List Csv.Row

def header : Csv.Row := ["timestamp_ms", "address", "block", "response_bytes"]

def ProofCall.row (call : ProofCall) : Csv.Row :=
  [toString call.timestampMs, call.address, call.block, toString call.response.size]

/-- What happens under the lock. -/
inductive Event where
  | testStart
  | testStop
  | proof (call : ProofCall)

namespace Recorder

/-- Before the first test. -/
def initial : Recorder := ⟨false, 0, [], []⟩

/-- The end of `eth_get_proof`. -/
def record (r : Recorder) (call : ProofCall) : Recorder :=
  if r.writer = false then r
  else
    let written := r.written ++ [call.row]
    if proofFlushEvery ≤ r.rowsSinceFlush + 1 then ⟨true, 0, written, written⟩
    else ⟨true, r.rowsSinceFlush + 1, written, r.flushed⟩

/-- One event.  Locust stops a test before it starts the next. -/
def step (r : Recorder) : Event → Option Recorder
  | .testStart =>
      if r.writer then none else some ⟨true, r.rowsSinceFlush, [header], []⟩
  | .testStop =>
      if r.writer then some ⟨false, r.rowsSinceFlush, r.written, r.written⟩ else some r
  | .proof call => if call.succeeded then some (r.record call) else some r

/-- The text the file may hold when the process ends here. -/
def OnDisk (r : Recorder) (text : List Char) : Prop :=
  Csv.writerows r.flushed <+: text ∧ text <+: Csv.writerows r.written

end Recorder

/-- The events of a process, one after the other. -/
def run (events : List Event) : Option Recorder :=
  events.foldlM Recorder.step .initial

/-- The last test: whether it still runs, and the successful calls since it began. -/
structure Session where
  running : Bool
  calls : List ProofCall

def Session.next (session : Session) : Event → Session
  | .testStart => ⟨true, []⟩
  | .testStop => { session with running := false }
  | .proof call =>
      if session.running && call.succeeded then { session with calls := session.calls ++ [call] }
      else session

/-- The session after these events. -/
def session (events : List Event) : Session := events.foldl Session.next ⟨false, []⟩

def Session.sizes (session : Session) : List ℤ :=
  session.calls.map fun call => (call.response.size : ℤ)

/-- The statistics of `parse_proof_sizes`. -/
def proofStats (sizes : List ℤ) : Dict Json :=
  if sizes = [] then []
  else
    let sorted := sizes.mergeSort (· ≤ ·)
    [("p50_bytes", .float (rankPercentile sorted (1 / 2))),
      ("p95_bytes", .float (rankPercentile sorted (95 / 100))),
      ("p99_bytes", .float (rankPercentile sorted (99 / 100))),
      ("mean_bytes", .float (sorted.sum / sorted.length)),
      ("sample_count", .int sorted.length)]

/-- `parse_proof_sizes` on the text of a file. -/
def readProofSizes (numbers : NumberText) (text : List Char) : Except Exn (Dict Json) :=
  match Csv.rows (Csv.universalNewlines text) with
  | none => .error (.external "_csv.Error")
  | some rows => parseProofSizes numbers (some (Csv.dictRows rows))

theorem parseProofSizes_eq (numbers : NumberText) (rows : List CsvRow) :
    parseProofSizes numbers (some rows) =
      (rows.foldlM (parseSize numbers) []).map proofStats := by
  rw [parseProofSizes, Option.getD_some]
  cases rows.foldlM (parseSize numbers) [] with
  | error e => rfl
  | ok sizes =>
      simp only [bind, Except.bind, Except.map, proofStats]
      split_ifs <;> rfl

/-- The statistics do not depend on the order of the samples. -/
theorem proofStats_perm {sizes sizes' : List ℤ} (h : sizes.Perm sizes') :
    proofStats sizes = proofStats sizes' := by
  have sorted (xs : List ℤ) : (xs.mergeSort (· ≤ ·)).Pairwise (· ≤ ·) := by
    have hpairwise := @List.pairwise_mergeSort ℤ (fun a b => decide (a ≤ b))
      (fun a b c hab hbc => by simpa using (of_decide_eq_true hab).trans (of_decide_eq_true hbc))
      (fun a b => by simpa using le_total a b) xs
    simpa only [decide_eq_true_eq] using hpairwise
  have hsorted : sizes.mergeSort (· ≤ ·) = sizes'.mergeSort (· ≤ ·) :=
    List.Perm.eq_of_pairwise (fun _ _ _ _ => le_antisymm) (sorted sizes) (sorted sizes')
      ((List.mergeSort_perm sizes _).trans (h.trans (List.mergeSort_perm sizes' _).symm))
  have hnil : sizes = [] ↔ sizes' = [] := by
    constructor
    · rintro rfl
      exact List.nil_perm.mp h
    · rintro rfl
      exact List.perm_nil.mp h
  simp only [proofStats, hsorted, hnil]

/-- What the recorder's state says about the session. -/
structure Keeps (r : Recorder) (session : Session) : Prop where
  running : r.writer = session.running
  rows : r.written = header :: session.calls.map ProofCall.row ∨
    r.writer = false ∧ r.written = [] ∧ session.calls = []
  kept : r.flushed <+: r.written
  recent : session.calls.length ≤ r.flushed.length - 1 + r.rowsSinceFlush
  bounded : r.rowsSinceFlush < proofFlushEvery
  closed : r.writer = false → r.flushed = r.written

theorem keeps_initial : Keeps .initial ⟨false, []⟩ where
  running := rfl
  rows := .inr ⟨rfl, rfl, rfl⟩
  kept := List.prefix_refl []
  recent := Nat.zero_le _
  bounded := by decide
  closed _ := rfl

/-- A row recorded while the test runs. -/
theorem Keeps.record {r : Recorder} {session : Session} (h : Keeps r session) (call : ProofCall)
    (hrunning : session.running = true) :
    Keeps (r.record call) ⟨true, session.calls ++ [call]⟩ := by
  have hwriter : r.writer = true := h.running.trans hrunning
  have hwritten : r.written = header :: session.calls.map ProofCall.row := by
    cases h.rows with
    | inl hrows => exact hrows
    | inr hempty => simp [hwriter] at hempty
  have hrows : r.written ++ [call.row] =
      header :: (session.calls ++ [call]).map ProofCall.row := by
    simp [hwritten]
  rw [Recorder.record, if_neg (by simp [hwriter])]
  split_ifs with hflush
  · constructor
    · rfl
    · exact .inl hrows
    · exact List.prefix_refl _
    · simp [hwritten]
    · show 0 < proofFlushEvery
      decide
    · exact fun hclosed => Bool.noConfusion hclosed
  · constructor
    · rfl
    · exact .inl hrows
    · exact h.kept.trans (List.prefix_append _ _)
    · have hrecent := h.recent
      dsimp only
      rw [List.length_append, List.length_singleton]
      omega
    · exact Nat.lt_of_not_le hflush
    · exact fun hclosed => Bool.noConfusion hclosed

theorem Keeps.step {r r' : Recorder} {session : Session} (h : Keeps r session) {event : Event}
    (hstep : r.step event = some r') : Keeps r' (session.next event) := by
  cases event with
  | testStart =>
      rw [Recorder.step] at hstep
      split_ifs at hstep with hwriter
      cases hstep
      exact ⟨rfl, .inl rfl, List.nil_prefix, Nat.zero_le _, h.bounded,
        fun hclosed => Bool.noConfusion hclosed⟩
  | testStop =>
      rw [Recorder.step] at hstep
      split_ifs at hstep with hwriter
      · cases hstep
        have hrecent : session.calls.length ≤ r.written.length - 1 + r.rowsSinceFlush := by
          have hlength := h.kept.length_le
          have hflushed := h.recent
          omega
        refine ⟨rfl, ?_, List.prefix_refl _, hrecent, h.bounded, fun _ => rfl⟩
        cases h.rows with
        | inl hrows => exact .inl hrows
        | inr hempty => simp [hwriter] at hempty
      · cases hstep
        have hstopped : session.running = false := by simpa [h.running] using hwriter
        rw [Session.next, ← hstopped]
        exact h
  | proof call =>
      rw [Recorder.step] at hstep
      rw [Session.next]
      cases hsucceeded : call.succeeded with
      | false =>
          rw [hsucceeded, if_neg (by decide)] at hstep
          cases hstep
          rw [Bool.and_false, if_neg (by decide)]
          exact h
      | true =>
          rw [hsucceeded, if_pos rfl] at hstep
          cases hstep
          rw [Bool.and_true]
          cases hrunning : session.running with
          | true =>
              rw [if_pos rfl, ← hrunning]
              exact hrunning ▸ h.record call hrunning
          | false =>
              rw [if_neg (by decide), Recorder.record, if_pos (h.running.trans hrunning)]
              exact h

theorem keeps_foldlM {events : List Event} {r r' : Recorder} {s : Session} (h : Keeps r s)
    (hrun : events.foldlM Recorder.step r = some r') :
    Keeps r' (events.foldl Session.next s) := by
  induction events generalizing r s with
  | nil =>
      cases hrun
      exact h
  | cons event events ih =>
      rw [List.foldlM_cons, Option.bind_eq_bind, Option.bind_eq_some_iff] at hrun
      obtain ⟨next, hstep, hrest⟩ := hrun
      exact ih (h.step hstep) hrest

/-- Every run keeps the recorder and the session together. -/
theorem keeps_run {events : List Event} {r : Recorder} (h : run events = some r) :
    Keeps r (session events) :=
  keeps_foldlM keeps_initial h

/-! ## Reading the rows of a session -/

section Reading

variable (numbers : NumberText)

theorem translated_toString (n : ℕ) : Csv.translated (toString n) = toString n := by
  have hdigits : ∀ c ∈ (toString n).toList, c ≠ '\n' ∧ c ≠ '\r' := by
    intro c hc
    rw [Nat.toString_eq_repr, Nat.toList_repr] at hc
    have hdigit := Nat.isDigit_of_mem_toDigits (by decide) (by decide) hc
    refine ⟨?_, ?_⟩
    · rintro rfl
      cases hdigit
    · rintro rfl
      cases hdigit
  rw [Csv.translated, Csv.universalNewlines, Csv.newlinesFrom_eq_self hdigits,
    String.ofList_toList]

/-- The dictionary of a recorded row. -/
def rowDict (call : ProofCall) : CsvRow :=
  Csv.dictRow (header.map Csv.translated) (call.row.map Csv.translated)

theorem parseSize_rowDict (hnumbers : ∀ n : ℕ, numbers.int (toString n) = some (n : ℤ))
    (sizes : List ℤ) (call : ProofCall) :
    parseSize numbers sizes (rowDict call) = .ok (sizes ++ [(call.response.size : ℤ)]) := by
  have hheader : header.map Csv.translated = header := by decide
  have hcell : Dict.get? (rowDict call) "response_bytes" =
      some (some (toString call.response.size)) := by
    rw [rowDict, hheader, ProofCall.row, List.map_cons, List.map_cons, List.map_cons,
      List.map_cons, List.map_nil, translated_toString, translated_toString]
    rfl
  rw [parseSize, numberCell, cell, hcell]
  simp only [bind, Except.bind, hnumbers]
  rfl

theorem foldlM_rowDict (hnumbers : ∀ n : ℕ, numbers.int (toString n) = some (n : ℤ))
    (sizes : List ℤ) (calls : List ProofCall) :
    (calls.map rowDict).foldlM (parseSize numbers) sizes =
      .ok (sizes ++ calls.map fun call => (call.response.size : ℤ)) := by
  induction calls generalizing sizes with
  | nil => simp [pure, Except.pure]
  | cons call calls ih =>
      rw [List.map_cons, List.foldlM_cons, parseSize_rowDict numbers hnumbers]
      simp only [bind, Except.bind, ih, List.map_cons, List.append_assoc, List.singleton_append]

/-- Any row adds at most one size, or ends before its size. -/
theorem parseSize_cases (sizes : List ℤ) (row : CsvRow) :
    (∃ more, more.length ≤ 1 ∧ parseSize numbers sizes row = .ok (sizes ++ more)) ∨
      Dict.get? row "response_bytes" = some none ∧
        parseSize numbers sizes row = .error .typeError := by
  by_cases hshort : Dict.get? row "response_bytes" = some none
  · right
    rw [parseSize, numberCell, cell, hshort]
    exact ⟨rfl, rfl⟩
  · left
    rw [parseSize]
    cases numberCell_cases numbers.int hshort with
    | inl hsize =>
        obtain ⟨size, hsize⟩ := hsize
        rw [hsize]
        exact ⟨[size], Nat.le_refl 1, rfl⟩
    | inr herror =>
        obtain ⟨e, he, hcaught⟩ := herror
        rw [he]
        dsimp only
        rw [if_pos hcaught]
        exact ⟨[], Nat.zero_le 1, by rw [List.append_nil]⟩

/-- A row whose size is missing is shorter than the header. -/
theorem length_lt_of_missing {row : Csv.Row}
    (h : Dict.get? (Csv.dictRow (header.map Csv.translated) row) "response_bytes" = some none) :
    row.length < header.length := by
  have hheader : header.map Csv.translated = header := by decide
  rw [hheader] at h
  by_contra hlong
  rw [not_lt] at hlong
  rcases row with _ | ⟨time, _ | ⟨address, _ | ⟨block, _ | ⟨size, rest⟩⟩⟩⟩
  · simp [header] at hlong
  · simp [header] at hlong
  · simp [header] at hlong
  · simp [header] at hlong
  · rw [Csv.dictRow, List.drop_eq_nil_of_le hlong] at h
    cases Option.some_inj.mp h

/-- The file is read to a broken row, which has no size: there is something in it, but it
ends before its last column. -/
def EndsBroken (rows front : List Csv.Row) : Prop :=
  ∃ row, rows = front ++ [row] ∧ row ≠ [] ∧ row.length < header.length

/-- The rows of a session that were found whole, and what is left of the next. -/
theorem parseProofSizes_dictRows (hnumbers : ∀ n : ℕ, numbers.int (toString n) = some (n : ℤ))
    (calls : List ProofCall) {broken : List Csv.Row} (hbroken : broken.length ≤ 1) :
    let sizes := calls.map fun call => (call.response.size : ℤ)
    let front := (header :: calls.map ProofCall.row).map (List.map Csv.translated)
    let rows := front ++ broken
    (∃ more, more.length ≤ broken.length ∧
        parseProofSizes numbers (some (Csv.dictRows rows)) = .ok (proofStats (sizes ++ more))) ∨
      EndsBroken rows front ∧
        parseProofSizes numbers (some (Csv.dictRows rows)) = .error .typeError := by
  intro sizes front rows
  have hrows : Csv.dictRows rows = calls.map rowDict ++
      (broken.filter fun row => row != []).map (Csv.dictRow (header.map Csv.translated)) := by
    have hfull : ((calls.map ProofCall.row).map (List.map Csv.translated)).filter
        (fun row => row != []) = (calls.map ProofCall.row).map (List.map Csv.translated) := by
      simp [ProofCall.row]
    rw [show rows = header.map Csv.translated ::
        ((calls.map ProofCall.row).map (List.map Csv.translated) ++ broken) from rfl,
      Csv.dictRows, List.filter_append, hfull, List.map_append, List.map_map, List.map_map]
    rfl
  rw [hrows, parseProofSizes_eq, List.foldlM_append, foldlM_rowDict numbers hnumbers]
  cases hfilter : broken.filter fun row => row != [] with
  | nil => exact .inl ⟨[], Nat.zero_le _, by simp [bind, Except.bind, pure, Except.pure,
      Except.map, sizes]⟩
  | cons row others =>
      have hlength : (row :: others).length ≤ broken.length := hfilter ▸ List.length_filter_le _ _
      have hothers : others = [] := by
        rw [List.length_cons] at hlength
        exact List.eq_nil_of_length_eq_zero (by omega)
      subst hothers
      cases parseSize_cases numbers sizes (Csv.dictRow (header.map Csv.translated) row) with
      | inl hmore =>
          obtain ⟨more, hmore, hparse⟩ := hmore
          refine .inl ⟨more, hmore.trans hlength, ?_⟩
          simp [bind, Except.bind, pure, Except.pure, Except.map, sizes] at hparse ⊢
          rw [hparse]
      | inr hparse =>
          obtain ⟨hmissing, hparse⟩ := hparse
          refine .inr ⟨⟨row, ?_, ?_, length_lt_of_missing hmissing⟩, ?_⟩
          · have hmem : row ∈ broken := by
              apply List.mem_of_mem_filter (p := fun row => row != [])
              rw [hfilter]
              exact List.mem_singleton_self row
            have hone : broken = [row] := by
              cases broken with
              | nil => cases hmem
              | cons first rest =>
                  rw [List.length_cons] at hbroken
                  obtain rfl : rest = [] := List.eq_nil_of_length_eq_zero (by omega)
                  rw [List.mem_singleton.mp hmem]
            rw [← hone]
          · have hrow : row ∈ broken.filter fun row => row != [] := by
              rw [hfilter]
              exact List.mem_singleton_self row
            simpa using (List.mem_filter.mp hrow).2
          · simp [bind, Except.bind, pure, Except.pure, Except.map, sizes] at hparse ⊢
            rw [hparse]

theorem readProofSizes_of_rows {text : List Char} {rows : List Csv.Row}
    (h : Csv.rows (Csv.universalNewlines text) = some rows) :
    readProofSizes numbers text = parseProofSizes numbers (some (Csv.dictRows rows)) := by
  rw [readProofSizes, h]

/-- A file with nothing but a header in it, or less. -/
theorem parseProofSizes_header {rows : List Csv.Row} (h : rows.length ≤ 1) :
    parseProofSizes numbers (some (Csv.dictRows rows)) = .ok (proofStats []) := by
  cases rows with
  | nil => rfl
  | cons first others =>
      rw [List.length_cons] at h
      rw [List.eq_nil_of_length_eq_zero (by omega : others.length = 0)]
      rfl

end Reading

variable {r : Recorder} {s : Session} {text : List Char}

/-- A file that was closed holds the whole session. -/
theorem Keeps.read_closed (h : Keeps r s) (numbers : NumberText)
    (hnumbers : ∀ n : ℕ, numbers.int (toString n) = some (n : ℤ)) (hstopped : s.running = false)
    (hdisk : r.OnDisk text) : readProofSizes numbers text = .ok (proofStats s.sizes) := by
  have htext : text = Csv.writerows r.written := by
    obtain ⟨hfront, hback⟩ := hdisk
    rw [h.closed (h.running.trans hstopped)] at hfront
    exact hback.eq_of_length_le hfront.length_le
  rw [readProofSizes_of_rows numbers (htext ▸ Csv.rows_writerows r.written)]
  cases h.rows with
  | inl hrows =>
      have hparse := @parseProofSizes_dictRows numbers hnumbers s.calls [] (Nat.zero_le 1)
      dsimp only at hparse
      rw [List.append_nil, ← hrows] at hparse
      cases hparse with
      | inl hparse =>
          obtain ⟨more, hmore, hparse⟩ := hparse
          rw [List.eq_nil_of_length_eq_zero (Nat.le_zero.mp hmore), List.append_nil] at hparse
          exact hparse
      | inr hparse =>
          obtain ⟨row, hrow, -⟩ := hparse.1
          exact absurd (List.self_eq_append_right.mp hrow) (List.cons_ne_nil row [])
  | inr hempty =>
      rw [hempty.2.1, Session.sizes, hempty.2.2]
      rfl

/-- The rows of a session with these calls, as they are read. -/
def rowsRead (calls : List ProofCall) : List Csv.Row :=
  (header :: calls.map ProofCall.row).map (List.map Csv.translated)

/-- What is read of a file that breaks off behind these calls: their sizes and perhaps a piece
of one more, or nothing where the next row has begun and ends before its size. -/
def ReadTo (numbers : NumberText) (text : List Char) (calls : List ProofCall) : Prop :=
  (∃ broken : List ℤ, broken.length ≤ 1 ∧ readProofSizes numbers text =
      .ok (proofStats ((calls.map fun call => (call.response.size : ℤ)) ++ broken))) ∨
    (∃ rows, Csv.rows (Csv.universalNewlines text) = some rows ∧
        EndsBroken rows (rowsRead calls)) ∧
      readProofSizes numbers text = .error .typeError

/-- At any moment the file lacks fewer samples than are flushed at once. -/
theorem Keeps.read_running (h : Keeps r s) (numbers : NumberText)
    (hnumbers : ∀ n : ℕ, numbers.int (toString n) = some (n : ℤ)) (hdisk : r.OnDisk text) :
    ∃ kept, kept <+: s.calls ∧ s.calls.length < kept.length + proofFlushEvery ∧
      ReadTo numbers text kept := by
  have hrecent := h.recent
  have hbounded := h.bounded
  obtain ⟨back, hwritten⟩ := h.kept
  obtain ⟨hfront, hback⟩ := hdisk
  rw [← hwritten] at hback
  obtain ⟨whole, broken, hwhole, hbroken, hread⟩ := Csv.rows_truncated hfront hback
  have hprefix : r.flushed ++ whole <+: r.written :=
    hwritten ▸ (List.prefix_append_right_inj r.flushed).mpr hwhole
  simp only [ReadTo, readProofSizes_of_rows numbers hread]
  cases hfound : r.flushed ++ whole with
  | nil =>
      have hflushed : r.flushed = [] := (List.append_eq_nil_iff.mp hfound).1
      rw [hflushed, List.length_nil] at hrecent
      have hfew : s.calls.length < 0 + proofFlushEvery := by
        omega
      refine ⟨[], List.nil_prefix, hfew, .inl ⟨[], ?_, ?_⟩⟩
      · exact Nat.zero_le 1
      · exact parseProofSizes_header numbers hbroken
  | cons first rows =>
      cases h.rows with
      | inr hempty =>
          rw [hfound, hempty.2.1] at hprefix
          exact absurd (List.prefix_nil.mp hprefix) (List.cons_ne_nil first rows)
      | inl hrows =>
          rw [hfound, hrows, List.cons_prefix_cons] at hprefix
          obtain ⟨rfl, hprefix⟩ := hprefix
          obtain ⟨calls, hcalls, rfl⟩ := List.prefix_map_iff.mp hprefix
          have hlost : s.calls.length < calls.length + proofFlushEvery := by
            have hfoundLength := congrArg List.length hfound
            rw [List.length_append, List.length_cons, List.length_map] at hfoundLength
            omega
          refine ⟨calls, hcalls, hlost, ?_⟩
          cases parseProofSizes_dictRows numbers hnumbers calls hbroken with
          | inl hparse =>
              obtain ⟨more, hmore, hparse⟩ := hparse
              exact .inl ⟨more, hmore.trans hbroken, hparse⟩
          | inr hparse => exact .inr ⟨⟨_, hfound ▸ hread, hparse.1⟩, hparse.2⟩

/-- **However the users take turns, and wherever tests begin and end: after a test the
aggregator reads one size for each call that succeeded while it ran, and its statistics are
the same in whatever order they came.  When the process dies during a test it reads all but
fewer than a hundred of them, and perhaps a piece of one more row, or raises a `TypeError`
where that piece ends before the size.** -/
theorem proofSizes_recorded (numbers : NumberText)
    (hnumbers : ∀ n : ℕ, numbers.int (toString n) = some (n : ℤ)) {events : List Event}
    (hrun : run events = some r) (hdisk : r.OnDisk text) :
    ((session events).running = false → ∀ sizes, sizes.Perm (session events).sizes →
      readProofSizes numbers text = .ok (proofStats sizes)) ∧
    ∃ kept, kept <+: (session events).calls ∧
      (session events).calls.length < kept.length + proofFlushEvery ∧
      ReadTo numbers text kept := by
  have hkeeps := keeps_run hrun
  refine ⟨fun hstopped sizes hperm => ?_, hkeeps.read_running numbers hnumbers hdisk⟩
  rw [proofStats_perm hperm]
  exact hkeeps.read_closed numbers hnumbers hstopped hdisk

/-- `int` on decimal digits, and nothing else. -/
def digitsOnly : NumberText where
  float _ := none
  int text :=
    if text ≠ "" ∧ text.toList.all Char.isDigit then
      some ((Nat.ofDigitChars 10 text.toList 0 : ℕ) : ℤ)
    else none

theorem digitsOnly_int (n : ℕ) : digitsOnly.int (toString n) = some (n : ℤ) := by
  have hdigits : (toString n).toList.all Char.isDigit = true := by
    rw [List.all_eq_true, Nat.toString_eq_repr, Nat.toList_repr]
    exact fun c hc => Nat.isDigit_of_mem_toDigits (by decide) (by decide) hc
  have hne : toString n ≠ "" := by
    intro h
    have hnil : Nat.toDigits 10 n = [] := by
      rw [← Nat.toList_repr, ← Nat.toString_eq_repr, h]
      rfl
    exact Nat.toDigits_ne_nil hnil
  rw [digitsOnly]
  dsimp only
  rw [if_pos ⟨hne, hdigits⟩, Nat.toString_eq_repr, Nat.toList_repr, Nat.ofDigitChars_ten_toDigits]

/-- A call of an address that needs quotes, and one the node refuses. -/
def quotedCall : ProofCall :=
  ⟨1700000000000, "0x\"ab,\"", "latest", ⟨200, some (.obj [("result", .null)]), 1234⟩⟩

def refusedCall : ProofCall :=
  ⟨1700000000001, "0xcd", "0x10", ⟨200, some (.obj [("error", .str "pruned")]), 50⟩⟩

/-- A test with a straggler. -/
def shortTest : List Event :=
  [.testStart, .proof refusedCall, .proof quotedCall, .testStop, .proof quotedCall]

theorem proofSizes_recorded_shortTest :
    readProofSizes digitsOnly (Csv.writerows [header, quotedCall.row]) =
      .ok (proofStats [1234]) :=
  (@proofSizes_recorded ⟨false, 1, [header, quotedCall.row], [header, quotedCall.row]⟩ _
    digitsOnly digitsOnly_int shortTest rfl
    ⟨List.prefix_refl _, List.prefix_refl _⟩).1 rfl [1234] (List.Perm.refl _)

end StateBenchmarks.LoadTests.ProofSizes
