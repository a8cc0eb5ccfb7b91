/-
# One format, two readers

`iter_records` takes the stream in memory and walks it by offset;
`iter_record_bodies` reads a file record by record.  Both read frames, four
bytes of length and then the body.  Each checks for truncation in its own way,
and words its errors differently.

The stream from an offset on is the file after as many bytes have been read, and
in this sense the two take the same steps.
-/

import StateBenchmarks.RlpToMocks.RoundTrip

namespace StateBenchmarks.RlpToMocks

open Python

/-- One round of `iter_records`: nothing at the end of the data, or the body at
an offset and the offset after it. -/
def recordAt (data : Bytes) (off : ℕ) : Except Exn (Option (Bytes × ℕ)) :=
  if off < data.length then
    if off + 4 > data.length then
      .error (.valueError [.text "truncated length prefix at byte ", .str (.int off)])
    else
      let length := fromBytes (slice data off (off + 4))
      let off := off + 4
      if off + length > data.length then
        .error (.valueError [.text "record at byte ", .str (.int off), .text " claims ",
          .str (.int length), .text " bytes, only ", .str (.int (data.length - off)),
          .text " left"])
      else .ok (some (slice data off (off + length), off + length))
  else .ok none

theorem lt_of_recordAt {data body : Bytes} {off next : ℕ}
    (h : recordAt data off = .ok (some (body, next))) :
    data.length - next < data.length - off := by
  unfold recordAt at h
  dsimp only at h
  split_ifs at h with hoff hprefix hbody
  · cases h
    omega
  · cases h

/-- The loop of `iter_records` from an offset on. -/
def iterRecordsFrom (data : Bytes) (off : ℕ) : Option Exn × List Bytes :=
  match hread : recordAt data off with
  | .error e => (some e, [])
  | .ok none => (none, [])
  | .ok (some (body, next)) =>
      have _hlt : data.length - next < data.length - off := lt_of_recordAt hread
      ((iterRecordsFrom data next).1, body :: (iterRecordsFrom data next).2)
termination_by data.length - off

/-- `iter_records`: the bodies yielded, and the exception that ended the
generator if one did. -/
def iterRecords (data : Bytes) : Option Exn × List Bytes := iterRecordsFrom data 0

/-- A round of the stream reader fails, or is at the end, or takes off a frame. -/
theorem readRecord_cases (data : Bytes) :
    (∃ message, readRecord data = .error (.valueError message)) ∨
      (readRecord data = .ok none ∧ data = []) ∨
      ∃ body rest, readRecord data = .ok (some (body, rest)) ∧ body.length < 256 ^ 4 ∧
        data = frame body ++ rest := by
  unfold readRecord
  dsimp only
  split_ifs with hempty hprefix hbody
  · exact Or.inr (Or.inl ⟨rfl, by simpa using hempty⟩)
  · exact Or.inl ⟨_, rfl⟩
  · exact Or.inl ⟨_, rfl⟩
  · have hlength : (data.take 4).length = 4 := by
      have hle := List.length_take_le 4 data
      omega
    have hbytes : ((data.drop 4).take (fromBytes (data.take 4))).length =
        fromBytes (data.take 4) := by
      have hle := List.length_take_le (fromBytes (data.take 4)) (data.drop 4)
      omega
    have hbound := fromBytes_lt (data.take 4)
    have hprefix := toBytes_fromBytes (data.take 4)
    rw [hlength] at hbound hprefix
    refine Or.inr (Or.inr ⟨_, _, rfl, ?_, ?_⟩)
    · rwa [hbytes]
    · rw [frame, hbytes, hprefix, List.append_assoc, List.take_append_drop,
        List.take_append_drop]

/-- A round in memory and the round of the stream reader on the file after as
many bytes. -/
inductive SameRound (data : Bytes) : Except Exn (Option (Bytes × ℕ)) →
    Except Exn (Option (Bytes × Bytes)) → Prop
  | raises (message message' : FString) :
      SameRound data (.error (.valueError message)) (.error (.valueError message'))
  | ends : SameRound data (.ok none) (.ok none)
  | yields (body : Bytes) (next : ℕ) :
      SameRound data (.ok (some (body, next))) (.ok (some (body, data.drop next)))

theorem recordAt_sameRound (data : Bytes) (off : ℕ) :
    SameRound data (recordAt data off) (readRecord (data.drop off)) := by
  have hlength : (data.drop off).length = data.length - off := List.length_drop
  have htake : ((data.drop off).take 4).length = min 4 (data.length - off) := by
    rw [List.length_take, hlength]
  unfold recordAt readRecord
  dsimp only
  by_cases hoff : off < data.length
  · have hne : ¬ ((data.drop off).take 4).isEmpty = true := by
      rw [List.isEmpty_iff_length_eq_zero]
      omega
    rw [if_pos hoff, if_neg hne]
    by_cases hshort : off + 4 > data.length
    · rw [if_pos hshort, if_pos (by omega)]
      exact SameRound.raises _ _
    · have hslice : slice data off (off + 4) = (data.drop off).take 4 := by
        rw [slice, Nat.add_sub_cancel_left]
      have hdrop : (data.drop off).drop 4 = data.drop (off + 4) := List.drop_drop
      rw [if_neg hshort, if_neg (show ¬ ((data.drop off).take 4).length < 4 by omega), hslice,
        hdrop]
      generalize fromBytes ((data.drop off).take 4) = length
      have hbytes : ((data.drop (off + 4)).take length).length =
          min length (data.length - (off + 4)) := by
        rw [List.length_take, List.length_drop]
      by_cases hbody : off + 4 + length > data.length
      · rw [if_pos hbody, if_pos (by omega)]
        exact SameRound.raises _ _
      · rw [if_neg hbody, if_neg (by omega), slice, Nat.add_sub_cancel_left, List.drop_drop]
        exact SameRound.yields _ _
  · have hnil : data.drop off = [] := List.drop_eq_nil_of_le (by omega)
    rw [if_neg hoff, hnil]
    exact SameRound.ends

/-- Two generators yield the same bodies, and finish both or raise both. -/
structure SameRun (x y : Option Exn × List Bytes) : Prop where
  bodies : x.2 = y.2
  ending : (x.1 = none ∧ y.1 = none) ∨
    ∃ message message', x.1 = some (.valueError message) ∧ y.1 = some (.valueError message')

theorem SameRun.cons {x y : Option Exn × List Bytes} (h : SameRun x y) (body : Bytes) :
    SameRun (x.1, body :: x.2) (y.1, body :: y.2) :=
  ⟨congrArg (body :: ·) h.bodies, h.ending⟩

theorem iterRecordsFrom_eq (data : Bytes) (off : ℕ) :
    iterRecordsFrom data off =
      match recordAt data off with
      | .error e => (some e, [])
      | .ok none => (none, [])
      | .ok (some (body, next)) =>
          ((iterRecordsFrom data next).1, body :: (iterRecordsFrom data next).2) := by
  rw [iterRecordsFrom]
  split <;> simp_all

theorem iterRecordBodies_eq (data : Bytes) :
    iterRecordBodies data =
      match readRecord data with
      | .error e => (some e, [])
      | .ok none => (none, [])
      | .ok (some (body, rest)) =>
          ((iterRecordBodies rest).1, body :: (iterRecordBodies rest).2) := by
  rw [iterRecordBodies]
  split <;> simp_all

/-- From an offset on, the reader in memory does what the stream reader does with
the rest of the file. -/
theorem iterRecordsFrom_sameRun (data : Bytes) (off : ℕ) :
    SameRun (iterRecordsFrom data off) (iterRecordBodies (data.drop off)) := by
  induction hleft : data.length - off using Nat.strong_induction_on generalizing off with
  | h left ih =>
      have hround := recordAt_sameRound data off
      rw [iterRecordsFrom_eq, iterRecordBodies_eq]
      generalize hmemory : recordAt data off = round at hround
      generalize readRecord (data.drop off) = round' at hround
      cases hround with
      | raises message message' => exact ⟨rfl, Or.inr ⟨message, message', rfl, rfl⟩⟩
      | ends => exact ⟨rfl, Or.inl ⟨rfl, rfl⟩⟩
      | yields body next =>
          have hlt := lt_of_recordAt hmemory
          exact (ih (data.length - next) (by omega) next rfl).cons body

theorem iterRecords_sameRun (data : Bytes) :
    SameRun (iterRecords data) (iterRecordBodies data) := iterRecordsFrom_sameRun data 0

/-- The data is the concatenation of the frames of some bodies. -/
structure Framed (data : Bytes) (bodies : List Bytes) : Prop where
  lengths : ∀ body ∈ bodies, body.length < 256 ^ 4
  frames : data = bodies.flatMap frame

theorem iterRecordBodies_of_framed {data : Bytes} {bodies : List Bytes} (h : Framed data bodies) :
    iterRecordBodies data = (none, bodies) := by
  obtain ⟨hlengths, rfl⟩ := h
  have hread := iterRecordBodies_framed hlengths []
  rw [List.append_nil, iterRecordBodies_nil, List.append_nil] at hread
  exact hread

theorem framed_of_iterRecordBodies (data : Bytes) {bodies : List Bytes}
    (h : iterRecordBodies data = (none, bodies)) : Framed data bodies := by
  induction hlength : data.length using Nat.strong_induction_on generalizing data bodies with
  | h length ih =>
      rw [iterRecordBodies_eq] at h
      rcases readRecord_cases data with ⟨message, hread⟩ | ⟨hread, rfl⟩ |
        ⟨body, rest, hread, hbody, hdata⟩
      · rw [hread] at h
        cases h
      · rw [hread] at h
        cases h
        exact ⟨nofun, rfl⟩
      · have hlt := length_lt_of_readRecord hread
        rw [hread] at h
        obtain ⟨hend, rfl⟩ := Prod.mk.inj h
        have hrest := ih rest.length (by omega) rest (Prod.ext hend rfl) rfl
        refine ⟨List.forall_mem_cons.mpr ⟨hbody, hrest.lengths⟩, ?_⟩
        rw [List.flatMap_cons, ← hrest.frames]
        exact hdata

theorem iterRecordBodies_eq_iff (data : Bytes) (bodies : List Bytes) :
    iterRecordBodies data = (none, bodies) ↔ Framed data bodies :=
  ⟨framed_of_iterRecordBodies data, iterRecordBodies_of_framed⟩

/-- What finishes on one side finishes on the other, with the same bodies. -/
theorem SameRun.eq_iff {x y : Option Exn × List Bytes} (h : SameRun x y) (bodies : List Bytes) :
    x = (none, bodies) ↔ y = (none, bodies) := by
  obtain ⟨hbodies, ⟨hx, hy⟩ | ⟨_, _, hx, hy⟩⟩ := h
  · rw [Prod.ext_iff, Prod.ext_iff, hx, hy, hbodies]
  · rw [Prod.ext_iff, Prod.ext_iff, hx, hy]
    simp

/-- **Both readers yield the same bodies of any data and finish or raise
together; they finish exactly on concatenated frames, having yielded their
bodies.** -/
theorem readers_agree (data : Bytes) :
    SameRun (iterRecords data) (iterRecordBodies data) ∧
      ∀ bodies, (iterRecords data = (none, bodies) ↔ Framed data bodies) ∧
        (iterRecordBodies data = (none, bodies) ↔ Framed data bodies) := by
  have hsame := iterRecords_sameRun data
  refine ⟨hsame, fun bodies => ?_⟩
  have hstream := iterRecordBodies_eq_iff data bodies
  exact ⟨(hsame.eq_iff bodies).trans hstream, hstream⟩

example : iterRecords [0, 0, 0, 1, 7, 0, 0] =
    (some (.valueError [.text "truncated length prefix at byte ", .str (.int 5)]), [[7]]) := by
  simp [iterRecords, iterRecordsFrom_eq, recordAt, slice, fromBytes]

end StateBenchmarks.RlpToMocks
