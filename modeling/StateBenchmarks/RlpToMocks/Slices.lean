/-
# The slice a conversion cuts out

With a start and a count, `convert` writes the first records at or above the
start, however the numbers of the stream are ordered.  What it has written at
any point depends on the records read so far alone, and `after` is that state.

The count is compared after a line is written.  A count of nothing therefore
lets one line through.
-/

import StateBenchmarks.RlpToMocks.Peek
import Mathlib.Data.List.Induction

namespace StateBenchmarks.RlpToMocks

open Python Rlp Control

/-- A body that can be framed and converts, with the number of its payload. -/
structure ValidRecord where
  body : Bytes
  framable : body.length < 256 ^ 4
  payload : Dict Json
  converts : convertBody body = .ok payload
  number : ℤ
  numbered : (Dict.get payload "blockNumber").int16 = .ok number

/-- Every execution payload makes a valid record. -/
def ExecutionPayloadV3.record (p : ExecutionPayloadV3) (h : p.Framable) : ValidRecord where
  body := p.body
  framable := h
  payload := p.toDict
  converts := convertBody_body h
  number := fromBytes p.blockNumber
  numbered := Json.int16_hex _

/-- The record is at or above the start. -/
def Selects (startBlock : Option ℤ) (r : ValidRecord) : Bool :=
  match startBlock with
  | none => true
  | some first => decide (first ≤ r.number)

/-- The records at or above the start. -/
def selected (startBlock : Option ℤ) (records : List ValidRecord) : List ValidRecord :=
  records.filter (Selects startBlock)

/-- The records a conversion should write. -/
def chosen (startBlock : Option ℤ) (count : Option ℕ) (records : List ValidRecord) :
    List ValidRecord :=
  match count with
  | none => selected startBlock records
  | some n => (selected startBlock records).take n

/-- The lines of some records. -/
def linesOf (stamps : Stamps) (records : List ValidRecord) : List Json :=
  records.map fun r => recordJson stamps r.payload

/-- The conversion of the records with a start and a count. -/
def convertRecords (stamps : Stamps) (startBlock : Option ℤ) (count : Option ℕ)
    (records : List ValidRecord) : Option Exn × Conversion :=
  convert stamps startBlock (count.map Int.ofNat) (framed (records.map ValidRecord.body))

/-- The conversion writes the slice and nothing else, reads no further than the
record that makes the count full, and reports what it wrote. -/
structure Sliced (stamps : Stamps) (startBlock : Option ℤ) (count : Option ℕ)
    (records : List ValidRecord) : Prop where
  returns : (convertRecords stamps startBlock count records).1 = none
  lines : (convertRecords stamps startBlock count records).2.lines =
    linesOf stamps (chosen startBlock count records)
  written : (convertRecords stamps startBlock count records).2.written =
    (chosen startBlock count records).length
  firstBlock : (convertRecords stamps startBlock count records).2.firstBlock =
    (chosen startBlock count records).head?.map ValidRecord.number
  lastBlock : (convertRecords stamps startBlock count records).2.lastBlock =
    (chosen startBlock count records).getLast?.map ValidRecord.number
  bodiesRead : ∀ front r back, records = front ++ r :: back → Selects startBlock r = true →
    count = some ((selected startBlock front).length + 1) →
    (convertRecords stamps startBlock count records).2.bodiesRead = front.length + 1

/-- A body that is not skipped and raises. -/
def Malformed (startBlock : Option ℤ) (body : Bytes) (e : Exn) : Prop :=
  belowStart startBlock body = .error e ∨
    belowStart startBlock body = .ok false ∧ convertBody body = .error e

/-- The state of the conversion after the records, none of which ended it before
the last. -/
def after (stamps : Stamps) (startBlock : Option ℤ) (front : List ValidRecord) : Conversion where
  lines := linesOf stamps (selected startBlock front)
  written := (selected startBlock front).length
  firstBlock := (selected startBlock front).head?.map ValidRecord.number
  lastBlock := (selected startBlock front).getLast?.map ValidRecord.number
  bodiesRead := front.length

section Run

variable {stamps : Stamps} {startBlock : Option ℤ} {count : Option ℕ} {front : List ValidRecord}
  {r : ValidRecord}

theorem belowStart_record (startBlock : Option ℤ) (r : ValidRecord) :
    belowStart startBlock r.body = .ok (!Selects startBlock r) := by
  cases startBlock with
  | none => rfl
  | some first =>
      obtain ⟨number, hpeek, hnumber⟩ := convertBody_number r.converts
      have hsame : (number : ℤ) = r.number := Except.ok.inj (hnumber.symm.trans r.numbered)
      have hbelow : belowStart (some first) r.body = .ok (decide ((number : ℤ) < first)) := by
        rw [belowStart, hpeek]
        rfl
      rw [hbelow, hsame, Selects, ← decide_not]
      simp only [not_le]

theorem selected_concat (startBlock : Option ℤ) (front : List ValidRecord) (r : ValidRecord) :
    selected startBlock (front ++ [r]) =
      selected startBlock front ++ if Selects startBlock r then [r] else [] := by
  rw [selected, List.filter_append, List.filter_singleton]
  cases Selects startBlock r <;> rfl

/-- A record below the start only moves the conversion on. -/
theorem convertStep_skips (h : Selects startBlock r = false) (count : Option ℤ) (i : ℕ) :
    convertStep stamps startBlock count i r.body (after stamps startBlock front) =
      (none, after stamps startBlock (front ++ [r])) := by
  rw [convertStep_of_below (by rw [belowStart_record, h]; rfl)]
  simp [after, selected_concat, h]

variable (stamps count front) in
/-- A record at or above the start is written, and may be the last one. -/
theorem convertStep_selects (h : Selects startBlock r = true) (i : ℕ) :
    convertStep stamps startBlock (count.map Int.ofNat) i r.body (after stamps startBlock front) =
      (if ∃ n, count = some n ∧ n ≤ (selected startBlock front).length + 1 then
        some .countReached else none, after stamps startBlock (front ++ [r])) := by
  rw [convertStep_of_payload (by rw [belowStart_record, h]; rfl) r.converts r.numbered]
  congr 1
  · apply if_congr _ rfl rfl
    cases count with
    | none => simp
    | some n =>
        simp only [Option.map_some, Option.some.injEq, exists_eq_left', after]
        exact Int.ofNat_le
  · have hhead : (selected startBlock front ++ [r]).head? =
        some ((selected startBlock front).head?.getD r) := by
      cases selected startBlock front <;> rfl
    have hlast : (selected startBlock front ++ [r]).getLast? = some r := List.getLast?_concat
    have hfirst : ((selected startBlock front).head?.map ValidRecord.number).getD r.number =
        ((selected startBlock front).head?.getD r).number := by
      cases (selected startBlock front).head? <;> rfl
    unfold after
    rw [selected_concat, h, if_pos rfl, hhead, hlast]
    simp [Conversion.note, Conversion.write, linesOf, hfirst]

/-- None of the records made the count full. -/
def Short (startBlock : Option ℤ) (count : Option ℕ) (front : List ValidRecord) : Prop :=
  selected startBlock front = [] ∨ ∀ n, count = some n → (selected startBlock front).length < n

theorem Short.of_concat (h : Short startBlock count (front ++ [r])) :
    Short startBlock count front := by
  rcases h with hnone | hshort
  · rw [selected_concat] at hnone
    exact Or.inl (List.append_eq_nil_iff.mp hnone).1
  · refine Or.inr ?_
    intro n hn
    have hlt := hshort n hn
    rw [selected_concat, List.length_append] at hlt
    omega

/-- The conversion arrives behind records that do not make the count full. -/
theorem arrives_after (stamps : Stamps) (h : Short startBlock count front) (rest : List Bytes) :
    Arrives (convertStep stamps startBlock (count.map Int.ofNat))
      (front.map ValidRecord.body ++ rest) .start front.length (after stamps startBlock front) := by
  induction front using List.reverseRecOn generalizing rest with
  | nil => exact .start
  | append_singleton front r ih =>
      have hhere := ih h.of_concat (r.body :: rest)
      have hitems : (front ++ [r]).map ValidRecord.body ++ rest =
          front.map ValidRecord.body ++ r.body :: rest := by simp
      rw [hitems, List.length_append, List.length_singleton]
      have hitem : (front.map ValidRecord.body ++ r.body :: rest)[front.length]? = some r.body := by
        simp
      apply hhere.next hitem
      cases hr : Selects startBlock r with
      | false => exact convertStep_skips hr _ _
      | true =>
          rw [convertStep_selects stamps count _ hr, if_neg]
          rintro ⟨n, hn, hfull⟩
          have hselected := selected_concat startBlock front r
          rw [hr, if_pos rfl] at hselected
          rcases h with hnone | hshort
          · rw [hselected] at hnone
            exact absurd (List.append_eq_nil_iff.mp hnone).2 (by simp)
          · have hlt := hshort n hn
            rw [hselected, List.length_append, List.length_singleton] at hlt
            omega

theorem framable_of_mem_bodies (records : List ValidRecord) :
    ∀ b ∈ records.map ValidRecord.body, b.length < 256 ^ 4 := by
  intro b hb
  obtain ⟨r, -, rfl⟩ := List.mem_map.mp hb
  exact r.framable

theorem iterRecordBodies_records (records : List ValidRecord) :
    iterRecordBodies (framed (records.map ValidRecord.body)) =
      (none, records.map ValidRecord.body) := by
  have hread := iterRecordBodies_framed (framable_of_mem_bodies records) []
  rw [List.append_nil, iterRecordBodies_nil, List.append_nil] at hread
  exact hread

/-- A stream that does not make the count full is converted to its end. -/
theorem convertRecords_of_short (stamps : Stamps) {records : List ValidRecord}
    (h : Short startBlock count records) :
    convertRecords stamps startBlock count records = (none, after stamps startBlock records) := by
  have harrives := arrives_after stamps h []
  rw [List.append_nil] at harrives
  have hloop := Arrives.forEach_eq_none (by rwa [List.length_map])
  rw [convertRecords, convert, iterRecordBodies_records, hloop]

/-- The record that makes the count full is the last one read. -/
theorem convertRecords_of_full (stamps : Stamps) (hshort : Short startBlock count front)
    (hr : Selects startBlock r = true) {n : ℕ} (hn : count = some n)
    (hfull : n ≤ (selected startBlock front).length + 1) (back : List ValidRecord) :
    convertRecords stamps startBlock count (front ++ r :: back) =
      (none, after stamps startBlock (front ++ [r])) := by
  have harrives := arrives_after stamps hshort ((r :: back).map ValidRecord.body)
  rw [← List.map_append] at harrives
  have hleaves := convertStep_selects stamps count front hr front.length
  rw [if_pos ⟨n, hn, hfull⟩] at hleaves
  have hloop := harrives.forEach_eq_some (by simp) hleaves
  rw [convertRecords, convert, iterRecordBodies_records, hloop]

end Run

/-- The element of a list at which a given number of selected ones is reached. -/
theorem exists_split_of_lt_length_filter {α : Type} {p : α → Bool} {xs : List α} {n : ℕ}
    (h : n < (xs.filter p).length) :
    ∃ front a back, xs = front ++ a :: back ∧ p a = true ∧ (front.filter p).length = n := by
  induction xs generalizing n with
  | nil => exact absurd h (Nat.not_lt_zero n)
  | cons x rest ih =>
      cases hx : p x with
      | false =>
          rw [List.filter_cons_of_neg (by simp [hx])] at h
          obtain ⟨front, a, back, rfl, ha, hfront⟩ := ih h
          refine ⟨x :: front, a, back, rfl, ha, ?_⟩
          rw [List.filter_cons_of_neg (by simp [hx]), hfront]
      | true =>
          cases n with
          | zero => exact ⟨[], x, rest, rfl, hx, rfl⟩
          | succ n =>
              rw [List.filter_cons_of_pos hx, List.length_cons] at h
              obtain ⟨front, a, back, rfl, ha, hfront⟩ := ih (Nat.lt_of_succ_lt_succ h)
              refine ⟨x :: front, a, back, rfl, ha, ?_⟩
              rw [List.filter_cons_of_pos hx, List.length_cons, hfront]

section Slice

variable {stamps : Stamps} {startBlock : Option ℤ} {count : Option ℕ} {records : List ValidRecord}

theorem chosen_of_short (h : Short startBlock count records) :
    chosen startBlock count records = selected startBlock records := by
  cases count with
  | none => rfl
  | some n =>
      rcases h with hnone | hshort
      · rw [chosen, hnone, List.take_nil]
      · exact List.take_of_length_le (hshort n rfl).le

theorem short_of_count {front : List ValidRecord}
    (hcount : count = some ((selected startBlock front).length + 1)) :
    Short startBlock count front := by
  refine Or.inr ?_
  intro n hn
  rw [hcount, Option.some.injEq] at hn
  omega

/-- A body that makes the count full is the last one read. -/
theorem bodiesRead_of_full (stamps : Stamps) {front back : List ValidRecord} {r : ValidRecord}
    (hr : Selects startBlock r = true)
    (hcount : count = some ((selected startBlock front).length + 1)) :
    (convertRecords stamps startBlock count (front ++ r :: back)).2.bodiesRead =
      front.length + 1 := by
  have hshort := short_of_count hcount
  rw [convertRecords_of_full stamps hshort hr hcount (Nat.le_refl _), after]
  simp

theorem sliced_of_short (stamps : Stamps) (h : Short startBlock count records) :
    Sliced stamps startBlock count records where
  returns := by rw [convertRecords_of_short stamps h]
  lines := by rw [convertRecords_of_short stamps h, chosen_of_short h, after]
  written := by rw [convertRecords_of_short stamps h, chosen_of_short h, after]
  firstBlock := by rw [convertRecords_of_short stamps h, chosen_of_short h, after]
  lastBlock := by rw [convertRecords_of_short stamps h, chosen_of_short h, after]
  bodiesRead := by
    rintro front r back rfl hr hcount
    exact bodiesRead_of_full stamps hr hcount

theorem sliced_of_full (stamps : Stamps) {front back : List ValidRecord} {r : ValidRecord}
    (hr : Selects startBlock r = true)
    (hcount : count = some ((selected startBlock front).length + 1)) :
    Sliced stamps startBlock count (front ++ r :: back) := by
  have hshort := short_of_count hcount
  have hrun := convertRecords_of_full stamps hshort hr hcount (Nat.le_refl _) back
  have hchosen : chosen startBlock count (front ++ r :: back) =
      selected startBlock (front ++ [r]) := by
    have hsplit : selected startBlock (front ++ r :: back) =
        selected startBlock (front ++ [r]) ++ selected startBlock back := by
      rw [selected, selected, selected, ← List.filter_append, List.append_assoc]
      rfl
    have hlength : (selected startBlock (front ++ [r])).length =
        (selected startBlock front).length + 1 := by
      rw [selected_concat, hr, if_pos rfl, List.length_append, List.length_singleton]
    rw [hcount, chosen, hsplit, List.take_left' hlength]
  exact {
    returns := by rw [hrun]
    lines := by rw [hrun, hchosen, after]
    written := by rw [hrun, hchosen, after]
    firstBlock := by rw [hrun, hchosen, after]
    lastBlock := by rw [hrun, hchosen, after]
    bodiesRead := by
      intro front' r' back' hsame hr' hcount'
      rw [hsame]
      exact bodiesRead_of_full stamps hr' hcount' }

/-- A count of nothing lets the first selected record through. -/
theorem not_sliced_of_zero (stamps : Stamps) (h : selected startBlock records ≠ []) :
    ¬ Sliced stamps startBlock (some 0) records := by
  intro hsliced
  obtain ⟨front, r, back, rfl, hr, hfront⟩ :=
    exists_split_of_lt_length_filter (List.length_pos_iff.mpr h)
  have hshort : Short startBlock (some 0) front :=
    Or.inl (List.length_eq_zero_iff.mp hfront)
  have hlines := hsliced.lines
  rw [convertRecords_of_full stamps hshort hr rfl (Nat.zero_le _), chosen, List.take_zero, after,
    selected_concat, hr, if_pos rfl, linesOf, List.map_append] at hlines
  exact absurd (List.append_eq_nil_iff.mp hlines).2 (by simp)

/-- The slice is right unless the count is nothing and there is something to write. -/
theorem sliced_iff (stamps : Stamps) :
    Sliced stamps startBlock count records ↔
      (count = some 0 → selected startBlock records = []) := by
  apply Iff.intro
  · rintro hsliced rfl
    by_contra hne
    exact not_sliced_of_zero stamps hne hsliced
  · intro hzero
    by_cases hshort : Short startBlock count records
    · exact sliced_of_short stamps hshort
    · unfold Short at hshort
      push Not at hshort
      obtain ⟨hne, n, rfl, hfull⟩ := hshort
      cases n with
      | zero => exact absurd (hzero rfl) hne
      | succ n =>
          obtain ⟨front, r, back, rfl, hr, hfront⟩ := exists_split_of_lt_length_filter hfull
          exact sliced_of_full stamps hr (by rw [selected, hfront])

/-- A malformed record ends the conversion with its error.  What the records
before it wrote stays written. -/
theorem convert_malformed (stamps : Stamps) {front : List ValidRecord} {body rest : Bytes}
    {e : Exn} (hbody : body.length < 256 ^ 4) (he : Malformed startBlock body e)
    (hshort : ∀ n, count = some n → (selected startBlock front).length < n) :
    ∃ c, convert stamps startBlock (count.map Int.ofNat)
        (framed (front.map ValidRecord.body) ++ (frame body ++ rest)) = (some e, c) ∧
      c.lines = linesOf stamps (selected startBlock front) := by
  have hread := iterRecordBodies_framed (framable_of_mem_bodies front) (frame body ++ rest)
  rw [iterRecordBodies_frame hbody] at hread
  have harrives := arrives_after stamps (Or.inr hshort) (body :: (iterRecordBodies rest).2)
  have hleaves : convertStep stamps startBlock (count.map Int.ofNat) front.length body
      (after stamps startBlock front) = (some (.raised e), { after stamps startBlock front with
        bodiesRead := front.length + 1 }) := by
    unfold convertStep
    rcases he with hpeek | ⟨hbelow, hconvert⟩
    · rw [hpeek]
      rfl
    · rw [hbelow]
      dsimp only
      rw [hconvert]
      rfl
  have hloop := harrives.forEach_eq_some (by simp) hleaves
  refine ⟨{ after stamps startBlock front with bodiesRead := front.length + 1 }, ?_, rfl⟩
  rw [convert, hread, hloop]

end Slice

/-- **The slice.**  From every stream of valid records the conversion writes the
slice that the start and the count cut out, and reads no further; a count of zero
is kept exactly when there is nothing to write.  A malformed record that would be
in the slice ends the conversion after the lines of the selected ones before it. -/
theorem convert_slices (stamps : Stamps) (startBlock : Option ℤ) (count : Option ℕ) :
    (∀ records : List ValidRecord, Sliced stamps startBlock count records ↔
      (count = some 0 → selected startBlock records = [])) ∧
    ∀ (front : List ValidRecord) (body rest : Bytes) (e : Exn), body.length < 256 ^ 4 →
      Malformed startBlock body e →
      (∀ n, count = some n → (selected startBlock front).length < n) →
      ∃ c, convert stamps startBlock (count.map Int.ofNat)
          (framed (front.map ValidRecord.body) ++ (frame body ++ rest)) = (some e, c) ∧
        c.lines = linesOf stamps (selected startBlock front) := by
  constructor
  · intro records
    exact sliced_iff stamps
  · intro front body rest e hbody he hshort
    exact convert_malformed stamps hbody he hshort

/-- The record of a small payload. -/
def smallRecord : ValidRecord := smallPayload.record (by
  show smallPayload.body.length < 256 ^ 4
  decide)

/-- No record was asked for, and one is written. -/
theorem zero_count_writes : ¬ Sliced defaultStamps none (some 0) [smallRecord] :=
  not_sliced_of_zero defaultStamps (by simp [selected, Selects])

/-- One record is written, and the empty body after it ends the conversion. -/
theorem smallRecord_then_empty :
    ∃ c, convert defaultStamps none none (framed [smallRecord.body] ++ (frame [] ++ [])) =
        (some .indexError, c) ∧ c.lines = linesOf defaultStamps [smallRecord] := by
  have hempty : convertBody [] = .error .indexError := by
    rw [convertBody, decodeAt_eq]
    rfl
  exact (convert_slices defaultStamps none none).2 [smallRecord] [] [] .indexError (by decide)
    (Or.inr ⟨rfl, hempty⟩) (by simp)

end StateBenchmarks.RlpToMocks
