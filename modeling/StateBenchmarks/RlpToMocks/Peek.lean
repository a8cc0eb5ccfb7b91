/-
# The block-number peek

`block_number_of` reads the header of the outer list by itself and decodes seven
items from there.  It does not know where the list ends.  The full decode stops
at the end the header declares, and by then it has made the same seven calls at
the same offsets, so on whatever it accepts the two read the same number.
-/

import StateBenchmarks.RlpToMocks.Shape

namespace StateBenchmarks.RlpToMocks

open Python Rlp

variable {b body : Bytes} {cursor stop : ℕ} {items : List Item} {payload : Dict Json}

/-- The round of the list loop that collected its first item. -/
theorem decodeAt_of_decodeItems_cons {item : Item}
    (h : decodeItems b cursor stop = .ok (item :: items)) :
    ∃ next, decodeAt b cursor = .ok (item, next) ∧ decodeItems b next stop = .ok items := by
  rw [decodeItems_eq] at h
  split_ifs at h with hin
  · rcases hdecode : decodeAt b cursor with err | ⟨first, next⟩
    · rw [hdecode] at h
      cases h
    · rw [hdecode] at h
      dsimp only at h
      rcases hrest : decodeItems b next stop with err | rest
      · rw [hrest] at h
        cases h
      · rw [hrest] at h
        cases h
        exact ⟨next, rfl, hrest⟩
  · cases h

/-- The item that the list loop collects at a position is the one that as many
calls in a row reach. -/
theorem decodeTimes_of_decodeItems {n : ℕ} {item : Item}
    (h : decodeItems b cursor stop = .ok items) (hitem : items[n]? = some item) (last : Item) :
    ∃ next, decodeTimes b (n + 1) (last, cursor) = .ok (item, next) := by
  induction items generalizing n cursor last with
  | nil => cases hitem
  | cons first rest ih =>
      obtain ⟨next, hdecode, hrest⟩ := decodeAt_of_decodeItems_cons h
      cases n with
      | zero =>
          obtain rfl : first = item := Option.some.inj hitem
          exact ⟨next, by simp [decodeTimes, hdecode, bind, Except.bind]⟩
      | succ n =>
          obtain ⟨next', htimes⟩ := ih hrest hitem first
          refine ⟨next', ?_⟩
          rw [decodeTimes, hdecode]
          exact htimes

/-- The peek's reading of the header is right about lists. -/
theorem extent_start_of_list {first : UInt8} (h : (extent b 0 first).isList = true) :
    (extent b 0 first).start =
      if first.toNat < 0xf8 then 1 else 1 + (first.toNat - 0xf7) := by
  unfold extent at h ⊢
  dsimp only at h ⊢
  split_ifs at h ⊢ <;> simp_all

/-- The peek finds the first item of an outer list where the full decode does. -/
theorem blockNumberOf_of_decodeAt {next : ℕ} {field : Item}
    (h : decodeAt body 0 = .ok (.list items, next)) (hfield : items[6]? = some field) :
    blockNumberOf body = fromBytesOrZero (.item field) := by
  cases body with
  | nil => simp [decodeAt_eq, extentAt] at h
  | cons first rest =>
      have hextent : extentAt (first :: rest) 0 = some (extent (first :: rest) 0 first) := rfl
      rw [decodeAt_eq, hextent] at h
      dsimp only at h
      split_ifs at h with hlist
      · rcases hitems : decodeItems (first :: rest) (extent (first :: rest) 0 first).start
          (extent (first :: rest) 0 first).stop with err | items'
        · rw [hitems] at h
          cases h
        · rw [hitems] at h
          cases h
          obtain ⟨next', htimes⟩ := decodeTimes_of_decodeItems hitems hfield (.bytes [])
          rw [extent_start_of_list hlist] at htimes
          rw [blockNumberOf, htimes]
          rfl
      · cases h

/-- The peek reads the number of the payload. -/
theorem blockNumberOf_of_payload {decoded : Item} {next : ℕ}
    (hdecode : decodeAt body 0 = .ok (decoded, next))
    (hpayload : payloadFromRlp decoded = .ok payload) :
    ∃ number : ℕ, blockNumberOf body = .ok number ∧
      (Dict.get payload "blockNumber").int16 = .ok (number : ℤ) := by
  cases decoded with
  | bytes b => cases hpayload
  | list items =>
      have hentry : (("blockNumber", toQty), 6) ∈ fields.zip scalarIndices :=
        List.mem_of_getElem? (i := 6) rfl
      obtain ⟨field, text, hfield, htext, hget⟩ := scalar_of_payload hpayload hentry
      rw [blockNumberOf_of_decodeAt hdecode hfield, hget]
      simp only [toQty] at htext
      cases hnumber : fromBytesOrZero (.item field) with
      | error e =>
          rw [hnumber] at htext
          cases htext
      | ok number =>
          rw [hnumber] at htext
          obtain rfl := Except.ok.inj htext
          exact ⟨number, rfl, Json.int16_hex number⟩

/-- A body that is converted, and the number of its payload. -/
theorem convertBody_number (h : convertBody body = .ok payload) :
    ∃ number : ℕ, blockNumberOf body = .ok number ∧
      (Dict.get payload "blockNumber").int16 = .ok (number : ℤ) := by
  obtain ⟨⟨decoded, next⟩, hdecode, hpayload⟩ := except_bind_eq_ok h
  exact blockNumberOf_of_payload hdecode hpayload

section Step

variable {stamps : Stamps} {startBlock count : Option ℤ} {i : ℕ} {c : Conversion}

/-- A body below the start is read and skipped. -/
theorem convertStep_of_below (h : belowStart startBlock body = .ok true) :
    convertStep stamps startBlock count i body c =
      (none, { c with bodiesRead := c.bodiesRead + 1 }) := by
  unfold convertStep
  rw [h]

/-- A converted body is written, noted and counted. -/
theorem convertStep_of_payload {number : ℤ} (h : belowStart startBlock body = .ok false)
    (hpayload : convertBody body = .ok payload)
    (hnumber : (Dict.get payload "blockNumber").int16 = .ok number) :
    convertStep stamps startBlock count i body c =
      (if ∃ n, count = some n ∧ n ≤ c.written + 1 then some .countReached else none,
        ({ c with bodiesRead := c.bodiesRead + 1 }.write (recordJson stamps payload)).note
          number) := by
  unfold convertStep
  rw [h, hpayload]
  dsimp only
  rw [hnumber]
  cases count with
  | none => simp
  | some n =>
      dsimp only [Conversion.note, Conversion.write]
      simp only [Option.some.injEq, exists_eq_left', Nat.cast_add, Nat.cast_one]
      split_ifs <;> rfl

end Step

/-- On every body that is decoded and converted, canonical or not, the peek returns
the number of its payload.  Skipping by the peek drops the record if and only if
that number is below the start. -/
theorem blockNumberOf_agrees {decoded : Item} {next : ℕ}
    (hdecode : decodeAt body 0 = .ok (decoded, next))
    (hpayload : payloadFromRlp decoded = .ok payload) :
    ∃ number : ℕ, blockNumberOf body = .ok number ∧
      (Dict.get payload "blockNumber").int16 = .ok (number : ℤ) ∧
      ∀ (stamps : Stamps) (startBlock : ℤ) (count : Option ℤ) (i : ℕ) (c : Conversion),
        (convertStep stamps (some startBlock) count i body c).2.lines = c.lines ↔
          (number : ℤ) < startBlock := by
  obtain ⟨number, hpeek, hnumber⟩ := blockNumberOf_of_payload hdecode hpayload
  refine ⟨number, hpeek, hnumber, ?_⟩
  intro stamps startBlock count i c
  have hbelow : belowStart (some startBlock) body = .ok (decide ((number : ℤ) < startBlock)) := by
    rw [belowStart, hpeek]
    rfl
  have hconvert : convertBody body = .ok payload := by
    rw [convertBody, hdecode]
    exact hpayload
  by_cases hskip : (number : ℤ) < startBlock
  · rw [decide_eq_true hskip] at hbelow
    simp [convertStep_of_below hbelow, hskip]
  · rw [decide_eq_false hskip] at hbelow
    simp [convertStep_of_payload hbelow hconvert hnumber, hskip, Conversion.note, Conversion.write]

/-- The peek into a small payload. -/
theorem blockNumberOf_smallPayload :
    ∃ number : ℕ, blockNumberOf smallPayload.body = .ok number ∧
      (Dict.get smallPayload.toDict "blockNumber").int16 = .ok (number : ℤ) := by
  obtain ⟨next, hdecode⟩ := @decodeAt_encode (.list smallPayload.items) (by decide)
  obtain ⟨number, hpeek, hnumber, -⟩ :=
    blockNumberOf_agrees hdecode (payloadFromRlp_items smallPayload)
  exact ⟨number, hpeek, hnumber⟩

end StateBenchmarks.RlpToMocks
