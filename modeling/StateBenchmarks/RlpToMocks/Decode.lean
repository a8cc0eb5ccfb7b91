/-
# The RLP decoder of `rlp_to_mocks`

`_decode` reads one item at an offset and returns it with the offset after it.
It slices without bounds checks, and after a list it answers with the end the
header declared, not with the cursor its loop reached.  Both are kept here.  The
recursion goes as deep as the input does.

Every call moves forward and starts inside the input; the result type says so,
and that is why the list loop terminates on every input.
-/

import StateBenchmarks.Python.Json
import StateBenchmarks.Rlp.Grammar

namespace StateBenchmarks.RlpToMocks

open Python Rlp

/-- What a header declares: whether a list follows, and where the payload starts
and stops.  A single byte is its own payload. -/
structure Extent where
  isList : Bool
  start : ℕ
  stop : ℕ
  deriving DecidableEq

/-- The five branches of `_decode` on the first byte of an item at `o`. -/
def extent (b : Bytes) (o : ℕ) (first : UInt8) : Extent :=
  let byte := first.toNat
  if byte < 0x80 then ⟨false, o, o + 1⟩
  else if byte < 0xb8 then
    let length := byte - 0x80
    let start := o + 1
    ⟨false, start, start + length⟩
  else if byte < 0xc0 then
    let lenLen := byte - 0xb7
    let length := fromBytes (slice b (o + 1) (o + 1 + lenLen))
    let start := o + 1 + lenLen
    ⟨false, start, start + length⟩
  else if byte < 0xf8 then
    let length := byte - 0xc0
    ⟨true, o + 1, o + 1 + length⟩
  else
    let lenLen := byte - 0xf7
    let length := fromBytes (slice b (o + 1) (o + 1 + lenLen))
    let start := o + 1 + lenLen
    ⟨true, start, start + length⟩

/-- A header never declares an end at or before its own first byte. -/
theorem lt_extent_stop (b : Bytes) (o : ℕ) (first : UInt8) : o < (extent b o first).stop := by
  unfold extent
  dsimp only
  split_ifs <;> simp only <;> omega

/-- The children of a list start after its first byte. -/
theorem lt_extent_start {b : Bytes} {o : ℕ} {first : UInt8}
    (h : (extent b o first).isList = true) : o < (extent b o first).start := by
  unfold extent at h ⊢
  dsimp only at h ⊢
  split_ifs at h ⊢ <;> simp only at h ⊢ <;> omega

mutual

/-- `_decode(b, o)`. -/
def decode (b : Bytes) (o : ℕ) : Except Exn {r : Item × ℕ // o < b.length ∧ o < r.2} :=
  match hfirst : b[o]? with
  | none => .error .indexError
  | some first =>
      let e := extent b o first
      have hin : o < b.length := (List.getElem?_eq_some_iff.mp hfirst).1
      if hlist : e.isList then
        have _hstart : o < e.start := lt_extent_start hlist
        match decodeItems b e.start e.stop with
        | .error err => .error err
        | .ok items => .ok ⟨(.list items, e.stop), hin, lt_extent_stop b o first⟩
      else .ok ⟨(.bytes (slice b e.start e.stop), e.stop), hin, lt_extent_stop b o first⟩
termination_by (b.length - o, 0)
decreasing_by
  apply Prod.Lex.left
  show b.length - e.start < b.length - o
  omega

/-- The loop `while cursor < end`. -/
def decodeItems (b : Bytes) (cursor stop : ℕ) : Except Exn (List Item) :=
  if cursor < stop then
    match decode b cursor with
    | .error err => .error err
    | .ok ⟨(item, next), _hnext⟩ =>
        match decodeItems b next stop with
        | .error err => .error err
        | .ok rest => .ok (item :: rest)
  else .ok []
termination_by (b.length - cursor, 1)
decreasing_by
  · apply Prod.Lex.right
    omega
  · apply Prod.Lex.left
    show b.length - next < b.length - cursor
    omega

end

/-- `_decode(b, o)`, without the evidence that it moved forward. -/
def decodeAt (b : Bytes) (o : ℕ) : Except Exn (Item × ℕ) :=
  match decode b o with
  | .error err => .error err
  | .ok r => .ok r.1

/-- What the header at `o` declares, if there is a byte at `o`. -/
def extentAt (b : Bytes) (o : ℕ) : Option Extent := b[o]?.map (extent b o)

variable {b : Bytes} {o cursor stop : ℕ} {e : Extent}

theorem extentAt_eq_none_iff : extentAt b o = none ↔ b.length ≤ o := by
  rw [extentAt, Option.map_eq_none_iff, List.getElem?_eq_none_iff]

theorem lt_length_of_extentAt (h : extentAt b o = some e) : o < b.length := by
  by_contra hge
  rw [extentAt_eq_none_iff.mpr (Nat.le_of_not_lt hge)] at h
  cases h

theorem lt_stop_of_extentAt (h : extentAt b o = some e) : o < e.stop := by
  obtain ⟨first, -, rfl⟩ := Option.map_eq_some_iff.mp h
  exact lt_extent_stop b o first

theorem lt_start_of_extentAt (h : extentAt b o = some e) (hlist : e.isList = true) :
    o < e.start := by
  obtain ⟨first, -, rfl⟩ := Option.map_eq_some_iff.mp h
  exact lt_extent_start hlist

/-- `_decode` in terms of the header: where there is none it raises. -/
theorem decodeAt_eq (b : Bytes) (o : ℕ) :
    decodeAt b o =
      match extentAt b o with
      | none => .error .indexError
      | some e =>
          if e.isList then
            (decodeItems b e.start e.stop).map fun items => (.list items, e.stop)
          else .ok (.bytes (slice b e.start e.stop), e.stop) := by
  rw [decodeAt, decode, extentAt]
  split
  · rename_i err herr
    split at herr
    · rename_i hnone
      cases herr
      rw [hnone]
      rfl
    · rename_i first hfirst
      rw [hfirst]
      dsimp only at herr
      split at herr
      · rename_i hlist
        split at herr
        · rename_i err' hitems
          cases herr
          simp [hlist, hitems, Except.map]
        · cases herr
      · cases herr
  · rename_i r hr
    split at hr
    · cases hr
    · rename_i first hfirst
      rw [hfirst]
      dsimp only at hr
      split at hr
      · rename_i hlist
        split at hr
        · cases hr
        · rename_i items hitems
          cases hr
          simp [hlist, hitems, Except.map]
      · rename_i hstring
        cases hr
        simp [hstring]

/-- One round of the loop. -/
theorem decodeItems_eq (b : Bytes) (cursor stop : ℕ) :
    decodeItems b cursor stop =
      if cursor < stop then
        match decodeAt b cursor with
        | .error err => .error err
        | .ok (item, next) => (decodeItems b next stop).map (item :: ·)
      else .ok [] := by
  rw [decodeItems, decodeAt]
  split
  · rcases decode b cursor with err | ⟨⟨item, next⟩, hnext⟩
    · rfl
    · dsimp only
      rcases decodeItems b next stop <;> rfl
  · rfl

theorem decodeItems_of_le (h : stop ≤ cursor) : decodeItems b cursor stop = .ok [] := by
  rw [decodeItems_eq, if_neg (Nat.not_lt_of_le h)]

/-- An item past the end of the input raises. -/
theorem decodeItems_of_length_le (h : cursor < stop) (hend : b.length ≤ cursor) :
    decodeItems b cursor stop = .error .indexError := by
  rw [decodeItems_eq, if_pos h, decodeAt_eq, extentAt_eq_none_iff.mpr hend]

/-- A string, and the items after it. -/
theorem decodeItems_of_string (h : cursor < stop) (he : extentAt b cursor = some e)
    (hstring : e.isList = false) :
    decodeItems b cursor stop =
      (decodeItems b e.stop stop).map (.bytes (slice b e.start e.stop) :: ·) := by
  rw [decodeItems_eq, if_pos h, decodeAt_eq, he]
  simp [hstring]

/-- A list, and the items after it. -/
theorem decodeItems_of_list (h : cursor < stop) (he : extentAt b cursor = some e)
    (hlist : e.isList = true) :
    decodeItems b cursor stop =
      match decodeItems b e.start e.stop with
      | .error err => .error err
      | .ok children => (decodeItems b e.stop stop).map (.list children :: ·) := by
  rw [decodeItems_eq, if_pos h, decodeAt_eq, he]
  rcases hitems : decodeItems b e.start e.stop with err | children
  · simp [hlist, hitems, Except.map]
  · simp [hlist, hitems, Except.map]

/-- Reading from a string returns exactly when reading the items after it does. -/
theorem decodeItems_string_eq_ok_iff (h : cursor < stop) (he : extentAt b cursor = some e)
    (hstring : e.isList = false) {items : List Item} :
    decodeItems b cursor stop = .ok items ↔
      ∃ rest, decodeItems b e.stop stop = .ok rest ∧
        .bytes (slice b e.start e.stop) :: rest = items := by
  rw [decodeItems_of_string h he hstring]
  cases decodeItems b e.stop stop with
  | error err => simp [Except.map]
  | ok rest => simp [Except.map]

/-- Reading from a list returns exactly when reading its items and those after it
does. -/
theorem decodeItems_list_eq_ok_iff (h : cursor < stop) (he : extentAt b cursor = some e)
    (hlist : e.isList = true) {items : List Item} :
    decodeItems b cursor stop = .ok items ↔
      ∃ children rest, decodeItems b e.start e.stop = .ok children ∧
        decodeItems b e.stop stop = .ok rest ∧ .list children :: rest = items := by
  rw [decodeItems_of_list h he hlist]
  cases decodeItems b e.start e.stop with
  | error err => simp
  | ok children =>
      cases decodeItems b e.stop stop with
      | error err => simp [Except.map]
      | ok rest => simp [Except.map]

/-- An item is returned with the end its header declares. -/
theorem next_of_decodeAt {b : Bytes} {o next : ℕ} {item : Item}
    (hdecode : decodeAt b o = .ok (item, next)) : ∃ e, extentAt b o = some e ∧ next = e.stop := by
  rw [decodeAt_eq] at hdecode
  cases he : extentAt b o with
  | none =>
      rw [he] at hdecode
      cases hdecode
  | some e =>
      refine ⟨e, rfl, ?_⟩
      rw [he] at hdecode
      dsimp only at hdecode
      split at hdecode
      · rcases hitems : decodeItems b e.start e.stop with err | items
        · rw [hitems] at hdecode
          cases hdecode
        · rw [hitems] at hdecode
          cases hdecode
          rfl
      · cases hdecode
        rfl

/-- Reading one item is the loop over an enclosure that ends inside it. -/
theorem decodeItems_succ (b : Bytes) (o : ℕ) :
    decodeItems b o (o + 1) = (decodeAt b o).map fun r => [r.1] := by
  rw [decodeItems_eq, if_pos (Nat.lt_succ_self o)]
  rcases hdecode : decodeAt b o with err | ⟨item, next⟩
  · rfl
  · obtain ⟨e, he, rfl⟩ := next_of_decodeAt hdecode
    show (decodeItems b e.stop (o + 1)).map (item :: ·) = .ok [item]
    rw [decodeItems_of_le (lt_stop_of_extentAt he)]
    rfl

end StateBenchmarks.RlpToMocks
