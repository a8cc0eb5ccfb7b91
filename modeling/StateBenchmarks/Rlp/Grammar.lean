/-
# Recursive length prefix

An RLP item is a byte string or a list of items.  A byte below `0x80` is its own
encoding; everything else is a header that states the payload's length, followed
by the payload.  `Encodes` is that grammar over sequences of items, so that a
list's payload is an encoding of its children and no mutual recursion is needed.

The grammar admits any header that states the right length, not only the
shortest one.  `encode` is the canonical writer, which picks the shortest.
-/

import StateBenchmarks.Python.Bytes

namespace StateBenchmarks.Rlp

open Python

/-- An RLP value. -/
inductive Item where
  | bytes (b : Bytes)
  | list (items : List Item)

/-- `h` states the payload length `n`: in the first byte, or in up to eight
big-endian bytes after it.  The base tells strings (`0x80`) from lists
(`0xc0`). -/
inductive Header (base n : ℕ) : Bytes → Prop
  | short (h : n ≤ 55) : Header base n [UInt8.ofNat (base + n)]
  | long (width : Bytes) (hpos : 1 ≤ width.length) (hlen : width.length ≤ 8)
      (hvalue : fromBytes width = n) :
      Header base n (UInt8.ofNat (base + 55 + width.length) :: width)

theorem Header.length_pos {base n : ℕ} {h : Bytes} (hheader : Header base n h) :
    0 < h.length := by
  cases hheader with
  | short => exact Nat.zero_lt_succ _
  | long => exact Nat.zero_lt_succ _

/-- The shortest header. -/
def header (base n : ℕ) : Bytes :=
  if n ≤ 55 then [UInt8.ofNat (base + n)]
  else UInt8.ofNat (base + 55 + (minBytes n).length) :: minBytes n

/-- The shortest header is a header, for every length eight bytes can state. -/
theorem header_isHeader (base : ℕ) {n : ℕ} (h : n < 256 ^ 8) : Header base n (header base n) := by
  unfold header
  split
  · rename_i hshort
    exact .short hshort
  · rename_i hlong
    apply Header.long
    · apply List.length_pos_iff.mpr
      exact minBytes_ne_nil fun hzero => hlong (by omega)
    · exact length_minBytes_le h
    · exact fromBytes_minBytes n

/-- The bytes are the encodings of the items, one after the other. -/
inductive Encodes : List Item → Bytes → Prop
  | nil : Encodes [] []
  | byte (x : UInt8) {items : List Item} {rest : Bytes} (hx : x.toNat < 0x80)
      (hrest : Encodes items rest) : Encodes (.bytes [x] :: items) (x :: rest)
  | bytes {h payload : Bytes} {items : List Item} {rest : Bytes}
      (hheader : Header 0x80 payload.length h) (hrest : Encodes items rest) :
      Encodes (.bytes payload :: items) (h ++ payload ++ rest)
  | list {children : List Item} {h payload : Bytes} {items : List Item} {rest : Bytes}
      (hheader : Header 0xc0 payload.length h) (hchildren : Encodes children payload)
      (hrest : Encodes items rest) :
      Encodes (.list children :: items) (h ++ payload ++ rest)

/-- Encodings of sequences can be put after one another. -/
theorem Encodes.append {items items' : List Item} {bytes bytes' : Bytes}
    (h : Encodes items bytes) (h' : Encodes items' bytes') :
    Encodes (items ++ items') (bytes ++ bytes') := by
  induction h with
  | nil => exact h'
  | byte x hx hrest ih => exact .byte x hx ih
  | bytes hheader hrest ih =>
      rw [List.append_assoc]
      exact .bytes hheader ih
  | list hheader hchildren hrest ihchildren ihrest =>
      rw [List.append_assoc]
      exact .list hheader hchildren ihrest

mutual

/-- The canonical encoding of an item. -/
def encode : Item → Bytes
  | .bytes [x] => if x.toNat < 0x80 then [x] else header 0x80 1 ++ [x]
  | .bytes b => header 0x80 b.length ++ b
  | .list items => header 0xc0 (encodeAll items).length ++ encodeAll items

/-- The canonical encodings of some items, one after the other. -/
def encodeAll : List Item → Bytes
  | [] => []
  | item :: items => encode item ++ encodeAll items

end

mutual

/-- What the writer writes is in the grammar, as long as every length in it can
be stated. -/
theorem encodes_encode (item : Item) (h : (encode item).length < 256 ^ 8) :
    Encodes [item] (encode item) := by
  match item with
  | .bytes [x] =>
      rw [encode] at h ⊢
      split
      · rename_i hx
        exact .byte x hx .nil
      · have hencodes : Encodes [.bytes [x]] (header 0x80 1 ++ [x] ++ []) :=
          .bytes (header_isHeader 0x80 (by simp)) .nil
        simpa using hencodes
  | .bytes [] =>
      have hencodes : Encodes [.bytes []] (header 0x80 0 ++ [] ++ []) :=
        .bytes (header_isHeader 0x80 (by simp)) .nil
      simpa [encode] using hencodes
  | .bytes (x :: y :: b) =>
      rw [encode, List.length_append] at h
      · have hencodes : Encodes [.bytes (x :: y :: b)]
            (header 0x80 (x :: y :: b).length ++ (x :: y :: b) ++ []) :=
          .bytes (header_isHeader 0x80 (by omega)) .nil
        simpa [encode] using hencodes
      · simp
  | .list items =>
      rw [encode, List.length_append] at h
      have hencodes := Encodes.list (header_isHeader 0xc0 (by omega))
        (encodes_encodeAll items (by omega)) .nil
      simpa [encode] using hencodes

theorem encodes_encodeAll (items : List Item) (h : (encodeAll items).length < 256 ^ 8) :
    Encodes items (encodeAll items) := by
  match items with
  | [] => exact .nil
  | item :: items =>
      rw [encodeAll, List.length_append] at h
      exact (encodes_encode item (by omega)).append (encodes_encodeAll items (by omega))

end

end StateBenchmarks.Rlp
