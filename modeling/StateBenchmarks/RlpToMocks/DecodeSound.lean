/-
# What the decoder accepts

An encoding of some items, anywhere inside the input, decodes to those items.
The converse fails: the decoder compares no declared end with anything, so a
string may run past the end of its list or of the input, and a list may end
before its last child does.

`Visits` follows the headers the way the loops do.  The decoder raises exactly
when it comes to an item that starts past the end of the input, and otherwise
what it accepted is RLP exactly when nothing it came to declares an end beyond
its enclosure.
-/

import StateBenchmarks.RlpToMocks.Decode
import Mathlib.Logic.Relation

namespace StateBenchmarks.RlpToMocks

open Python Rlp

/-- The base of the headers of lists and of strings. -/
def tag (isList : Bool) : ℕ := if isList then 0xc0 else 0x80

@[simp]
theorem tag_true : tag true = 0xc0 := rfl

@[simp]
theorem tag_false : tag false = 0x80 := rfl

variable {b : Bytes} {o cursor stop : ℕ} {e : Extent}

theorem slice_cons {first : UInt8} {k : ℕ} (hfirst : b[o]? = some first) (hk : o < k) :
    slice b o k = first :: slice b (o + 1) k := by
  obtain ⟨hlt, hget⟩ := List.getElem?_eq_some_iff.mp hfirst
  have hsplit := slice_append_slice b (Nat.le_succ o) hk
  rw [← hsplit, slice_singleton b hlt, hget]
  rfl

/-- Where the declared end is inside the input, the bytes before the payload
are a single byte's own, or a header that states the payload's length. -/
theorem header_of_extentAt (he : extentAt b o = some e) (hstop : e.stop ≤ b.length) :
    (e.isList = false ∧ e.start = o ∧ e.stop = o + 1 ∧
        ∃ x : UInt8, x.toNat < 0x80 ∧ slice b o (o + 1) = [x]) ∨
      o < e.start ∧ e.start ≤ e.stop ∧
        Header (tag e.isList) (e.stop - e.start) (slice b o e.start) := by
  obtain ⟨first, hfirst, rfl⟩ := Option.map_eq_some_iff.mp he
  have hone : slice b o (o + 1) = [first] := by
    rw [slice_cons hfirst (Nat.lt_succ_self o)]
    simp [slice]
  have hlong : ∀ k base, 1 ≤ k → k ≤ 8 → o + 1 + k ≤ b.length →
      first.toNat = base + 55 + k →
      Header base (fromBytes (slice b (o + 1) (o + 1 + k))) (slice b o (o + 1 + k)) := by
    intro k base hpos hle hin hvalue
    have hlength : (slice b (o + 1) (o + 1 + k)).length = k := by
      rw [length_slice_of_le hin]
      omega
    have hbyte : first = UInt8.ofNat (base + 55 + (slice b (o + 1) (o + 1 + k)).length) := by
      rw [hlength, ← hvalue, UInt8.ofNat_toNat]
    rw [slice_cons hfirst (by omega), hbyte]
    exact .long _ (by rwa [hlength]) (by rwa [hlength]) rfl
  have hshort : ∀ n base, n ≤ 55 → first.toNat = base + n → Header base n (slice b o (o + 1)) := by
    intro n base hle hvalue
    have hbyte : first = UInt8.ofNat (base + n) := by rw [← hvalue, UInt8.ofNat_toNat]
    rw [hone, hbyte]
    exact .short hle
  have hmax := first.toNat_lt
  unfold extent at hstop ⊢
  dsimp only at hstop ⊢
  split_ifs at hstop ⊢ with hbyte hstr hlongStr hlist <;> dsimp only at hstop ⊢
  · exact Or.inl ⟨rfl, rfl, rfl, first, hbyte, hone⟩
  · refine Or.inr ⟨Nat.lt_succ_self o, Nat.le_add_right _ _, ?_⟩
    rw [Nat.add_sub_cancel_left]
    exact hshort _ 0x80 (by omega) (by omega)
  · refine Or.inr ⟨by omega, Nat.le_add_right _ _, ?_⟩
    rw [Nat.add_sub_cancel_left]
    exact hlong _ 0x80 (by omega) (by omega) (by omega) (by omega)
  · refine Or.inr ⟨Nat.lt_succ_self o, Nat.le_add_right _ _, ?_⟩
    rw [Nat.add_sub_cancel_left]
    exact hshort _ 0xc0 (by omega) (by omega)
  · refine Or.inr ⟨by omega, Nat.le_add_right _ _, ?_⟩
    rw [Nat.add_sub_cancel_left]
    exact hlong _ 0xc0 (by omega) (by omega) (by omega) (by omega)

/-- The byte after some others. -/
theorem getElem?_append_cons (front : Bytes) (x : UInt8) (back : Bytes) :
    (front ++ x :: back)[front.length]? = some x := by
  rw [List.getElem?_append_right (Nat.le_refl _), Nat.sub_self]
  rfl

/-- A header that was written is read back, wherever it stands. -/
theorem extentAt_of_header (isList : Bool) {n : ℕ} {h : Bytes}
    (hheader : Header (tag isList) n h) (front back : Bytes) :
    extentAt (front ++ h ++ back) front.length =
      some ⟨isList, front.length + h.length, front.length + h.length + n⟩ := by
  cases hheader with
  | short hn =>
      rw [List.append_assoc, extentAt, List.singleton_append, getElem?_append_cons,
        Option.map_some, extent]
      cases isList with
      | false =>
          have hbyte : (UInt8.ofNat (tag false + n)).toNat = 0x80 + n := by
            rw [UInt8.toNat_ofNat', tag_false]
            omega
          simp only [hbyte]
          split_ifs <;> first | omega | simp
      | true =>
          have hbyte : (UInt8.ofNat (tag true + n)).toNat = 0xc0 + n := by
            rw [UInt8.toNat_ofNat', tag_true]
            omega
          simp only [hbyte]
          split_ifs <;> first | omega | simp
  | long width hpos hlen hvalue =>
      have hslice : slice (front ++ UInt8.ofNat (tag isList + 55 + width.length) :: (width ++ back))
          (front.length + 1) (front.length + 1 + width.length) = width := by
        have hmiddle := slice_middle
          (front ++ [UInt8.ofNat (tag isList + 55 + width.length)]) width back
        simpa [List.append_assoc] using hmiddle
      rw [List.append_assoc, extentAt, List.cons_append, getElem?_append_cons, Option.map_some,
        extent]
      cases isList with
      | false =>
          have hbyte : (UInt8.ofNat (tag false + 55 + width.length)).toNat =
              0xb7 + width.length := by
            rw [UInt8.toNat_ofNat', tag_false]
            omega
          simp only [hbyte, Nat.add_sub_cancel_left, hslice, hvalue]
          split_ifs <;> first | omega | simp [Nat.add_assoc, Nat.add_comm 1]
      | true =>
          have hbyte : (UInt8.ofNat (tag true + 55 + width.length)).toNat =
              0xf7 + width.length := by
            rw [UInt8.toNat_ofNat', tag_true]
            omega
          simp only [hbyte, Nat.add_sub_cancel_left, hslice, hvalue]
          split_ifs <;> first | omega | simp [Nat.add_assoc, Nat.add_comm 1]

/-- The same, next to the payload the header is for. -/
theorem extentAt_of_headed (isList : Bool) {h payload : Bytes}
    (hheader : Header (tag isList) payload.length h) (front back : Bytes) :
    extentAt (front ++ h ++ payload ++ back) front.length =
      some ⟨isList, front.length + h.length, front.length + h.length + payload.length⟩ := by
  rw [List.append_assoc]
  exact extentAt_of_header isList hheader front (payload ++ back)

/-- A single byte is read as itself. -/
theorem extentAt_of_byte {x : UInt8} (hx : x.toNat < 0x80) (front back : Bytes) :
    extentAt (front ++ x :: back) front.length =
      some ⟨false, front.length, front.length + 1⟩ := by
  rw [extentAt, getElem?_append_cons, Option.map_some, extent]
  simp [hx]

/-- From an item in an enclosure, given by its offset and the enclosure's end,
to the next item the loops come to: its first child, or the item after it. -/
inductive Next (b : Bytes) : ℕ × ℕ → ℕ × ℕ → Prop
  | child {cursor stop : ℕ} {e : Extent} (he : extentAt b cursor = some e)
      (hlist : e.isList = true) (hsome : e.start < e.stop) :
      Next b (cursor, stop) (e.start, e.stop)
  | sibling {cursor stop : ℕ} {e : Extent} (he : extentAt b cursor = some e)
      (hmore : e.stop < stop) : Next b (cursor, stop) (e.stop, stop)

/-- The items the loops come to. -/
def Visits (b : Bytes) : ℕ × ℕ → ℕ × ℕ → Prop := Relation.ReflTransGen (Next b)

/-- The item starts inside the input. -/
def Starts (b : Bytes) (p : ℕ × ℕ) : Prop := p.1 < b.length

/-- The item declares no end beyond its enclosure. -/
def Fits (b : Bytes) (p : ℕ × ℕ) : Prop := ∀ e, extentAt b p.1 = some e → e.stop ≤ p.2

theorem fits_of_extentAt (he : extentAt b cursor = some e) (hle : e.stop ≤ stop) :
    Fits b (cursor, stop) := by
  intro e' he'
  obtain rfl := Option.some_inj.mp (he.symm.trans he')
  exact hle

/-- A property of all items is one of this item, of what its payload holds, and
of what follows it. -/
theorem visits_iff {P : ℕ × ℕ → Prop} (he : extentAt b cursor = some e) :
    (∀ p, Visits b (cursor, stop) p → P p) ↔
      P (cursor, stop) ∧
        (e.isList = true → e.start < e.stop → ∀ p, Visits b (e.start, e.stop) p → P p) ∧
        (e.stop < stop → ∀ p, Visits b (e.stop, stop) p → P p) := by
  constructor
  · intro h
    refine ⟨h _ .refl, ?_, ?_⟩
    · intro hlist hsome p hp
      exact h p (Relation.ReflTransGen.head (.child he hlist hsome) hp)
    · intro hmore p hp
      exact h p (Relation.ReflTransGen.head (.sibling he hmore) hp)
  · rintro ⟨hhere, hchildren, hrest⟩ p hp
    rcases Relation.ReflTransGen.cases_head hp with rfl | ⟨q, hnext, hq⟩
    · exact hhere
    · cases hnext with
      | child he' hlist hsome =>
          obtain rfl := Option.some_inj.mp (he.symm.trans he')
          exact hchildren hlist hsome p hq
      | sibling he' hmore =>
          obtain rfl := Option.some_inj.mp (he.symm.trans he')
          exact hrest hmore p hq

/-- The loops return exactly when every item they come to starts inside the
input.  The induction is on what is left of the input after the cursor. -/
theorem decodeItems_isOk_iff (b : Bytes) (cursor stop : ℕ) :
    (∃ items, decodeItems b cursor stop = .ok items) ↔
      (cursor < stop → ∀ p, Visits b (cursor, stop) p → Starts b p) := by
  induction hleft : b.length - cursor using Nat.strong_induction_on
    generalizing cursor stop with
  | h left ih =>
      by_cases hlt : cursor < stop
      · cases he : extentAt b cursor with
        | none =>
            have hend := extentAt_eq_none_iff.mp he
            rw [decodeItems_of_length_le hlt hend]
            constructor
            · rintro ⟨items, hitems⟩
              cases hitems
            · intro h
              exact absurd (h hlt _ .refl) (Nat.not_lt_of_le hend)
        | some e =>
            have hin := lt_length_of_extentAt he
            have hstop := lt_stop_of_extentAt he
            have hrest := ih (b.length - e.stop) (by omega) e.stop stop rfl
            rw [visits_iff he]
            cases hlist : e.isList with
            | false =>
                simp only [decodeItems_string_eq_ok_iff hlt he hlist]
                constructor
                · rintro ⟨-, rest, hdecode, rfl⟩ -
                  exact ⟨hin, nofun, hrest.mp ⟨rest, hdecode⟩⟩
                · intro h
                  obtain ⟨-, -, hafter⟩ := h hlt
                  obtain ⟨rest, hdecode⟩ := hrest.mpr hafter
                  exact ⟨_, rest, hdecode, rfl⟩
            | true =>
                have hstart := lt_start_of_extentAt he hlist
                have hchildren := ih (b.length - e.start) (by omega) e.start e.stop rfl
                simp only [decodeItems_list_eq_ok_iff hlt he hlist]
                constructor
                · rintro ⟨-, children, rest, hinner, hdecode, rfl⟩ -
                  exact ⟨hin, fun _ => hchildren.mp ⟨children, hinner⟩, hrest.mp ⟨rest, hdecode⟩⟩
                · intro h
                  obtain ⟨-, hinside, hafter⟩ := h hlt
                  obtain ⟨children, hinner⟩ := hchildren.mpr (hinside trivial)
                  obtain ⟨rest, hdecode⟩ := hrest.mpr hafter
                  exact ⟨_, children, rest, hinner, hdecode, rfl⟩
      · rw [decodeItems_of_le (Nat.le_of_not_lt hlt)]
        exact ⟨fun _ h => absurd h hlt, fun _ => ⟨[], rfl⟩⟩

/-- What was decoded from an enclosure in which every declared end fits is
encoded by exactly the bytes of the enclosure. -/
theorem encodes_of_decodeItems {items : List Item} (hdecode : decodeItems b cursor stop = .ok items)
    (hle : cursor ≤ stop) (hin : stop ≤ b.length)
    (hfits : cursor < stop → ∀ p, Visits b (cursor, stop) p → Fits b p) :
    Encodes items (slice b cursor stop) := by
  induction hleft : b.length - cursor using Nat.strong_induction_on
    generalizing cursor stop items with
  | h left ih =>
      rcases Nat.lt_or_eq_of_le hle with hlt | rfl
      · cases he : extentAt b cursor with
        | none =>
            have hend := extentAt_eq_none_iff.mp he
            omega
        | some e =>
            obtain ⟨hhere, hinside, hafter⟩ := (visits_iff he).mp (hfits hlt)
            have hstop : e.stop ≤ stop := hhere e he
            have hmoved := lt_stop_of_extentAt he
            have hsplit := slice_append_slice b (Nat.le_of_lt hmoved) hstop
            rcases header_of_extentAt he (Nat.le_trans hstop hin) with
              ⟨hstring, hstart, hone, x, hx, hbyte⟩ | ⟨hstart, hpayload, hheader⟩
            · obtain ⟨rest, hrest, rfl⟩ :=
                (decodeItems_string_eq_ok_iff hlt he hstring).mp hdecode
              have hencodes := ih (b.length - e.stop) (by omega) hrest hstop hin hafter rfl
              rw [hone] at hencodes hsplit
              rw [hstart, hone, ← hsplit, hbyte]
              exact .byte x hx hencodes
            · have hlength : (slice b e.start e.stop).length = e.stop - e.start :=
                length_slice_of_le (Nat.le_trans hstop hin)
              have hbytes : slice b cursor e.start ++ slice b e.start e.stop ++
                  slice b e.stop stop = slice b cursor stop := by
                rw [slice_append_slice b (Nat.le_of_lt hstart) hpayload, hsplit]
              rw [← hlength] at hheader
              rw [← hbytes]
              cases hlist : e.isList with
              | false =>
                  obtain ⟨rest, hrest, rfl⟩ :=
                    (decodeItems_string_eq_ok_iff hlt he hlist).mp hdecode
                  rw [hlist] at hheader
                  exact .bytes hheader
                    (ih (b.length - e.stop) (by omega) hrest hstop hin hafter rfl)
              | true =>
                  obtain ⟨children, rest, hchildren, hrest, rfl⟩ :=
                    (decodeItems_list_eq_ok_iff hlt he hlist).mp hdecode
                  rw [hlist] at hheader
                  exact .list hheader
                    (ih (b.length - e.start) (by omega) hchildren hpayload
                      (Nat.le_trans hstop hin) (hinside hlist) rfl)
                    (ih (b.length - e.stop) (by omega) hrest hstop hin hafter rfl)
      · rw [decodeItems_of_le (Nat.le_refl _)] at hdecode
        cases hdecode
        rw [slice, Nat.sub_self, List.take_zero]
        exact .nil

/-- An item between its neighbours, read as a header and a payload. -/
theorem headed_layout (front h payload rest back : Bytes) :
    front ++ (h ++ payload ++ rest) ++ back = front ++ h ++ payload ++ rest ++ back ∧
      front.length + (h ++ payload ++ rest).length =
        front.length + h.length + payload.length + rest.length := by
  apply And.intro
  · simp
  · simp only [List.length_append]
    omega

/-- An encoding inside the input decodes to its items, and every end declared in
it fits. -/
theorem decodeItems_of_encodes {items : List Item} {payload : Bytes}
    (h : Encodes items payload) (front back : Bytes) :
    decodeItems (front ++ payload ++ back) front.length (front.length + payload.length) =
        .ok items ∧
      (0 < payload.length →
        ∀ p, Visits (front ++ payload ++ back)
          (front.length, front.length + payload.length) p → Fits (front ++ payload ++ back) p) := by
  induction h generalizing front back with
  | nil => exact ⟨decodeItems_of_le (Nat.le_refl _), nofun⟩
  | @byte x items rest hx hrest ih =>
      have hinput : front ++ x :: rest ++ back = front ++ [x] ++ rest ++ back := by simp
      have he : extentAt (front ++ [x] ++ rest ++ back) front.length =
          some ⟨false, front.length, front.length + 1⟩ := by
        simpa using extentAt_of_byte hx front (rest ++ back)
      obtain ⟨hdecode, hfits⟩ := ih (front ++ [x]) back
      simp only [List.length_append, List.length_singleton] at hdecode hfits
      have hstop : front.length + (x :: rest).length = front.length + 1 + rest.length := by
        rw [List.length_cons]
        omega
      rw [hinput, hstop]
      constructor
      · rw [decodeItems_of_string (by omega) he rfl, hdecode]
        have hbyte :
            slice (front ++ [x] ++ rest ++ back) front.length (front.length + 1) = [x] := by
          simpa [List.append_assoc] using slice_middle front [x] (rest ++ back)
        rw [hbyte]
        rfl
      · intro _
        rw [visits_iff he]
        refine ⟨fits_of_extentAt he (Nat.le_add_right _ _), nofun, ?_⟩
        intro hmore
        exact hfits (by simp only at hmore; omega)
  | @bytes h payload items rest hheader hrest ih =>
      obtain ⟨hinput, hstop⟩ := headed_layout front h payload rest back
      have he := extentAt_of_headed false hheader front (rest ++ back)
      have hslice := slice_middle (front ++ h) payload (rest ++ back)
      have hhead := hheader.length_pos
      obtain ⟨hdecode, hfits⟩ := ih (front ++ h ++ payload) back
      simp only [List.length_append, ← List.append_assoc] at hdecode hfits hslice he
      rw [hinput, hstop]
      constructor
      · rw [decodeItems_of_string (by omega) he rfl, hdecode, hslice]
        rfl
      · intro _
        rw [visits_iff he]
        refine ⟨fits_of_extentAt he (Nat.le_add_right _ _), nofun, ?_⟩
        intro hmore
        exact hfits (by simp only at hmore; omega)
  | @list children h payload items rest hheader hchildren hrest ihchildren ihrest =>
      obtain ⟨hinput, hstop⟩ := headed_layout front h payload rest back
      have he := extentAt_of_headed true hheader front (rest ++ back)
      have hhead := hheader.length_pos
      obtain ⟨hinner, hinside⟩ := ihchildren (front ++ h) (rest ++ back)
      obtain ⟨hdecode, hfits⟩ := ihrest (front ++ h ++ payload) back
      simp only [List.length_append, ← List.append_assoc] at hdecode hfits hinner hinside he
      rw [hinput, hstop]
      constructor
      · rw [decodeItems_of_list (by omega) he rfl, hinner, hdecode]
        rfl
      · intro _
        rw [visits_iff he]
        refine ⟨fits_of_extentAt he (Nat.le_add_right _ _), fun _ hsome => ?_, ?_⟩
        · exact hinside (by simp only at hsome; omega)
        · intro hmore
          exact hfits (by simp only at hmore; omega)

/-- The decoder comes to an item that starts past the end of the input.  The
enclosure of the one item read at the top ends right after its first byte. -/
def Starved (body : Bytes) : Prop := ∃ p, Visits body (0, 1) p ∧ ¬ Starts body p

/-- The item at the top ends where the input does, and no item inside it
declares an end beyond its enclosure. -/
def Contained (body : Bytes) : Prop :=
  (∃ e, extentAt body 0 = some e ∧ e.stop = body.length) ∧
    ∀ p, Visits body (0, body.length) p → Fits body p

/-- If decoding returns, it has used all the input, and the input is an encoding
of the item returned. -/
def AcceptsOnlyRlp (body : Bytes) : Prop :=
  ∀ item next, decodeAt body 0 = .ok (item, next) →
    next = body.length ∧ Encodes [item] body

theorem decodeAt_isOk_iff (body : Bytes) :
    (∃ r, decodeAt body 0 = .ok r) ↔ ¬ Starved body := by
  have hiff := decodeItems_isOk_iff body 0 1
  rw [decodeItems_succ] at hiff
  constructor
  · rintro ⟨r, hr⟩ ⟨p, hp, hstarts⟩
    rw [hr] at hiff
    exact hstarts (hiff.mp ⟨_, rfl⟩ Nat.zero_lt_one p hp)
  · intro hnot
    obtain ⟨items, hitems⟩ := hiff.mpr fun _ p hp => by
      by_contra hstarts
      exact hnot ⟨p, hp, hstarts⟩
    rcases hdecode : decodeAt body 0 with err | r
    · rw [hdecode] at hitems
      cases hitems
    · exact ⟨r, rfl⟩

/-- **The decoder accepts only RLP exactly where it starves or everything is
contained.** -/
theorem acceptsOnlyRlp_iff (body : Bytes) :
    AcceptsOnlyRlp body ↔ Starved body ∨ Contained body := by
  constructor
  · intro haccepts
    by_cases hstarved : Starved body
    · exact Or.inl hstarved
    · right
      obtain ⟨⟨item, next⟩, hdecode⟩ := (decodeAt_isOk_iff body).mpr hstarved
      obtain ⟨hnext, hencodes⟩ := haccepts item next hdecode
      obtain ⟨e, he, hstop⟩ := next_of_decodeAt hdecode
      refine ⟨⟨e, he, by rw [← hstop, hnext]⟩, ?_⟩
      have hpos : 0 < body.length := lt_length_of_extentAt he
      have hfits := (decodeItems_of_encodes hencodes [] []).2 hpos
      simpa using hfits
  · rintro (hstarved | ⟨⟨e, he, hstop⟩, hfits⟩) item next hdecode
    · exact absurd hstarved ((decodeAt_isOk_iff body).mp ⟨_, hdecode⟩)
    · obtain ⟨e', he', rfl⟩ := next_of_decodeAt hdecode
      obtain rfl := Option.some_inj.mp (he.symm.trans he')
      refine ⟨hstop, ?_⟩
      have hitems : decodeItems body 0 body.length = .ok [item] := by
        rw [decodeItems_eq, if_pos (lt_length_of_extentAt he), hdecode]
        show (decodeItems body e.stop body.length).map (item :: ·) = .ok [item]
        rw [decodeItems_of_le (Nat.le_of_eq hstop.symm)]
        rfl
      have hencodes := encodes_of_decodeItems hitems (Nat.zero_le _) (Nat.le_refl _)
        fun _ => hfits
      rwa [slice_self] at hencodes

/-- A list of one empty string, and one byte more. -/
def trailingByte : Bytes := [0xc1, 0x80, 0x00]

/-- The byte after the list goes unnoticed. -/
theorem trailingByte_not_acceptsOnlyRlp : ¬ AcceptsOnlyRlp trailingByte := by
  intro haccepts
  have hinner : decodeItems trailingByte 1 2 = .ok [.bytes []] := by
    rw [decodeItems_of_string (by decide) (e := ⟨false, 2, 2⟩) (by decide) rfl,
      decodeItems_of_le (Nat.le_refl _)]
    rfl
  have hdecode : decodeAt trailingByte 0 = .ok (.list [.bytes []], 2) := by
    rw [decodeAt_eq, show extentAt trailingByte 0 = some ⟨true, 1, 2⟩ by decide]
    simp [hinner, Except.map]
  have hlength : trailingByte.length = 3 := rfl
  obtain ⟨hnext, -⟩ := haccepts _ _ hdecode
  omega

end StateBenchmarks.RlpToMocks
