/-
# Reading back what was written

`json.loads` undoes `json.dumps`, in every layout.  The text of a value is read to
its last character and no further, whatever follows it, so that the texts of the
items of a container are read one by one.  What may follow a number is all that
matters there: `Stops` says that it does not go on.
-/

import StateBenchmarks.Python.JsonText

namespace StateBenchmarks.Python

namespace JsonText

/-- The white space of the layout is that of JSON. -/
structure Layout.Blank (layout : Layout) : Prop where
  first : ∀ level, ∀ c ∈ layout.first level, isBlank c = true
  next : ∀ level, ∀ c ∈ layout.next level, isBlank c = true
  last : ∀ level, ∀ c ∈ layout.last level, isBlank c = true
  colon : ∀ c ∈ layout.colon, isBlank c = true

theorem blank_standard : Layout.standard.Blank where
  first _ _ h := by cases h
  next _ _ h := by rw [List.mem_singleton.mp h]; rfl
  last _ _ h := by cases h
  colon _ h := by rw [List.mem_singleton.mp h]; rfl

theorem blank_compact : Layout.compact.Blank where
  first _ _ h := by cases h
  next _ _ h := by cases h
  last _ _ h := by cases h
  colon _ h := by cases h

theorem isBlank_newline (n : ℕ) : ∀ c ∈ '\n' :: List.replicate n ' ', isBlank c = true := by
  intro c hc
  rcases List.mem_cons.mp hc with rfl | hc
  · rfl
  · rw [List.eq_of_mem_replicate hc]
    rfl

theorem blank_indented (width : ℕ) : (Layout.indented width).Blank where
  first _ := isBlank_newline _
  next _ := isBlank_newline _
  last _ := isBlank_newline _
  colon _ h := by rw [List.mem_singleton.mp h]; rfl

/-- White space is skipped, up to something else. -/
theorem skip_append {blanks : List Char} (h : ∀ c ∈ blanks, isBlank c = true) (cs : List Char) :
    skip (blanks ++ cs) = skip cs := by
  induction blanks with
  | nil => rfl
  | cons c rest ih =>
      rw [List.forall_mem_cons] at h
      rw [skip, List.cons_append, List.dropWhile_cons_of_pos h.1]
      exact ih h.2

theorem skip_cons {c : Char} (h : isBlank c = false) (rest : List Char) :
    skip (c :: rest) = c :: rest := by
  rw [skip, List.dropWhile_cons_of_neg (by simp [h])]

theorem readHex4_hex4 {n : ℕ} (h : n < 65536) (rest : List Char) :
    readHex4 (hex4 n ++ rest) = some (n, rest) := by
  have hlt : ∀ k, k % 16 < 16 := fun k => Nat.mod_lt k (by decide)
  simp only [hex4, List.cons_append, List.nil_append, readHex4, hexVal?_hexChar (hlt _)]
  show some (_, rest) = some (n, rest)
  congr 2
  omega

theorem toNat_lt (c : Char) : c.toNat < 0x110000 := by
  rcases c.valid with h | h
  · exact lt_of_lt_of_le h (by decide)
  · exact h.2

/-- A character is no surrogate. -/
theorem not_surrogate (c : Char) : ¬ (0xd800 ≤ c.toNat ∧ c.toNat < 0xe000) := by
  rintro ⟨hle, hlt⟩
  rcases c.valid with h | h
  · exact absurd (lt_of_le_of_lt hle h) (by decide)
  · exact absurd (Nat.lt_of_lt_of_le h.1 (Nat.le_of_lt_succ hlt)) (by decide)

/-- A character of the first plane is read back from its escape. -/
theorem readEscape_unit {c : Char} (h : c.toNat < 0x10000) (rest : List Char) :
    readEscape ('u' :: (hex4 c.toNat ++ rest)) = some (c, rest) := by
  have hsurrogate := not_surrogate c
  rw [readEscape, readUnicode, readHex4_hex4 h]
  simp only [Option.bind_eq_bind, Option.bind_some]
  rw [if_neg (by omega), if_neg (by omega), Char.ofNat_toNat]
  rfl

theorem readUnicode_pair {high low : ℕ} (hhigh : 0xd800 ≤ high ∧ high < 0xdc00)
    (hlow : 0xdc00 ≤ low ∧ low < 0xe000) (rest : List Char) :
    readUnicode (hex4 high ++ (unicodeEscape low ++ rest)) =
      some (Char.ofNat (0x10000 + (high - 0xd800) * 1024 + (low - 0xdc00)), rest) := by
  rw [readUnicode, readHex4_hex4 (by omega)]
  simp only [Option.bind_eq_bind, Option.bind_some]
  rw [if_pos hhigh, unicodeEscape, List.cons_append, List.cons_append, readLow,
    readHex4_hex4 (by omega)]
  simp only [Option.bind_eq_bind, Option.bind_some]
  rw [if_pos hlow]
  rfl

/-- One beyond it is read back from its surrogate pair. -/
theorem readEscape_pair {c : Char} (h : ¬ c.toNat < 0x10000) (rest : List Char) :
    readEscape ('u' :: (hex4 (0xd800 + (c.toNat - 0x10000) / 1024) ++
        (unicodeEscape (0xdc00 + (c.toNat - 0x10000) % 1024) ++ rest))) = some (c, rest) := by
  have hlt := toNat_lt c
  obtain ⟨n, hn⟩ := Nat.exists_eq_add_of_le (Nat.le_of_not_lt h)
  rw [hn, Nat.add_sub_cancel_left, readEscape, readUnicode_pair ⟨by omega, by omega⟩
    ⟨by omega, by omega⟩, Nat.add_sub_cancel_left, Nat.add_sub_cancel_left, Nat.add_assoc,
    Nat.div_add_mod', ← hn, Char.ofNat_toNat]

/-- One character of a string is read back. -/
theorem readChars_escaped (c : Char) (rest : List Char) (fuel : ℕ) :
    readChars (fuel + 1) (escaped c ++ rest) =
      (readChars fuel rest).bind fun read => some (c :: read.1, read.2) := by
  have hescape : ∀ {cs : List Char}, readEscape (cs ++ rest) = some (c, rest) →
      readChars (fuel + 1) ('\\' :: cs ++ rest) =
        (readChars fuel rest).bind fun read => some (c :: read.1, read.2) := by
    intro cs hread
    rw [List.cons_append, readChars, if_neg (by decide), if_pos rfl, hread]
    rfl
  unfold escaped
  split_ifs with hplain hquote hslash hnewline hreturn htab hback hfeed hunit
  · simp only [isPlain, Bool.and_eq_true, decide_eq_true_eq, bne_iff_ne] at hplain
    obtain ⟨⟨⟨hlow, -⟩, hquote⟩, hslash⟩ := hplain
    rw [List.cons_append, List.nil_append, readChars, if_neg hquote, if_neg hslash,
      if_neg (by omega)]
    rfl
  · exact hescape (by rw [hquote]; rfl)
  · exact hescape (by rw [hslash]; rfl)
  · exact hescape (by rw [hnewline]; rfl)
  · exact hescape (by rw [hreturn]; rfl)
  · exact hescape (by rw [htab]; rfl)
  · exact hescape (by rw [hback]; rfl)
  · exact hescape (by rw [hfeed]; rfl)
  · exact hescape (readEscape_unit hunit rest)
  · rw [List.append_assoc]
    have hpair : readEscape ('u' :: hex4 (0xd800 + (c.toNat - 0x10000) / 1024) ++
        unicodeEscape (0xdc00 + (c.toNat - 0x10000) % 1024) ++ rest) = some (c, rest) := by
      rw [List.cons_append, List.cons_append, List.append_assoc]
      exact readEscape_pair hunit rest
    simpa [unicodeEscape] using hescape hpair

theorem escaped_ne_nil (c : Char) : escaped c ≠ [] := by
  unfold escaped
  split_ifs <;> simp [unicodeEscape]

/-- The characters of a string are read back, up to the mark that closes it. -/
theorem readChars_closed (cs rest : List Char) {fuel : ℕ} (h : (closed cs).length ≤ fuel) :
    readChars fuel (closed cs ++ rest) = some (cs, rest) := by
  induction cs generalizing fuel with
  | nil =>
      cases fuel with
      | zero => simp [closed] at h
      | succ fuel => rfl
  | cons c cs ih =>
      have hclosed : closed (c :: cs) = escaped c ++ closed cs := by
        rw [closed, List.flatMap_cons, List.append_assoc]
        rfl
      have hpos := List.length_pos_iff.mpr (escaped_ne_nil c)
      rw [hclosed, List.length_append] at h
      cases fuel with
      | zero => omega
      | succ fuel =>
          rw [hclosed, List.append_assoc, readChars_escaped, ih (by omega)]
          rfl

theorem readString_closed (s : String) (rest : List Char) :
    readString (closed s.toList ++ rest) = some (s, rest) := by
  rw [readString, readChars_closed _ _ (by simp)]
  show some (String.ofList s.toList, rest) = _
  rw [String.ofList_toList]

/-- A number ends before this text. -/
def Stops (rest : List Char) : Prop :=
  ∀ c ∈ rest.head?, c.isDigit = false ∧ c ≠ '.' ∧ c ≠ 'e' ∧ c ≠ 'E'

theorem isDigit_digitChar {d : ℕ} (h : d < 10) : (Nat.digitChar d).isDigit = true := by
  have hall : ∀ k : Fin 10, (Nat.digitChar k).isDigit = true := by decide
  exact hall ⟨d, h⟩

theorem toNat_digitChar {d : ℕ} (h : d < 10) : (Nat.digitChar d).toNat - 48 = d := by
  have hall : ∀ k : Fin 10, (Nat.digitChar k).toNat - 48 = k.val := by decide
  exact hall ⟨d, h⟩

theorem mem_decimalDigits {n : ℕ} {c : Char} (h : c ∈ decimalDigits n) :
    ∃ d < 10, c = Nat.digitChar d := by
  unfold decimalDigits at h
  split_ifs at h with hn
  · exact ⟨0, by decide, List.mem_singleton.mp h⟩
  · obtain ⟨d, hd, rfl⟩ := List.mem_map.mp h
    exact ⟨d, Nat.digits_lt_base (by decide) (List.mem_reverse.mp hd), rfl⟩

theorem isDigit_decimalDigits {n : ℕ} : ∀ c ∈ decimalDigits n, c.isDigit = true := by
  intro c hc
  obtain ⟨d, hd, rfl⟩ := mem_decimalDigits hc
  exact isDigit_digitChar hd

theorem decimalDigits_ne_nil (n : ℕ) : decimalDigits n ≠ [] := by
  unfold decimalDigits
  split_ifs with hn <;> simp [hn, Nat.digits_ne_nil_iff_ne_zero]

/-- No leading zero, except the one digit of zero. -/
theorem head_decimalDigits {n : ℕ} (hn : n ≠ 0) : (decimalDigits n).head? ≠ some '0' := by
  have hne : Nat.digits 10 n ≠ [] := Nat.digits_ne_nil_iff_ne_zero.mpr hn
  have hlt : (Nat.digits 10 n).getLast hne < 10 :=
    Nat.digits_lt_base (by decide) (List.getLast_mem hne)
  rw [decimalDigits, if_neg hn, List.head?_map, List.head?_reverse,
    List.getLast?_eq_getLast_of_ne_nil hne, Option.map_some, ne_eq, Option.some.injEq]
  intro hzero
  have hvalue := toNat_digitChar hlt
  rw [hzero] at hvalue
  exact Nat.getLast_digit_ne_zero 10 hn hvalue.symm

theorem foldl_digitChar (acc : ℕ) (ds : List ℕ) (hds : ∀ d ∈ ds, d < 10) :
    (ds.map Nat.digitChar).foldl (fun n c => n * 10 + (c.toNat - 48)) acc =
      acc * 10 ^ ds.length + Nat.ofDigits 10 ds.reverse := by
  induction ds generalizing acc with
  | nil => simp
  | cons d ds ih =>
      rw [List.forall_mem_cons] at hds
      rw [List.map_cons, List.foldl_cons, ih _ hds.2, toNat_digitChar hds.1, List.reverse_cons,
        Nat.ofDigits_append, Nat.ofDigits_singleton, List.length_reverse, List.length_cons]
      ring

theorem decimalValue_decimalDigits (n : ℕ) : decimalValue (decimalDigits n) = n := by
  unfold decimalDigits
  split_ifs with hn
  · rw [hn]
    rfl
  · rw [decimalValue, foldl_digitChar _ _ fun d hd =>
      Nat.digits_lt_base (by decide) (List.mem_reverse.mp hd), List.reverse_reverse,
      Nat.ofDigits_digits, Nat.zero_mul, Nat.zero_add]

theorem takeWhile_digits {ds rest : List Char} (hds : ∀ c ∈ ds, c.isDigit = true)
    (hrest : Stops rest) : (ds ++ rest).takeWhile Char.isDigit = ds := by
  rw [List.takeWhile_append_of_pos hds]
  cases rest with
  | nil => rw [List.takeWhile_nil, List.append_nil]
  | cons c rest =>
      rw [List.takeWhile_cons_of_neg (by simp [(hrest c rfl).1]), List.append_nil]

theorem dropWhile_digits {ds rest : List Char} (hds : ∀ c ∈ ds, c.isDigit = true)
    (hrest : Stops rest) : (ds ++ rest).dropWhile Char.isDigit = rest := by
  rw [List.dropWhile_append_of_pos hds]
  cases rest with
  | nil => rfl
  | cons c rest => rw [List.dropWhile_cons_of_neg (by simp [(hrest c rfl).1])]

theorem readInteger_decimalDigits (n : ℕ) {rest : List Char} (hrest : Stops rest) :
    readInteger (decimalDigits n ++ rest) = some (decimalDigits n, rest) := by
  by_cases hn : n = 0
  · rw [hn]
    rfl
  · have hhead := head_decimalDigits hn
    have htake := takeWhile_digits (isDigit_decimalDigits (n := n)) hrest
    have hdrop := dropWhile_digits (isDigit_decimalDigits (n := n)) hrest
    cases hdigits : decimalDigits n with
    | nil => exact absurd hdigits (decimalDigits_ne_nil n)
    | cons c ds =>
        rw [hdigits] at hhead htake hdrop
        have hc : c ≠ '0' := fun h => hhead (by rw [h]; rfl)
        rw [List.cons_append] at htake hdrop ⊢
        rw [readInteger.eq_def]
        split
        · rename_i heq
          exact absurd (List.cons.inj heq).1 hc
        · dsimp only
          rw [htake, hdrop, if_neg (by simp)]

theorem readFraction_of_stops {rest : List Char} (h : Stops rest) :
    readFraction rest = ([], rest) := by
  cases rest with
  | nil => rfl
  | cons c rest =>
      rw [readFraction.eq_def]
      split
      · rename_i heq
        exact absurd (List.cons.inj heq).1 (h c rfl).2.1
      · rfl

theorem readExponent_of_stops {rest : List Char} (h : Stops rest) :
    readExponent rest = ([], rest) := by
  cases rest with
  | nil => rfl
  | cons c rest =>
      obtain ⟨-, -, he, hE⟩ := h c rfl
      rw [readExponent]
      exact if_neg fun hexp => hexp.1.elim he hE

variable (floatOf : List Char → ℚ)

theorem readMagnitude_decimalDigits (negative : Bool) (n : ℕ) {rest : List Char}
    (h : Stops rest) :
    readMagnitude floatOf negative (decimalDigits n ++ rest) =
      some (.int (if negative then -(n : ℤ) else n), rest) := by
  rw [readMagnitude, readInteger_decimalDigits n h]
  simp only [Option.bind_eq_bind, Option.bind_some, readFraction_of_stops h,
    readExponent_of_stops h, and_self, if_true, decimalValue_decimalDigits]
  rfl

/-- An integer is read back. -/
theorem readNumber_intText (n : ℤ) {rest : List Char} (h : Stops rest) :
    readNumber floatOf (intText n ++ rest) = some (.int n, rest) := by
  cases n with
  | negSucc n => exact readMagnitude_decimalDigits floatOf true (n + 1) h
  | ofNat n =>
      have hread := readMagnitude_decimalDigits floatOf false n h
      rw [intText, readNumber.eq_def]
      split
      · rename_i heq
        cases hdigits : decimalDigits n with
        | nil => exact absurd hdigits (decimalDigits_ne_nil n)
        | cons c ds =>
            rw [hdigits, List.cons_append] at heq
            have hminus := isDigit_decimalDigits (n := n) c (by rw [hdigits]; simp)
            rw [(List.cons.inj heq).1] at hminus
            cases hminus
      · exact hread

/-! ## Values -/

variable (layout : Layout) (floatText : ℚ → List Char)

/-- The text begins like a number. -/
def BeginsNumber (cs : List Char) : Prop :=
  ∃ c rest, cs = c :: rest ∧ (c = '-' ∨ c.isDigit = true)

/-- The text of a float begins like a number, and its value is the float. -/
structure ReadsBack (q : ℚ) : Prop where
  head : BeginsNumber (floatText q)
  read : ∀ rest, Stops rest → readNumber floatOf (floatText q ++ rest) = some (.float q, rest)

mutual

/-- A value as a program has it: its dictionaries have each key once, and its floats are
as `ok` says. -/
def Proper (ok : ℚ → Prop) : Json → Prop
  | .float q => ok q
  | .arr items => ProperItems ok items
  | .obj fields => (fields.map Prod.fst).Nodup ∧ ProperFields ok fields
  | .null | .bool _ | .int _ | .str _ => True

def ProperItems (ok : ℚ → Prop) : List Json → Prop
  | [] => True
  | x :: xs => Proper ok x ∧ ProperItems ok xs

def ProperFields (ok : ℚ → Prop) : List (String × Json) → Prop
  | [] => True
  | (_, v) :: fields => Proper ok v ∧ ProperFields ok fields

end

mutual

theorem Proper.mono {ok ok' : ℚ → Prop} (hok : ∀ q, ok q → ok' q) :
    ∀ {v : Json}, Proper ok v → Proper ok' v
  | .null, _ | .bool _, _ | .int _, _ | .str _, _ => trivial
  | .float q, h => hok q h
  | .arr _, h => ProperItems.mono hok h
  | .obj _, h => ⟨h.1, ProperFields.mono hok h.2⟩

theorem ProperItems.mono {ok ok' : ℚ → Prop} (hok : ∀ q, ok q → ok' q) :
    ∀ {xs : List Json}, ProperItems ok xs → ProperItems ok' xs
  | [], _ => trivial
  | _ :: _, h => ⟨Proper.mono hok h.1, ProperItems.mono hok h.2⟩

theorem ProperFields.mono {ok ok' : ℚ → Prop} (hok : ∀ q, ok q → ok' q) :
    ∀ {fields : List (String × Json)}, ProperFields ok fields → ProperFields ok' fields
  | [], _ => trivial
  | _ :: _, h => ⟨Proper.mono hok h.1, ProperFields.mono hok h.2⟩

end

theorem properItems_iff {ok : ℚ → Prop} {xs : List Json} :
    ProperItems ok xs ↔ ∀ x ∈ xs, Proper ok x := by
  induction xs with
  | nil => simp [ProperItems]
  | cons x xs ih => simp [ProperItems, ih]

theorem properFields_iff {ok : ℚ → Prop} {fields : List (String × Json)} :
    ProperFields ok fields ↔ ∀ field ∈ fields, Proper ok field.2 := by
  induction fields with
  | nil => simp [ProperFields]
  | cons field fields ih => simp [ProperFields, ih]

theorem proper_set {ok : ℚ → Prop} {d : Dict Json} (hd : Proper ok (.obj d)) (key : String)
    {v : Json} (hv : Proper ok v) : Proper ok (.obj (d.set key v)) := by
  refine ⟨Dict.nodup_set hd.1 key v, properFields_iff.mpr ?_⟩
  intro field hfield
  have hother := properFields_iff.mp hd.2
  unfold Dict.set at hfield
  split_ifs at hfield
  · obtain ⟨entry, hentry, rfl⟩ := List.mem_map.mp hfield
    split_ifs
    · exact hv
    · exact hother entry hentry
  · cases List.mem_append.mp hfield with
    | inl hfield => exact hother field hfield
    | inr hfield =>
        rw [List.mem_singleton.mp hfield]
        exact hv

theorem proper_update {ok : ℚ → Prop} {d entries : Dict Json} (hd : Proper ok (.obj d))
    (h : ∀ entry ∈ entries, Proper ok entry.2) : Proper ok (.obj (d.update entries)) := by
  induction entries generalizing d with
  | nil => exact hd
  | cons entry entries ih =>
      rw [List.forall_mem_cons] at h
      exact ih (proper_set hd entry.1 h.1) h.2

/-- Values whose floats are read back. -/
abbrev Readable (v : Json) : Prop := Proper (ReadsBack floatOf floatText) v

abbrev ReadableItems (xs : List Json) : Prop := ProperItems (ReadsBack floatOf floatText) xs

abbrev ReadableFields (fields : List (String × Json)) : Prop :=
  ProperFields (ReadsBack floatOf floatText) fields

variable {floatOf layout floatText}

/-- A dictionary made of distinct pairs is these pairs. -/
theorem update_of_nodup {front fields : Dict Json} (h : ((front ++ fields).map Prod.fst).Nodup) :
    Dict.update front fields = front ++ fields := by
  induction fields generalizing front with
  | nil => simp [Dict.update]
  | cons field rest ih =>
      have hnot : field.1 ∉ front.map Prod.fst := by
        rw [List.map_append, List.map_cons, List.nodup_append] at h
        intro hmem
        exact h.2.2 _ hmem _ List.mem_cons_self rfl
      rw [Dict.update, List.foldl_cons, Dict.set_of_not_mem hnot, ← Dict.update,
        ih (by simpa using h)]
      simp

theorem beginsNumber_intText (n : ℤ) : BeginsNumber (intText n) := by
  cases n with
  | negSucc n => exact ⟨_, _, rfl, Or.inl rfl⟩
  | ofNat n =>
      cases hdigits : decimalDigits n with
      | nil => exact absurd hdigits (decimalDigits_ne_nil n)
      | cons c ds =>
          exact ⟨c, ds, hdigits, Or.inr (isDigit_decimalDigits c (by rw [hdigits]; simp))⟩

/-- What begins like a number is read as one. -/
theorem readValue_number {cs : List Char} (h : BeginsNumber cs) (rest : List Char) (fuel : ℕ) :
    readValue floatOf (fuel + 1) (cs ++ rest) = readNumber floatOf (cs ++ rest) := by
  obtain ⟨c, cs, rfl, hc⟩ := h
  have hother : ∀ {d : Char} {tail tail' : List Char}, c :: tail = d :: tail' →
      d ≠ '-' → d.isDigit = false → False := by
    intro d tail tail' heq hminus hdigit
    rw [(List.cons.inj heq).1] at hc
    exact hc.elim hminus fun h => by rw [h] at hdigit; cases hdigit
  rw [List.cons_append, readValue.eq_def]
  dsimp only
  split <;> first | rfl | (rename_i heq; exact (hother heq (by decide) (by decide)).elim)

variable (layout) in
/-- The first character of the text of a value is neither white space nor the end of a list. -/
theorem exists_dump_eq_cons {v : Json} (h : Readable floatOf floatText v) (level : ℕ) :
    ∃ c rest, dump layout floatText level v = c :: rest ∧ isBlank c = false ∧ c ≠ ']' := by
  have hnumber : ∀ {cs : List Char}, BeginsNumber cs →
      ∃ c rest, cs = c :: rest ∧ isBlank c = false ∧ c ≠ ']' := by
    rintro _ ⟨c, rest, rfl, hc⟩
    refine ⟨c, rest, rfl, ?_, ?_⟩
    · rcases hc with rfl | hc
      · rfl
      · simp only [isBlank, Bool.or_eq_false_iff, beq_eq_false_iff_ne]
        refine ⟨⟨⟨?_, ?_⟩, ?_⟩, ?_⟩ <;> rintro rfl <;> cases hc
    · rintro rfl
      rcases hc with hc | hc <;> cases hc
  cases v with
  | null => exact ⟨_, _, rfl, rfl, by decide⟩
  | bool b => cases b <;> exact ⟨_, _, rfl, rfl, by decide⟩
  | int n => exact hnumber (beginsNumber_intText n)
  | float q => exact hnumber h.head
  | str s => exact ⟨_, _, rfl, rfl, by decide⟩
  | arr items => cases items <;> exact ⟨_, _, rfl, rfl, by decide⟩
  | obj fields => cases fields <;> exact ⟨_, _, rfl, rfl, by decide⟩

variable (layout) in
theorem dump_length_pos {v : Json} (h : Readable floatOf floatText v) (level : ℕ) :
    0 < (dump layout floatText level v).length := by
  obtain ⟨c, rest, heq, -⟩ := exists_dump_eq_cons layout h level
  rw [heq]
  exact Nat.succ_pos _

theorem stops_singleton {c : Char} (h : c.isDigit = false ∧ c ≠ '.' ∧ c ≠ 'e' ∧ c ≠ 'E') :
    Stops [c] := by
  intro d hd
  obtain rfl : c = d := Option.some_inj.mp hd
  exact h

theorem stops_of_blank {blanks : List Char} (h : ∀ c ∈ blanks, isBlank c = true) {c : Char}
    (hc : Stops [c]) (rest : List Char) : Stops (blanks ++ c :: rest) := by
  intro d hd
  cases blanks with
  | nil => exact hc d hd
  | cons b blanks =>
      obtain rfl : b = d := Option.some_inj.mp hd
      have hb := h b List.mem_cons_self
      simp only [isBlank, Bool.or_eq_true, beq_iff_eq] at hb
      rcases hb with ((rfl | rfl) | rfl) | rfl <;> decide

theorem stops_dumpItems (hblank : layout.Blank) (level : ℕ) (xs : List Json) (rest : List Char) :
    Stops (dumpItems layout floatText level xs ++ rest) := by
  cases xs with
  | nil =>
      rw [dumpItems, List.append_assoc]
      exact stops_of_blank (hblank.last level) (stops_singleton (by decide)) _
  | cons x xs =>
      intro c hc
      obtain rfl : ',' = c := Option.some_inj.mp hc
      decide

theorem stops_dumpFields (hblank : layout.Blank) (level : ℕ) (fields : List (String × Json))
    (rest : List Char) : Stops (dumpFields layout floatText level fields ++ rest) := by
  cases fields with
  | nil =>
      rw [dumpFields, List.append_assoc]
      exact stops_of_blank (hblank.last level) (stops_singleton (by decide)) _
  | cons field fields =>
      intro c hc
      obtain rfl : ',' = c := Option.some_inj.mp hc
      decide

/-- White space before a value is skipped, and no more. -/
theorem skip_dump {v : Json} (h : Readable floatOf floatText v) (level : ℕ) {blanks : List Char}
    (hblanks : ∀ c ∈ blanks, isBlank c = true) (rest : List Char) :
    skip (blanks ++ (dump layout floatText level v ++ rest)) =
      dump layout floatText level v ++ rest := by
  obtain ⟨c, cs, heq, hblank, -⟩ := exists_dump_eq_cons layout h level
  rw [skip_append hblanks, heq, List.cons_append, skip_cons hblank]

mutual

/-- A value is read up to the end of its text. -/
theorem readValue_dump (hblank : layout.Blank) : ∀ {v : Json}, Readable floatOf floatText v →
    ∀ (level : ℕ) {fuel : ℕ} {rest : List Char}, (dump layout floatText level v).length ≤ fuel →
      Stops rest →
      readValue floatOf fuel (dump layout floatText level v ++ rest) = some (v, rest)
  | v, h, level, 0, rest, hfuel, _ => by
      have hpos := dump_length_pos layout h level
      omega
  | .null, _, _, _ + 1, _, _, _ => rfl
  | .bool true, _, _, _ + 1, _, _, _ => rfl
  | .bool false, _, _, _ + 1, _, _, _ => rfl
  | .int n, _, level, fuel + 1, rest, _, hrest => by
      rw [dump, readValue_number (beginsNumber_intText n)]
      exact readNumber_intText floatOf n hrest
  | .float q, h, level, fuel + 1, rest, _, hrest => by
      rw [dump, readValue_number h.head]
      exact h.read rest hrest
  | .str s, _, level, fuel + 1, rest, _, _ => by
      rw [dump, quoted, List.cons_append, readValue, readString_closed]
      rfl
  | .arr [], _, _, _ + 1, _, _, _ => rfl
  | .obj [], _, _, _ + 1, _, _, _ => rfl
  | .arr (x :: xs), h, level, fuel + 1, rest, hfuel, _ => by
      have hitems : readItems floatOf fuel (dump layout floatText (level + 1) x ++
          (dumpItems layout floatText (level + 1) xs ++ rest)) = some (x :: xs, rest) := by
        apply readItems_dump hblank h (level + 1)
        simp only [dump, List.length_append, List.length_cons] at hfuel
        omega
      obtain ⟨c, cs, heq, -, hne⟩ := exists_dump_eq_cons layout h.1 (level + 1)
      simp only [dump, List.cons_append, List.append_assoc] at hitems ⊢
      rw [readValue, skip_dump h.1 (level + 1) (hblank.first _)]
      rw [heq, List.cons_append] at hitems ⊢
      split
      · rename_i hclose
        exact absurd (List.cons.inj hclose).1 hne
      · rw [hitems]
        rfl
  | .obj ((key, v) :: fields), h, level, fuel + 1, rest, hfuel, _ => by
      have hfields : readFields floatOf fuel (quoted key ++ ':' :: (layout.colon ++
          (dump layout floatText (level + 1) v ++
            (dumpFields layout floatText (level + 1) fields ++ rest)))) =
          some ((key, v) :: fields, rest) := by
        apply readFields_dump hblank h.2 key (level + 1)
        simp only [dump, List.length_append, List.length_cons] at hfuel
        omega
      simp only [dump, quoted, List.cons_append, List.append_assoc] at hfields ⊢
      rw [readValue, skip_append (hblank.first _), skip_cons (by decide)]
      split
      · rename_i hclose
        exact absurd (List.cons.inj hclose).1 (by decide)
      · rw [hfields]
        have hupdate : Dict.update [] ((key, v) :: fields) = (key, v) :: fields :=
          update_of_nodup h.1
        simp only [Option.bind_eq_bind, Option.bind_some, hupdate]
        rfl

/-- The items of a list are read up to its end. -/
theorem readItems_dump (hblank : layout.Blank) : ∀ {x : Json} {xs : List Json},
    ReadableItems floatOf floatText (x :: xs) →
    ∀ (level : ℕ) {fuel : ℕ} {rest : List Char},
      (dump layout floatText level x).length + (dumpItems layout floatText level xs).length ≤ fuel →
      readItems floatOf fuel
          (dump layout floatText level x ++ (dumpItems layout floatText level xs ++ rest)) =
        some (x :: xs, rest)
  | x, xs, h, level, 0, rest, hfuel => by
      have hpos := dump_length_pos layout h.1 level
      omega
  | x, [], h, level, fuel + 1, rest, hfuel => by
      rw [readItems, readValue_dump hblank h.1 level (by
        simp only [dumpItems, List.length_append, List.length_cons] at hfuel
        omega) (stops_dumpItems hblank level [] rest)]
      simp only [Option.bind_eq_bind, Option.bind_some, dumpItems, List.append_assoc,
        skip_append (hblank.last level), List.cons_append, List.nil_append]
      rw [skip_cons (by decide)]
      rfl
  | x, y :: ys, h, level, fuel + 1, rest, hfuel => by
      simp only [dumpItems, List.length_append, List.length_cons] at hfuel
      rw [readItems, readValue_dump hblank h.1 level (by omega)
        (stops_dumpItems hblank level (y :: ys) rest)]
      simp only [Option.bind_eq_bind, Option.bind_some, dumpItems, List.append_assoc,
        List.cons_append]
      rw [skip_cons (by decide)]
      simp only [skip_dump h.2.1 level (hblank.next level)]
      rw [readItems_dump hblank h.2 level (by omega)]
      rfl

/-- The fields of an object are read up to its end. -/
theorem readFields_dump (hblank : layout.Blank) : ∀ {v : Json} {fields : List (String × Json)},
    Readable floatOf floatText v ∧ ReadableFields floatOf floatText fields →
    ∀ (key : String) (level : ℕ) {fuel : ℕ} {rest : List Char},
      (quoted key).length + layout.colon.length + (dump layout floatText level v).length +
        (dumpFields layout floatText level fields).length ≤ fuel →
      readFields floatOf fuel
          (quoted key ++ ':' :: (layout.colon ++ (dump layout floatText level v ++
            (dumpFields layout floatText level fields ++ rest)))) =
        some ((key, v) :: fields, rest)
  | v, _, h, key, level, 0, rest, hfuel => by
      have hpos := dump_length_pos layout h.1 level
      omega
  | v, [], h, key, level, fuel + 1, rest, hfuel => by
      simp only [dumpFields, List.length_append, List.length_cons] at hfuel
      rw [quoted, List.cons_append, readFields, readString_closed]
      simp only [Option.bind_eq_bind, Option.bind_some]
      rw [skip_cons (by decide)]
      simp only [skip_dump h.1 level hblank.colon]
      rw [readValue_dump hblank h.1 level (by omega) (stops_dumpFields hblank level [] rest)]
      simp only [Option.bind_some, dumpFields, List.append_assoc, skip_append (hblank.last level),
        List.cons_append, List.nil_append]
      rw [skip_cons (by decide)]
      rfl
  | v, (other, w) :: fields, h, key, level, fuel + 1, rest, hfuel => by
      simp only [dumpFields, List.length_append, List.length_cons] at hfuel
      rw [quoted, List.cons_append, readFields, readString_closed]
      simp only [Option.bind_eq_bind, Option.bind_some]
      rw [skip_cons (by decide)]
      simp only [skip_dump h.1 level hblank.colon]
      rw [readValue_dump hblank h.1 level (by omega)
        (stops_dumpFields hblank level ((other, w) :: fields) rest)]
      simp only [Option.bind_some, dumpFields, List.append_assoc, List.cons_append]
      rw [skip_cons (by decide)]
      have hquoted : ∀ cs, skip (layout.next level ++ (quoted other ++ cs)) = quoted other ++ cs :=
        fun cs => by rw [skip_append (hblank.next level), quoted, List.cons_append,
          skip_cons (by decide)]
      simp only [hquoted]
      rw [readFields_dump hblank h.2 other level (by omega)]
      rfl

end

/-- **Reading back what was written**, whatever white space the writer puts in. -/
theorem loads_dumps (hblank : layout.Blank) {v : Json} (h : Readable floatOf floatText v) :
    loads floatOf (dumps layout floatText v) = some v := by
  have hfuel : (dump layout floatText 0 v).length ≤ 2 * (dump layout floatText 0 v).length + 1 := by
    omega
  have hread := readValue_dump hblank h 0 hfuel (show Stops [] from nofun)
  rw [List.append_nil] at hread
  obtain ⟨c, cs, heq, hblank, -⟩ := exists_dump_eq_cons layout h 0
  rw [loads, dumps, String.toList_ofList, heq, skip_cons hblank, ← heq, hread]
  rfl

/-- A file with this text, for `json.load`. -/
def jsonFile (floatOf : List Char → ℚ) (text : String) : JsonFile :=
  match loads floatOf text with
  | some v => .holds v
  | none => .unreadable

theorem jsonFile_dumps (hblank : layout.Blank) {v : Json} (h : Readable floatOf floatText v) :
    jsonFile floatOf (dumps layout floatText v) = .holds v := by
  rw [jsonFile, loads_dumps hblank h]

end JsonText

end StateBenchmarks.Python
