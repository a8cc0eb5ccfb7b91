/-
# One value a line

Writing `json.dumps(v)` and a newline for each value makes a file that can be read
line by line: the text of a value has no line ends of its own, since `ensure_ascii`
leaves printable characters only, and stripping a line takes the newline away and
nothing else.
-/

import StateBenchmarks.Python.JsonRoundTrip

namespace StateBenchmarks.Python

namespace JsonText

/-- Printable ASCII, the space included. -/
def IsPrintable (c : Char) : Prop := 32 ≤ c.toNat ∧ c.toNat ≤ 126

instance (c : Char) : Decidable (IsPrintable c) := inferInstanceAs (Decidable (_ ∧ _))

def Printable (cs : List Char) : Prop := ∀ c ∈ cs, IsPrintable c

instance (cs : List Char) : Decidable (Printable cs) := List.decidableBAll IsPrintable cs

/-- Text that fills a line of its own. -/
structure Solid (cs : List Char) : Prop where
  printable : Printable cs
  first : ∃ c rest, cs = c :: rest ∧ isSpace c = false
  last : ∃ c, [c] <:+ cs ∧ isSpace c = false

@[simp]
theorem printable_cons {c : Char} {cs : List Char} :
    Printable (c :: cs) ↔ IsPrintable c ∧ Printable cs := List.forall_mem_cons

@[simp]
theorem printable_append {cs ds : List Char} :
    Printable (cs ++ ds) ↔ Printable cs ∧ Printable ds := List.forall_mem_append

theorem isPrintable_hexChar {d : ℕ} (h : d < 16) : IsPrintable (hexChar d) := by
  have hall : ∀ k : Fin 16, IsPrintable (hexChar k) := by decide
  exact hall ⟨d, h⟩

theorem printable_unicodeEscape (unit : ℕ) : Printable (unicodeEscape unit) := by
  have hdigit : ∀ k, IsPrintable (hexChar (k % 16)) := fun k =>
    isPrintable_hexChar (Nat.mod_lt k (by decide))
  simp only [unicodeEscape, hex4, printable_cons, hdigit, true_and]
  decide

theorem printable_escaped (c : Char) : Printable (escaped c) := by
  unfold escaped
  split_ifs with hplain
  · simp only [isPlain, Bool.and_eq_true, decide_eq_true_eq] at hplain
    exact printable_cons.mpr ⟨hplain.1.1, List.forall_mem_nil _⟩
  · decide
  · decide
  · decide
  · decide
  · decide
  · decide
  · decide
  · exact printable_unicodeEscape _
  · exact printable_append.mpr ⟨printable_unicodeEscape _, printable_unicodeEscape _⟩

theorem printable_closed (cs : List Char) : Printable (closed cs) := by
  refine printable_append.mpr ⟨?_, by decide⟩
  intro c hc
  obtain ⟨d, -, hd⟩ := List.mem_flatMap.mp hc
  exact printable_escaped d c hd

theorem printable_quoted (s : String) : Printable (quoted s) :=
  printable_cons.mpr ⟨by decide, printable_closed _⟩

theorem isPrintable_digit {c : Char} (h : c.isDigit = true) : IsPrintable c := by
  simp only [Char.isDigit, Bool.and_eq_true, decide_eq_true_eq] at h
  exact ⟨le_trans (by decide) h.1, le_trans h.2 (by decide)⟩

theorem not_isSpace_digit {c : Char} (h : c.isDigit = true) : isSpace c = false := by
  simp only [Char.isDigit, Bool.and_eq_true, decide_eq_true_eq] at h
  have hlow : 48 ≤ c.toNat := h.1
  have hhigh : c.toNat ≤ 57 := h.2
  simp only [isSpace, Bool.or_eq_false_iff, Bool.and_eq_false_iff, decide_eq_false_iff_not,
    beq_eq_false_iff_ne]
  omega

theorem solid_digits {cs : List Char} (hne : cs ≠ []) (h : ∀ c ∈ cs, c.isDigit = true) :
    Solid cs where
  printable c hc := isPrintable_digit (h c hc)
  first := by
    obtain ⟨c, rest, rfl⟩ := List.exists_cons_of_ne_nil hne
    exact ⟨c, rest, rfl, not_isSpace_digit (h c List.mem_cons_self)⟩
  last :=
    ⟨cs.getLast hne, ⟨cs.dropLast, List.dropLast_append_getLast hne⟩,
      not_isSpace_digit (h _ (List.getLast_mem hne))⟩

theorem solid_intText (n : ℤ) : Solid (intText n) := by
  have hsolid : ∀ n, Solid (decimalDigits n) := fun n =>
    solid_digits (decimalDigits_ne_nil n) isDigit_decimalDigits
  cases n with
  | ofNat n => exact hsolid n
  | negSucc n =>
      obtain ⟨hprintable, -, c, hlast, hc⟩ := hsolid (n + 1)
      exact ⟨printable_cons.mpr ⟨by decide, hprintable⟩, ⟨_, _, rfl, by decide⟩, c,
        hlast.trans (List.suffix_cons _ _), hc⟩

variable {layout : Layout} {floatText : ℚ → List Char} {ok : ℚ → Prop}

/-- The white space of the layout has no line ends. -/
structure Layout.Flat (layout : Layout) : Prop where
  first : ∀ level, Printable (layout.first level)
  next : ∀ level, Printable (layout.next level)
  last : ∀ level, Printable (layout.last level)
  colon : Printable layout.colon

theorem flat_standard : Layout.standard.Flat :=
  ⟨fun _ => nofun, fun _ => (by decide : Printable [' ']), fun _ => nofun,
    (by decide : Printable [' '])⟩

theorem flat_compact : Layout.compact.Flat :=
  ⟨fun _ => nofun, fun _ => nofun, fun _ => nofun, nofun⟩

mutual

theorem printable_dump (hflat : layout.Flat) (hok : ∀ q, ok q → Solid (floatText q)) :
    ∀ {v : Json}, Proper ok v → ∀ (level : ℕ), Printable (dump layout floatText level v)
  | .null, _, _ | .bool true, _, _ | .bool false, _, _ | .arr [], _, _ | .obj [], _, _ => by
      simp only [dump]
      decide
  | .int n, _, _ => (solid_intText n).printable
  | .float q, h, _ => (hok q h).printable
  | .str s, _, _ => printable_quoted s
  | .arr (x :: xs), h, level => by
      simp only [dump, printable_append, printable_cons]
      exact ⟨⟨⟨by decide, hflat.first _⟩, printable_dump hflat hok h.1 _⟩,
        printable_dumpItems hflat hok h.2 _⟩
  | .obj ((key, v) :: fields), h, level => by
      simp only [dump, printable_append, printable_cons]
      exact ⟨⟨⟨⟨⟨by decide, hflat.first _⟩, printable_quoted key⟩, by decide, hflat.colon⟩,
        printable_dump hflat hok h.2.1 _⟩, printable_dumpFields hflat hok h.2.2 _⟩

theorem printable_dumpItems (hflat : layout.Flat) (hok : ∀ q, ok q → Solid (floatText q)) :
    ∀ {xs : List Json}, ProperItems ok xs → ∀ (level : ℕ),
      Printable (dumpItems layout floatText level xs)
  | [], _, level => printable_append.mpr ⟨hflat.last level, by decide⟩
  | x :: xs, h, level => by
      simp only [dumpItems, printable_append, printable_cons]
      exact ⟨⟨⟨by decide, hflat.next _⟩, printable_dump hflat hok h.1 _⟩,
        printable_dumpItems hflat hok h.2 _⟩

theorem printable_dumpFields (hflat : layout.Flat) (hok : ∀ q, ok q → Solid (floatText q)) :
    ∀ {fields : List (String × Json)}, ProperFields ok fields → ∀ (level : ℕ),
      Printable (dumpFields layout floatText level fields)
  | [], _, level => printable_append.mpr ⟨hflat.last level, by decide⟩
  | (key, v) :: fields, h, level => by
      simp only [dumpFields, printable_append, printable_cons]
      exact ⟨⟨⟨⟨⟨by decide, hflat.next _⟩, printable_quoted key⟩, by decide, hflat.colon⟩,
        printable_dump hflat hok h.1 _⟩, printable_dumpFields hflat hok h.2 _⟩

end

theorem suffix_dumpItems (xs : List Json) (level : ℕ) :
    [']'] <:+ dumpItems layout floatText level xs := by
  induction xs with
  | nil => exact List.suffix_append _ _
  | cons x xs ih => exact ih.trans (List.suffix_append _ _)

theorem suffix_dumpFields (fields : List (String × Json)) (level : ℕ) :
    ['\x7d'] <:+ dumpFields layout floatText level fields := by
  induction fields with
  | nil => exact List.suffix_append _ _
  | cons field fields ih => exact ih.trans (List.suffix_append _ _)

/-- The text of a value fills its line. -/
theorem solid_dump (hflat : layout.Flat) (hok : ∀ q, ok q → Solid (floatText q)) {v : Json}
    (h : Proper ok v) (level : ℕ) : Solid (dump layout floatText level v) := by
  have hprintable := printable_dump hflat hok h level
  cases v with
  | null => exact ⟨hprintable, ⟨_, _, rfl, by decide⟩, 'l', ⟨['n', 'u', 'l'], rfl⟩, by decide⟩
  | bool b =>
      cases b with
      | true => exact ⟨hprintable, ⟨_, _, rfl, by decide⟩, 'e', ⟨['t', 'r', 'u'], rfl⟩, by decide⟩
      | false =>
          exact ⟨hprintable, ⟨_, _, rfl, by decide⟩, 'e', ⟨['f', 'a', 'l', 's'], rfl⟩, by decide⟩
  | int n => exact solid_intText n
  | float q => exact hok q h
  | str s =>
      exact ⟨hprintable, ⟨_, _, rfl, by decide⟩, '"',
        (List.suffix_append _ ['"']).trans (List.suffix_cons _ _), by decide⟩
  | arr items =>
      cases items with
      | nil => exact ⟨hprintable, ⟨_, _, rfl, by decide⟩, ']', ⟨['['], rfl⟩, by decide⟩
      | cons x xs =>
          exact ⟨hprintable, ⟨_, _, rfl, by decide⟩, ']',
            (suffix_dumpItems xs _).trans (List.suffix_append _ _), by decide⟩
  | obj fields =>
      cases fields with
      | nil => exact ⟨hprintable, ⟨_, _, rfl, by decide⟩, '\x7d', ⟨['\x7b'], rfl⟩, by decide⟩
      | cons field fields =>
          exact ⟨hprintable, ⟨_, _, rfl, by decide⟩, '\x7d',
            (suffix_dumpFields fields _).trans (List.suffix_append _ _), by decide⟩

theorem Printable.ne_newline {cs : List Char} (h : Printable cs) :
    ∀ c ∈ cs, c ≠ '\n' ∧ c ≠ '\r' := by
  intro c hc
  constructor <;> rintro rfl <;> exact absurd (h _ hc) (by decide)

/-- Stripping the line leaves the text. -/
theorem Solid.strip_line {cs : List Char} (h : Solid cs) :
    strip (String.ofList (cs ++ ['\n'])) = String.ofList cs := by
  obtain ⟨c, rest, heq, hc⟩ := h.first
  obtain ⟨d, ⟨front, hlast⟩, hd⟩ := h.last
  have hfront : (cs ++ ['\n']).dropWhile isSpace = cs ++ ['\n'] := by
    rw [heq, List.cons_append, List.dropWhile_cons_of_neg (by simp [hc])]
  have hback : (cs ++ ['\n']).reverse.dropWhile isSpace = cs.reverse := by
    rw [List.reverse_append, ← hlast, List.reverse_append]
    exact (List.dropWhile_cons_of_pos (by decide)).trans
      (List.dropWhile_cons_of_neg (by simp [hd]))
  rw [strip, String.toList_ofList, stripChars, hfront, hback, List.reverse_reverse]

variable (floatText) in
/-- What writing `json.dumps(v)` and a newline for each value makes. -/
def jsonLines (values : List Json) : String :=
  String.ofList (values.flatMap fun v => dump .standard floatText 0 v ++ ['\n'])

/-- The lines of such a file are the texts of the values. -/
theorem textLines_jsonLines (hok : ∀ q, ok q → Solid (floatText q)) {values : List Json}
    (h : ∀ v ∈ values, Proper ok v) :
    textLines (jsonLines floatText values) =
      values.map fun v => String.ofList (dump .standard floatText 0 v ++ ['\n']) := by
  rw [jsonLines, textLines, String.toList_ofList]
  induction values with
  | nil => rfl
  | cons v rest ih =>
      rw [List.forall_mem_cons] at h
      have hsolid := solid_dump flat_standard hok h.1 0
      rw [List.flatMap_cons, List.append_assoc, List.cons_append, List.nil_append,
        linesFrom_newline [] _ _ _ fun _ => rfl, linesFrom_line [] hsolid.printable.ne_newline,
        List.map_append, ih h.2]
      rfl

end JsonText

end StateBenchmarks.Python
