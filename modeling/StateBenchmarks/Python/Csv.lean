/-
# Python's csv files

What `csv.writer` writes and what `csv.reader` makes of it, in the dialect both use by
default: fields between commas, a field in quotes where it has to be, `\r\n` after a row.
A file that is opened for reading without `newline=''` has its ends of line made into
`\n` first, also those inside a field, so this is part of reading back.

The reader is a state machine over the characters; it is told where each line ends.  The
limit on the size of a field is left out.
-/

import StateBenchmarks.Python.Json

namespace StateBenchmarks.Python.Csv

abbrev Row := List String

/-- The characters for which a field is put in quotes. -/
def isSpecial (c : Char) : Bool := c == ',' || c == '"' || c == '\r' || c == '\n'

def doubled (c : Char) : List Char := if c = '"' then ['"', '"'] else [c]

def fieldText (field : String) : List Char :=
  if field.toList.any isSpecial then '"' :: (field.toList.flatMap doubled ++ ['"'])
  else field.toList

/-- A row without its end.  A single empty field would read as no field at all. -/
def rowText (row : Row) : List Char :=
  if row = [""] then ['"', '"'] else [','].intercalate (row.map fieldText)

/-- `writer.writerow(row)`. -/
def writerow (row : Row) : List Char := rowText row ++ ['\r', '\n']

/-- `writer.writerows(rows)`. -/
def writerows (rows : List Row) : List Char := rows.flatMap writerow

/-- The text after `ended`, which says whether the character before was a `\r`. -/
def newlinesFrom (ended : Bool) : List Char → List Char
  | [] => []
  | c :: rest =>
      if c = '\n' ∧ ended = true then newlinesFrom false rest
      else if c = '\r' then '\n' :: newlinesFrom true rest
      else c :: newlinesFrom false rest

/-- The text a file holds when it is read with universal newlines. -/
def universalNewlines (cs : List Char) : List Char := newlinesFrom false cs

/-- A field with its ends of line read so. -/
def translated (field : String) : String := String.ofList (universalNewlines field.toList)

inductive Place where
  | startRecord
  | startField
  | inField
  | inQuoted
  | quoteInQuoted
  | eatNewline
  deriving DecidableEq

/-- The characters of the field being read are back to front. -/
structure Reader where
  place : Place
  field : List Char
  fields : Row

namespace Reader

/-- Before a record. -/
def start : Reader := ⟨.startRecord, [], []⟩

def add (r : Reader) (c : Char) (place : Place) : Reader :=
  { r with place, field := c :: r.field }

/-- The field has ended. -/
def save (r : Reader) (place : Place) : Reader :=
  ⟨place, [], r.fields ++ [String.ofList r.field.reverse]⟩

/-- A character where a field may begin. -/
def readField (r : Reader) (c : Char) : Reader :=
  if c = '\n' ∨ c = '\r' then r.save .eatNewline
  else if c = '"' then { r with place := .inQuoted }
  else if c = ',' then r.save .startField
  else r.add c .inField

/-- One character; a file opened without `newline=''` can fail after a `\r`. -/
def read (r : Reader) (c : Char) : Option Reader :=
  match r.place with
  | .startRecord =>
      if c = '\n' ∨ c = '\r' then some { r with place := .eatNewline } else some (r.readField c)
  | .startField => some (r.readField c)
  | .inField =>
      if c = '\n' ∨ c = '\r' then some (r.save .eatNewline)
      else if c = ',' then some (r.save .startField)
      else some (r.add c .inField)
  | .inQuoted =>
      if c = '"' then some { r with place := .quoteInQuoted } else some (r.add c .inQuoted)
  | .quoteInQuoted =>
      if c = '"' then some (r.add c .inQuoted)
      else if c = ',' then some (r.save .startField)
      else if c = '\n' ∨ c = '\r' then some (r.save .eatNewline)
      else some (r.add c .inField)
  | .eatNewline => if c = '\n' ∨ c = '\r' then some r else none

/-- The end of a line. -/
def endLine (r : Reader) : Reader :=
  match r.place with
  | .startRecord | .inQuoted => r
  | .eatNewline => { r with place := .startRecord }
  | .startField | .inField | .quoteInQuoted => r.save .startRecord

/-- One character, and the end of the line if it is one: the rows this ends. -/
def step (r : Reader) (c : Char) : Option (List Row × Reader) :=
  (r.read c).map fun r =>
    if c = '\n' then
      if r.endLine.place = .startRecord then ([r.endLine.fields], start) else ([], r.endLine)
    else ([], r)

def run : Reader → List Char → Option (List Row × Reader)
  | r, [] => some ([], r)
  | r, c :: cs => do
      let (rows, r) ← r.step c
      let (more, r) ← run r cs
      return (rows ++ more, r)

/-- At the end of the file a record that has begun is a row. -/
def atEnd (r : Reader) : List Row :=
  if r.place = .startRecord then []
  else if r.endLine.place = .startRecord then [r.endLine.fields]
  else [(r.endLine.save .startRecord).fields]

end Reader

/-- The rows of a text, as `csv.reader` finds them. -/
def rows (cs : List Char) : Option (List Row) :=
  (Reader.start.run cs).map fun (rows, r) => rows ++ r.atEnd

/-- A row of `csv.DictReader`.  A cell without a name cannot be asked for by one. -/
def dictRow (header row : Row) : Dict (Option String) :=
  Dict.update [] (header.zip (row.map some) ++
    (header.drop row.length).map fun name => (name, none))

/-- The rows of `csv.DictReader`: the first is the header, blank ones are passed over. -/
def dictRows : List Row → List (Dict (Option String))
  | [] => []
  | header :: rows => (rows.filter fun row => row != []).map (dictRow header)

example : (rows "a,\"b\"\"\nc\"\r\n\r\nd".toList) = some [["a", "b\"\nc"], [], ["d"]] := by decide

section Newlines

theorem newlinesFrom_cons_of_ne {c : Char} (hn : c ≠ '\n') (hr : c ≠ '\r') (ended : Bool)
    (rest : List Char) : newlinesFrom ended (c :: rest) = c :: newlinesFrom false rest := by
  rw [newlinesFrom, if_neg fun h => hn h.1, if_neg hr]

/-- Text without ends of line is as it was. -/
theorem newlinesFrom_append_of_ne {cs : List Char} (h : ∀ c ∈ cs, c ≠ '\n' ∧ c ≠ '\r')
    (rest : List Char) : newlinesFrom false (cs ++ rest) = cs ++ newlinesFrom false rest := by
  induction cs with
  | nil => rfl
  | cons c cs ih =>
      rw [List.forall_mem_cons] at h
      rw [List.cons_append, newlinesFrom_cons_of_ne h.1.1 h.1.2, ih h.2, List.cons_append]

/-- Doubling quotes does not touch the ends of line. -/
theorem newlinesFrom_doubled (ended : Bool) (cs rest : List Char) :
    newlinesFrom ended (cs.flatMap doubled ++ '"' :: rest) =
      (newlinesFrom ended cs).flatMap doubled ++ '"' :: newlinesFrom false rest := by
  induction cs generalizing ended with
  | nil => exact newlinesFrom_cons_of_ne (by decide) (by decide) ended rest
  | cons c cs ih =>
      by_cases hquote : c = '"'
      · subst hquote
        rw [newlinesFrom_cons_of_ne (by decide) (by decide), List.flatMap_cons, List.flatMap_cons,
          doubled, if_pos rfl, List.append_assoc, List.append_assoc, List.cons_append,
          newlinesFrom_cons_of_ne (by decide) (by decide), List.cons_append,
          newlinesFrom_cons_of_ne (by decide) (by decide), List.nil_append, ih]
        rfl
      · rw [List.flatMap_cons, doubled, if_neg hquote, List.append_assoc, List.singleton_append,
          newlinesFrom, newlinesFrom]
        split_ifs with hskip hreturn
        · exact ih false
        · rw [ih true]
          rfl
        · rw [ih false, List.flatMap_cons, doubled, if_neg hquote]
          rfl

/-- A field needs quotes after the translation if it did before. -/
theorem any_isSpecial_newlinesFrom (cs : List Char) :
    (newlinesFrom false cs).any isSpecial = cs.any isSpecial := by
  induction cs with
  | nil => rfl
  | cons c cs ih =>
      rw [newlinesFrom, if_neg fun h => Bool.noConfusion h.2]
      by_cases hreturn : c = '\r'
      · subst hreturn
        rfl
      · rw [if_neg hreturn, List.any_cons, List.any_cons, ih]

/-- Text that needs no quotes has no ends of line. -/
theorem ne_newline_of_not_isSpecial {cs : List Char} (h : cs.any isSpecial = false) :
    ∀ c ∈ cs, c ≠ '\n' ∧ c ≠ '\r' := by
  intro c hc
  have hplain := List.any_eq_false.mp h c hc
  exact ⟨fun heq => hplain (heq ▸ rfl), fun heq => hplain (heq ▸ rfl)⟩

theorem newlinesFrom_eq_self {cs : List Char} (h : ∀ c ∈ cs, c ≠ '\n' ∧ c ≠ '\r') :
    newlinesFrom false cs = cs := by
  have happend := newlinesFrom_append_of_ne h []
  rwa [List.append_nil, newlinesFrom, List.append_nil] at happend

theorem newlinesFrom_fieldText (field : String) (rest : List Char) :
    newlinesFrom false (fieldText field ++ rest) =
      fieldText (translated field) ++ newlinesFrom false rest := by
  have hspecial := any_isSpecial_newlinesFrom field.toList
  rw [fieldText, fieldText, translated, String.toList_ofList, universalNewlines, hspecial]
  cases hany : field.toList.any isSpecial with
  | false =>
      have hne := ne_newline_of_not_isSpecial hany
      simp only [Bool.false_eq_true, if_false]
      rw [newlinesFrom_append_of_ne hne, newlinesFrom_eq_self hne]
  | true =>
      simp only [if_true]
      rw [List.cons_append, newlinesFrom_cons_of_ne (by decide) (by decide), List.append_assoc,
        List.singleton_append, newlinesFrom_doubled, List.cons_append, List.append_assoc,
        List.singleton_append]

theorem translated_eq_empty_iff (field : String) : translated field = "" ↔ field = "" := by
  constructor
  · intro h
    have hnil : newlinesFrom false field.toList = [] := by
      simpa [translated, universalNewlines] using congrArg String.toList h
    cases hfield : field.toList with
    | nil => simpa using hfield
    | cons c cs =>
        rw [hfield, newlinesFrom, if_neg fun h => Bool.noConfusion h.2] at hnil
        split at hnil <;> cases hnil
  · rintro rfl
    rfl

theorem newlinesFrom_intercalate (row : Row) (rest : List Char) :
    newlinesFrom false ([','].intercalate (row.map fieldText) ++ rest) =
      [','].intercalate ((row.map translated).map fieldText) ++ newlinesFrom false rest := by
  induction row with
  | nil => rfl
  | cons field row ih =>
      cases row with
      | nil =>
          simp only [List.map_cons, List.map_nil, List.intercalate_singleton]
          exact newlinesFrom_fieldText field rest
      | cons next row =>
          simp only [List.map_cons, List.intercalate_cons_cons, List.append_assoc,
            List.cons_append, List.nil_append] at ih ⊢
          rw [newlinesFrom_fieldText, newlinesFrom_cons_of_ne (by decide) (by decide), ih]

theorem newlinesFrom_rowText (row : Row) (rest : List Char) :
    newlinesFrom false (rowText row ++ rest) =
      rowText (row.map translated) ++ newlinesFrom false rest := by
  have hempty : row.map translated = [""] ↔ row = [""] := by
    cases row with
    | nil => simp
    | cons field row => simp [translated_eq_empty_iff]
  rw [rowText, rowText]
  by_cases hrow : row = [""]
  · rw [if_pos hrow, if_pos (hempty.mpr hrow)]
    exact newlinesFrom_append_of_ne (by simp) rest
  · rw [if_neg hrow, if_neg (mt hempty.mp hrow)]
    exact newlinesFrom_intercalate row rest

/-- The text of written rows as it is read: each on lines of its own. -/
theorem universalNewlines_writerows (rows : List Row) (rest : List Char) :
    universalNewlines (writerows rows ++ rest) =
      (rows.flatMap fun row => rowText (row.map translated) ++ ['\n']) ++
        universalNewlines rest := by
  induction rows with
  | nil => rfl
  | cons row rows ih =>
      have hend (cs : List Char) : newlinesFrom false ('\r' :: '\n' :: cs) =
          '\n' :: newlinesFrom false cs := rfl
      rw [universalNewlines] at ih ⊢
      rw [writerows, List.flatMap_cons, ← writerows, writerow, List.append_assoc,
        List.append_assoc, newlinesFrom_rowText, List.cons_append, List.cons_append,
        List.nil_append, hend, ih, List.flatMap_cons, universalNewlines]
      simp only [List.append_assoc, List.cons_append, List.nil_append]

end Newlines

/-! ## Reading a written row -/

namespace Reader

theorem run_append (r : Reader) (front back : List Char) :
    r.run (front ++ back) = do
      let (rows, r) ← r.run front
      let (more, r) ← r.run back
      return (rows ++ more, r) := by
  induction front generalizing r with
  | nil => cases hrun : r.run back <;> simp [run, hrun]
  | cons c front ih =>
      rw [List.cons_append, run, run]
      cases hstep : r.step c with
      | none => rfl
      | some stepped =>
          simp only [Option.bind_eq_bind, Option.bind_some, ih]
          cases hfront : stepped.2.run front with
          | none => rfl
          | some found =>
              cases hback : found.2.run back <;> simp [hback]

/-- Characters that end no row. -/
theorem run_append_of_silent {r r' : Reader} {front : List Char} (h : r.run front = some ([], r'))
    (back : List Char) : r.run (front ++ back) = r'.run back := by
  rw [run_append, h]
  cases hback : r'.run back <;> simp [hback]

theorem run_cons_of_silent {r r' : Reader} {c : Char} (h : r.step c = some ([], r'))
    (back : List Char) : r.run (c :: back) = r'.run back := by
  rw [run, h]
  cases hback : r'.run back <;> simp [hback]

/-- A character that is no end of line. -/
theorem step_of_ne {r r' : Reader} {c : Char} (hc : c ≠ '\n') (h : r.read c = some r') :
    r.step c = some ([], r') := by
  rw [step, h, Option.map_some, if_neg hc]

/-- Plain characters go on with a field. -/
theorem run_inField (field : List Char) (fields : Row) {cs : List Char}
    (h : cs.any isSpecial = false) :
    run ⟨.inField, field, fields⟩ cs = some ([], ⟨.inField, cs.reverse ++ field, fields⟩) := by
  induction cs generalizing field with
  | nil => rfl
  | cons c cs ih =>
      rw [List.any_cons, Bool.or_eq_false_iff] at h
      have hn : c ≠ '\n' := fun heq => by simp [heq, isSpecial] at h
      have hr : c ≠ '\r' := fun heq => by simp [heq, isSpecial] at h
      have hcomma : c ≠ ',' := fun heq => by simp [heq, isSpecial] at h
      have hread : read ⟨.inField, field, fields⟩ c = some ⟨.inField, c :: field, fields⟩ := by
        simp [read, hn, hr, hcomma, add]
      rw [run_cons_of_silent (step_of_ne hn hread), ih _ h.2]
      simp

/-- Quoted characters, with quotes doubled, up to the closing quote. -/
theorem run_inQuoted (field : List Char) (fields : Row) (cs : List Char) :
    run ⟨.inQuoted, field, fields⟩ (cs.flatMap doubled ++ ['"']) =
      some ([], ⟨.quoteInQuoted, cs.reverse ++ field, fields⟩) := by
  induction cs generalizing field with
  | nil => rfl
  | cons c cs ih =>
      rw [List.flatMap_cons, List.append_assoc]
      have hrun : run ⟨.inQuoted, field, fields⟩ (doubled c) =
          some ([], ⟨.inQuoted, c :: field, fields⟩) := by
        by_cases hquote : c = '"'
        · subst hquote
          rfl
        · rw [doubled, if_neg hquote]
          by_cases hn : c = '\n'
          · subst hn
            rfl
          · have hread :
                read ⟨.inQuoted, field, fields⟩ c = some ⟨.inQuoted, c :: field, fields⟩ := by
              simp [read, hquote, add]
            rw [run_cons_of_silent (step_of_ne hn hread)]
            rfl
      rw [run_append_of_silent hrun, ih]
      simp

/-- The reader has the last field of a row before it: a comma or a newline ends it. -/
structure Closes (r : Reader) (row : Row) : Prop where
  comma : r.step ',' = some ([], ⟨.startField, [], row⟩)
  newline : r.step '\n' = some ([row], start)

/-- Where a field may begin, its text is read as the field. -/
theorem run_fieldText {place : Place} (hplace : place = .startRecord ∨ place = .startField)
    (fields : Row) (field : String) (hfirst : place = .startRecord → field ≠ "") :
    ∃ r, run ⟨place, [], fields⟩ (fieldText field) = some ([], r) ∧
      r.Closes (fields ++ [field]) := by
  have hclosed (place : Place) (hplace : place = .inField ∨ place = .quoteInQuoted) :
      Closes ⟨place, field.toList.reverse ++ [], fields⟩ (fields ++ [field]) := by
    cases hplace with
    | inl hplace =>
        subst hplace
        constructor <;> simp [step, read, save, endLine]
    | inr hplace =>
        subst hplace
        constructor <;> simp [step, read, save, endLine]
  cases hany : field.toList.any isSpecial with
  | true =>
      refine ⟨_, ?_, hclosed .quoteInQuoted (.inr rfl)⟩
      have hopen : step ⟨place, [], fields⟩ '"' = some ([], ⟨.inQuoted, [], fields⟩) := by
        cases hplace with
        | inl hplace =>
            subst hplace
            rfl
        | inr hplace =>
            subst hplace
            rfl
      rw [fieldText, if_pos hany, run_cons_of_silent hopen, run_inQuoted]
  | false =>
      rw [fieldText, if_neg (by simp [hany])]
      cases hfield : field.toList with
      | nil =>
          have hempty : field = "" := by simpa using hfield
          cases hplace with
          | inl hplace => exact absurd hempty (hfirst hplace)
          | inr hplace =>
              subst hplace hempty
              exact ⟨_, rfl, by constructor <;> rfl⟩
      | cons c cs =>
          rw [hfield, List.any_cons, Bool.or_eq_false_iff] at hany
          have hn : c ≠ '\n' := fun heq => by simp [heq, isSpecial] at hany
          have hr : c ≠ '\r' := fun heq => by simp [heq, isSpecial] at hany
          have hcomma : c ≠ ',' := fun heq => by simp [heq, isSpecial] at hany
          have hquote : c ≠ '"' := fun heq => by simp [heq, isSpecial] at hany
          have hread : read ⟨place, [], fields⟩ c = some ⟨.inField, [c], fields⟩ := by
            cases hplace with
            | inl hplace =>
                subst hplace
                simp [read, readField, hn, hr, hcomma, hquote, add]
            | inr hplace =>
                subst hplace
                simp [read, readField, hn, hr, hcomma, hquote, add]
          refine ⟨_, ?_, hclosed .inField (.inl rfl)⟩
          rw [run_cons_of_silent (step_of_ne hn hread), run_inField _ _ hany.2, hfield]
          simp

/-- The remaining fields of a row, and its end. -/
theorem run_intercalate (fields : Row) (field : String) (row : Row) {place : Place}
    (hplace : place = .startRecord ∨ place = .startField)
    (hfirst : place = .startRecord → field ≠ "" ∨ row ≠ []) :
    run ⟨place, [], fields⟩ ([','].intercalate ((field :: row).map fieldText) ++ ['\n']) =
      some ([fields ++ field :: row], start) := by
  induction row generalizing fields field place with
  | nil =>
      have hne : place = .startRecord → field ≠ "" := fun h => (hfirst h).resolve_right (by simp)
      obtain ⟨r, hrun, hcloses⟩ := run_fieldText hplace fields field hne
      rw [List.map_cons, List.map_nil, List.intercalate_singleton, run_append_of_silent hrun, run,
        hcloses.newline]
      rfl
  | cons next row ih =>
      rw [List.map_cons, List.map_cons, List.intercalate_cons_cons, ← List.map_cons,
        List.append_assoc, List.append_assoc, List.singleton_append]
      have hrest := @ih (fields ++ [field]) next .startField (.inr rfl) (by simp)
      rw [List.append_assoc, List.singleton_append] at hrest
      by_cases hempty : field = ""
      · subst hempty
        have hcomma :
            step ⟨place, [], fields⟩ ',' = some ([], ⟨.startField, [], fields ++ [""]⟩) := by
          cases hplace with
          | inl hplace =>
              subst hplace
              rfl
          | inr hplace =>
              subst hplace
              rfl
        exact (run_cons_of_silent hcomma _).trans hrest
      · obtain ⟨r, hrun, hcloses⟩ := run_fieldText hplace fields field fun _ => hempty
        rw [run_append_of_silent hrun, run_cons_of_silent hcloses.comma]
        exact hrest

/-- A written row on its line is read as this row. -/
theorem run_rowText (row : Row) :
    start.run (rowText row ++ ['\n']) = some ([row], start) := by
  rw [rowText]
  by_cases hrow : row = [""]
  · subst hrow
    rfl
  · rw [if_neg hrow]
    cases row with
    | nil => rfl
    | cons field row =>
        refine run_intercalate [] field row (.inl rfl) fun _ => ?_
        by_cases hempty : field = ""
        · exact .inr fun hnil => hrow (by rw [hempty, hnil])
        · exact .inl hempty

theorem run_rows (rows : List Row) :
    start.run (rows.flatMap fun row => rowText row ++ ['\n']) = some (rows, start) := by
  induction rows with
  | nil => rfl
  | cons row rows ih =>
      rw [List.flatMap_cons, run_append, run_rowText]
      simp [ih]

end Reader

/-- **Written rows are read back, but for the ends of line inside their fields.** -/
theorem rows_writerows (written : List Row) :
    rows (universalNewlines (writerows written)) =
      some (written.map (List.map translated)) := by
  have htext := universalNewlines_writerows written []
  rw [List.append_nil] at htext
  have hrun := Reader.run_rows (written.map (List.map translated))
  rw [List.flatMap_map] at hrun
  rw [rows, htext, show universalNewlines [] = [] from rfl, List.append_nil, hrun]
  exact congrArg some (List.append_nil _)

theorem newlinesFrom_prefix {cs ds : List Char} (h : cs <+: ds) (ended : Bool) :
    newlinesFrom ended cs <+: newlinesFrom ended ds := by
  induction cs generalizing ds ended with
  | nil => exact List.nil_prefix
  | cons c cs ih =>
      obtain ⟨rest, rfl⟩ := h
      have hrest : cs <+: cs ++ rest := List.prefix_append cs rest
      rw [List.cons_append, newlinesFrom, newlinesFrom]
      split_ifs with hskip hreturn
      · exact ih hrest false
      · exact List.cons_prefix_cons.mpr ⟨rfl, ih hrest true⟩
      · exact List.cons_prefix_cons.mpr ⟨rfl, ih hrest false⟩

theorem Reader.length_atEnd_le (r : Reader) : r.atEnd.length ≤ 1 := by
  rw [Reader.atEnd]
  split_ifs <;> simp

/-- What a text is read as, its beginning is read as a beginning of. -/
theorem Reader.run_of_append {r r' : Reader} {front back : List Char} {found : List Row}
    (h : r.run (front ++ back) = some (found, r')) :
    ∃ earlier s, r.run front = some (earlier, s) ∧ earlier <+: found := by
  rw [Reader.run_append] at h
  cases hfront : r.run front with
  | none =>
      rw [hfront] at h
      cases h
  | some state =>
      rw [hfront] at h
      cases hback : state.2.run back with
      | none => simp [hback] at h
      | some more =>
          simp only [hback, Option.bind_eq_bind, Option.bind_some, Option.pure_def,
            Option.some_inj, Prod.mk.injEq] at h
          exact ⟨state.1, state.2, rfl, h.1 ▸ List.prefix_append _ _⟩

/-- **A file that breaks off is read as the rows that are whole in it, and at most one more
row of what is left.** -/
theorem rows_truncated {front back : List Row} {text : List Char}
    (hfront : writerows front <+: text) (htext : text <+: writerows (front ++ back)) :
    ∃ whole broken, whole <+: back ∧ broken.length ≤ 1 ∧
      rows (universalNewlines text) =
        some ((front ++ whole).map (List.map translated) ++ broken) := by
  obtain ⟨later, rfl⟩ := hfront
  have hsplit : writerows (front ++ back) = writerows front ++ writerows back :=
    List.flatMap_append
  rw [hsplit, List.prefix_append_right_inj] at htext
  have hprefix : universalNewlines later <+: universalNewlines (writerows back) :=
    newlinesFrom_prefix htext false
  have hall := universalNewlines_writerows back []
  have hrun := Reader.run_rows (back.map (List.map translated))
  rw [List.flatMap_map] at hrun
  rw [List.append_nil, show universalNewlines [] = [] from rfl, List.append_nil] at hall
  rw [hall] at hprefix
  obtain ⟨missing, hmissing⟩ := hprefix
  rw [← hmissing] at hrun
  obtain ⟨found, r, hlater, hfound⟩ := Reader.run_of_append hrun
  obtain ⟨whole, hwhole, rfl⟩ := List.prefix_map_iff.mp hfound
  refine ⟨whole, r.atEnd, hwhole, r.length_atEnd_le, ?_⟩
  have hfrontRun := Reader.run_rows (front.map (List.map translated))
  rw [List.flatMap_map] at hfrontRun
  rw [rows, universalNewlines_writerows, Reader.run_append, hfrontRun]
  simp [hlater]

end StateBenchmarks.Python.Csv
