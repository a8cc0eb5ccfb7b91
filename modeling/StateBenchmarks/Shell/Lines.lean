/-
# Files of settings, edited in place

Scripts keep their settings in files of lines and edit them with `sed -i` and `printf >>`,
line by line.  Two kinds of settings are here: assignments `key=value`, where the last one
of a key counts, and quoted scalars `key: "value"`, with anything in front of the key being
white space.

A value is what the line has for it afterwards.  That it can stand in the replacement of a
`sed` command, where some characters are read, is for the caller to see to.
-/

import Mathlib.Data.List.TakeWhile
import StateBenchmarks.Control.Splitting

namespace StateBenchmarks.Shell

open Control

abbrev Text := List Char

/-- The lines of a file.  Behind its last newline there is an empty one, which no edit here
changes. -/
def lines (text : Text) : List Text := text.splitOn '\n'

/-- `sed -i`, one line after the other. -/
def editLines (f : Text → Text) (text : Text) : Text := ['\n'].intercalate ((lines text).map f)

variable {text : Text}

theorem lines_ne_nil (text : Text) : lines text ≠ [] := List.splitOn_ne_nil '\n' text

theorem exists_last_line (text : Text) : ∃ front last, lines text = front ++ [last] := by
  rcases List.eq_nil_or_concat (lines text) with hnil | ⟨front, last, hconcat⟩
  · exact absurd hnil (lines_ne_nil text)
  · exact ⟨front, last, by rw [hconcat, List.concat_eq_append]⟩

theorem newline_not_mem_line {line : Text} (h : line ∈ lines text) : '\n' ∉ line :=
  not_mem_of_mem_splitOn h

/-- The lines of an edited file are the edited lines. -/
theorem lines_editLines {f : Text → Text} (hf : ∀ line, '\n' ∉ line → '\n' ∉ f line) :
    lines (editLines f text) = (lines text).map f := by
  apply List.splitOn_intercalate
  · intro edited hedited
    obtain ⟨line, hline, rfl⟩ := List.mem_map.mp hedited
    exact hf line (newline_not_mem_line hline)
  · simpa using lines_ne_nil text

theorem intercalate_concat_append (front : List Text) (last line : Text) :
    ['\n'].intercalate (front ++ [last]) ++ line =
      ['\n'].intercalate (front ++ [last ++ line]) := by
  induction front with
  | nil => simp
  | cons first front ih =>
      rw [List.cons_append, List.cons_append, List.intercalate_cons_of_ne_nil (by simp),
        List.intercalate_cons_of_ne_nil (by simp), List.append_assoc, ih]

/-- What is appended with its newline goes on where the last line has stopped. -/
theorem lines_append {front : List Text} {last line : Text} (htext : lines text = front ++ [last])
    (hline : '\n' ∉ line) : lines (text ++ (line ++ ['\n'])) = front ++ [last ++ line, []] := by
  have hlines : ∀ l ∈ front ++ [last ++ line], '\n' ∉ l := by
    have hall : ∀ l ∈ front ++ [last], '\n' ∉ l := fun l hl =>
      newline_not_mem_line (htext ▸ hl)
    rw [List.forall_mem_append, List.forall_mem_singleton] at hall ⊢
    refine ⟨hall.1, ?_⟩
    rw [List.mem_append, not_or]
    exact ⟨hall.2, hline⟩
  have hwhole : text = ['\n'].intercalate (front ++ [last]) := by
    rw [← htext, lines, List.intercalate_splitOn]
  have hsplit : lines (text ++ line) = front ++ [last ++ line] := by
    rw [hwhole, intercalate_concat_append]
    exact List.splitOn_intercalate '\n' hlines (by simp)
  rw [← List.append_assoc, lines, List.splitOn_append_cons_self, ← lines, hsplit]
  simp

/-- `^key=`. -/
def assigns (key line : Text) : Bool := (key ++ ['=']).isPrefixOf line

/-- The line that assigns a value. -/
def assignment (key value : Text) : Text := key ++ '=' :: value

/-- A key of a file of assignments has neither `=` nor a newline in it. -/
structure IsKey (key : Text) : Prop where
  no_equals : '=' ∉ key
  no_newline : '\n' ∉ key

/-- Setting a key: each line of its own is replaced, and without one a new line goes to the
end of the file. -/
def setKey (key value text : Text) : Text :=
  if (lines text).any (assigns key) then
    editLines (fun line => if assigns key line then assignment key value else line) text
  else text ++ (assignment key value ++ ['\n'])

/-- The value of the last line of a key. -/
def valueOf (key text : Text) : Option Text :=
  ((lines text).reverse.find? (assigns key)).map fun line => line.drop (key.length + 1)

theorem assigns_iff {key line : Text} :
    assigns key line = true ↔ ∃ value, line = assignment key value := by
  rw [assigns, List.isPrefixOf_iff_prefix]
  apply Iff.intro
  · rintro ⟨value, rfl⟩
    exact ⟨value, by simp [assignment]⟩
  · rintro ⟨value, rfl⟩
    exact ⟨value, by simp [assignment]⟩

theorem assigns_assignment (key value : Text) : assigns key (assignment key value) = true :=
  assigns_iff.mpr ⟨value, rfl⟩

theorem takeWhile_assignment {key : Text} (h : '=' ∉ key) (value : Text) :
    (assignment key value).takeWhile (· != '=') = key := by
  have hall : ∀ c ∈ key, (c != '=') = true := fun c hc => bne_iff_ne.mpr fun heq => h (heq ▸ hc)
  rw [assignment, List.takeWhile_append_of_pos hall]
  simp

/-- A line is for one key only. -/
theorem key_eq_of_assignment {key other value line : Text} (hkey : IsKey key)
    (hother : IsKey other) (h : assignment key value = assignment other line) : key = other := by
  rw [← takeWhile_assignment hkey.no_equals value, h, takeWhile_assignment hother.no_equals]

theorem assigns_assignment_of_ne {key other : Text} (value : Text) (hkey : IsKey key)
    (hother : IsKey other) (hne : other ≠ key) : assigns other (assignment key value) = false := by
  rw [Bool.eq_false_iff]
  intro h
  obtain ⟨line, hline⟩ := assigns_iff.mp h
  exact hne (key_eq_of_assignment hkey hother hline).symm

/-- Where the lines end: in a file without content, or behind a newline. -/
def Closed (text : Text) : Prop := ∃ front, lines text = front ++ [[]]

theorem assigns_nil (key : Text) : assigns key [] = false := by
  rw [Bool.eq_false_iff]
  intro h
  obtain ⟨value, hvalue⟩ := assigns_iff.mp h
  simp [assignment] at hvalue

section SetKey

variable {key other value : Text}

theorem lines_setKey_of_present (hkey : IsKey key) (hvalue : '\n' ∉ value)
    (h : (lines text).any (assigns key) = true) :
    lines (setKey key value text) =
      (lines text).map fun line => if assigns key line then assignment key value else line := by
  rw [setKey, if_pos h]
  apply lines_editLines
  intro line hline
  split_ifs
  · rw [assignment, List.mem_append, List.mem_cons, not_or, not_or]
    exact ⟨hkey.no_newline, by decide, hvalue⟩
  · exact hline

theorem lines_setKey_of_absent (hkey : IsKey key) (hvalue : '\n' ∉ value)
    (h : (lines text).any (assigns key) = false) {front : List Text} {last : Text}
    (htext : lines text = front ++ [last]) :
    lines (setKey key value text) = front ++ [last ++ assignment key value, []] := by
  rw [setKey, if_neg (by simp [h])]
  apply lines_append htext
  rw [assignment, List.mem_append, List.mem_cons, not_or, not_or]
  exact ⟨hkey.no_newline, by decide, hvalue⟩

/-- What is found among lines that were edited. -/
theorem find?_reverse_map {f : Text → Text} {p q : Text → Bool} {ls : List Text}
    (h : ∀ line, p (f line) = q line) :
    (ls.map f).reverse.find? p = (ls.reverse.find? q).map f := by
  rw [← List.map_reverse, List.find?_map]
  congr 2
  exact funext h

/-- A line that has stopped in the middle does not become one for the key. -/
theorem assigns_append_assignment (hkey : IsKey key) {last : Text} (hne : last ≠ [])
    (h : assigns key last = false) : assigns key (last ++ assignment key value) = false := by
  rw [Bool.eq_false_iff]
  intro hassigns
  obtain ⟨rest, hrest⟩ := assigns_iff.mp hassigns
  by_cases hmem : '=' ∈ last
  · -- the first `=` is in what was there before
    obtain ⟨front, back, hlast, hfront⟩ := List.eq_append_cons_of_mem hmem
    have hfrontKey : front = key := by
      have htake := congrArg (List.takeWhile (· != '=')) hrest
      have hall : ∀ c ∈ front, (c != '=') = true := fun c hc =>
        bne_iff_ne.mpr fun heq => hfront (heq ▸ hc)
      rw [takeWhile_assignment hkey.no_equals, hlast, List.append_assoc,
        List.takeWhile_append_of_pos hall, List.cons_append,
        List.takeWhile_cons_of_neg (by simp), List.append_nil] at htake
      exact htake
    rw [Bool.eq_false_iff] at h
    exact h (assigns_iff.mpr ⟨back, by rw [hlast, hfrontKey, assignment]⟩)
  · have htake := congrArg (List.takeWhile (· != '=')) hrest
    have hall : ∀ c ∈ last, (c != '=') = true := fun c hc =>
      bne_iff_ne.mpr fun heq => hmem (heq ▸ hc)
    rw [List.takeWhile_append_of_pos hall, takeWhile_assignment hkey.no_equals,
      takeWhile_assignment hkey.no_equals] at htake
    exact hne (List.append_left_eq_self.mp htake)

theorem drop_assignment (key value : Text) :
    (assignment key value).drop (key.length + 1) = value := by
  rw [assignment, ← List.drop_drop, List.drop_left]
  rfl

/-- A key with a line is read back. -/
theorem valueOf_setKey_of_present (hkey : IsKey key) (hvalue : '\n' ∉ value)
    (h : (lines text).any (assigns key) = true) :
    valueOf key (setKey key value text) = some value := by
  have hsame : ∀ line, assigns key (if assigns key line then assignment key value else line) =
      assigns key line := by
    intro line
    split_ifs with hline
    · rw [assigns_assignment, hline]
    · rfl
  rw [valueOf, lines_setKey_of_present hkey hvalue h, find?_reverse_map hsame]
  obtain ⟨line, hline, hassigns⟩ := List.any_eq_true.mp h
  cases hfound : (lines text).reverse.find? (assigns key) with
  | none =>
      exact absurd hassigns (List.find?_eq_none.mp hfound line (List.mem_reverse.mpr hline))
  | some found =>
      rw [Option.map_some, Option.map_some, if_pos (List.find?_some hfound), drop_assignment]

/-- What is read for any key after a new line for one. -/
theorem valueOf_setKey_of_absent (hkey : IsKey key) (hvalue : '\n' ∉ value)
    (h : (lines text).any (assigns key) = false) {front : List Text} {last : Text}
    (htext : lines text = front ++ [last]) :
    valueOf other (setKey key value text) =
      (((last ++ assignment key value) :: front.reverse).find? (assigns other)).map
        fun line => line.drop (other.length + 1) := by
  rw [valueOf, lines_setKey_of_absent hkey hvalue h htext, List.reverse_append]
  show (([] :: (last ++ assignment key value) :: front.reverse).find? (assigns other)).map _ = _
  rw [List.find?_cons_of_neg (by simp [assigns_nil])]

/-- **A key that is set is read back exactly where it had a line, or the file did not stop in
the middle of one.** -/
theorem valueOf_setKey_iff (hkey : IsKey key) (hvalue : '\n' ∉ value) :
    valueOf key (setKey key value text) = some value ↔
      (lines text).any (assigns key) = true ∨ Closed text := by
  cases hany : (lines text).any (assigns key) with
  | true => exact iff_of_true (valueOf_setKey_of_present hkey hvalue hany) (.inl rfl)
  | false =>
      obtain ⟨front, last, htext⟩ := exists_last_line text
      have hlines : ∀ line ∈ front ++ [last], ¬ assigns key line = true := fun line hline =>
        List.any_eq_false.mp hany line (htext ▸ hline)
      rw [List.forall_mem_append, List.forall_mem_singleton] at hlines
      have hnone : front.reverse.find? (assigns key) = none :=
        List.find?_eq_none.mpr fun line hline => hlines.1 line (List.mem_reverse.mp hline)
      have hclosed : Closed text ↔ last = [] := by
        rw [Closed, htext]
        apply Iff.intro
        · rintro ⟨front', heq⟩
          exact List.singleton_inj.mp (List.append_inj' heq rfl).2
        · rintro rfl
          exact ⟨front, rfl⟩
      rw [valueOf_setKey_of_absent hkey hvalue hany htext, hclosed, or_iff_right (by simp)]
      by_cases hlast : last = []
      · rw [hlast, List.nil_append, List.find?_cons_of_pos (assigns_assignment key value),
          Option.map_some, drop_assignment]
        exact iff_of_true rfl rfl
      · have hmiddle : assigns key (last ++ assignment key value) = false :=
          assigns_append_assignment hkey hlast (Bool.eq_false_iff.mpr hlines.2)
        rw [List.find?_cons_of_neg (by simp [hmiddle]), hnone]
        exact iff_of_false nofun hlast

/-- Other keys are as they were. -/
theorem valueOf_setKey_of_ne (hkey : IsKey key) (hother : IsKey other) (hne : other ≠ key)
    (hvalue : '\n' ∉ value) (h : (lines text).any (assigns key) = true ∨ Closed text) :
    valueOf other (setKey key value text) = valueOf other text := by
  cases hany : (lines text).any (assigns key) with
  | true =>
      have hexclusive : ∀ line, assigns other line = true → assigns key line = false := by
        intro line hline
        obtain ⟨v, rfl⟩ := assigns_iff.mp hline
        exact assigns_assignment_of_ne v hother hkey hne.symm
      have hsame : ∀ line, assigns other (if assigns key line then assignment key value else line) =
          assigns other line := by
        intro line
        split_ifs with hline
        · rw [assigns_assignment_of_ne value hkey hother hne, eq_comm, Bool.eq_false_iff]
          intro hboth
          rw [hexclusive line hboth] at hline
          exact Bool.false_ne_true hline
        · rfl
      rw [valueOf, lines_setKey_of_present hkey hvalue hany, find?_reverse_map hsame, valueOf]
      cases hfound : (lines text).reverse.find? (assigns other) with
      | none => rfl
      | some line =>
          have hline := hexclusive line (List.find?_some hfound)
          rw [Option.map_some, if_neg (by simp [hline])]
  | false =>
      obtain ⟨front, hfront⟩ := h.resolve_left (by simp [hany])
      rw [valueOf_setKey_of_absent hkey hvalue hany hfront, valueOf, hfront, List.reverse_append,
        List.nil_append]
      show _ = (([] :: front.reverse).find? (assigns other)).map _
      rw [List.find?_cons_of_neg (by simp [assigns_assignment_of_ne value hkey hother hne]),
        List.find?_cons_of_neg (by simp [assigns_nil])]

/-- A file whose last line is ended stays one. -/
theorem Closed.setKey (hkey : IsKey key) (hvalue : '\n' ∉ value) (h : Closed text) :
    Closed (setKey key value text) := by
  obtain ⟨front, hfront⟩ := h
  cases hany : (lines text).any (assigns key) with
  | true =>
      refine ⟨front.map fun line => if assigns key line then assignment key value else line, ?_⟩
      rw [lines_setKey_of_present hkey hvalue hany, hfront, List.map_append]
      simp [assigns_nil]
  | false =>
      refine ⟨front ++ [assignment key value], ?_⟩
      rw [lines_setKey_of_absent hkey hvalue hany hfront]
      simp

end SetKey

/-! ## Quoted scalars -/

/-- `[[:space:]]`, within a line. -/
def isLineSpace (c : Char) : Bool :=
  c == ' ' || c == '\t' || c == '\r' || c.toNat == 11 || c.toNat == 12

/-- `^[[:space:]]*key:`, and what comes behind it. -/
def afterKey (key line : Text) : Option (Text × Text) :=
  let rest := line.dropWhile isLineSpace
  if (key ++ [':']).isPrefixOf rest then
    some (line.takeWhile isLineSpace ++ (key ++ [':']), rest.drop (key.length + 1))
  else none

def isKeyLine (key line : Text) : Bool := (afterKey key line).isSome

/-- What stands before and behind the last quote. -/
def atLastQuote (body : Text) : Option (Text × Text) :=
  if '"' ∈ body then
    let tail := (body.reverse.takeWhile (· != '"')).reverse
    some (body.take (body.length - (tail.length + 1)), tail)
  else none

/-- `(^[[:space:]]*key:[[:space:]]*").*(")`: the first group, what is between, and the rest
of the line from the second group on. -/
def quoted? (key line : Text) : Option (Text × Text × Text) :=
  match afterKey key line with
  | none => none
  | some (head, rest) =>
      match rest.dropWhile isLineSpace with
      | '"' :: body =>
          (atLastQuote body).map fun (value, tail) =>
            (head ++ (rest.takeWhile isLineSpace ++ ['"']), value, '"' :: tail)
      | _ => none

/-- `sed -i "s|(…).*(…)|\1value\2|"` on one line. -/
def setQuoted (key value line : Text) : Text :=
  match quoted? key line with
  | some (front, _, back) => front ++ (value ++ back)
  | none => line

/-- The edit of a file. -/
def setScalar (key value text : Text) : Text := editLines (setQuoted key value) text

/-- `sed "s|^[^\"]*\"([^\"]*)\".*|\1|"` on one line: what stands between its first two
quotes. -/
def firstQuoted (line : Text) : Text :=
  match line.dropWhile (· != '"') with
  | _ :: rest => if '"' ∈ rest then rest.takeWhile (· != '"') else line
  | [] => line

/-- `grep "^[[:space:]]*key:" | head -1 | sed …`. -/
def readScalar (key text : Text) : Text :=
  match (lines text).find? (isKeyLine key) with
  | some line => firstQuoted line
  | none => []

/-- A key begins with no white space, and has no colon or quote in it. -/
structure IsScalarKey (key : Text) : Prop where
  starts : ∃ c rest, key = c :: rest ∧ isLineSpace c = false
  no_colon : ':' ∉ key
  no_quote : '"' ∉ key

/-- What stands before and behind the value in a line that quotes it. -/
structure Frames (key front back : Text) : Prop where
  front : ∃ blanks gap, (∀ c ∈ blanks, isLineSpace c = true) ∧ (∀ c ∈ gap, isLineSpace c = true) ∧
    front = blanks ++ (key ++ [':']) ++ (gap ++ ['"'])
  back : ∃ tail, '"' ∉ tail ∧ back = '"' :: tail

theorem atLastQuote_iff {body value tail : Text} :
    atLastQuote body = some (value, tail) ↔ body = value ++ '"' :: tail ∧ '"' ∉ tail := by
  have hsplit : ∀ {v t : Text}, '"' ∉ t → atLastQuote (v ++ '"' :: t) = some (v, t) := by
    intro v t ht
    have hall : ∀ c ∈ t.reverse, (c != '"') = true := fun c hc =>
      bne_iff_ne.mpr fun heq => ht (heq ▸ List.mem_reverse.mp hc)
    have htake : ((v ++ '"' :: t).reverse.takeWhile (· != '"')).reverse = t := by
      rw [List.reverse_append, List.reverse_cons, List.append_assoc,
        List.takeWhile_append_of_pos hall, List.singleton_append,
        List.takeWhile_cons_of_neg (by simp), List.append_nil, List.reverse_reverse]
    rw [atLastQuote, if_pos (by simp), htake]
    simp
  apply Iff.intro
  · intro h
    have hmem : '"' ∈ body := by
      by_contra hmem
      rw [atLastQuote, if_neg hmem] at h
      cases h
    obtain ⟨front, back, hbody, hfront⟩ := List.eq_append_cons_of_mem (List.mem_reverse.mpr hmem)
    have hsplitBody : body = back.reverse ++ '"' :: front.reverse := by
      rw [← List.reverse_reverse body, hbody]
      simp
    have htail : '"' ∉ front.reverse := fun hq => hfront (List.mem_reverse.mp hq)
    rw [hsplitBody, hsplit htail] at h
    cases h
    exact ⟨hsplitBody, htail⟩
  · rintro ⟨rfl, ht⟩
    exact hsplit ht

theorem span_spaces {blanks : Text} (h : ∀ c ∈ blanks, isLineSpace c = true) {c : Char}
    (hc : isLineSpace c = false) (rest : Text) :
    (blanks ++ c :: rest).takeWhile isLineSpace = blanks ∧
      (blanks ++ c :: rest).dropWhile isLineSpace = c :: rest := by
  rw [List.takeWhile_append_of_pos h, List.dropWhile_append_of_pos h,
    List.takeWhile_cons_of_neg (by simp [hc]), List.dropWhile_cons_of_neg (by simp [hc]),
    List.append_nil]
  exact ⟨rfl, rfl⟩

theorem afterKey_iff {key line head rest : Text} (hkey : IsScalarKey key) :
    afterKey key line = some (head, rest) ↔
      ∃ blanks, (∀ c ∈ blanks, isLineSpace c = true) ∧ head = blanks ++ (key ++ [':']) ∧
        line = head ++ rest := by
  apply Iff.intro
  · intro h
    rw [afterKey] at h
    split_ifs at h with hmark
    obtain ⟨back, hback⟩ := List.isPrefixOf_iff_prefix.mp hmark
    obtain ⟨rfl, rfl⟩ := Prod.mk.inj (Option.some.inj h)
    refine ⟨_, fun c hc => List.mem_takeWhile_imp hc, rfl, ?_⟩
    have hlength : (key ++ [':']).length = key.length + 1 := by simp
    rw [← hback, ← hlength, List.drop_left, List.append_assoc, hback,
      List.takeWhile_append_dropWhile]
  · rintro ⟨blanks, hblanks, rfl, rfl⟩
    obtain ⟨c, more, rfl, hc⟩ := hkey.starts
    have hspan := span_spaces hblanks hc (more ++ ':' :: rest)
    have hline : blanks ++ ((c :: more) ++ [':']) ++ rest =
        blanks ++ c :: (more ++ ':' :: rest) := by
      simp
    rw [afterKey, hline, hspan.1, hspan.2, if_pos]
    · simp
    · rw [List.isPrefixOf_iff_prefix]
      exact ⟨rest, by simp⟩

theorem quoted?_iff {key line front value back : Text} (hkey : IsScalarKey key) :
    quoted? key line = some (front, value, back) ↔
      Frames key front back ∧ line = front ++ (value ++ back) := by
  apply Iff.intro
  · intro h
    rw [quoted?] at h
    cases hafter : afterKey key line with
    | none =>
        rw [hafter] at h
        cases h
    | some parts =>
        obtain ⟨head, rest⟩ := parts
        obtain ⟨blanks, hblanks, rfl, rfl⟩ := (afterKey_iff hkey).mp hafter
        rw [hafter] at h
        simp only at h
        split at h
        · rename_i body hbody
          obtain ⟨⟨v, tail⟩, hlast, heq⟩ := Option.map_eq_some_iff.mp h
          cases heq
          obtain ⟨rfl, htail⟩ := atLastQuote_iff.mp hlast
          refine ⟨⟨⟨blanks, _, hblanks, fun c hc => List.mem_takeWhile_imp hc, rfl⟩,
            tail, htail, rfl⟩, ?_⟩
          have hrest := @List.takeWhile_append_dropWhile _ isLineSpace rest
          rw [hbody] at hrest
          have hline : blanks ++ (key ++ [':']) ++ rest = blanks ++ (key ++ [':']) ++
              (rest.takeWhile isLineSpace ++ '"' :: (v ++ '"' :: tail)) := by
            rw [hrest]
          rw [hline]
          simp
        · cases h
  · rintro ⟨⟨⟨blanks, gap, hblanks, hgap, rfl⟩, tail, htail, rfl⟩, rfl⟩
    have hafter : afterKey key
        (blanks ++ (key ++ [':']) ++ (gap ++ '"' :: (value ++ '"' :: tail))) =
        some (blanks ++ (key ++ [':']), gap ++ '"' :: (value ++ '"' :: tail)) :=
      (afterKey_iff hkey).mpr ⟨blanks, hblanks, rfl, rfl⟩
    have hspan := span_spaces hgap (show isLineSpace '"' = false by decide) (value ++ '"' :: tail)
    have hline : blanks ++ (key ++ [':']) ++ (gap ++ ['"']) ++ (value ++ '"' :: tail) =
        blanks ++ (key ++ [':']) ++ (gap ++ '"' :: (value ++ '"' :: tail)) := by
      simp
    rw [hline, quoted?, hafter]
    simp only [hspan.1, hspan.2, atLastQuote_iff.mpr ⟨rfl, htail⟩, Option.map_some]

section SetScalar

variable {key other value line : Text}

/-- A line that is quoted keeps what stands around its value. -/
theorem quoted?_setQuoted (hkey : IsScalarKey key) (value line : Text) :
    quoted? key (setQuoted key value line) =
      (quoted? key line).map fun parts => (parts.1, value, parts.2.2) := by
  rw [setQuoted]
  cases hquoted : quoted? key line with
  | none => exact hquoted
  | some parts =>
      obtain ⟨front, old, back⟩ := parts
      exact (quoted?_iff hkey).mpr ⟨((quoted?_iff hkey).mp hquoted).1, rfl⟩

theorem isKeyLine_iff (hkey : IsScalarKey key) :
    isKeyLine key line = true ↔
      ∃ blanks rest, (∀ c ∈ blanks, isLineSpace c = true) ∧
        line = blanks ++ (key ++ [':']) ++ rest := by
  rw [isKeyLine, Option.isSome_iff_exists]
  apply Iff.intro
  · rintro ⟨⟨head, rest⟩, h⟩
    obtain ⟨blanks, hblanks, rfl, rfl⟩ := (afterKey_iff hkey).mp h
    exact ⟨blanks, rest, hblanks, rfl⟩
  · rintro ⟨blanks, rest, hblanks, rfl⟩
    exact ⟨_, (afterKey_iff hkey).mpr ⟨blanks, hblanks, rfl, rfl⟩⟩

/-- A line is for one key only. -/
theorem key_eq_of_isKeyLine (hkey : IsScalarKey key) (hother : IsScalarKey other)
    (h : isKeyLine key line = true) (h' : isKeyLine other line = true) : key = other := by
  have hname : ∀ {k : Text}, IsScalarKey k → isKeyLine k line = true →
      (line.dropWhile isLineSpace).takeWhile (· != ':') = k := by
    intro k hk hline
    obtain ⟨blanks, rest, hblanks, rfl⟩ := (isKeyLine_iff hk).mp hline
    obtain ⟨c, more, rfl, hc⟩ := hk.starts
    have hall : ∀ d ∈ c :: more, (d != ':') = true := fun d hd =>
      bne_iff_ne.mpr fun heq => hk.no_colon (heq ▸ hd)
    have hshape : blanks ++ ((c :: more) ++ [':']) ++ rest =
        blanks ++ c :: (more ++ ':' :: rest) := by
      simp
    rw [hshape, (span_spaces hblanks hc _).2, ← List.cons_append,
      List.takeWhile_append_of_pos hall, List.takeWhile_cons_of_neg (by simp), List.append_nil]
  rw [← hname hkey h, hname hother h']

theorem isKeyLine_of_quoted? (h : (quoted? key line).isSome = true) :
    isKeyLine key line = true := by
  rw [isKeyLine]
  rw [quoted?] at h
  cases hafter : afterKey key line with
  | none =>
      rw [hafter] at h
      cases h
  | some parts => rfl

/-- The edit keeps what each line is for. -/
theorem isKeyLine_setQuoted (hkey : IsScalarKey key) (hother : IsScalarKey other)
    (value line : Text) : isKeyLine other (setQuoted key value line) = isKeyLine other line := by
  rw [setQuoted]
  cases hquoted : quoted? key line with
  | none => rfl
  | some parts =>
      obtain ⟨front, old, back⟩ := parts
      obtain ⟨hframes, rfl⟩ := (quoted?_iff hkey).mp hquoted
      have hkeyLine : ∀ v, isKeyLine key (front ++ (v ++ back)) = true := by
        intro v
        apply isKeyLine_of_quoted?
        rw [(quoted?_iff hkey).mpr ⟨hframes, rfl⟩]
        rfl
      by_cases heq : other = key
      · rw [heq, hkeyLine, hkeyLine]
      · have hnot : ∀ v, isKeyLine other (front ++ (v ++ back)) = false := fun v =>
          Bool.eq_false_iff.mpr fun h => heq (key_eq_of_isKeyLine hother hkey h (hkeyLine v))
        rw [hnot, hnot]

/-- Lines of other keys are as they were. -/
theorem setQuoted_of_isKeyLine (hkey : IsScalarKey key) (hother : IsScalarKey other)
    (hne : other ≠ key) (h : isKeyLine other line = true) : setQuoted key value line = line := by
  rw [setQuoted]
  cases hquoted : quoted? key line with
  | none => rfl
  | some parts =>
      have hline := isKeyLine_of_quoted? (by rw [hquoted]; rfl)
      exact absurd (key_eq_of_isKeyLine hother hkey h hline) hne

/-- The value between quotes is the one a reader finds. -/
theorem firstQuoted_of_frames (hkey : IsScalarKey key) {front back : Text}
    (h : Frames key front back) (hvalue : '"' ∉ value) :
    firstQuoted (front ++ (value ++ back)) = value := by
  obtain ⟨⟨blanks, gap, hblanks, hgap, rfl⟩, tail, -, rfl⟩ := h
  have hspace : ∀ {spaces : Text}, (∀ c ∈ spaces, isLineSpace c = true) →
      ∀ c ∈ spaces, (c != '"') = true := by
    intro spaces hall c hc
    rw [bne_iff_ne]
    rintro rfl
    exact absurd (hall _ hc) (by decide)
  have hbefore : ∀ c ∈ blanks ++ (key ++ [':']) ++ gap, (c != '"') = true := by
    simp only [List.forall_mem_append, List.forall_mem_singleton]
    refine ⟨⟨hspace hblanks, fun c hc => ?_, by decide⟩, hspace hgap⟩
    exact bne_iff_ne.mpr fun heq => hkey.no_quote (heq ▸ hc)
  have hinside : ∀ c ∈ value, (c != '"') = true := fun c hc =>
    bne_iff_ne.mpr fun heq => hvalue (heq ▸ hc)
  have hline : blanks ++ (key ++ [':']) ++ (gap ++ ['"']) ++ (value ++ '"' :: tail) =
      blanks ++ (key ++ [':']) ++ gap ++ '"' :: (value ++ '"' :: tail) := by
    simp
  have hdrop : (blanks ++ (key ++ [':']) ++ gap ++ '"' :: (value ++ '"' :: tail)).dropWhile
      (· != '"') = '"' :: (value ++ '"' :: tail) := by
    rw [List.dropWhile_append_of_pos hbefore, List.dropWhile_cons_of_neg (by simp)]
  rw [hline, firstQuoted, hdrop]
  simp only [List.mem_append, List.mem_cons, true_or, or_true, if_true]
  rw [List.takeWhile_append_of_pos hinside, List.takeWhile_cons_of_neg (by simp),
    List.append_nil]

/-- A value that can stand in a line between quotes. -/
structure IsScalar (value : Text) : Prop where
  no_quote : '"' ∉ value
  no_newline : '\n' ∉ value

theorem lines_setScalar (hkey : IsScalarKey key) (hvalue : IsScalar value) (text : Text) :
    lines (setScalar key value text) = (lines text).map (setQuoted key value) := by
  apply lines_editLines
  intro line hline
  rw [setQuoted]
  cases hquoted : quoted? key line with
  | none => exact hline
  | some parts =>
      obtain ⟨front, old, back⟩ := parts
      obtain ⟨-, rfl⟩ := (quoted?_iff hkey).mp hquoted
      simp only [List.mem_append, not_or] at hline ⊢
      exact ⟨hline.1, hvalue.no_newline, hline.2.2⟩

/-- The first line of a key. -/
def keyLine (key text : Text) : Option Text := (lines text).find? (isKeyLine key)

theorem keyLine_setScalar (hkey : IsScalarKey key) (hother : IsScalarKey other)
    (hvalue : IsScalar value) (text : Text) :
    keyLine other (setScalar key value text) = (keyLine other text).map (setQuoted key value) := by
  rw [keyLine, lines_setScalar hkey hvalue, List.find?_map, keyLine]
  congr 2
  exact funext fun line => isKeyLine_setQuoted hkey hother value line

/-- The first line of another key is as it was. -/
theorem keyLine_setScalar_of_ne (hkey : IsScalarKey key) (hother : IsScalarKey other)
    (hne : other ≠ key) (hvalue : IsScalar value) (text : Text) :
    keyLine other (setScalar key value text) = keyLine other text := by
  rw [keyLine_setScalar hkey hother hvalue]
  cases hline : keyLine other text with
  | none => rfl
  | some line =>
      rw [Option.map_some, setQuoted_of_isKeyLine hkey hother hne (List.find?_some hline)]

/-- The file quotes a value for the key. -/
def Quotes (key text : Text) : Prop := ∃ line ∈ keyLine key text, (quoted? key line).isSome = true

/-- **A scalar that is set is read back.** -/
theorem readScalar_setScalar (hkey : IsScalarKey key) (hvalue : IsScalar value)
    (h : Quotes key text) : readScalar key (setScalar key value text) = value := by
  obtain ⟨line, hline, hquoted⟩ := h
  obtain ⟨⟨front, old, back⟩, hparts⟩ := Option.isSome_iff_exists.mp hquoted
  have hframes := ((quoted?_iff hkey).mp hparts).1
  have hfound := keyLine_setScalar hkey hkey hvalue text
  rw [Option.mem_def.mp hline, Option.map_some, setQuoted, hparts] at hfound
  rw [keyLine] at hfound
  rw [readScalar, hfound]
  exact firstQuoted_of_frames hkey hframes hvalue.no_quote

/-- Other scalars are as they were. -/
theorem readScalar_setScalar_of_ne (hkey : IsScalarKey key) (hother : IsScalarKey other)
    (hne : other ≠ key) (hvalue : IsScalar value) (text : Text) :
    readScalar other (setScalar key value text) = readScalar other text := by
  rw [readScalar, readScalar, ← keyLine, ← keyLine,
    keyLine_setScalar_of_ne hkey hother hne hvalue]

theorem quotes_setScalar_iff (hkey : IsScalarKey key) (hother : IsScalarKey other)
    (hvalue : IsScalar value) : Quotes other (setScalar key value text) ↔ Quotes other text := by
  by_cases heq : other = key
  · subst heq
    simp only [Quotes, keyLine_setScalar hother hother hvalue, Option.mem_def,
      Option.map_eq_some_iff]
    apply Iff.intro
    · rintro ⟨-, ⟨line, hline, rfl⟩, hquoted⟩
      rw [quoted?_setQuoted hother, Option.isSome_map] at hquoted
      exact ⟨line, hline, hquoted⟩
    · rintro ⟨line, hline, hquoted⟩
      refine ⟨_, ⟨line, hline, rfl⟩, ?_⟩
      rwa [quoted?_setQuoted hother, Option.isSome_map]
  · rw [Quotes, keyLine_setScalar_of_ne hkey hother heq hvalue, ← Quotes]

/-- The last value set is the one that stays. -/
theorem setQuoted_setQuoted (hkey : IsScalarKey key) (value last line : Text) :
    setQuoted key last (setQuoted key value line) = setQuoted key last line := by
  cases hquoted : quoted? key line with
  | none =>
      have hsame : setQuoted key value line = line := by rw [setQuoted, hquoted]
      rw [hsame]
  | some parts =>
      have hagain := quoted?_setQuoted hkey value line
      rw [hquoted, Option.map_some] at hagain
      have hboth : ∀ {l : Text} {v : Text}, quoted? key l = some (parts.1, v, parts.2.2) →
          setQuoted key last l = parts.1 ++ (last ++ parts.2.2) := by
        intro l v h
        rw [setQuoted, h]
      rw [hboth hagain, hboth hquoted]

/-- Values of different keys do not get in each other's way. -/
theorem setQuoted_comm (hkey : IsScalarKey key) (hother : IsScalarKey other) (hne : other ≠ key)
    (value otherValue line : Text) :
    setQuoted key value (setQuoted other otherValue line) =
      setQuoted other otherValue (setQuoted key value line) := by
  have hskips : ∀ {k l : Text} (v : Text), quoted? k l = none → setQuoted k v l = l := by
    intro k l v h
    rw [setQuoted, h]
  cases hquoted : quoted? key line with
  | some parts =>
      have hline : isKeyLine key line = true := isKeyLine_of_quoted? (by rw [hquoted]; rfl)
      have hagain : isKeyLine key (setQuoted key value line) = true := by
        rw [isKeyLine_setQuoted hkey hkey, hline]
      rw [setQuoted_of_isKeyLine hother hkey hne.symm hline,
        setQuoted_of_isKeyLine hother hkey hne.symm hagain]
  | none =>
      rw [hskips value hquoted]
      cases hotherQuoted : quoted? other line with
      | none => rw [hskips otherValue hotherQuoted, hskips value hquoted]
      | some parts =>
          have hline : isKeyLine other line = true :=
            isKeyLine_of_quoted? (by rw [hotherQuoted]; rfl)
          apply setQuoted_of_isKeyLine hkey hother hne
          rw [isKeyLine_setQuoted hother hother, hline]

theorem text_eq_of_lines {first second : Text} (h : lines first = lines second) :
    first = second := by
  have hjoin : ∀ t : Text, ['\n'].intercalate (lines t) = t := fun t => by
    rw [lines, List.intercalate_splitOn]
  rw [← hjoin first, h, hjoin second]

theorem setScalar_setScalar (hkey : IsScalarKey key) {last : Text} (hvalue : IsScalar value)
    (hlast : IsScalar last) (text : Text) :
    setScalar key last (setScalar key value text) = setScalar key last text := by
  apply text_eq_of_lines
  rw [lines_setScalar hkey hlast, lines_setScalar hkey hvalue, lines_setScalar hkey hlast,
    List.map_map]
  exact List.map_congr_left fun line _ => setQuoted_setQuoted hkey value last line

theorem setScalar_comm (hkey : IsScalarKey key) (hother : IsScalarKey other) (hne : other ≠ key)
    {otherValue : Text} (hvalue : IsScalar value) (hotherValue : IsScalar otherValue)
    (text : Text) :
    setScalar key value (setScalar other otherValue text) =
      setScalar other otherValue (setScalar key value text) := by
  apply text_eq_of_lines
  rw [lines_setScalar hkey hvalue, lines_setScalar hother hotherValue,
    lines_setScalar hother hotherValue, lines_setScalar hkey hvalue, List.map_map, List.map_map]
  exact List.map_congr_left fun line _ => setQuoted_comm hkey hother hne value otherValue line

end SetScalar

end StateBenchmarks.Shell
