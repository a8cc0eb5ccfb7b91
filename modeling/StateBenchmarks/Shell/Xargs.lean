/-
# The words of a line

`xargs` splits its input at white space and has a quoting of its own: a quote takes in
what is up to its match, and a backslash the character behind it.  On one line it ends at
an unmatched quote, after the words in front of that.  What it prints, a shell splits
again where the variable it is put into is not quoted.

On a line without quotes and backslashes both find the words between the blanks.
-/

import Mathlib.Data.List.Basic
import StateBenchmarks.Shell.Lines

namespace StateBenchmarks.Shell

open Control

/-- White space between the words a shell splits. -/
def isFieldSpace (c : Char) : Bool := c == ' ' || c == '\t' || c == '\n'

/-- The words a shell splits a text into. -/
def fields (text : Text) : List Text := (text.splitOnP isFieldSpace).filter (· ≠ [])

/-- White space as the C library has it. -/
def isSpace (c : Char) : Bool :=
  isFieldSpace c || c == '\r' || c.toNat == 11 || c.toNat == 12

/-- Where `xargs` is.  The characters of the word it is in are back to front. -/
inductive XargsMode where
  | between
  | word (w : Text)
  | quoted (quote : Char) (w : Text)
  | escaped (w : Text)

/-- A character in a word or at the start of one. -/
def XargsMode.enter (w : Text) (c : Char) : XargsMode :=
  if c = '\\' then .escaped w else if c = '\'' ∨ c = '"' then .quoted c w else .word (c :: w)

/-- One character: the word it ends, if it ends one, and where `xargs` is then. -/
def XargsMode.read : XargsMode → Char → List Text × XargsMode
  | .between, c => if isSpace c then ([], .between) else ([], .enter [] c)
  | .word w, c =>
      if c = ' ' ∨ c = '\t' then ([w.reverse], .between) else ([], .enter w c)
  | .quoted quote w, c => if c = quote then ([], .word w) else ([], .quoted quote (c :: w))
  | .escaped w, c => ([], .word (c :: w))

/-- The word the newline behind a line ends. -/
def XargsMode.finish : XargsMode → List Text
  | .between => []
  | .word w => if w = [] then [] else [w.reverse]
  | .quoted _ _ => []
  | .escaped w => [w.reverse ++ ['\n']]

/-- The words of the rest of a line. -/
def xargsFrom : XargsMode → Text → List Text
  | mode, [] => mode.finish
  | mode, c :: rest => (mode.read c).1 ++ xargsFrom (mode.read c).2 rest

/-- The words `xargs` makes of a line. -/
def xargsWords (line : Text) : List Text := xargsFrom .between line

example : xargsWords "  url  'my file'\\ x ".toList = ["url".toList, "my file x".toList] := by
  decide

example : xargsWords "don't know".toList = [] ∧ xargsWords "url don't".toList = ["url".toList] := by
  decide

/-- A character `xargs` takes for what a shell does. -/
structure IsPlainChar (c : Char) : Prop where
  not_backslash : c ≠ '\\'
  not_quote : c ≠ '\'' ∧ c ≠ '"'
  blank_of_space : isSpace c = true → c = ' ' ∨ c = '\t'

variable {c : Char} {line : Text}

theorem isFieldSpace_of_blank (h : c = ' ' ∨ c = '\t') : isFieldSpace c = true := by
  rcases h with rfl | rfl <;> rfl

theorem IsPlainChar.isFieldSpace_iff (h : IsPlainChar c) :
    isFieldSpace c = true ↔ c = ' ' ∨ c = '\t' := by
  refine ⟨fun hspace => h.blank_of_space ?_, isFieldSpace_of_blank⟩
  rw [isSpace, hspace]
  rfl

theorem IsPlainChar.enter (h : IsPlainChar c) (w : Text) :
    XargsMode.enter w c = .word (c :: w) := by
  rw [XargsMode.enter, if_neg h.not_backslash, if_neg (not_or.mpr h.not_quote)]

theorem fields_append_space (h : isFieldSpace c = true) (front rest : Text) :
    fields (front ++ c :: rest) = fields front ++ fields rest := by
  rw [fields, List.splitOnP_append_cons _ _ h, List.filter_append]
  rfl

theorem fields_of_noSpace {word : Text} (h : ∀ c ∈ word, isFieldSpace c = false) (hne : word ≠ []) :
    fields word = [word] := by
  rw [fields, List.splitOnP_eq_singleton (by simpa using h)]
  simp [hne]

/-- On a plain line the words are those between the blanks, wherever `xargs` starts. -/
theorem xargsFrom_plain (h : ∀ c ∈ line, IsPlainChar c) :
    xargsFrom .between line = fields line ∧
      ∀ w : Text, (∀ c ∈ w, isFieldSpace c = false) → w ≠ [] →
        xargsFrom (.word w) line = fields (w.reverse ++ line) := by
  induction line with
  | nil =>
      refine ⟨rfl, fun w hw hne => ?_⟩
      have hword : fields w.reverse = [w.reverse] :=
        fields_of_noSpace (by simpa using hw) (by simpa using hne)
      rw [List.append_nil, hword, xargsFrom, XargsMode.finish, if_neg hne]
  | cons c rest ih =>
      rw [List.forall_mem_cons] at h
      obtain ⟨hbetween, hword⟩ := ih h.2
      rw [xargsFrom, XargsMode.read]
      cases hspace : isFieldSpace c with
      | true =>
          have hblank := h.1.isFieldSpace_iff.mp hspace
          have hc : isSpace c = true := by
            rw [isSpace, hspace]
            rfl
          refine ⟨?_, fun w hw hne => ?_⟩
          · rw [if_pos hc, ← List.nil_append (c :: rest), fields_append_space hspace]
            exact hbetween
          · have hwhole : fields w.reverse = [w.reverse] :=
              fields_of_noSpace (by simpa using hw) (by simpa using hne)
            rw [xargsFrom, XargsMode.read, if_pos hblank, fields_append_space hspace, hwhole,
              hbetween]
      | false =>
          have hblank : ¬ (c = ' ' ∨ c = '\t') := by
            rw [← h.1.isFieldSpace_iff, hspace]
            exact Bool.false_ne_true
          have hc : isSpace c = true → False := fun hc => hblank (h.1.blank_of_space hc)
          refine ⟨?_, fun w hw hne => ?_⟩
          · rw [if_neg hc, h.1.enter]
            exact hword [c] (by simpa using hspace) (by simp)
          · rw [xargsFrom, XargsMode.read, if_neg hblank, h.1.enter]
            have hmore := hword (c :: w) (List.forall_mem_cons.mpr ⟨hspace, hw⟩) (by simp)
            rw [List.reverse_cons, List.append_assoc] at hmore
            exact hmore

/-- On a plain line `xargs` finds the words between the blanks. -/
theorem xargsWords_of_plain (h : ∀ c ∈ line, IsPlainChar c) : xargsWords line = fields line :=
  (xargsFrom_plain h).1

/-- Of white space `xargs` makes no word. -/
theorem xargsWords_of_space (h : ∀ c ∈ line, isSpace c = true) : xargsWords line = [] := by
  rw [xargsWords]
  induction line with
  | nil => rfl
  | cons c rest ih =>
      rw [List.forall_mem_cons] at h
      rw [xargsFrom, XargsMode.read, if_pos h.1]
      exact ih h.2

/-- A word has characters, and none of them is white space. -/
theorem of_mem_fields {text word : Text} (h : word ∈ fields text) :
    word ≠ [] ∧ ∀ c ∈ word, isFieldSpace c = false := by
  obtain ⟨hmem, hne⟩ := List.mem_filter.mp h
  exact ⟨by simpa using hne, fun c hc => (of_mem_splitOnP hmem c hc).2⟩

/-- The characters of a word are the text's. -/
theorem mem_of_mem_fields {text word : Text} (h : word ∈ fields text) : ∀ c ∈ word, c ∈ text := by
  obtain ⟨hmem, -⟩ := List.mem_filter.mp h
  exact fun c hc => (of_mem_splitOnP hmem c hc).1

/-- A text of more than white space has words. -/
theorem fields_ne_nil {text : Text} (hmem : c ∈ text) (h : isFieldSpace c = false) :
    fields text ≠ [] := by
  induction text with
  | nil => cases hmem
  | cons d rest ih =>
      cases hd : isFieldSpace d with
      | true =>
          have hrest : c ∈ rest := by
            refine (List.mem_cons.mp hmem).resolve_left ?_
            rintro rfl
            rw [h] at hd
            cases hd
          rw [← List.nil_append (d :: rest), fields_append_space hd]
          exact ih hrest
      | false =>
          obtain ⟨first, more, hsplit⟩ :=
            List.exists_cons_of_ne_nil (List.splitOnP_ne_nil isFieldSpace rest)
          rw [fields, List.splitOnP_cons_eq_if_modifyHead, if_neg (ne_true_of_eq_false hd), hsplit]
          simp

/-- Between words with blanks there is no newline. -/
theorem newline_not_mem_intercalate {words : List Text}
    (h : ∀ word ∈ words, ∀ c ∈ word, isFieldSpace c = false) :
    '\n' ∉ [' '].intercalate words := by
  induction words with
  | nil => simp
  | cons word rest ih =>
      rw [List.forall_mem_cons] at h
      have hword : '\n' ∉ word := fun hmem => absurd (h.1 _ hmem) (by decide)
      cases rest with
      | nil => simpa using hword
      | cons next more =>
          rw [List.intercalate_cons_of_ne_nil (by simp), List.mem_append, List.mem_append]
          rintro ((hmem | hmem) | hmem)
          · exact hword hmem
          · exact absurd hmem (by decide)
          · exact ih h.2 hmem

/-- Words printed with blanks between them are read back. -/
theorem fields_intercalate {words : List Text}
    (h : ∀ word ∈ words, word ≠ [] ∧ ∀ c ∈ word, isFieldSpace c = false) :
    fields ([' '].intercalate words) = words := by
  induction words with
  | nil => rfl
  | cons word rest ih =>
      rw [List.forall_mem_cons] at h
      have hword : fields word = [word] := fields_of_noSpace h.1.2 h.1.1
      cases rest with
      | nil => simpa using hword
      | cons next more =>
          rw [List.intercalate_cons_of_ne_nil (by simp), List.append_assoc,
            List.singleton_append, fields_append_space rfl, hword, ih h.2]
          rfl

end StateBenchmarks.Shell
