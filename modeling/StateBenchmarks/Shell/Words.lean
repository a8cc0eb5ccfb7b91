/-
# What a shell reads in a command line

The part of the POSIX shell language that the command lines here are in: words with
their three ways of quoting, `&&`, and `>` before a file name.  A character that could
mean more than itself where it stands (an expansion, a pattern, another operator) is
outside it, and `tokens` answers nothing.  So an answer says what every POSIX shell
makes of the text.

A character of a word remembers whether it was quoted, since a quoted word is neither
an assignment nor a reserved word.
-/

import Mathlib.Data.List.Basic

namespace StateBenchmarks.Shell

/-- A character of a word. -/
structure Cell where
  char : Char
  quoted : Bool
  deriving DecidableEq

abbrev Word := List Cell

/-- The string a word stands for. -/
def Word.text (w : Word) : String := String.ofList (w.map Cell.char)

inductive Token where
  | word (w : Word)
  | andIf
  | redirect
  deriving DecidableEq

/-- Where the reader is.  The characters of the word it is in are back to front. -/
inductive Mode where
  | between
  | bare (w : Word)
  | single (w : Word)
  | double (w : Word)
  | escaped (w : Word)
  | doubleEscaped (w : Word)
  | ampersand
  | greater

/-- The characters that stand for themselves wherever they are. -/
def isLiteral (c : Char) : Bool :=
  c.isAlphanum || c == '_' || c == '@' || c == '%' || c == '+' || c == '=' || c == ':' ||
    c == ',' || c == '.' || c == '/' || c == '-'

/-- White space between words. -/
def isBlank (c : Char) : Bool := c == ' ' || c == '\t'

/-- An unquoted character in a word or at the start of one. -/
def enter (w : Word) (c : Char) : Option Mode :=
  if c = '\'' then some (.single w)
  else if c = '"' then some (.double w)
  else if c = '\\' then some (.escaped w)
  else if isLiteral c then some (.bare (⟨c, false⟩ :: w))
  else none

/-- One character: the token it ends, if it ends one, and where the reader is then. -/
def Mode.read (mode : Mode) (c : Char) : Option (List Token × Mode) :=
  match mode with
  | .between =>
      if isBlank c then some ([], .between)
      else if c = '&' then some ([], .ampersand)
      else if c = '>' then some ([], .greater)
      else (enter [] c).map fun mode => ([], mode)
  | .bare w =>
      if isBlank c then some ([.word w.reverse], .between)
      else (enter w c).map fun mode => ([], mode)
  | .single w =>
      if c = '\'' then some ([], .bare w) else some ([], .single (⟨c, true⟩ :: w))
  | .double w =>
      if c = '"' then some ([], .bare w)
      else if c = '\\' then some ([], .doubleEscaped w)
      else if c = '$' ∨ c.toNat = 96 then none
      else some ([], .double (⟨c, true⟩ :: w))
  | .escaped w => if c = '\n' then some ([], .bare w) else some ([], .bare (⟨c, true⟩ :: w))
  | .doubleEscaped w =>
      if c = '\n' then some ([], .double w)
      else if c = '"' ∨ c = '\\' ∨ c = '$' ∨ c.toNat = 96 then
        some ([], .double (⟨c, true⟩ :: w))
      else some ([], .double (⟨c, true⟩ :: ⟨'\\', true⟩ :: w))
  | .ampersand => if c = '&' then some ([.andIf], .between) else none
  | .greater => if isBlank c then some ([.redirect], .between) else none

/-- The tokens of the rest of a text. -/
def tokensFrom : Mode → List Char → Option (List Token)
  | .between, [] => some []
  | .bare w, [] => some [.word w.reverse]
  | _, [] => none
  | mode, c :: rest =>
      match mode.read c with
      | none => none
      | some (found, mode) => (tokensFrom mode rest).map (found ++ ·)

/-- The tokens of a text. -/
def tokens (text : String) : Option (List Token) := tokensFrom .between text.toList

/-- A simple command: its words, and the file its output goes to. -/
structure Simple where
  words : List Word
  target : Option Word

/-- The commands of an and-list, of which `current` is being read. -/
def commandsFrom (current : Simple) : List Token → Option (List Simple)
  | [] => if current.words = [] then none else some [current]
  | .word w :: rest => commandsFrom { current with words := current.words ++ [w] } rest
  | .andIf :: rest =>
      if current.words = [] then none
      else (commandsFrom ⟨[], none⟩ rest).map (current :: ·)
  | .redirect :: .word w :: rest =>
      if current.target.isSome then none else commandsFrom { current with target := some w } rest
  | .redirect :: _ => none

/-- The simple commands of a text, joined by `&&`. -/
def commands (text : String) : Option (List Simple) := (tokens text).bind (commandsFrom ⟨[], none⟩)

/-- The reserved words, those of `bash` included. -/
def reserved : List String :=
  ["if", "then", "else", "elif", "fi", "do", "done", "case", "esac", "while", "until", "for",
    "in", "function", "select", "time", "coproc"]

/-- A character of a name. -/
def isNameChar (c : Char) : Bool := c.isAlphanum || c == '_'

/-- A valid name. -/
def isName (cs : List Char) : Bool :=
  match cs with
  | [] => false
  | c :: rest => !c.isDigit && (c :: rest).all isNameChar

/-- The name before an equality sign; in some shells a `+` may stand between. -/
def assignedName (front : List Char) : List Char :=
  if front.getLast? = some '+' then front.dropLast else front

/-- A word `name=value` whose name and equality sign are not quoted. -/
def Word.isAssignment (w : Word) : Bool :=
  let front := w.takeWhile fun cell => cell.char != '='
  isName (assignedName (front.map Cell.char)) && front.all (fun cell => !cell.quoted) &&
    match w.drop front.length with
    | cell :: _ => !cell.quoted
    | [] => false

/-- A reserved word, none of it quoted. -/
def Word.isReserved (w : Word) : Bool :=
  w.all (fun cell => !cell.quoted) && reserved.contains w.text

/-- What `bash` takes for a job of its own, quoted or not. -/
def Word.isJob (w : Word) : Bool := w.head?.any fun cell => cell.char == '%'

/-- The name and the arguments of what a simple command runs: nothing where it assigns,
begins a compound command or names a job. -/
def Simple.argv (command : Simple) : Option (List String) :=
  match command.words with
  | [] => none
  | first :: rest =>
      if first.isAssignment || first.isReserved || first.isJob then none
      else some ((first :: rest).map Word.text)

/-- The text makes a shell run the command of this name with these arguments, and nothing
else. -/
def Runs (text : String) (argv : List String) : Prop :=
  ∃ command, commands text = some [command] ∧ command.target = none ∧ command.argv = some argv

example : (commands "a 'b c'\"'\"d && e > f").map (List.map fun c => c.words.map Word.text) =
    some [["a", "b c'd"], ["e"]] := by
  decide

section Reading

variable {mode mode' : Mode} {c : Char} {cs rest : List Char} {w : Word}

theorem tokensFrom_cons_of_read {found : List Token} (h : mode.read c = some (found, mode')) :
    tokensFrom mode (c :: rest) = (tokensFrom mode' rest).map (found ++ ·) := by
  rw [tokensFrom, h]

/-- A character that ends no token. -/
theorem tokensFrom_cons_of_silent (h : mode.read c = some ([], mode')) :
    tokensFrom mode (c :: rest) = tokensFrom mode' rest := by
  rw [tokensFrom_cons_of_read h]
  cases tokensFrom mode' rest <;> rfl

/-- Unquoted characters, and quoted ones. -/
def bareCells (cs : List Char) : Word := cs.map fun c => ⟨c, false⟩

def quotedCells (cs : List Char) : Word := cs.map fun c => ⟨c, true⟩

theorem text_bareCells (cs : List Char) : Word.text (bareCells cs) = String.ofList cs := by
  simp only [Word.text, bareCells, List.map_map, Function.comp_def, List.map_id']

theorem text_quotedCells (cs : List Char) : Word.text (quotedCells cs) = String.ofList cs := by
  simp only [Word.text, quotedCells, List.map_map, Function.comp_def, List.map_id']

/-- A literal is neither white space, nor an operator, nor a quotation mark. -/
theorem isLiteral_ne (h : isLiteral c = true) :
    c ≠ ' ' ∧ c ≠ '\t' ∧ c ≠ '&' ∧ c ≠ '>' ∧ c ≠ '\'' ∧ c ≠ '"' ∧ c ≠ '\\' := by
  refine ⟨?_, ?_, ?_, ?_, ?_, ?_, ?_⟩ <;> rintro rfl <;> cases h

theorem enter_literal (h : isLiteral c = true) : enter w c = some (.bare (⟨c, false⟩ :: w)) := by
  obtain ⟨-, -, -, -, hsingle, hdouble, hslash⟩ := isLiteral_ne h
  rw [enter, if_neg hsingle, if_neg hdouble, if_neg hslash, if_pos h]

theorem isBlank_literal (h : isLiteral c = true) : isBlank c = false := by
  obtain ⟨hspace, htab, -⟩ := isLiteral_ne h
  simp [isBlank, hspace, htab]

/-- Literals in a word go on with it. -/
theorem tokensFrom_bare (h : ∀ c ∈ cs, isLiteral c = true) :
    tokensFrom (.bare w) (cs ++ rest) = tokensFrom (.bare ((bareCells cs).reverse ++ w)) rest := by
  induction cs generalizing w with
  | nil => rfl
  | cons c cs ih =>
      rw [List.forall_mem_cons] at h
      have hread : (Mode.bare w).read c = some ([], .bare (⟨c, false⟩ :: w)) := by
        simp [Mode.read, isBlank_literal h.1, enter_literal h.1]
      rw [List.cons_append, tokensFrom_cons_of_silent hread, ih h.2]
      simp [bareCells]

/-- A literal begins a word. -/
theorem read_between_literal (h : isLiteral c = true) :
    Mode.between.read c = some ([], .bare [⟨c, false⟩]) := by
  obtain ⟨-, -, hampersand, hgreater, -⟩ := isLiteral_ne h
  simp [Mode.read, isBlank_literal h, hampersand, hgreater, enter_literal h]

/-- Between single quotes everything stands for itself. -/
theorem tokensFrom_single (h : '\'' ∉ cs) :
    tokensFrom (.single w) (cs ++ '\'' :: rest) =
      tokensFrom (.bare ((quotedCells cs).reverse ++ w)) rest := by
  induction cs generalizing w with
  | nil =>
      have hread : (Mode.single w).read '\'' = some ([], .bare w) := by simp [Mode.read]
      rw [List.nil_append, tokensFrom_cons_of_silent hread]
      rfl
  | cons c cs ih =>
      rw [List.mem_cons, not_or] at h
      have hread : (Mode.single w).read c = some ([], .single (⟨c, true⟩ :: w)) := by
        simp [Mode.read, Ne.symm h.1]
      rw [List.cons_append, tokensFrom_cons_of_silent hread, ih h.2]
      simp [quotedCells]

end Reading

/-- Where a word can begin, the text is this word. -/
def Spells (cs : List Char) (w : Word) : Prop :=
  ∀ rest, tokensFrom .between (cs ++ rest) = tokensFrom (.bare w.reverse) rest

namespace Spells

variable {cs : List Char} {w : Word}

theorem literal (hne : cs ≠ []) (h : cs.all isLiteral = true) : Spells cs (bareCells cs) := by
  intro rest
  cases cs with
  | nil => exact absurd rfl hne
  | cons c cs =>
      rw [List.all_cons, Bool.and_eq_true, List.all_eq_true] at h
      rw [List.cons_append, tokensFrom_cons_of_silent (read_between_literal h.1),
        tokensFrom_bare h.2]
      simp [bareCells]

theorem singleQuoted (h : '\'' ∉ cs) : Spells ('\'' :: (cs ++ ['\''])) (quotedCells cs) := by
  intro rest
  rw [List.cons_append, List.append_assoc,
    tokensFrom_cons_of_silent (show Mode.between.read '\'' = some ([], .single []) from rfl),
    List.singleton_append, tokensFrom_single h, List.append_nil]

/-- A word ends at white space. -/
theorem before_blank (h : Spells cs w) (rest : List Char) :
    tokensFrom .between (cs ++ ' ' :: rest) =
      (tokensFrom .between rest).map (.word w :: ·) := by
  have hread : (Mode.bare w.reverse).read ' ' = some ([.word w], .between) := by
    simp [Mode.read, isBlank]
  rw [h, tokensFrom_cons_of_read hread]
  rfl

/-- A word ends with the text. -/
theorem at_end (h : Spells cs w) : tokensFrom .between cs = some [.word w] := by
  have hend := h []
  rw [List.append_nil] at hend
  rw [hend, tokensFrom, List.reverse_reverse]

end Spells

/-- `&&` between white space. -/
theorem tokensFrom_andIf (rest : List Char) :
    tokensFrom .between ('&' :: '&' :: ' ' :: rest) =
      (tokensFrom .between rest).map (.andIf :: ·) := by
  rw [tokensFrom_cons_of_silent (show Mode.between.read '&' = some ([], .ampersand) from rfl),
    tokensFrom_cons_of_read (show Mode.ampersand.read '&' = some ([.andIf], .between) from rfl),
    tokensFrom_cons_of_silent (show Mode.between.read ' ' = some ([], .between) from rfl)]
  rfl

/-- `>` before white space. -/
theorem tokensFrom_redirect (rest : List Char) :
    tokensFrom .between ('>' :: ' ' :: rest) =
      (tokensFrom .between rest).map (.redirect :: ·) := by
  rw [tokensFrom_cons_of_silent (show Mode.between.read '>' = some ([], .greater) from rfl),
    tokensFrom_cons_of_read (show Mode.greater.read ' ' = some ([.redirect], .between) from rfl)]
  rfl

/-- Words with a blank between them are these words. -/
theorem tokens_intercalate {texts : List String} {words : List Word}
    (h : List.Forall₂ (fun text w => Spells text.toList w) texts words) :
    tokens (String.intercalate " " texts) = some (words.map .word) := by
  rw [tokens, String.toList_intercalate]
  induction h with
  | nil => rfl
  | @cons text w texts words h hrest ih =>
      cases hrest with
      | nil => simpa using h.at_end
      | cons _ _ =>
          rw [List.map_cons, List.map_cons, List.intercalate_cons_cons, ← List.map_cons,
            List.append_assoc, List.map_cons]
          exact (h.before_blank _).trans (congrArg (Option.map (.word w :: ·)) ih)

end StateBenchmarks.Shell
