/-
# Python text and hexadecimal numerals

The program reads and writes numbers as `0x` strings.  Its two directions are
Python's own: `hex(n)` prints the shortest lower-case numeral, and
`int(text, 16)` accepts a wider language (surrounding white space, a sign, an
optional prefix, either case, single underscores between digits).  This module
gives both as executable definitions and proves that reading undoes printing.

Only ASCII digits are read.  Python also accepts the decimal digits of other
scripts, which no writer in this program produces.
-/

import Mathlib.Data.Nat.Digits.Lemmas
import Mathlib.Data.Rat.Defs

namespace StateBenchmarks.Python

/-- The characters `str.strip` removes, as `str.isspace` lists them. -/
def isSpace (c : Char) : Bool :=
  let n := c.toNat
  (9 ≤ n && n ≤ 13) || (28 ≤ n && n ≤ 32) || n == 0x85 || n == 0xa0 ||
    n == 0x1680 || (0x2000 ≤ n && n ≤ 0x200a) || n == 0x2028 || n == 0x2029 ||
    n == 0x202f || n == 0x205f || n == 0x3000

/-- `str.strip` on the characters of a string. -/
def stripChars (cs : List Char) : List Char :=
  ((cs.dropWhile isSpace).reverse.dropWhile isSpace).reverse

/-- `str.strip()`. -/
def strip (s : String) : String := String.ofList (stripChars s.toList)

/-- `str.lower()` on the ASCII letters, which is all a lookup among ASCII names
can distinguish: no other character lower-cases into one of those names. -/
def lower (s : String) : String := String.ofList (s.toList.map Char.toLower)

/-- Text without white space is its own strip. -/
theorem stripChars_eq_self {cs : List Char} (h : ∀ c ∈ cs, isSpace c = false) :
    stripChars cs = cs := by
  have hfront : cs.dropWhile isSpace = cs := by
    cases cs with
    | nil => rfl
    | cons c rest => rw [List.dropWhile_cons_of_neg (by simp [h c])]
  have hback : cs.reverse.dropWhile isSpace = cs.reverse := by
    cases hrev : cs.reverse with
    | nil => rfl
    | cons c rest =>
        have hmem : c ∈ cs := by
          rw [← List.mem_reverse, hrev]
          exact List.mem_cons_self
        rw [List.dropWhile_cons_of_neg (by simp [h c hmem])]
  rw [stripChars, hfront, hback, List.reverse_reverse]

/-- What `float` and `int` make of a text, `none` where they raise
`ValueError`. -/
structure NumberText where
  float : String → Option ℚ
  int : String → Option ℤ

/-- The pieces of `str.split()`: `word` is what has been read of the current one,
back to front. -/
def splitFrom (word : List Char) : List Char → List (List Char)
  | [] => if word = [] then [] else [word.reverse]
  | c :: rest =>
      if isSpace c then
        if word = [] then splitFrom [] rest else word.reverse :: splitFrom [] rest
      else splitFrom (c :: word) rest

/-- `str.split()`. -/
def splitWords (s : String) : List String := (splitFrom [] s.toList).map String.ofList

/-- Iterating a text file: a line ends after `\n`, `\r` or both, each of which is
read as `\n`.  `line` is what has been read of the current one, back to front,
and `ended` says that a `\r` has just ended the one before. -/
def linesFrom (line : List Char) (ended : Bool) : List Char → List (List Char)
  | [] => if line = [] then [] else [line.reverse]
  | c :: rest =>
      if c = '\n' ∧ ended = true then linesFrom line false rest
      else if c = '\n' ∨ c = '\r' then
        ('\n' :: line).reverse :: linesFrom [] (c == '\r') rest
      else linesFrom (c :: line) false rest

/-- `for line in f` over the text of a file. -/
def textLines (s : String) : List String := (linesFrom [] false s.toList).map String.ofList

/-- After a newline the lines start afresh. -/
theorem linesFrom_newline (line front back : List Char) (ended : Bool)
    (h : ended = true → line = []) :
    linesFrom line ended (front ++ '\n' :: back) =
      linesFrom line ended (front ++ ['\n']) ++ linesFrom [] false back := by
  induction front generalizing line ended with
  | nil =>
      cases ended with
      | true => simp [linesFrom, h rfl]
      | false => simp [linesFrom]
  | cons c rest ih =>
      simp only [List.cons_append, linesFrom]
      split_ifs with hskip hend
      · exact ih line false (by simp)
      · rw [ih [] (c == '\r') fun _ => rfl, List.cons_append]
      · exact ih (c :: line) false (by simp)

/-- A line without returns is one line. -/
theorem linesFrom_line (line : List Char) {cs : List Char} (h : ∀ c ∈ cs, c ≠ '\n' ∧ c ≠ '\r') :
    linesFrom line false (cs ++ ['\n']) = [line.reverse ++ cs ++ ['\n']] := by
  induction cs generalizing line with
  | nil => simp [linesFrom]
  | cons c rest ih =>
      rw [List.forall_mem_cons] at h
      rw [List.cons_append, linesFrom, if_neg (fun hc => h.1.1 hc.1),
        if_neg (not_or.mpr h.1), ih _ h.2]
      simp

/-- The lower-case digit Python prints for a value below sixteen. -/
def hexChar (d : ℕ) : Char := Nat.digitChar d

/-- The value of one hexadecimal digit, in either case. -/
def hexVal? (c : Char) : Option ℕ :=
  if '0' ≤ c ∧ c ≤ '9' then some (c.toNat - 48)
  else if 'a' ≤ c ∧ c ≤ 'f' then some (c.toNat - 87)
  else if 'A' ≤ c ∧ c ≤ 'F' then some (c.toNat - 55)
  else none

theorem hexVal?_hexChar {d : ℕ} (h : d < 16) : hexVal? (hexChar d) = some d := by
  have hall : ∀ k : Fin 16, hexVal? (hexChar k) = some k.val := by decide
  exact hall ⟨d, h⟩

theorem isSpace_hexChar {d : ℕ} (h : d < 16) : isSpace (hexChar d) = false := by
  have hall : ∀ k : Fin 16, isSpace (hexChar k) = false := by decide
  exact hall ⟨d, h⟩

/-- A printed digit is neither of the two characters the reader treats apart. -/
theorem hexChar_ne {d : ℕ} (h : d < 16) :
    hexChar d ≠ '_' ∧ hexChar d ≠ 'x' ∧ hexChar d ≠ 'X' := by
  have hall : ∀ k : Fin 16, hexChar k ≠ '_' ∧ hexChar k ≠ 'x' ∧ hexChar k ≠ 'X' := by
    decide
  exact hall ⟨d, h⟩

/-- The digits of `hex(n)` after the prefix. -/
def hexDigits (n : ℕ) : List Char :=
  if n = 0 then ['0'] else (Nat.digits 16 n).reverse.map hexChar

/-- `hex(n)` for a non-negative integer. -/
def hex (n : ℕ) : String := String.ofList ('0' :: 'x' :: hexDigits n)

theorem mem_hexDigits {n : ℕ} {c : Char} (h : c ∈ hexDigits n) :
    ∃ d < 16, c = hexChar d := by
  by_cases hn : n = 0
  · rw [hexDigits, if_pos hn, List.mem_singleton] at h
    exact ⟨0, by omega, h⟩
  · rw [hexDigits, if_neg hn, List.mem_map] at h
    obtain ⟨d, hd, rfl⟩ := h
    exact ⟨d, Nat.digits_lt_base (by omega) (List.mem_reverse.mp hd), rfl⟩

/-- The numeral is minimal: no leading zero, except the one digit of zero. -/
theorem head_hexDigits {n : ℕ} (hn : n ≠ 0) : (hexDigits n).head? ≠ some '0' := by
  have hne : Nat.digits 16 n ≠ [] := Nat.digits_ne_nil_iff_ne_zero.mpr hn
  have hlast := Nat.getLast_digit_ne_zero 16 hn
  rw [hexDigits, if_neg hn, List.head?_map, List.head?_reverse,
    List.getLast?_eq_getLast_of_ne_nil hne, Option.map_some, ne_eq, Option.some.injEq]
  intro hzero
  have hlt : (Nat.digits 16 n).getLast hne < 16 :=
    Nat.digits_lt_base (by omega) (List.getLast_mem hne)
  have hval := hexVal?_hexChar hlt
  rw [hzero] at hval
  exact hlast (Option.some.inj (hval.symm.trans (by decide : hexVal? '0' = some 0)))

/-- Digits with single underscores between them.  `digitBefore` says whether an
underscore may stand here and whether the text may end here. -/
def readDigits (acc : ℕ) (digitBefore : Bool) : List Char → Option ℕ
  | [] => if digitBefore then some acc else none
  | c :: rest =>
      if c = '_' then
        if digitBefore then readDigits acc false rest else none
      else
        match hexVal? c with
        | some d => readDigits (acc * 16 + d) true rest
        | none => none

/-- The text after the sign: an optional prefix, then the digits.  An
underscore may follow the prefix, but the prefix alone is not a numeral. -/
def readUnsigned : List Char → Option ℕ
  | '0' :: x :: rest =>
      if x = 'x' ∨ x = 'X' then
        if rest = [] then none else readDigits 0 true rest
      else readDigits 0 false ('0' :: x :: rest)
  | cs => readDigits 0 false cs

/-- `int(text, 16)`: the value, or `none` where Python raises `ValueError`. -/
def readInt16 (s : String) : Option ℤ :=
  match stripChars s.toList with
  | '-' :: rest => (readUnsigned rest).map fun n => -(n : ℤ)
  | '+' :: rest => (readUnsigned rest).map Int.ofNat
  | cs => (readUnsigned cs).map Int.ofNat

/-- Reading printed digits appends them to the accumulator. -/
theorem readDigits_map_hexChar (acc : ℕ) (digitBefore : Bool) (ds : List ℕ)
    (hds : ∀ d ∈ ds, d < 16) (hne : ds ≠ [] ∨ digitBefore = true) :
    readDigits acc digitBefore (ds.map hexChar) =
      some (acc * 16 ^ ds.length + Nat.ofDigits 16 ds.reverse) := by
  induction ds generalizing acc digitBefore with
  | nil =>
      rcases hne with hne | rfl
      · exact absurd rfl hne
      · simp [readDigits]
  | cons d ds ih =>
      have hd : d < 16 := hds d List.mem_cons_self
      have htail : ∀ e ∈ ds, e < 16 := fun e he => hds e (List.mem_cons_of_mem _ he)
      rw [List.map_cons, readDigits, if_neg (hexChar_ne hd).1, hexVal?_hexChar hd]
      simp only [ih (acc * 16 + d) true htail (Or.inr rfl), List.reverse_cons,
        Nat.ofDigits_append, Nat.ofDigits_singleton, List.length_reverse, List.length_cons]
      ring_nf

theorem readDigits_hexDigits (n : ℕ) : readDigits 0 true (hexDigits n) = some n := by
  by_cases hn : n = 0
  · subst hn
    decide
  · rw [hexDigits, if_neg hn, readDigits_map_hexChar _ _ _
      (fun d hd => Nat.digits_lt_base (by omega) (List.mem_reverse.mp hd)) (Or.inr rfl),
      List.reverse_reverse, Nat.ofDigits_digits]
    simp

theorem hexDigits_ne_nil (n : ℕ) : hexDigits n ≠ [] := by
  by_cases hn : n = 0
  · simp [hexDigits, hn]
  · simp [hexDigits, hn, Nat.digits_eq_nil_iff_eq_zero]

/-- Reading a printed numeral gives the number back. -/
theorem readInt16_hex (n : ℕ) : readInt16 (hex n) = some (n : ℤ) := by
  have hspace : ∀ c ∈ '0' :: 'x' :: hexDigits n, isSpace c = false := by
    intro c hc
    rcases List.mem_cons.mp hc with rfl | hc
    · decide
    · rcases List.mem_cons.mp hc with rfl | hc
      · decide
      · obtain ⟨d, hd, rfl⟩ := mem_hexDigits hc
        exact isSpace_hexChar hd
  have hstrip : stripChars (hex n).toList = '0' :: 'x' :: hexDigits n := by
    rw [hex, String.toList_ofList, stripChars_eq_self hspace]
  rw [readInt16, hstrip]
  simp [readUnsigned, hexDigits_ne_nil, readDigits_hexDigits]

end StateBenchmarks.Python
