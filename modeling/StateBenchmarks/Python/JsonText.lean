/-
# The text of JSON values

`json.dumps` and `json.loads` as functions on characters.  The writer follows
`ensure_ascii`: everything outside the printable ASCII characters is escaped, and
a character beyond the first plane becomes two escapes.  Where white space goes is
a `Layout`, which covers the separators and the indentation a caller can ask for.

The reader is the scanner of the standard library: it takes any white space, every
escape, and objects that name a key twice.  A number with a fraction or an exponent
is a float, whose value is left to `floatOf`.  Escapes of lone surrogates, for which
there is no character, are not read, nor are `NaN` and the infinities, for which
there is no value.
-/

import StateBenchmarks.Python.Json

namespace StateBenchmarks.Python

namespace JsonText

/-- The decimal numeral of a number. -/
def decimalDigits (n : ℕ) : List Char :=
  if n = 0 then ['0'] else (Nat.digits 10 n).reverse.map Nat.digitChar

/-- `int.__repr__`. -/
def intText : ℤ → List Char
  | .ofNat n => decimalDigits n
  | .negSucc n => '-' :: decimalDigits (n + 1)

/-- `'{0:04x}'.format(n)` for sixteen bits. -/
def hex4 (n : ℕ) : List Char :=
  [hexChar (n / 4096 % 16), hexChar (n / 256 % 16), hexChar (n / 16 % 16), hexChar (n % 16)]

def unicodeEscape (unit : ℕ) : List Char := '\\' :: 'u' :: hex4 unit

/-- The characters `ensure_ascii` leaves alone. -/
def isPlain (c : Char) : Bool := 32 ≤ c.toNat && c.toNat ≤ 126 && c != '"' && c != '\\'

/-- One character of a string. -/
def escaped (c : Char) : List Char :=
  if isPlain c then [c]
  else if c = '"' then ['\\', '"']
  else if c = '\\' then ['\\', '\\']
  else if c = '\n' then ['\\', 'n']
  else if c = '\r' then ['\\', 'r']
  else if c = '\t' then ['\\', 't']
  else if c = Char.ofNat 8 then ['\\', 'b']
  else if c = Char.ofNat 12 then ['\\', 'f']
  else if c.toNat < 0x10000 then unicodeEscape c.toNat
  else
    unicodeEscape (0xd800 + (c.toNat - 0x10000) / 1024) ++
      unicodeEscape (0xdc00 + (c.toNat - 0x10000) % 1024)

/-- The characters of a string and the quotation mark that closes it. -/
def closed (cs : List Char) : List Char := cs.flatMap escaped ++ ['"']

def quoted (s : String) : List Char := '"' :: closed s.toList

/-- Where a writer puts white space: before the first item of a container whose items are
`level` deep, before a further one, after the last one, and after a colon. -/
structure Layout where
  first : ℕ → List Char
  next : ℕ → List Char
  last : ℕ → List Char
  colon : List Char

/-- `json.dumps(v)`. -/
def Layout.standard : Layout := ⟨fun _ => [], fun _ => [' '], fun _ => [], [' ']⟩

/-- `json.dumps(v, separators=(",", ":"))`. -/
def Layout.compact : Layout := ⟨fun _ => [], fun _ => [], fun _ => [], []⟩

/-- `json.dumps(v, indent=width)`. -/
def Layout.indented (width : ℕ) : Layout where
  first level := '\n' :: List.replicate (width * level) ' '
  next level := '\n' :: List.replicate (width * level) ' '
  last level := '\n' :: List.replicate (width * (level - 1)) ' '
  colon := [' ']

variable (layout : Layout) (floatText : ℚ → List Char)

mutual

/-- The text of a value that stands `level` deep. -/
def dump (level : ℕ) : Json → List Char
  | .null => ['n', 'u', 'l', 'l']
  | .bool true => ['t', 'r', 'u', 'e']
  | .bool false => ['f', 'a', 'l', 's', 'e']
  | .int n => intText n
  | .float q => floatText q
  | .str s => quoted s
  | .arr [] => ['[', ']']
  | .arr (x :: xs) =>
      '[' :: layout.first (level + 1) ++ dump (level + 1) x ++ dumpItems (level + 1) xs
  | .obj [] => ['{', '}']
  | .obj ((key, v) :: fields) =>
      '{' :: layout.first (level + 1) ++ quoted key ++ ':' :: layout.colon ++
        dump (level + 1) v ++ dumpFields (level + 1) fields

/-- The further items of a list, and its end. -/
def dumpItems (level : ℕ) : List Json → List Char
  | [] => layout.last level ++ [']']
  | x :: xs => ',' :: layout.next level ++ dump level x ++ dumpItems level xs

/-- The further fields of an object, and its end. -/
def dumpFields (level : ℕ) : List (String × Json) → List Char
  | [] => layout.last level ++ ['}']
  | (key, v) :: fields =>
      ',' :: layout.next level ++ quoted key ++ ':' :: layout.colon ++ dump level v ++
        dumpFields level fields

end

/-- `json.dumps`. -/
def dumps (v : Json) : String := String.ofList (dump layout floatText 0 v)

/-- The white space of JSON. -/
def isBlank (c : Char) : Bool := c == ' ' || c == '\t' || c == '\n' || c == '\r'

def skip (cs : List Char) : List Char := cs.dropWhile isBlank

/-- Four hexadecimal digits. -/
def readHex4 : List Char → Option (ℕ × List Char)
  | a :: b :: c :: d :: rest => do
      let a ← hexVal? a
      let b ← hexVal? b
      let c ← hexVal? c
      let d ← hexVal? d
      return (a * 4096 + b * 256 + c * 16 + d, rest)
  | _ => none

/-- The second half of a surrogate pair, after a first one. -/
def readLow (high : ℕ) : List Char → Option (Char × List Char)
  | '\\' :: 'u' :: rest => do
      let (low, rest) ← readHex4 rest
      if 0xdc00 ≤ low ∧ low < 0xe000 then
        return (Char.ofNat (0x10000 + (high - 0xd800) * 1024 + (low - 0xdc00)), rest)
      else none
  | _ => none

/-- What follows `\u`. -/
def readUnicode (cs : List Char) : Option (Char × List Char) := do
  let (unit, rest) ← readHex4 cs
  if 0xd800 ≤ unit ∧ unit < 0xdc00 then readLow unit rest
  else if 0xdc00 ≤ unit ∧ unit < 0xe000 then none
  else return (Char.ofNat unit, rest)

/-- What follows a backslash. -/
def readEscape : List Char → Option (Char × List Char)
  | 'u' :: rest => readUnicode rest
  | '"' :: rest => some ('"', rest)
  | '\\' :: rest => some ('\\', rest)
  | '/' :: rest => some ('/', rest)
  | 'b' :: rest => some (Char.ofNat 8, rest)
  | 'f' :: rest => some (Char.ofNat 12, rest)
  | 'n' :: rest => some ('\n', rest)
  | 'r' :: rest => some ('\r', rest)
  | 't' :: rest => some ('\t', rest)
  | _ => none

/-- What follows a quotation mark, up to the one that closes it.  Each round takes a
character, so that the length of the text is fuel enough. -/
def readChars : ℕ → List Char → Option (List Char × List Char)
  | 0, _ | _, [] => none
  | fuel + 1, c :: rest =>
      if c = '"' then some ([], rest)
      else if c = '\\' then do
        let (c, rest) ← readEscape rest
        let (cs, rest) ← readChars fuel rest
        return (c :: cs, rest)
      else if c.toNat < 32 then none
      else do
        let (cs, rest) ← readChars fuel rest
        return (c :: cs, rest)

def readString (cs : List Char) : Option (String × List Char) := do
  let (chars, rest) ← readChars cs.length cs
  return (String.ofList chars, rest)

/-- The value of decimal digits. -/
def decimalValue (digits : List Char) : ℕ :=
  digits.foldl (fun n c => n * 10 + (c.toNat - 48)) 0

/-- The digits of an integer: zero alone, or digits that do not begin with it. -/
def readInteger : List Char → Option (List Char × List Char)
  | '0' :: rest => some (['0'], rest)
  | cs =>
      let digits := cs.takeWhile Char.isDigit
      if digits = [] then none else some (digits, cs.dropWhile Char.isDigit)

/-- `(\.[0-9]+)?`. -/
def readFraction : List Char → List Char × List Char
  | '.' :: rest =>
      let digits := rest.takeWhile Char.isDigit
      if digits = [] then ([], '.' :: rest) else ('.' :: digits, rest.dropWhile Char.isDigit)
  | cs => ([], cs)

/-- `[-+]?`. -/
def readSign : List Char → List Char × List Char
  | '-' :: rest => (['-'], rest)
  | '+' :: rest => (['+'], rest)
  | cs => ([], cs)

/-- `([eE][-+]?[0-9]+)?`. -/
def readExponent : List Char → List Char × List Char
  | [] => ([], [])
  | c :: rest =>
      let (sign, unsigned) := readSign rest
      let digits := unsigned.takeWhile Char.isDigit
      if (c = 'e' ∨ c = 'E') ∧ digits ≠ [] then
        (c :: sign ++ digits, unsigned.dropWhile Char.isDigit)
      else ([], c :: rest)

variable (floatOf : List Char → ℚ)

/-- A number without its sign. -/
def readMagnitude (negative : Bool) (cs : List Char) : Option (Json × List Char) := do
  let (digits, rest) ← readInteger cs
  let (fraction, rest) := readFraction rest
  let (exponent, rest) := readExponent rest
  if fraction = [] ∧ exponent = [] then
    let value : ℤ := decimalValue digits
    return (.int (if negative then -value else value), rest)
  else
    let text := (if negative then ['-'] else []) ++ digits ++ fraction ++ exponent
    return (.float (floatOf text), rest)

def readNumber : List Char → Option (Json × List Char)
  | '-' :: rest => readMagnitude floatOf true rest
  | cs => readMagnitude floatOf false cs

mutual

/-- One value.  Of two calls inside each other one takes a character, so that twice the
length of the text is fuel enough. -/
def readValue : ℕ → List Char → Option (Json × List Char)
  | 0, _ => none
  | fuel + 1, cs =>
      match cs with
      | '"' :: rest => do
          let (s, rest) ← readString rest
          return (.str s, rest)
      | '[' :: rest =>
          match skip rest with
          | ']' :: rest => some (.arr [], rest)
          | rest => do
              let (items, rest) ← readItems fuel rest
              return (.arr items, rest)
      | '{' :: rest =>
          match skip rest with
          | '}' :: rest => some (.obj [], rest)
          | rest => do
              let (fields, rest) ← readFields fuel rest
              return (.obj (Dict.update [] fields), rest)
      | 'n' :: 'u' :: 'l' :: 'l' :: rest => some (.null, rest)
      | 't' :: 'r' :: 'u' :: 'e' :: rest => some (.bool true, rest)
      | 'f' :: 'a' :: 'l' :: 's' :: 'e' :: rest => some (.bool false, rest)
      | cs => readNumber floatOf cs

/-- The items of a list up to its end, the next of which begins here. -/
def readItems : ℕ → List Char → Option (List Json × List Char)
  | 0, _ => none
  | fuel + 1, cs => do
      let (x, rest) ← readValue fuel cs
      match skip rest with
      | ']' :: rest => return ([x], rest)
      | ',' :: rest => do
          let (xs, rest) ← readItems fuel (skip rest)
          return (x :: xs, rest)
      | _ => none

/-- The fields of an object up to its end, the next of which begins here. -/
def readFields : ℕ → List Char → Option (List (String × Json) × List Char)
  | 0, _ => none
  | fuel + 1, cs =>
      match cs with
      | '"' :: rest => do
          let (key, rest) ← readString rest
          match skip rest with
          | ':' :: rest => do
              let (v, rest) ← readValue fuel (skip rest)
              match skip rest with
              | '}' :: rest => return ([(key, v)], rest)
              | ',' :: rest => do
                  let (fields, rest) ← readFields fuel (skip rest)
                  return ((key, v) :: fields, rest)
              | _ => none
          | _ => none
      | _ => none

end

/-- `json.loads`: the value, or nothing where it raises. -/
def loads (text : String) : Option Json := do
  let cs := skip text.toList
  let (v, rest) ← readValue floatOf (2 * cs.length + 1) cs
  if skip rest = [] then return v else none

example :
    (loads (fun _ => 0) " [1 ,-20,\n \"\\ud83d\\uDE00\\/\"] ").map
      (dumps .standard fun _ => []) = some "[1, -20, \"\\ud83d\\ude00/\"]" := by
  decide +kernel

end JsonText

end StateBenchmarks.Python
