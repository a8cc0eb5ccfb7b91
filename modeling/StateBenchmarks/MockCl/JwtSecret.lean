/-
# The secret of the Engine API

`load_secret` in `src/mock_cl/jwt_auth.py` takes the path of a file or the secret
itself, trims it, drops a prefix and reads the rest as hexadecimal.  Its docstring
promises the thirty-two bytes the Engine API asks for; what is tested is that
there is a byte.  `bytes.fromhex` also skips ASCII white space around the pairs.
-/

import StateBenchmarks.Python.Bytes
import StateBenchmarks.Python.Json

namespace StateBenchmarks.MockCl

open Python

/-- ASCII white space. -/
def isAsciiSpace (c : Char) : Bool := (9 ≤ c.toNat && c.toNat ≤ 13) || c.toNat == 32

/-- The byte of two hexadecimal digits. -/
def pairByte (high low : ℕ) : UInt8 := UInt8.ofNat (16 * high + low)

/-- `bytes.fromhex`, nothing where it raises. -/
def fromHex : List Char → Option Bytes
  | [] => some []
  | c :: rest =>
      if isAsciiSpace c then fromHex rest
      else
        match rest with
        | [] => none
        | d :: rest =>
            match hexVal? c, hexVal? d with
            | some high, some low => (fromHex rest).map (pairByte high low :: ·)
            | _, _ => none

/-- The text is the hex of the bytes: two digits a byte, in either case. -/
inductive IsHexOf : List Char → Bytes → Prop
  | nil : IsHexOf [] []
  | pair {c d : Char} {rest : List Char} {high low : ℕ} {bytes : Bytes}
      (hhigh : hexVal? c = some high) (hlow : hexVal? d = some low) (hrest : IsHexOf rest bytes) :
      IsHexOf (c :: d :: rest) (pairByte high low :: bytes)

/-- The text is the hex of the bytes, with ASCII white space around the pairs. -/
inductive IsSpacedHexOf : List Char → Bytes → Prop
  | nil : IsSpacedHexOf [] []
  | space {c : Char} {rest : List Char} {bytes : Bytes} (hspace : isAsciiSpace c = true)
      (hrest : IsSpacedHexOf rest bytes) : IsSpacedHexOf (c :: rest) bytes
  | pair {c d : Char} {rest : List Char} {high low : ℕ} {bytes : Bytes}
      (hhigh : hexVal? c = some high) (hlow : hexVal? d = some low)
      (hrest : IsSpacedHexOf rest bytes) :
      IsSpacedHexOf (c :: d :: rest) (pairByte high low :: bytes)

theorem IsHexOf.spaced {text : List Char} {bytes : Bytes} (h : IsHexOf text bytes) :
    IsSpacedHexOf text bytes := by
  induction h with
  | nil => exact .nil
  | pair hhigh hlow _ ih => exact .pair hhigh hlow ih

/-- A hexadecimal digit is no white space. -/
theorem isAsciiSpace_of_hexVal? {c : Char} {d : ℕ} (h : hexVal? c = some d) :
    isAsciiSpace c = false := by
  have hbounds : 48 ≤ c.toNat := by
    rw [hexVal?] at h
    split_ifs at h with hdigit hlower hupper
    · exact hdigit.1
    · exact le_trans (by decide) (show 97 ≤ c.toNat from hlower.1)
    · exact le_trans (by decide) (show 65 ≤ c.toNat from hupper.1)
  simp only [isAsciiSpace, Bool.or_eq_false_iff, Bool.and_eq_false_iff, decide_eq_false_iff_not,
    beq_eq_false_iff_ne]
  omega

theorem fromHex_pair {c d : Char} (rest : List Char) {high low : ℕ}
    (hhigh : hexVal? c = some high) (hlow : hexVal? d = some low) :
    fromHex (c :: d :: rest) = (fromHex rest).map (pairByte high low :: ·) := by
  rw [fromHex.eq_def]
  simp only [isAsciiSpace_of_hexVal? hhigh, hhigh, hlow, Bool.false_eq_true, if_false]

/-- What `bytes.fromhex` accepts. -/
theorem fromHex_eq_some_iff {text : List Char} {bytes : Bytes} :
    fromHex text = some bytes ↔ IsSpacedHexOf text bytes := by
  apply Iff.intro
  · intro h
    fun_induction fromHex text generalizing bytes with
    | case1 =>
        cases h
        exact .nil
    | case2 c rest hspace ih => exact .space hspace (ih h)
    | case3 => cases h
    | case4 c hspace d rest high low hlow hhigh ih =>
        obtain ⟨tail, htail, rfl⟩ := Option.map_eq_some_iff.mp h
        exact .pair hhigh hlow (ih htail)
    | case5 => cases h
  · intro h
    induction h with
    | nil => rfl
    | space hspace _ ih =>
        rw [fromHex.eq_def]
        simp only [hspace, if_true, ih]
    | pair hhigh hlow _ ih => rw [fromHex_pair _ hhigh hlow, ih, Option.map_some]

/-- The files `load_secret` may be pointed at, and the texts of Python's own errors.
A file holds what `f.read()` returns, or bytes that are no text. -/
structure SecretHost where
  file : String → Option (Option String)
  undecodable : FString
  notHex : String → FString

/-- The text without one `0x` or `0X` in front. -/
def dropHexMark : List Char → List Char
  | '0' :: 'x' :: rest => rest
  | '0' :: 'X' :: rest => rest
  | cs => cs

namespace SecretHost

variable (host : SecretHost)

/-- The trimmed argument, or the trimmed text of the file it names. -/
def candidate (pathOrHex : String) : Except Exn String :=
  match host.file (strip pathOrHex) with
  | none => .ok (strip pathOrHex)
  | some (some text) => .ok (strip text)
  | some none => .error (.valueError host.undecodable)

/-- The secret in the text behind the prefix. -/
def decode (body : List Char) : Except Exn Bytes :=
  match fromHex body with
  | none =>
      .error (.valueError
        (.text "jwt secret is not valid hex: " :: host.notHex (String.ofList body)))
  | some secret =>
      if secret = [] then .error (.valueError [.text "jwt secret decoded to empty bytes"])
      else .ok secret

/-- `load_secret`. -/
def loadSecret (pathOrHex : Option String) : Except Exn Bytes :=
  match pathOrHex with
  | none =>
      .error (.valueError [.text "jwt secret is required (path to jwt.hex or 0x hex string)"])
  | some pathOrHex => do
      let candidate ← host.candidate pathOrHex
      host.decode (dropHexMark candidate.toList)

/-- The text the secret is read from, trimmed and without its prefix. -/
def IsBody (pathOrHex : String) (body : List Char) : Prop :=
  ∃ candidate, host.candidate pathOrHex = .ok candidate ∧ body = dropHexMark candidate.toList

/-- Thirty-two bytes are returned exactly where the text is their hex, and otherwise
`ValueError` is raised. -/
def AcceptsSecrets (pathOrHex : String) : Prop :=
  (∀ secret, host.loadSecret (some pathOrHex) = .ok secret ↔
    secret.length = 32 ∧ ∃ body, host.IsBody pathOrHex body ∧ IsHexOf body secret) ∧
  ∀ e, host.loadSecret (some pathOrHex) = .error e → ∃ message, e = .valueError message

/-- Text that reads as one or more bytes is the plain hex of thirty-two. -/
def PlainOrInvalid (pathOrHex : String) : Prop :=
  ∀ body, host.IsBody pathOrHex body → ∀ secret, IsSpacedHexOf body secret →
    secret = [] ∨ secret.length = 32 ∧ IsHexOf body secret

theorem decode_eq_ok_iff (body : List Char) (secret : Bytes) :
    host.decode body = .ok secret ↔ secret ≠ [] ∧ IsSpacedHexOf body secret := by
  rw [decode, ← fromHex_eq_some_iff]
  cases hhex : fromHex body with
  | none => simp
  | some bytes =>
      by_cases hempty : bytes = []
      · simp only [hempty, if_true, reduceCtorEq, Option.some.injEq, false_iff, not_and]
        intro hne heq
        exact hne heq.symm
      · simp only [if_neg hempty, Except.ok.injEq, Option.some.injEq]
        exact ⟨fun heq => ⟨heq ▸ hempty, heq⟩, And.right⟩

theorem decode_raises {body : List Char} {e : Exn} (h : host.decode body = .error e) :
    ∃ message, e = .valueError message := by
  rw [decode] at h
  split at h
  · cases h
    exact ⟨_, rfl⟩
  · split_ifs at h
    cases h
    exact ⟨_, rfl⟩

/-- What is returned. -/
theorem loadSecret_eq_ok_iff (pathOrHex : String) (secret : Bytes) :
    host.loadSecret (some pathOrHex) = .ok secret ↔
      secret ≠ [] ∧ ∃ body, host.IsBody pathOrHex body ∧ IsSpacedHexOf body secret := by
  simp only [loadSecret, IsBody]
  cases hcandidate : host.candidate pathOrHex with
  | error e => simp [bind, Except.bind]
  | ok candidate => simp [bind, Except.bind, decode_eq_ok_iff]

/-- Only `ValueError` is raised. -/
theorem loadSecret_raises (pathOrHex : Option String) {e : Exn}
    (h : host.loadSecret pathOrHex = .error e) : ∃ message, e = .valueError message := by
  cases pathOrHex with
  | none =>
      cases h
      exact ⟨_, rfl⟩
  | some pathOrHex =>
      simp only [loadSecret] at h
      cases hcandidate : host.candidate pathOrHex with
      | ok candidate =>
          rw [hcandidate] at h
          exact host.decode_raises h
      | error e' =>
          rw [hcandidate] at h
          cases h
          rw [candidate] at hcandidate
          split at hcandidate <;> cases hcandidate
          exact ⟨_, rfl⟩

/-- The secret is thirty-two bytes exactly where the text is the plain hex of as
many, or is no hex of any byte. -/
theorem loadSecret_accepts_iff (pathOrHex : String) :
    host.AcceptsSecrets pathOrHex ↔ host.PlainOrInvalid pathOrHex := by
  apply Iff.intro
  · rintro ⟨haccepts, -⟩ body hbody secret hspaced
    refine or_iff_not_imp_left.mpr fun hne => ?_
    have hreturned := (host.loadSecret_eq_ok_iff pathOrHex secret).mpr ⟨hne, body, hbody, hspaced⟩
    obtain ⟨hlength, body', hbody', hplain⟩ := (haccepts secret).mp hreturned
    obtain ⟨candidate, hcandidate, rfl⟩ := hbody
    obtain ⟨candidate', hcandidate', rfl⟩ := hbody'
    rw [hcandidate] at hcandidate'
    cases hcandidate'
    exact ⟨hlength, hplain⟩
  · intro h
    refine ⟨fun secret => ?_, fun e => host.loadSecret_raises (some pathOrHex)⟩
    rw [host.loadSecret_eq_ok_iff]
    apply Iff.intro
    · rintro ⟨hne, body, hbody, hspaced⟩
      obtain ⟨hlength, hplain⟩ := (h body hbody secret hspaced).resolve_left hne
      exact ⟨hlength, body, hbody, hplain⟩
    · rintro ⟨hlength, body, hbody, hplain⟩
      refine ⟨fun hnil => ?_, body, hbody, hplain.spaced⟩
      rw [hnil] at hlength
      cases hlength

/-- A secret of one byte is returned. -/
theorem loadSecret_returns_one_byte :
    (⟨fun _ => none, [], fun _ => []⟩ : SecretHost).loadSecret (some "0xab") = .ok [0xab] ∧
      ¬ ∀ (host : SecretHost) (pathOrHex : String), host.AcceptsSecrets pathOrHex := by
  have hreturned : (⟨fun _ => none, [], fun _ => []⟩ : SecretHost).loadSecret (some "0xab") =
      .ok [0xab] := by rfl
  refine ⟨hreturned, fun hall => ?_⟩
  have hlength := ((hall _ "0xab").1 _).mp hreturned
  exact absurd hlength.1 (by decide)

end SecretHost

end StateBenchmarks.MockCl
