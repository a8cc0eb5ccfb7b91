/-
# Base64 for URLs

Three bytes are four characters of six bits each.  `encode` pads the last group with
`=`, and `unpadded` is what is left once the padding is stripped, as tokens carry it.
`decode` reads the unpadded form and undoes it.
-/

import StateBenchmarks.Python.Bytes

namespace StateBenchmarks.Encoding.Base64

open Python

/-- The character of six bits. -/
def digit (n : ℕ) : Char :=
  if n < 26 then Char.ofNat (65 + n)
  else if n < 52 then Char.ofNat (97 + (n - 26))
  else if n < 62 then Char.ofNat (48 + (n - 52))
  else if n = 62 then '-'
  else '_'

def value? (c : Char) : Option ℕ :=
  if 'A' ≤ c ∧ c ≤ 'Z' then some (c.toNat - 65)
  else if 'a' ≤ c ∧ c ≤ 'z' then some (c.toNat - 97 + 26)
  else if '0' ≤ c ∧ c ≤ '9' then some (c.toNat - 48 + 52)
  else if c = '-' then some 62
  else if c = '_' then some 63
  else none

theorem value?_digit {n : ℕ} (h : n < 64) : value? (digit n) = some n := by
  have hall : ∀ k : Fin 64, value? (digit k) = some k.val := by decide
  exact hall ⟨n, h⟩

/-- A character of the alphabet is neither padding nor a separator of parts. -/
theorem digit_ne {n : ℕ} (h : n < 64) : digit n ≠ '=' ∧ digit n ≠ '.' := by
  have hall : ∀ k : Fin 64, digit k ≠ '=' ∧ digit k ≠ '.' := by decide
  exact hall ⟨n, h⟩

/-- `base64.urlsafe_b64encode`. -/
def encode : Bytes → List Char
  | [] => []
  | [a] => [digit (a.toNat / 4), digit (a.toNat % 4 * 16), '=', '=']
  | [a, b] =>
      [digit (a.toNat / 4), digit (a.toNat % 4 * 16 + b.toNat / 16), digit (b.toNat % 16 * 4), '=']
  | a :: b :: c :: rest =>
      digit (a.toNat / 4) :: digit (a.toNat % 4 * 16 + b.toNat / 16) ::
        digit (b.toNat % 16 * 4 + c.toNat / 64) :: digit (c.toNat % 64) :: encode rest

/-- `rstrip(b"=")`. -/
def unpad (cs : List Char) : List Char := (cs.reverse.dropWhile (· == '=')).reverse

/-- The encoding as tokens have it. -/
def unpadded (bytes : Bytes) : List Char := unpad (encode bytes)

/-- The characters of the bytes, without padding. -/
def chars : Bytes → List Char
  | [] => []
  | [a] => [digit (a.toNat / 4), digit (a.toNat % 4 * 16)]
  | [a, b] =>
      [digit (a.toNat / 4), digit (a.toNat % 4 * 16 + b.toNat / 16), digit (b.toNat % 16 * 4)]
  | a :: b :: c :: rest =>
      digit (a.toNat / 4) :: digit (a.toNat % 4 * 16 + b.toNat / 16) ::
        digit (b.toNat % 16 * 4 + c.toNat / 64) :: digit (c.toNat % 64) :: chars rest

theorem exists_encode_eq (bytes : Bytes) :
    ∃ k, encode bytes = chars bytes ++ List.replicate k '=' := by
  fun_induction encode bytes with
  | case1 => exact ⟨0, rfl⟩
  | case2 a => exact ⟨2, rfl⟩
  | case3 a b => exact ⟨1, rfl⟩
  | case4 a b c rest ih =>
      obtain ⟨k, hk⟩ := ih
      exact ⟨k, by rw [hk]; rfl⟩

/-- The six bits of each character are in range. -/
theorem mem_chars {bytes : Bytes} {c : Char} (h : c ∈ chars bytes) : ∃ n < 64, c = digit n := by
  fun_induction chars bytes with
  | case1 => cases h
  | case2 a =>
      have ha := a.toNat_lt
      simp only [List.mem_cons, List.not_mem_nil, or_false] at h
      rcases h with rfl | rfl
      · exact ⟨_, by omega, rfl⟩
      · exact ⟨_, by omega, rfl⟩
  | case3 a b =>
      have ha := a.toNat_lt
      have hb := b.toNat_lt
      simp only [List.mem_cons, List.not_mem_nil, or_false] at h
      rcases h with rfl | rfl | rfl
      · exact ⟨_, by omega, rfl⟩
      · exact ⟨_, by omega, rfl⟩
      · exact ⟨_, by omega, rfl⟩
  | case4 a b c rest ih =>
      have ha := a.toNat_lt
      have hb := b.toNat_lt
      have hc := c.toNat_lt
      simp only [List.mem_cons] at h
      rcases h with rfl | rfl | rfl | rfl | h
      · exact ⟨_, by omega, rfl⟩
      · exact ⟨_, by omega, rfl⟩
      · exact ⟨_, by omega, rfl⟩
      · exact ⟨_, by omega, rfl⟩
      · exact ih h

/-- Stripping takes the padding and nothing else. -/
theorem unpadded_eq (bytes : Bytes) : unpadded bytes = chars bytes := by
  obtain ⟨k, hk⟩ := exists_encode_eq bytes
  have hpadding : ∀ c ∈ (List.replicate k '='), (c == '=') = true := by
    intro c hc
    rw [List.eq_of_mem_replicate hc]
    rfl
  have hback : (chars bytes).reverse.dropWhile (· == '=') = (chars bytes).reverse := by
    cases hrev : (chars bytes).reverse with
    | nil => rfl
    | cons c rest =>
        have hmem : c ∈ (chars bytes).reverse := by simp [hrev]
        obtain ⟨n, hn, rfl⟩ := mem_chars (List.mem_reverse.mp hmem)
        rw [List.dropWhile_cons_of_neg (by simpa using (digit_ne hn).1)]
  rw [unpadded, unpad, hk, List.reverse_append, List.reverse_replicate,
    List.dropWhile_append_of_pos hpadding, hback, List.reverse_reverse]

/-- The bytes of unpadded characters, nothing where they are none. -/
def decode : List Char → Option Bytes
  | [] => some []
  | [_] => none
  | [p, q] => do
      let p ← value? p
      let q ← value? q
      return [UInt8.ofNat (p * 4 + q / 16)]
  | [p, q, r] => do
      let p ← value? p
      let q ← value? q
      let r ← value? r
      return [UInt8.ofNat (p * 4 + q / 16), UInt8.ofNat (q % 16 * 16 + r / 4)]
  | p :: q :: r :: s :: rest => do
      let p ← value? p
      let q ← value? q
      let r ← value? r
      let s ← value? s
      let bytes ← decode rest
      return UInt8.ofNat (p * 4 + q / 16) :: UInt8.ofNat (q % 16 * 16 + r / 4) ::
        UInt8.ofNat (r % 4 * 64 + s) :: bytes

/-- The three bytes of a group, put together from its four characters. -/
theorem byte_high (a x : ℕ) (hx : x < 16) : a / 4 * 4 + (a % 4 * 16 + x) / 16 = a := by omega

theorem byte_middle (a b x : ℕ) (hb : b < 256) (hx : x < 4) :
    (a % 4 * 16 + b / 16) % 16 * 16 + (b % 16 * 4 + x) / 4 = b := by omega

theorem byte_low (b c : ℕ) (hc : c < 256) : (b % 16 * 4 + c / 64) % 4 * 64 + c % 64 = c := by omega

/-- **Decoding undoes encoding.** -/
theorem decode_unpadded (bytes : Bytes) : decode (unpadded bytes) = some bytes := by
  rw [unpadded_eq]
  fun_induction chars bytes with
  | case1 => rfl
  | case2 a =>
      have ha := a.toNat_lt
      have hhigh := byte_high a.toNat 0 (by decide)
      simp only [decode, value?_digit (show a.toNat / 4 < 64 by omega),
        value?_digit (show a.toNat % 4 * 16 < 64 by omega), Option.bind_eq_bind, Option.bind_some]
      rw [Nat.add_zero] at hhigh
      rw [hhigh, UInt8.ofNat_toNat]
      rfl
  | case3 a b =>
      have ha := a.toNat_lt
      have hb := b.toNat_lt
      have hmiddle := byte_middle a.toNat b.toNat 0 hb (by decide)
      rw [Nat.add_zero] at hmiddle
      simp only [decode, value?_digit (show a.toNat / 4 < 64 by omega),
        value?_digit (show a.toNat % 4 * 16 + b.toNat / 16 < 64 by omega),
        value?_digit (show b.toNat % 16 * 4 < 64 by omega), Option.bind_eq_bind, Option.bind_some]
      rw [byte_high _ _ (by omega), hmiddle, UInt8.ofNat_toNat, UInt8.ofNat_toNat]
      rfl
  | case4 a b c rest ih =>
      have ha := a.toNat_lt
      have hb := b.toNat_lt
      have hc := c.toNat_lt
      simp only [decode, value?_digit (show a.toNat / 4 < 64 by omega),
        value?_digit (show a.toNat % 4 * 16 + b.toNat / 16 < 64 by omega),
        value?_digit (show b.toNat % 16 * 4 + c.toNat / 64 < 64 by omega),
        value?_digit (show c.toNat % 64 < 64 by omega), ih, Option.bind_eq_bind, Option.bind_some]
      rw [byte_high _ _ (by omega), byte_middle _ _ _ hb (by omega), byte_low _ _ hc,
        UInt8.ofNat_toNat, UInt8.ofNat_toNat, UInt8.ofNat_toNat]
      rfl

example : unpadded [0x66, 0x6f, 0x6f, 0x62] = "Zm9vYg".toList := by decide

end StateBenchmarks.Encoding.Base64
