/-
# Byte strings

A byte string is a list of bytes.  This module has the four operations the
program performs on them: slicing, `int.from_bytes(b, "big")`, fixed-width
big-endian encoding, and `bytes.hex()`.  The facts proved are the ones a framed
binary format needs: a fixed-width number reads back, numbers of one width
determine their bytes, and otherwise a number determines its bytes up to
leading zeros.
-/

import StateBenchmarks.Python.Text
import Mathlib.Tactic.Ring

namespace StateBenchmarks.Python

/-- A Python `bytes` value. -/
abbrev Bytes := List UInt8

/-- The slice `b[i:j]`.  Bounds past the end are clipped, never an error. -/
def slice (b : Bytes) (i j : ℕ) : Bytes := (b.drop i).take (j - i)

theorem length_slice (b : Bytes) (i j : ℕ) :
    (slice b i j).length = min (j - i) (b.length - i) := by
  rw [slice, List.length_take, List.length_drop]

/-- A slice that lies inside the bytes has exactly the requested length. -/
theorem length_slice_of_le {b : Bytes} {i j : ℕ} (hj : j ≤ b.length) :
    (slice b i j).length = j - i := by
  rw [length_slice]
  omega

/-- A slice splits at any point between its bounds. -/
theorem slice_append_slice (b : Bytes) {i j k : ℕ} (hij : i ≤ j) (hjk : j ≤ k) :
    slice b i j ++ slice b j k = slice b i k := by
  have hdrop : b.drop j = (b.drop i).drop (j - i) := by
    rw [List.drop_drop]
    congr 1
    omega
  have hwidth : k - i = (j - i) + (k - j) := by omega
  rw [slice, slice, slice, hdrop, hwidth, List.take_add]

/-- Slicing out the middle of a concatenation. -/
theorem slice_middle (front middle back : Bytes) :
    slice (front ++ middle ++ back) front.length (front.length + middle.length) = middle := by
  rw [slice, List.append_assoc, List.drop_left, Nat.add_sub_cancel_left, List.take_left]

theorem slice_self (b : Bytes) : slice b 0 b.length = b := by
  simp [slice]

/-- The one-byte slice at a position inside the bytes. -/
theorem slice_singleton (b : Bytes) {i : ℕ} (h : i < b.length) :
    slice b i (i + 1) = [b[i]] := by
  rw [slice, Nat.add_sub_cancel_left, List.drop_eq_getElem_cons h, List.take_succ_cons,
    List.take_zero]

/-- `int.from_bytes(b, "big")`. -/
def fromBytes (b : Bytes) : ℕ := b.foldl (fun acc x => acc * 256 + x.toNat) 0

@[simp]
theorem fromBytes_nil : fromBytes [] = 0 := rfl

theorem foldl_fromBytes (acc : ℕ) (b : Bytes) :
    b.foldl (fun acc x => acc * 256 + x.toNat) acc = acc * 256 ^ b.length + fromBytes b := by
  induction b generalizing acc with
  | nil => simp
  | cons x rest ih =>
      have hcons : fromBytes (x :: rest) = x.toNat * 256 ^ rest.length + fromBytes rest := by
        rw [fromBytes, List.foldl_cons, ih, Nat.zero_mul, Nat.zero_add]
      rw [List.foldl_cons, ih, hcons, List.length_cons]
      ring

theorem fromBytes_append (a b : Bytes) :
    fromBytes (a ++ b) = fromBytes a * 256 ^ b.length + fromBytes b := by
  rw [fromBytes, List.foldl_append, foldl_fromBytes]
  rfl

theorem fromBytes_cons (x : UInt8) (b : Bytes) :
    fromBytes (x :: b) = x.toNat * 256 ^ b.length + fromBytes b := by
  simpa [fromBytes] using fromBytes_append [x] b

/-- The value in Mathlib's terms: the bytes are base-256 digits, last one first. -/
theorem fromBytes_eq_ofDigits (b : Bytes) :
    fromBytes b = Nat.ofDigits 256 (b.reverse.map UInt8.toNat) := by
  induction b with
  | nil => rfl
  | cons x rest ih =>
      rw [fromBytes_cons, ih, List.reverse_cons, List.map_append, Nat.ofDigits_append,
        List.length_map, List.length_reverse, List.map_singleton, Nat.ofDigits_singleton]
      ring

/-- `n.to_bytes(width, "big")`, keeping the low bytes of a number too large for
the width. -/
def toBytes : ℕ → ℕ → Bytes
  | 0, _ => []
  | width + 1, n => toBytes width (n / 256) ++ [UInt8.ofNat (n % 256)]

@[simp]
theorem length_toBytes (width n : ℕ) : (toBytes width n).length = width := by
  induction width generalizing n with
  | zero => rfl
  | succ width ih => rw [toBytes, List.length_append, ih, List.length_singleton]

/-- A number that fits the width survives being written and read back. -/
theorem fromBytes_toBytes {width n : ℕ} (h : n < 256 ^ width) :
    fromBytes (toBytes width n) = n := by
  induction width generalizing n with
  | zero => simp_all [toBytes]
  | succ width ih =>
      have hhigh : n / 256 < 256 ^ width := by
        rw [pow_succ] at h
        omega
      have hlow : (UInt8.ofNat (n % 256)).toNat = n % 256 := by
        rw [UInt8.toNat_ofNat']
        omega
      rw [toBytes, fromBytes_append, ih hhigh, fromBytes_cons, hlow]
      simp only [List.length_singleton, List.length_nil, pow_one, pow_zero, mul_one,
        fromBytes_nil, add_zero]
      omega

theorem fromBytes_lt (b : Bytes) : fromBytes b < 256 ^ b.length := by
  rw [fromBytes_eq_ofDigits]
  have hlt := Nat.ofDigits_lt_base_pow_length (b := 256) (l := b.reverse.map UInt8.toNat)
    (by omega) ?_
  · simpa using hlt
  · intro d hd
    obtain ⟨x, -, rfl⟩ := List.mem_map.mp hd
    exact x.toNat_lt

/-- Bytes of the width survive being read and written again. -/
theorem toBytes_fromBytes (b : Bytes) : toBytes b.length (fromBytes b) = b := by
  induction b using List.reverseRecOn with
  | nil => rfl
  | append_singleton front x ih =>
      have hx := x.toNat_lt
      have hvalue : fromBytes (front ++ [x]) = fromBytes front * 256 + x.toNat := by
        rw [fromBytes_append, fromBytes_cons]
        simp
      have hhigh : (fromBytes front * 256 + x.toNat) / 256 = fromBytes front := by omega
      have hlow : (fromBytes front * 256 + x.toNat) % 256 = x.toNat := by omega
      rw [List.length_append, List.length_singleton, toBytes, hvalue, hhigh, hlow, ih,
        UInt8.ofNat_toNat]

/-- The shortest big-endian bytes of a number; none at all for zero. -/
def minBytes (n : ℕ) : Bytes := ((Nat.digits 256 n).map UInt8.ofNat).reverse

theorem toNat_map_ofNat_digits (n : ℕ) :
    ((Nat.digits 256 n).map UInt8.ofNat).map UInt8.toNat = Nat.digits 256 n := by
  rw [List.map_map]
  conv_rhs => rw [← List.map_id (Nat.digits 256 n)]
  apply List.map_congr_left
  intro d hd
  have hlt : d < 256 := Nat.digits_lt_base (by omega) hd
  simp only [Function.comp_apply, UInt8.toNat_ofNat', id_eq]
  omega

theorem fromBytes_minBytes (n : ℕ) : fromBytes (minBytes n) = n := by
  rw [fromBytes_eq_ofDigits, minBytes, List.reverse_reverse, toNat_map_ofNat_digits,
    Nat.ofDigits_digits]

theorem length_minBytes_le {n width : ℕ} (h : n < 256 ^ width) :
    (minBytes n).length ≤ width := by
  rw [minBytes, List.length_reverse, List.length_map]
  exact (Nat.digits_length_le_iff (by omega) n).mpr h

theorem minBytes_ne_nil {n : ℕ} (h : n ≠ 0) : minBytes n ≠ [] := by
  simpa [minBytes, Nat.digits_eq_nil_iff_eq_zero] using h

/-- The bytes after the leading zeros. -/
def stripZeros (b : Bytes) : Bytes := b.dropWhile (· == 0)

/-- What is left after the leading zeros is the shortest form of the value, so
the value determines the bytes up to leading zeros. -/
theorem stripZeros_eq_minBytes (b : Bytes) : stripZeros b = minBytes (fromBytes b) := by
  induction b with
  | nil => rfl
  | cons x rest ih =>
      by_cases hx : x = 0
      · have hvalue : fromBytes (x :: rest) = fromBytes rest := by simp [fromBytes_cons, hx]
        rw [hvalue, ← ih, stripZeros, List.dropWhile_cons_of_pos (by simp [hx])]
        rfl
      · have hdigits : Nat.digits 256 (fromBytes (x :: rest)) =
            (x :: rest).reverse.map UInt8.toNat := by
          rw [fromBytes_eq_ofDigits]
          refine Nat.digits_ofDigits 256 (by omega) _ ?_ ?_
          · intro d hd
            obtain ⟨y, _, rfl⟩ := List.mem_map.mp hd
            exact y.toNat_lt
          · intro hne
            have hzero : x.toNat ≠ 0 := fun h => hx (UInt8.toNat_inj.mp (by simpa using h))
            simpa using hzero
        rw [stripZeros, List.dropWhile_cons_of_neg (by simp [hx]), minBytes, hdigits,
          List.map_map, ← List.map_reverse, List.reverse_reverse]
        simp [Function.comp_def]

/-- Bytes of one value differ at most in leading zeros. -/
theorem stripZeros_congr {a b : Bytes} (h : fromBytes a = fromBytes b) :
    stripZeros a = stripZeros b := by
  rw [stripZeros_eq_minBytes, stripZeros_eq_minBytes, h]

/-- The two digits of each byte, high half first. -/
def bytesHex (b : Bytes) : List Char :=
  b.flatMap fun x => [hexChar (x.toNat / 16), hexChar (x.toNat % 16)]

/-- Read pairs of digits back into bytes. -/
def unhex : List Char → Option Bytes
  | [] => some []
  | [_] => none
  | high :: low :: rest =>
      match hexVal? high, hexVal? low with
      | some h, some l => (unhex rest).map (UInt8.ofNat (16 * h + l) :: ·)
      | _, _ => none

theorem unhex_bytesHex (b : Bytes) : unhex (bytesHex b) = some b := by
  induction b with
  | nil => rfl
  | cons x rest ih =>
      have hx := x.toNat_lt
      have hhigh : x.toNat / 16 < 16 := by omega
      have hlow : x.toNat % 16 < 16 := by omega
      have hvalue : 16 * (x.toNat / 16) + x.toNat % 16 = x.toNat := by omega
      have hcons : bytesHex (x :: rest) =
          hexChar (x.toNat / 16) :: hexChar (x.toNat % 16) :: bytesHex rest := rfl
      rw [hcons, unhex, hexVal?_hexChar hhigh, hexVal?_hexChar hlow, ih]
      simp [hvalue]

end StateBenchmarks.Python
