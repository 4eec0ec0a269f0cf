/-
Python's `float`, an IEEE 754 binary64, and its big-endian binary32 form in `struct` (`">f"`):
reading a binary32 is exact, packing rounds half to even and raises `OverflowError` past the
largest binary32. Packing what was read gives back the same four bytes.
-/
import Cursus.Python.Bytes

namespace Cursus.Python

/-- A binary64 by its sign, biased exponent and fraction. -/
structure PyFloat where
  sign : Bool
  exponent : ℕ
  fraction : ℕ
  exponent_lt : exponent < 2 ^ 11
  fraction_lt : fraction < 2 ^ 52
  deriving DecidableEq

/-! ## Rounding -/

/-- `m / 2 ^ k` rounded to the nearest integer, ties to even. -/
def roundHalfEven (m k : ℕ) : ℕ :=
  if 2 * (m % 2 ^ k) < 2 ^ k ∨ (2 * (m % 2 ^ k) = 2 ^ k ∧ m / 2 ^ k % 2 = 0) then m / 2 ^ k
  else m / 2 ^ k + 1

@[simp] theorem roundHalfEven_mul (n k : ℕ) : roundHalfEven (n * 2 ^ k) k = n := by
  have hp : 0 < 2 ^ k := Nat.two_pow_pos k
  simp [roundHalfEven, Nat.mul_mod_left, Nat.mul_div_cancel n hp]

@[simp] theorem roundHalfEven_zero (k : ℕ) : roundHalfEven 0 k = 0 := by
  simpa using roundHalfEven_mul 0 k

/-! ## Binary32 -/

namespace PyFloat

theorem subnormal_fraction_lt {f : ℕ} (hf : f < 2 ^ 23) (h0 : f ≠ 0) :
    (f - 2 ^ f.log2) * 2 ^ (52 - f.log2) < 2 ^ 52 := by
  have hlog : f.log2 < 23 := (Nat.log2_lt h0).2 hf
  have hlt : f - 2 ^ f.log2 < 2 ^ f.log2 := by
    have := Nat.lt_log2_self (n := f)
    rw [pow_succ] at this
    omega
  calc (f - 2 ^ f.log2) * 2 ^ (52 - f.log2)
      < 2 ^ f.log2 * 2 ^ (52 - f.log2) := Nat.mul_lt_mul_of_pos_right hlt (Nat.two_pow_pos _)
    _ = 2 ^ 52 := by rw [← pow_add]; congr 1; omega

/-- The value of a binary32 with the given fields. The payload of a NaN is kept in the leading
fraction bits. -/
def ofFields (sign : Bool) (e f : ℕ) (he : e < 2 ^ 8) (hf : f < 2 ^ 23) : PyFloat :=
  if e = 255 then ⟨sign, 2047, f * 2 ^ 29, by decide, by omega⟩
  else if e ≠ 0 then ⟨sign, e + 896, f * 2 ^ 29, by omega, by omega⟩
  else if h0 : f = 0 then ⟨sign, 0, 0, by decide, by decide⟩
  else
    ⟨sign, f.log2 + 874, (f - 2 ^ f.log2) * 2 ^ (52 - f.log2),
      by have := (Nat.log2_lt h0).2 hf; omega, subnormal_fraction_lt hf h0⟩

/-- The value of a binary32 bit pattern. -/
def ofBinary32 (bits : ℕ) : PyFloat :=
  ofFields (bits / 2 ^ 31 % 2 == 1) (bits / 2 ^ 23 % 2 ^ 8) (bits % 2 ^ 23)
    (Nat.mod_lt _ (by decide)) (Nat.mod_lt _ (by decide))

def signBit (sign : Bool) : ℕ := if sign then 2 ^ 31 else 0

/-- The bit pattern of the nearest binary32, or `none` when the magnitude rounds past the largest
finite one. A NaN stays a NaN. -/
def toBinary32 (x : PyFloat) : Option ℕ :=
  if x.exponent = 2047 then
    if x.fraction = 0 then some (signBit x.sign + 255 * 2 ^ 23)
    else if x.fraction / 2 ^ 29 = 0 then some (signBit x.sign + (255 * 2 ^ 23 + 2 ^ 22))
    else some (signBit x.sign + (255 * 2 ^ 23 + x.fraction / 2 ^ 29))
  else
    let m := if x.exponent = 0 then x.fraction else x.fraction + 2 ^ 52
    -- below exponent 897 the result is subnormal and loses one more bit for each binade
    let magnitude := (x.exponent - 897) * 2 ^ 23 + roundHalfEven m (29 + (897 - max x.exponent 1))
    if magnitude < 255 * 2 ^ 23 then some (signBit x.sign + magnitude) else none

/-- A subnormal binary32 with fraction `f` is `f · 2 ^ (52 - log2 f)` units of its binary64. -/
theorem subnormal_significand {f : ℕ} (hf : f < 2 ^ 23) (h0 : f ≠ 0) :
    (f - 2 ^ f.log2) * 2 ^ (52 - f.log2) + 2 ^ 52 = f * 2 ^ (52 - f.log2) := by
  have hlog : f.log2 < 23 := (Nat.log2_lt h0).2 hf
  have h52 : 2 ^ f.log2 * 2 ^ (52 - f.log2) = 2 ^ 52 := by rw [← pow_add]; congr 1; omega
  have hle := Nat.mul_le_mul_right (2 ^ (52 - f.log2)) (Nat.log2_self_le h0)
  rw [Nat.sub_mul, h52]
  omega

theorem toBinary32_ofFields (sign : Bool) {e f : ℕ} (he : e < 2 ^ 8) (hf : f < 2 ^ 23) :
    toBinary32 (ofFields sign e f he hf) = some (signBit sign + (e * 2 ^ 23 + f)) := by
  unfold ofFields
  split_ifs with h255 h0 hf0
  · subst h255
    by_cases hf0 : f = 0
    · simp [toBinary32, hf0]
    · simp [toBinary32, hf0]
  · -- a normal value keeps its significand; only the bias changes
    have hexp : 897 - max (e + 896) 1 = 0 := by omega
    have hmag : (e + 896 - 897) * 2 ^ 23 + (f + 2 ^ 23) = e * 2 ^ 23 + f := by omega
    have hne : e + 896 ≠ 2047 := by omega
    have hlt : e * 2 ^ 23 + f < 255 * 2 ^ 23 := by omega
    have hm : f * 2 ^ 29 + 2 ^ 52 = (f + 2 ^ 23) * 2 ^ 29 := by ring
    simp only [toBinary32, if_neg hne, hexp, Nat.add_zero, hm, roundHalfEven_mul, hmag, if_pos hlt,
      if_neg (show e + 896 ≠ 0 by omega)]
  · have he0 : e = 0 := by omega
    subst he0 hf0
    simp only [toBinary32, if_neg (show 0 ≠ 2047 by simp), if_true, roundHalfEven_zero]
    rfl
  · -- a subnormal value was normalized by `52 - log2 f` places and is shifted back
    have he0 : e = 0 := by omega
    subst he0
    have hlog : f.log2 < 23 := (Nat.log2_lt hf0).2 hf
    have hk : 29 + (897 - max (f.log2 + 874) 1) = 52 - f.log2 := by omega
    have hsub : f.log2 + 874 - 897 = 0 := by omega
    have hlt : 0 * 2 ^ 23 + f < 255 * 2 ^ 23 := by omega
    simp only [toBinary32, if_neg (show f.log2 + 874 ≠ 2047 by omega),
      if_neg (show f.log2 + 874 ≠ 0 by omega), hk, hsub, subnormal_significand hf hf0,
      roundHalfEven_mul, if_pos hlt]

/-- Packing a value read from a binary32 gives the same bits. -/
theorem toBinary32_ofBinary32 {bits : ℕ} (h : bits < 2 ^ 32) :
    toBinary32 (ofBinary32 bits) = some bits := by
  unfold ofBinary32
  rw [toBinary32_ofFields]
  congr 1
  simp only [signBit, beq_iff_eq]
  split <;> omega

end PyFloat

/-! ## `struct` -/

/-- `struct.pack(">f", x)`. -/
def packFloat (x : PyFloat) : Except PyError Bytes :=
  match x.toBinary32 with
  | some bits => .ok (ByteOrder.big.encode 4 bits)
  | none => .error .overflowError

/-- `struct.unpack(">f", bs)[0]`. -/
def unpackFloat (bs : Bytes) : Except PyError PyFloat :=
  if bs.length = 4 then .ok (.ofBinary32 (ByteOrder.big.decode bs)) else .error .structError

/-- The value of four bytes read as a big-endian binary32. -/
def floatOfBytes (bs : Bytes) : PyFloat := .ofBinary32 (ByteOrder.big.decode bs)

theorem unpackFloat_of_length {bs : Bytes} (h : bs.length = 4) : unpackFloat bs = .ok (floatOfBytes bs) :=
  if_pos h

/-- Packing what was read from four bytes gives the four bytes. -/
theorem packFloat_floatOfBytes {bs : Bytes} (h : bs.length = 4) : packFloat (floatOfBytes bs) = .ok bs := by
  have hlt : ByteOrder.big.decode bs < 2 ^ 32 := by simpa [h] using ByteOrder.big.decode_lt bs
  unfold packFloat floatOfBytes
  rw [PyFloat.toBinary32_ofBinary32 hlt]
  simp only [← h, ByteOrder.encode_decode]

theorem length_of_packFloat {x : PyFloat} {bs : Bytes} (h : packFloat x = .ok bs) : bs.length = 4 := by
  unfold packFloat at h
  split at h <;> cases h
  simp

example : packFloat ⟨false, 1023 + 3, 2 ^ 51 + 2 ^ 48, by decide, by decide⟩ = .ok [0x41, 0x48, 0, 0] := by
  decide

end Cursus.Python
