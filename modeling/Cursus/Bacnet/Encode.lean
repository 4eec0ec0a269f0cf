/-
What the encoders of `cursus/bacnet/server.py` accept, and that what they return is an element of the
grammar with the tag and the content asked for.
-/
import Cursus.Bacnet.Element

namespace Cursus.Bacnet

open Cursus.Python

/-! ## Tagged encodings -/

/-- The common form of the encoders: a tag header and the encoded value. -/
def encodeTagged (tagNumber : ℕ) (isContext : Bool) (value : Except PyError Bytes) : Except PyError Bytes := do
  let encodedValue ← value
  return (← encodeTagHeader tagNumber isContext encodedValue.length) ++ encodedValue

theorem encodeApplicationUnsigned_eq_encodeTagged (value : ℤ) :
    encodeApplicationUnsigned value = encodeTagged applicationTagUnsigned false (encodeUnsignedValue value) := rfl

theorem encodeApplicationEnumerated_eq_encodeTagged (value : ℤ) :
    encodeApplicationEnumerated value = encodeTagged applicationTagEnumerated false (encodeUnsignedValue value) :=
  rfl

theorem encodeContextUnsigned_eq_encodeTagged (tagNumber : ℕ) (value : ℤ) :
    encodeContextUnsigned tagNumber value = encodeTagged tagNumber true (encodeUnsignedValue value) := rfl

theorem encodeApplicationCharacterString_eq_encodeTagged (value : String) :
    encodeApplicationCharacterString value =
      encodeTagged applicationTagCharacterString false ((encodeAscii value).map (0x00 :: ·)) := by
  unfold encodeApplicationCharacterString encodeTagged
  cases encodeAscii value <;> rfl

theorem encodeApplicationObjectIdentifier_eq_encodeTagged (objectType : ℕ) (inst : ℤ) :
    encodeApplicationObjectIdentifier objectType inst =
      encodeTagged applicationTagObjectIdentifier false (structPack .big [.I (objectIdentifier objectType inst)]) :=
  rfl

theorem encodeContextObjectIdentifier_eq_encodeTagged (tagNumber objectType : ℕ) (inst : ℤ) :
    encodeContextObjectIdentifier tagNumber objectType inst =
      encodeTagged tagNumber true (structPack .big [.I (objectIdentifier objectType inst)]) :=
  rfl

/-- The tag octet of a header. -/
def tagOctet (tagNumber : ℕ) (isContext : Bool) (length : ℕ) : ℕ :=
  tagNumber <<< 4 ||| (if isContext then contextClassBit else 0) |||
    (if length ≤ maxInlineLength then length else extendedLengthSentinel)

/-- The three fields of a tag octet. -/
theorem tagOctet_fields {tagNumber : ℕ} (ht : tagNumber < 16) (isContext : Bool) (length : ℕ) :
    tagOctet tagNumber isContext length < 256 ∧ tagOctet tagNumber isContext length >>> 4 = tagNumber ∧
      tagOctet tagNumber isContext length &&& 8 = (if isContext then 8 else 0) ∧
      tagOctet tagNumber isContext length &&& 7 = if length ≤ maxInlineLength then length else 5 := by
  have h : ∀ t < 16, ∀ c : Bool, ∀ l < 6,
      (t <<< 4 ||| (if c then 8 else 0) ||| l) < 256 ∧
        (t <<< 4 ||| (if c then 8 else 0) ||| l) >>> 4 = t ∧
        (t <<< 4 ||| (if c then 8 else 0) ||| l) &&& 8 = (if c then 8 else 0) ∧
        (t <<< 4 ||| (if c then 8 else 0) ||| l) &&& 7 = l := by decide
  apply h tagNumber ht isContext
  by_cases hl : length ≤ maxInlineLength
  · rw [if_pos hl]
    exact Nat.lt_of_le_of_lt hl (by simp)
  · rw [if_neg hl]
    decide

theorem encodeTagHeader_inline {tagNumber length : ℕ} (ht : tagNumber < 16) (isContext : Bool)
    (hl : length ≤ maxInlineLength) :
    encodeTagHeader tagNumber isContext length = .ok [UInt8.ofNat (tagOctet tagNumber isContext length)] := by
  have hlt := (tagOctet_fields ht isContext length).1
  unfold tagOctet at hlt ⊢
  rw [if_pos hl] at hlt ⊢
  unfold encodeTagHeader
  rw [if_pos hl, bytesOf, if_pos (by simpa using hlt)]
  rfl

theorem encodeTagHeader_extended {tagNumber length : ℕ} (ht : tagNumber < 16) (isContext : Bool)
    (hl : ¬ length ≤ maxInlineLength) :
    encodeTagHeader tagNumber isContext length =
      if length < 256 then .ok [UInt8.ofNat (tagOctet tagNumber isContext length), UInt8.ofNat length]
      else .error .valueError := by
  have hlt := (tagOctet_fields ht isContext length).1
  unfold tagOctet at hlt ⊢
  rw [if_neg hl] at hlt ⊢
  unfold encodeTagHeader
  rw [if_neg hl, bytesOf]
  by_cases hlen : length < 256
  · rw [if_pos hlen, if_pos (by simpa using ⟨hlt, hlen⟩)]
    rfl
  · rw [if_neg hlen, if_neg (by simp [hlen])]

/-- An encoder returns an element with its tag and its value as content. -/
theorem encodeTagged_eq_ok {tagNumber : ℕ} {isContext : Bool} {value : Except PyError Bytes} {enc : Bytes}
    (ht : tagNumber < 16) (h : encodeTagged tagNumber isContext value = .ok enc) :
    ∃ content t, value = .ok content ∧ content.length < 256 ∧ Element t content enc ∧ IsPrimitive t ∧
      t.toNat >>> 4 = tagNumber ∧ t.toNat &&& 8 = (if isContext then 8 else 0) := by
  obtain ⟨content, rfl, he⟩ := bind_eq_ok h
  obtain ⟨hlt, htag, hclass, hlow⟩ := tagOctet_fields ht isContext content.length
  have hto : (UInt8.ofNat (tagOctet tagNumber isContext content.length)).toNat =
      tagOctet tagNumber isContext content.length := by rw [UInt8.toNat_ofNat']; omega
  -- the header decides whether the length is in the tag octet or behind it
  refine ⟨content, UInt8.ofNat (tagOctet tagNumber isContext content.length), rfl, ?_⟩
  rw [IsPrimitive, hto]
  by_cases hl : content.length ≤ maxInlineLength
  · rw [encodeTagHeader_inline ht isContext hl] at he
    cases he
    rw [if_pos hl] at hlow
    have hl4 : content.length ≤ 4 := hl
    exact ⟨by omega, .inline (by rw [hto]; omega) (by rw [hto, hlow]), by omega, htag, hclass⟩
  · rw [encodeTagHeader_extended ht isContext hl] at he
    split_ifs at he with hlen
    swap
    · cases he
    cases he
    rw [if_neg hl] at hlow
    have hlo : (UInt8.ofNat content.length).toNat = content.length := by rw [UInt8.toNat_ofNat']; omega
    exact ⟨hlen, .extended _ (by rw [hto, hlow]) hlo.symm, by omega, htag, hclass⟩

theorem length_encodeTagged {tagNumber : ℕ} {isContext : Bool} {value : Except PyError Bytes} {enc : Bytes}
    (ht : tagNumber < 16) (h : encodeTagged tagNumber isContext value = .ok enc) : enc.length ≤ 257 := by
  obtain ⟨content, t, -, -, he, -⟩ := encodeTagged_eq_ok ht h
  exact he.length_le

theorem applicationElement_of_encodeTagged {tagNumber : ℕ} {value : Except PyError Bytes} {enc : Bytes}
    (ht : tagNumber < 16) (h : encodeTagged tagNumber false value = .ok enc) : ApplicationElement enc := by
  obtain ⟨content, t, -, -, he, hprimitive, -, hclass⟩ := encodeTagged_eq_ok ht h
  exact .mk hclass hprimitive he

theorem encodeTagged_ok {tagNumber : ℕ} (ht : tagNumber < 16) (isContext : Bool) {content : Bytes}
    (hc : content.length < 256) : ∃ enc, encodeTagged tagNumber isContext (.ok content) = .ok enc := by
  by_cases hl : content.length ≤ maxInlineLength
  · exact ⟨_, by rw [encodeTagged, ok_bind, encodeTagHeader_inline ht isContext hl]; rfl⟩
  · exact ⟨_, by rw [encodeTagged, ok_bind, encodeTagHeader_extended ht isContext hl, if_pos hc]; rfl⟩

section ApplicationElement

variable {value : ℤ} {text : String} {enc : Bytes}

theorem applicationElement_unsigned (h : encodeApplicationUnsigned value = .ok enc) : ApplicationElement enc :=
  applicationElement_of_encodeTagged (show applicationTagUnsigned < 16 by simp) h

theorem applicationElement_enumerated (h : encodeApplicationEnumerated value = .ok enc) : ApplicationElement enc :=
  applicationElement_of_encodeTagged (show applicationTagEnumerated < 16 by simp) h

theorem applicationElement_characterString (h : encodeApplicationCharacterString text = .ok enc) :
    ApplicationElement enc := by
  rw [encodeApplicationCharacterString_eq_encodeTagged] at h
  exact applicationElement_of_encodeTagged (by simp) h

theorem applicationElement_objectIdentifier {objectType : ℕ}
    (h : encodeApplicationObjectIdentifier objectType value = .ok enc) : ApplicationElement enc :=
  applicationElement_of_encodeTagged (show applicationTagObjectIdentifier < 16 by simp) h

end ApplicationElement

/-! ## Values -/

/-- The number of octets of an unsigned value. -/
def unsignedSize (value : ℕ) : ℕ := if value = 0 then 1 else max 1 ((bitLength value + 7) / 8)

theorem lt_pow_unsignedSize (value : ℕ) : value < 256 ^ unsignedSize value := by
  unfold unsignedSize
  split
  · simp [*]
  · apply lt_of_lt_of_le (lt_two_pow_bitLength value)
    rw [show 256 = 2 ^ 8 by rfl, ← pow_mul]
    exact Nat.pow_le_pow_right (by simp) (by omega)

theorem unsignedSize_le_iff {value n : ℕ} (hn : 0 < n) : unsignedSize value ≤ n ↔ value < 256 ^ n := by
  have hb : bitLength value ≤ 8 * n ↔ value < 256 ^ n := by
    rw [bitLength_le_iff, pow_mul]; rfl
  rw [← hb]
  unfold unsignedSize
  split
  · rename_i h0
    simp only [h0, bitLength, if_true]
    omega
  · omega

theorem encodeUnsignedValue_of_nonneg {value : ℤ} (h : 0 ≤ value) :
    encodeUnsignedValue value = .ok (ByteOrder.big.encode (unsignedSize value.toNat) value.toNat) := by
  lift value to ℕ using h
  unfold encodeUnsignedValue unsignedSize
  split
  · simp_all [ByteOrder.encode, encodeLE]
  · rename_i h0
    have hne : value ≠ 0 := by simpa using h0
    have hlt := lt_pow_unsignedSize value
    unfold unsignedSize at hlt
    rw [if_neg hne] at hlt
    simp only [Int.natAbs_natCast, Int.toNat_natCast, if_neg hne, intToBytes]
    rw [if_pos ⟨by simp, by exact_mod_cast hlt⟩]

theorem encodeUnsignedValue_of_neg {value : ℤ} (h : value < 0) :
    encodeUnsignedValue value = .error .overflowError := by
  unfold encodeUnsignedValue
  rw [if_neg (by omega), intToBytes, if_neg (by omega)]

/-- An unsigned value is encoded when it is not negative and has at most 255 octets. -/
theorem encodeTagged_unsigned_ok_iff {tagNumber : ℕ} (ht : tagNumber < 16) (isContext : Bool) (value : ℤ) :
    (∃ enc, encodeTagged tagNumber isContext (encodeUnsignedValue value) = .ok enc) ↔
      0 ≤ value ∧ value < 256 ^ 255 := by
  by_cases h0 : 0 ≤ value
  swap
  · rw [encodeUnsignedValue_of_neg (not_le.1 h0)]
    refine iff_of_false ?_ fun h => h0 h.1
    rintro ⟨enc, he⟩
    cases he
  have hlen : unsignedSize value.toNat < 256 ↔ value < 256 ^ 255 := by
    rw [Nat.lt_succ_iff, unsignedSize_le_iff (by simp)]
    lift value to ℕ using h0
    norm_cast
  simp only [h0, true_and, ← hlen, encodeUnsignedValue_of_nonneg h0]
  constructor
  · rintro ⟨enc, h⟩
    obtain ⟨content, t, hc, hl, -⟩ := encodeTagged_eq_ok ht h
    cases hc
    simpa using hl
  · intro hl
    exact encodeTagged_ok ht isContext (by simpa using hl)

/-- The instances that an object identifier of an object type below 1024 takes: negative and
over-long ones do not pack. -/
theorem structPack_objectIdentifier {objectType : ℕ} (ht : objectType < 1024) (inst : ℤ) :
    structPack .big [.I (objectIdentifier objectType inst)] =
      if 0 ≤ inst ∧ inst < 2 ^ 32 then .ok (ByteOrder.big.encode 4 (objectType <<< 22 ||| inst.toNat))
      else .error .structError := by
  have hfits : (∀ f ∈ [Field.I (objectIdentifier objectType inst)], f.Fits) ↔ 0 ≤ inst ∧ inst < 2 ^ 32 := by
    simp only [List.mem_singleton, forall_eq, Field.Fits, objectIdentifier]
    rcases inst with n | n
    · have hor : objectType <<< 22 ||| n < 2 ^ 32 ↔ n < 2 ^ 32 := by
        constructor
        · exact Nat.lt_of_le_of_lt Nat.right_le_or
        · apply Nat.or_lt_two_pow
          rw [Nat.shiftLeft_eq]
          omega
      simp only [Int.lor, Int.ofNat_eq_natCast]
      norm_num
      exact_mod_cast hor
    · simp [Int.lor, Int.negSucc_not_nonneg]
  split_ifs with h
  · rw [structPack_of_fits (hfits.2 h)]
    obtain ⟨n, rfl⟩ := Int.eq_ofNat_of_zero_le h.1
    simp [structRaw, Field.raw, objectIdentifier, Int.lor]
  · exact structPack_of_not_fits (mt hfits.1 h)

/-- A string is encoded when it is ASCII and has at most 254 characters. -/
theorem encodeApplicationCharacterString_ok_iff (text : String) :
    (∃ enc, encodeApplicationCharacterString text = .ok enc) ↔ IsAscii text ∧ text.length ≤ 254 := by
  rw [encodeApplicationCharacterString_eq_encodeTagged]
  by_cases h : IsAscii text
  swap
  · rw [encodeAscii_of_not h]
    refine iff_of_false ?_ fun ha => h ha.1
    rintro ⟨enc, he⟩
    cases he
  rw [encodeAscii_of_isAscii h, ← String.length_toList]
  simp only [h, true_and, Except.map]
  constructor
  · rintro ⟨enc, he⟩
    obtain ⟨content, t, hc, hl, -⟩ := encodeTagged_eq_ok (by simp) he
    cases hc
    simp at hl
    omega
  · intro hl
    exact encodeTagged_ok (by simp) false (by simp; omega)

end Cursus.Bacnet
