/-
Tagged values at any position of a payload: what `_encode_context_unsigned`,
`_encode_application_unsigned` and `_encode_context_object_identifier` write is read back between any
bytes, and an unsigned value takes as few octets as it can.
-/
import Cursus.Bacnet.Encode
import Cursus.Bacnet.Parameters

namespace Cursus.Bacnet

open Cursus.Python

/-! ## The shortest content -/

/-- Big-endian octets, one at least, and as few as there can be. -/
structure IsShortest (v : ℕ) (content : Bytes) : Prop where
  ne_nil : content ≠ []
  decode_eq : ByteOrder.big.decode content = v
  length_le : ∀ content', content' ≠ [] → ByteOrder.big.decode content' = v → content.length ≤ content'.length

theorem decodeLE_append_zero : ∀ bs : Bytes, decodeLE (bs ++ [0]) = decodeLE bs
  | [] => rfl
  | b :: bs => by rw [List.cons_append, decodeLE, decodeLE_append_zero bs, decodeLE]

theorem decode_zero_cons (bs : Bytes) : ByteOrder.big.decode (0 :: bs) = ByteOrder.big.decode bs := by
  show decodeLE (0 :: bs).reverse = decodeLE bs.reverse
  rw [List.reverse_cons, decodeLE_append_zero]

/-- A leading zero octet could be left out, unless it is the only one. -/
theorem IsShortest.eq_zero_of_leading {v : ℕ} {content : Bytes} (h : IsShortest v content)
    (hzero : content.head? = some 0) : v = 0 := by
  cases content with
  | nil => cases hzero
  | cons b bs =>
    cases hzero
    have hdecode := h.decode_eq
    rw [decode_zero_cons] at hdecode
    cases bs with
    | nil => exact hdecode.symm
    | cons b bs =>
      have hle := h.length_le (b :: bs) (List.cons_ne_nil _ _) hdecode
      rw [List.length_cons (a := (0 : UInt8))] at hle
      omega

theorem unsignedSize_pos (v : ℕ) : 0 < unsignedSize v := by
  unfold unsignedSize
  split_ifs
  · decide
  · exact lt_max_of_lt_left Nat.one_pos

theorem isShortest_encode (v : ℕ) : IsShortest v (ByteOrder.big.encode (unsignedSize v) v) where
  ne_nil := by
    rw [← List.length_pos_iff_ne_nil, ByteOrder.length_encode]
    exact unsignedSize_pos v
  decode_eq := ByteOrder.decode_encode _ (lt_pow_unsignedSize v)
  length_le := by
    rintro content' hne rfl
    rw [ByteOrder.length_encode, unsignedSize_le_iff (List.length_pos_iff_ne_nil.2 hne)]
    exact ByteOrder.decode_lt _ _

/-! ## Reading at an offset -/

/-- The decoder reads the value out of the encoding at any position, up to where it ends. -/
def ReadsBack {α : Type} (decode : Bytes → ℕ → Except PyError (Option α × ℕ)) (enc : Bytes) (a : α) : Prop :=
  ∀ pre suf, decode (pre ++ enc ++ suf) pre.length = .ok (some a, (pre ++ enc).length)

theorem isContextTag_of_fields {t : UInt8} {tagNumber : ℕ} (htag : t.toNat >>> 4 = tagNumber)
    (hclass : t.toNat &&& 8 = 8) : isContextTag t.toNat tagNumber = true := by
  simp [isContextTag, htag, hclass]

/-- Where a decoder is a reader of elements, the content of the element at its offset is read. -/
theorem readsBack_of_element {α : Type} {decode : Bytes → ℕ → Except PyError (Option α × ℕ)} {p : ℕ → Bool}
    {f : Bytes → Option α} (hdecode : ∀ pre bs, decode (pre ++ bs) pre.length =
      (readElement p bs).map (elementResult f (pre ++ bs) pre.length))
    {t : UInt8} {content enc : Bytes} (ht : p t.toNat = true) (he : Element t content enc) {a : α}
    (hf : f content = some a) : ReadsBack decode enc a := by
  intro pre suf
  have hend : (pre ++ (enc ++ suf)).length - suf.length = (pre ++ enc).length := by
    simp only [List.length_append]
    omega
  rw [List.append_assoc, hdecode, readElement_complete ht he]
  simp only [Except.map, elementResult, located, hf, Option.isSome_some, if_true, hend]

theorem readsBack_contextUnsigned {t : UInt8} {tagNumber : ℕ} (htag : t.toNat >>> 4 = tagNumber)
    (hclass : t.toNat &&& 8 = 8) {content enc : Bytes} (he : Element t content enc) :
    ReadsBack (decodeContextUnsigned · · tagNumber) enc (ByteOrder.big.decode content) :=
  readsBack_of_element (fun pre bs => decodeTagged_eq (isContextTag · tagNumber) pre bs)
    (isContextTag_of_fields htag hclass) he rfl

theorem readsBack_applicationUnsigned {t : UInt8} (htag : t.toNat >>> 4 = applicationTagUnsigned)
    (hclass : t.toNat &&& 8 = 0) {content enc : Bytes} (he : Element t content enc) :
    ReadsBack decodeApplicationUnsigned enc (ByteOrder.big.decode content) := by
  have ht : isUnsignedTag t.toNat = true := by simp [isUnsignedTag, htag, hclass]
  refine readsBack_of_element (f := some ∘ ByteOrder.big.decode) (fun pre bs => ?_) ht he rfl
  rw [decodeApplicationUnsigned_eq_decodeTagged]
  exact decodeTagged_eq isUnsignedTag pre bs

theorem readsBack_contextObjectIdentifier {t : UInt8} {tagNumber : ℕ} (htag : t.toNat >>> 4 = tagNumber)
    (hclass : t.toNat &&& 8 = 8) {oid enc : Bytes} (hlen : oid.length = 4) (he : Element t oid enc) :
    ReadsBack (decodeContextObjectIdentifier · · tagNumber) enc (objectTypeOf oid, instanceOf oid) :=
  readsBack_of_element (p := (isContextTag · tagNumber)) (f := objectIdentifierOf)
    (fun pre bs => decodeContextObjectIdentifier_eq pre bs tagNumber) (isContextTag_of_fields htag hclass) he (if_pos hlen)

/-! ## Encoding and reading back -/

/-- The encoding of an unsigned value is an element whose content is the shortest. -/
theorem exists_element_unsigned {tagNumber : ℕ} (htag : tagNumber < 16) (isContext : Bool) {v : ℕ} (hv : v < 256 ^ 255) :
    ∃ enc content t, encodeTagged tagNumber isContext (encodeUnsignedValue v) = .ok enc ∧ Element t content enc ∧
      IsShortest v content ∧ t.toNat >>> 4 = tagNumber ∧ t.toNat &&& 8 = (if isContext then 8 else 0) := by
  obtain ⟨enc, henc⟩ := (encodeTagged_unsigned_ok_iff htag isContext v).2 ⟨by positivity, by exact_mod_cast hv⟩
  obtain ⟨content, t, hcontent, -, he, -, hnumber, hclass⟩ := encodeTagged_eq_ok htag henc
  rw [encodeUnsignedValue_of_nonneg (by positivity), Int.toNat_natCast] at hcontent
  cases hcontent
  exact ⟨enc, _, t, henc, he, isShortest_encode v, hnumber, hclass⟩

theorem contextUnsigned_readsBack {tagNumber v : ℕ} (htag : tagNumber < 16) (hv : v < 256 ^ 255) :
    ∃ enc content t, encodeContextUnsigned tagNumber v = .ok enc ∧ Element t content enc ∧ IsShortest v content ∧
      ReadsBack (decodeContextUnsigned · · tagNumber) enc v := by
  obtain ⟨enc, content, t, henc, he, hshort, hnumber, hclass⟩ := exists_element_unsigned htag true hv
  have hread := readsBack_contextUnsigned hnumber hclass he
  rw [hshort.decode_eq] at hread
  exact ⟨enc, content, t, henc, he, hshort, hread⟩

theorem applicationUnsigned_readsBack {v : ℕ} (hv : v < 256 ^ 255) :
    ∃ enc content t, encodeApplicationUnsigned v = .ok enc ∧ Element t content enc ∧ IsShortest v content ∧
      ReadsBack decodeApplicationUnsigned enc v := by
  obtain ⟨enc, content, t, henc, he, hshort, hnumber, hclass⟩ :=
    exists_element_unsigned (show applicationTagUnsigned < 16 by simp) false hv
  have hread := readsBack_applicationUnsigned hnumber hclass he
  rw [hshort.decode_eq] at hread
  exact ⟨enc, content, t, henc, he, hshort, hread⟩

theorem contextObjectIdentifier_readsBack {tagNumber objectType inst : ℕ} (htag : tagNumber < 16)
    (htype : objectType < 2 ^ 10) (hinst : inst < 2 ^ 22) :
    ∃ enc, encodeContextObjectIdentifier tagNumber objectType inst = .ok enc ∧
      ReadsBack (decodeContextObjectIdentifier · · tagNumber) enc (objectType, inst) := by
  let oid := ByteOrder.big.encode 4 (objectType <<< 22 ||| inst)
  have hlen : oid.length = 4 := ByteOrder.length_encode ..
  have hpack : structPack .big [.I (objectIdentifier objectType inst)] = .ok oid := by
    rw [structPack_objectIdentifier htype, if_pos ⟨by positivity, by omega⟩, Int.toNat_natCast]
  obtain ⟨enc, henc⟩ := encodeTagged_ok htag true (show oid.length < 256 by omega)
  rw [← hpack] at henc
  obtain ⟨content, t, hcontent, -, he, -, hnumber, hclass⟩ := encodeTagged_eq_ok htag henc
  rw [hpack] at hcontent
  cases hcontent
  obtain ⟨htypeOf, hinstOf⟩ := objectIdentifier_fields htype hinst
  have hread := readsBack_contextObjectIdentifier hnumber hclass hlen he
  rw [htypeOf, hinstOf] at hread
  exact ⟨enc, henc, hread⟩

/-- What is read back out of one encoding is one value. -/
theorem ReadsBack.unique {α : Type} {decode : Bytes → ℕ → Except PyError (Option α × ℕ)} {enc : Bytes} {a a' : α}
    (h : ReadsBack decode enc a) (h' : ReadsBack decode enc a') : a = a' := by
  have heq := (h [] []).symm.trans (h' [] [])
  simp only [Except.ok.injEq, Prod.mk.injEq, Option.some.injEq, and_true] at heq
  exact heq

/-- Tagged values are read back between any bytes, in the shortest content for unsigned ones, which
are therefore encoded injectively and without a leading zero octet but for zero. -/
theorem tagged_values_read_back :
    (∀ tagNumber ≤ 14, ∀ v < 256 ^ 255, ∃ enc content t, encodeContextUnsigned tagNumber (v : ℕ) = .ok enc ∧
      Element t content enc ∧ IsShortest v content ∧ (content.head? = some 0 → v = 0) ∧
      ReadsBack (decodeContextUnsigned · · tagNumber) enc v ∧
      ∀ v' < 256 ^ 255, encodeContextUnsigned tagNumber (v' : ℕ) = .ok enc → v' = v) ∧
    (∀ v < 256 ^ 255, ∃ enc content t, encodeApplicationUnsigned (v : ℕ) = .ok enc ∧
      Element t content enc ∧ IsShortest v content ∧ (content.head? = some 0 → v = 0) ∧
      ReadsBack decodeApplicationUnsigned enc v ∧
      ∀ v' < 256 ^ 255, encodeApplicationUnsigned (v' : ℕ) = .ok enc → v' = v) ∧
    (∀ tagNumber ≤ 14, ∀ objectType < 2 ^ 10, ∀ inst < 2 ^ 22, ∃ enc,
      encodeContextObjectIdentifier tagNumber objectType (inst : ℕ) = .ok enc ∧
      ReadsBack (decodeContextObjectIdentifier · · tagNumber) enc (objectType, inst)) := by
  refine ⟨fun tagNumber htag v hv => ?_, fun v hv => ?_, fun tagNumber htag objectType htype inst hinst => ?_⟩
  · have htag' : tagNumber < 16 := by omega
    obtain ⟨enc, content, t, henc, he, hshort, hread⟩ := contextUnsigned_readsBack htag' hv
    refine ⟨enc, content, t, henc, he, hshort, hshort.eq_zero_of_leading, hread, fun v' hv' henc' => ?_⟩
    obtain ⟨enc', -, -, hok, -, -, hread'⟩ := contextUnsigned_readsBack htag' hv'
    rw [henc'] at hok
    cases hok
    exact hread'.unique hread
  · obtain ⟨enc, content, t, henc, he, hshort, hread⟩ := applicationUnsigned_readsBack hv
    refine ⟨enc, content, t, henc, he, hshort, hshort.eq_zero_of_leading, hread, fun v' hv' henc' => ?_⟩
    obtain ⟨enc', -, -, hok, -, -, hread'⟩ := applicationUnsigned_readsBack hv'
    rw [henc'] at hok
    cases hok
    exact hread'.unique hread
  · exact contextObjectIdentifier_readsBack (by omega) htype hinst

end Cursus.Bacnet
