/-
BACnet tagged elements as a grammar over byte strings, and the offset-based decoders of
`cursus/bacnet/server.py` as readers of that grammar: each decoder reads exactly the element at its
offset, and raises exactly when the payload ends with a tag octet that announces an extended length.
-/
import Cursus.Bacnet.Codec

namespace Cursus.Bacnet

open Cursus.Python

/-! ## The grammar -/

/-- `enc` is the element with tag octet `t` and the given content: the length stands in the three
low bits of `t`, or in the next octet when they are 5. -/
inductive Element (t : UInt8) (content : Bytes) : Bytes → Prop
  | inline : t.toNat &&& 7 ≠ 5 → content.length = t.toNat &&& 7 → Element t content (t :: content)
  | extended (l : UInt8) : t.toNat &&& 7 = 5 → content.length = l.toNat →
      Element t content (t :: l :: content)

/-- The low bits of the tag octet are a length, not the mark of an opening or a closing tag. -/
def IsPrimitive (t : UInt8) : Prop := t.toNat &&& 7 < 6

instance (t : UInt8) : Decidable (IsPrimitive t) := inferInstanceAs (Decidable (_ < _))

/-- One element with an application tag. -/
inductive ApplicationElement : Bytes → Prop
  | mk {t : UInt8} {content enc : Bytes} : t.toNat &&& contextClassBit = 0 → IsPrimitive t → Element t content enc →
      ApplicationElement enc

/-- The first `length` bytes and the rest, when there are that many. -/
def readContent (length : ℕ) (bs : Bytes) : Option (Bytes × Bytes) :=
  if bs.length < length then none else some (bs.take length, bs.drop length)

theorem readContent_append (content rest : Bytes) :
    readContent content.length (content ++ rest) = some (content, rest) := by
  simp [readContent]

theorem readContent_eq_some {length : ℕ} {bs content rest : Bytes}
    (h : readContent length bs = some (content, rest)) : bs = content ++ rest ∧ content.length = length := by
  unfold readContent at h
  split at h
  · cases h
  · cases h
    exact ⟨by simp, by simp; omega⟩

/-- The content behind an extended length octet. -/
def readExtended : Bytes → Except PyError (Option (Bytes × Bytes))
  | [] => .error .indexError
  | l :: bs => .ok (readContent l.toNat bs)

/-- Read an element whose tag octet satisfies `p`, and the bytes behind it. -/
def readElement (p : ℕ → Bool) : Bytes → Except PyError (Option (Bytes × Bytes))
  | [] => .ok none
  | t :: bs =>
    if p t.toNat = false then .ok none
    else if t.toNat &&& 7 = 5 then readExtended bs
    else .ok (readContent (t.toNat &&& 7) bs)

/-- The element read is the one at the head of the input. -/
theorem readElement_sound {p : ℕ → Bool} {bs content rest : Bytes}
    (h : readElement p bs = .ok (some (content, rest))) :
    ∃ t e, p t.toNat = true ∧ Element t content e ∧ bs = e ++ rest := by
  cases bs with
  | nil => cases h
  | cons t bs =>
    cases hp : p t.toNat with
    | false => simp [readElement, hp] at h
    | true =>
      by_cases hl : t.toNat &&& 7 = 5
      · cases bs with
        | nil => simp [readElement, readExtended, hp, hl] at h
        | cons l bs =>
          simp only [readElement, readExtended, hp, hl, Except.ok.injEq, Bool.true_eq_false, if_false, if_true] at h
          obtain ⟨rfl, hc⟩ := readContent_eq_some h
          exact ⟨t, _, hp, .extended l hl hc, rfl⟩
      · simp only [readElement, hp, hl, Except.ok.injEq, Bool.true_eq_false, if_false] at h
        obtain ⟨rfl, hc⟩ := readContent_eq_some h
        exact ⟨t, _, hp, .inline hl hc, rfl⟩

/-- Every element at the head of the input with the right tag is read. -/
theorem readElement_complete {p : ℕ → Bool} {t : UInt8} {content e : Bytes} (hp : p t.toNat = true)
    (he : Element t content e) (rest : Bytes) :
    readElement p (e ++ rest) = .ok (some (content, rest)) := by
  cases he with
  | inline hl hc =>
    rw [List.cons_append, readElement, if_neg (by simp [hp]), if_neg hl, ← hc, readContent_append]
  | extended l hl hc =>
    rw [List.cons_append, List.cons_append, readElement, if_neg (by simp [hp]), if_pos hl, readExtended,
      ← hc, readContent_append]

/-- Reading raises exactly on a lone tag octet that announces an extended length. -/
theorem readElement_error_iff {p : ℕ → Bool} {bs : Bytes} :
    (∃ e, readElement p bs = .error e) ↔ ∃ t, bs = [t] ∧ p t.toNat = true ∧ t.toNat &&& 7 = 5 := by
  constructor
  · rintro ⟨e, h⟩
    unfold readElement at h
    split at h
    · cases h
    rename_i t bs
    split_ifs at h with hp hl
    cases bs with
    | nil => exact ⟨t, rfl, by simpa using hp, hl⟩
    | cons l bs => cases h
  · rintro ⟨t, rfl, hp, hl⟩
    exact ⟨.indexError, by simp [readElement, readExtended, hp, hl]⟩

/-- The bytes of an element determine its tag, its content and where it ends. -/
theorem Element.unique {t t' : UInt8} {content content' e e' rest rest' : Bytes} (h : Element t content e)
    (h' : Element t' content' e') (heq : e ++ rest = e' ++ rest') :
    t = t' ∧ content = content' ∧ e = e' ∧ rest = rest' := by
  have hr := readElement_complete (p := fun _ => true) rfl h rest
  rw [heq, readElement_complete (p := fun _ => true) rfl h' rest'] at hr
  simp only [Except.ok.injEq, Option.some.injEq, Prod.mk.injEq] at hr
  obtain ⟨rfl, rfl⟩ := hr
  have he := List.append_cancel_right heq
  -- the tag is the first octet in either form
  have ht : t = t' := by cases h <;> cases h' <;> simp_all
  exact ⟨ht, rfl, he, rfl⟩

/-- The length of a content fits an octet. -/
theorem Element.length_content_lt {t : UInt8} {content e : Bytes} (h : Element t content e) :
    content.length < 256 := by
  rcases h with ⟨-, hc⟩ | ⟨l, -, hc⟩
  · rw [hc]
    exact Nat.lt_of_le_of_lt Nat.and_le_right (by simp)
  · rw [hc]
    exact l.toNat_lt

theorem Element.eq_cons {t : UInt8} {content e : Bytes} (h : Element t content e) : ∃ bs, e = t :: bs := by
  cases h with
  | inline => exact ⟨_, rfl⟩
  | extended => exact ⟨_, rfl⟩

/-- A short content leaves no room for a mark in the tag. -/
theorem Element.isPrimitive {t : UInt8} {content e : Bytes} (h : Element t content e) (hlen : content.length < 6) :
    IsPrimitive t := by
  unfold IsPrimitive
  cases h with
  | inline _ hc => omega
  | extended _ hl _ => omega

/-- An element has a header of one or two octets, and a content of at most 255. -/
theorem Element.length_le {t : UInt8} {content e : Bytes} (h : Element t content e) : e.length ≤ 257 := by
  have hlt := h.length_content_lt
  cases h with
  | inline => simp only [List.length_cons]; omega
  | extended => simp only [List.length_cons]; omega

theorem ApplicationElement.length_le {enc : Bytes} (h : ApplicationElement enc) : enc.length ≤ 257 := by
  obtain ⟨-, -, he⟩ := h
  exact he.length_le

/-! ## The decoders read elements -/

/-- The tag octets that `_decode_application_unsigned` accepts. -/
def isUnsignedTag (tagByte : ℕ) : Bool :=
  tagByte >>> 4 == applicationTagUnsigned && tagByte &&& contextClassBit == 0

/-- The common form of `_decode_application_unsigned` and `_decode_context_unsigned`. -/
def decodeTagged (p : ℕ → Bool) (payload : Bytes) (offset : ℕ) : Except PyError (Option ℕ × ℕ) := do
  if payload.length ≤ offset then return (none, offset)
  if ¬ p (← index payload offset) then return (none, offset)
  let (length, headerSize) ← decodeTagLength payload offset
  let valueOffset := offset + headerSize
  let valueEnd := valueOffset + length
  if payload.length < valueEnd then return (none, offset)
  return (some (ByteOrder.big.decode (slice payload valueOffset valueEnd)), valueEnd)

theorem decodeContextUnsigned_eq_decodeTagged (payload : Bytes) (offset tagNumber : ℕ) :
    decodeContextUnsigned payload offset tagNumber = decodeTagged (isContextTag · tagNumber) payload offset :=
  rfl

theorem decodeApplicationUnsigned_eq_decodeTagged (payload : Bytes) (offset : ℕ) :
    decodeApplicationUnsigned payload offset = decodeTagged isUnsignedTag payload offset := by
  have h : ∀ tagByte : ℕ, (tagByte >>> 4 ≠ applicationTagUnsigned ∨ tagByte &&& contextClassBit ≠ 0) ↔
      ¬ isUnsignedTag tagByte := by
    intro tagByte
    simp only [isUnsignedTag, Bool.and_eq_true, beq_iff_eq]
    tauto
  simp only [decodeApplicationUnsigned, decodeTagged, h]

theorem index_length (pre : Bytes) (t : UInt8) (bs : Bytes) :
    index (pre ++ t :: bs) pre.length = .ok t.toNat := by
  simpa using index_append_right pre (t :: bs) 0

theorem decodeTagLength_inline (pre : Bytes) {t : UInt8} (bs : Bytes) (hl : t.toNat &&& 7 ≠ 5) :
    decodeTagLength (pre ++ t :: bs) pre.length = .ok (t.toNat &&& 7, 1) := by
  simp [decodeTagLength, index_length, hl]

theorem decodeTagLength_extended (pre : Bytes) {t : UInt8} (l : UInt8) (bs : Bytes)
    (hl : t.toNat &&& 7 = 5) : decodeTagLength (pre ++ t :: l :: bs) pre.length = .ok (l.toNat, 2) := by
  simp [decodeTagLength, index_length, hl, index_append_right]

theorem decodeTagLength_truncated (pre : Bytes) {t : UInt8} (hl : t.toNat &&& 7 = 5) :
    decodeTagLength (pre ++ [t]) pre.length = .error .indexError := by
  simp [decodeTagLength, index_length, hl, index_append_right]

/-- The content behind a header of `h` octets, where the payload is long enough for it. -/
theorem slice_content (pre header bs : Bytes) (n : ℕ) :
    slice (pre ++ (header ++ bs)) (pre.length + header.length) (pre.length + header.length + n) = bs.take n := by
  have := slice_append_right (pre ++ header) bs 0 n
  simpa [slice_zero] using this

/-- A value with the offset behind it, or nothing with the old offset. -/
def located {α : Type} (a : Option α) (offset behind : ℕ) : Option α × ℕ :=
  (a, if a.isSome then behind else offset)

/-- What a decoder returns for what was read at `offset`. -/
def elementResult {α : Type} (f : Bytes → Option α) (payload : Bytes) (offset : ℕ) :
    Option (Bytes × Bytes) → Option α × ℕ
  | some (content, rest) => located (f content) offset (payload.length - rest.length)
  | none => (none, offset)

/-- The bound check and the slice of a decoder read the content behind the header. -/
theorem elementResult_readContent {α : Type} (f : Bytes → Option α) (pre header bs : Bytes) (n : ℕ) :
    elementResult f (pre ++ (header ++ bs)) pre.length (readContent n bs) =
      if (pre ++ (header ++ bs)).length < pre.length + header.length + n then (none, pre.length)
      else
        located (f (slice (pre ++ (header ++ bs)) (pre.length + header.length) (pre.length + header.length + n)))
          pre.length (pre.length + header.length + n) := by
  have hlen : (pre ++ (header ++ bs)).length = pre.length + header.length + bs.length := by simp; omega
  rw [slice_content, hlen, readContent]
  by_cases hn : bs.length < n
  · rw [if_pos hn, if_pos (by omega), elementResult]
  · have he : pre.length + header.length + bs.length - (bs.drop n).length = pre.length + header.length + n := by
      simp; omega
    rw [if_neg hn, if_neg (by omega), elementResult, hlen, he]

/-- The statements with which the decoders begin; `finish` gets the offset and the length of the
content. -/
def decodeHeader {α : Type} (p : ℕ → Bool) (payload : Bytes) (offset : ℕ)
    (finish : ℕ → ℕ → Except PyError (Option α × ℕ)) : Except PyError (Option α × ℕ) := do
  if payload.length ≤ offset then return (none, offset)
  if ¬ p (← index payload offset) then return (none, offset)
  let (length, headerSize) ← decodeTagLength payload offset
  finish (offset + headerSize) length

/-- A decoder that checks the bounds of the content reads the element at its offset. -/
theorem decodeHeader_eq {α : Type} (p : ℕ → Bool) (f : Bytes → Option α) (pre bs : Bytes)
    {finish : ℕ → ℕ → Except PyError (Option α × ℕ)}
    (hfinish : ∀ start n, finish start n =
      .ok (if (pre ++ bs).length < start + n then (none, pre.length)
        else located (f (slice (pre ++ bs) start (start + n))) pre.length (start + n))) :
    decodeHeader p (pre ++ bs) pre.length finish =
      (readElement p bs).map (elementResult f (pre ++ bs) pre.length) := by
  unfold decodeHeader
  cases bs with
  | nil => simp [readElement, elementResult, Except.map]
  | cons t bs =>
    have hle : ¬ (pre ++ t :: bs).length ≤ pre.length := by simp
    rw [if_neg hle, index_length, ok_bind]
    cases hp : p t.toNat with
    | false => simp [readElement, elementResult, hp, Except.map]
    | true =>
      rw [if_neg (by simp)]
      by_cases hl : t.toNat &&& 7 = 5
      · cases bs with
        | nil => simp [readElement, readExtended, decodeTagLength_truncated, hp, hl, Except.map]
        | cons l bs =>
          have hc := elementResult_readContent f pre [t, l] bs l.toNat
          simp only [List.cons_append, List.nil_append, List.length_cons, List.length_nil, Nat.reduceAdd] at hc
          simp only [decodeTagLength_extended pre l bs hl, ok_bind, hfinish, readElement, readExtended, hp, hl,
            Bool.true_eq_false, if_true, if_false, Except.map, hc]
      · have hc := elementResult_readContent f pre [t] bs (t.toNat &&& 7)
        simp only [List.cons_append, List.nil_append, List.length_cons, List.length_nil, Nat.reduceAdd] at hc
        simp only [decodeTagLength_inline pre bs hl, ok_bind, hfinish, readElement, hp, hl, Bool.true_eq_false,
          if_false, Except.map, hc]

theorem decodeTagged_eq (p : ℕ → Bool) (pre bs : Bytes) :
    decodeTagged p (pre ++ bs) pre.length =
      (readElement p bs).map (elementResult (some ∘ ByteOrder.big.decode) (pre ++ bs) pre.length) := by
  let finish (start n : ℕ) : Except PyError (Option ℕ × ℕ) :=
    if (pre ++ bs).length < start + n then pure (none, pre.length)
    else pure (some (ByteOrder.big.decode (slice (pre ++ bs) start (start + n))), start + n)
  have hfinish : ∀ start n, finish start n =
      .ok (if (pre ++ bs).length < start + n then (none, pre.length)
        else located ((some ∘ ByteOrder.big.decode) (slice (pre ++ bs) start (start + n))) pre.length (start + n)) := by
    intro start n
    simp only [finish]
    split_ifs <;> rfl
  exact decodeHeader_eq p (some ∘ ByteOrder.big.decode) pre bs hfinish

/-- The object type and instance in the four content octets of an object identifier. -/
def objectIdentifierOf (content : Bytes) : Option (ℕ × ℕ) :=
  if content.length = 4 then
    some (ByteOrder.big.decode content >>> 22, ByteOrder.big.decode content &&& 0x3FFFFF)
  else none

theorem uintAt_of_length {bs : Bytes} (h : bs.length = 4) : uintAt .big 4 bs 0 = ByteOrder.big.decode bs := by
  simp [uintAt, slice, ← h]

/-- The end of `_decode_context_object_identifier`: a length other than four is refused before the
bounds are checked. -/
theorem objectIdentifierOf_slice (payload : Bytes) (offset start n : ℕ) :
    (if n ≠ applicationRealLength then pure (none, offset)
      else if payload.length < start + n then pure (none, offset)
      else do
        checkSize 4 (slice payload start (start + n))
        let rawValue := uintAt .big 4 (slice payload start (start + n)) 0
        return (some (rawValue >>> 22, rawValue &&& 0x3FFFFF), start + n) :
        Except PyError (Option (ℕ × ℕ) × ℕ)) =
      .ok (if payload.length < start + n then (none, offset)
        else located (objectIdentifierOf (slice payload start (start + n))) offset (start + n)) := by
  by_cases hlen : payload.length < start + n
  · simp [hlen]
  · have hs : (slice payload start (start + n)).length = n := by rw [length_slice (by omega)]; omega
    by_cases hn : n = 4
    · subst hn
      simp [hlen, checkSize, hs, objectIdentifierOf, uintAt_of_length hs, located]
    · simp [hlen, hn, objectIdentifierOf, hs, located]

theorem decodeContextObjectIdentifier_eq (pre bs : Bytes) (tagNumber : ℕ) :
    decodeContextObjectIdentifier (pre ++ bs) pre.length tagNumber =
      (readElement (isContextTag · tagNumber) bs).map
        (elementResult objectIdentifierOf (pre ++ bs) pre.length) :=
  decodeHeader_eq (isContextTag · tagNumber) objectIdentifierOf pre bs
    (objectIdentifierOf_slice (pre ++ bs) pre.length)

end Cursus.Bacnet
