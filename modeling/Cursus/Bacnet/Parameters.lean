/-
The parameters of ReadProperty, WriteProperty and Who-Is as the parsers of `cursus/bacnet/server.py`
read them: the parsers that walk offsets are shown to accept exactly the sequences of tagged elements
of a request, and to raise exactly on parameters that break off in a tag header.
-/
import Cursus.Bacnet.Element
import Cursus.Python.Effect

namespace Cursus.Bacnet

open Cursus.Python

/-! ## Where a sequence of elements breaks off -/

/-- An element that a parser looks for: its tag octets, and the content lengths after which the
parser goes on. -/
structure ElementSpec where
  tag : ℕ → Bool
  goesOn : ℕ → Bool := fun _ => true

/-- Some of the elements in order, and then nothing but a tag octet of the next one that announces
an extended length. -/
inductive BreaksOff : List ElementSpec → Bytes → Prop
  | here {spec : ElementSpec} {specs : List ElementSpec} {t : UInt8} :
      spec.tag t.toNat = true → t.toNat &&& 7 = 5 → BreaksOff (spec :: specs) [t]
  | there {spec : ElementSpec} {specs : List ElementSpec} {t : UInt8} {content e bs : Bytes} :
      spec.tag t.toNat = true → Element t content e → spec.goesOn content.length = true →
      BreaksOff specs bs → BreaksOff (spec :: specs) (e ++ bs)

theorem not_breaksOff_nil {bs : Bytes} : ¬ BreaksOff [] bs := nofun

theorem breaksOff_cons_iff {spec : ElementSpec} {specs : List ElementSpec} {bs : Bytes} :
    BreaksOff (spec :: specs) bs ↔
      (∃ e, readElement spec.tag bs = .error e) ∨
        ∃ content rest, readElement spec.tag bs = .ok (some (content, rest)) ∧
          spec.goesOn content.length = true ∧ BreaksOff specs rest := by
  constructor
  · rintro (⟨ht, hl⟩ | ⟨ht, he, hc, h⟩)
    · exact .inl (readElement_error_iff.2 ⟨_, rfl, ht, hl⟩)
    · exact .inr ⟨_, _, readElement_complete ht he _, hc, h⟩
  · rintro (h | ⟨content, rest, hr, hc, h⟩)
    · obtain ⟨t, rfl, ht, hl⟩ := readElement_error_iff.1 h
      exact .here ht hl
    · obtain ⟨t, e, ht, he, rfl⟩ := readElement_sound hr
      exact .there ht he hc h

/-! ## Object, property and array index -/

/-- The contents of the object and property identifier elements, and what follows them and an array
index. -/
def readReference (bs : Bytes) : Except PyError (Option (Bytes × Bytes × Bytes)) :=
  chain (readElement (isContextTag · contextTagObjectIdentifier) bs) fun (oid, bs) =>
    if oid.length = 4 then
      chain (readElement (isContextTag · contextTagPropertyIdentifier) bs) fun (prop, bs) =>
        (readElement (isContextTag · contextTagPropertyArrayIndex) bs).map fun
          | some (_, rest) => some (oid, prop, rest)
          | none => some (oid, prop, bs)
    else .ok none

/-- The object type in the content of an object identifier. -/
def objectTypeOf (oid : Bytes) : ℕ := ByteOrder.big.decode oid >>> 22

/-- The instance in the content of an object identifier. -/
def instanceOf (oid : Bytes) : ℕ := ByteOrder.big.decode oid &&& 0x3FFFFF

/-- An object identifier that is encoded has the fields it was made of. -/
theorem objectIdentifier_fields {objectType n : ℕ} (ht : objectType < 1024) (hn : n < 2 ^ 22) :
    objectTypeOf (ByteOrder.big.encode 4 (objectType <<< 22 ||| n)) = objectType ∧
      instanceOf (ByteOrder.big.encode 4 (objectType <<< 22 ||| n)) = n := by
  have hor : objectType <<< 22 ||| n = objectType * 2 ^ 22 + n := by
    rw [← Nat.shiftLeft_add_eq_or_of_lt hn, Nat.shiftLeft_eq]
  have hdecode : ByteOrder.big.decode (ByteOrder.big.encode 4 (objectType <<< 22 ||| n)) =
      objectType * 2 ^ 22 + n := by
    rw [hor, ByteOrder.decode_encode _ (by omega)]
  constructor
  · unfold objectTypeOf
    rw [hdecode, Nat.shiftRight_eq_div_pow]
    omega
  · unfold instanceOf
    rw [hdecode, show 0x3FFFFF = 2 ^ 22 - 1 by rfl, Nat.and_two_pow_sub_one_eq_mod]
    omega

theorem skipArrayIndex_eq (pre bs : Bytes) :
    skipArrayIndex (pre ++ bs) pre.length =
      (readElement (isContextTag · contextTagPropertyArrayIndex) bs).map fun
        | some (_, rest) => (pre ++ bs).length - rest.length
        | none => pre.length := by
  cases bs with
  | nil => simp [skipArrayIndex, readElement, Except.map]
  | cons t bs =>
    cases hp : isContextTag t.toNat contextTagPropertyArrayIndex with
    | false =>
      simp only [skipArrayIndex, index_length, ok_bind, hp, Bool.false_eq_true, if_false, readElement, if_true]
      simp [Except.map]
    | true =>
      simp only [skipArrayIndex, index_length, ok_bind, hp, if_true]
      rw [if_pos (by simp), decodeContextUnsigned_eq_decodeTagged, decodeTagged_eq]
      rcases readElement (isContextTag · contextTagPropertyArrayIndex) (t :: bs) with e | r | ⟨c, rest⟩ <;>
        rfl

/-- The head of both property parsers reads the elements of the reference. -/
theorem parseObjectProperty_eq (payload : Bytes) :
    parseObjectProperty payload =
      (readReference payload).map (Option.map fun r =>
        (objectTypeOf r.1, instanceOf r.1, ByteOrder.big.decode r.2.1, payload.length - r.2.2.length)) := by
  have h0 := decodeContextObjectIdentifier_eq [] payload contextTagObjectIdentifier
  simp only [List.nil_append, List.length_nil] at h0
  unfold parseObjectProperty readReference
  rw [h0]
  rcases hr : readElement (isContextTag · contextTagObjectIdentifier) payload with e | _ | ⟨oid, r⟩
  · rfl
  · rfl
  -- behind the object identifier the decoders go on at the end of its element
  obtain ⟨t, e₀, -, -, rfl⟩ := readElement_sound hr
  by_cases hoid : oid.length = 4
  swap
  · simp [Except.map, elementResult, located, objectIdentifierOf, hoid]
  have hoff : (e₀ ++ r).length - r.length = e₀.length := by simp
  simp only [Except.map, elementResult, located, objectIdentifierOf, hoid, if_true, ok_bind, hoff,
    Option.isSome_some, decodeContextUnsigned_eq_decodeTagged, decodeTagged_eq, chain_some]
  rcases hr' : readElement (isContextTag · contextTagPropertyIdentifier) r with e | _ | ⟨prop, r'⟩
  · rfl
  · rfl
  obtain ⟨t', e₁, -, -, rfl⟩ := readElement_sound hr'
  have hoff' : (e₀ ++ (e₁ ++ r')).length - r'.length = (e₀ ++ e₁).length := by simp; omega
  have hskip := skipArrayIndex_eq (e₀ ++ e₁) r'
  simp only [List.append_assoc] at hskip
  simp only [Function.comp_apply, if_true, ok_bind, hoff', Option.isSome_some, hskip, Except.map, chain_some]
  rcases readElement (isContextTag · contextTagPropertyArrayIndex) r' with e | _ | ⟨c, rest⟩
  · rfl
  · simp only [ok_bind, pure_eq_ok, Option.map_some, hoff']; rfl
  · rfl

/-! ## The grammar of a property reference -/

/-- The optional array index. -/
inductive ArrayIndex : Bytes → Prop
  | absent : ArrayIndex []
  | present {t : UInt8} {content e : Bytes} :
      isContextTag t.toNat contextTagPropertyArrayIndex = true → Element t content e → ArrayIndex e

/-- The optional array index with its tag octet. -/
inductive TaggedIndex : Option UInt8 → Bytes → Prop
  | absent : TaggedIndex none []
  | present {t : UInt8} {content e : Bytes} : isContextTag t.toNat contextTagPropertyArrayIndex = true →
      Element t content e → TaggedIndex (some t) e

theorem TaggedIndex.arrayIndex {o : Option UInt8} {e : Bytes} (h : TaggedIndex o e) : ArrayIndex e := by
  cases h with
  | absent => exact .absent
  | present ht he => exact .present ht he

theorem exists_taggedIndex {e : Bytes} (h : ArrayIndex e) : ∃ o, TaggedIndex o e := by
  cases h with
  | absent => exact ⟨none, .absent⟩
  | present ht he => exact ⟨_, .present ht he⟩

/-- The encoding of a property reference with the given object and property identifier contents. -/
inductive Reference (oid prop : Bytes) : Bytes → Prop
  | mk {t₀ t₁ : UInt8} {e₀ e₁ e₂ : Bytes} :
      isContextTag t₀.toNat contextTagObjectIdentifier = true → Element t₀ oid e₀ → oid.length = 4 →
      isContextTag t₁.toNat contextTagPropertyIdentifier = true → Element t₁ prop e₁ →
      ArrayIndex e₂ → Reference oid prop (e₀ ++ (e₁ ++ e₂))

theorem readReference_sound {bs oid prop rest : Bytes}
    (h : readReference bs = .ok (some (oid, prop, rest))) :
    ∃ enc, Reference oid prop enc ∧ bs = enc ++ rest := by
  obtain ⟨⟨oid', r₀⟩, h₀, hr⟩ := chain_eq_some h
  obtain ⟨t₀, e₀, ht₀, he₀, rfl⟩ := readElement_sound h₀
  dsimp only at hr
  split_ifs at hr with hoid
  swap
  · cases hr
  obtain ⟨⟨prop', r₁⟩, h₁, hr'⟩ := chain_eq_some hr
  obtain ⟨t₁, e₁, ht₁, he₁, rfl⟩ := readElement_sound h₁
  dsimp only at hr'
  rcases h₂ : readElement (isContextTag · contextTagPropertyArrayIndex) r₁ with e | _ | ⟨c, r₂⟩
  · rw [h₂] at hr'
    cases hr'
  · rw [h₂] at hr'
    cases hr'
    exact ⟨e₀ ++ (e₁ ++ []), .mk ht₀ he₀ hoid ht₁ he₁ .absent, by simp⟩
  · obtain ⟨t₂, e₂, ht₂, he₂, hr₁⟩ := readElement_sound h₂
    rw [h₂] at hr'
    cases hr'
    exact ⟨e₀ ++ (e₁ ++ e₂), .mk ht₀ he₀ hoid ht₁ he₁ (.present ht₂ he₂), by simp [hr₁]⟩

/-- A reference is read whole unless the bytes behind it could be taken for an array index. -/
theorem readReference_complete {oid prop enc rest : Bytes} (h : Reference oid prop enc)
    (hrest : readElement (isContextTag · contextTagPropertyArrayIndex) rest = .ok none) :
    readReference (enc ++ rest) = .ok (some (oid, prop, rest)) := by
  obtain ⟨ht₀, he₀, hoid, ht₁, he₁, he₂⟩ := h
  rename_i t₀ t₁ e₀ e₁ e₂
  have h₀ := readElement_complete (p := (isContextTag · contextTagObjectIdentifier)) ht₀ he₀ (e₁ ++ (e₂ ++ rest))
  have h₁ := readElement_complete (p := (isContextTag · contextTagPropertyIdentifier)) ht₁ he₁ (e₂ ++ rest)
  simp only [readReference, List.append_assoc, h₀, chain_some, hoid, h₁, if_true]
  cases he₂ with
  | absent => rw [List.nil_append, hrest]; rfl
  | present ht₂ he₂ =>
    rw [readElement_complete (p := (isContextTag · contextTagPropertyArrayIndex)) ht₂ he₂ rest]; rfl

/-- The elements of a property reference in the order in which they are looked for. -/
def referenceSpecs : List ElementSpec :=
  [⟨(isContextTag · contextTagObjectIdentifier), (· == 4)⟩,
    ⟨(isContextTag · contextTagPropertyIdentifier), fun _ => true⟩,
    ⟨(isContextTag · contextTagPropertyArrayIndex), fun _ => true⟩]

theorem readReference_error_iff {bs : Bytes} :
    (∃ e, readReference bs = .error e) ↔ BreaksOff referenceSpecs bs := by
  simp only [readReference, referenceSpecs, chain_error_iff, breaksOff_cons_iff, not_breaksOff_nil, and_false,
    exists_false, or_false, true_and, Prod.exists]
  refine or_congr Iff.rfl (exists_congr fun oid => exists_congr fun r => and_congr_right fun _ => ?_)
  by_cases hoid : oid.length = 4
  · simp only [hoid, if_true, beq_self_eq_true, true_and, chain_error_iff, Prod.exists]
    refine or_congr Iff.rfl (exists_congr fun p => exists_congr fun r' => and_congr_right fun _ => ?_)
    rcases readElement (isContextTag · contextTagPropertyArrayIndex) r' with e | _ <;> simp [Except.map]
  · simp [hoid]

theorem Reference.length_oid {oid prop enc : Bytes} (h : Reference oid prop enc) : oid.length = 4 := by
  cases h
  assumption

/-- What the contents of a reference can be. -/
theorem Reference.bounds {oid prop enc : Bytes} (h : Reference oid prop enc) :
    objectTypeOf oid < 1024 ∧ instanceOf oid < 2 ^ 22 ∧ ByteOrder.big.decode prop < 256 ^ 255 := by
  have hoid : ByteOrder.big.decode oid < 2 ^ 32 := by
    simpa [h.length_oid] using ByteOrder.big.decode_lt oid
  refine ⟨?_, ?_, ?_⟩
  · unfold objectTypeOf
    rw [Nat.shiftRight_eq_div_pow]
    omega
  · unfold instanceOf
    rw [show 0x3FFFFF = 2 ^ 22 - 1 by rfl, Nat.and_two_pow_sub_one_eq_mod]
    exact Nat.mod_lt _ (by simp)
  · rcases h with ⟨-, -, -, -, he₁, -⟩
    exact lt_of_lt_of_le (ByteOrder.big.decode_lt prop)
      (Nat.pow_le_pow_right (by simp) (Nat.le_of_lt_succ he₁.length_content_lt))

/-! ## The parsers -/

/-- Parameters of ReadProperty: a property reference and nothing behind it. -/
theorem parsePropertyReference_eq_some {payload : Bytes} {objectType inst prop : ℕ} :
    parsePropertyReference payload = .ok (some (objectType, inst, prop)) ↔
      ∃ oid p, Reference oid p payload ∧ objectTypeOf oid = objectType ∧ instanceOf oid = inst ∧
        ByteOrder.big.decode p = prop := by
  unfold parsePropertyReference
  rw [parseObjectProperty_eq]
  constructor
  · intro h
    rcases hr : readReference payload with e | _ | ⟨oid, p, rest⟩
    · rw [hr] at h
      cases h
    · rw [hr] at h
      cases h
    obtain ⟨enc, henc, rfl⟩ := readReference_sound hr
    simp only [hr, Except.map, Option.map_some, ok_bind, pure_eq_ok] at h
    split_ifs at h with hlen
    · cases h
    cases h
    obtain rfl : rest = [] := by
      rw [List.length_append] at hlen
      exact List.length_eq_zero_iff.1 (by omega)
    exact ⟨oid, p, by simpa using henc, rfl, rfl, rfl⟩
  · rintro ⟨oid, p, henc, rfl, rfl, rfl⟩
    have hr : readReference (payload ++ []) = .ok (some (oid, p, [])) := readReference_complete henc rfl
    rw [List.append_nil] at hr
    simp [hr, Except.map]

theorem parsePropertyReference_error_iff {payload : Bytes} :
    (∃ e, parsePropertyReference payload = .error e) ↔ BreaksOff referenceSpecs payload := by
  unfold parsePropertyReference
  rw [parseObjectProperty_eq, ← readReference_error_iff]
  rcases readReference payload with e | _ | ⟨oid, p, rest⟩
  · simp [Except.map]
  · simp [Except.map]
  · simp only [Except.map, Option.map_some, ok_bind, pure_eq_ok]
    split_ifs <;> simp

/-- The octets of the opening and the closing tag of the property value. -/
abbrev openingTag : UInt8 := 0x3E
abbrev closingTag : UInt8 := 0x3F

/-- An opening tag is no array index. -/
theorem TaggedIndex.unique {o o' : Option UInt8} {e e' bs bs' : Bytes} (h : TaggedIndex o e) (h' : TaggedIndex o' e')
    (heq : e ++ openingTag :: bs = e' ++ openingTag :: bs') : o = o' ∧ bs = bs' := by
  have hopen : isContextTag openingTag.toNat contextTagPropertyArrayIndex = false := rfl
  cases h with
  | absent =>
    cases h' with
    | absent => exact ⟨rfl, List.tail_eq_of_cons_eq heq⟩
    | present ht he =>
      obtain ⟨cs, rfl⟩ := he.eq_cons
      obtain rfl := List.head_eq_of_cons_eq heq
      rw [hopen] at ht
      cases ht
  | present ht he =>
    cases h' with
    | absent =>
      obtain ⟨cs, rfl⟩ := he.eq_cons
      obtain rfl := List.head_eq_of_cons_eq heq
      rw [hopen] at ht
      cases ht
    | present ht' he' =>
      obtain ⟨rfl, -, -, hrest⟩ := he.unique he' heq
      exact ⟨rfl, List.tail_eq_of_cons_eq hrest⟩

/-- Parameters of WriteProperty: a property reference, an opening tag, a value that runs up to the
first closing octet, and anything behind that. -/
inductive WriteParameters (oid p value : Bytes) : Bytes → Prop
  | mk {enc : Bytes} (rest : Bytes) : Reference oid p enc → closingTag ∉ value →
      WriteParameters oid p value (enc ++ openingTag :: (value ++ closingTag :: rest))

/-- The value between an opening tag and the first closing octet. -/
def readValue : Bytes → Option Bytes
  | [] => none
  | t :: bs => if t = openingTag then (findFrom [closingTag] bs).map bs.take else none

theorem parsePropertyValue_eq (pre bs : Bytes) :
    parsePropertyValue (pre ++ bs) pre.length = .ok (readValue bs) := by
  have hopen : encodeOpeningTag contextTagPropertyValue = .ok [openingTag] := rfl
  have hclose : encodeClosingTag contextTagPropertyValue = .ok [closingTag] := rfl
  simp only [parsePropertyValue, hopen, hclose, ok_bind]
  cases bs with
  | nil => simp [readValue]
  | cons t bs =>
    have hle : ¬ (pre ++ t :: bs).length ≤ pre.length := by simp
    have hfind := find_append_right (pre ++ [t]) bs closingTag
    have hslice := slice_append_right (pre ++ [t]) bs 0
    simp only [List.append_assoc, List.cons_append, List.nil_append, List.length_append, List.length_cons,
      List.length_nil, Nat.zero_add, Nat.add_zero] at hfind hslice
    rw [if_neg hle, readValue]
    simp only [index_length, index_zero_cons, ok_bind, ne_eq, UInt8.toNat_inj, hfind]
    by_cases ht : t = openingTag
    · rw [if_neg (by simp [ht]), if_pos ht]
      cases findFrom [closingTag] bs with
      | none => rfl
      | some n => simp [hslice, slice_zero]
    · rw [if_pos ht, if_neg ht]
      rfl

theorem readValue_eq_some {bs value : Bytes} :
    readValue bs = some value ↔
      closingTag ∉ value ∧ ∃ rest, bs = openingTag :: (value ++ closingTag :: rest) := by
  constructor
  · intro h
    cases bs with
    | nil => cases h
    | cons t bs =>
      simp only [readValue] at h
      split_ifs at h with ht
      obtain ⟨n, hn, rfl⟩ := Option.map_eq_some_iff.1 h
      obtain ⟨pre, rest, rfl, hpre, rfl⟩ := findFrom_eq_some hn
      rw [List.take_left]
      exact ⟨hpre, rest, by rw [ht]⟩
  · rintro ⟨hv, rest, rfl⟩
    simp [readValue, findFrom_append_cons rest hv]

theorem parseWritePropertyRequest_eq_some {payload value : Bytes} {objectType inst prop : ℕ} :
    parseWritePropertyRequest payload = .ok (some (objectType, inst, prop, value)) ↔
      ∃ oid p, WriteParameters oid p value payload ∧ objectTypeOf oid = objectType ∧ instanceOf oid = inst ∧
        ByteOrder.big.decode p = prop := by
  unfold parseWritePropertyRequest
  rw [parseObjectProperty_eq]
  constructor
  · intro h
    rcases hr : readReference payload with e | _ | ⟨oid, p, bs⟩
    · rw [hr] at h
      cases h
    · rw [hr] at h
      cases h
    obtain ⟨enc, henc, rfl⟩ := readReference_sound hr
    have hoff : (enc ++ bs).length - bs.length = enc.length := by simp
    simp only [hr, Except.map, Option.map_some, ok_bind, hoff, parsePropertyValue_eq] at h
    rcases hv : readValue bs with _ | v
    · rw [hv] at h
      cases h
    rw [hv] at h
    cases h
    obtain ⟨hc, rest, rfl⟩ := readValue_eq_some.1 hv
    exact ⟨oid, p, .mk rest henc hc, rfl, rfl, rfl⟩
  · rintro ⟨oid, p, ⟨rest, henc, hc⟩, rfl, rfl, rfl⟩
    rename_i enc
    have hr : readReference (enc ++ openingTag :: (value ++ closingTag :: rest)) =
        .ok (some (oid, p, openingTag :: (value ++ closingTag :: rest))) := readReference_complete henc rfl
    have hv := readValue_eq_some.2 ⟨hc, rest, rfl⟩
    have hoff : (enc ++ openingTag :: (value ++ closingTag :: rest)).length -
        (openingTag :: (value ++ closingTag :: rest)).length = enc.length := by simp
    simp only [hr, Except.map, Option.map_some, ok_bind, hoff, parsePropertyValue_eq, hv, pure_eq_ok]

theorem parseWritePropertyRequest_error_iff {payload : Bytes} :
    (∃ e, parseWritePropertyRequest payload = .error e) ↔ BreaksOff referenceSpecs payload := by
  unfold parseWritePropertyRequest
  rw [parseObjectProperty_eq, ← readReference_error_iff]
  rcases hr : readReference payload with e | _ | ⟨oid, p, rest⟩
  · simp [Except.map]
  · simp [Except.map]
  · obtain ⟨enc, -, rfl⟩ := readReference_sound hr
    have hoff : (enc ++ rest).length - rest.length = enc.length := by simp
    simp only [Except.map, Option.map_some, ok_bind, hoff, parsePropertyValue_eq]
    cases readValue rest <;> simp

/-! ## Who-Is limits -/

/-- The contents of the two limits as far as they are there. -/
def readLimits (bs : Bytes) : Except PyError (Option Bytes × Option Bytes) :=
  match readElement isUnsignedTag bs with
  | .error e => .error e
  | .ok none => .ok (none, none)
  | .ok (some (lower, rest)) => (readElement isUnsignedTag rest).map fun upper => (some lower, upper.map Prod.fst)

theorem parseWhoIsLimits_eq (payload : Bytes) :
    parseWhoIsLimits payload =
      (readLimits payload).map fun limits =>
        (limits.1.map ByteOrder.big.decode, limits.2.map ByteOrder.big.decode) := by
  have h0 := decodeTagged_eq isUnsignedTag [] payload
  simp only [List.nil_append, List.length_nil] at h0
  unfold parseWhoIsLimits readLimits
  rw [decodeApplicationUnsigned_eq_decodeTagged, h0]
  cases payload with
  | nil => rfl
  | cons t bs =>
    rw [if_neg (by simp)]
    rcases hr : readElement isUnsignedTag (t :: bs) with e | _ | ⟨lower, rest⟩
    · rfl
    · rfl
    obtain ⟨t', e, -, -, htbs⟩ := readElement_sound hr
    have hoff : (t :: bs).length - rest.length = e.length := by simp [htbs]
    simp only [Except.map, ok_bind, elementResult, located, Function.comp_apply, Option.isSome_some, if_true,
      hoff, decodeApplicationUnsigned_eq_decodeTagged]
    rw [htbs, decodeTagged_eq]
    rcases readElement isUnsignedTag rest with e' | _ | ⟨upper, r⟩ <;> rfl

/-- An application-tagged unsigned value stands at the head. -/
def StartsWithUnsigned (bs : Bytes) : Prop :=
  ∃ t content e rest, isUnsignedTag (t : UInt8).toNat = true ∧ Element t content e ∧ bs = e ++ rest

/-- The contents of the limits that a Who-Is has. -/
inductive Limits : Option Bytes → Option Bytes → Bytes → Prop
  | none {bs : Bytes} : ¬ StartsWithUnsigned bs → Limits none none bs
  | lower {t : UInt8} {lower e bs : Bytes} : isUnsignedTag t.toNat = true → Element t lower e →
      ¬ StartsWithUnsigned bs → Limits (some lower) none (e ++ bs)
  | both {t t' : UInt8} {lower upper e e' bs : Bytes} : isUnsignedTag t.toNat = true → Element t lower e →
      isUnsignedTag t'.toNat = true → Element t' upper e' → Limits (some lower) (some upper) (e ++ (e' ++ bs))

theorem readElement_of_not_startsWithUnsigned {bs : Bytes} (h : ¬ StartsWithUnsigned bs) :
    readElement isUnsignedTag bs = .ok none ∨ ∃ e, readElement isUnsignedTag bs = .error e := by
  rcases hr : readElement isUnsignedTag bs with e | _ | ⟨content, rest⟩
  · exact .inr ⟨e, rfl⟩
  · exact .inl rfl
  · obtain ⟨t, e, ht, he, hbs⟩ := readElement_sound hr
    exact absurd ⟨t, content, e, rest, ht, he, hbs⟩ h

/-- The limits that the parser returns are those of the request. -/
theorem parseWhoIsLimits_of_limits {lower upper : Option Bytes} {bs : Bytes} (h : Limits lower upper bs)
    {limits : Option ℕ × Option ℕ} (hp : parseWhoIsLimits bs = .ok limits) :
    limits = (lower.map ByteOrder.big.decode, upper.map ByteOrder.big.decode) := by
  rw [parseWhoIsLimits_eq, readLimits] at hp
  cases h with
  | none hn =>
    rcases readElement_of_not_startsWithUnsigned hn with hr | ⟨e, hr⟩ <;> rw [hr] at hp <;> cases hp
    rfl
  | lower ht he hn =>
    rw [readElement_complete ht he] at hp
    rcases readElement_of_not_startsWithUnsigned hn with hr | ⟨e, hr⟩ <;> simp only [hr] at hp <;> cases hp
    rfl
  | both ht he ht' he' =>
    simp only [readElement_complete ht he, readElement_complete ht' he'] at hp
    cases hp
    rfl

theorem exists_limits (bs : Bytes) : ∃ lower upper, Limits lower upper bs := by
  by_cases h : StartsWithUnsigned bs
  swap
  · exact ⟨none, none, .none h⟩
  obtain ⟨t, lower, e, rest, ht, he, rfl⟩ := h
  by_cases h' : StartsWithUnsigned rest
  swap
  · exact ⟨some lower, none, .lower ht he h'⟩
  obtain ⟨t', upper, e', rest', ht', he', rfl⟩ := h'
  exact ⟨some lower, some upper, .both ht he ht' he'⟩

/-- The limits of Who-Is in the order in which they are looked for. -/
def limitSpecs : List ElementSpec := [⟨isUnsignedTag, fun _ => true⟩, ⟨isUnsignedTag, fun _ => true⟩]

theorem parseWhoIsLimits_error_iff {payload : Bytes} :
    (∃ e, parseWhoIsLimits payload = .error e) ↔ BreaksOff limitSpecs payload := by
  simp only [parseWhoIsLimits_eq, readLimits, limitSpecs, breaksOff_cons_iff, not_breaksOff_nil, and_false,
    exists_false, or_false, true_and]
  rcases readElement isUnsignedTag payload with e | _ | ⟨lower, rest⟩
  · simp [Except.map]
  · simp [Except.map]
  · rcases h : readElement isUnsignedTag rest with e | u <;> simp [Except.map, h]

end Cursus.Bacnet
