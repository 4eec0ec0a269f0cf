/-
The grammar of a property reference, in which the length of a tag is 0 to 4 or stands in the next
octet, and the marks 6 and 7 of opening and closing tags are no lengths. `_parse_property_reference`
accepts it, but it takes the marks for lengths, and it raises where a tag breaks off.
-/
import Cursus.Bacnet.Parameters

namespace Cursus.Bacnet

open Cursus.Python

/-! ## References and their tags -/

/-- A property reference with its tag octets. -/
inductive TaggedReference (oid prop : Bytes) (objectTag propertyTag : UInt8) (indexTag : Option UInt8) : Bytes → Prop
  | mk {e₀ e₁ e₂ : Bytes} : isContextTag objectTag.toNat contextTagObjectIdentifier = true →
      Element objectTag oid e₀ → oid.length = 4 →
      isContextTag propertyTag.toNat contextTagPropertyIdentifier = true → Element propertyTag prop e₁ →
      TaggedIndex indexTag e₂ → TaggedReference oid prop objectTag propertyTag indexTag (e₀ ++ (e₁ ++ e₂))

/-- The grammar: a reference with primitive tags. -/
def PrimitiveReference (oid prop payload : Bytes) : Prop :=
  ∃ objectTag propertyTag indexTag, TaggedReference oid prop objectTag propertyTag indexTag payload ∧
    IsPrimitive objectTag ∧ IsPrimitive propertyTag ∧ ∀ t ∈ indexTag, IsPrimitive t

/-- A reference with a mark in the tag of the property identifier or of the array index. -/
def MarkedReference (payload : Bytes) : Prop :=
  ∃ oid prop objectTag propertyTag indexTag, TaggedReference oid prop objectTag propertyTag indexTag payload ∧
    ¬ (IsPrimitive propertyTag ∧ ∀ t ∈ indexTag, IsPrimitive t)

theorem TaggedReference.reference {oid prop payload : Bytes} {objectTag propertyTag : UInt8} {indexTag : Option UInt8}
    (h : TaggedReference oid prop objectTag propertyTag indexTag payload) : Reference oid prop payload := by
  obtain ⟨ht₀, he₀, hoid, ht₁, he₁, hi⟩ := h
  exact .mk ht₀ he₀ hoid ht₁ he₁ hi.arrayIndex

theorem Reference.exists_tagged {oid prop payload : Bytes} (h : Reference oid prop payload) :
    ∃ objectTag propertyTag indexTag, TaggedReference oid prop objectTag propertyTag indexTag payload := by
  obtain ⟨ht₀, he₀, hoid, ht₁, he₁, hi⟩ := h
  obtain ⟨o, hi⟩ := exists_taggedIndex hi
  exact ⟨_, _, o, .mk ht₀ he₀ hoid ht₁ he₁ hi⟩

/-- The bytes of a reference determine its tags. -/
theorem TaggedReference.unique {oid prop oid' prop' payload : Bytes} {t₀ t₁ t₀' t₁' : UInt8} {o o' : Option UInt8}
    (h : TaggedReference oid prop t₀ t₁ o payload) (h' : TaggedReference oid' prop' t₀' t₁' o' payload) :
    t₁ = t₁' ∧ o = o' := by
  obtain ⟨-, he₀, -, -, he₁, hi⟩ := h
  rename_i e₀ e₁ e₂
  generalize hd : e₀ ++ (e₁ ++ e₂) = payload at h'
  obtain ⟨-, he₀', -, -, he₁', hi'⟩ := h'
  obtain ⟨-, -, -, hd₁⟩ := he₀.unique he₀' hd
  obtain ⟨hproperty, -, -, rfl⟩ := he₁.unique he₁' hd₁
  -- the tags are the same whatever follows the reference
  exact ⟨hproperty, (hi.unique hi' (@rfl _ (_ ++ [openingTag]))).1⟩

/-- A reference is one of the grammar or has a mark, never both. -/
theorem Reference.primitive_iff {oid prop payload : Bytes} (h : Reference oid prop payload) :
    PrimitiveReference oid prop payload ↔ ¬ MarkedReference payload := by
  constructor
  · rintro ⟨t₀, t₁, o, htagged, -, hprimitive⟩ ⟨oid', prop', t₀', t₁', o', htagged', hmark⟩
    obtain ⟨rfl, rfl⟩ := htagged.unique htagged'
    exact hmark hprimitive
  · intro hmark
    obtain ⟨t₀, t₁, o, htagged⟩ := h.exists_tagged
    have hprimitive := by_contra fun hnot => hmark ⟨_, _, _, _, _, htagged, hnot⟩
    refine ⟨t₀, t₁, o, htagged, ?_, hprimitive⟩
    -- the four octets of the object identifier leave no room for a mark
    obtain ⟨-, he₀, hoid, -⟩ := htagged
    exact he₀.isPrimitive (by omega)

/-! ## The parser and the grammar -/

/-- The payload parses to the fields of its reference when it is in the grammar, and to `None` when it is
not. -/
structure ParsesReference (payload : Bytes) : Prop where
  eq_some_iff : ∀ objectType inst prop, parsePropertyReference payload = .ok (some (objectType, inst, prop)) ↔
    ∃ oid p, PrimitiveReference oid p payload ∧ objectTypeOf oid = objectType ∧ instanceOf oid = inst ∧
      ByteOrder.big.decode p = prop
  eq_none : (¬ ∃ oid p, PrimitiveReference oid p payload) → parsePropertyReference payload = .ok none

theorem ParsesReference.not_error {payload : Bytes} (h : ParsesReference payload) {e : PyError} :
    parsePropertyReference payload ≠ .error e := by
  intro herr
  by_cases hp : ∃ oid p, PrimitiveReference oid p payload
  · obtain ⟨oid, p, hp⟩ := hp
    have hsome := (h.eq_some_iff _ _ _).2 ⟨oid, p, hp, rfl, rfl, rfl⟩
    rw [herr] at hsome
    cases hsome
  · have hnone := h.eq_none hp
    rw [herr] at hnone
    cases hnone

theorem ParsesReference.not_breaksOff {payload : Bytes} (h : ParsesReference payload) :
    ¬ BreaksOff referenceSpecs payload := by
  intro hbreaks
  obtain ⟨e, herr⟩ := parsePropertyReference_error_iff.2 hbreaks
  exact h.not_error herr

/-- The parser accepts a reference whatever its tags, so a marked one is taken for one of the grammar. -/
theorem ParsesReference.not_marked {payload : Bytes} (h : ParsesReference payload) : ¬ MarkedReference payload := by
  intro hmark
  obtain ⟨oid, prop, t₀, t₁, o, htagged, -⟩ := id hmark
  have hsome := parsePropertyReference_eq_some.2 ⟨oid, prop, htagged.reference, rfl, rfl, rfl⟩
  obtain ⟨oid', p', hp, -⟩ := (h.eq_some_iff _ _ _).1 hsome
  obtain ⟨t₀', t₁', o', htagged', -⟩ := id hp
  exact htagged'.reference.primitive_iff.1 hp hmark

/-- The parser keeps to the grammar exactly on the payloads that do not break off in a tag, and are no
reference with a mark in a tag. -/
theorem parsesReference_iff (payload : Bytes) :
    ParsesReference payload ↔ ¬ BreaksOff referenceSpecs payload ∧ ¬ MarkedReference payload := by
  constructor
  · intro h
    exact ⟨h.not_breaksOff, h.not_marked⟩
  · rintro ⟨hbreaks, hmark⟩
    have hiff : ∀ oid p, PrimitiveReference oid p payload ↔ Reference oid p payload := by
      intro oid p
      constructor
      · rintro ⟨t₀, t₁, o, htagged, -⟩
        exact htagged.reference
      · intro href
        exact href.primitive_iff.2 hmark
    refine ⟨fun objectType inst prop => ?_, fun hnot => ?_⟩
    · simp only [hiff]
      exact parsePropertyReference_eq_some
    · rcases hparse : parsePropertyReference payload with e | _ | ⟨objectType, inst, prop⟩
      · exact absurd (parsePropertyReference_error_iff.1 ⟨e, hparse⟩) hbreaks
      · rfl
      · obtain ⟨oid, p, href, -⟩ := parsePropertyReference_eq_some.1 hparse
        exact absurd ⟨oid, p, (hiff oid p).2 href⟩ hnot

/-- The opening tag 1E and six octets pass for the identifier of the present value; a lone tag octet 0D raises. -/
theorem not_parsesReference_openingTag :
    ¬ ParsesReference [0x0C, 0x00, 0x80, 0x00, 0x01, 0x1E, 0x00, 0x00, 0x00, 0x00, 0x00, 0x55] ∧
      ¬ ParsesReference [0x0D] := by
  constructor
  · intro h
    have he₀ : Element 0x0C [0x00, 0x80, 0x00, 0x01] [0x0C, 0x00, 0x80, 0x00, 0x01] := .inline (by simp) rfl
    have he₁ : Element 0x1E [0x00, 0x00, 0x00, 0x00, 0x00, 0x55] [0x1E, 0x00, 0x00, 0x00, 0x00, 0x00, 0x55] :=
      .inline (by simp) rfl
    exact h.not_marked
      ⟨_, _, 0x0C, 0x1E, none, .mk rfl he₀ rfl rfl he₁ .absent, fun h => absurd h.1 (by decide)⟩
  · intro h
    exact h.not_error (e := .indexError) rfl

end Cursus.Bacnet
