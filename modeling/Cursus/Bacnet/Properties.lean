/-
When the property tables and the I-Am of `cursus/bacnet/server.py` can be encoded. Every property of
an object is encoded before one is picked, so one field that cannot be encoded makes every property
of its object unreadable.
-/
import Cursus.Bacnet.Encode
import Cursus.Bacnet.Server

namespace Cursus.Bacnet

open Cursus.Python

/-! ## Fields that can be encoded -/

/-- A string that can be encoded. -/
def IsText (text : String) : Prop := IsAscii text ∧ text.length ≤ 254

instance (text : String) : Decidable (IsText text) := inferInstanceAs (Decidable (_ ∧ _))

/-- An integer that can be encoded as an unsigned or enumerated value. -/
def IsUnsigned (value : ℤ) : Prop := 0 ≤ value ∧ value < 256 ^ 255

instance (value : ℤ) : Decidable (IsUnsigned value) := inferInstanceAs (Decidable (_ ∧ _))

/-- An integer that can be packed into an object identifier. -/
def IsInstance (inst : ℤ) : Prop := 0 ≤ inst ∧ inst < 2 ^ 32

instance (inst : ℤ) : Decidable (IsInstance inst) := inferInstanceAs (Decidable (_ ∧ _))

/-- All fields of the device can be encoded. -/
structure BacnetDevice.Encodes (device : BacnetDevice) : Prop where
  inst : IsInstance device.inst
  objectName : IsText device.objectName
  description : IsText device.description
  vendorName : IsText device.vendorName
  vendorIdentifier : IsUnsigned device.vendorIdentifier
  modelName : IsText device.modelName
  maxApduLengthAccepted : IsUnsigned device.maxApduLengthAccepted
  segmentationSupported : IsUnsigned device.segmentationSupported
  protocolVersion : IsUnsigned device.protocolVersion
  protocolRevision : IsUnsigned device.protocolRevision

/-- All fields of the analog value but the present value can be encoded. -/
structure BacnetAnalogValue.Encodes (analogValue : BacnetAnalogValue) : Prop where
  inst : IsInstance analogValue.inst
  objectName : IsText analogValue.objectName
  description : IsText analogValue.description
  units : IsUnsigned analogValue.units

/-- Nothing is said of the present value. -/
theorem BacnetAnalogValue.Encodes.withPresentValue {analogValue : BacnetAnalogValue} (h : analogValue.Encodes)
    (value : PyFloat) : BacnetAnalogValue.Encodes { analogValue with presentValue := value } :=
  ⟨h.inst, h.objectName, h.description, h.units⟩

/-! ## Single values -/

theorem encodeApplicationUnsigned_ok_iff (value : ℤ) :
    (∃ enc, encodeApplicationUnsigned value = .ok enc) ↔ IsUnsigned value := by
  rw [encodeApplicationUnsigned_eq_encodeTagged]
  exact encodeTagged_unsigned_ok_iff (by simp) false value

theorem encodeApplicationEnumerated_ok_iff (value : ℤ) :
    (∃ enc, encodeApplicationEnumerated value = .ok enc) ↔ IsUnsigned value := by
  rw [encodeApplicationEnumerated_eq_encodeTagged]
  exact encodeTagged_unsigned_ok_iff (by simp) false value

theorem encodeApplicationObjectIdentifier_ok_iff {objectType : ℕ} (ht : objectType < 1024) (inst : ℤ) :
    (∃ enc, encodeApplicationObjectIdentifier objectType inst = .ok enc) ↔ IsInstance inst := by
  rw [encodeApplicationObjectIdentifier_eq_encodeTagged, structPack_objectIdentifier ht]
  by_cases h : 0 ≤ inst ∧ inst < 2 ^ 32
  · rw [if_pos h]
    exact iff_of_true (encodeTagged_ok (show 12 < 16 by simp) false (by rw [ByteOrder.length_encode]; decide)) h
  · rw [if_neg h]
    refine iff_of_false ?_ h
    rintro ⟨enc, he⟩
    cases he

theorem encodeApplicationReal_eq_encodeTagged (value : PyFloat) :
    encodeApplicationReal value = encodeTagged applicationTagReal false (packFloat value) := by
  unfold encodeApplicationReal encodeTagged
  rcases h : packFloat value with e | bs
  · rfl
  · rw [ok_bind, length_of_packFloat h]
    rfl

theorem encodeApplicationReal_of_packFloat {value : PyFloat} {bs : Bytes} (h : packFloat value = .ok bs) :
    encodeApplicationReal value = .ok (0x44 :: bs) := by
  unfold encodeApplicationReal
  rw [h]
  rfl

theorem encodeApplicationReal_eq_ok {value : PyFloat} {enc : Bytes} (h : encodeApplicationReal value = .ok enc) :
    ∃ bs, packFloat value = .ok bs ∧ enc = 0x44 :: bs := by
  rcases hp : packFloat value with e | bs
  · unfold encodeApplicationReal at h
    rw [hp] at h
    cases h
  · rw [encodeApplicationReal_of_packFloat hp] at h
    cases h
    exact ⟨bs, rfl, rfl⟩

theorem encodeApplicationReal_ok_iff (value : PyFloat) :
    (∃ enc, encodeApplicationReal value = .ok enc) ↔ ∃ bs, packFloat value = .ok bs :=
  ⟨fun ⟨_, h⟩ => let ⟨bs, hp, _⟩ := encodeApplicationReal_eq_ok h; ⟨bs, hp⟩,
    fun ⟨_, h⟩ => ⟨_, encodeApplicationReal_of_packFloat h⟩⟩

/-! ## Tables -/

/-- The value behind a property, by the application tag it is encoded with. -/
inductive PropertyField
  | objectIdentifier (objectType : ℕ) (inst : ℤ)
  | characterString (value : String)
  | enumerated (value : ℤ)
  | unsigned (value : ℤ)
  | real (value : PyFloat)
  | bitString (value : Bytes)

/-- The encoding of a field. -/
def PropertyField.encode : PropertyField → Except PyError Bytes
  | .objectIdentifier objectType inst => encodeApplicationObjectIdentifier objectType inst
  | .characterString value => encodeApplicationCharacterString value
  | .enumerated value => encodeApplicationEnumerated value
  | .unsigned value => encodeApplicationUnsigned value
  | .real value => encodeApplicationReal value
  | .bitString value => encodeApplicationBitString value

/-- The encodings of all fields of a table, in its order. -/
def encodeFields : List (ℕ × PropertyField) → Except PyError (List (ℕ × Bytes))
  | [] => .ok []
  | (propertyIdentifier, field) :: fields => do
    let enc ← field.encode
    return (propertyIdentifier, enc) :: (← encodeFields fields)

/-- Encode all fields of a table and pick one. -/
def readField (fields : List (ℕ × PropertyField)) (propertyIdentifier : ℕ) : Except PyError (Option Bytes) := do
  let properties ← encodeFields fields
  return properties.lookup propertyIdentifier

/-- Every field of the table can be encoded. -/
def AllEncode (fields : List (ℕ × PropertyField)) : Prop := ∀ f ∈ fields, ∃ enc, f.2.encode = .ok enc

theorem encodeFields_ok_iff : ∀ fields : List (ℕ × PropertyField),
    (∃ properties, encodeFields fields = .ok properties) ↔ AllEncode fields
  | [] => by simp [encodeFields, AllEncode]
  | (p, field) :: fields => by
    have hcons : (∃ properties, encodeFields ((p, field) :: fields) = .ok properties) ↔
        (∃ enc, field.encode = .ok enc) ∧ ∃ properties, encodeFields fields = .ok properties := by
      simp only [encodeFields, bind_ok_iff, pure_eq_ok, Except.ok.injEq, exists_eq', and_true, exists_and_right]
    rw [hcons, encodeFields_ok_iff fields]
    simp only [AllEncode, List.forall_mem_cons]

/-- Behind a property identifier of the encoded table is the encoding of its field. -/
theorem lookup_encodeFields (propertyIdentifier : ℕ) :
    ∀ {fields : List (ℕ × PropertyField)} {properties : List (ℕ × Bytes)}, encodeFields fields = .ok properties →
      (fields.lookup propertyIdentifier = none ∧ properties.lookup propertyIdentifier = none) ∨
      ∃ field enc, fields.lookup propertyIdentifier = some field ∧ field.encode = .ok enc ∧
        properties.lookup propertyIdentifier = some enc
  | [], properties, h => by
    cases h
    exact .inl ⟨rfl, rfl⟩
  | (p, field) :: fields, properties, h => by
    obtain ⟨enc, henc, h⟩ := bind_eq_ok h
    obtain ⟨rest, hrest, h⟩ := bind_eq_ok h
    cases h
    by_cases hp : propertyIdentifier = p
    · subst hp
      exact .inr ⟨field, enc, List.lookup_cons_self, henc, List.lookup_cons_self⟩
    · have hne : (propertyIdentifier == p) = false := by simpa using hp
      simp only [List.lookup_cons, hne]
      exact lookup_encodeFields propertyIdentifier hrest

section ReadField

variable {fields : List (ℕ × PropertyField)} {propertyIdentifier : ℕ}

theorem readField_ok_iff :
    (∃ r, readField fields propertyIdentifier = .ok r) ↔ AllEncode fields := by
  rw [← encodeFields_ok_iff]
  simp only [readField, bind_ok_iff, pure_eq_ok, Except.ok.injEq, exists_eq', and_true]

/-- What is read from a table is the encoding of the field that is asked for. -/
theorem readField_eq_some {v : Bytes} (h : readField fields propertyIdentifier = .ok (some v)) :
    ∃ field, fields.lookup propertyIdentifier = some field ∧ field.encode = .ok v := by
  obtain ⟨properties, hproperties, h⟩ := bind_eq_ok h
  have hlookup : properties.lookup propertyIdentifier = some v := Except.ok.inj h
  rcases lookup_encodeFields propertyIdentifier hproperties with ⟨-, hnone⟩ | ⟨field, enc, hfield, henc, hsome⟩
  · rw [hnone] at hlookup
    cases hlookup
  · rw [hsome] at hlookup
    cases hlookup
    exact ⟨field, hfield, henc⟩

/-- The field that is asked for is read when every field of its table can be encoded. -/
theorem readField_of_lookup {field : PropertyField} (hfield : fields.lookup propertyIdentifier = some field)
    (h : AllEncode fields) :
    ∃ enc, field.encode = .ok enc ∧ readField fields propertyIdentifier = .ok (some enc) := by
  obtain ⟨properties, hproperties⟩ := (encodeFields_ok_iff fields).2 h
  rcases lookup_encodeFields propertyIdentifier hproperties with ⟨hnone, -⟩ | ⟨field', enc, hfield', henc, hsome⟩
  · rw [hnone] at hfield
    cases hfield
  · rw [hfield'] at hfield
    cases hfield
    refine ⟨enc, henc, ?_⟩
    rw [readField, hproperties, ok_bind, pure_eq_ok, hsome]

end ReadField

/-! ## What is read is one element -/

theorem applicationElement_encode {field : PropertyField} {enc : Bytes} (h : field.encode = .ok enc) :
    ApplicationElement enc := by
  cases field with
  | objectIdentifier objectType inst => exact applicationElement_objectIdentifier h
  | characterString value => exact applicationElement_characterString h
  | enumerated value => exact applicationElement_enumerated h
  | unsigned value => exact applicationElement_unsigned h
  | real value =>
    rw [PropertyField.encode, encodeApplicationReal_eq_encodeTagged] at h
    exact applicationElement_of_encodeTagged (by simp) h
  | bitString value =>
    have hv : encodeTagged applicationTagBitString false (.ok (0x00 :: value)) = .ok enc := h
    exact applicationElement_of_encodeTagged (by simp) hv

theorem applicationElement_readField {fields : List (ℕ × PropertyField)} {propertyIdentifier : ℕ} {v : Bytes}
    (h : readField fields propertyIdentifier = .ok (some v)) : ApplicationElement v := by
  obtain ⟨field, -, henc⟩ := readField_eq_some h
  exact applicationElement_encode henc

/-! ## The device -/

/-- The fields behind the properties of the device. -/
def BacnetDevice.fields (device : BacnetDevice) : List (ℕ × PropertyField) :=
  [(propertyObjectIdentifier, .objectIdentifier objectTypeDevice device.inst),
    (propertyObjectName, .characterString device.objectName),
    (propertyObjectType, .enumerated objectTypeDevice),
    (propertyDescription, .characterString device.description),
    (propertyVendorName, .characterString device.vendorName),
    (propertyVendorIdentifier, .unsigned device.vendorIdentifier),
    (propertyModelName, .characterString device.modelName),
    (propertyMaxApduLengthAccepted, .unsigned device.maxApduLengthAccepted),
    (propertySegmentationSupported, .enumerated device.segmentationSupported),
    (propertyProtocolVersion, .unsigned device.protocolVersion),
    (propertyProtocolRevision, .unsigned device.protocolRevision),
    (propertyObjectList, .objectIdentifier objectTypeDevice device.inst)]

theorem readDeviceProperty_eq (device : BacnetDevice) (propertyIdentifier : ℕ) :
    readDeviceProperty device propertyIdentifier = readField device.fields propertyIdentifier := by
  simp only [readDeviceProperty, readField, BacnetDevice.fields, encodeFields, PropertyField.encode, bind_assoc,
    pure_eq_ok, ok_bind]

theorem BacnetDevice.allEncode_iff (device : BacnetDevice) : AllEncode device.fields ↔ device.Encodes := by
  have hobject : IsUnsigned (objectTypeDevice : ℤ) := by constructor <;> norm_num
  simp only [AllEncode, BacnetDevice.fields, List.forall_mem_cons, PropertyField.encode, List.not_mem_nil, false_implies,
    implies_true, and_true, encodeApplicationObjectIdentifier_ok_iff (show objectTypeDevice < 1024 by simp),
    encodeApplicationCharacterString_ok_iff, encodeApplicationUnsigned_ok_iff, encodeApplicationEnumerated_ok_iff]
  constructor
  · rintro ⟨h1, h2, -, h3, h4, h5, h6, h7, h8, h9, h10, -⟩
    exact ⟨h1, h2, h3, h4, h5, h6, h7, h8, h9, h10⟩
  · rintro ⟨h1, h2, h3, h4, h5, h6, h7, h8, h9, h10⟩
    exact ⟨h1, h2, hobject, h3, h4, h5, h6, h7, h8, h9, h10, h1⟩

theorem readDeviceProperty_ok_iff (device : BacnetDevice) (propertyIdentifier : ℕ) :
    (∃ r, readDeviceProperty device propertyIdentifier = .ok r) ↔ device.Encodes := by
  rw [readDeviceProperty_eq, readField_ok_iff, device.allEncode_iff]

theorem applicationElement_readDeviceProperty {device : BacnetDevice} {propertyIdentifier : ℕ} {v : Bytes}
    (h : readDeviceProperty device propertyIdentifier = .ok (some v)) : ApplicationElement v := by
  rw [readDeviceProperty_eq] at h
  exact applicationElement_readField h

/-! ## Analog values -/

/-- The fields behind the properties of an analog value. -/
def BacnetAnalogValue.fields (analogValue : BacnetAnalogValue) : List (ℕ × PropertyField) :=
  [(propertyObjectIdentifier, .objectIdentifier objectTypeAnalogValue analogValue.inst),
    (propertyObjectName, .characterString analogValue.objectName),
    (propertyObjectType, .enumerated objectTypeAnalogValue),
    (propertyDescription, .characterString analogValue.description),
    (propertyPresentValue, .real analogValue.presentValue),
    (propertyUnits, .enumerated analogValue.units),
    (propertyStatusFlags, .bitString [0x00])]

theorem BacnetAnalogValue.allEncode_iff (analogValue : BacnetAnalogValue) :
    AllEncode analogValue.fields ↔
      analogValue.Encodes ∧ ∃ bs, packFloat analogValue.presentValue = .ok bs := by
  have hobject : IsUnsigned (objectTypeAnalogValue : ℤ) := by constructor <;> norm_num
  have hstatus : encodeApplicationBitString [0x00] = .ok [0x82, 0x00, 0x00] := rfl
  simp only [AllEncode, BacnetAnalogValue.fields, List.forall_mem_cons, PropertyField.encode, List.not_mem_nil, false_implies,
    implies_true, and_true, hstatus, Except.ok.injEq, exists_eq', encodeApplicationReal_ok_iff,
    encodeApplicationObjectIdentifier_ok_iff (show objectTypeAnalogValue < 1024 by simp),
    encodeApplicationCharacterString_ok_iff, encodeApplicationEnumerated_ok_iff]
  constructor
  · rintro ⟨h1, h2, -, h3, h4, h5⟩
    exact ⟨⟨h1, h2, h3, h5⟩, h4⟩
  · rintro ⟨⟨h1, h2, h3, h5⟩, h4⟩
    exact ⟨h1, h2, hobject, h3, h4, h5⟩

theorem readAnalogValueProperty_none {s : BacnetServer} {inst : ℕ} (h : s.analogValues.lookup (inst : ℤ) = none)
    (propertyIdentifier : ℕ) : readAnalogValueProperty s inst propertyIdentifier = .ok none := by
  unfold readAnalogValueProperty
  rw [h]
  rfl

section AnalogValue

variable {s : BacnetServer} {inst : ℕ} {analogValue : BacnetAnalogValue}

theorem readAnalogValueProperty_some (h : s.analogValues.lookup (inst : ℤ) = some analogValue)
    (propertyIdentifier : ℕ) :
    readAnalogValueProperty s inst propertyIdentifier = readField analogValue.fields propertyIdentifier := by
  simp only [readAnalogValueProperty, h, readField, BacnetAnalogValue.fields, encodeFields, PropertyField.encode,
    bind_assoc, pure_eq_ok, ok_bind]

theorem readAnalogValueProperty_ok_iff (h : s.analogValues.lookup (inst : ℤ) = some analogValue)
    (propertyIdentifier : ℕ) :
    (∃ r, readAnalogValueProperty s inst propertyIdentifier = .ok r) ↔
      analogValue.Encodes ∧ ∃ bs, packFloat analogValue.presentValue = .ok bs := by
  rw [readAnalogValueProperty_some h, readField_ok_iff, analogValue.allEncode_iff]

/-- A present value that is read is the encoding of the one in the store. -/
theorem readAnalogValueProperty_presentValue (h : s.analogValues.lookup (inst : ℤ) = some analogValue)
    {r : Option Bytes} (hr : readAnalogValueProperty s inst propertyPresentValue = .ok r) :
    ∃ bs, packFloat analogValue.presentValue = .ok bs ∧ r = some (0x44 :: bs) := by
  rw [readAnalogValueProperty_some h] at hr
  have hfield : analogValue.fields.lookup propertyPresentValue = some (.real analogValue.presentValue) := rfl
  obtain ⟨enc, henc, hread⟩ := readField_of_lookup hfield (readField_ok_iff.1 ⟨r, hr⟩)
  obtain ⟨bs, hbs, rfl⟩ := encodeApplicationReal_eq_ok henc
  rw [hread] at hr
  cases hr
  exact ⟨bs, hbs, rfl⟩

end AnalogValue

theorem applicationElement_readAnalogValueProperty {s : BacnetServer} {inst propertyIdentifier : ℕ} {v : Bytes}
    (h : readAnalogValueProperty s inst propertyIdentifier = .ok (some v)) : ApplicationElement v := by
  cases hav : s.analogValues.lookup (inst : ℤ) with
  | none =>
    rw [readAnalogValueProperty_none hav] at h
    cases h
  | some analogValue =>
    rw [readAnalogValueProperty_some hav] at h
    exact applicationElement_readField h

/-! ## I-Am -/

/-- The fields of the device that an I-Am announces can be encoded. -/
structure BacnetDevice.Announces (device : BacnetDevice) : Prop where
  inst : IsInstance device.inst
  maxApduLengthAccepted : IsUnsigned device.maxApduLengthAccepted
  segmentationSupported : IsUnsigned device.segmentationSupported
  vendorIdentifier : IsUnsigned device.vendorIdentifier

theorem buildIAmApdu_ok_iff (device : BacnetDevice) : (∃ apdu, buildIAmApdu device = .ok apdu) ↔ device.Announces := by
  have hhead : bytesOf [pduTypeUnconfirmedRequest, serviceIAm] = .ok [0x10, 0x00] := rfl
  simp only [buildIAmApdu, bind_ok_iff, pure_eq_ok, Except.ok.injEq, exists_eq', and_true, exists_and_right, hhead,
    encodeApplicationObjectIdentifier_ok_iff (show objectTypeDevice < 1024 by simp),
    encodeApplicationUnsigned_ok_iff, encodeApplicationEnumerated_ok_iff, true_and]
  constructor
  · rintro ⟨h1, h2, h3, h4⟩
    exact ⟨h1, h2, h3, h4⟩
  · rintro ⟨h1, h2, h3, h4⟩
    exact ⟨h1, h2, h3, h4⟩

/-- The APDU of an I-Am: instance, APDU length, segmentation and vendor. -/
inductive IAm : Bytes → Prop
  | mk {oid maxApdu segmentation vendor : Bytes} : ApplicationElement oid → ApplicationElement maxApdu →
      ApplicationElement segmentation → ApplicationElement vendor →
      IAm (0x10 :: 0x00 :: (oid ++ (maxApdu ++ (segmentation ++ vendor))))

theorem IAm.length_lt {apdu : Bytes} (h : IAm apdu) : apdu.length < 65530 := by
  obtain ⟨h1, h2, h3, h4⟩ := h
  have l1 := h1.length_le
  have l2 := h2.length_le
  have l3 := h3.length_le
  have l4 := h4.length_le
  simp only [List.length_append, List.length_cons]
  omega

theorem iAm_of_buildIAmApdu {device : BacnetDevice} {apdu : Bytes} (h : buildIAmApdu device = .ok apdu) :
    IAm apdu := by
  obtain ⟨v0, h0, h⟩ := bind_eq_ok h
  obtain ⟨v1, h1, h⟩ := bind_eq_ok h
  obtain ⟨v2, h2, h⟩ := bind_eq_ok h
  obtain ⟨v3, h3, h⟩ := bind_eq_ok h
  obtain ⟨v4, h4, h⟩ := bind_eq_ok h
  cases h0
  cases h
  have hmk := IAm.mk (applicationElement_objectIdentifier h1) (applicationElement_unsigned h2)
    (applicationElement_enumerated h3) (applicationElement_unsigned h4)
  simpa using hmk

end Cursus.Bacnet
