/-
One property and the other fields of its object. `_read_device_property` and
`_read_analog_value_property` of `cursus/bacnet/server.py` encode every property before they pick the
one that was asked for, and an encoder that raises ends the handler: one field that cannot be encoded
silences all properties of its object.
-/
import Cursus.Bacnet.Reading

namespace Cursus.Bacnet

open Cursus.Python

/-! ## Two servers with the same field -/

/-- The reply is the ComplexACK that carries the encoding of the field. -/
def AcksField (objectType inst propertyIdentifier : ℕ) (invokeId : UInt8) (field : PropertyField) (reply : Bytes) :
    Prop :=
  ∃ enc, field.encode = .ok enc ∧ AcksValue objectType inst propertyIdentifier invokeId enc reply

/-- Both servers answer the datagram with the ComplexACK that carries the encoding of the field. -/
def SameAck (s s' : BacnetServer) (objectType inst propertyIdentifier : ℕ) (invokeId : UInt8) (field : PropertyField)
    (d : Bytes) : Prop :=
  ∃ reply, AcksField objectType inst propertyIdentifier invokeId field reply ∧ s.sends d = some reply ∧
    s'.sends d = some reply

section Tables

variable {s s' : BacnetServer} {objectType inst propertyIdentifier : ℕ} {invokeId : UInt8} {d : Bytes}
  {fields fields' : List (ℕ × PropertyField)} {field : PropertyField}

/-- A field is acknowledged when its whole table can be encoded, and nothing is sent otherwise. -/
theorem sends_field_cases (hasks : AsksProperty objectType inst propertyIdentifier invokeId d)
    (hread : readProperty s objectType inst propertyIdentifier = readField fields propertyIdentifier)
    (hfield : fields.lookup propertyIdentifier = some field) :
    (AllEncode fields ∧ ∃ reply, AcksField objectType inst propertyIdentifier invokeId field reply ∧
      s.sends d = some reply) ∨
    (¬ AllEncode fields ∧ s.sends d = none) := by
  by_cases hall : AllEncode fields
  · obtain ⟨enc, henc, hok⟩ := readField_of_lookup hfield hall
    obtain ⟨reply, hreply, hacks⟩ := (sends_eq_some_iff hasks s enc).2 (hread.trans hok)
    exact .inl ⟨hall, reply, ⟨enc, henc, hacks⟩, hreply⟩
  · rcases sends_cases hasks s with ⟨v, -, hv, -, -⟩ | ⟨-, hnone⟩
    · exact absurd (readField_ok_iff.1 ⟨_, hread.symm.trans hv⟩) hall
    · exact .inr ⟨hall, hnone⟩

/-- One field is acknowledged with one reply. -/
theorem AcksField.unique {reply reply' : Bytes}
    (h : AcksField objectType inst propertyIdentifier invokeId field reply)
    (h' : AcksField objectType inst propertyIdentifier invokeId field reply') : reply = reply' := by
  obtain ⟨enc, henc, hacks⟩ := h
  obtain ⟨enc', henc', hacks'⟩ := h'
  cases henc.symm.trans henc'
  exact hacks.reply_unique hacks'

theorem sends_field_iff (hasks : AsksProperty objectType inst propertyIdentifier invokeId d)
    (hread : readProperty s objectType inst propertyIdentifier = readField fields propertyIdentifier)
    (hfield : fields.lookup propertyIdentifier = some field) (reply : Bytes) :
    s.sends d = some reply ↔
      AllEncode fields ∧ AcksField objectType inst propertyIdentifier invokeId field reply := by
  rcases sends_field_cases hasks hread hfield with ⟨hall, reply', hacks, hsends⟩ | ⟨hall, hsends⟩
  · rw [hsends]
    constructor
    · intro h
      cases h
      exact ⟨hall, hacks⟩
    · rintro ⟨-, h⟩
      rw [hacks.unique h]
  · rw [hsends]
    exact iff_of_false nofun fun h => hall h.1

variable (hasks : AsksProperty objectType inst propertyIdentifier invokeId d)
  (hread : readProperty s objectType inst propertyIdentifier = readField fields propertyIdentifier)
  (hread' : readProperty s' objectType inst propertyIdentifier = readField fields' propertyIdentifier)
  (hfield : fields.lookup propertyIdentifier = some field)
  (hfield' : fields'.lookup propertyIdentifier = some field)

include hasks hread hread' hfield hfield'

theorem sameAck_iff :
    SameAck s s' objectType inst propertyIdentifier invokeId field d ↔ AllEncode fields ∧ AllEncode fields' := by
  unfold SameAck
  simp only [sends_field_iff hasks hread hfield, sends_field_iff hasks hread' hfield']
  constructor
  · rintro ⟨reply, -, ⟨hall, -⟩, hall', -⟩
    exact ⟨hall, hall'⟩
  · rintro ⟨hall, hall'⟩
    obtain ⟨-, reply, hacks, -⟩ | ⟨hn, -⟩ := sends_field_cases hasks hread hfield
    · exact ⟨reply, hacks, ⟨hall, hacks⟩, hall', hacks⟩
    · exact absurd hall hn

theorem sends_eq_iff : s.sends d = s'.sends d ↔ (AllEncode fields ↔ AllEncode fields') := by
  constructor
  · intro h
    rcases sends_field_cases hasks hread hfield with ⟨hall, reply, -, hsends⟩ | ⟨hall, hsends⟩
    · exact iff_of_true hall ((sends_field_iff hasks hread' hfield' reply).1 (h.symm.trans hsends)).1
    · apply iff_of_false hall
      intro hall'
      obtain ⟨-, reply, -, hsends'⟩ | ⟨hn, -⟩ := sends_field_cases hasks hread' hfield'
      · rw [← h, hsends] at hsends'
        cases hsends'
      · exact hn hall'
  · intro h
    apply Option.ext
    intro reply
    rw [sends_field_iff hasks hread hfield, sends_field_iff hasks hread' hfield', h]

end Tables

/-! ## Device and analog values -/

/-- The fields behind the name, the description and the units are no matter of the present value. -/
theorem BacnetAnalogValue.lookup_fields (analogValue : BacnetAnalogValue) (value : PyFloat) {propertyIdentifier : ℕ}
    (h : propertyIdentifier ∈ [propertyObjectName, propertyDescription, propertyUnits]) :
    ∃ field, analogValue.fields.lookup propertyIdentifier = some field ∧
      (BacnetAnalogValue.fields { analogValue with presentValue := value }).lookup propertyIdentifier =
        some field := by
  fin_cases h
  · exact ⟨_, rfl, rfl⟩
  · exact ⟨_, rfl, rfl⟩
  · exact ⟨_, rfl, rfl⟩

theorem sends_presentValue_iff {s s' : BacnetServer} {n propertyIdentifier : ℕ} {analogValue : BacnetAnalogValue}
    {value : PyFloat} {invokeId : UInt8} {d : Bytes}
    (hp : propertyIdentifier ∈ [propertyObjectName, propertyDescription, propertyUnits])
    (hav : s.analogValues.lookup (n : ℤ) = some analogValue)
    (hav' : s'.analogValues.lookup (n : ℤ) = some { analogValue with presentValue := value })
    (hasks : AsksProperty objectTypeAnalogValue n propertyIdentifier invokeId d) :
    s.sends d = s'.sends d ↔
      ((∃ bs, packFloat analogValue.presentValue = .ok bs) ↔ ∃ bs, packFloat value = .ok bs) ∨
        ¬ analogValue.Encodes := by
  obtain ⟨field, hfield, hfield'⟩ := analogValue.lookup_fields value hp
  have hread := (readProperty_analogValue s n propertyIdentifier).trans (readAnalogValueProperty_some hav _)
  have hread' := (readProperty_analogValue s' n propertyIdentifier).trans (readAnalogValueProperty_some hav' _)
  have hencodes : BacnetAnalogValue.Encodes { analogValue with presentValue := value } ↔ analogValue.Encodes :=
    ⟨fun h => h.withPresentValue analogValue.presentValue, fun h => h.withPresentValue value⟩
  rw [sends_eq_iff hasks hread hread' hfield hfield', BacnetAnalogValue.allEncode_iff,
    BacnetAnalogValue.allEncode_iff, hencodes, and_congr_right_iff, imp_iff_or_not]

theorem sameAck_device_iff {s s' : BacnetServer} {n propertyIdentifier : ℕ} {field : PropertyField}
    {invokeId : UInt8} {d : Bytes} (hn : (n : ℤ) = s.device.inst) (hinst : s'.device.inst = s.device.inst)
    (hfield : s.device.fields.lookup propertyIdentifier = some field)
    (hfield' : s'.device.fields.lookup propertyIdentifier = some field)
    (hasks : AsksProperty objectTypeDevice n propertyIdentifier invokeId d) :
    SameAck s s' objectTypeDevice n propertyIdentifier invokeId field d ↔
      s.device.Encodes ∧ s'.device.Encodes := by
  have hread : ∀ {server : BacnetServer}, (n : ℤ) = server.device.inst →
      readProperty server objectTypeDevice n propertyIdentifier = readField server.device.fields propertyIdentifier :=
    fun h => by rw [readProperty, if_pos ⟨rfl, h⟩, readDeviceProperty_eq]
  rw [sameAck_iff hasks (hread hn) (hread (hn.trans hinst.symm)) hfield hfield', BacnetDevice.allEncode_iff,
    BacnetDevice.allEncode_iff]

/-- Two devices with the same instance and the same field behind a property acknowledge it alike exactly
when every field of both can be encoded. Two analog values that differ in their present values give the
same answers to the other fields exactly when both present values can be packed or neither can, or when
another field silences both. -/
theorem reads_alike_iff (s s' : BacnetServer) (n propertyIdentifier : ℕ) (invokeId : UInt8) (d : Bytes) :
    (∀ field : PropertyField, (n : ℤ) = s.device.inst → s'.device.inst = s.device.inst →
      s.device.fields.lookup propertyIdentifier = some field →
      s'.device.fields.lookup propertyIdentifier = some field →
      AsksProperty objectTypeDevice n propertyIdentifier invokeId d →
      (SameAck s s' objectTypeDevice n propertyIdentifier invokeId field d ↔
        s.device.Encodes ∧ s'.device.Encodes)) ∧
    ∀ (analogValue : BacnetAnalogValue) (value : PyFloat),
      propertyIdentifier ∈ [propertyObjectName, propertyDescription, propertyUnits] →
      s.analogValues.lookup (n : ℤ) = some analogValue →
      s'.analogValues.lookup (n : ℤ) = some { analogValue with presentValue := value } →
      AsksProperty objectTypeAnalogValue n propertyIdentifier invokeId d →
      (s.sends d = s'.sends d ↔
        ((∃ bs, packFloat analogValue.presentValue = .ok bs) ↔ ∃ bs, packFloat value = .ok bs) ∨
          ¬ analogValue.Encodes) := by
  constructor
  · intro field hn hinst hfield hfield' hasks
    exact sameAck_device_iff hn hinst hfield hfield' hasks
  · intro analogValue value hp hav hav' hasks
    exact sends_presentValue_iff hp hav hav' hasks

/-- A ReadProperty of the name of the default device. -/
def nameRequest : Bytes := bareDatagram [0x00, 0x05, 0x01, 0x0C, 0x0C, 0x02, 0x00, 0x04, 0xD2, 0x19, 0x4D]

theorem asksProperty_nameRequest : AsksProperty objectTypeDevice 1234 propertyObjectName 1 nameRequest :=
  .mk (requests_bareDatagram (.readProperty rfl) (by decide)) (by decide)

/-- Another vendor name does not change the answer. -/
theorem reads_alike_vendorName :
    SameAck (.init {}) (.init { device := { vendorName := "Vendor" } }) objectTypeDevice 1234 propertyObjectName 1
      (.characterString "Cursus BACnet Device") nameRequest :=
  ((reads_alike_iff _ _ _ _ _ _).1 _ rfl rfl rfl rfl asksProperty_nameRequest).2
    ⟨by constructor <;> decide, by constructor <;> decide⟩

/-- A description with an umlaut silences the name of the device. -/
theorem not_reads_alike_description :
    (∃ enc, (PropertyField.characterString "Cursus BACnet Device").encode = .ok enc) ∧
    (BacnetServer.init {}).device.fields.lookup propertyObjectName = some (.characterString "Cursus BACnet Device") ∧
    (BacnetServer.init { device := { description := "Gerät" } }).device.fields.lookup propertyObjectName =
      some (.characterString "Cursus BACnet Device") ∧
    AsksProperty objectTypeDevice 1234 propertyObjectName 1 nameRequest ∧
    ¬ SameAck (.init {}) (.init { device := { description := "Gerät" } }) objectTypeDevice 1234 propertyObjectName 1
      (.characterString "Cursus BACnet Device") nameRequest := by
  refine ⟨(encodeApplicationCharacterString_ok_iff _).2 ?_, rfl, rfl, asksProperty_nameRequest, fun h => ?_⟩
  · decide
  · obtain ⟨-, hencodes⟩ := (sameAck_device_iff (by rfl) (by rfl) (by rfl) (by rfl) asksProperty_nameRequest).1 h
    exact absurd hencodes.description (by decide)

end Cursus.Bacnet
