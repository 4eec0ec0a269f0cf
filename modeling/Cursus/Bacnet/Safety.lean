/-
When `handle_datagram` of `cursus/bacnet/server.py` raises. `_decode_tag_length` reads the octet behind
a tag that announces an extended length without a check, so a request that breaks off there raises;
otherwise, in a state that can be encoded, only an integer of more than 255 octets does.
-/
import Cursus.Bacnet.Requests

namespace Cursus.Bacnet

open Cursus.Python

/-! ## States that can be encoded -/

/-- Text of at most 254 ASCII characters, integers that are not negative, instances of 22 bits. -/
structure BacnetDevice.Encodable (device : BacnetDevice) : Prop where
  inst : 0 ≤ device.inst ∧ device.inst < 2 ^ 22
  objectName : IsText device.objectName
  description : IsText device.description
  vendorName : IsText device.vendorName
  vendorIdentifier : 0 ≤ device.vendorIdentifier
  modelName : IsText device.modelName
  maxApduLengthAccepted : 0 ≤ device.maxApduLengthAccepted
  segmentationSupported : 0 ≤ device.segmentationSupported
  protocolVersion : 0 ≤ device.protocolVersion
  protocolRevision : 0 ≤ device.protocolRevision

structure BacnetAnalogValue.Encodable (analogValue : BacnetAnalogValue) : Prop where
  inst : 0 ≤ analogValue.inst ∧ analogValue.inst < 2 ^ 22
  objectName : IsText analogValue.objectName
  description : IsText analogValue.description
  presentValue : ∃ bs, packFloat analogValue.presentValue = .ok bs
  units : 0 ≤ analogValue.units

structure BacnetServer.Encodable (s : BacnetServer) : Prop where
  device : s.device.Encodable
  analogValues : ∀ n analogValue, s.analogValues.lookup n = some analogValue → analogValue.Encodable

/-- The default configuration can be encoded. -/
theorem BacnetServer.encodable_init : (BacnetServer.init {}).Encodable where
  device := by constructor <;> decide
  analogValues n analogValue h := by
    have hzero : packFloat ⟨false, 0, 0, by decide, by decide⟩ = .ok [0, 0, 0, 0] := by decide +kernel
    rcases BacnetServerConfig.lookup_default h with ⟨-, rfl⟩ | ⟨-, rfl⟩
    · exact ⟨by decide, by decide, by decide, ⟨_, hzero⟩, by decide⟩
    · exact ⟨by decide, by decide, by decide, ⟨_, hzero⟩, by decide⟩

/-- The integers of the device that are encoded with its properties. -/
def BacnetDevice.integers (device : BacnetDevice) : List ℤ :=
  [device.vendorIdentifier, device.maxApduLengthAccepted, device.segmentationSupported, device.protocolVersion,
    device.protocolRevision]

/-- The integers of the device that an I-Am announces. -/
def BacnetDevice.announced (device : BacnetDevice) : List ℤ :=
  [device.maxApduLengthAccepted, device.segmentationSupported, device.vendorIdentifier]

theorem BacnetDevice.Encodable.encodes_iff {device : BacnetDevice} (h : device.Encodable) :
    device.Encodes ↔ ∀ v ∈ device.integers, v < 256 ^ 255 := by
  have hinst : IsInstance device.inst := ⟨h.inst.1, lt_trans h.inst.2 (by norm_num)⟩
  simp only [integers, List.forall_mem_cons, List.not_mem_nil, false_implies, implies_true, and_true]
  constructor
  · intro he
    exact ⟨he.vendorIdentifier.2, he.maxApduLengthAccepted.2, he.segmentationSupported.2, he.protocolVersion.2,
      he.protocolRevision.2⟩
  · rintro ⟨h1, h2, h3, h4, h5⟩
    exact ⟨hinst, h.objectName, h.description, h.vendorName, ⟨h.vendorIdentifier, h1⟩, h.modelName,
      ⟨h.maxApduLengthAccepted, h2⟩, ⟨h.segmentationSupported, h3⟩, ⟨h.protocolVersion, h4⟩,
      ⟨h.protocolRevision, h5⟩⟩

theorem BacnetDevice.Encodable.announces_iff {device : BacnetDevice} (h : device.Encodable) :
    device.Announces ↔ ∀ v ∈ device.announced, v < 256 ^ 255 := by
  have hinst : IsInstance device.inst := ⟨h.inst.1, lt_trans h.inst.2 (by norm_num)⟩
  simp only [announced, List.forall_mem_cons, List.not_mem_nil, false_implies, implies_true, and_true]
  constructor
  · intro he
    exact ⟨he.maxApduLengthAccepted.2, he.segmentationSupported.2, he.vendorIdentifier.2⟩
  · rintro ⟨h1, h2, h3⟩
    exact ⟨hinst, ⟨h.maxApduLengthAccepted, h1⟩, ⟨h.segmentationSupported, h2⟩, ⟨h.vendorIdentifier, h3⟩⟩

theorem BacnetAnalogValue.Encodable.encodes_iff {analogValue : BacnetAnalogValue} (h : analogValue.Encodable) :
    analogValue.Encodes ↔ analogValue.units < 256 ^ 255 := by
  constructor
  · intro he
    exact he.units.2
  · intro hu
    exact ⟨⟨h.inst.1, lt_trans h.inst.2 (by norm_num)⟩, h.objectName, h.description, ⟨h.units, hu⟩⟩

/-! ## What makes a request raise -/

/-- The parameters of the request break off in a tag header. -/
def Request.Truncated : Request → Prop
  | .whoIs parameters => BreaksOff limitSpecs parameters
  | .readProperty _ parameters => BreaksOff referenceSpecs parameters
  | .writeProperty _ parameters => BreaksOff referenceSpecs parameters

/-- The integers that are encoded to answer the request: those of an I-Am when the device is within
the limits, those of all properties of an object when one of them is read. -/
inductive Request.Encodes (s : BacnetServer) : Request → ℤ → Prop
  | whoIs {parameters : Bytes} {lower upper : Option Bytes} {v : ℤ} : Limits lower upper parameters →
      Admits s.device.inst (lower.map ByteOrder.big.decode) (upper.map ByteOrder.big.decode) →
      v ∈ s.device.announced → Request.Encodes s (.whoIs parameters) v
  | device {invokeId : UInt8} {parameters oid p : Bytes} {v : ℤ} : Reference oid p parameters →
      objectTypeOf oid = objectTypeDevice → (instanceOf oid : ℤ) = s.device.inst → v ∈ s.device.integers →
      Request.Encodes s (.readProperty invokeId parameters) v
  | analogValue {invokeId : UInt8} {parameters oid p : Bytes} {analogValue : BacnetAnalogValue} :
      Reference oid p parameters → objectTypeOf oid = objectTypeAnalogValue →
      s.analogValues.lookup (instanceOf oid : ℤ) = some analogValue →
      Request.Encodes s (.readProperty invokeId parameters) analogValue.units

theorem answerWhoIs_error_iff {s : BacnetServer} (hs : s.Encodable) (parameters : Bytes) :
    (∃ e, answerWhoIs s.device parameters = .error e) ↔
      (Request.whoIs parameters).Truncated ∨ ∃ v, (Request.whoIs parameters).Encodes s v ∧ ¬ v < 256 ^ 255 := by
  by_cases hb : BreaksOff limitSpecs parameters
  · obtain ⟨e, he⟩ := parseWhoIsLimits_error_iff.2 hb
    exact iff_of_true ⟨e, by rw [answerWhoIs, he]⟩ (.inl hb)
  -- otherwise the limits are parsed, and only the I-Am can raise
  have hor : ∀ q : Prop, (Request.whoIs parameters).Truncated ∨ q ↔ q := fun q => or_iff_right hb
  rw [hor]
  obtain ⟨limits, hp⟩ := not_not.1 (mt exists_error_iff.2 (mt parseWhoIsLimits_error_iff.1 hb))
  obtain ⟨lower, upper, hl⟩ := exists_limits parameters
  obtain rfl := parseWhoIsLimits_of_limits hl hp
  by_cases ha : Admits s.device.inst (lower.map ByteOrder.big.decode) (upper.map ByteOrder.big.decode)
  · have hmap : (∃ e, (buildIAmApdu s.device).map some = .error e) ↔ ¬ s.device.Announces := by
      rw [← buildIAmApdu_ok_iff]
      cases buildIAmApdu s.device <;> simp [Except.map]
    rw [(answerWhoIs_of_limits hp).1 ha, hmap, hs.device.announces_iff]
    constructor
    · intro h
      push Not at h
      obtain ⟨v, hv, hlt⟩ := h
      exact ⟨v, .whoIs hl ha hv, not_lt.2 hlt⟩
    · rintro ⟨v, ⟨-, -, hv⟩, hlt⟩ h
      exact hlt (h v hv)
  · rw [(answerWhoIs_of_limits hp).2 ha]
    refine iff_of_false ?_ ?_
    · rintro ⟨e, ⟨⟩⟩
    · rintro ⟨v, ⟨hl', ha', -⟩, -⟩
      have heq := parseWhoIsLimits_of_limits hl' hp
      rw [Prod.mk.injEq] at heq
      rw [heq.1, heq.2] at ha
      exact ha ha'

theorem handleWriteProperty_error_iff (invokeId : UInt8) (parameters : Bytes) (s : BacnetServer) :
    (∃ e, (handleWriteProperty invokeId.toNat parameters s).1 = .error e) ↔ BreaksOff referenceSpecs parameters := by
  rw [← parseWritePropertyRequest_error_iff]
  by_cases hw : ∃ n b, WritesPresentValue n b parameters
  · obtain ⟨n, b, hw⟩ := hw
    rw [handleWriteProperty_of_writes hw]
    obtain ⟨hw, -⟩ := hw
    rw [parseWritePropertyRequest_eq_some.2 ⟨_, _, hw, rfl, rfl, rfl⟩]
    split_ifs <;> exact iff_of_false nofun nofun
  · simp only [not_exists] at hw
    rw [handleWriteProperty_of_not_writes hw]
    rcases parseWritePropertyRequest parameters with e | r <;> simp [Except.map]

/-- Reading a property raises when an integer of its object is too long. -/
theorem readProperty_error_iff {s : BacnetServer} (hs : s.Encodable) (objectType inst propertyIdentifier : ℕ) :
    (∃ e, readProperty s objectType inst propertyIdentifier = .error e) ↔
      (objectType = objectTypeDevice ∧ (inst : ℤ) = s.device.inst ∧ ∃ v ∈ s.device.integers, ¬ v < 256 ^ 255) ∨
      (objectType = objectTypeAnalogValue ∧
        ∃ analogValue, s.analogValues.lookup (inst : ℤ) = some analogValue ∧ ¬ analogValue.units < 256 ^ 255) := by
  rcases readProperty_cases s objectType inst propertyIdentifier with ⟨rfl, hi, hr⟩ | ⟨rfl, hr⟩ | ⟨hd, ha, hr⟩
  · rw [hr, exists_error_iff, readDeviceProperty_ok_iff, hs.device.encodes_iff]
    simp [hi]
  · rw [hr]
    cases hav : s.analogValues.lookup (inst : ℤ) with
    | none =>
      rw [readAnalogValueProperty_none hav]
      simp
    | some analogValue =>
      have henc := hs.analogValues _ _ hav
      rw [exists_error_iff, readAnalogValueProperty_ok_iff hav, and_iff_left henc.presentValue, henc.encodes_iff]
      simp
  · rw [hr]
    refine iff_of_false nofun ?_
    rintro (⟨ht, hi, -⟩ | ⟨ht, -⟩)
    · exact hd ⟨ht, hi⟩
    · exact ha ht

theorem answerReadProperty_error_iff_truncated {s : BacnetServer} (hs : s.Encodable) (invokeId : UInt8)
    (parameters : Bytes) :
    (∃ e, answerReadProperty s invokeId.toNat parameters = .error e) ↔
      BreaksOff referenceSpecs parameters ∨
        ∃ v, (Request.readProperty invokeId parameters).Encodes s v ∧ ¬ v < 256 ^ 255 := by
  rw [answerReadProperty_error_iff]
  refine or_congr Iff.rfl ⟨?_, ?_⟩
  · rintro ⟨objectType, inst, p, hparse, he⟩
    obtain ⟨oid, prop, href, rfl, rfl, rfl⟩ := parsePropertyReference_eq_some.1 hparse
    rcases (readProperty_error_iff hs _ _ _).1 he with ⟨ht, hi, v, hv, hlt⟩ | ⟨ht, analogValue, hav, hlt⟩
    · exact ⟨v, .device href ht hi hv, hlt⟩
    · exact ⟨analogValue.units, .analogValue href ht hav, hlt⟩
  · rintro ⟨v, hv, hlt⟩
    cases hv with
    | @device _ _ oid prop _ href ht hi hv =>
      refine ⟨_, _, _, parsePropertyReference_eq_some.2 ⟨oid, prop, href, rfl, rfl, rfl⟩, ?_⟩
      exact (readProperty_error_iff hs _ _ _).2 (.inl ⟨ht, hi, v, hv, hlt⟩)
    | @analogValue _ _ oid prop analogValue href ht hav =>
      refine ⟨_, _, _, parsePropertyReference_eq_some.2 ⟨oid, prop, href, rfl, rfl, rfl⟩, ?_⟩
      exact (readProperty_error_iff hs _ _ _).2 (.inr ⟨ht, analogValue, hav, hlt⟩)

theorem serve_error_iff {s : BacnetServer} (hs : s.Encodable) (request : Request) :
    (∃ e, (serve request s).1 = .error e) ↔
      request.Truncated ∨ ∃ v, request.Encodes s v ∧ ¬ v < 256 ^ 255 := by
  cases request with
  | whoIs parameters => exact answerWhoIs_error_iff hs parameters
  | readProperty invokeId parameters =>
    rw [serve_readProperty]
    exact answerReadProperty_error_iff_truncated hs invokeId parameters
  | writeProperty invokeId parameters =>
    rw [serve_writeProperty, handleWriteProperty_error_iff]
    exact (or_iff_left (by rintro ⟨v, ⟨⟩, -⟩)).symm

/-- A datagram is handled without an exception exactly when its request, if it carries one, does not
break off in a tag header and its answer encodes no integer of more than 255 octets. -/
theorem handleDatagram_ok_iff {s : BacnetServer} (hs : s.Encodable) (payload : Bytes) :
    (∃ reply, (handleDatagram payload s).1 = .ok reply) ↔
      ∀ request, Requests request payload →
        ¬ request.Truncated ∧ ∀ v, request.Encodes s v → v < 256 ^ 255 := by
  by_cases hr : ∃ request, Requests request payload
  swap
  · rw [handleDatagram_of_not_requests (not_exists.1 hr)]
    exact iff_of_true ⟨none, rfl⟩ fun request h => absurd ⟨request, h⟩ hr
  obtain ⟨request, hr⟩ := hr
  -- a datagram carries one request
  have hall : ∀ p : Request → Prop, (∀ request', Requests request' payload → p request') ↔ p request := fun p =>
    ⟨fun h => h request hr, fun h request' hr' => hr.unique hr' ▸ h⟩
  rw [hall, ← not_iff_not, ← exists_error_iff, handleDatagram_of_requests hr,
    encapsulate_error_iff fun apdu h => length_serve h, serve_error_iff hs]
  simp only [not_and_or, not_not, not_forall, exists_prop]

/-- A Who-Is without limits is handled. -/
theorem handleDatagram_ok_whoIs :
    ∃ reply, (handleDatagram (bareDatagram [0x10, 0x08]) (.init {})).1 = .ok reply :=
  (handleDatagram_ok_iff BacnetServer.encodable_init _).2 fun request h => by
    cases h.unique (requests_bareDatagram (.whoIs rfl) (by simp))
    refine ⟨fun hb => ?_, fun v hv => ?_⟩
    · obtain ⟨e, he⟩ := parseWhoIsLimits_error_iff.2 hb
      cases he
    · cases hv with
      | whoIs _ _ hv => revert v; decide

/-- A Who-Is that ends with the tag octet of a limit of extended length raises. -/
theorem handleDatagram_raises_truncated :
    (BacnetServer.init {}).Encodable ∧
      (handleDatagram [0x81, 0x0A, 0x00, 0x09, 0x01, 0x00, 0x10, 0x08, 0x25] (.init {})).1 = .error .indexError :=
  ⟨BacnetServer.encodable_init, by decide⟩

end Cursus.Bacnet
