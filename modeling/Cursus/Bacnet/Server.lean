/-
`BacnetServer` of `cursus/bacnet/server.py`: its configuration, its state and the handling of one
datagram through the BVLC, NPDU, APDU and service layers. A method that reads or writes the
analog values is a call on the server; every other method takes what it reads.
-/
import Cursus.Bacnet.Codec
import Cursus.Python.Dict
import Cursus.Python.Effect

namespace Cursus.Bacnet

open Cursus.Python

/-! ## Configuration and state -/

/-- `BacnetDevice`; `inst` is its `instance`. -/
structure BacnetDevice where
  inst : ℤ := 1234
  objectName : String := "Cursus BACnet Device"
  description : String := "BACnet/IP emulator"
  vendorName : String := "Cursus"
  vendorIdentifier : ℤ := 999
  modelName : String := "Cursus BACnet/IP"
  maxApduLengthAccepted : ℤ := 1476
  segmentationSupported : ℤ := segmentationNoSegmentation
  protocolVersion : ℤ := 1
  protocolRevision : ℤ := 14

/-- `BacnetAnalogValue`; `inst` is its `instance`. -/
structure BacnetAnalogValue where
  inst : ℤ
  objectName : String
  description : String := ""
  presentValue : PyFloat := ⟨false, 0, 0, by decide, by decide⟩
  units : ℤ := unitsNoUnits

/-- `BacnetServerConfig`. -/
structure BacnetServerConfig where
  device : BacnetDevice := {}
  analogValues : Dict BacnetAnalogValue :=
    Finmap.insert 1 { inst := 1, objectName := "AV-1", description := "Analog Value 1" }
      (Finmap.singleton 2 { inst := 2, objectName := "AV-2", description := "Analog Value 2" })

/-- The analog values of the default configuration. -/
theorem BacnetServerConfig.lookup_default {n : ℤ} {analogValue : BacnetAnalogValue}
    (h : ({} : BacnetServerConfig).analogValues.lookup n = some analogValue) :
    (n = 1 ∧ analogValue = { inst := 1, objectName := "AV-1", description := "Analog Value 1" }) ∨
      (n = 2 ∧ analogValue = { inst := 2, objectName := "AV-2", description := "Analog Value 2" }) := by
  by_cases h1 : n = 1
  · subst h1
    cases h
    exact .inl ⟨rfl, rfl⟩
  by_cases h2 : n = 2
  · subst h2
    cases h
    exact .inr ⟨rfl, rfl⟩
  · have hmem : n ∉ ({} : BacnetServerConfig).analogValues := by simp [Finmap.mem_insert, h1, h2]
    rw [Finmap.lookup_eq_none.2 hmem] at h
    cases h

/-- The fields of `BacnetServer` that handling a datagram reads: `_config.device` and
`_analog_values`. -/
structure BacnetServer where
  device : BacnetDevice
  analogValues : Dict BacnetAnalogValue

/-- `BacnetServer.__init__`: the analog values are copied out of the configuration. -/
def BacnetServer.init (config : BacnetServerConfig) : BacnetServer :=
  ⟨config.device, config.analogValues⟩

/-- Every state is the initial one of the configuration it holds, so what is shown of every state
is shown of every reachable one and of nothing else. -/
theorem BacnetServer.exists_init (s : BacnetServer) : ∃ config, BacnetServer.init config = s :=
  ⟨⟨s.device, s.analogValues⟩, rfl⟩

/-- `get_present_value`. -/
def getPresentValue (inst : ℤ) : Py BacnetServer PyFloat := do
  match (← get).analogValues.lookup inst with
  | some analogValue => return analogValue.presentValue
  | none => Py.raise .keyError

/-- `set_present_value`. -/
def setPresentValue (inst : ℤ) (value : PyFloat) : Py BacnetServer Unit := do
  let s : BacnetServer ← get
  match s.analogValues.lookup inst with
  | some analogValue =>
    set { s with analogValues := s.analogValues.insert inst { analogValue with presentValue := value } }
  | none => Py.raise .keyError

/-! ## Properties -/

/-- `_read_device_property`: all twelve properties are encoded before one is picked. -/
def readDeviceProperty (device : BacnetDevice) (propertyIdentifier : ℕ) : Except PyError (Option Bytes) := do
  let properties := [
    (propertyObjectIdentifier, ← encodeApplicationObjectIdentifier objectTypeDevice device.inst),
    (propertyObjectName, ← encodeApplicationCharacterString device.objectName),
    (propertyObjectType, ← encodeApplicationEnumerated objectTypeDevice),
    (propertyDescription, ← encodeApplicationCharacterString device.description),
    (propertyVendorName, ← encodeApplicationCharacterString device.vendorName),
    (propertyVendorIdentifier, ← encodeApplicationUnsigned device.vendorIdentifier),
    (propertyModelName, ← encodeApplicationCharacterString device.modelName),
    (propertyMaxApduLengthAccepted, ← encodeApplicationUnsigned device.maxApduLengthAccepted),
    (propertySegmentationSupported, ← encodeApplicationEnumerated device.segmentationSupported),
    (propertyProtocolVersion, ← encodeApplicationUnsigned device.protocolVersion),
    (propertyProtocolRevision, ← encodeApplicationUnsigned device.protocolRevision),
    (propertyObjectList, ← encodeApplicationObjectIdentifier objectTypeDevice device.inst)]
  return properties.lookup propertyIdentifier

/-- `_read_analog_value_property`: all seven properties are encoded before one is picked. -/
def readAnalogValueProperty (s : BacnetServer) (inst propertyIdentifier : ℕ) :
    Except PyError (Option Bytes) := do
  let some analogValue := s.analogValues.lookup (inst : ℤ) | return none
  let properties := [
    (propertyObjectIdentifier,
      ← encodeApplicationObjectIdentifier objectTypeAnalogValue analogValue.inst),
    (propertyObjectName, ← encodeApplicationCharacterString analogValue.objectName),
    (propertyObjectType, ← encodeApplicationEnumerated objectTypeAnalogValue),
    (propertyDescription, ← encodeApplicationCharacterString analogValue.description),
    (propertyPresentValue, ← encodeApplicationReal analogValue.presentValue),
    (propertyUnits, ← encodeApplicationEnumerated analogValue.units),
    (propertyStatusFlags, ← encodeApplicationBitString [0x00])]
  return properties.lookup propertyIdentifier

/-- `_read_property`. -/
def readProperty (s : BacnetServer) (objectType inst propertyIdentifier : ℕ) :
    Except PyError (Option Bytes) :=
  if objectType = objectTypeDevice ∧ (inst : ℤ) = s.device.inst then
    readDeviceProperty s.device propertyIdentifier
  else if objectType = objectTypeAnalogValue then readAnalogValueProperty s inst propertyIdentifier
  else .ok none

/-- `_write_property`. -/
def writeProperty (objectType inst propertyIdentifier : ℕ) (propertyValue : Bytes) :
    Py BacnetServer Bool := do
  if objectType ≠ objectTypeAnalogValue ∨ propertyIdentifier ≠ propertyPresentValue then return false
  let some decodedValue ← decodeApplicationReal propertyValue | return false
  let s : BacnetServer ← get
  match s.analogValues.lookup (inst : ℤ) with
  | none => return false
  | some analogValue =>
    set { s with
      analogValues := s.analogValues.insert (inst : ℤ) { analogValue with presentValue := decodedValue } }
    return true

/-! ## Services -/

/-- The ComplexACK that `_handle_read_property` builds around the property value. -/
def buildReadAck (invokeId objectType inst propertyIdentifier : ℕ) (propertyValue : Bytes) :
    Except PyError Bytes := do
  let ackPayload :=
    (← encodeContextObjectIdentifier contextTagObjectIdentifier objectType inst)
      ++ (← encodeContextUnsigned contextTagPropertyIdentifier propertyIdentifier)
      ++ (← encodeOpeningTag contextTagPropertyValue)
      ++ propertyValue
      ++ (← encodeClosingTag contextTagPropertyValue)
  return (← bytesOf [pduTypeComplexAck, invokeId, serviceReadProperty]) ++ ackPayload

/-- `_handle_read_property`. -/
def handleReadProperty (invokeId : ℕ) (payload : Bytes) : Py BacnetServer (Option Bytes) := do
  let some (objectType, inst, propertyIdentifier) ← parsePropertyReference payload | return none
  let some propertyValue ← readProperty (← get) objectType inst propertyIdentifier | return none
  return some (← buildReadAck invokeId objectType inst propertyIdentifier propertyValue)

/-- `_handle_write_property`. -/
def handleWriteProperty (invokeId : ℕ) (payload : Bytes) : Py BacnetServer (Option Bytes) := do
  let some (objectType, inst, propertyIdentifier, propertyValue) ← parseWritePropertyRequest payload
    | return none
  if ¬ (← writeProperty objectType inst propertyIdentifier propertyValue) then return none
  return some (← bytesOf [pduTypeSimpleAck, invokeId, serviceWriteProperty])

/-- `_build_i_am_apdu`. -/
def buildIAmApdu (device : BacnetDevice) : Except PyError Bytes := do
  return (← bytesOf [pduTypeUnconfirmedRequest, serviceIAm])
    ++ (← encodeApplicationObjectIdentifier objectTypeDevice device.inst)
    ++ (← encodeApplicationUnsigned device.maxApduLengthAccepted)
    ++ (← encodeApplicationEnumerated device.segmentationSupported)
    ++ (← encodeApplicationUnsigned device.vendorIdentifier)

/-- `_handle_unconfirmed_request`. -/
def handleUnconfirmedRequest (apdu : Bytes) : Py BacnetServer (Option Bytes) := do
  let serviceChoice ← index apdu 1
  if serviceChoice ≠ serviceWhoIs then return none
  let (lowerLimit, upperLimit) ← parseWhoIsLimits (apdu.drop 2)
  let device := (← get).device
  if ∃ lower ∈ lowerLimit, device.inst < lower then return none
  if ∃ upper ∈ upperLimit, device.inst > upper then return none
  return some (← buildIAmApdu device)

/-- `_handle_confirmed_request`. -/
def handleConfirmedRequest (apdu : Bytes) : Py BacnetServer (Option Bytes) := do
  if apdu.length < confirmedRequestHeaderSize then return none
  let invokeId ← index apdu 2
  let serviceChoice ← index apdu 3
  let serviceRequest := apdu.drop 4
  if serviceChoice = serviceReadProperty then handleReadProperty invokeId serviceRequest
  else if serviceChoice = serviceWriteProperty then handleWriteProperty invokeId serviceRequest
  else return none

/-! ## Layers -/

/-- `_handle_apdu`. -/
def handleApdu (apdu : Bytes) : Py BacnetServer (Option Bytes) := do
  if apdu.length < npduHeaderSize then return none
  let pduType := (← index apdu 0) &&& 0xF0
  if pduType = pduTypeUnconfirmedRequest then handleUnconfirmedRequest apdu
  else if pduType = pduTypeConfirmedRequest then handleConfirmedRequest apdu
  else return none

/-- The destination specifier of `_handle_npdu`: the offset behind it and the hop count, when the
control octet announces one. -/
def skipDestination (npdu : Bytes) (control offset : ℕ) : Except PyError (Option ℕ) := do
  if control &&& 0x20 = 0 then return some offset
  if npdu.length < offset + 3 then return none
  let destinationLength ← index npdu (offset + 2)
  -- the one octet more is the hop count
  return some (offset + (3 + destinationLength + 1))

/-- The source specifier of `_handle_npdu`. -/
def skipSource (npdu : Bytes) (control offset : ℕ) : Except PyError (Option ℕ) := do
  if control &&& 0x08 = 0 then return some offset
  if npdu.length < offset + 3 then return none
  let sourceLength ← index npdu (offset + 2)
  return some (offset + (3 + sourceLength))

/-- The part of `_handle_npdu` that finds where the APDU starts, `none` when the NPDU ends before. -/
def apduOffset (npdu : Bytes) : Except PyError (Option ℕ) := do
  let control ← index npdu 1
  let some offset ← skipDestination npdu control 2 | return none
  let some offset ← skipSource npdu control offset | return none
  -- a network layer message begins with its type
  let offset := if control &&& 0x80 ≠ 0 then offset + 1 else offset
  if npdu.length < offset then return none
  return some offset

/-- `_handle_npdu`. -/
def handleNpdu (npdu : Bytes) : Py BacnetServer (Option Bytes) := do
  if npdu.length < npduHeaderSize then return none
  if (← index npdu 0) ≠ npduVersion then return none
  let some offset ← apduOffset npdu | return none
  let some responseApdu ← handleApdu (npdu.drop offset) | return none
  return some ((← bytesOf [npduVersion, npduControlNoExpectingReply]) ++ responseApdu)

/-- `_build_bvlc`. -/
def buildBvlc (function : ℕ) (npdu : Bytes) : Except PyError Bytes := do
  let totalLength := 4 + npdu.length
  return (← bytesOf [bvlcTypeBacnetIp, function]) ++ (← structPack .big [.H totalLength]) ++ npdu

/-- `handle_datagram` on the payload of the packet; the client address of the packet is not read. -/
def handleDatagram (payload : Bytes) : Py BacnetServer (Option Bytes) := do
  if payload.length < bvlcHeaderSize then return none
  if (← index payload 0) ≠ bvlcTypeBacnetIp then return none
  let bvlcFunction ← index payload 1
  if bvlcFunction ≠ bvlcOriginalUnicastNpdu ∧ bvlcFunction ≠ bvlcOriginalBroadcastNpdu then return none
  checkSize 2 (slice payload 2 4)
  let bvlcLength := uintAt .big 2 (slice payload 2 4) 0
  if bvlcLength ≠ payload.length then return none
  let some responseNpdu ← handleNpdu (payload.drop bvlcHeaderSize) | return none
  return some (← buildBvlc bvlcOriginalUnicastNpdu responseNpdu)

end Cursus.Bacnet
