/-
The constants, encoders and decoders of `cursus/bacnet/server.py`, function by function. An encoder
raises where the Python one does: text outside ASCII, a negative or over-long integer, a length that
does not fit its octet. A decoder takes the payload and an offset, and returns `None` and the old
offset, or a value and the offset behind it.
-/
import Cursus.Python.Float
import Mathlib.Data.Int.Bitwise

namespace Cursus.Bacnet

open Cursus.Python

/-! ## Constants -/

@[simp] def bvlcTypeBacnetIp : ℕ := 0x81
@[simp] def bvlcOriginalUnicastNpdu : ℕ := 0x0A
@[simp] def bvlcOriginalBroadcastNpdu : ℕ := 0x0B

@[simp] def npduVersion : ℕ := 0x01
@[simp] def npduControlNoExpectingReply : ℕ := 0x00

@[simp] def pduTypeConfirmedRequest : ℕ := 0x00
@[simp] def pduTypeUnconfirmedRequest : ℕ := 0x10
@[simp] def pduTypeSimpleAck : ℕ := 0x20
@[simp] def pduTypeComplexAck : ℕ := 0x30

@[simp] def serviceWhoIs : ℕ := 0x08
@[simp] def serviceIAm : ℕ := 0x00
@[simp] def serviceReadProperty : ℕ := 0x0C
@[simp] def serviceWriteProperty : ℕ := 0x0F

@[simp] def objectTypeAnalogValue : ℕ := 2
@[simp] def objectTypeDevice : ℕ := 8

@[simp] def propertyDescription : ℕ := 28
@[simp] def propertyModelName : ℕ := 70
@[simp] def propertyObjectIdentifier : ℕ := 75
@[simp] def propertyObjectList : ℕ := 76
@[simp] def propertyObjectName : ℕ := 77
@[simp] def propertyObjectType : ℕ := 79
@[simp] def propertyPresentValue : ℕ := 85
@[simp] def propertyProtocolVersion : ℕ := 98
@[simp] def propertyProtocolRevision : ℕ := 99
@[simp] def propertySegmentationSupported : ℕ := 107
@[simp] def propertyStatusFlags : ℕ := 111
@[simp] def propertyUnits : ℕ := 117
@[simp] def propertyVendorIdentifier : ℕ := 120
@[simp] def propertyVendorName : ℕ := 121
@[simp] def propertyMaxApduLengthAccepted : ℕ := 62

@[simp] def segmentationNoSegmentation : ℤ := 3
@[simp] def unitsNoUnits : ℤ := 95

@[simp] def applicationTagUnsigned : ℕ := 2
@[simp] def applicationTagReal : ℕ := 4
@[simp] def applicationTagCharacterString : ℕ := 7
@[simp] def applicationTagBitString : ℕ := 8
@[simp] def applicationTagEnumerated : ℕ := 9
@[simp] def applicationTagObjectIdentifier : ℕ := 12

@[simp] def contextTagObjectIdentifier : ℕ := 0
@[simp] def contextTagPropertyIdentifier : ℕ := 1
@[simp] def contextTagPropertyArrayIndex : ℕ := 2
@[simp] def contextTagPropertyValue : ℕ := 3

@[simp] def bvlcHeaderSize : ℕ := 4
@[simp] def npduHeaderSize : ℕ := 2
@[simp] def confirmedRequestHeaderSize : ℕ := 4
@[simp] def applicationRealLength : ℕ := 4
@[simp] def applicationRealTotalSize : ℕ := 5
@[simp] def contextClassBit : ℕ := 0x08
@[simp] def extendedLengthSentinel : ℕ := 5
@[simp] def maxInlineLength : ℕ := 4

/-! ## Encoders -/

/-- `_encode_tag_header`. -/
def encodeTagHeader (tagNumber : ℕ) (isContext : Bool) (length : ℕ) : Except PyError Bytes :=
  let classBit := if isContext then contextClassBit else 0x00
  if length ≤ maxInlineLength then bytesOf [(tagNumber <<< 4) ||| classBit ||| length]
  else
    -- `bytes` raises for a length that is no octet
    bytesOf [(tagNumber <<< 4) ||| classBit ||| extendedLengthSentinel, length]

/-- `_encode_unsigned_value`. -/
def encodeUnsignedValue (value : ℤ) : Except PyError Bytes :=
  if value = 0 then .ok [0x00]
  else
    -- `bit_length` ignores the sign, `to_bytes` raises for it
    intToBytes .big (max 1 ((bitLength value.natAbs + 7) / 8)) value

/-- `_encode_application_unsigned`. -/
def encodeApplicationUnsigned (value : ℤ) : Except PyError Bytes := do
  let encodedValue ← encodeUnsignedValue value
  return (← encodeTagHeader applicationTagUnsigned false encodedValue.length) ++ encodedValue

/-- `_encode_application_enumerated`. -/
def encodeApplicationEnumerated (value : ℤ) : Except PyError Bytes := do
  let encodedValue ← encodeUnsignedValue value
  return (← encodeTagHeader applicationTagEnumerated false encodedValue.length) ++ encodedValue

/-- `_encode_application_real`. -/
def encodeApplicationReal (value : PyFloat) : Except PyError Bytes := do
  return (← encodeTagHeader applicationTagReal false applicationRealLength) ++ (← packFloat value)

/-- `_encode_application_character_string`. -/
def encodeApplicationCharacterString (value : String) : Except PyError Bytes := do
  let encodedValue := 0x00 :: (← encodeAscii value)
  return (← encodeTagHeader applicationTagCharacterString false encodedValue.length) ++ encodedValue

/-- `_encode_application_bit_string`. -/
def encodeApplicationBitString (value : Bytes) : Except PyError Bytes := do
  let encodedValue := 0x00 :: value
  return (← encodeTagHeader applicationTagBitString false encodedValue.length) ++ encodedValue

/-- `(object_type << 22) | instance`. -/
def objectIdentifier (objectType : ℕ) (inst : ℤ) : ℤ := Int.lor (objectType <<< 22 : ℕ) inst

/-- `_encode_application_object_identifier`. -/
def encodeApplicationObjectIdentifier (objectType : ℕ) (inst : ℤ) : Except PyError Bytes := do
  let encodedValue ← structPack .big [.I (objectIdentifier objectType inst)]
  return (← encodeTagHeader applicationTagObjectIdentifier false encodedValue.length) ++ encodedValue

/-- `_encode_context_unsigned`. -/
def encodeContextUnsigned (tagNumber : ℕ) (value : ℤ) : Except PyError Bytes := do
  let encodedValue ← encodeUnsignedValue value
  return (← encodeTagHeader tagNumber true encodedValue.length) ++ encodedValue

/-- `_encode_context_object_identifier`. -/
def encodeContextObjectIdentifier (tagNumber objectType : ℕ) (inst : ℤ) : Except PyError Bytes := do
  let encodedValue ← structPack .big [.I (objectIdentifier objectType inst)]
  return (← encodeTagHeader tagNumber true encodedValue.length) ++ encodedValue

/-- `_encode_opening_tag`. -/
def encodeOpeningTag (tagNumber : ℕ) : Except PyError Bytes := bytesOf [(tagNumber <<< 4) ||| 0x0E]

/-- `_encode_closing_tag`. -/
def encodeClosingTag (tagNumber : ℕ) : Except PyError Bytes := bytesOf [(tagNumber <<< 4) ||| 0x0F]

/-! ## Decoders -/

/-- `_decode_application_real`. -/
def decodeApplicationReal (payload : Bytes) : Except PyError (Option PyFloat) := do
  if payload.length ≠ applicationRealTotalSize then return none
  if (← index payload 0) ≠ (← index (← encodeTagHeader applicationTagReal false applicationRealLength) 0) then
    return none
  return some (← unpackFloat (slice payload 1 applicationRealTotalSize))

/-- `_decode_tag_length`. -/
def decodeTagLength (payload : Bytes) (offset : ℕ) : Except PyError (ℕ × ℕ) := do
  let length := (← index payload offset) &&& 0x07
  if length ≠ extendedLengthSentinel then return (length, 1)
  -- not checked: raises when the payload ends with the tag octet
  return (← index payload (offset + 1), 2)

/-- `_is_context_tag`. -/
def isContextTag (tagByte tagNumber : ℕ) : Bool :=
  tagByte >>> 4 == tagNumber && tagByte &&& contextClassBit == contextClassBit

/-- `_decode_application_unsigned`. -/
def decodeApplicationUnsigned (payload : Bytes) (offset : ℕ) : Except PyError (Option ℕ × ℕ) := do
  if payload.length ≤ offset then return (none, offset)
  let tagByte ← index payload offset
  if tagByte >>> 4 ≠ applicationTagUnsigned ∨ tagByte &&& contextClassBit ≠ 0 then return (none, offset)
  let (length, headerSize) ← decodeTagLength payload offset
  let valueOffset := offset + headerSize
  let valueEnd := valueOffset + length
  if payload.length < valueEnd then return (none, offset)
  return (some (ByteOrder.big.decode (slice payload valueOffset valueEnd)), valueEnd)

/-- `_decode_context_unsigned`. -/
def decodeContextUnsigned (payload : Bytes) (offset tagNumber : ℕ) : Except PyError (Option ℕ × ℕ) := do
  if payload.length ≤ offset then return (none, offset)
  if ¬ isContextTag (← index payload offset) tagNumber then return (none, offset)
  let (length, headerSize) ← decodeTagLength payload offset
  let valueOffset := offset + headerSize
  let valueEnd := valueOffset + length
  if payload.length < valueEnd then return (none, offset)
  return (some (ByteOrder.big.decode (slice payload valueOffset valueEnd)), valueEnd)

/-- `_decode_context_object_identifier`. -/
def decodeContextObjectIdentifier (payload : Bytes) (offset tagNumber : ℕ) :
    Except PyError (Option (ℕ × ℕ) × ℕ) := do
  if payload.length ≤ offset then return (none, offset)
  if ¬ isContextTag (← index payload offset) tagNumber then return (none, offset)
  let (length, headerSize) ← decodeTagLength payload offset
  if length ≠ applicationRealLength then return (none, offset)
  let valueOffset := offset + headerSize
  let valueEnd := valueOffset + length
  if payload.length < valueEnd then return (none, offset)
  let bytes := slice payload valueOffset valueEnd
  checkSize 4 bytes
  let rawValue := uintAt .big 4 bytes 0
  return (some (rawValue >>> 22, rawValue &&& 0x3FFFFF), valueEnd)

/-! ## Service parameters -/

/-- `_parse_who_is_limits`. -/
def parseWhoIsLimits (payload : Bytes) : Except PyError (Option ℕ × Option ℕ) := do
  if payload = [] then return (none, none)
  let (lowerLimit, offset) ← decodeApplicationUnsigned payload 0
  -- without a lower limit the upper one is not looked for
  if lowerLimit = none then return (none, none)
  let (upperLimit, _) ← decodeApplicationUnsigned payload offset
  return (lowerLimit, upperLimit)

/-- The optional array index of a property reference: the offset behind it when it is there. -/
def skipArrayIndex (payload : Bytes) (offset : ℕ) : Except PyError ℕ := do
  if offset < payload.length then
    if isContextTag (← index payload offset) contextTagPropertyArrayIndex then
      return (← decodeContextUnsigned payload offset contextTagPropertyArrayIndex).2
  return offset

/-- The statements with which `_parse_property_reference` and `_parse_write_property_request` both
begin: object type, instance, property identifier, and the offset behind the array index. -/
def parseObjectProperty (payload : Bytes) : Except PyError (Option (ℕ × ℕ × ℕ × ℕ)) := do
  let (some (objectType, inst), offset) ←
    decodeContextObjectIdentifier payload 0 contextTagObjectIdentifier | return none
  let (some propertyIdentifier, offset) ←
    decodeContextUnsigned payload offset contextTagPropertyIdentifier | return none
  return some (objectType, inst, propertyIdentifier, ← skipArrayIndex payload offset)

/-- `_parse_property_reference`. -/
def parsePropertyReference (payload : Bytes) : Except PyError (Option (ℕ × ℕ × ℕ)) := do
  let some (objectType, inst, propertyIdentifier, offset) ← parseObjectProperty payload | return none
  if offset ≠ payload.length then return none
  return some (objectType, inst, propertyIdentifier)

/-- The part of `_parse_write_property_request` behind the reference: the value between the opening
tag at `offset` and the first closing tag. -/
def parsePropertyValue (payload : Bytes) (offset : ℕ) : Except PyError (Option Bytes) := do
  if payload.length ≤ offset then return none
  if (← index payload offset) ≠ (← index (← encodeOpeningTag contextTagPropertyValue) 0) then return none
  let offset := offset + 1
  -- the first such octet, also one inside the value
  let some propertyValueEnd :=
    find payload (← encodeClosingTag contextTagPropertyValue) offset | return none
  return some (slice payload offset propertyValueEnd)

/-- `_parse_write_property_request`. -/
def parseWritePropertyRequest (payload : Bytes) : Except PyError (Option (ℕ × ℕ × ℕ × Bytes)) := do
  let some (objectType, inst, propertyIdentifier, offset) ← parseObjectProperty payload | return none
  let some propertyValue ← parsePropertyValue payload offset | return none
  return some (objectType, inst, propertyIdentifier, propertyValue)

end Cursus.Bacnet
