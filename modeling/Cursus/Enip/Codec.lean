/-
The constants of `cursus/enip/server.py` and those of its functions that read no server state: the
encapsulation header, the Common Packet Format items, the CIP path and the packed replies.
-/
import Cursus.Python.Socket

namespace Cursus.Enip

open Cursus.Python

/-! ## Constants -/

@[simp] def encapsulationHeaderSize : ℕ := 24

@[simp] def commandListServices : ℕ := 0x0004
@[simp] def commandListIdentity : ℕ := 0x0063
@[simp] def commandListInterfaces : ℕ := 0x0064
@[simp] def commandRegisterSession : ℕ := 0x0065
@[simp] def commandUnregisterSession : ℕ := 0x0066
@[simp] def commandSendRrData : ℕ := 0x006F

@[simp] def encapStatusSuccess : ℕ := 0x0000
@[simp] def encapStatusInvalidCommand : ℕ := 0x0001
@[simp] def encapStatusIncorrectData : ℕ := 0x0003
@[simp] def encapStatusInvalidSession : ℕ := 0x0064

@[simp] def cpfItemNullAddress : ℕ := 0x0000
@[simp] def cpfItemUnconnectedData : ℕ := 0x00B2
@[simp] def listServicesItem : ℕ := 0x0100
@[simp] def listIdentityItem : ℕ := 0x000C
@[simp] def protocolVersion : ℕ := 1
@[simp] def registerSessionPayloadSize : ℕ := 4
@[simp] def sendRrDataHeaderSize : ℕ := 8
@[simp] def cipRequestHeaderSize : ℕ := 2
@[simp] def assemblyDataAttribute : ℕ := 3
@[simp] def bindAllInterfaces : String := "0.0.0.0"
@[simp] def loopbackAddress : String := "127.0.0.1"

/-- `socket.AF_INET`. -/
@[simp] def afInet : ℕ := 2

@[simp] def cipServiceGetAttributesAll : ℕ := 0x01
@[simp] def cipServiceGetAttributeSingle : ℕ := 0x0E
@[simp] def cipServiceSetAttributeSingle : ℕ := 0x10

@[simp] def cipStatusSuccess : ℕ := 0x00
@[simp] def cipStatusPathSegmentError : ℕ := 0x04
@[simp] def cipStatusPathDestinationUnknown : ℕ := 0x05
@[simp] def cipStatusServiceNotSupported : ℕ := 0x08
@[simp] def cipStatusAttributeNotSettable : ℕ := 0x0E
@[simp] def cipStatusAttributeNotSupported : ℕ := 0x14
@[simp] def cipStatusNotEnoughData : ℕ := 0x13

@[simp] def identityClass : ℕ := 0x01
@[simp] def assemblyClass : ℕ := 0x04
@[simp] def identityAttrVendorId : ℕ := 1
@[simp] def identityAttrDeviceType : ℕ := 2
@[simp] def identityAttrProductCode : ℕ := 3
@[simp] def identityAttrRevision : ℕ := 4
@[simp] def identityAttrStatus : ℕ := 5
@[simp] def identityAttrSerialNumber : ℕ := 6
@[simp] def identityAttrProductName : ℕ := 7
@[simp] def identityAttrState : ℕ := 8

def identityAttributesAll : List ℕ :=
  [identityAttrVendorId, identityAttrDeviceType, identityAttrProductCode, identityAttrRevision,
    identityAttrStatus, identityAttrSerialNumber, identityAttrProductName]

/-! ## Identity -/

/-- `EnipIdentity`. -/
structure EnipIdentity where
  vendorId : ℤ := 1
  deviceType : ℤ := 12
  productCode : ℤ := 65001
  revisionMajor : ℤ := 1
  revisionMinor : ℤ := 0
  status : ℤ := 0x0030
  serialNumber : ℤ := 0xC0DA2026
  productName : String := "1756-EN2T/A"
  state : ℤ := 0x03

/-- `_pack_identity_attribute`: all eight attributes are packed before one is picked. -/
def packIdentityAttribute (identity : EnipIdentity) (attr : ℕ) : Except PyError Bytes := do
  let productName ← encodeAscii identity.productName
  let attributes := [
    (identityAttrVendorId, ← structPack .little [.H identity.vendorId]),
    (identityAttrDeviceType, ← structPack .little [.H identity.deviceType]),
    (identityAttrProductCode, ← structPack .little [.H identity.productCode]),
    (identityAttrRevision, ← structPack .little [.B identity.revisionMajor, .B identity.revisionMinor]),
    (identityAttrStatus, ← structPack .little [.H identity.status]),
    (identityAttrSerialNumber, ← structPack .little [.I identity.serialNumber]),
    (identityAttrProductName, (← structPack .little [.B productName.length]) ++ productName),
    (identityAttrState, ← structPack .little [.B identity.state])]
  -- `attributes[attribute]`
  match attributes.lookup attr with
  | some data => return data
  | none => throw .keyError

/-- The join of `_get_attributes_all` over the packed attributes. -/
def packIdentityAttributes (identity : EnipIdentity) (attributes : List ℕ) : Except PyError Bytes := do
  return (← attributes.mapM (packIdentityAttribute identity)).flatten

/-! ## Encapsulation -/

/-- `_EncapsulationFrame`. -/
structure EncapsulationFrame where
  command : ℕ
  sessionHandle : ℕ
  senderContext : Bytes
  options : ℕ
  payload : Bytes
  deriving DecidableEq

/-- `_build_encapsulation_response`. -/
def buildEncapsulationResponse (command sessionHandle : ℕ) (senderContext payload : Bytes) (status : ℕ) :
    Except PyError Bytes := do
  return (← structPack .little
    [.H command, .H payload.length, .I sessionHandle, .I status, .str 8 senderContext, .I 0]) ++ payload

/-- `_build_list_services_payload`; `"Communications"` is padded to 16 octets. -/
def buildListServicesPayload : Except PyError Bytes := do
  let serviceName ← encodeAscii "Communications"
  let item ← structPack .little
    [.H listServicesItem, .H 20, .H protocolVersion, .H 0x0020, .str 16 serviceName]
  return (← structPack .little [.H 1]) ++ item

/-- `_build_list_identity_payload`. -/
def buildListIdentityPayload (ip : String) (port : ℤ) (identity : EnipIdentity) : Except PyError Bytes := do
  let productName ← encodeAscii identity.productName
  -- a server on all interfaces announces the loopback address
  let address := if ip ≠ bindAllInterfaces then ip else loopbackAddress
  let packedAddress ← inetAton address
  let socketAddress ← structPack .big
    [.H afInet, .H port, .str 4 packedAddress, .str 8 (List.replicate 8 0)]
  let itemData :=
    (← structPack .little [.H protocolVersion])
      ++ socketAddress
      ++ (← structPack .little [.H identity.vendorId, .H identity.deviceType, .H identity.productCode,
        .B identity.revisionMajor, .B identity.revisionMinor, .H identity.status, .I identity.serialNumber])
      ++ (← structPack .little [.B productName.length])
      ++ productName
      ++ (← structPack .little [.B identity.state])
  let itemHeader ← structPack .little [.H listIdentityItem, .H itemData.length]
  return (← structPack .little [.H 1]) ++ itemHeader ++ itemData

/-! ## CIP paths -/

/-- The values of `_SEGMENT_TYPE_BY_CODE`: `"class"`, `"instance"` and `"attribute"`. -/
inductive SegmentType
  | cls | inst | attr
  deriving DecidableEq, Repr

/-- `_SEGMENT_TYPE_BY_CODE.get`. -/
def segmentTypeByCode (segment : ℕ) : Option SegmentType :=
  if segment = 0x20 ∨ segment = 0x21 ∨ segment = 0x22 then some .cls
  else if segment = 0x24 ∨ segment = 0x25 ∨ segment = 0x26 then some .inst
  else if segment = 0x30 ∨ segment = 0x31 ∨ segment = 0x32 then some .attr
  else none

/-- `_read_path_value`: the value, and the offset behind it. -/
def readPathValue (path : Bytes) (offset segment : ℕ) : Except PyError (ℕ × ℕ) :=
  if segment = 0x20 ∨ segment = 0x24 ∨ segment = 0x30 then do
    if path.length ≤ offset then throw .valueError
    return (← index path offset, offset + 1)
  else if segment = 0x21 ∨ segment = 0x25 ∨ segment = 0x31 then do
    if path.length < offset + 2 then throw .valueError
    checkFrom 2 path offset
    return (uintAt .little 2 path offset, offset + 2)
  else if segment = 0x22 ∨ segment = 0x26 ∨ segment = 0x32 then do
    if path.length < offset + 4 then throw .valueError
    checkFrom 4 path offset
    return (uintAt .little 4 path offset, offset + 4)
  else throw .valueError

/-- The local variables `class_code`, `instance` and `attribute` of `_parse_cip_path`. -/
structure PathValues where
  classCode : Option ℕ := none
  inst : Option ℕ := none
  attr : Option ℕ := none
  deriving DecidableEq

/-- Assign the variable of the segment type. -/
def PathValues.assign (values : PathValues) (value : ℕ) : SegmentType → PathValues
  | .cls => { values with classCode := some value }
  | .inst => { values with inst := some value }
  | .attr => { values with attr := some value }

theorem readPathValue_lt {path : Bytes} {offset segment value next : ℕ}
    (h : readPathValue path offset segment = .ok (value, next)) : offset < next := by
  unfold readPathValue at h
  split_ifs at h
  · cases h
  · obtain ⟨v, -, hv⟩ := bind_eq_ok h
    cases hv
    omega
  · cases h
  · obtain ⟨v, -, hv⟩ := bind_eq_ok h
    cases hv
    omega
  · cases h
  · obtain ⟨v, -, hv⟩ := bind_eq_ok h
    cases hv
    omega

/-- The loop of `_parse_cip_path`. -/
def parseSegments (path : Bytes) (offset : ℕ) (values : PathValues) : Except PyError PathValues :=
  if hlt : offset < path.length then
    -- a pad octet
    if path[offset] = 0 then parseSegments path (offset + 1) values
    else
      match hread : readPathValue path (offset + 1) path[offset].toNat with
      | .error e => .error e
      | .ok (value, next) =>
        match segmentTypeByCode path[offset].toNat with
        | none => .error .valueError
        | some segmentType => parseSegments path next (values.assign value segmentType)
  else .ok values
termination_by path.length - offset
decreasing_by
  · omega
  · have := readPathValue_lt hread
    omega

/-- `_parse_cip_path`: the class, the instance and the attribute. -/
def parseCipPath (path : Bytes) : Except PyError (ℕ × ℕ × Option ℕ) := do
  match ← parseSegments path 0 {} with
  | ⟨some classCode, some inst, attr⟩ => return (classCode, inst, attr)
  | _ => throw .valueError

/-! ## CIP responses and Common Packet Format items -/

/-- `_build_cip_response`. -/
def buildCipResponse (service status : ℕ) (data : Bytes) : Except PyError Bytes := do
  return (← bytesOf [service ||| 0x80, 0x00, status, 0x00]) ++ data

/-- The loop of `_handle_send_rr_data` over the items that are left: the last unconnected data item,
if any; `none` where the loop returns `None`. -/
def scanItems (payload : Bytes) :
    (itemCount offset : ℕ) → (cipRequest : Option Bytes) → Except PyError (Option (Option Bytes))
  | 0, _, cipRequest => return some cipRequest
  | itemCount + 1, offset, cipRequest => do
    if payload.length < offset + 4 then return none
    checkFrom 4 payload offset
    let itemType := uintAt .little 2 payload offset
    let itemLength := uintAt .little 2 payload (offset + 2)
    let offset := offset + 4
    if payload.length < offset + itemLength then return none
    let itemData := slice payload offset (offset + itemLength)
    let offset := offset + itemLength
    -- a later item replaces an earlier one
    if itemType = cpfItemUnconnectedData then scanItems payload itemCount offset (some itemData)
    else scanItems payload itemCount offset cipRequest

end Cursus.Enip
