/-
`EnipServer` of `cursus/enip/server.py`: its configuration, its state, the CIP services behind
SendRRData, the sessions and the handling of one encapsulation frame. A method that changes the
assemblies is a call on the server, one that changes sessions a call on the server and the sessions
of the connection; every other method takes what it reads.
-/
import Cursus.Enip.Codec
import Cursus.Python.Dict
import Cursus.Python.Effect

namespace Cursus.Enip

open Cursus.Python

/-! ## Configuration and state -/

/-- `EnipServerConfig`. -/
structure EnipServerConfig where
  identity : EnipIdentity := {}
  assemblies : Dict Bytes :=
    Finmap.insert 100 (List.replicate 32 0)
      (Finmap.insert 101 (List.replicate 32 0) (Finmap.singleton 150 (List.replicate 32 0)))

/-- The fields of `EnipServer` that handling a frame reads or changes. -/
structure EnipServer where
  ip : String
  port : ℤ
  identity : EnipIdentity
  nextSessionHandle : ℕ
  activeSessions : Finset ℕ
  assemblies : Dict Bytes

/-- `EnipServer.__init__`: the assemblies are copied out of the configuration. -/
def EnipServer.init (ip : String) (port : ℤ) (config : EnipServerConfig) : EnipServer where
  ip := ip
  port := port
  identity := config.identity
  nextSessionHandle := 1
  activeSessions := ∅
  assemblies := config.assemblies

/-- `set_assembly_data`. -/
def setAssemblyData (inst : ℤ) (data : Bytes) (s : EnipServer) : EnipServer :=
  { s with assemblies := s.assemblies.insert inst data }

/-- `get_assembly_data`. -/
def getAssemblyData (inst : ℤ) (s : EnipServer) : Except PyError Bytes :=
  match s.assemblies.lookup inst with
  | some data => .ok data
  | none => .error .keyError

/-- `release_sessions`. -/
def releaseSessions (sessions : Finset ℕ) (s : EnipServer) : EnipServer :=
  if sessions = ∅ then s else { s with activeSessions := s.activeSessions \ sessions }

/-! ## Attributes -/

/-- `_get_attribute`: the data and the general status. -/
def getAttribute (s : EnipServer) (classCode inst attr : ℕ) : Except PyError (Bytes × ℕ) :=
  if classCode = identityClass ∧ inst = 1 then
    match packIdentityAttribute s.identity attr with
    -- only the `KeyError` of an unknown attribute is caught
    | .ok data => .ok (data, cipStatusSuccess)
    | .error .keyError => .ok ([], cipStatusAttributeNotSupported)
    | .error e => .error e
  else if classCode = assemblyClass then
    if attr ≠ assemblyDataAttribute then .ok ([], cipStatusAttributeNotSupported)
    else
      match s.assemblies.lookup (inst : ℤ) with
      | none => .ok ([], cipStatusPathDestinationUnknown)
      | some data => .ok (data, cipStatusSuccess)
  else .ok ([], cipStatusPathDestinationUnknown)

/-- `_get_attributes_all`: the data and the general status. -/
def getAttributesAll (s : EnipServer) (classCode inst : ℕ) : Except PyError (Bytes × ℕ) :=
  if classCode = identityClass ∧ inst = 1 then do
    return (← packIdentityAttributes s.identity identityAttributesAll, cipStatusSuccess)
  else if classCode = assemblyClass then getAttribute s classCode inst assemblyDataAttribute
  else .ok ([], cipStatusPathDestinationUnknown)

/-- `_set_attribute`: the general status. -/
def setAttribute (classCode inst attr : ℕ) (value : Bytes) : Py EnipServer ℕ := do
  if classCode = assemblyClass then
    if attr ≠ assemblyDataAttribute then return cipStatusAttributeNotSupported
    let s : EnipServer ← get
    if s.assemblies.lookup (inst : ℤ) = none then return cipStatusPathDestinationUnknown
    set (setAssemblyData inst value s)
    return cipStatusSuccess
  else if classCode = identityClass ∧ inst = 1 then return cipStatusAttributeNotSettable
  else return cipStatusPathDestinationUnknown

/-! ## CIP requests -/

/-- The part of `_handle_cip_request` behind the path. -/
def dispatchService (service classCode inst : ℕ) (attr : Option ℕ) (requestData : Bytes) : Py EnipServer Bytes := do
  if service = cipServiceGetAttributesAll then
    let (responseData, status) ← getAttributesAll (← get) classCode inst
    buildCipResponse service status responseData
  else if service = cipServiceGetAttributeSingle then
    match attr with
    | none => buildCipResponse service cipStatusPathDestinationUnknown []
    | some attr =>
      let (responseData, status) ← getAttribute (← get) classCode inst attr
      buildCipResponse service status responseData
  else if service = cipServiceSetAttributeSingle then
    match attr with
    | none => buildCipResponse service cipStatusPathDestinationUnknown []
    | some attr =>
      let status ← setAttribute classCode inst attr requestData
      buildCipResponse service status []
  else buildCipResponse service cipStatusServiceNotSupported []

/-- `_handle_cip_request`. -/
def handleCipRequest (request : Bytes) : Py EnipServer Bytes := do
  if request.length < cipRequestHeaderSize then
    return ← buildCipResponse 0 cipStatusNotEnoughData []
  let service ← index request 0
  let pathWords ← index request 1
  let pathLength := pathWords * 2
  if request.length < cipRequestHeaderSize + pathLength then
    return ← buildCipResponse service cipStatusNotEnoughData []
  match parseCipPath (slice request cipRequestHeaderSize (cipRequestHeaderSize + pathLength)) with
  | .error .valueError => buildCipResponse service cipStatusPathSegmentError []
  | .error e => Py.raise e
  | .ok (classCode, inst, attr) =>
    dispatchService service classCode inst attr (request.drop (cipRequestHeaderSize + pathLength))

/-- The bytes that `_handle_send_rr_data` returns. -/
def packRrData (timeout : ℕ) (cipResponse : Bytes) : Except PyError Bytes := do
  return (← structPack .little [.I 0, .H timeout, .H 2])
    ++ (← structPack .little [.H cpfItemNullAddress, .H 0])
    ++ (← structPack .little [.H cpfItemUnconnectedData, .H cipResponse.length])
    ++ cipResponse

/-- `_handle_send_rr_data`. -/
def handleSendRrData (payload : Bytes) : Py EnipServer (Option Bytes) := do
  if payload.length < sendRrDataHeaderSize then return none
  checkFrom 8 payload 0
  let interfaceHandle := uintAt .little 4 payload 0
  let timeout := uintAt .little 2 payload 4
  let itemCount := uintAt .little 2 payload 6
  if interfaceHandle ≠ 0 then return none
  let some (some cipRequest) ← scanItems payload itemCount 8 none | return none
  let cipResponse ← handleCipRequest cipRequest
  return some (← packRrData timeout cipResponse)

/-! ## Frames -/

/-- What `handle_frame` changes: the server, and the set `connection_sessions` it is given. -/
structure Scope where
  server : EnipServer
  connectionSessions : Finset ℕ

/-- A call that leaves the sessions of the connection alone. -/
def onServer {α : Type} (x : Py EnipServer α) : Py Scope α := fun s =>
  ((x s.server).1, { s with server := (x s.server).2 })

/-- The step of `_handle_register_session` under the session lock; it returns the new handle. -/
def issueSession : Py Scope ℕ := do
  let s : Scope ← get
  let sessionHandle := s.server.nextSessionHandle
  set ({ server :=
          { s.server with
            nextSessionHandle := s.server.nextSessionHandle + 1
            activeSessions := insert sessionHandle s.server.activeSessions }
         connectionSessions := insert sessionHandle s.connectionSessions } : Scope)
  return sessionHandle

/-- `_handle_register_session`. -/
def handleRegisterSession (senderContext payload : Bytes) : Py Scope Bytes := do
  if payload.length ≠ registerSessionPayloadSize then
    return ← buildEncapsulationResponse commandRegisterSession 0 senderContext [] encapStatusIncorrectData
  checkSize 4 payload
  let version := uintAt .little 2 payload 0
  let optionFlags := uintAt .little 2 payload 2
  if version ≠ protocolVersion ∨ optionFlags ≠ 0 then
    return ← buildEncapsulationResponse commandRegisterSession 0 senderContext [] encapStatusIncorrectData
  let sessionHandle ← issueSession
  buildEncapsulationResponse commandRegisterSession sessionHandle senderContext payload encapStatusSuccess

/-- `_unregister_session`. -/
def unregisterSession (sessionHandle : ℕ) : Py Scope Unit :=
  modify fun s =>
    { server := { s.server with activeSessions := s.server.activeSessions.erase sessionHandle }
      connectionSessions := s.connectionSessions.erase sessionHandle }

/-- The payload and the status of the reply to SendRRData. -/
def answerSendRrData (sessionHandle : ℕ) (payload : Bytes) : Py Scope (Bytes × ℕ) := do
  let s : Scope ← get
  -- the set of all connections, not that of this one
  if sessionHandle ∉ s.server.activeSessions then return ([], encapStatusInvalidSession)
  match ← onServer (handleSendRrData payload) with
  | none => return ([], encapStatusIncorrectData)
  | some cipResponse => return (cipResponse, encapStatusSuccess)

/-- The variables `response_session_handle`, `response_payload` and `response_status` of
`handle_frame`. -/
def respond (frame : EncapsulationFrame) : Py Scope (ℕ × Bytes × ℕ) := do
  let s : Scope ← get
  if frame.command = commandListServices then
    return (0, ← buildListServicesPayload, encapStatusSuccess)
  else if frame.command = commandListIdentity then
    return (0, ← buildListIdentityPayload s.server.ip s.server.port s.server.identity, encapStatusSuccess)
  else if frame.command = commandListInterfaces then
    return (0, ← structPack .little [.H 0], encapStatusSuccess)
  else if frame.command = commandSendRrData then
    return (frame.sessionHandle, ← answerSendRrData frame.sessionHandle frame.payload)
  else return (frame.sessionHandle, [], encapStatusInvalidCommand)

/-- `handle_frame`. -/
def handleFrame (frame : EncapsulationFrame) : Py Scope (Option Bytes) := do
  if frame.options ≠ 0 then
    return some (← buildEncapsulationResponse frame.command frame.sessionHandle frame.senderContext []
      encapStatusIncorrectData)
  if frame.command = commandRegisterSession then
    return some (← handleRegisterSession frame.senderContext frame.payload)
  if frame.command = commandUnregisterSession then
    unregisterSession frame.sessionHandle
    return none
  let (sessionHandle, payload, status) ← respond frame
  return some (← buildEncapsulationResponse frame.command sessionHandle frame.senderContext payload status)

end Cursus.Enip
