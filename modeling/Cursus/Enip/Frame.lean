/-
What `handle_frame` does with one frame. A frame issues a session, ends one, has a CIP request
executed, or is answered from a server that it leaves alone.
-/
import Cursus.Enip.Requests

namespace Cursus.Enip

open Cursus.Python

/-! ## Replies -/

/-- The fields of the encapsulation header of a reply. -/
def encapLength (reply : Bytes) : ℕ := uintAt .little 2 reply 2

def encapSession (reply : Bytes) : ℕ := uintAt .little 4 reply 4

def encapStatus (reply : Bytes) : ℕ := uintAt .little 4 reply 8

/-- The header fields of a reply, and what stands behind its header. -/
structure IsReply (sessionHandle : ℕ) (payload : Bytes) (status : ℕ) (reply : Bytes) : Prop where
  length_eq : encapLength reply = payload.length
  session_eq : encapSession reply = sessionHandle
  status_eq : encapStatus reply = status
  size_eq : reply.length = 24 + payload.length
  payload_eq : reply.drop 24 = payload

section Reply

variable {command sessionHandle status : ℕ} {senderContext payload reply : Bytes}

/-- The fields of a reply are the arguments it was built from. -/
theorem isReply_of_build (h : buildEncapsulationResponse command sessionHandle senderContext payload status = .ok reply) :
    IsReply sessionHandle payload status reply := by
  obtain ⟨header, hpack, hreply⟩ := bind_eq_ok h
  cases hreply
  obtain ⟨hfits, rfl⟩ := structPack_eq_ok hpack
  have hlen := length_structRaw .little
    [.H command, .H payload.length, .I sessionHandle, .I status, .str 8 senderContext, .I 0]
  -- the first three fields are read where the widths before them end
  refine ⟨?_, ?_, ?_, ?_, ?_⟩
  · exact uintAt_structRaw .little [.H command] [.I sessionHandle, .I status, .str 8 senderContext, .I 0]
      (hfits _ (by simp)) payload
  · exact uintAt_structRaw .little [.H command, .H payload.length] [.I status, .str 8 senderContext, .I 0]
      (hfits _ (by simp)) payload
  · exact uintAt_structRaw .little [.H command, .H payload.length, .I sessionHandle] [.str 8 senderContext, .I 0]
      (hfits _ (by simp)) payload
  · rw [List.length_append, hlen]
    rfl
  · exact List.drop_left' hlen

theorem isReply_of_map
    (h : (buildEncapsulationResponse command sessionHandle senderContext payload status).map some = .ok (some reply)) :
    IsReply sessionHandle payload status reply := by
  obtain ⟨reply', hbuild, heq⟩ := map_some_eq_ok h
  cases heq
  exact isReply_of_build hbuild

variable (senderContext) in
theorem exists_buildEncapsulationResponse (hcommand : command < 256 ^ 2) (hhandle : sessionHandle < 256 ^ 4)
    (hstatus : status < 256 ^ 4) (hpayload : payload.length < 256 ^ 2) :
    ∃ reply, buildEncapsulationResponse command sessionHandle senderContext payload status = .ok reply := by
  have hfits : ∀ f ∈ [Field.H command, .H payload.length, .I sessionHandle, .I status, .str 8 senderContext, .I 0],
      f.Fits := by
    simp only [List.forall_mem_cons]
    refine ⟨⟨?_, ?_⟩, ⟨?_, ?_⟩, ⟨?_, ?_⟩, ⟨?_, ?_⟩, trivial, ⟨?_, ?_⟩, nofun⟩ <;> omega
  unfold buildEncapsulationResponse
  rw [structPack_of_fits hfits]
  exact ⟨_, rfl⟩

end Reply

/-! ## Kinds of frames -/

namespace EncapsulationFrame

/-- The frame is a RegisterSession that issues a session. -/
def Registers (f : EncapsulationFrame) : Prop :=
  f.options = 0 ∧ f.command = commandRegisterSession ∧ f.payload.length = registerSessionPayloadSize ∧
    uintAt .little 2 f.payload 0 = protocolVersion ∧ uintAt .little 2 f.payload 2 = 0

/-- The frame is an UnregisterSession that is processed. -/
def Unregisters (f : EncapsulationFrame) : Prop := f.options = 0 ∧ f.command = commandUnregisterSession

/-- The frame is a SendRRData that is processed. -/
def SendsRrData (f : EncapsulationFrame) : Prop := f.options = 0 ∧ f.command = commandSendRrData

instance : DecidablePred Registers := fun _ => inferInstanceAs (Decidable (_ ∧ _))

instance : DecidablePred Unregisters := fun _ => inferInstanceAs (Decidable (_ ∧ _))

instance : DecidablePred SendsRrData := fun _ => inferInstanceAs (Decidable (_ ∧ _))

variable {f : EncapsulationFrame}

theorem Registers.not_unregisters (h : f.Registers) : ¬ f.Unregisters := by
  rintro ⟨-, hc⟩
  rw [h.2.1] at hc
  cases hc

theorem Registers.not_sendsRrData (h : f.Registers) : ¬ f.SendsRrData := by
  rintro ⟨-, hc⟩
  rw [h.2.1] at hc
  cases hc

theorem Unregisters.not_sendsRrData (h : f.Unregisters) : ¬ f.SendsRrData := by
  rintro ⟨-, hc⟩
  rw [h.2] at hc
  cases hc

end EncapsulationFrame

namespace Scope

/-- A session is issued to the connection. -/
def issue (s : Scope) : Scope where
  server :=
    { s.server with
      nextSessionHandle := s.server.nextSessionHandle + 1
      activeSessions := insert s.server.nextSessionHandle s.server.activeSessions }
  connectionSessions := insert s.server.nextSessionHandle s.connectionSessions

/-- The connection ends a session. -/
def endSession (s : Scope) (sessionHandle : ℕ) : Scope where
  server := { s.server with activeSessions := s.server.activeSessions.erase sessionHandle }
  connectionSessions := s.connectionSessions.erase sessionHandle

end Scope

/-! ## Frames that change the server -/

theorem handleFrame_of_registers {f : EncapsulationFrame} (h : f.Registers) (s : Scope) :
    handleFrame f s =
      ((buildEncapsulationResponse f.command s.server.nextSessionHandle f.senderContext f.payload
        encapStatusSuccess).map some, s.issue) := by
  obtain ⟨hoptions, hcommand, hlen, hversion, hflags⟩ := h
  have hcheck : checkSize 4 f.payload = .ok () := if_pos hlen
  have hregister : handleRegisterSession f.senderContext f.payload s =
      (buildEncapsulationResponse commandRegisterSession s.server.nextSessionHandle f.senderContext f.payload
        encapStatusSuccess, s.issue) := by
    unfold handleRegisterSession
    rw [if_neg (not_not_intro hlen), hcheck, Py.lift_ok_bind, if_neg (by simp [hversion, hflags])]
    rfl
  unfold handleFrame
  rw [if_neg (not_not_intro hoptions), if_pos hcommand, Py.bind_pure_apply, hregister, hcommand]

theorem handleFrame_of_unregisters {f : EncapsulationFrame} (h : f.Unregisters) (s : Scope) :
    handleFrame f s = (.ok none, s.endSession f.sessionHandle) := by
  unfold handleFrame
  rw [if_neg (not_not_intro h.1), if_neg (by rw [h.2]; decide), if_pos h.2]
  rfl

/-! ## Frames that are answered -/

theorem onServer_apply {α : Type} {x : Py EnipServer α} {s : Scope} {r : Except PyError α} {server : EnipServer}
    (h : x s.server = (r, server)) : onServer x s = (r, { s with server := server }) := by
  unfold onServer
  rw [h]

/-- A frame that neither registers nor unregisters is answered with what `respond` returns. -/
theorem handleFrame_of_respond {f : EncapsulationFrame} (hoptions : f.options = 0)
    (hregister : f.command ≠ commandRegisterSession) (hunregister : f.command ≠ commandUnregisterSession)
    {s s' : Scope} {r : Except PyError (ℕ × Bytes × ℕ)} (h : respond f s = (r, s')) :
    handleFrame f s =
      (r >>= fun v => (buildEncapsulationResponse f.command v.1 f.senderContext v.2.1 v.2.2).map some, s') := by
  unfold handleFrame
  rw [if_neg (not_not_intro hoptions), if_neg hregister, if_neg hunregister]
  cases r with
  | error e => exact Py.bind_of_error h
  | ok v =>
    obtain ⟨sessionHandle, payload, status⟩ := v
    apply (Py.bind_of_ok h).trans
    exact Py.lift_bind_pure _ some s'

section SendRrData

variable {f : EncapsulationFrame}

theorem respond_of_sendsRrData (h : f.SendsRrData) (s : Scope) :
    respond f s =
      ((answerSendRrData f.sessionHandle f.payload s).1.map (f.sessionHandle, ·),
        (answerSendRrData f.sessionHandle f.payload s).2) := by
  unfold respond
  rw [Py.get_bind, if_neg (by rw [h.2]; decide), if_neg (by rw [h.2]; decide), if_neg (by rw [h.2]; decide),
    if_pos h.2]
  rcases hanswer : answerSendRrData f.sessionHandle f.payload s with ⟨e | v, s'⟩
  · exact Py.bind_of_error hanswer
  · exact Py.bind_of_ok hanswer

/-- SendRRData outside a session is refused. -/
theorem handleFrame_of_inactive (h : f.SendsRrData) {s : Scope} (hs : f.sessionHandle ∉ s.server.activeSessions) :
    handleFrame f s =
      ((buildEncapsulationResponse f.command f.sessionHandle f.senderContext [] encapStatusInvalidSession).map some,
        s) := by
  have hanswer : answerSendRrData f.sessionHandle f.payload s = (.ok ([], encapStatusInvalidSession), s) := by
    unfold answerSendRrData
    rw [Py.get_bind, if_pos hs]
    rfl
  have hrespond := respond_of_sendsRrData h s
  rw [hanswer] at hrespond
  exact handleFrame_of_respond h.1 (by rw [h.2]; decide) (by rw [h.2]; decide) hrespond

/-- The reply to SendRRData in a session, from what `_handle_send_rr_data` returns. -/
def sendRrDataReply (f : EncapsulationFrame) (cipResponse : Option Bytes) : Except PyError Bytes :=
  match cipResponse with
  | none => buildEncapsulationResponse f.command f.sessionHandle f.senderContext [] encapStatusIncorrectData
  | some payload => buildEncapsulationResponse f.command f.sessionHandle f.senderContext payload encapStatusSuccess

/-- SendRRData in a session is executed. -/
theorem handleFrame_of_active (h : f.SendsRrData) {s : Scope} (hs : f.sessionHandle ∈ s.server.activeSessions) :
    handleFrame f s =
      ((handleSendRrData f.payload s.server).1 >>= fun cipResponse => (sendRrDataReply f cipResponse).map some,
        { s with server := (handleSendRrData f.payload s.server).2 }) := by
  have hanswer : answerSendRrData f.sessionHandle f.payload s =
      ((handleSendRrData f.payload s.server).1.map fun cipResponse =>
          match cipResponse with
          | none => ([], encapStatusIncorrectData)
          | some payload => (payload, encapStatusSuccess),
        { s with server := (handleSendRrData f.payload s.server).2 }) := by
    unfold answerSendRrData
    rw [Py.get_bind, if_neg (not_not_intro hs)]
    rcases hsend : handleSendRrData f.payload s.server with ⟨e | _ | payload, server⟩
    · exact Py.bind_of_error (onServer_apply hsend)
    · exact Py.bind_of_ok (onServer_apply hsend)
    · exact Py.bind_of_ok (onServer_apply hsend)
  have hrespond := respond_of_sendsRrData h s
  rw [hanswer] at hrespond
  rw [handleFrame_of_respond h.1 (by rw [h.2]; decide) (by rw [h.2]; decide) hrespond]
  rcases (handleSendRrData f.payload s.server).1 with e | _ | payload <;> rfl

end SendRrData

/-- The reply that carries a CIP response. -/
def carryReply (f : EncapsulationFrame) (timeout : ℕ) (cipResponse : Bytes) : Except PyError (Option Bytes) :=
  (packRrData timeout cipResponse).map some >>= fun response => (sendRrDataReply f response).map some

/-- The CIP response stands behind 40 octets of the reply. -/
theorem carryReply_eq_ok {f : EncapsulationFrame} {timeout : ℕ} {cipResponse reply : Bytes}
    (h : carryReply f timeout cipResponse = .ok (some reply)) :
    encapStatus reply = encapStatusSuccess ∧ reply.drop 40 = cipResponse := by
  obtain ⟨response, hresponse, hreply⟩ := bind_eq_ok h
  obtain ⟨payload, hpack, rfl⟩ := map_some_eq_ok hresponse
  have hr := isReply_of_map hreply
  obtain ⟨-, hcip, -⟩ := packRrData_eq_ok hpack
  refine ⟨hr.status_eq, ?_⟩
  rw [← hr.payload_eq, List.drop_drop] at hcip
  exact hcip

theorem exists_carryReply {f : EncapsulationFrame} (hcommand : f.command < 256 ^ 2)
    (hhandle : f.sessionHandle < 256 ^ 4) {timeout : ℕ} (htimeout : timeout < 256 ^ 2) {cipResponse : Bytes}
    (hlen : 16 + cipResponse.length < 256 ^ 2) : ∃ reply, carryReply f timeout cipResponse = .ok (some reply) := by
  obtain ⟨payload, hpack⟩ := exists_packRrData htimeout (show cipResponse.length < 256 ^ 2 by omega)
  rw [← (packRrData_eq_ok hpack).1] at hlen
  obtain ⟨reply, hbuild⟩ := exists_buildEncapsulationResponse f.senderContext hcommand hhandle
    (show encapStatusSuccess < 256 ^ 4 by simp) hlen
  refine ⟨reply, ?_⟩
  unfold carryReply
  rw [hpack]
  exact congrArg (Except.map some) hbuild

/-! ## Frames that touch no session -/

/-- The payload of a reply that reads no session and no assembly. -/
def QuietPayload (s : EnipServer) (payload : Except PyError Bytes) : Prop :=
  payload = .ok [] ∨ payload = buildListServicesPayload ∨
    payload = buildListIdentityPayload s.ip s.port s.identity ∨ payload = structPack .little [.H 0]

theorem handleFrame_of_options {f : EncapsulationFrame} (h : f.options ≠ 0) (s : Scope) :
    handleFrame f s =
      ((buildEncapsulationResponse f.command f.sessionHandle f.senderContext [] encapStatusIncorrectData).map some,
        s) := by
  unfold handleFrame
  rw [if_pos h, Py.lift_bind_pure]

/-- A registration with another payload is refused. -/
theorem handleFrame_of_not_registers {f : EncapsulationFrame} (hoptions : f.options = 0)
    (hregister : f.command = commandRegisterSession) (hr : ¬ f.Registers) (s : Scope) :
    handleFrame f s =
      ((buildEncapsulationResponse f.command 0 f.senderContext [] encapStatusIncorrectData).map some, s) := by
  have hrefuse : handleRegisterSession f.senderContext f.payload s =
      (buildEncapsulationResponse commandRegisterSession 0 f.senderContext [] encapStatusIncorrectData, s) := by
    unfold handleRegisterSession
    by_cases hlen : f.payload.length = registerSessionPayloadSize
    swap
    · rw [if_pos hlen]
      rfl
    have hcheck : checkSize 4 f.payload = .ok () := if_pos hlen
    have hfields : uintAt .little 2 f.payload 0 ≠ protocolVersion ∨ uintAt .little 2 f.payload 2 ≠ 0 := by
      by_contra hnot
      push Not at hnot
      exact hr ⟨hoptions, hregister, hlen, hnot.1, hnot.2⟩
    rw [if_neg (not_not_intro hlen), hcheck, Py.lift_ok_bind, if_pos hfields]
    rfl
  unfold handleFrame
  rw [if_neg (not_not_intro hoptions), if_pos hregister, Py.bind_pure_apply, hrefuse, hregister]

/-- A command that is none of the three is answered with a list, an error status, or nothing but a
header. -/
theorem handleFrame_of_quiet {f : EncapsulationFrame} (hoptions : f.options = 0) (hr : ¬ f.Registers)
    (hunregister : f.command ≠ commandUnregisterSession) (hsend : f.command ≠ commandSendRrData) (s : Scope) :
    ∃ sessionHandle ≤ f.sessionHandle, ∃ status < 4, ∃ payload, QuietPayload s.server payload ∧
      handleFrame f s =
        (payload >>= fun payload =>
          (buildEncapsulationResponse f.command sessionHandle f.senderContext payload status).map some, s) := by
  by_cases hregister : f.command = commandRegisterSession
  · refine ⟨0, Nat.zero_le _, encapStatusIncorrectData, by simp, .ok [], .inl rfl, ?_⟩
    rw [handleFrame_of_not_registers hoptions hregister hr]
    rfl
  -- the three lists, and a command that is not known
  have hlist : ∀ payload, QuietPayload s.server payload →
      respond f s = (payload.map fun payload => (0, payload, encapStatusSuccess), s) →
      ∃ sessionHandle ≤ f.sessionHandle, ∃ status < 4, ∃ payload, QuietPayload s.server payload ∧
        handleFrame f s =
          (payload >>= fun payload =>
            (buildEncapsulationResponse f.command sessionHandle f.senderContext payload status).map some, s) := by
    intro payload hquiet hrespond
    refine ⟨0, Nat.zero_le _, encapStatusSuccess, by simp, payload, hquiet, ?_⟩
    rw [handleFrame_of_respond hoptions hregister hunregister hrespond]
    cases payload <;> rfl
  by_cases hservices : f.command = commandListServices
  · apply hlist _ (.inr (.inl rfl))
    unfold respond
    rw [Py.get_bind, if_pos hservices, Py.lift_bind_pure]
  by_cases hidentity : f.command = commandListIdentity
  · apply hlist _ (.inr (.inr (.inl rfl)))
    unfold respond
    rw [Py.get_bind, if_neg hservices, if_pos hidentity, Py.lift_bind_pure]
  by_cases hinterfaces : f.command = commandListInterfaces
  · apply hlist _ (.inr (.inr (.inr rfl)))
    unfold respond
    rw [Py.get_bind, if_neg hservices, if_neg hidentity, if_pos hinterfaces, Py.lift_bind_pure]
  have hrespond : respond f s = (.ok (f.sessionHandle, [], encapStatusInvalidCommand), s) := by
    unfold respond
    rw [Py.get_bind, if_neg hservices, if_neg hidentity, if_neg hinterfaces, if_neg hsend]
    rfl
  refine ⟨f.sessionHandle, le_rfl, encapStatusInvalidCommand, by simp, .ok [], .inl rfl, ?_⟩
  rw [handleFrame_of_respond hoptions hregister hunregister hrespond]
  rfl

/-! ## All frames -/

/-- Why a frame is answered with an error status, and nothing else happens. -/
inductive Fails (f : EncapsulationFrame) (s : Scope) : ℕ → Prop
  | options : f.options ≠ 0 → Fails f s encapStatusIncorrectData
  | session : f.SendsRrData → f.sessionHandle ∉ s.server.activeSessions → Fails f s encapStatusInvalidSession
  | items : f.SendsRrData → f.sessionHandle ∈ s.server.activeSessions →
      (∀ timeout cipRequest, ¬ Carries f.payload timeout cipRequest) → Fails f s encapStatusIncorrectData

theorem Fails.status_ne {f : EncapsulationFrame} {s : Scope} {status : ℕ} (h : Fails f s status) :
    status ≠ encapStatusSuccess := by
  cases h <;> decide

theorem Fails.status_lt {f : EncapsulationFrame} {s : Scope} {status : ℕ} (h : Fails f s status) :
    status < 256 ^ 4 := by
  cases h <;> decide

theorem Fails.not_registers {f : EncapsulationFrame} {s : Scope} {status : ℕ} (h : Fails f s status) :
    ¬ f.Registers := by
  intro hr
  cases h with
  | options hoptions => exact hoptions hr.1
  | session hs => exact hr.not_sendsRrData hs
  | items hs => exact hr.not_sendsRrData hs

/-- What a call of `handle_frame` returns and leaves. -/
inductive FrameStep (f : EncapsulationFrame) (s : Scope) : Except PyError (Option Bytes) × Scope → Prop
  | registered : f.Registers →
      FrameStep f s ((buildEncapsulationResponse f.command s.server.nextSessionHandle f.senderContext f.payload
        encapStatusSuccess).map some, s.issue)
  | unregistered : f.Unregisters → FrameStep f s (.ok none, s.endSession f.sessionHandle)
  | written {inst timeout : ℕ} {data : Bytes} : f.SendsRrData → f.sessionHandle ∈ s.server.activeSessions →
      Writes f.payload inst data → s.server.assemblies.lookup (inst : ℤ) ≠ none → timeout < 256 ^ 2 →
      FrameStep f s (carryReply f timeout (cipReply 0x10 cipStatusSuccess []),
        { s with server := setAssemblyData inst data s.server })
  | answered {timeout : ℕ} {outcome : Except PyError Bytes} : f.SendsRrData →
      f.sessionHandle ∈ s.server.activeSessions → Unchanged s.server outcome → timeout < 256 ^ 2 →
      FrameStep f s (outcome >>= carryReply f timeout, s)
  | failed {status : ℕ} : Fails f s status →
      FrameStep f s
        ((buildEncapsulationResponse f.command f.sessionHandle f.senderContext [] status).map some, s)
  | quiet {sessionHandle status : ℕ} {payload : Except PyError Bytes} : ¬ f.Registers → ¬ f.Unregisters →
      f.command ≠ commandSendRrData → sessionHandle ≤ f.sessionHandle → status < 4 →
      QuietPayload s.server payload →
      FrameStep f s
        (payload >>= fun payload =>
          (buildEncapsulationResponse f.command sessionHandle f.senderContext payload status).map some, s)

/-- What the execution of a SendRRData returns and leaves, whatever has become of its session. -/
inductive ExecuteStep (f : EncapsulationFrame) (s : Scope) : Except PyError (Option Bytes) × Scope → Prop
  | written {inst timeout : ℕ} {data : Bytes} : Writes f.payload inst data →
      s.server.assemblies.lookup (inst : ℤ) ≠ none → timeout < 256 ^ 2 →
      ExecuteStep f s (carryReply f timeout (cipReply 0x10 cipStatusSuccess []),
        { s with server := setAssemblyData inst data s.server })
  | answered {timeout : ℕ} {outcome : Except PyError Bytes} : Unchanged s.server outcome → timeout < 256 ^ 2 →
      ExecuteStep f s (outcome >>= carryReply f timeout, s)
  | failed : (∀ timeout cipRequest, ¬ Carries f.payload timeout cipRequest) →
      ExecuteStep f s
        ((buildEncapsulationResponse f.command f.sessionHandle f.senderContext [] encapStatusIncorrectData).map some,
          s)

theorem executeStep (f : EncapsulationFrame) (s : Scope) :
    ExecuteStep f s
      ((handleSendRrData f.payload s.server).1 >>= fun cipResponse => (sendRrDataReply f cipResponse).map some,
        { s with server := (handleSendRrData f.payload s.server).2 }) := by
  rcases handleSendRrData_cases f.payload s.server with
    ⟨inst, data, hwrites, hlookup, timeout, htimeout, h⟩ | ⟨hcarries, h⟩ | ⟨outcome, hunchanged, timeout, htimeout, h⟩
  · rw [h]
    exact .written hwrites hlookup htimeout
  · rw [h]
    exact .failed hcarries
  · rw [h]
    have hreply := ExecuteStep.answered (f := f) hunchanged htimeout
    cases outcome <;> exact hreply

theorem ExecuteStep.frameStep {f : EncapsulationFrame} {s : Scope} {result : Except PyError (Option Bytes) × Scope}
    (h : ExecuteStep f s result) (hs : f.SendsRrData) (hactive : f.sessionHandle ∈ s.server.activeSessions) :
    FrameStep f s result := by
  cases h with
  | written hwrites hlookup htimeout => exact .written hs hactive hwrites hlookup htimeout
  | answered hunchanged htimeout => exact .answered hs hactive hunchanged htimeout
  | failed hcarries => exact .failed (.items hs hactive hcarries)

/-- Every call is one of these. -/
theorem handleFrame_cases (f : EncapsulationFrame) (s : Scope) : FrameStep f s (handleFrame f s) := by
  by_cases hoptions : f.options = 0
  swap
  · rw [handleFrame_of_options hoptions]
    exact .failed (.options hoptions)
  by_cases hr : f.Registers
  · rw [handleFrame_of_registers hr]
    exact .registered hr
  by_cases hcommand : f.command = commandUnregisterSession
  · have hu : f.Unregisters := ⟨hoptions, hcommand⟩
    rw [handleFrame_of_unregisters hu]
    exact .unregistered hu
  by_cases hsend : f.command = commandSendRrData
  swap
  · obtain ⟨sessionHandle, hhandle, status, hstatus, payload, hquiet, h⟩ :=
      handleFrame_of_quiet hoptions hr hcommand hsend s
    rw [h]
    exact .quiet hr (fun hu => hcommand hu.2) hsend hhandle hstatus hquiet
  have hs : f.SendsRrData := ⟨hoptions, hsend⟩
  by_cases hactive : f.sessionHandle ∈ s.server.activeSessions
  swap
  · rw [handleFrame_of_inactive hs hactive]
    exact .failed (.session hs hactive)
  rw [handleFrame_of_active hs hactive]
  exact (executeStep f s).frameStep hs hactive

/-- A call of `handle_frame` that neither issues nor ends a session. -/
theorem handleFrame_idle {f : EncapsulationFrame} (hr : ¬ f.Registers) (hu : ¬ f.Unregisters) (s : Scope) :
    ∃ assemblies, (handleFrame f s).2 = { s with server := { s.server with assemblies := assemblies } } := by
  have hcases := handleFrame_cases f s
  generalize handleFrame f s = result at hcases ⊢
  cases hcases with
  | registered h => exact absurd h hr
  | unregistered h => exact absurd h hu
  | written => exact ⟨_, rfl⟩
  | answered => exact ⟨s.server.assemblies, rfl⟩
  | failed => exact ⟨s.server.assemblies, rfl⟩
  | quiet => exact ⟨s.server.assemblies, rfl⟩

end Cursus.Enip
