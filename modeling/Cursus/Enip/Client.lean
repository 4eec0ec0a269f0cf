/-
A client of `cursus/enip/server.py` on one connection: it registers a session and sends its requests in it, as
`tests/test_enip_server.py` does. Whatever chunks its bytes arrive in, the replies cut out of what it is sent
are those of a memory of the assemblies, one for each request in order.
-/
import Cursus.Enip.Memory
import Cursus.Enip.Replies

namespace Cursus.Enip

open Cursus.Python Cursus.Run Cursus.Stream

/-! ## Requests of a client -/

/-- `_build_frame`. -/
def buildFrame (command sessionHandle : ℕ) (payload senderContext : Bytes) : Bytes :=
  structRaw .little [.H command, .H payload.length, .I sessionHandle, .I 0, .str 8 senderContext, .I 0] ++ payload

/-- `_build_cip_request`. -/
def buildCipRequest (service : ℕ) (path data : Bytes) : Bytes :=
  UInt8.ofNat service :: UInt8.ofNat (path.length / 2) :: (path ++ data)

/-- `_build_send_rr_data`. -/
def buildSendRrData (cipPayload : Bytes) : Bytes :=
  structRaw .little [.I 0, .H 0, .H 2] ++ (structRaw .little [.H cpfItemNullAddress, .H 0] ++
    (structRaw .little [.H cpfItemUnconnectedData, .H cipPayload.length] ++ cipPayload))

/-- A path to the data of an assembly, of whole words. -/
structure AssemblyPath (inst : ℕ) where
  octets : Bytes
  words : ℕ
  names : Names octets assemblyClass inst (some assemblyDataAttribute)
  length_eq : octets.length = words * 2
  words_lt : words < 256

/-- Get_Attribute_Single or Set_Attribute_Single of the data of an assembly. -/
inductive ClientRequest
  | get {inst : ℕ} (path : AssemblyPath inst)
  | set {inst : ℕ} (path : AssemblyPath inst) (data : Bytes)

namespace ClientRequest

/-- What the request asks for. -/
def access : ClientRequest → Access ℤ Bytes
  | @get inst _ => .read inst
  | @set inst _ data => .write inst data

def payload : ClientRequest → Bytes
  | get path => buildSendRrData (buildCipRequest cipServiceGetAttributeSingle path.octets [])
  | set path data => buildSendRrData (buildCipRequest cipServiceSetAttributeSingle path.octets data)

end ClientRequest

/-- The bytes of a client that registers a session and sends requests in it. -/
def clientStream (sessionHandle : ℕ) (senderContext : Bytes) (requests : List ClientRequest) : List Bytes :=
  buildFrame commandRegisterSession 0 [1, 0, 0, 0] senderContext ::
    requests.map fun request => buildFrame commandSendRrData sessionHandle request.payload senderContext

/-! ## What the server reads -/

section Frames

variable {command sessionHandle : ℕ} {payload senderContext : Bytes}

/-- A client frames like the server. -/
theorem build_eq_buildFrame (hcommand : command < 256 ^ 2) (hhandle : sessionHandle < 256 ^ 4)
    (hpayload : payload.length < 256 ^ 2) :
    buildEncapsulationResponse command sessionHandle senderContext payload encapStatusSuccess =
      .ok (buildFrame command sessionHandle payload senderContext) := by
  have hfits : ∀ f ∈ [Field.H command, .H payload.length, .I sessionHandle, .I encapStatusSuccess,
      .str 8 senderContext, .I 0], f.Fits := by
    simp only [List.forall_mem_cons]
    refine ⟨⟨?_, ?_⟩, ⟨?_, ?_⟩, ⟨?_, ?_⟩, by decide, trivial, by decide, nofun⟩ <;> omega
  unfold buildEncapsulationResponse
  rw [structPack_of_fits hfits]
  rfl

theorem frameOf_buildFrame (hcommand : command < 256 ^ 2) (hhandle : sessionHandle < 256 ^ 4)
    (hpayload : payload.length < 256 ^ 2) (hcontext : senderContext.length = 8) :
    framing.IsFrame (buildFrame command sessionHandle payload senderContext) ∧
      frameOf (buildFrame command sessionHandle payload senderContext) =
        ⟨command, sessionHandle, senderContext, 0, payload⟩ :=
  frameOf_build hcontext (build_eq_buildFrame hcommand hhandle hpayload)

/-- The CIP request of a client is the one that the server executes. -/
theorem carries_buildSendRrData {cipPayload : Bytes} (h : cipPayload.length < 256 ^ 2) :
    Carries (buildSendRrData cipPayload) 0 cipPayload := by
  refine ⟨[⟨cpfItemNullAddress, [], by simp, by simp⟩, ⟨cpfItemUnconnectedData, cipPayload, by simp, h⟩], [], by simp,
    by simp, ?_, rfl⟩
  simp [buildSendRrData, structRaw, Field.raw, CpfItem.encode]

theorem asks_buildCipRequest (service : ℕ) {inst : ℕ} (path : AssemblyPath inst) (data : Bytes) :
    Asks (buildCipRequest service path.octets data) (UInt8.ofNat service) assemblyClass inst
      (some assemblyDataAttribute) data := by
  have hwords : path.octets.length / 2 = path.words := by
    rw [path.length_eq, Nat.mul_div_cancel _ (by norm_num)]
  refine ⟨UInt8.ofNat path.words, path.octets, ?_, ?_, path.names⟩
  · rw [buildCipRequest, hwords]
  · rw [path.length_eq, UInt8.toNat_ofNat_of_lt' path.words_lt]

theorem length_buildSendRrData (cipPayload : Bytes) : (buildSendRrData cipPayload).length = 16 + cipPayload.length := by
  simp only [buildSendRrData, List.length_append, length_structRaw, List.map_cons, List.map_nil, List.sum_cons,
    List.sum_nil, Field.width]
  omega

theorem ClientRequest.asksFor (request : ClientRequest) (h : request.payload.length < 256 ^ 2) :
    AsksFor request.payload request.access := by
  have hcarries : ∀ {cipPayload : Bytes}, request.payload = buildSendRrData cipPayload →
      Carries request.payload 0 cipPayload := by
    intro cipPayload hpayload
    rw [hpayload, length_buildSendRrData] at h
    rw [hpayload]
    exact carries_buildSendRrData (by omega)
  cases request with
  | get path => exact .read ⟨0, _, [], hcarries rfl, .inl (asks_buildCipRequest _ path [])⟩
  | set path data => exact .write ⟨0, _, hcarries rfl, asks_buildCipRequest _ path data⟩

end Frames

/-! ## What the server sends -/

section Session

variable {sessionHandle : ℕ} {senderContext : Bytes}

/-- The frame of a request as the server reads it. -/
def requestFrame (sessionHandle : ℕ) (senderContext : Bytes) (request : ClientRequest) : EncapsulationFrame :=
  ⟨commandSendRrData, sessionHandle, senderContext, 0, request.payload⟩

/-- A request in an active session is answered as the memory answers it. -/
theorem handleFrame_request (hhandle : sessionHandle < 256 ^ 4) (hcontext : senderContext.length = 8)
    {request : ClientRequest} (hrequest : request.payload.length < 256 ^ 2) {s : Scope} (hs : s.server.Sendable)
    (hactive : sessionHandle ∈ s.server.activeSessions) :
    ∃ reply s', handleFrame (requestFrame sessionHandle senderContext request) s = (.ok (some reply), s') ∧
      sendable (some reply) = [reply] ∧ framing.IsFrame reply ∧
      answerOf reply = some (memory request.access s.server.cells).1 ∧
      s'.server.cells = (memory request.access s.server.cells).2 ∧ s'.server.Sendable ∧
      s'.server.activeSessions = s.server.activeSessions ∧ s'.connectionSessions = s.connectionSessions := by
  let frame : WireFrame := ⟨requestFrame sessionHandle senderContext request,
    show commandSendRrData < 256 ^ 2 by decide, hhandle, show 0 < 256 ^ 4 by decide, hcontext, hrequest⟩
  have hsend : frame.SendsRrData := ⟨rfl, rfl⟩
  obtain ⟨reply, hreply, hanswer, hcells, hsendable⟩ := executeSendRrData_memory
    (show AsksFor frame.payload request.access from request.asksFor hrequest) hs
  obtain ⟨assemblies, hidle⟩ := executeSendRrData_idle frame.toEncapsulationFrame s
  have hexecute : executeSendRrData frame.toEncapsulationFrame s =
      (.ok (some reply), (executeSendRrData frame.toEncapsulationFrame s).2) := Prod.ext hreply rfl
  obtain ⟨reply', hsent, hframe, -⟩ := answers_of_builds ⟨frame, s, _⟩ (builds_of_executeSendRrData hsend hexecute)
  obtain rfl : reply = reply' := by
    by_cases hempty : reply = []
    · simp [sendable, hempty] at hsent
    · simp only [sendable, Option.filter, decide_not, hempty] at hsent
      exact List.head_eq_of_cons_eq hsent
  refine ⟨reply, _, ?_, hsent, hframe, hanswer, hcells, hsendable, ?_, ?_⟩
  · exact (handleFrame_eq_executeSendRrData hsend hactive).trans hexecute
  · rw [hidle]
  · rw [hidle]

/-- The requests of a session are answered one by one. -/
theorem replies_of_calls (hhandle : sessionHandle < 256 ^ 4) (hcontext : senderContext.length = 8)
    {requests : List ClientRequest} (hrequests : ∀ request ∈ requests, request.payload.length < 256 ^ 2)
    {s s' : Scope} {calls : List (EncapsulationFrame × Outcome)} (hs : s.server.Sendable)
    (hactive : sessionHandle ∈ s.server.activeSessions)
    (h : Calls s (requests.map (requestFrame sessionHandle senderContext)) calls s') :
    (∀ reply ∈ replies calls, framing.IsFrame reply) ∧
      (replies calls).map answerOf =
        (trace memory (requests.map ClientRequest.access) s.server.cells).map (some ∘ Prod.snd) ∧
      s'.server.cells = final memory (requests.map ClientRequest.access) s.server.cells ∧
      s'.server.activeSessions = s.server.activeSessions ∧ s'.connectionSessions = s.connectionSessions := by
  induction requests generalizing s calls with
  | nil =>
    cases h
    exact ⟨nofun, rfl, rfl, rfl, rfl⟩
  | cons request requests ih =>
    rw [List.forall_mem_cons] at hrequests
    obtain ⟨reply, s'', hframe, hsent, hisFrame, hanswer, hcells, hsendable, hsessions, hconnection⟩ :=
      handleFrame_request hhandle hcontext hrequests.1 hs hactive
    cases h with
    | @raised _ _ _ _ e hraised =>
      rw [hframe] at hraised
      cases hraised
    | @returned _ _ _ _ _ response calls hreturned hcalls =>
      rw [hframe] at hreturned
      cases hreturned
      obtain ⟨hframes, hanswers, hfinal, hsessions', hconnection'⟩ :=
        ih hrequests.2 hsendable (hsessions ▸ hactive) hcalls
      have hreplies : replies ((requestFrame sessionHandle senderContext request, .ok (some reply)) :: calls) =
          reply :: replies calls := by
        rw [replies, List.flatMap_cons]
        exact congrArg (· ++ replies calls) hsent
      rw [hreplies, List.forall_mem_cons, List.map_cons, hanswer, hanswers, hfinal, hcells, hsessions', hconnection',
        hsessions, hconnection]
      exact ⟨⟨hisFrame, hframes⟩, rfl, rfl, rfl, rfl⟩

end Session

/-! ## A connection of a client -/

/-- Whatever the chunks its bytes arrive in, a client that registers a session and sends requests in it is sent the
reply to the registration and one reply for each request, with the answer that a memory of the assemblies gives;
behind the connection the assemblies are what the memory holds, and the session is gone. -/
theorem client_uses_memory (s : EnipServer) (hs : s.Sendable) (hhandle : s.nextSessionHandle < 256 ^ 4)
    (senderContext : Bytes) (hcontext : senderContext.length = 8) (requests : List ClientRequest)
    (hrequests : ∀ request ∈ requests, request.payload.length < 256 ^ 2) (chunks : List Bytes)
    (hchunks : ∀ chunk ∈ chunks, chunk ≠ [])
    (hstream : chunks.flatten = (clientStream s.nextSessionHandle senderContext requests).flatten) :
    ∃ registered replies, framing.Decomposes (handle chunks s).2.sent.flatten (registered :: replies) [] ∧
      frameOf registered = ⟨commandRegisterSession, s.nextSessionHandle, senderContext, 0, [1, 0, 0, 0]⟩ ∧
      replies.map answerOf =
        (trace memory (requests.map ClientRequest.access) s.cells).map (some ∘ Prod.snd) ∧
      (handle chunks s).2.server.cells = final memory (requests.map ClientRequest.access) s.cells ∧
      (handle chunks s).2.server.activeSessions = s.activeSessions.erase s.nextSessionHandle := by
  -- what the server reads
  have hregister : framing.IsFrame (buildFrame commandRegisterSession 0 [1, 0, 0, 0] senderContext) ∧
      frameOf (buildFrame commandRegisterSession 0 [1, 0, 0, 0] senderContext) =
        ⟨commandRegisterSession, 0, senderContext, 0, [1, 0, 0, 0]⟩ :=
    frameOf_buildFrame (by decide) (by decide) (by decide) hcontext
  have hrequest : ∀ request ∈ requests, framing.IsFrame (buildFrame commandSendRrData s.nextSessionHandle
      request.payload senderContext) ∧
        frameOf (buildFrame commandSendRrData s.nextSessionHandle request.payload senderContext) =
          requestFrame s.nextSessionHandle senderContext request := fun request hmem =>
    frameOf_buildFrame (by decide) hhandle (hrequests request hmem) hcontext
  have hnil : framing.IsIncomplete [] := Framing.isIncomplete_of_not_starts fun h => absurd h.1 (by decide)
  have hd : framing.Decomposes chunks.flatten (clientStream s.nextSessionHandle senderContext requests) [] := by
    refine ⟨by rw [List.append_nil, hstream], ?_, hnil⟩
    rw [clientStream, List.forall_mem_cons, List.forall_mem_map]
    exact ⟨hregister.1, fun request hmem => (hrequest request hmem).1⟩
  have hframes : (clientStream s.nextSessionHandle senderContext requests).map frameOf =
      ⟨commandRegisterSession, 0, senderContext, 0, [1, 0, 0, 0]⟩ ::
        requests.map (requestFrame s.nextSessionHandle senderContext) := by
    rw [clientStream, List.map_cons, hregister.2, List.map_map]
    exact congrArg _ (List.map_congr_left fun request hmem => (hrequest request hmem).2)
  -- what it answers
  have hregisters : EncapsulationFrame.Registers ⟨commandRegisterSession, 0, senderContext, 0, [1, 0, 0, 0]⟩ :=
    ⟨rfl, rfl, rfl, rfl, rfl⟩
  have hbuild : buildEncapsulationResponse commandRegisterSession s.nextSessionHandle senderContext [1, 0, 0, 0]
      encapStatusSuccess = .ok (buildFrame commandRegisterSession s.nextSessionHandle [1, 0, 0, 0] senderContext) :=
    build_eq_buildFrame (by decide) hhandle (by decide)
  obtain ⟨hreply, hregistered⟩ := frameOf_build hcontext hbuild
  have hcall := handleFrame_of_registers hregisters ⟨s, ∅⟩
  rw [hbuild] at hcall
  obtain ⟨calls, scope, hcalls, hresult⟩ := serves_handle hchunks s hd
  rw [hframes] at hcalls
  cases hcalls with
  | @raised _ _ _ _ e hraised =>
    rw [hcall] at hraised
    cases hraised
  | @returned _ _ _ _ _ response calls hreturned hcalls =>
    rw [hcall] at hreturned
    cases hreturned
    obtain ⟨hisFrame, hanswers, hcells, hsessions, hconnection⟩ := replies_of_calls hhandle hcontext hrequests
      (s := Scope.issue ⟨s, ∅⟩) hs (Finset.mem_insert_self ..) hcalls
    refine ⟨buildFrame commandRegisterSession s.nextSessionHandle [1, 0, 0, 0] senderContext, replies calls, ?_,
      hregistered, hanswers, ?_, ?_⟩
    · rw [hresult]
      refine ⟨by rw [List.append_nil]; rfl, List.forall_mem_cons.2 ⟨hreply, hisFrame⟩, hnil⟩
    · rw [hresult, releaseSessions_eq]
      exact hcells
    · rw [hresult, releaseSessions_eq]
      show scope.server.activeSessions \ scope.connectionSessions = _
      rw [hsessions, hconnection]
      show insert s.nextSessionHandle s.activeSessions \ insert s.nextSessionHandle ∅ = _
      rw [insert_empty_eq, Finset.sdiff_singleton_eq_erase, Finset.erase_insert_eq_erase]

/-- The path to the data of assembly 100. -/
def pathTo100 : AssemblyPath 100 where
  octets := [0x20, 4, 0x24, 0x64, 0x30, 3]
  words := 3
  names := ⟨[.value .cls .byte 4 (by decide), .value .inst .byte 100 (by decide), .value .attr .byte 3 (by decide)],
    rfl, rfl⟩
  length_eq := rfl
  words_lt := by decide

/-- A client writes assembly 100 and reads it back, its bytes in one chunk. -/
theorem client_uses_memory_readBack :
    ∃ registered replies,
      framing.Decomposes (handle [(clientStream 1 (List.replicate 8 7) [.set pathTo100 [1, 2], .get pathTo100]).flatten]
        (.init "127.0.0.1" 44818 {})).2.sent.flatten (registered :: replies) [] ∧
      replies.map answerOf = [some .done, some (.value [1, 2])] := by
  obtain ⟨registered, replies, hsent, -, hanswers, -⟩ := client_uses_memory (.init "127.0.0.1" 44818 {})
    sendable_default (by decide) (List.replicate 8 7) rfl [.set pathTo100 [1, 2], .get pathTo100] (by decide)
    [(clientStream 1 (List.replicate 8 7) [.set pathTo100 [1, 2], .get pathTo100]).flatten] (by decide +kernel)
    (List.append_nil _)
  exact ⟨registered, replies, hsent, hanswers.trans (by decide +kernel)⟩

end Cursus.Enip
