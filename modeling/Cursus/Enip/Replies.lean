/-
The replies of a connection. Whatever the other connections do in between, what a connection is sent
decodes to one frame for each of its requests other than UnregisterSession, in the order of the
requests, with the command and the sender context of the request.
-/
import Cursus.Enip.Threads

namespace Cursus.Enip

open Cursus.Python Cursus.Run Cursus.Stream

/-! ## One reply -/

/-- The three commands that list something. -/
def listCommands : List ℕ := [commandListServices, commandListIdentity, commandListInterfaces]

/-- The session handle of the reply to a frame that was handled between two states. -/
inductive ReplyHandle (f : EncapsulationFrame) (before after : Scope) : ℕ → Prop
  | listed : f.options = 0 → f.command ∈ listCommands → ReplyHandle f before after 0
  | refused : f.options = 0 → f.command = commandRegisterSession → ¬ f.Registers → ReplyHandle f before after 0
  | issued {h : ℕ} : f.Registers → h ∉ before.server.activeSessions → h ∈ after.server.activeSessions →
      h ∈ after.connectionSessions → ReplyHandle f before after h
  | own : f.options ≠ 0 ∨ f.command ∉ listCommands ∧ f.command ≠ commandRegisterSession →
      ReplyHandle f before after f.sessionHandle

/-- A frame that is no UnregisterSession, and the states around the step that ended its call. -/
structure Request where
  frame : WireFrame
  before : Scope
  after : Scope

/-- The frame is the reply to the request. -/
structure Answers (request : Request) (reply : EncapsulationFrame) : Prop where
  command_eq : reply.command = request.frame.command
  context_eq : reply.senderContext = request.frame.senderContext
  options_eq : reply.options = 0
  handle : ReplyHandle request.frame.toEncapsulationFrame request.before request.after reply.sessionHandle

/-- What `_build_encapsulation_response` builds is a frame, with these fields. -/
theorem frameOf_build {command sessionHandle status : ℕ} {senderContext payload reply : Bytes}
    (hcontext : senderContext.length = 8)
    (h : buildEncapsulationResponse command sessionHandle senderContext payload status = .ok reply) :
    framing.IsFrame reply ∧ frameOf reply = ⟨command, sessionHandle, senderContext, 0, payload⟩ := by
  have hr := isReply_of_build h
  obtain ⟨header, hpack, hreply⟩ := bind_eq_ok h
  cases hreply
  obtain ⟨hfits, rfl⟩ := structPack_eq_ok hpack
  let fields : List Field := [.H command, .H payload.length, .I sessionHandle, .I status, .str 8 senderContext, .I 0]
  have hcommand : uintAt .little 2 (structRaw .little fields ++ payload) 0 = command :=
    uintAt_structRaw .little [] [.H payload.length, .I sessionHandle, .I status, .str 8 senderContext, .I 0]
      (hfits _ (by simp)) payload
  have hoptions : uintAt .little 4 (structRaw .little fields ++ payload) 20 = 0 :=
    uintAt_structRaw .little [.H command, .H payload.length, .I sessionHandle, .I status, .str 8 senderContext] []
      (hfits _ (by simp)) payload
  have hsession : uintAt .little 4 (structRaw .little fields ++ payload) 4 = sessionHandle := hr.session_eq
  have hslice : slice (structRaw .little fields ++ payload) 12 20 = senderContext :=
    slice_structRaw .little [.H command, .H payload.length, .I sessionHandle, .I status] [.I 0] hcontext payload
  constructor
  · rw [isFrame_iff, hr.size_eq]
    exact congrArg (24 + ·) hr.length_eq.symm
  · unfold frameOf
    rw [hcommand, hoptions, hslice, hr.payload_eq, hsession]

/-! ## The session handle of a reply -/

/-- The lists are answered outside any session, all other commands in that of the frame. -/
theorem sessionHandle_of_respond {f : EncapsulationFrame} {s s' : Scope} {sessionHandle status : ℕ} {payload : Bytes}
    (h : respond f s = (.ok (sessionHandle, payload, status), s')) :
    sessionHandle = if f.command ∈ listCommands then 0 else f.sessionHandle := by
  have hmap : ∀ (handle : ℕ) (x : Except PyError Bytes),
      (x.map fun payload => (handle, payload, encapStatusSuccess), s) = (.ok (sessionHandle, payload, status), s') →
        sessionHandle = handle := by
    intro handle x hx
    cases x with
    | error e => cases hx
    | ok payload => cases hx; rfl
  unfold respond at h
  rw [Py.get_bind] at h
  by_cases hservices : f.command = commandListServices
  · rw [if_pos hservices, Py.lift_bind_pure] at h
    rw [if_pos (by simp [listCommands, hservices])]
    exact hmap 0 _ h
  rw [if_neg hservices] at h
  by_cases hidentity : f.command = commandListIdentity
  · rw [if_pos hidentity, Py.lift_bind_pure] at h
    rw [if_pos (by simp [listCommands, hidentity])]
    exact hmap 0 _ h
  rw [if_neg hidentity] at h
  by_cases hinterfaces : f.command = commandListInterfaces
  · rw [if_pos hinterfaces, Py.lift_bind_pure] at h
    rw [if_pos (by simp [listCommands, hinterfaces])]
    exact hmap 0 _ h
  rw [if_neg hinterfaces] at h
  have hother : f.command ∉ listCommands := by
    intro hmem
    simp only [listCommands, List.mem_cons, List.not_mem_nil, or_false] at hmem
    rcases hmem with hmem | hmem | hmem
    · exact hservices hmem
    · exact hidentity hmem
    · exact hinterfaces hmem
  rw [if_neg hother]
  split_ifs at h with hsend
  · obtain ⟨answer, s'', -, hpure⟩ := Py.bind_eq_ok h
    cases hpure
    rfl
  · cases h
    rfl

/-- The response is built from the command and the sender context of the frame. -/
def Builds (f : EncapsulationFrame) (before after : Scope) (response : Option Bytes) : Prop :=
  ∃ reply sessionHandle payload status, response = some reply ∧ ReplyHandle f before after sessionHandle ∧
    buildEncapsulationResponse f.command sessionHandle f.senderContext payload status = .ok reply

section Handle

variable {f : EncapsulationFrame} {s s' : Scope} {response : Option Bytes}

theorem Builds.of_map {sessionHandle status : ℕ} {payload : Bytes} (hhandle : ReplyHandle f s s' sessionHandle)
    (h : (buildEncapsulationResponse f.command sessionHandle f.senderContext payload status).map some =
      .ok response) : Builds f s s' response := by
  obtain ⟨reply, hbuild, rfl⟩ := map_some_eq_ok h
  exact ⟨reply, _, _, _, rfl, hhandle, hbuild⟩

/-- Every frame but an UnregisterSession is answered. -/
theorem builds_of_handleFrame (hfresh : s.server.nextSessionHandle ∉ s.server.activeSessions)
    (hu : ¬ f.Unregisters) (h : handleFrame f s = (.ok response, s')) : Builds f s s' response := by
  have hfst := congrArg Prod.fst h
  by_cases hoptions : f.options = 0
  swap
  · rw [handleFrame_of_options hoptions] at hfst
    exact .of_map (.own (.inl hoptions)) hfst
  by_cases hr : f.Registers
  · have hsnd := congrArg Prod.snd h
    rw [handleFrame_of_registers hr] at hfst hsnd
    obtain rfl : s.issue = s' := hsnd
    exact .of_map (.issued hr hfresh (Finset.mem_insert_self ..) (Finset.mem_insert_self ..)) hfst
  by_cases hregister : f.command = commandRegisterSession
  · rw [handleFrame_of_not_registers hoptions hregister hr] at hfst
    exact .of_map (.refused hoptions hregister hr) hfst
  have hunregister : f.command ≠ commandUnregisterSession := fun hc => hu ⟨hoptions, hc⟩
  rcases hrespond : respond f s with ⟨e | ⟨sessionHandle, payload, status⟩, s''⟩
  · rw [handleFrame_of_respond hoptions hregister hunregister hrespond] at hfst
    cases hfst
  · rw [handleFrame_of_respond hoptions hregister hunregister hrespond] at hfst
    refine .of_map ?_ hfst
    rw [sessionHandle_of_respond hrespond]
    split_ifs with hlist
    · exact .listed hoptions hlist
    · exact .own (.inr ⟨hlist, hregister⟩)

theorem builds_of_executeSendRrData (hsend : f.SendsRrData) (h : executeSendRrData f s = (.ok response, s')) :
    Builds f s s' response := by
  have hown : f.options ≠ 0 ∨ f.command ∉ listCommands ∧ f.command ≠ commandRegisterSession := by
    right
    rw [hsend.2]
    decide
  have hfst := congrArg Prod.fst h
  rw [executeSendRrData_eq] at hfst
  obtain ⟨cipResponse, -, hreply⟩ := bind_eq_ok hfst
  cases cipResponse with
  | none => exact .of_map (.own hown) hreply
  | some payload => exact .of_map (.own hown) hreply

end Handle

/-! ## One call -/

/-- A reply that is built for a request is a frame and answers it. -/
theorem answers_of_builds (request : Request) {response : Option Bytes}
    (h : Builds request.frame.toEncapsulationFrame request.before request.after response) :
    ∃ reply, sendable response = [reply] ∧ framing.IsFrame reply ∧ Answers request (frameOf reply) := by
  obtain ⟨reply, sessionHandle, payload, status, rfl, hhandle, hbuild⟩ := h
  obtain ⟨hframe, heq⟩ := frameOf_build request.frame.length_senderContext hbuild
  have hne : reply ≠ [] := by
    rintro rfl
    exact absurd hframe.1 (by decide)
  refine ⟨reply, by simp [sendable, hne], hframe, ?_⟩
  rw [heq]
  exact ⟨rfl, rfl, rfl, hhandle⟩

/-! ## What a connection is sent -/

variable {κ : Type} [DecidableEq κ]

/-- The call of the connection that ends in the step. -/
def callOn (c : κ) (x : ThreadStep κ) : Option (Call κ) := x.outcome.filter (·.connection = c)

/-- The request of the connection that the step ends. -/
def requestOn (c : κ) (x : ThreadStep κ) : Option Request :=
  ((callOn c x).filter fun call => ¬ call.frame.Unregisters).map fun call =>
    ⟨call.frame, x.before.scope c, x.after.scope c⟩

/-- What the connection is sent in the step. -/
def sentInStep (c : κ) (x : ThreadStep κ) : List Bytes :=
  match callOn c x with
  | some ⟨_, _, .ok response⟩ => sendable response
  | _ => []

/-- What the connection is sent in the run. -/
def sentOn (c : κ) (ts : List (ThreadStep κ)) : Bytes := (ts.flatMap (sentInStep c)).flatten

/-- No call of the connection raises. -/
def CallsReturn (c : κ) (ts : List (ThreadStep κ)) : Prop :=
  ∀ x ∈ ts, ∀ call, callOn c x = some call → ∃ response, call.outcome = .ok response

/-- The step ends no request of the connection, or it sends one reply. -/
def Answered (c : κ) (x : ThreadStep κ) : Prop :=
  requestOn c x = none ∧ sentInStep c x = [] ∨
    ∃ request reply, requestOn c x = some request ∧ sentInStep c x = [reply] ∧ framing.IsFrame reply ∧
      Answers request (frameOf reply)

theorem callOn_complete (c c' : κ) (before s : Threads κ) (e : Turn κ) (frame : WireFrame)
    (result : Outcome × Scope) :
    callOn c ⟨before, e, (s.complete c' frame result).1, (s.complete c' frame result).2⟩ =
      if c' = c then some ⟨c', frame, result.1⟩ else none := by
  simp [callOn, Threads.complete, Option.filter]

/-- A call that ends with a response which was built for its frame answers it. -/
theorem answered_of_builds {c : κ} {s : Threads κ} {e : Turn κ} {frame : WireFrame} {result : Outcome × Scope}
    {response : Option Bytes} (hu : ¬ frame.Unregisters) (hresponse : result.1 = .ok response)
    (h : Builds frame.toEncapsulationFrame (s.scope c) result.2 response) :
    Answered c ⟨s, e, (s.complete c frame result).1, (s.complete c frame result).2⟩ := by
  have hcall := callOn_complete c c s s e frame result
  rw [if_pos rfl] at hcall
  have hafter : (s.complete c frame result).2.scope c = result.2 := by simp [Threads.scope, Threads.complete]
  obtain ⟨reply, hsend, hframe, hanswers⟩ := answers_of_builds ⟨frame, s.scope c, result.2⟩ h
  right
  refine ⟨⟨frame, s.scope c, result.2⟩, reply, ?_, ?_, hframe, hanswers⟩
  · rw [requestOn, hcall]
    simp [hu, hafter]
  · rw [sentInStep, hcall, hresponse]
    exact hsend

theorem answered_of_callOn_none {c : κ} {x : ThreadStep κ} (h : callOn c x = none) : Answered c x := by
  left
  rw [requestOn, sentInStep, h]
  exact ⟨rfl, rfl⟩

/-- A step whose call on the connection, if it ends one, returns. -/
theorem answered_of_step {c : κ} {s : Threads κ} (hs : s.Counted)
    (htested : ∀ c frame, s.threads c = .tested frame → frame.SendsRrData) (e : Turn κ)
    (hreturns : ∀ call, callOn c ⟨s, e, (Threads.step e s).1, (Threads.step e s).2⟩ = some call →
      ∃ response, call.outcome = .ok response) :
    Answered c ⟨s, e, (Threads.step e s).1, (Threads.step e s).2⟩ := by
  have hfresh : s.server.nextSessionHandle ∉ s.server.activeSessions := fun h => lt_irrefl _ (hs.lt _ h)
  have hcases := Threads.step_cases e s
  generalize Threads.step e s = result at hcases hreturns ⊢
  cases hcases with
  | blocked => exact answered_of_callOn_none rfl
  | tested => exact answered_of_callOn_none rfl
  | @called c' frame hready htest =>
    rw [callOn_complete] at hreturns
    by_cases hc : c' = c
    swap
    · exact answered_of_callOn_none (by rw [callOn_complete, if_neg hc])
    subst hc
    obtain ⟨response, hresponse⟩ := hreturns _ (if_pos rfl)
    by_cases hu : frame.Unregisters
    · left
      rw [requestOn, sentInStep, callOn_complete, if_pos rfl, handleFrame_of_unregisters hu]
      simp [hu, sendable]
    · exact answered_of_builds hu hresponse (builds_of_handleFrame hfresh hu (Prod.ext hresponse rfl))
  | @executed c' frame hexecute =>
    rw [callOn_complete] at hreturns
    by_cases hc : c' = c
    swap
    · exact answered_of_callOn_none (by rw [callOn_complete, if_neg hc])
    subst hc
    obtain ⟨response, hresponse⟩ := hreturns _ (if_pos rfl)
    have hsend := htested c' frame hexecute
    have hu : ¬ frame.Unregisters := fun hu => hu.not_sendsRrData hsend
    exact answered_of_builds hu hresponse (builds_of_executeSendRrData hsend (Prod.ext hresponse rfl))
  | released => exact answered_of_callOn_none rfl
  | stored => exact answered_of_callOn_none rfl

/-! ## The replies of a run -/

theorem forall₂_answers {c : κ} {ts : List (ThreadStep κ)} (h : ∀ x ∈ ts, Answered c x) :
    (∀ reply ∈ ts.flatMap (sentInStep c), framing.IsFrame reply) ∧
    List.Forall₂ (fun request reply => Answers request (frameOf reply)) (ts.filterMap (requestOn c))
      (ts.flatMap (sentInStep c)) := by
  induction ts with
  | nil => exact ⟨nofun, .nil⟩
  | cons x ts ih =>
    rw [List.forall_mem_cons] at h
    obtain ⟨hframes, hanswers⟩ := ih h.2
    rw [List.flatMap_cons]
    rcases h.1 with ⟨hrequest, hsent⟩ | ⟨request, reply, hrequest, hsent, hframe, hanswer⟩
    · rw [hsent, List.filterMap_cons_none hrequest]
      exact ⟨hframes, hanswers⟩
    · rw [hsent, List.filterMap_cons_some hrequest]
      exact ⟨List.forall_mem_cons.2 ⟨hframe, hframes⟩, .cons hanswer hanswers⟩

/-- A frame that the connection takes in the step. -/
def takenOn (c : κ) (x : ThreadStep κ) : Option WireFrame :=
  match x.event with
  | .take c' frame =>
    if c' = c then
      match x.before.threads c with
      | .ready => some frame
      | _ => none
    else none
  | _ => none

/-- The frame whose call has not ended. -/
def Thread.underWay : Thread → List WireFrame
  | .tested frame => [frame]
  | _ => []

theorem underWay_complete (c c' : κ) (s : Threads κ) (frame : WireFrame) (result : Outcome × Scope) :
    ((s.complete c' frame result).2.threads c).underWay = if c' = c then [] else (s.threads c).underWay := by
  by_cases hc : c' = c
  · subst hc
    rcases result with ⟨e | response, scope⟩ <;> simp [Threads.complete, Thread.underWay]
  · simp [Threads.complete, hc, Ne.symm hc]

/-- What a step takes is what it ends and what is then under way, behind what was under way. -/
theorem taken_step (c : κ) (e : Turn κ) (s : Threads κ) :
    (s.threads c).underWay ++ (takenOn c ⟨s, e, (Threads.step e s).1, (Threads.step e s).2⟩).toList =
      ((callOn c ⟨s, e, (Threads.step e s).1, (Threads.step e s).2⟩).map Call.frame).toList ++
        ((Threads.step e s).2.threads c).underWay := by
  have hcases := Threads.step_cases e s
  generalize Threads.step e s = result at hcases ⊢
  cases hcases with
  | @blocked e hb =>
    cases e with
    | take c' frame =>
      have htaken : takenOn c ⟨s, .take c' frame, none, s⟩ = none := by
        by_cases hc : c' = c
        · subst hc
          simp only [takenOn, if_pos]
          split
          · rename_i hready
            exact absurd hready hb
          · rfl
        · simp [takenOn, hc]
      simp [htaken, callOn]
    | execute c' => simp [takenOn, callOn]
    | release c' => simp [takenOn, callOn]
    | setAssemblyData inst data => simp [takenOn, callOn]
  | @tested c' frame hready =>
    by_cases hc : c' = c
    · subst hc
      simp [takenOn, callOn, hready, Thread.underWay]
    · simp [takenOn, callOn, hc, Ne.symm hc]
  | @called c' frame hready htest =>
    rw [callOn_complete, underWay_complete]
    by_cases hc : c' = c
    · subst hc
      simp [takenOn, hready, Thread.underWay]
    · simp [takenOn, hc]
  | @executed c' frame hexecute =>
    rw [callOn_complete, underWay_complete]
    by_cases hc : c' = c
    · subst hc
      simp [takenOn, hexecute, Thread.underWay]
    · simp [takenOn, hc]
  | @released c' hidle =>
    by_cases hc : c' = c
    · subst hc
      simp [takenOn, callOn, Thread.underWay]
    · simp [takenOn, callOn, Ne.symm hc]
  | stored => simp [takenOn, callOn]

theorem filterMap_singleton {α β : Type} (f : α → Option β) (a : α) : [a].filterMap f = (f a).toList := by
  cases h : f a <;> simp [h]

/-- A connection ends its calls in the order in which it takes its frames. -/
theorem taken_eq (c : κ) (es : List (Turn κ)) {s : Threads κ} (hs : (s.threads c).underWay = []) :
    (transitions Threads.step es s).filterMap (takenOn c) =
      ((transitions Threads.step es s).filterMap (callOn c)).map Call.frame ++
        ((final Threads.step es s).threads c).underWay := by
  refine transitions_invariant (I := fun t (s : Threads κ) => t.filterMap (takenOn c) =
    (t.filterMap (callOn c)).map Call.frame ++ (s.threads c).underWay) hs.symm ?_ es
  intro t e s ht
  have hstep := taken_step c e s
  rw [List.filterMap_append, List.filterMap_append, List.map_append, ht, List.append_assoc, List.append_assoc,
    filterMap_singleton, filterMap_singleton, hstep, Option.toList_map]

/-! ## What `handle` sends -/

theorem sentInStep_complete {c : κ} (before s : Threads κ) (e : Turn κ) (frame : WireFrame)
    (result : Outcome × Scope) :
    sentInStep c ⟨before, e, (s.complete c frame result).1, (s.complete c frame result).2⟩ =
      replies [(frame.toEncapsulationFrame, result.1)] := by
  rw [sentInStep, callOn_complete, if_pos rfl]
  rcases result with ⟨e | response, scope⟩ <;> simp [replies]

/-- A thread that nobody interrupts sends the reply to its frame. -/
theorem sent_take_execute {c : κ} {s : Threads κ} (hready : s.threads c = .ready) (frame : WireFrame) :
    (transitions Threads.step [.take c frame, .execute c] s).flatMap (sentInStep c) =
      replies [(frame.toEncapsulationFrame, (handleFrame frame.toEncapsulationFrame (s.scope c)).1)] := by
  have hidle : ∀ (s : Threads κ) (e : Turn κ) (s' : Threads κ), sentInStep c ⟨s, e, none, s'⟩ = [] :=
    fun _ _ _ => rfl
  rw [transitions_cons, transitions_cons, transitions_nil, List.flatMap_cons, List.flatMap_cons, List.flatMap_nil,
    List.append_nil]
  rcases Threads.take_execute hready frame with ⟨htake, hexecute⟩ | ⟨htake, hexecute⟩
  · rw [htake, hidle, List.nil_append, hexecute, sentInStep_complete]
  · rw [hexecute, hidle, List.append_nil, htake, sentInStep_complete]

/-- The calls of one connection are turns of its thread, which send the same replies. -/
theorem exists_turns_of_calls {c : κ} {s : Threads κ} (hready : s.threads c = .ready) {frames : List WireFrame}
    {calls : List (EncapsulationFrame × Outcome)} {scope : Scope}
    (h : Calls (s.scope c) (frames.map WireFrame.toEncapsulationFrame) calls scope) :
    ∃ turns, (transitions Threads.step turns s).flatMap (sentInStep c) = replies calls := by
  induction frames generalizing s calls with
  | nil =>
    cases h
    exact ⟨[], rfl⟩
  | cons frame frames ih =>
    have hsent := sent_take_execute hready frame
    have hfinal := Threads.final_take_execute hready frame
    cases h with
    | @returned _ s' _ _ _ response calls hframe hcalls =>
      rw [hframe] at hsent hfinal
      have hready' : (final Threads.step [.take c frame, .execute c] s).threads c = .ready := by
        rw [hfinal]
        simp [Threads.complete]
      have hscope : (final Threads.step [.take c frame, .execute c] s).scope c = s' := by
        rw [hfinal]
        simp [Threads.complete, Threads.scope]
      rw [← hscope] at hcalls
      obtain ⟨turns, hturns⟩ := ih hready' hcalls
      refine ⟨[.take c frame, .execute c] ++ turns, ?_⟩
      rw [transitions_append, List.flatMap_append, hsent, hturns]
      simp [replies]
    | @raised _ s' _ _ e hframe =>
      rw [hframe] at hsent
      exact ⟨_, hsent⟩

/-- What `handle` sends for a stream is what some run of its thread sends. -/
theorem exists_turns_of_handle {c : κ} (s : System κ) (hc : s.connections c = ∅) {chunks : List Bytes}
    (hchunks : ∀ chunk ∈ chunks, chunk ≠ []) :
    ∃ turns, ((handle chunks s.server).2.sent).flatten =
      sentOn c (transitions Threads.step turns (Threads.ofSystem s)) := by
  have hd := framing.decomposes_split chunks.flatten
  obtain ⟨frames, hframes⟩ := exists_wireFrames hd.isFrame
  obtain ⟨calls, scope, hcalls, hresult⟩ := serves_handle hchunks s.server hd
  have hscope : (⟨s.server, ∅⟩ : Scope) = (Threads.ofSystem s).scope c := by
    rw [Threads.scope, ← hc]
    rfl
  rw [hframes, hscope] at hcalls
  obtain ⟨turns, hturns⟩ := exists_turns_of_calls (c := c) rfl hcalls
  exact ⟨turns, by rw [hresult, sentOn, hturns]⟩

/-! ## Replies in order -/

/-- What the connection is sent is one frame for each of its requests, in order, and nothing else. -/
def RepliesInOrder (c : κ) (ts : List (ThreadStep κ)) : Prop :=
  ∃ replies, framing.Decomposes (sentOn c ts) replies [] ∧
    List.Forall₂ (fun request reply => Answers request (frameOf reply)) (ts.filterMap (requestOn c)) replies

/-- The connection has ended the calls for the frames it took, in order, but for one under way. -/
def CallsInOrder (c : κ) (ts : List (ThreadStep κ)) (s : Threads κ) : Prop :=
  ts.filterMap (takenOn c) = (ts.filterMap (callOn c)).map Call.frame ++ (s.threads c).underWay

/-- A connection whose calls do not raise has its requests answered one by one, whatever the other
connections do. -/
theorem replies_in_order (ip : String) (port : ℤ) (config : EnipServerConfig) (es : List (Turn κ)) (c : κ)
    (hreturns : CallsReturn c (transitions Threads.step es (.init ip port config))) :
    RepliesInOrder c (transitions Threads.step es (.init ip port config)) ∧
      CallsInOrder c (transitions Threads.step es (.init ip port config))
        (final Threads.step es (.init ip port config)) := by
  have hanswered : ∀ x ∈ transitions Threads.step es (.init ip port config), Answered c x := by
    intro x hx
    obtain ⟨before, after, -, heq⟩ := exists_of_mem_transitions Threads.step hx
    have hreturn := hreturns x hx
    rw [heq] at hreturn ⊢
    exact answered_of_step (Threads.counted_run ip port config before)
      (fun _ _ => Threads.sendsRrData_of_tested ip port config before) x.event hreturn
  obtain ⟨hframes, hanswers⟩ := forall₂_answers hanswered
  have hnil : framing.IsIncomplete [] := Framing.isIncomplete_of_not_starts fun h => absurd h.1 (by decide)
  exact ⟨⟨_, ⟨(List.append_nil _).symm, hframes, hnil⟩, hanswers⟩, taken_eq c es rfl⟩

/-- A connection registers a session, writes an assembly and reads it back, while another one registers, and reads the
assembly between the session test of the write and its execution. -/
def twoConnections : List (Turn Bool) :=
  [.take true registerFrame, .take false registerFrame, .take true setAttributeFrame, .take false getAttributeFrame,
    .execute false, .execute true, .take true getAttributeFrame, .execute true]

theorem replies_in_order_twoConnections :
    RepliesInOrder true (transitions Threads.step twoConnections (.init "127.0.0.1" 44818 {})) ∧
      CallsInOrder true (transitions Threads.step twoConnections (.init "127.0.0.1" 44818 {}))
        (final Threads.step twoConnections (.init "127.0.0.1" 44818 {})) := by
  refine replies_in_order "127.0.0.1" 44818 {} twoConnections true fun x hx call hcall => ?_
  have hreturns : ∀ x ∈ transitions Threads.step twoConnections (.init "127.0.0.1" 44818 {}),
      ∀ call ∈ callOn true x, call.outcome.isOk = true := by decide +kernel
  have hok := hreturns x hx call hcall
  cases houtcome : call.outcome with
  | error e =>
    rw [houtcome] at hok
    cases hok
  | ok response => exact ⟨response, rfl⟩

end Cursus.Enip
