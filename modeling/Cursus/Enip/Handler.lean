/-
`_EnipRequestHandler.handle` of `cursus/enip/server.py`: the frames of a connection are cut out of
whatever chunks the socket returns, and `handle_frame` is called on them in order until a call
raises.
-/
import Cursus.Enip.Frame
import Cursus.Stream.Framing

namespace Cursus.Enip

open Cursus.Python Cursus.Stream

/-! ## The handler -/

/-- How a call of `handle_frame` ends. -/
abbrev Outcome := Except PyError (Option Bytes)

/-- The server and the local `session_handles` of a connection, with the calls of `handle_frame` and
of `sendall` that it has made. -/
structure Connection where
  server : EnipServer
  sessionHandles : Finset ℕ
  calls : List (EncapsulationFrame × Outcome)
  sent : List Bytes

/-- What `sendall` is called with: only a response that is neither `None` nor empty is sent. -/
def sendable (response : Option Bytes) : List Bytes := (response.filter (· ≠ [])).toList

/-- Call `handle_frame`, and send the response. -/
def serveFrame (frame : EncapsulationFrame) : Py Connection Unit := fun s =>
  match handleFrame frame ⟨s.server, s.sessionHandles⟩ with
  | (.ok response, ⟨server, sessionHandles⟩) =>
    (.ok (), ⟨server, sessionHandles, s.calls ++ [(frame, .ok response)], s.sent ++ sendable response⟩)
  | (.error e, ⟨server, sessionHandles⟩) =>
    (.error e, ⟨server, sessionHandles, s.calls ++ [(frame, .error e)], s.sent⟩)

/-- The inner loop of `handle`; it returns the buffer it leaves. -/
def drain (buffer : Bytes) : Py Connection Bytes := do
  if _h : encapsulationHeaderSize ≤ buffer.length then
    let header := buffer.take encapsulationHeaderSize
    checkSize 24 header
    let command := uintAt .little 2 header 0
    let length := uintAt .little 2 header 2
    let sessionHandle := uintAt .little 4 header 4
    let senderContext := slice header 12 20
    let options := uintAt .little 4 header 20
    let frameSize := encapsulationHeaderSize + length
    -- the `break`: the frame has not arrived whole
    if buffer.length < frameSize then return buffer
    serveFrame
      { command, sessionHandle, senderContext, options
        payload := slice buffer encapsulationHeaderSize frameSize }
    drain (buffer.drop frameSize)
  else return buffer
termination_by buffer.length
decreasing_by
  -- a frame has a header at least, so the buffer shrinks
  simp only [encapsulationHeaderSize] at _h
  simp only [encapsulationHeaderSize, List.length_drop]
  omega

/-- The outer loop of `handle` over what `recv` returns; at the end of the stream it returns nothing. -/
def receive : (chunks : List Bytes) → (buffer : Bytes) → Py Connection Unit
  | [], _ => return
  | chunk :: chunks, buffer => do
    if chunk = [] then return
    let buffer ← drain (buffer ++ chunk)
    receive chunks buffer

/-- `_EnipRequestHandler.handle`: an `OSError` ends it quietly, and the sessions are released in
any case. -/
def handle (chunks : List Bytes) (server : EnipServer) : Except PyError Unit × Connection :=
  match receive chunks [] ⟨server, ∅, [], []⟩ with
  -- the only exception that is caught; the others leave `handle`
  | (.error .osError, s) => (.ok (), { s with server := releaseSessions s.sessionHandles s.server })
  | (outcome, s) => (outcome, { s with server := releaseSessions s.sessionHandles s.server })

/-! ## Frames of a stream -/

/-- A frame is a header of 24 octets and the payload whose length it holds. -/
def framing : Framing UInt8 where
  header := encapsulationHeaderSize
  size bs := encapsulationHeaderSize + uintAt .little 2 bs 2
  header_pos := by decide
  header_le bs := Nat.le_add_right _ _
  size_append bs rest h := by
    have hle : 2 + 2 ≤ bs.length := le_trans (by decide) h
    rw [uintAt_append_left _ hle]

/-- The frame that the octets of one frame encode. -/
def frameOf (octets : Bytes) : EncapsulationFrame where
  command := uintAt .little 2 octets 0
  sessionHandle := uintAt .little 4 octets 4
  senderContext := slice octets 12 20
  options := uintAt .little 4 octets 20
  payload := octets.drop 24

theorem isFrame_iff (octets : Bytes) :
    framing.IsFrame octets ↔ octets.length = encapsulationHeaderSize + uintAt .little 2 octets 2 :=
  ⟨And.right, fun h => ⟨by rw [h]; exact Nat.le_add_right _ _, h⟩⟩

/-! ## The inner loop -/

theorem drain_of_not_starts {buffer : Bytes} (h : ¬ framing.Starts buffer) (s : Connection) :
    drain buffer s = (.ok buffer, s) := by
  unfold drain
  by_cases hheader : encapsulationHeaderSize ≤ buffer.length
  swap
  · rw [dif_neg hheader]
    rfl
  have hcheck : checkSize 24 (buffer.take encapsulationHeaderSize) = .ok () :=
    if_pos (by rw [List.length_take]; exact Nat.min_eq_left hheader)
  have hshort : buffer.length < encapsulationHeaderSize + uintAt .little 2 (buffer.take encapsulationHeaderSize) 2 := by
    rw [uintAt_take _ (by simp)]
    exact not_le.1 fun hle => h ⟨hheader, hle⟩
  rw [dif_pos hheader, hcheck]
  simp only [Py.lift_ok_bind, if_pos hshort]
  rfl

theorem drain_of_starts {buffer : Bytes} (h : framing.Starts buffer) :
    drain buffer = (do
      serveFrame (frameOf (buffer.take (framing.size buffer)))
      drain (buffer.drop (framing.size buffer))) := by
  have hheader : encapsulationHeaderSize ≤ buffer.length := h.1
  have hsize := h.2
  have hle : encapsulationHeaderSize ≤ framing.size buffer := Nat.le_add_right _ _
  have hcheck : checkSize 24 (buffer.take encapsulationHeaderSize) = .ok () :=
    if_pos (by rw [List.length_take]; exact Nat.min_eq_left hheader)
  have hread : ∀ i w, i + w ≤ encapsulationHeaderSize →
      uintAt .little w (buffer.take encapsulationHeaderSize) i =
        uintAt .little w (buffer.take (framing.size buffer)) i := by
    intro i w hi
    rw [uintAt_take _ hi, uintAt_take _ (hi.trans hle)]
  have hframeSize : encapsulationHeaderSize + uintAt .little 2 (buffer.take encapsulationHeaderSize) 2 =
      framing.size buffer := by
    rw [uintAt_take _ (by simp)]
    rfl
  have hframe :
      (⟨uintAt .little 2 (buffer.take encapsulationHeaderSize) 0, uintAt .little 4 (buffer.take encapsulationHeaderSize) 4,
        slice (buffer.take encapsulationHeaderSize) 12 20, uintAt .little 4 (buffer.take encapsulationHeaderSize) 20,
        slice buffer encapsulationHeaderSize (framing.size buffer)⟩ : EncapsulationFrame) =
      frameOf (buffer.take (framing.size buffer)) := by
    rw [hread 0 2 (by simp), hread 4 4 (by simp), hread 20 4 (by simp), slice_take (by simp), frameOf,
      slice_take (le_trans (by simp) hle), List.drop_take]
    rfl
  funext s
  rw [drain, dif_pos hheader]
  simp only [hcheck, Py.lift_ok_bind, hframeSize, hframe, if_neg (not_lt.2 hsize)]

/-- Call `handle_frame` on the frames, and send the responses, until a call raises. -/
def serveFrames : List EncapsulationFrame → Py Connection Unit
  | [] => return
  | frame :: frames => do
    serveFrame frame
    serveFrames frames

theorem serveFrames_append (frames frames' : List EncapsulationFrame) :
    serveFrames (frames ++ frames') = (do serveFrames frames; serveFrames frames') := by
  induction frames with
  | nil => rfl
  | cons frame frames ih => rw [List.cons_append, serveFrames, ih, serveFrames, bind_assoc]

/-- The inner loop serves the frames of the buffer, and leaves what is behind them. -/
theorem drain_eq (buffer : Bytes) :
    drain buffer = (do
      serveFrames ((framing.split buffer).1.map frameOf)
      return (framing.split buffer).2) := by
  fun_induction Framing.split framing buffer with
  | case1 buffer h ih => rw [drain_of_starts h, ih, List.map_cons, serveFrames, bind_assoc]
  | case2 buffer h =>
    funext s
    exact drain_of_not_starts h s

/-- What is left of the buffer after the inner loop is shorter than the largest frame. -/
theorem length_drain {buffer residual : Bytes} {s s' : Connection} (h : drain buffer s = (.ok residual, s')) :
    residual.length < 24 + 65535 := by
  rw [drain_eq] at h
  have hres : residual = (framing.split buffer).2 := by
    rcases hserve : serveFrames ((framing.split buffer).1.map frameOf) s with ⟨e | u, s''⟩
    · rw [Py.bind_of_error hserve] at h
      cases h
    · rw [Py.bind_of_ok hserve] at h
      cases h
      rfl
  have hnot := framing.not_starts_split buffer
  rw [← hres] at hnot
  have hlt : uintAt .little 2 residual 2 < 65536 := uintAt_lt .little 2 residual 2
  by_contra hlong
  exact hnot ⟨by simp only [framing, encapsulationHeaderSize]; omega,
    by simp only [framing, encapsulationHeaderSize]; omega⟩

/-! ## The outer loop -/

/-- The chunks of a stream, in whatever way it is cut, give the frames of the stream. -/
theorem receive_eq {chunks : List Bytes} (hchunks : ∀ chunk ∈ chunks, chunk ≠ []) {buffer : Bytes}
    (hbuffer : ¬ framing.Starts buffer) :
    receive chunks buffer = serveFrames ((framing.split (buffer ++ chunks.flatten)).1.map frameOf) := by
  induction chunks generalizing buffer with
  | nil =>
    rw [List.flatten_nil, List.append_nil, framing.split_of_not_starts hbuffer]
    rfl
  | cons chunk chunks ih =>
    rw [List.forall_mem_cons] at hchunks
    rw [receive, if_neg hchunks.1, drain_eq, List.flatten_cons, ← List.append_assoc,
      framing.split_append (buffer ++ chunk), List.map_append, serveFrames_append, bind_assoc]
    simp only [pure_bind]
    rw [ih hchunks.2 (framing.not_starts_split _)]

/-! ## What a connection does -/

/-- `handle_frame` is called on the frames in order, each with what the calls before it left, until a
call raises. -/
inductive Calls : Scope → List EncapsulationFrame → List (EncapsulationFrame × Outcome) → Scope → Prop
  | nil {s : Scope} : Calls s [] [] s
  | returned {s s' s'' : Scope} {frame : EncapsulationFrame} {frames : List EncapsulationFrame}
      {response : Option Bytes} {calls : List (EncapsulationFrame × Outcome)} :
      handleFrame frame s = (.ok response, s') → Calls s' frames calls s'' →
        Calls s (frame :: frames) ((frame, .ok response) :: calls) s''
  | raised {s s' : Scope} {frame : EncapsulationFrame} {frames : List EncapsulationFrame} {e : PyError} :
      handleFrame frame s = (.error e, s') → Calls s (frame :: frames) [(frame, .error e)] s'

/-- What is sent after the calls. -/
def replies (calls : List (EncapsulationFrame × Outcome)) : List Bytes :=
  calls.flatMap fun call =>
    match call.2 with
    | .ok response => sendable response
    | .error _ => []

/-- The connection calls `handle_frame` on the frames, sends the responses and releases its sessions. -/
def Serves (server : EnipServer) (frames : List EncapsulationFrame) (result : Connection) : Prop :=
  ∃ calls s, Calls ⟨server, ∅⟩ frames calls s ∧
    result = ⟨releaseSessions s.connectionSessions s.server, s.connectionSessions, calls, replies calls⟩

theorem exists_calls (frames : List EncapsulationFrame) (s : Scope) : ∃ calls s', Calls s frames calls s' := by
  induction frames generalizing s with
  | nil => exact ⟨[], s, .nil⟩
  | cons frame frames ih =>
    rcases hframe : handleFrame frame s with ⟨e | response, s'⟩
    · exact ⟨_, s', .raised hframe⟩
    · obtain ⟨calls, s'', hcalls⟩ := ih s'
      exact ⟨_, s'', .returned hframe hcalls⟩

theorem serveFrames_of_calls {s s' : Scope} {frames : List EncapsulationFrame}
    {calls : List (EncapsulationFrame × Outcome)} (h : Calls s frames calls s')
    (before : List (EncapsulationFrame × Outcome)) (sent : List Bytes) :
    (serveFrames frames ⟨s.server, s.connectionSessions, before, sent⟩).2 =
      ⟨s'.server, s'.connectionSessions, before ++ calls, sent ++ replies calls⟩ := by
  induction h generalizing before sent with
  | nil =>
    rw [List.append_nil, replies, List.flatMap_nil, List.append_nil]
    rfl
  | @returned s s' s'' frame frames response calls hframe _ ih =>
    have hserve : serveFrame frame ⟨s.server, s.connectionSessions, before, sent⟩ =
        (.ok (), ⟨s'.server, s'.connectionSessions, before ++ [(frame, .ok response)], sent ++ sendable response⟩) := by
      unfold serveFrame
      rw [hframe]
    unfold serveFrames
    rw [Py.bind_of_ok hserve, ih]
    simp [replies]
  | @raised s s' frame frames e hframe =>
    have hserve : serveFrame frame ⟨s.server, s.connectionSessions, before, sent⟩ =
        (.error e, ⟨s'.server, s'.connectionSessions, before ++ [(frame, .error e)], sent⟩) := by
      unfold serveFrame
      rw [hframe]
    unfold serveFrames
    rw [Py.bind_of_error hserve]
    simp [replies]

/-- In every ending the sessions of the connection are released. -/
theorem handle_snd (chunks : List Bytes) (server : EnipServer) :
    (handle chunks server).2 =
      { (receive chunks [] ⟨server, ∅, [], []⟩).2 with
        server := releaseSessions (receive chunks [] ⟨server, ∅, [], []⟩).2.sessionHandles
          (receive chunks [] ⟨server, ∅, [], []⟩).2.server } := by
  unfold handle
  rcases receive chunks [] ⟨server, ∅, [], []⟩ with ⟨e | u, s⟩
  · cases e <;> rfl
  · rfl

theorem receive_chunks {chunks : List Bytes} (hchunks : ∀ chunk ∈ chunks, chunk ≠ []) :
    receive chunks [] = serveFrames ((framing.split chunks.flatten).1.map frameOf) :=
  receive_eq hchunks fun h => absurd h.1 (by decide)

theorem serves_handle {chunks : List Bytes} (hchunks : ∀ chunk ∈ chunks, chunk ≠ []) (server : EnipServer)
    {frames : List Bytes} {rest : Bytes} (hd : framing.Decomposes chunks.flatten frames rest) :
    Serves server (frames.map frameOf) (handle chunks server).2 := by
  obtain ⟨calls, s, hcalls⟩ := exists_calls (frames.map frameOf) ⟨server, ∅⟩
  refine ⟨calls, s, hcalls, ?_⟩
  have hserve := serveFrames_of_calls hcalls [] []
  rw [handle_snd, receive_chunks hchunks, hd.eq_split, hserve, List.nil_append, List.nil_append]

/-- A stream is in one way a list of frames and the beginning of one more. However it is cut into
chunks, the connection serves these frames in order, up to a call that raises; all that it does
depends on the stream only, and the inner loop never leaves a whole frame in the buffer. -/
theorem handle_chunks (server : EnipServer) (chunks : List Bytes) (hchunks : ∀ chunk ∈ chunks, chunk ≠ []) :
    (∃! d : List Bytes × Bytes, framing.Decomposes chunks.flatten d.1 d.2) ∧
    (∀ frames rest, framing.Decomposes chunks.flatten frames rest →
      Serves server (frames.map frameOf) (handle chunks server).2) ∧
    (∀ chunks' : List Bytes, (∀ chunk ∈ chunks', chunk ≠ []) → chunks'.flatten = chunks.flatten →
      handle chunks' server = handle chunks server) ∧
    ∀ buffer s residual s', drain buffer s = (.ok residual, s') → residual.length < 24 + 65535 := by
  refine ⟨⟨framing.split chunks.flatten, framing.decomposes_split _, ?_⟩, ?_, ?_, ?_⟩
  · rintro ⟨frames, rest⟩ hd
    exact hd.eq_split.symm
  · intro frames rest hd
    exact serves_handle hchunks server hd
  · intro chunks' hchunks' hflatten
    unfold handle
    rw [receive_chunks hchunks', receive_chunks hchunks, hflatten]
  · intro buffer s residual s' h
    exact length_drain h

/-- A registration in two chunks is one frame. -/
theorem handle_chunks_register :
    Serves (.init "127.0.0.1" 44818 {}) [⟨0x65, 0, List.replicate 8 7, 0, [1, 0, 0, 0]⟩]
      (handle [[0x65, 0, 4], [0, 0, 0, 0, 0, 0, 0, 0, 0, 7, 7, 7, 7, 7, 7, 7, 7, 0, 0, 0, 0, 1, 0, 0, 0]]
        (.init "127.0.0.1" 44818 {})).2 := by
  let octets : Bytes := [0x65, 0, 4, 0, 0, 0, 0, 0, 0, 0, 0, 0, 7, 7, 7, 7, 7, 7, 7, 7, 0, 0, 0, 0, 1, 0, 0, 0]
  have hframe : framing.IsFrame octets := ⟨by decide, by decide⟩
  have hrest : framing.IsIncomplete [] := ⟨octets, hframe, List.nil_prefix, by simp⟩
  refine (handle_chunks (.init "127.0.0.1" 44818 {}) _ (by simp)).2.1 [octets] [] ⟨rfl, ?_, hrest⟩
  simpa using hframe

end Cursus.Enip
