/-
The server with its connections as a machine: a frame on a connection, the end of a connection, or a
call of `set_assembly_data`. A frame whose handling raises ends its connection in the same step. What
`handle` does with a stream is a run of this machine.
-/
import Cursus.Enip.Handler
import Cursus.Run.Machine

namespace Cursus.Enip

open Cursus.Python Cursus.Run Cursus.Stream

/-! ## Frames on the wire -/

/-- A frame with the fields that a header can hold. -/
structure WireFrame extends EncapsulationFrame where
  command_lt : command < 256 ^ 2
  sessionHandle_lt : sessionHandle < 256 ^ 4
  options_lt : options < 256 ^ 4
  length_senderContext : senderContext.length = 8
  length_payload_lt : payload.length < 256 ^ 2

theorem length_payload_frameOf_lt {octets : Bytes} (h : framing.IsFrame octets) :
    (frameOf octets).payload.length < 256 ^ 2 := by
  have hsize : octets.length = 24 + uintAt .little 2 octets 2 := h.2
  have hlt := uintAt_lt .little 2 octets 2
  simp only [frameOf, List.length_drop]
  omega

/-- The octets of a frame encode a frame on the wire. -/
def WireFrame.ofOctets (octets : Bytes) (h : framing.IsFrame octets) : WireFrame where
  toEncapsulationFrame := frameOf octets
  command_lt := uintAt_lt .little 2 octets 0
  sessionHandle_lt := uintAt_lt .little 4 octets 4
  options_lt := uintAt_lt .little 4 octets 20
  length_senderContext := length_slice (le_trans (by decide) h.1)
  length_payload_lt := length_payload_frameOf_lt h

/-- RegisterSession for protocol version 1. -/
def registerFrame : WireFrame :=
  ⟨⟨0x65, 0, List.replicate 8 0, 0, [1, 0, 0, 0]⟩, by decide, by decide, by decide, rfl, by decide⟩

/-- Set_Attribute_Single of assembly 100 in the first session. -/
def setAttributeFrame : WireFrame :=
  ⟨⟨0x6F, 1, List.replicate 8 0, 0, [0, 0, 0, 0, 0, 0, 2, 0, 0, 0, 0, 0, 0xB2, 0, 9, 0, 0x10, 3, 0x20, 4, 0x24, 0x64,
    0x30, 3, 0x11]⟩, by decide, by decide, by decide, rfl, by decide⟩

/-- Get_Attribute_Single of assembly 100 in the first session. -/
def getAttributeFrame : WireFrame :=
  ⟨⟨0x6F, 1, List.replicate 8 0, 0, [0, 0, 0, 0, 0, 0, 2, 0, 0, 0, 0, 0, 0xB2, 0, 8, 0, 0x0E, 3, 0x20, 4, 0x24, 0x64,
    0x30, 3]⟩, by decide, by decide, by decide, rfl, by decide⟩

/-! ## The machine -/

/-- The server, and the `session_handles` of each connection. -/
structure System (κ : Type) where
  server : EnipServer
  connections : κ → Finset ℕ

inductive Event (κ : Type)
  | frame (c : κ) (frame : WireFrame)
  | close (c : κ)
  | setAssemblyData (inst : ℤ) (data : Bytes)

variable {κ : Type}

def System.init (ip : String) (port : ℤ) (config : EnipServerConfig) : System κ :=
  ⟨.init ip port config, fun _ => ∅⟩

variable [DecidableEq κ]

def step : Step (System κ) (Event κ) Outcome
  | .frame c frame, s =>
    match handleFrame frame.toEncapsulationFrame ⟨s.server, s.connections c⟩ with
    | (.ok response, scope) =>
      (.ok response, ⟨scope.server, Function.update s.connections c scope.connectionSessions⟩)
    | (.error e, scope) =>
      -- the exception leaves `handle`, which releases the sessions
      (.error e, ⟨releaseSessions scope.connectionSessions scope.server, Function.update s.connections c ∅⟩)
  | .close c, s => (.ok none, ⟨releaseSessions (s.connections c) s.server, Function.update s.connections c ∅⟩)
  | .setAssemblyData inst data, s => (.ok none, { s with server := setAssemblyData inst data s.server })

/-! ## Steps -/

theorem releaseSessions_eq (sessions : Finset ℕ) (s : EnipServer) :
    releaseSessions sessions s = { s with activeSessions := s.activeSessions \ sessions } := by
  unfold releaseSessions
  split_ifs with h
  · rw [h, Finset.sdiff_empty]
  · rfl

theorem step_of_ok {c : κ} {frame : WireFrame} {s : System κ} {response : Option Bytes} {scope : Scope}
    (h : handleFrame frame.toEncapsulationFrame ⟨s.server, s.connections c⟩ = (.ok response, scope)) :
    step (.frame c frame) s =
      (.ok response, ⟨scope.server, Function.update s.connections c scope.connectionSessions⟩) := by
  rw [step, h]

theorem step_of_error {c : κ} {frame : WireFrame} {s : System κ} {e : PyError} {scope : Scope}
    (h : handleFrame frame.toEncapsulationFrame ⟨s.server, s.connections c⟩ = (.error e, scope)) :
    step (.frame c frame) s =
      (.error e, ⟨releaseSessions scope.connectionSessions scope.server, Function.update s.connections c ∅⟩) := by
  rw [step, h]

/-- The outcome of a step is that of `handle_frame`. -/
theorem step_frame_fst (c : κ) (frame : WireFrame) (s : System κ) :
    (step (.frame c frame) s).1 = (handleFrame frame.toEncapsulationFrame ⟨s.server, s.connections c⟩).1 := by
  rcases h : handleFrame frame.toEncapsulationFrame ⟨s.server, s.connections c⟩ with ⟨e | response, scope⟩
  · rw [step_of_error h]
  · rw [step_of_ok h]

/-! ## A connection is a run -/

/-- The calls of one connection and its end are a run of the machine, which takes the frames up to the
one that raised. -/
theorem final_of_calls {s : System κ} {c : κ} {frames : List WireFrame} {scope scope' : Scope}
    {calls : List (EncapsulationFrame × Outcome)} (hscope : scope = ⟨s.server, s.connections c⟩)
    (h : Calls scope (frames.map WireFrame.toEncapsulationFrame) calls scope') :
    final step ((frames.take calls.length).map (.frame c) ++ [.close c]) s =
      ⟨releaseSessions scope'.connectionSessions scope'.server, Function.update s.connections c ∅⟩ := by
  induction frames generalizing s scope calls with
  | nil =>
    cases h
    subst hscope
    rfl
  | cons frame frames ih =>
    subst hscope
    cases h with
    | @returned _ s' _ _ _ response calls hframe hcalls =>
      have hstep := step_of_ok hframe
      have hscope : s' = ⟨(step (.frame c frame) s).2.server, (step (.frame c frame) s).2.connections c⟩ := by
        rw [hstep]
        simp
      have hrun := ih hscope hcalls
      rw [List.length_cons, List.take_succ_cons, List.map_cons, List.cons_append, final_cons, hrun, hstep]
      simp
    | @raised _ s' _ _ e hframe =>
      have hstep := step_of_error hframe
      rw [List.length_singleton, List.take_succ_cons, List.take_zero, List.map_cons, List.map_nil,
        List.cons_append, List.nil_append, final_cons, hstep]
      simp [step, releaseSessions]

theorem exists_wireFrames {octets : List Bytes} (h : ∀ f ∈ octets, framing.IsFrame f) :
    ∃ frames : List WireFrame, octets.map frameOf = frames.map WireFrame.toEncapsulationFrame := by
  induction octets with
  | nil => exact ⟨[], rfl⟩
  | cons f octets ih =>
    rw [List.forall_mem_cons] at h
    obtain ⟨frames, hframes⟩ := ih h.2
    exact ⟨.ofOctets f h.1 :: frames, by rw [List.map_cons, List.map_cons, hframes]; rfl⟩

/-- What `handle` leaves of the server is what the machine leaves after the frames of the stream, up to
one that raised, and the end of the connection. -/
theorem handle_eq_final (s : System κ) {c : κ} (hc : s.connections c = ∅) {chunks : List Bytes}
    (hchunks : ∀ chunk ∈ chunks, chunk ≠ []) {octets : List Bytes} {rest : Bytes}
    (hd : framing.Decomposes chunks.flatten octets rest) :
    ∃ (frames : List WireFrame) (n : ℕ), octets.map frameOf = frames.map WireFrame.toEncapsulationFrame ∧
      (handle chunks s.server).2.server =
        (final step ((frames.take n).map (.frame c) ++ [.close c]) s).server := by
  obtain ⟨frames, hframes⟩ := exists_wireFrames hd.isFrame
  obtain ⟨calls, scope, hcalls, hresult⟩ := serves_handle hchunks s.server hd
  rw [hframes, ← hc] at hcalls
  refine ⟨frames, calls.length, hframes, ?_⟩
  rw [hresult, final_of_calls rfl hcalls]

end Cursus.Enip
