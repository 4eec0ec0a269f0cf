/-
Sessions are shared: a session lives as long as nobody unregisters it and the connection it was
registered on is open, and every connection may use it. Nothing ties its use, or its end by
UnregisterSession, to the connection it was registered on.
-/
import Cursus.Enip.Session

namespace Cursus.Enip

open Cursus.Python Cursus.Run

variable {κ : Type} [DecidableEq κ]

/-! ## Shared sessions -/

/-- The outcome of a SendRRData frame whose payload is executed. -/
def executed (s : EnipServer) (f : EncapsulationFrame) : Outcome :=
  (handleSendRrData f.payload s).1 >>= fun cipResponse => (sendRrDataReply f cipResponse).map some

/-- A SendRRData frame is executed on the connection: it is answered with what `_handle_send_rr_data` makes of its
payload, and what that call does to the server stays; no session begins or ends, unless the frame raises: then the
connection ends. -/
structure Executed (c : κ) (f : EncapsulationFrame) (s : System κ) (r : Outcome × System κ) : Prop where
  outcome : r.1 = executed s.server f
  returned : ∀ response, r.1 = .ok response → r.2 = { s with server := (handleSendRrData f.payload s.server).2 }
  raised : ∀ e, r.1 = .error e →
    r.2 = (step (.close c) { s with server := (handleSendRrData f.payload s.server).2 }).2
  activeSessions : (handleSendRrData f.payload s.server).2.activeSessions = s.server.activeSessions

theorem activeSessions_handleSendRrData (payload : Bytes) (s : EnipServer) :
    (handleSendRrData payload s).2.activeSessions = s.activeSessions := by
  rcases handleSendRrData_cases payload s with ⟨inst, data, -, -, timeout, -, h⟩ | ⟨-, h⟩ | ⟨outcome, -, timeout, -, h⟩
  · rw [h]
    rfl
  · rw [h]
  · rw [h]

theorem step_of_active (c : κ) {frame : WireFrame} (h : frame.SendsRrData) {s : System κ}
    (hs : frame.sessionHandle ∈ s.server.activeSessions) :
    Executed c frame.toEncapsulationFrame s (step (.frame c frame) s) := by
  have hframe := handleFrame_of_active (s := ⟨s.server, s.connections c⟩) h hs
  rw [← executed] at hframe
  rcases houtcome : executed s.server frame.toEncapsulationFrame with e | response
  · rw [houtcome] at hframe
    rw [step_of_error hframe]
    exact ⟨houtcome.symm, nofun, fun _ _ => rfl, activeSessions_handleSendRrData ..⟩
  · rw [houtcome] at hframe
    rw [step_of_ok hframe]
    refine ⟨houtcome.symm, fun _ _ => ?_, nofun, activeSessions_handleSendRrData ..⟩
    simp

/-- An UnregisterSession for the handle was processed on the connection. -/
def EndsOwn (c : κ) (h : ℕ) : Event κ × Outcome → Prop
  | (.frame c' frame, .ok _) => c' = c ∧ frame.Unregisters ∧ frame.sessionHandle = h
  | _ => False

/-- A session stays active until its own connection unregisters it or closes. -/
def EndedByOwner (κ : Type) [DecidableEq κ] (ip : String) (port : ℤ) (config : EnipServerConfig) : Prop :=
  ∀ (es : List (Event κ)) (c : κ) (h : ℕ),
    Live (Issues c h) (fun x => EndsOwn c h x ∨ Closes c x) (trace step es (.init ip port config)) →
      h ∈ (final step es (.init ip port config)).server.activeSessions

/-- SendRRData is refused unless its session was registered on the connection that sends it. -/
def UsedByOwner (κ : Type) [DecidableEq κ] (ip : String) (port : ℤ) (config : EnipServerConfig) : Prop :=
  ∀ (es : List (Event κ)) (c : κ) (frame : WireFrame), frame.SendsRrData →
    (¬ ∃ x ∈ trace step es (.init ip port config), Issues c frame.sessionHandle x) →
      Refused (step (.frame c frame) (final step es (.init ip port config))).1

/-- UnregisterSession for the first handle. -/
def unregisterFrame : WireFrame :=
  ⟨⟨0x66, 1, List.replicate 8 0, 0, []⟩, by decide, by decide, by decide, rfl, by decide⟩

/-- An empty SendRRData in the first session. -/
def sendRrDataFrame : WireFrame :=
  ⟨⟨0x6F, 1, List.replicate 8 0, 0, []⟩, by decide, by decide, by decide, rfl, by decide⟩

end Cursus.Enip
