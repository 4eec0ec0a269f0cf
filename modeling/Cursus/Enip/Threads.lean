/-
The connections of `cursus/enip/server.py` as threads that interleave between critical sections. A
frame that registers or unregisters has one section; SendRRData has two, the session test and the access
to an assembly, and every other thread may run between them. The machine of whole frames is this one
with no other thread in between.
-/
import Cursus.Enip.System

namespace Cursus.Enip

open Cursus.Python Cursus.Run

/-! ## The machine -/

/-- The rest of `handle_frame` behind a session test that a SendRRData has passed. -/
def executeSendRrData (frame : EncapsulationFrame) : Py Scope (Option Bytes) := do
  match ← onServer (handleSendRrData frame.payload) with
  | none =>
    return some (← buildEncapsulationResponse frame.command frame.sessionHandle frame.senderContext []
      encapStatusIncorrectData)
  | some cipResponse =>
    return some (← buildEncapsulationResponse frame.command frame.sessionHandle frame.senderContext cipResponse
      encapStatusSuccess)

/-- Where a thread is: between two frames, between the session test and the request of a SendRRData, or
on its way out of `handle`, its sessions not yet released. -/
inductive Thread
  | ready
  | tested (frame : WireFrame)
  | raised

instance : ∀ t : Thread, Decidable (t = .ready)
  | .ready => .isTrue rfl
  | .tested _ => .isFalse nofun
  | .raised => .isFalse nofun

structure Threads (κ : Type) extends System κ where
  threads : κ → Thread

/-- A thread takes a frame as far as its first critical section, executes a request behind the session
test, or releases its sessions. -/
inductive Turn (κ : Type)
  | take (c : κ) (frame : WireFrame)
  | execute (c : κ)
  | release (c : κ)
  | setAssemblyData (inst : ℤ) (data : Bytes)

/-- A call of `handle_frame` that has ended. -/
structure Call (κ : Type) where
  connection : κ
  frame : WireFrame
  outcome : Outcome

abbrev ThreadStep (κ : Type) := Transition (Threads κ) (Turn κ) (Option (Call κ))

variable {κ : Type}

namespace Threads

/-- No thread is inside a call. -/
def ofSystem (s : System κ) : Threads κ := ⟨s, fun _ => .ready⟩

def init (ip : String) (port : ℤ) (config : EnipServerConfig) : Threads κ := ofSystem (.init ip port config)

/-- The server and the sessions that a thread works on. -/
def scope (s : Threads κ) (c : κ) : Scope := ⟨s.server, s.connections c⟩

variable [DecidableEq κ]

/-- A call ends. -/
def complete (s : Threads κ) (c : κ) (frame : WireFrame) (result : Outcome × Scope) :
    Option (Call κ) × Threads κ :=
  (some ⟨c, frame, result.1⟩,
    { server := result.2.server
      connections := Function.update s.connections c result.2.connectionSessions
      threads := Function.update s.threads c (match result.1 with | .ok _ => .ready | .error _ => .raised) })

/-- A turn of a thread that is elsewhere does nothing. -/
def step : Step (Threads κ) (Turn κ) (Option (Call κ))
  | .take c frame, s =>
    match s.threads c with
    | .ready =>
      if frame.SendsRrData ∧ frame.sessionHandle ∈ s.server.activeSessions then
        (none, { s with threads := Function.update s.threads c (.tested frame) })
      else s.complete c frame (handleFrame frame.toEncapsulationFrame (s.scope c))
    | _ => (none, s)
  | .execute c, s =>
    match s.threads c with
    | .tested frame => s.complete c frame (executeSendRrData frame.toEncapsulationFrame (s.scope c))
    | _ => (none, s)
  | .release c, s =>
    match s.threads c with
    | .tested _ => (none, s)
    | _ =>
      (none,
        { server := releaseSessions (s.connections c) s.server
          connections := Function.update s.connections c ∅
          threads := Function.update s.threads c .ready })
  | .setAssemblyData inst data, s => (none, { s with server := setAssemblyData inst data s.server })

end Threads

/-! ## Requests behind the session test -/

theorem executeSendRrData_eq (f : EncapsulationFrame) (s : Scope) :
    executeSendRrData f s =
      ((handleSendRrData f.payload s.server).1 >>= fun cipResponse => (sendRrDataReply f cipResponse).map some,
        { s with server := (handleSendRrData f.payload s.server).2 }) := by
  unfold executeSendRrData
  rcases hsend : handleSendRrData f.payload s.server with ⟨e | _ | cipResponse, server⟩
  · exact Py.bind_of_error (onServer_apply hsend)
  · exact (Py.bind_of_ok (onServer_apply hsend)).trans (Py.lift_bind_pure _ some _)
  · exact (Py.bind_of_ok (onServer_apply hsend)).trans (Py.lift_bind_pure _ some _)

theorem executeSendRrData_cases (f : EncapsulationFrame) (s : Scope) : ExecuteStep f s (executeSendRrData f s) := by
  rw [executeSendRrData_eq]
  exact executeStep f s

/-- With nothing in between, the test and the request are one call of `handle_frame`. -/
theorem handleFrame_eq_executeSendRrData {f : EncapsulationFrame} (h : f.SendsRrData) {s : Scope}
    (hs : f.sessionHandle ∈ s.server.activeSessions) : handleFrame f s = executeSendRrData f s := by
  rw [handleFrame_of_active h hs, executeSendRrData_eq]

/-! ## Turns -/

section Turns

variable [DecidableEq κ]

/-- A call that ends leaves its thread outside, and the others where they are. -/
theorem Threads.tested_of_complete {s : Threads κ} {c c' : κ} {frame frame' : WireFrame} {result : Outcome × Scope}
    (h : (s.complete c frame result).2.threads c' = .tested frame') : s.threads c' = .tested frame' := by
  by_cases hc : c' = c
  · subst hc
    simp only [complete, Function.update_self] at h
    split at h <;> cases h
  · simpa [complete, hc] using h

/-- The thread is elsewhere. -/
def Blocked (s : Threads κ) : Turn κ → Prop
  | .take c _ => s.threads c ≠ .ready
  | .execute c => ∀ frame, s.threads c ≠ .tested frame
  | .release c => ∃ frame, s.threads c = .tested frame
  | .setAssemblyData _ _ => False

/-- What a turn does. -/
inductive TurnStep (s : Threads κ) : Turn κ → Option (Call κ) × Threads κ → Prop
  | blocked {e : Turn κ} : Blocked s e → TurnStep s e (none, s)
  | tested {c : κ} {frame : WireFrame} : s.threads c = .ready → frame.SendsRrData →
      frame.sessionHandle ∈ s.server.activeSessions →
      TurnStep s (.take c frame) (none, { s with threads := Function.update s.threads c (.tested frame) })
  | called {c : κ} {frame : WireFrame} : s.threads c = .ready →
      ¬ (frame.SendsRrData ∧ frame.sessionHandle ∈ s.server.activeSessions) →
      TurnStep s (.take c frame) (s.complete c frame (handleFrame frame.toEncapsulationFrame (s.scope c)))
  | executed {c : κ} {frame : WireFrame} : s.threads c = .tested frame →
      TurnStep s (.execute c) (s.complete c frame (executeSendRrData frame.toEncapsulationFrame (s.scope c)))
  | released {c : κ} : (∀ frame, s.threads c ≠ .tested frame) →
      TurnStep s (.release c)
        (none,
          { server := { s.server with activeSessions := s.server.activeSessions \ s.connections c }
            connections := Function.update s.connections c ∅
            threads := Function.update s.threads c .ready })
  | stored {inst : ℤ} {data : Bytes} :
      TurnStep s (.setAssemblyData inst data) (none, { s with server := setAssemblyData inst data s.server })

theorem Threads.step_cases (e : Turn κ) (s : Threads κ) : TurnStep s e (Threads.step e s) := by
  cases e with
  | take c frame =>
    rw [Threads.step]
    split
    · rename_i hready
      split_ifs with htest
      · exact .tested hready htest.1 htest.2
      · exact .called hready htest
    · rename_i hbusy
      exact .blocked hbusy
  | execute c =>
    rw [Threads.step]
    split
    · rename_i htested
      exact .executed htested
    · rename_i hidle
      exact .blocked hidle
  | release c =>
    rw [Threads.step]
    split
    · rename_i htested
      exact .blocked ⟨_, htested⟩
    · rename_i hidle
      rw [releaseSessions_eq]
      exact .released hidle
  | setAssemblyData inst data => exact .stored

end Turns

/-! ## Sessions -/

section Sessions

/-- The turn ends the session: it is unregistered, on whatever connection, or its connection releases it. -/
def Turn.Ends (h : ℕ) (s : Threads κ) : Turn κ → Prop
  | .take c frame => s.threads c = .ready ∧ frame.Unregisters ∧ frame.sessionHandle = h
  | .release c => (∀ frame, s.threads c ≠ .tested frame) ∧ h ∈ s.connections c
  | _ => False

/-- The turn handles a registration. -/
def Turn.Registers (s : Threads κ) : Turn κ → Prop
  | .take c frame => s.threads c = .ready ∧ frame.Registers
  | _ => False

instance (s : Threads κ) : DecidablePred (Turn.Registers s)
  | .take _ _ => inferInstanceAs (Decidable (_ ∧ _))
  | .execute _ => .isFalse id
  | .release _ => .isFalse id
  | .setAssemblyData _ _ => .isFalse id

theorem Blocked.not_registers {s : Threads κ} {e : Turn κ} (hb : Blocked s e) : ¬ e.Registers s := by
  cases e with
  | take c frame => exact fun he => hb he.1
  | execute c => exact id
  | release c => exact id
  | setAssemblyData inst data => exact id

theorem Blocked.not_ends {s : Threads κ} {e : Turn κ} (hb : Blocked s e) (h : ℕ) : ¬ e.Ends h s := by
  cases e with
  | take c frame => exact fun he => hb he.1
  | execute c => exact id
  | release c =>
    obtain ⟨frame, htested⟩ := hb
    exact fun he => he.1 frame htested
  | setAssemblyData inst data => exact id

/-- A request behind the session test touches no session. -/
theorem executeSendRrData_idle (f : EncapsulationFrame) (s : Scope) :
    ∃ assemblies, (executeSendRrData f s).2 = { s with server := { s.server with assemblies := assemblies } } := by
  have hcases := executeSendRrData_cases f s
  generalize executeSendRrData f s = result at hcases ⊢
  cases hcases with
  | written => exact ⟨_, rfl⟩
  | answered => exact ⟨s.server.assemblies, rfl⟩
  | failed => exact ⟨s.server.assemblies, rfl⟩

variable [DecidableEq κ]

namespace Threads

/-- What a turn does to the sessions: a registration issues the handle that the counter shows, and
nothing else moves the counter; the other active handles stay unless the turn ends them. -/
theorem step_sessions (e : Turn κ) (s : Threads κ) :
    (∀ h, h ∈ (step e s).2.server.activeSessions ↔
      e.Registers s ∧ h = s.server.nextSessionHandle ∨ h ∈ s.server.activeSessions ∧ ¬ e.Ends h s) ∧
    (e.Registers s → (step e s).2.server.nextSessionHandle = s.server.nextSessionHandle + 1) ∧
    (¬ e.Registers s → (step e s).2.server.nextSessionHandle = s.server.nextSessionHandle) := by
  have hcases := step_cases e s
  generalize step e s = result at hcases ⊢
  cases hcases with
  | blocked hb =>
    refine ⟨fun h => ?_, fun hr => absurd hr hb.not_registers, fun _ => rfl⟩
    simp [hb.not_ends h, hb.not_registers]
  | @tested c frame hready hsend =>
    have hr : ¬ frame.Registers := fun hr => hr.not_sendsRrData hsend
    have hu : ¬ frame.Unregisters := fun hu => hu.not_sendsRrData hsend
    refine ⟨fun h => ?_, fun he => absurd he.2 hr, fun _ => rfl⟩
    simp [Turn.Registers, Turn.Ends, hr, hu]
  | @called c frame hready htest =>
    show (∀ h, h ∈ (handleFrame frame.toEncapsulationFrame (s.scope c)).2.server.activeSessions ↔
        (s.threads c = .ready ∧ frame.Registers) ∧ h = s.server.nextSessionHandle ∨
          h ∈ s.server.activeSessions ∧ ¬ (s.threads c = .ready ∧ frame.Unregisters ∧ frame.sessionHandle = h)) ∧
      (s.threads c = .ready ∧ frame.Registers →
        (handleFrame frame.toEncapsulationFrame (s.scope c)).2.server.nextSessionHandle = _) ∧
      (¬ (s.threads c = .ready ∧ frame.Registers) →
        (handleFrame frame.toEncapsulationFrame (s.scope c)).2.server.nextSessionHandle = _)
    by_cases hr : frame.Registers
    · simp [handleFrame_of_registers hr, Scope.issue, scope, hready, hr, hr.not_unregisters]
    by_cases hu : frame.Unregisters
    · simp [handleFrame_of_unregisters hu, Scope.endSession, scope, hready, hu, hr, and_comm, eq_comm]
    obtain ⟨assemblies, hsnd⟩ := handleFrame_idle hr hu (s.scope c)
    rw [hsnd]
    simp [scope, hr, hu]
  | @executed c frame htested =>
    obtain ⟨assemblies, hsnd⟩ := executeSendRrData_idle frame.toEncapsulationFrame (s.scope c)
    show (∀ h, h ∈ (executeSendRrData frame.toEncapsulationFrame (s.scope c)).2.server.activeSessions ↔ _) ∧
      (_ → (executeSendRrData frame.toEncapsulationFrame (s.scope c)).2.server.nextSessionHandle = _) ∧
      (_ → (executeSendRrData frame.toEncapsulationFrame (s.scope c)).2.server.nextSessionHandle = _)
    rw [hsnd]
    simp [scope, Turn.Registers, Turn.Ends]
  | released hidle => simp [Turn.Registers, Turn.Ends, hidle]
  | stored => simp [Turn.Registers, Turn.Ends, setAssemblyData]

theorem nextSessionHandle_le_step (e : Turn κ) (s : Threads κ) :
    s.server.nextSessionHandle ≤ (step e s).2.server.nextSessionHandle := by
  obtain ⟨-, hregisters, hother⟩ := step_sessions e s
  by_cases hr : e.Registers s
  · rw [hregisters hr]
    exact Nat.le_succ _
  · exact (hother hr).ge

/-- Every active handle is from below the counter, which is never zero. -/
structure Counted (s : Threads κ) : Prop where
  pos : 0 < s.server.nextSessionHandle
  lt : ∀ h ∈ s.server.activeSessions, h < s.server.nextSessionHandle

theorem Counted.step {s : Threads κ} (hs : s.Counted) (e : Turn κ) : (step e s).2.Counted := by
  have hle := nextSessionHandle_le_step e s
  obtain ⟨hmem, hregisters, -⟩ := step_sessions e s
  refine ⟨lt_of_lt_of_le hs.pos hle, fun h hh => ?_⟩
  rcases (hmem h).1 hh with ⟨hr, rfl⟩ | ⟨hactive, -⟩
  · rw [hregisters hr]
    exact Nat.lt_succ_self _
  · exact lt_of_lt_of_le (hs.lt h hactive) hle

theorem counted_run (ip : String) (port : ℤ) (config : EnipServerConfig) (es : List (Turn κ)) :
    (final step es (init ip port config)).Counted :=
  final_invariant (fun e _ hs => hs.step e) es ⟨Nat.one_pos, nofun⟩

end Threads

end Sessions

/-! ## Requests under way -/

section Tested

/-- The frame passes the session test. -/
def PassesTest (c : κ) (frame : WireFrame) (s : Threads κ) (e : Turn κ) : Prop :=
  e = .take c frame ∧ s.threads c = .ready ∧ frame.SendsRrData ∧ frame.sessionHandle ∈ s.server.activeSessions

variable [DecidableEq κ]

namespace Threads

/-- A thread behind a session test has just passed it, or was there before. -/
theorem tested_of_step {e : Turn κ} {s : Threads κ} {c : κ} {frame : WireFrame}
    (h : (step e s).2.threads c = .tested frame) : PassesTest c frame s e ∨ s.threads c = .tested frame := by
  have hcases := step_cases e s
  generalize step e s = result at hcases h
  cases hcases with
  | blocked => exact .inr h
  | @tested c' frame' hready hsend hactive =>
    by_cases hc : c = c'
    · subst hc
      simp only [Function.update_self] at h
      cases h
      exact .inl ⟨rfl, hready, hsend, hactive⟩
    · exact .inr (by simpa [hc] using h)
  | called => exact .inr (tested_of_complete h)
  | executed => exact .inr (tested_of_complete h)
  | @released c' hidle =>
    by_cases hc : c = c'
    · subst hc
      simp at h
    · exact .inr (by simpa [hc] using h)
  | stored => exact .inr h

/-- Only a SendRRData is executed behind the session test. -/
theorem sendsRrData_of_tested (ip : String) (port : ℤ) (config : EnipServerConfig) (es : List (Turn κ)) {c : κ}
    {frame : WireFrame} (h : (final step es (init ip port config)).threads c = .tested frame) :
    frame.SendsRrData := by
  have hstep : ∀ (e : Turn κ) (s : Threads κ), (∀ c frame, s.threads c = .tested frame → frame.SendsRrData) →
      ∀ c frame, (step e s).2.threads c = .tested frame → frame.SendsRrData := by
    intro e s hs c frame htested
    rcases tested_of_step htested with hpasses | hold
    · exact hpasses.2.2.1
    · exact hs c frame hold
  exact final_invariant hstep es (s := init ip port config) nofun c frame h

end Threads

end Tested

/-! ## Whole frames -/

section Frames

variable [DecidableEq κ]

/-- The first turn passes the test and the second one executes, or the first one is the whole call. -/
theorem Threads.take_execute {c : κ} {s : Threads κ} (hready : s.threads c = .ready) (frame : WireFrame) :
    (step (.take c frame) s).1 = none ∧ step (.execute c) (step (.take c frame) s).2 =
        s.complete c frame (handleFrame frame.toEncapsulationFrame (s.scope c)) ∨
      step (.take c frame) s = s.complete c frame (handleFrame frame.toEncapsulationFrame (s.scope c)) ∧
        step (.execute c) (step (.take c frame) s).2 = (none, (step (.take c frame) s).2) := by
  by_cases htest : frame.SendsRrData ∧ frame.sessionHandle ∈ s.server.activeSessions
  · left
    have htake : step (.take c frame) s =
        (none, { s with threads := Function.update s.threads c (.tested frame) }) := by
      rw [step, hready]
      exact if_pos htest
    have hexecute := handleFrame_eq_executeSendRrData (s := s.scope c) htest.1 htest.2
    rw [htake, hexecute]
    simp [step, complete, scope]
  · right
    have htake : step (.take c frame) s = s.complete c frame
        (handleFrame frame.toEncapsulationFrame (s.scope c)) := by
      rw [step, hready]
      exact if_neg htest
    rw [htake]
    -- the call is over, so there is nothing to execute
    refine ⟨rfl, ?_⟩
    rcases handleFrame frame.toEncapsulationFrame (s.scope c) with ⟨e | response, scope⟩ <;> simp [step, complete]

/-- A thread that nobody interrupts handles its frame in one call. -/
theorem Threads.final_take_execute {c : κ} {s : Threads κ} (hready : s.threads c = .ready) (frame : WireFrame) :
    final step [.take c frame, .execute c] s =
      (s.complete c frame (handleFrame frame.toEncapsulationFrame (s.scope c))).2 := by
  rcases take_execute hready frame with ⟨-, hexecute⟩ | ⟨htake, hexecute⟩
  · rw [final_cons, final_cons, hexecute]
    rfl
  · rw [final_cons, final_cons, hexecute, htake]
    rfl

/-- A run of whole frames is a run of the threads in which no other thread runs inside a call. -/
theorem Threads.exists_turns (es : List (Event κ)) (s : System κ) :
    ∃ turns, final step turns (ofSystem s) = ofSystem (final Enip.step es s) := by
  induction es generalizing s with
  | nil => exact ⟨[], rfl⟩
  | cons e es ih =>
    have hstep : ∃ turns, final step turns (ofSystem s) = ofSystem (Enip.step e s).2 := by
      cases e with
      | frame c frame =>
        have hcall := final_take_execute (c := c) (s := ofSystem s) rfl frame
        have hscope : (ofSystem s).scope c = ⟨s.server, s.connections c⟩ := rfl
        rw [hscope] at hcall
        rcases h : handleFrame frame.toEncapsulationFrame ⟨s.server, s.connections c⟩ with ⟨e | response, scope⟩
        · rw [h] at hcall
          refine ⟨[.take c frame, .execute c, .release c], ?_⟩
          rw [step_of_error h]
          show (step (.release c) (final step [.take c frame, .execute c] (ofSystem s))).2 = _
          rw [hcall]
          simp [step, complete, ofSystem]
        · rw [h] at hcall
          refine ⟨[.take c frame, .execute c], ?_⟩
          rw [hcall, step_of_ok h]
          simp [complete, ofSystem]
      | close c =>
        refine ⟨[.release c], ?_⟩
        simp [step, Enip.step, ofSystem]
      | setAssemblyData inst data => exact ⟨[.setAssemblyData inst data], rfl⟩
    obtain ⟨turns, hturns⟩ := hstep
    obtain ⟨turns', hturns'⟩ := ih (Enip.step e s).2
    exact ⟨turns ++ turns', by rw [final_append, hturns, hturns', final_cons]⟩

end Frames

end Cursus.Enip
