/-
The sessions of `cursus/enip/server.py`: the table of active sessions is a table of handles whose
owners are the connections, so over every run it holds the handles that were issued and have since
neither been unregistered nor lost their connection.
-/
import Cursus.Enip.System
import Cursus.Run.Handles

namespace Cursus.Enip

open Cursus.Python Cursus.Run

variable {κ : Type}

/-! ## What a trace shows of the sessions -/

/-- A RegisterSession on the connection was answered with the handle. -/
def Issues (c : κ) (h : ℕ) : Event κ × Outcome → Prop
  | (.frame c' frame, .ok (some reply)) => c' = c ∧ frame.Registers ∧ encapSession reply = h
  | _ => False

/-- An UnregisterSession for the handle was processed, on whatever connection. -/
def EndsSession (h : ℕ) : Event κ × Outcome → Prop
  | (.frame _ frame, .ok _) => frame.Unregisters ∧ frame.sessionHandle = h
  | _ => False

/-- The connection closed, at its end or because a frame raised. -/
def Closes (c : κ) : Event κ × Outcome → Prop
  | (.close c', _) => c' = c
  | (.frame c' _, .error _) => c' = c
  | _ => False

/-- The handle was issued on the connection, has not been unregistered since, and the connection has
not closed since. -/
def SessionLive (t : List (Event κ × Outcome)) (c : κ) (h : ℕ) : Prop :=
  Live (Issues c h) (fun x => EndsSession h x ∨ Closes c x) t

/-- A frame of the connection was handled, and the connection has not closed since. -/
def Open (t : List (Event κ × Outcome)) (c : κ) : Prop :=
  Live (fun x => ∃ frame response, x = (.frame c frame, .ok response)) (Closes c) t

theorem SessionLive.isOpen {t : List (Event κ × Outcome)} {c : κ} {h : ℕ} (hl : SessionLive t c h) : Open t c := by
  refine hl.imp ?_ fun _ => .inr
  rintro ⟨e, o⟩ hx
  cases e with
  | frame c' frame =>
    rcases o with e | _ | reply
    · cases hx
    · cases hx
    · obtain ⟨rfl, -⟩ := hx
      exact ⟨frame, _, rfl⟩
  | close c' => cases hx
  | setAssemblyData inst data => cases hx

/-! ## The table of handles -/

/-- The sessions of a state. -/
def System.handles (s : System κ) : Handles κ :=
  ⟨s.server.nextSessionHandle, s.server.activeSessions, s.connections⟩

/-- What an event does to the sessions. -/
def sessionAction : Event κ × Outcome → Action κ × Option ℕ
  | (.frame c frame, .ok (some reply)) =>
    if frame.Registers then (.issue c, some (encapSession reply))
    else if frame.Unregisters then (.finish c frame.sessionHandle, none)
    else (.idle, none)
  | (.frame c frame, .ok none) =>
    if frame.Unregisters then (.finish c frame.sessionHandle, none) else (.idle, none)
  | (.frame c frame, .error _) => if frame.Registers then (.abort c, none) else (.close c, none)
  | (.close c, _) => (.close c, none)
  | (.setAssemblyData _ _, _) => (.idle, none)

theorem issues_iff (c : κ) (h : ℕ) (x : Event κ × Outcome) : Issues c h x ↔ Handles.Issues c h (sessionAction x) := by
  obtain ⟨e, o⟩ := x
  cases e with
  | frame c' frame =>
    rcases o with e | _ | reply
    · simp only [sessionAction]
      split_ifs <;> exact Iff.rfl
    · simp only [sessionAction]
      split_ifs <;> exact Iff.rfl
    · simp only [sessionAction, Issues]
      split_ifs with hr hu
      · simp [Handles.Issues, hr, eq_comm]
      · simp [Handles.Issues, hr]
      · simp [Handles.Issues, hr]
  | close c' => exact Iff.rfl
  | setAssemblyData inst data => exact Iff.rfl

theorem ends_iff (c : κ) (h : ℕ) (x : Event κ × Outcome) :
    EndsSession h x ∨ Closes c x ↔ Handles.Ends c h (sessionAction x) := by
  obtain ⟨e, o⟩ := x
  cases e with
  | frame c' frame =>
    rcases o with e | _ | reply
    · simp only [sessionAction, EndsSession, Closes, false_or]
      split_ifs <;> exact Iff.rfl
    · simp only [sessionAction, EndsSession, Closes, or_false]
      split_ifs with hu
      · simp [Handles.Ends, hu, eq_comm]
      · simp [Handles.Ends, hu]
    · simp only [sessionAction, EndsSession, Closes, or_false]
      split_ifs with hr hu
      · simp [Handles.Ends, hr.not_unregisters]
      · simp [Handles.Ends, hu, eq_comm]
      · simp [Handles.Ends, hu]
  | close c' => simp [sessionAction, EndsSession, Closes, Handles.Ends]
  | setAssemblyData inst data => simp [sessionAction, EndsSession, Closes, Handles.Ends]

theorem sessionLive_iff {t : List (Event κ × Outcome)} {c : κ} {h : ℕ} :
    SessionLive t c h ↔ Live (Handles.Issues c h) (Handles.Ends c h) (t.map sessionAction) := by
  have hbegins : Issues c h = fun x : Event κ × Outcome => Handles.Issues c h (sessionAction x) :=
    funext fun x => propext (issues_iff c h x)
  rw [live_map_iff, SessionLive, hbegins]
  simp only [ends_iff]

/-! ## Steps -/

variable [DecidableEq κ]

/-- Every step of the server is a step of the table of handles. -/
theorem step_handles (e : Event κ) (s : System κ) :
    Handles.step (sessionAction (e, (step e s).1)).1 s.handles =
      ((sessionAction (e, (step e s).1)).2, (step e s).2.handles) := by
  cases e with
  | close c =>
    show (none, s.handles.close c) = (none, _)
    simp only [step, releaseSessions_eq]
    rfl
  | setAssemblyData inst data => rfl
  | frame c frame =>
    by_cases hr : frame.Registers
    · have hframe := handleFrame_of_registers hr ⟨s.server, s.connections c⟩
      cases hbuild : buildEncapsulationResponse frame.command s.server.nextSessionHandle frame.senderContext
        frame.payload encapStatusSuccess with
      | error e =>
        -- the handle does not fit its field: it is issued and given up at once
        rw [hbuild] at hframe
        have hstep := step_of_error hframe
        rw [hstep]
        simp only [sessionAction, if_pos hr, Handles.step, releaseSessions_eq]
        simp [System.handles, Handles.close, Handles.issue, Scope.issue]
      | ok reply =>
        rw [hbuild] at hframe
        have hstep := step_of_ok hframe
        rw [hstep]
        simp only [sessionAction, if_pos hr, Handles.step]
        rw [(isReply_of_build hbuild).session_eq]
        rfl
    by_cases hu : frame.Unregisters
    · have hstep := step_of_ok (handleFrame_of_unregisters hu ⟨s.server, s.connections c⟩)
      rw [hstep]
      simp only [sessionAction, if_pos hu, Handles.step]
      rfl
    obtain ⟨assemblies, hsnd⟩ := handleFrame_idle hr hu ⟨s.server, s.connections c⟩
    rcases hframe : handleFrame frame.toEncapsulationFrame ⟨s.server, s.connections c⟩ with ⟨e | response, scope⟩
    · rw [hframe] at hsnd
      subst hsnd
      have hstep := step_of_error hframe
      rw [hstep]
      simp only [sessionAction, if_neg hr, Handles.step, releaseSessions_eq]
      rfl
    · rw [hframe] at hsnd
      subst hsnd
      have hstep := step_of_ok hframe
      have haction : sessionAction (.frame c frame, .ok response) = (.idle, none) := by
        cases response with
        | none => exact if_neg hu
        | some reply => exact (if_neg hr).trans (if_neg hu)
      rw [hstep, haction]
      simp [Handles.step, System.handles]

/-- A run of the server is a run of the table of handles. -/
theorem exists_handles_run (ip : String) (port : ℤ) (config : EnipServerConfig) (es : List (Event κ)) :
    ∃ as, trace Handles.step as Handles.init = (trace step es (.init ip port config)).map sessionAction ∧
      final Handles.step as Handles.init = (final step es (.init ip port config)).handles :=
  simulation step_handles es (.init ip port config)

/-! ## Dead sessions -/

/-- The frame is answered with the status of an invalid session. -/
def Refused (o : Outcome) : Prop := ∃ reply, o = .ok (some reply) ∧ encapStatus reply = encapStatusInvalidSession

theorem encapStatus_sendRrDataReply {f : EncapsulationFrame} {cipResponse : Option Bytes} {reply : Bytes}
    (h : sendRrDataReply f cipResponse = .ok reply) : encapStatus reply ≠ encapStatusInvalidSession := by
  cases cipResponse with
  | none =>
    rw [(isReply_of_build h).status_eq]
    decide
  | some payload =>
    rw [(isReply_of_build h).status_eq]
    decide

/-- SendRRData is refused exactly when its session is not active, and then it changes nothing. -/
theorem refused_iff (c : κ) {frame : WireFrame} (h : frame.SendsRrData) (s : System κ) :
    Refused (step (.frame c frame) s).1 ↔ frame.sessionHandle ∉ s.server.activeSessions := by
  rw [step_frame_fst]
  by_cases hs : frame.sessionHandle ∈ s.server.activeSessions
  · refine iff_of_false ?_ (not_not_intro hs)
    rintro ⟨reply, hreply, hstatus⟩
    rw [handleFrame_of_active h hs] at hreply
    obtain ⟨cipResponse, -, hreply⟩ := bind_eq_ok hreply
    cases hbuild : sendRrDataReply frame.toEncapsulationFrame cipResponse with
    | error e =>
      rw [hbuild] at hreply
      cases hreply
    | ok reply' =>
      rw [hbuild] at hreply
      cases hreply
      exact encapStatus_sendRrDataReply hbuild hstatus
  · refine iff_of_true ?_ hs
    obtain ⟨reply, hbuild⟩ := exists_buildEncapsulationResponse frame.senderContext frame.command_lt
      frame.sessionHandle_lt (show encapStatusInvalidSession < 256 ^ 4 by simp)
      (show ([] : Bytes).length < 256 ^ 2 by simp)
    rw [handleFrame_of_inactive h hs, hbuild]
    exact ⟨reply, rfl, (isReply_of_build hbuild).status_eq⟩

theorem step_of_refused (c : κ) {frame : WireFrame} (h : frame.SendsRrData) {s : System κ}
    (hs : frame.sessionHandle ∉ s.server.activeSessions) : (step (.frame c frame) s).2 = s := by
  obtain ⟨reply, hreply, -⟩ := (refused_iff c h s).2 hs
  have hframe := handleFrame_of_inactive (s := ⟨s.server, s.connections c⟩) h hs
  rw [step_frame_fst, hframe] at hreply
  rw [step_of_ok (hframe.trans (Prod.ext hreply rfl))]
  simp

/-! ## The active sessions -/

section Runs

variable (ip : String) (port : ℤ) (config : EnipServerConfig)

theorem mem_activeSessions_iff (es : List (Event κ)) (h : ℕ) :
    h ∈ (final step es (.init ip port config)).server.activeSessions ↔
      ∃ c, SessionLive (trace step es (.init ip port config)) c h := by
  obtain ⟨as, htrace, hfinal⟩ := exists_handles_run ip port config es
  have hi := (Handles.inv_run as).active_iff h
  rw [hfinal, htrace] at hi
  simp only [sessionLive_iff]
  exact hi

/-- A handle that was issued and has ended never becomes active again. -/
theorem notMem_activeSessions_append (es es' : List (Event κ)) {c : κ} {h : ℕ} {x : Event κ × Outcome}
    (hx : x ∈ trace step es (.init ip port config)) (hissues : Issues c h x)
    (hnot : h ∉ (final step es (.init ip port config)).server.activeSessions) :
    h ∉ (final step (es ++ es') (.init ip port config)).server.activeSessions := by
  obtain ⟨as, htrace, hfinal⟩ := exists_handles_run ip port config es
  have hlt : h < (final Handles.step as Handles.init).next := by
    refine (Handles.inv_run as).issued_lt (sessionAction x) ?_ c h ((issues_iff c h x).1 hissues)
    rw [htrace]
    exact List.mem_map_of_mem hx
  obtain ⟨as', -, hfinal'⟩ := simulation step_handles es' (final step es (.init ip port config))
  have hend := Handles.notMem_active_of_lt as' ⟨hlt, by rw [hfinal]; exact hnot⟩
  rw [hfinal, hfinal', ← final_append] at hend
  exact hend.2

/-- After every run the active sessions are the live ones. So SendRRData is refused exactly outside
them, a handle that has ended stays refused, and nothing is left when all connections are closed. -/
theorem activeSessions_history (es : List (Event κ)) :
    (∀ h, h ∈ (final step es (.init ip port config)).server.activeSessions ↔
      ∃ c, SessionLive (trace step es (.init ip port config)) c h) ∧
    (∀ (c : κ) (frame : WireFrame), frame.SendsRrData →
      (Refused (step (.frame c frame) (final step es (.init ip port config))).1 ↔
        ¬ ∃ c', SessionLive (trace step es (.init ip port config)) c' frame.sessionHandle)) ∧
    (∀ (c : κ) (h : ℕ) (x : Event κ × Outcome), x ∈ trace step es (.init ip port config) → Issues c h x →
      (¬ ∃ c', SessionLive (trace step es (.init ip port config)) c' h) →
      ∀ (es' : List (Event κ)) (c' : κ) (frame : WireFrame), frame.SendsRrData → frame.sessionHandle = h →
        Refused (step (.frame c' frame) (final step (es ++ es') (.init ip port config))).1) ∧
    ((∀ c, ¬ Open (trace step es (.init ip port config)) c) →
      (final step es (.init ip port config)).server.activeSessions = ∅) := by
  refine ⟨mem_activeSessions_iff ip port config es, ?_, ?_, ?_⟩
  · intro c frame hframe
    rw [refused_iff c hframe, mem_activeSessions_iff]
  · rintro c h x hx hissues hdead es' c' frame hframe rfl
    rw [refused_iff c' hframe]
    rw [← mem_activeSessions_iff ip port config es] at hdead
    exact notMem_activeSessions_append ip port config es es' hx hissues hdead
  · intro hclosed
    apply Finset.eq_empty_of_forall_notMem
    intro h hh
    obtain ⟨c, hl⟩ := (mem_activeSessions_iff ip port config es h).1 hh
    exact hclosed c hl.isOpen

end Runs

end Cursus.Enip
