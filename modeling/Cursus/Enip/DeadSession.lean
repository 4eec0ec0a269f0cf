/-
Writes under dead sessions. The session test and the write of a Set_Attribute_Single are two critical
sections under two locks, so the session may end in between; the write is done all the same. In every
run a write is done in an active session iff no turn has ended the session since the test.
-/
import Cursus.Enip.Ownership
import Cursus.Enip.Threads

namespace Cursus.Enip

open Cursus.Python Cursus.Run

variable {κ : Type}

/-! ## What a step shows -/

/-- The frame passes the session test. -/
def PassesAt (c : κ) (frame : WireFrame) (x : ThreadStep κ) : Prop := PassesTest c frame x.before x.event

/-- The session ends: it is unregistered, on whatever connection, or released by its own. -/
def EndsAt (h : ℕ) (x : ThreadStep κ) : Prop := x.event.Ends h x.before

/-- The turn executes a Set_Attribute_Single for an assembly that is there. -/
def WritesAssembly (c : κ) (frame : WireFrame) (s : Threads κ) (e : Turn κ) : Prop :=
  e = .execute c ∧ s.threads c = .tested frame ∧
    ∃ inst data, Writes frame.payload inst data ∧ s.server.assemblies.lookup (inst : ℤ) ≠ none

variable [DecidableEq κ]

/-! ## The assemblies -/

/-- The step that executes a write writes what the request asks for. -/
theorem assemblies_of_writes {c : κ} {frame : WireFrame} {s : Threads κ} (htested : s.threads c = .tested frame)
    {inst : ℕ} {data : Bytes} (hwrites : Writes frame.payload inst data)
    (hlookup : s.server.assemblies.lookup (inst : ℤ) ≠ none) :
    (Threads.step (.execute c) s).2.server.assemblies = s.server.assemblies.insert (inst : ℤ) data := by
  have hstep : Threads.step (.execute c) s =
      s.complete c frame (executeSendRrData frame.toEncapsulationFrame (s.scope c)) := by
    rw [Threads.step, htested]
  have hserver : (handleSendRrData frame.payload (s.scope c).server).2 = setAssemblyData inst data s.server :=
    handleSendRrData_of_writes hwrites hlookup
  rw [hstep, executeSendRrData_eq]
  show (handleSendRrData frame.payload (s.scope c).server).2.assemblies = _
  rw [hserver, setAssemblyData]

/-- No other turn of a thread changes an assembly. -/
theorem assemblies_of_not_writes {e : Turn κ} {s : Threads κ} (hset : ∀ inst data, e ≠ .setAssemblyData inst data)
    (hwrites : ∀ c frame, ¬ WritesAssembly c frame s e) :
    (Threads.step e s).2.server.assemblies = s.server.assemblies := by
  have hcases := Threads.step_cases e s
  generalize Threads.step e s = result at hcases ⊢
  cases hcases with
  | blocked => rfl
  | tested => rfl
  | @called c frame hready htest =>
    show (handleFrame frame.toEncapsulationFrame (s.scope c)).2.server.assemblies = _
    have hcases := handleFrame_cases frame.toEncapsulationFrame (s.scope c)
    generalize handleFrame frame.toEncapsulationFrame (s.scope c) = result at hcases ⊢
    cases hcases with
    | registered => rfl
    | unregistered => rfl
    | written hsend hactive => exact absurd ⟨hsend, hactive⟩ htest
    | answered => rfl
    | failed => rfl
    | quiet => rfl
  | @executed c frame htested =>
    show (executeSendRrData frame.toEncapsulationFrame (s.scope c)).2.server.assemblies = _
    have hcases := executeSendRrData_cases frame.toEncapsulationFrame (s.scope c)
    generalize executeSendRrData frame.toEncapsulationFrame (s.scope c) = result at hcases ⊢
    cases hcases with
    | written hw hlookup => exact absurd ⟨rfl, htested, _, _, hw, hlookup⟩ (hwrites c frame)
    | answered => rfl
    | failed => rfl
  | released => rfl
  | @stored inst data => exact absurd rfl (hset inst data)

/-! ## The session since its test -/

/-- What a run knows of the requests behind the session test. -/
structure TestedInv (t : List (ThreadStep κ)) (s : Threads κ) : Prop where
  counted : s.Counted
  tested_lt : ∀ c frame, s.threads c = .tested frame → frame.sessionHandle < s.server.nextSessionHandle
  active_iff : ∀ c frame, s.threads c = .tested frame →
    (frame.sessionHandle ∈ s.server.activeSessions ↔ Live (PassesAt c frame) (EndsAt frame.sessionHandle) t)

theorem TestedInv.step {t : List (ThreadStep κ)} {s : Threads κ} (hi : TestedInv t s) (e : Turn κ) :
    TestedInv (t ++ [⟨s, e, (Threads.step e s).1, (Threads.step e s).2⟩]) (Threads.step e s).2 := by
  have hle := Threads.nextSessionHandle_le_step e s
  obtain ⟨hmem, -, -⟩ := Threads.step_sessions e s
  refine ⟨hi.counted.step e, ?_, ?_⟩
  · intro c frame htested
    rcases Threads.tested_of_step htested with hpasses | hold
    · exact lt_of_lt_of_le (hi.counted.lt _ hpasses.2.2.2) hle
    · exact lt_of_lt_of_le (hi.tested_lt c frame hold) hle
  · intro c frame htested
    rw [live_snoc_iff, hmem]
    rcases Threads.tested_of_step htested with hpasses | hold
    · obtain ⟨rfl, hready, hsend, hactive⟩ := id hpasses
      refine iff_of_true (.inr ⟨hactive, ?_⟩) (.inl hpasses)
      rintro ⟨-, hu, -⟩
      exact hu.not_sendsRrData hsend
    · have hne : frame.sessionHandle ≠ s.server.nextSessionHandle := (hi.tested_lt c frame hold).ne
      have hnot : ¬ PassesAt c frame ⟨s, e, (Threads.step e s).1, (Threads.step e s).2⟩ := by
        rintro ⟨-, hready, -⟩
        rw [hold] at hready
        cases hready
      rw [hi.active_iff c frame hold]
      simp [hne, hnot, EndsAt]

section Runs

variable (ip : String) (port : ℤ) (config : EnipServerConfig)

theorem testedInv_run (es : List (Turn κ)) :
    TestedInv (transitions Threads.step es (.init ip port config)) (final Threads.step es (.init ip port config)) := by
  have h₀ : TestedInv [] (Threads.init ip port config : Threads κ) :=
    ⟨Threads.counted_run ip port config [], nofun, nofun⟩
  exact transitions_invariant h₀ (fun _ e _ hi => hi.step e) es

/-! ## Writes in a run -/

/-- Every write of the run is done while its session is active. -/
def WritesInSession (es : List (Turn κ)) : Prop :=
  ∀ before e after c frame, es = before ++ e :: after →
    WritesAssembly c frame (final Threads.step before (.init ip port config)) e →
      frame.sessionHandle ∈ (final Threads.step before (.init ip port config)).server.activeSessions

/-- No write of the run has had its session end since its session test. -/
def SessionsOutlastTests (es : List (Turn κ)) : Prop :=
  ∀ before e after c frame, es = before ++ e :: after →
    WritesAssembly c frame (final Threads.step before (.init ip port config)) e →
      Live (PassesAt c frame) (EndsAt frame.sessionHandle) (transitions Threads.step before (.init ip port config))

/-- The writes of a run are done in active sessions iff no session ends between the test and the write
of a request. -/
theorem writesInSession_iff (es : List (Turn κ)) :
    WritesInSession ip port config es ↔ SessionsOutlastTests ip port config es := by
  constructor
  · intro h before e after c frame hes hw
    exact ((testedInv_run ip port config before).active_iff c frame hw.2.1).1 (h before e after c frame hes hw)
  · intro h before e after c frame hes hw
    exact ((testedInv_run ip port config before).active_iff c frame hw.2.1).2 (h before e after c frame hes hw)

end Runs

theorem writes_setAttributeFrame : Writes setAttributeFrame.payload 100 [0x11] := by
  refine ⟨0, [0x10, 3, 0x20, 4, 0x24, 0x64, 0x30, 3, 0x11], ?_, ?_⟩
  · exact ⟨[⟨0, [], by simp, by simp⟩, ⟨0xB2, [0x10, 3, 0x20, 4, 0x24, 0x64, 0x30, 3, 0x11], by simp, by simp⟩],
      [], by simp, by simp, rfl, rfl⟩
  · exact ⟨3, [0x20, 4, 0x24, 0x64, 0x30, 3], rfl, rfl,
      [.value .cls .byte 4 (by decide), .value .inst .byte 100 (by decide), .value .attr .byte 3 (by decide)], rfl, rfl⟩

/-- One connection registers a session and passes the session test of a write, another one unregisters
the session, and the write is done. -/
theorem not_writesInSession_unregistered :
    ¬ WritesInSession "127.0.0.1" 44818 {}
      [.take true registerFrame, .take true setAttributeFrame, .take false unregisterFrame, .execute true] := by
  intro h
  have hactive := h [.take true registerFrame, .take true setAttributeFrame, .take false unregisterFrame]
    (.execute true) [] true setAttributeFrame rfl ⟨rfl, rfl, 100, [0x11], writes_setAttributeFrame, by decide +kernel⟩
  exact absurd hactive (by decide +kernel)

end Cursus.Enip
