/-
Calls of `cursus/enip/server.py` that overlap. The threads of the connections interleave between critical
sections; when no session ends while a SendRRData with it is under way, what clients see is what they would
see of whole calls, one after the other. Clients that keep to the sessions of their own connection see to
that themselves.
-/
import Cursus.Enip.DeadSession
import Cursus.Run.Linearize

namespace Cursus.Enip

open Cursus.Python Cursus.Run

variable {κ : Type} [DecidableEq κ]

/-! ## Whole calls -/

/-- `handle_frame`, `release_sessions` or `set_assembly_data`, with no other call in between. -/
def callStep : Step (System κ) (Event κ) Outcome
  | .frame c frame, s =>
    ((handleFrame frame.toEncapsulationFrame ⟨s.server, s.connections c⟩).1,
      { server := (handleFrame frame.toEncapsulationFrame ⟨s.server, s.connections c⟩).2.server
        connections := Function.update s.connections c
          (handleFrame frame.toEncapsulationFrame ⟨s.server, s.connections c⟩).2.connectionSessions })
  | .close c, s => (.ok none, ⟨releaseSessions (s.connections c) s.server, Function.update s.connections c ∅⟩)
  | .setAssemblyData inst data, s => (.ok none, { s with server := setAssemblyData inst data s.server })

/-- Whole frames, of which a raising one ends its connection, are whole calls, of which none raises or the
connection is closed next. -/
theorem step_eq_callStep (e : Event κ) (s : System κ) :
    step e s = callStep e s ∨
      ∃ c frame e', e = .frame c frame ∧ (callStep e s).1 = .error e' ∧
        step e s = (.error e', (callStep (.close c) (callStep e s).2).2) := by
  cases e with
  | frame c frame =>
    rcases h : handleFrame frame.toEncapsulationFrame ⟨s.server, s.connections c⟩ with ⟨e' | response, scope⟩
    · refine .inr ⟨c, frame, e', rfl, ?_, ?_⟩
      · rw [callStep, h]
      · rw [step_of_error h]
        simp [callStep, h]
    · left
      rw [step_of_ok h, callStep, h]
  | close c => exact .inl rfl
  | setAssemblyData inst data => exact .inl rfl

/-! ## What is seen -/

/-- What is seen of a turn: a thread takes a frame, and its call returns; a connection ends; or
`set_assembly_data` is called, by no connection. -/
def see (x : ThreadStep κ) : List (Seen (Option κ) (Event κ) Outcome) :=
  match x.event with
  | .take c frame =>
    match x.before.threads c with
    | .ready => .begins (some c) (.frame c frame) :: x.outcome.toList.map fun call => .returns (some c) call.outcome
    | _ => []
  | .execute c => x.outcome.toList.map fun call => .returns (some c) call.outcome
  | .release c =>
    match x.before.threads c with
    | .tested _ => []
    | _ => [.begins (some c) (.close c), .returns (some c) (.ok none)]
  | .setAssemblyData inst data => [.begins none (.setAssemblyData inst data), .returns none (.ok none)]

/-- A thread behind a session test has begun its call, whose effect is the access behind it. -/
def Thread.phase (c : κ) : Thread → Phase (Event κ) Outcome
  | .ready | .raised => .outside
  | .tested frame => .pending (.frame c frame)

namespace Threads

def phases (s : Threads κ) : Option κ → Phase (Event κ) Outcome
  | none => .outside
  | some c => (s.threads c).phase c

theorem phases_update (s : Threads κ) (c : κ) (thread : Thread) (system : System κ) :
    phases { toSystem := system, threads := Function.update s.threads c thread } =
      Function.update s.phases (some c) (thread.phase c) := by
  funext k
  cases k with
  | none => rfl
  | some c' =>
    by_cases hc : c' = c
    · subst hc
      simp [phases]
    · simp [phases, hc]

/-- Nothing is under way in a dead session. -/
def InSession (s : Threads κ) : Prop :=
  ∀ c frame, s.threads c = .tested frame → frame.SendsRrData ∧ frame.sessionHandle ∈ s.server.activeSessions

/-- The turn ends the session of a SendRRData that is under way. -/
def EndsTested (s : Threads κ) (e : Turn κ) : Prop :=
  ∃ c frame, s.threads c = .tested frame ∧ e.Ends frame.sessionHandle s

theorem InSession.step {s : Threads κ} (hs : s.InSession) {e : Turn κ} (he : ¬ s.EndsTested e) :
    (step e s).2.InSession := by
  obtain ⟨hmem, -, -⟩ := step_sessions e s
  intro c frame htested
  rcases tested_of_step htested with ⟨rfl, -, hsend, hactive⟩ | hold
  · refine ⟨hsend, (hmem _).2 (.inr ⟨hactive, ?_⟩)⟩
    rintro ⟨-, hu, -⟩
    exact hu.not_sendsRrData hsend
  · obtain ⟨hsend, hactive⟩ := hs c frame hold
    exact ⟨hsend, (hmem _).2 (.inr ⟨hactive, fun hends => he ⟨c, frame, hold, hends⟩⟩)⟩

/-- A call that ends ends as a whole call. -/
theorem complete_eq (s : Threads κ) (c : κ) (frame : WireFrame) {result : Outcome × Scope}
    (h : result = handleFrame frame.toEncapsulationFrame (s.scope c)) :
    (s.complete c frame result).1 = some ⟨c, frame, (callStep (.frame c frame) s.toSystem).1⟩ ∧
      (s.complete c frame result).2.toSystem = (callStep (.frame c frame) s.toSystem).2 ∧
      (s.complete c frame result).2.phases = Function.update s.phases (some c) .outside := by
  subst h
  refine ⟨rfl, rfl, ?_⟩
  rw [complete, phases_update]
  split <;> rfl

end Threads

/-! ## Whole calls are seen -/

section Linearizes

variable {s : Threads κ}

/-- Every turn shows some marks, and takes effect as they say, as long as nothing is under way in a dead
session. -/
theorem marks_of_turn (hs : s.InSession) (e : Turn κ) : ∃ marks,
    observed marks = see ⟨s, e, (Threads.step e s).1, (Threads.step e s).2⟩ ∧
      Moves s.phases marks (Threads.step e s).2.phases ∧
      Effects callStep s.toSystem marks (Threads.step e s).2.toSystem := by
  have hcases := Threads.step_cases e s
  generalize Threads.step e s = result at hcases ⊢
  cases hcases with
  | blocked hb =>
    refine ⟨[], ?_, .nil, effects_none rfl⟩
    cases e with
    | take c frame =>
      have hbusy : s.threads c ≠ .ready := hb
      cases hthread : s.threads c with
      | ready => exact absurd hthread hbusy
      | tested | raised => simp only [see, hthread, observed]
    | execute c => rfl
    | release c =>
      obtain ⟨frame, htested⟩ := hb
      simp only [see, htested, observed]
    | setAssemblyData inst data => exact hb.elim
  | @tested c frame hready hsend hactive =>
    refine ⟨[.seen (.begins (some c) (.frame c frame))], ?_, ?_, effects_none rfl⟩
    · simp [see, hready, observed]
    · have houtside : s.phases (some c) = .outside := by simp only [Threads.phases, hready, Thread.phase]
      rw [Threads.phases_update s c (.tested frame) s.toSystem]
      exact .begins houtside .nil
  | @called c frame hready htest =>
    obtain ⟨hcall, hsystem, hphases⟩ := s.complete_eq c frame rfl
    have houtside : s.phases (some c) = .outside := by simp only [Threads.phases, hready, Thread.phase]
    refine ⟨instant (some c) (.frame c frame) (callStep (.frame c frame) s.toSystem).1, ?_, ?_, effects_one rfl ?_⟩
    · simp [see, hready, observed, hcall, instant, ending]
    · rw [hphases, ← houtside, Function.update_eq_self]
      exact .instant houtside
    · rw [hsystem]
  | @executed c frame htested =>
    obtain ⟨hsend, hactive⟩ := hs c frame htested
    obtain ⟨hcall, hsystem, hphases⟩ := s.complete_eq c frame
      (handleFrame_eq_executeSendRrData (s := s.scope c) hsend hactive).symm
    have hpending : s.phases (some c) = .pending (.frame c frame) := by
      simp only [Threads.phases, htested, Thread.phase]
    refine ⟨ending (some c) (.frame c frame) (callStep (.frame c frame) s.toSystem).1, ?_, ?_, effects_one rfl ?_⟩
    · simp [see, observed, hcall, ending]
    · rw [hphases]
      exact .ending hpending
    · rw [hsystem]
  | @released c hidle =>
    have houtside : s.phases (some c) = .outside := by
      cases hthread : s.threads c with
      | tested frame => exact absurd hthread (hidle frame)
      | ready | raised => simp only [Threads.phases, hthread, Thread.phase]
    refine ⟨instant (some c) (.close c) (.ok none), ?_, ?_, effects_one rfl ?_⟩
    · cases hthread : s.threads c with
      | tested frame => exact absurd hthread (hidle frame)
      | ready | raised => simp [see, hthread, observed, instant, ending]
    · have hphases := Threads.phases_update s c .ready
        ⟨{ s.server with activeSessions := s.server.activeSessions \ s.connections c },
          Function.update s.connections c ∅⟩
      rw [hphases, Thread.phase, ← houtside, Function.update_eq_self]
      exact .instant houtside
    · rw [callStep, releaseSessions_eq]
  | @stored inst data =>
    exact ⟨instant none (.setAssemblyData inst data) (.ok none), rfl, .instant rfl, effects_one rfl rfl⟩

/-- From whatever state, a run of the threads in which no session ends while a SendRRData with it is under
way shows whole calls that overlap. -/
theorem overlapping_linearizes (s : System κ) (turns : List (Turn κ))
    (h : ∀ x ∈ transitions Threads.step turns (.ofSystem s), ¬ x.before.EndsTested x.event) :
    Linearizes callStep s (history Threads.step see turns (.ofSystem s))
      (final Threads.step turns (.ofSystem s)).toSystem := by
  refine linearizes_of_simulation Threads.toSystem (fun s p => p = s.phases ∧ s.InSession) (C := fun s e => ¬ s.EndsTested e) ?_ (t := .ofSystem s) h ⟨?_, nofun⟩
  · rintro e t p he ⟨rfl, hin⟩
    obtain ⟨marks, hseen, hmoves, heffects⟩ := marks_of_turn hin e
    exact ⟨marks, _, hseen, hmoves, heffects, rfl, hin.step he⟩
  · funext k
    cases k <;> rfl

end Linearizes

/-- Two connections write in the session of the first one, both behind the session test at once. -/
def sharedTurns : List (Turn Bool) :=
  [.take true registerFrame, .take true setAttributeFrame, .take false setAttributeFrame, .execute true, .execute false]

theorem overlapping_linearizes_shared :
    Linearizes callStep (.init "127.0.0.1" 44818 {})
      (history Threads.step see sharedTurns (.ofSystem (.init "127.0.0.1" 44818 {})))
      (final Threads.step sharedTurns (.ofSystem (.init "127.0.0.1" 44818 {}))).toSystem :=
  overlapping_linearizes (.init "127.0.0.1" 44818 {}) sharedTurns fun x hx => by
    rintro ⟨c, frame, -, hends⟩
    obtain ⟨before, after, hturns, -⟩ := exists_of_mem_transitions Threads.step hx
    have hmem : x.event ∈ sharedTurns := by
      rw [hturns]
      exact List.mem_append_right _ List.mem_cons_self
    -- no turn unregisters a session or closes a connection
    simp only [sharedTurns, List.mem_cons, List.not_mem_nil, or_false] at hmem
    rcases hmem with h | h | h | h | h <;> rw [h] at hends
    · exact absurd hends.2.1 (by decide)
    · exact absurd hends.2.1 (by decide)
    · exact absurd hends.2.1 (by decide)
    · exact hends
    · exact hends

/-! ## Own sessions -/

namespace Threads

/-- The turn takes a frame in a session that was registered on another connection. -/
def Trespasses (s : Threads κ) : Turn κ → Prop
  | .take c frame => (frame.SendsRrData ∨ frame.Unregisters) ∧
      frame.sessionHandle ∈ s.server.activeSessions ∧ frame.sessionHandle ∉ s.connections c
  | _ => False

instance (s : Threads κ) : DecidablePred s.Trespasses
  | .take _ _ => inferInstanceAs (Decidable (_ ∧ _))
  | .execute _ => .isFalse id
  | .release _ => .isFalse id
  | .setAssemblyData _ _ => .isFalse id

/-- Every session belongs to one connection, and whatever is under way is under way in a session of its own
connection. -/
structure Separate (s : Threads κ) : Prop where
  lt : ∀ c, ∀ h ∈ s.connections c, h < s.server.nextSessionHandle
  eq : ∀ c c' h, h ∈ s.connections c → h ∈ s.connections c' → c = c'
  own : ∀ c frame, s.threads c = .tested frame → frame.sessionHandle ∈ s.connections c

omit [DecidableEq κ] in
theorem separate_ofSystem {s : System κ} (hlt : ∀ c, ∀ h ∈ s.connections c, h < s.server.nextSessionHandle)
    (heq : ∀ c c' h, h ∈ s.connections c → h ∈ s.connections c' → c = c') : (ofSystem s).Separate :=
  ⟨hlt, heq, nofun⟩

/-- A connection gains the handle that is issued to it, and no other one. -/
theorem connections_step (e : Turn κ) (s : Threads κ) (c : κ) (h : ℕ) (hh : h ∈ (step e s).2.connections c) :
    h ∈ s.connections c ∨
      h = s.server.nextSessionHandle ∧ ∃ frame, e = .take c frame ∧ e.Registers s := by
  have hcases := step_cases e s
  generalize step e s = result at hcases hh
  -- a call changes the sessions of its own connection only
  have hcall : ∀ {c' : κ} {frame : WireFrame} {result : Outcome × Scope},
      h ∈ (s.complete c' frame result).2.connections c → result.2.connectionSessions ⊆ s.connections c' →
        h ∈ s.connections c := by
    intro c' frame result hh hsub
    by_cases hc : c = c'
    · subst hc
      simp only [complete, Function.update_self] at hh
      exact hsub hh
    · simpa [complete, hc] using hh
  cases hcases with
  | blocked => exact .inl hh
  | tested => exact .inl hh
  | @called c' frame hready htest =>
    by_cases hr : frame.Registers
    · rw [handleFrame_of_registers hr] at hh
      by_cases hc : c = c'
      · subst hc
        simp only [complete, Function.update_self, Scope.issue, Finset.mem_insert] at hh
        rcases hh with rfl | hh
        · exact .inr ⟨rfl, frame, rfl, hready, hr⟩
        · exact .inl hh
      · exact .inl (by simpa [complete, hc] using hh)
    left
    by_cases hu : frame.Unregisters
    · rw [handleFrame_of_unregisters hu] at hh
      exact hcall hh (Finset.erase_subset _ _)
    · obtain ⟨assemblies, hsnd⟩ := handleFrame_idle hr hu (s.scope c')
      refine hcall hh ?_
      rw [hsnd]
      exact subset_rfl
  | @executed c' frame htested =>
    obtain ⟨assemblies, hsnd⟩ := executeSendRrData_idle frame.toEncapsulationFrame (s.scope c')
    refine .inl (hcall hh ?_)
    rw [hsnd]
    exact subset_rfl
  | @released c' hidle =>
    by_cases hc : c = c'
    · subst hc
      simp at hh
    · exact .inl (by simpa [hc] using hh)
  | stored => exact .inl hh

/-- The sessions of a connection are its own until it ends them itself. -/
theorem mem_connections_of_tested {e : Turn κ} {s : Threads κ} {c : κ} {frame : WireFrame}
    (hs : s.threads c = .tested frame) {h : ℕ} (hh : h ∈ s.connections c)
    (htested : (step e s).2.threads c = .tested frame) : h ∈ (step e s).2.connections c := by
  have hcases := step_cases e s
  generalize step e s = result at hcases htested
  -- a call on this connection would have left the thread outside
  have hcall : ∀ {c' : κ} {frame' : WireFrame} {result : Outcome × Scope},
      (s.complete c' frame' result).2.threads c = .tested frame →
        h ∈ (s.complete c' frame' result).2.connections c := by
    intro c' frame' result htested
    by_cases hc : c = c'
    · subst hc
      simp only [complete, Function.update_self] at htested
      split at htested <;> cases htested
    · simpa [complete, hc] using hh
  cases hcases with
  | blocked => exact hh
  | tested => exact hh
  | called => exact hcall htested
  | executed => exact hcall htested
  | @released c' hidle =>
    have hc : c ≠ c' := by
      rintro rfl
      exact hidle frame hs
    simpa [hc] using hh
  | stored => exact hh

omit [DecidableEq κ] in
theorem Separate.not_endsTested {s : Threads κ} (hs : s.Separate) (hin : s.InSession) {e : Turn κ}
    (he : ¬ s.Trespasses e) : ¬ s.EndsTested e := by
  rintro ⟨c, frame, htested, hends⟩
  have hown := hs.own c frame htested
  cases e with
  | take c' frame' =>
    obtain ⟨hready, hu, hhandle⟩ := hends
    have hmine : frame'.sessionHandle ∈ s.connections c' := by
      by_contra hnot
      exact he ⟨.inr hu, hhandle ▸ (hin c frame htested).2, hnot⟩
    rw [hhandle] at hmine
    obtain rfl := hs.eq c c' _ hown hmine
    rw [htested] at hready
    cases hready
  | release c' =>
    obtain ⟨hidle, hmine⟩ := hends
    obtain rfl := hs.eq c c' _ hown hmine
    exact hidle frame htested
  | execute | setAssemblyData => exact hends

theorem Separate.step {s : Threads κ} (hs : s.Separate) {e : Turn κ} (he : ¬ s.Trespasses e) :
    (step e s).2.Separate := by
  obtain ⟨-, hregisters, -⟩ := step_sessions e s
  have hle := nextSessionHandle_le_step e s
  refine ⟨?_, ?_, ?_⟩
  · intro c h hh
    rcases connections_step e s c h hh with hold | ⟨rfl, -, -, hr⟩
    · exact lt_of_lt_of_le (hs.lt c h hold) hle
    · rw [hregisters hr]
      exact Nat.lt_succ_self _
  · intro c c' h hh hh'
    rcases connections_step e s c h hh with hold | ⟨rfl, frame, htake, -⟩
    · rcases connections_step e s c' h hh' with hold' | ⟨rfl, -⟩
      · exact hs.eq c c' h hold hold'
      · exact absurd (hs.lt c _ hold) (lt_irrefl _)
    · rcases connections_step e s c' _ hh' with hold' | ⟨-, frame', htake', -⟩
      · exact absurd (hs.lt c' _ hold') (lt_irrefl _)
      · rw [htake] at htake'
        cases htake'
        rfl
  · intro c frame htested
    rcases tested_of_step htested with ⟨rfl, hready, hsend, hactive⟩ | hold
    · have hmine : frame.sessionHandle ∈ s.connections c := by
        by_contra hnot
        exact he ⟨.inl hsend, hactive, hnot⟩
      have htake : Threads.step (.take c frame) s =
          (none, { s with threads := Function.update s.threads c (.tested frame) }) := by
        rw [Threads.step, hready]
        exact if_pos ⟨hsend, hactive⟩
      rw [htake]
      exact hmine
    · exact mem_connections_of_tested hold (hs.own c frame hold) htested

/-- When every connection keeps to its own sessions, no session ends while a SendRRData with it is under
way. -/
theorem not_endsTested_of_own {s : System κ} (hs : (ofSystem s).Separate) (turns : List (Turn κ))
    (h : ∀ x ∈ transitions step turns (ofSystem s), ¬ x.before.Trespasses x.event) :
    ∀ x ∈ transitions step turns (ofSystem s), ¬ x.before.EndsTested x.event := by
  refine forall_transitions (I := fun s : Threads κ => s.Separate ∧ s.InSession) (C := fun s e => ¬ s.Trespasses e)
    (D := fun s e => ¬ s.EndsTested e) ?_ turns ⟨hs, ?_⟩ h
  swap
  · rintro c frame ⟨⟩
  rintro e s ⟨hsep, hin⟩ he
  have hends := hsep.not_endsTested hin he
  exact ⟨hends, hsep.step he, hin.step hends⟩

end Threads

/-- Clients that keep to the sessions of their own connection see whole calls. -/
theorem own_sessions_linearize (ip : String) (port : ℤ) (config : EnipServerConfig) (turns : List (Turn κ))
    (h : ∀ x ∈ transitions Threads.step turns (.init ip port config), ¬ x.before.Trespasses x.event) :
    Linearizes callStep (.init ip port config) (history Threads.step see turns (.init ip port config))
      (final Threads.step turns (.init ip port config)).toSystem := by
  refine overlapping_linearizes (.init ip port config) turns ?_
  exact Threads.not_endsTested_of_own (Threads.separate_ofSystem nofun nofun) turns h

/-- A connection writes in its session and closes, while another one registers a session. -/
def ownTurns : List (Turn Bool) :=
  [.take true registerFrame, .take true setAttributeFrame, .take false registerFrame, .execute true, .release true,
    .setAssemblyData 100 []]

theorem own_sessions_linearize_closed :
    Linearizes callStep (.init "127.0.0.1" 44818 {})
      (history Threads.step see ownTurns (.init "127.0.0.1" 44818 {}))
      (final Threads.step ownTurns (.init "127.0.0.1" 44818 {})).toSystem :=
  own_sessions_linearize "127.0.0.1" 44818 {} ownTurns (by decide +kernel)

end Cursus.Enip
