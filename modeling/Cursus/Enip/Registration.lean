/-
Registrations over any history. The counter of session handles is an unbounded integer, packed into a
field of four octets after the tables have been updated. A registration gives a fresh handle as long as
the counter fits the field; from then on it raises and leaves the handle in the tables.
-/
import Cursus.Enip.Threads

namespace Cursus.Enip

open Cursus.Python Cursus.Run

/-! ## One registration -/

/-- The call returns a reply with status 0. -/
def Succeeds (f : EncapsulationFrame) (s : Scope) (reply : Bytes) : Prop :=
  (handleFrame f s).1 = .ok (some reply) ∧ encapStatus reply = encapStatusSuccess

/-- A valid registration gives a handle that fits its field and was not active; a RegisterSession that
does not succeed changes no table and no counter. -/
def RegistersSafely (f : EncapsulationFrame) (s : Scope) : Prop :=
  (f.Registers → ∃ reply, Succeeds f s reply ∧ 1 ≤ encapSession reply ∧ encapSession reply ≤ 2 ^ 32 - 1 ∧
    encapSession reply ∉ s.server.activeSessions) ∧
  (f.command = commandRegisterSession → (¬ ∃ reply, Succeeds f s reply) →
    (handleFrame f s).2.server.activeSessions = s.server.activeSessions ∧
    (handleFrame f s).2.connectionSessions = s.connectionSessions ∧
    (handleFrame f s).2.server.nextSessionHandle = s.server.nextSessionHandle)

/-- A registration succeeds while the counter fits its field. -/
theorem succeeds_of_lt {f : EncapsulationFrame} (hr : f.Registers) {s : Scope}
    (h : s.server.nextSessionHandle < 2 ^ 32) :
    ∃ reply, Succeeds f s reply ∧ encapSession reply = s.server.nextSessionHandle := by
  have hcommand : f.command < 256 ^ 2 := by
    rw [hr.2.1]
    decide
  have hpayload : f.payload.length < 256 ^ 2 := by
    rw [hr.2.2.1]
    decide
  obtain ⟨reply, hbuild⟩ := exists_buildEncapsulationResponse f.senderContext hcommand h
    (show encapStatusSuccess < 256 ^ 4 by simp) hpayload
  refine ⟨reply, ⟨?_, (isReply_of_build hbuild).status_eq⟩, (isReply_of_build hbuild).session_eq⟩
  rw [handleFrame_of_registers hr, hbuild]
  rfl

/-- It raises when the counter does not. -/
theorem not_succeeds_of_le {f : EncapsulationFrame} (hr : f.Registers) {s : Scope}
    (h : 2 ^ 32 ≤ s.server.nextSessionHandle) (reply : Bytes) : ¬ Succeeds f s reply := by
  rintro ⟨hreply, -⟩
  rw [handleFrame_of_registers hr] at hreply
  obtain ⟨reply', hbuild, -⟩ := map_some_eq_ok hreply
  obtain ⟨header, hpack, -⟩ := bind_eq_ok hbuild
  obtain ⟨hfits, -⟩ := structPack_eq_ok hpack
  have hhandle : (Field.I s.server.nextSessionHandle).Fits := hfits _ (by simp)
  have hlt : (s.server.nextSessionHandle : ℤ) < 256 ^ 4 := hhandle.2
  omega

theorem registersSafely_iff {f : EncapsulationFrame} {s : Scope} (hpos : 0 < s.server.nextSessionHandle)
    (hlt : ∀ h ∈ s.server.activeSessions, h < s.server.nextSessionHandle) :
    RegistersSafely f s ↔ (f.Registers → s.server.nextSessionHandle < 2 ^ 32) := by
  constructor
  · rintro ⟨hsafe, -⟩ hr
    obtain ⟨reply, hreply, -⟩ := hsafe hr
    by_contra hle
    exact not_succeeds_of_le hr (not_lt.1 hle) reply hreply
  · intro hfits
    constructor
    · intro hr
      obtain ⟨reply, hreply, hsession⟩ := succeeds_of_lt hr (hfits hr)
      have hhandle := hfits hr
      rw [← hsession] at hhandle hpos
      refine ⟨reply, hreply, hpos, by omega, fun hactive => ?_⟩
      rw [hsession] at hactive
      exact lt_irrefl _ (hlt _ hactive)
    · intro hcommand hnone
      by_cases hr : f.Registers
      · obtain ⟨reply, hreply, -⟩ := succeeds_of_lt hr (hfits hr)
        exact absurd ⟨reply, hreply⟩ hnone
      have hu : ¬ f.Unregisters := by
        rintro ⟨-, hc⟩
        rw [hcommand] at hc
        cases hc
      obtain ⟨assemblies, hsnd⟩ := handleFrame_idle hr hu s
      rw [hsnd]
      exact ⟨rfl, rfl, rfl⟩

/-! ## Histories -/

variable {κ : Type} [DecidableEq κ]

/-- How many valid registrations a run has handled. -/
def handledRegistrations (ts : List (ThreadStep κ)) : ℕ := ts.countP fun x => x.event.Registers x.before

section Runs

variable (ip : String) (port : ℤ) (config : EnipServerConfig)

theorem nextSessionHandle_eq (es : List (Turn κ)) :
    (final Threads.step es (.init ip port config)).server.nextSessionHandle =
      handledRegistrations (transitions Threads.step es (.init ip port config)) + 1 := by
  refine transitions_invariant
    (I := fun t (s : Threads κ) => s.server.nextSessionHandle = handledRegistrations t + 1) rfl ?_ es
  intro t e s ht
  obtain ⟨-, hregisters, hother⟩ := Threads.step_sessions e s
  unfold handledRegistrations at ht ⊢
  rw [List.countP_append, List.countP_singleton]
  by_cases hr : e.Registers s
  · rw [hregisters hr, ht]
    simp [hr]
  · rw [hother hr, ht]
    simp [hr]

/-- After every run RegisterSession is safe iff it is no valid registration, or fewer than `2 ^ 32 - 1`
valid registrations have been handled. -/
theorem registersSafely_run_iff (es : List (Turn κ)) (c : κ) (f : EncapsulationFrame) :
    RegistersSafely f ((final Threads.step es (.init ip port config)).scope c) ↔
      (f.Registers → handledRegistrations (transitions Threads.step es (.init ip port config)) < 2 ^ 32 - 1) := by
  have hcounted := Threads.counted_run ip port config es
  have hnext := nextSessionHandle_eq ip port config es
  have hbound : (final Threads.step es (.init ip port config)).server.nextSessionHandle < 2 ^ 32 ↔
      handledRegistrations (transitions Threads.step es (.init ip port config)) < 2 ^ 32 - 1 := by
    omega
  rw [registersSafely_iff hcounted.pos hcounted.lt]
  exact imp_congr_right fun _ => hbound

end Runs

theorem registers_registerFrame : registerFrame.Registers := by decide

/-- A connection that registers once more. -/
theorem step_registration {s : Threads Unit} (hready : s.threads () = .ready)
    (h : s.server.nextSessionHandle < 2 ^ 32) :
    (Threads.step (.take () registerFrame) s).2.threads () = .ready ∧
      (Threads.step (.take () registerFrame) s).2.server.nextSessionHandle = s.server.nextSessionHandle + 1 := by
  have hr := registers_registerFrame
  have hstep : Threads.step (.take () registerFrame) s =
      s.complete () registerFrame (handleFrame registerFrame.toEncapsulationFrame (s.scope ())) := by
    rw [Threads.step, hready]
    exact if_neg fun htest => hr.not_sendsRrData htest.1
  obtain ⟨reply, ⟨hreply, -⟩, -⟩ := succeeds_of_lt (s := s.scope ()) hr h
  constructor
  · rw [hstep]
    simp [Threads.complete, hreply]
  · exact (Threads.step_sessions (.take () registerFrame) s).2.1 ⟨hready, hr⟩

/-- The server after a connection has registered so often. -/
def registered (n : ℕ) : Threads Unit :=
  final Threads.step (List.replicate n (.take () registerFrame)) (.init "127.0.0.1" 44818 {})

theorem registered_eq {n : ℕ} (hn : n < 2 ^ 32) :
    (registered n).threads () = .ready ∧ (registered n).server.nextSessionHandle = n + 1 := by
  induction n with
  | zero => exact ⟨rfl, rfl⟩
  | succ n ih =>
    obtain ⟨hready, hnext⟩ := ih (Nat.lt_of_succ_lt hn)
    obtain ⟨hready', hnext'⟩ := step_registration hready (by rw [hnext]; exact hn)
    rw [registered, List.replicate_succ', final_snoc]
    exact ⟨hready', hnext'.trans (congrArg (· + 1) hnext)⟩

theorem not_registersSafely_registered {n : ℕ} (hn : n = 2 ^ 32 - 1) :
    ¬ RegistersSafely registerFrame.toEncapsulationFrame ((registered n).scope ()) := by
  intro h
  have hcounted := Threads.counted_run "127.0.0.1" 44818 {} (List.replicate n (.take () registerFrame))
  have hlt := (registersSafely_iff hcounted.pos hcounted.lt).1 h registers_registerFrame
  have hnext := (registered_eq (show n < 2 ^ 32 by omega)).2
  rw [Threads.scope, hnext] at hlt
  omega

/-- After `2 ^ 32 - 1` registrations one more raises, and the tables keep its handle. -/
theorem not_registersSafely_full :
    ¬ RegistersSafely registerFrame.toEncapsulationFrame ((registered (2 ^ 32 - 1)).scope ()) :=
  not_registersSafely_registered rfl

end Cursus.Enip
