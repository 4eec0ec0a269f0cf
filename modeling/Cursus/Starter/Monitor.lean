/-
When the monitor thread of `cursus/starter.py` gives up on a server that has not failed. It polls as long
as the server thread is alive, and a backing server whose `start` returns before the endpoint is
reachable, as `Dnp3DockerServer.start` does behind `compose up -d`, leaves it without a thread to watch.
-/
import Cursus.Starter.Fields

namespace Cursus

open Cursus.Run

namespace Starter

variable {s : Starter} {n : ℕ}

/-! ## The monitor of the last start -/

/-- The last monitor has not ended without setting the event, unless there is an error. -/
def Watches (s : Starter) : Prop :=
  ∀ n, n + 1 = s.starts → s.Current → s.monitors n = .ended false → s.serverError = true

/-- The last monitor tests its server thread when `start` has returned, or finds the event set by the
monitor of an earlier start. -/
def GivesUp (s : Starter) : Turn → Prop
  | .monitor n _ => n + 1 = s.starts ∧ s.Current ∧ s.serverError = false ∧
      (s.monitors n = .testAlive ∧ s.serverThreads n = .returned ∨ s.monitors n = .testReady ∧ s.readyEvent = true)
  | _ => False

/-- What ends the last monitor. -/
theorem Consistent.monitorAfter_eq_ended_iff (h : s.Consistent) (hc : s.Current) (hn : n + 1 = s.starts)
    (herror : s.serverError = false) (hw : s.Watches) (reachable : Bool) :
    s.monitorAfter reachable (s.monitors n) = .ended false ↔
      s.monitors n = .testAlive ∧ s.serverThreads n = .returned ∨
        s.monitors n = .testReady ∧ s.readyEvent = true := by
  have hended : s.monitors n ≠ .ended false := by
    intro hended
    rw [hw n hn hc hended] at herror
    cases herror
  have hthread : s.monitors n ≠ .unstarted → s.serverThread = some n := h.serverThread_eq hc hn
  have halive : s.monitors n ≠ .unstarted →
      ((s.serverThreads n).isAlive = false ↔ s.serverThreads n = .returned) := by
    intro hm
    cases hs : s.serverThreads n with
    | unstarted => exact absurd (h.started n hs) hm
    | failed =>
      rw [h.failed n hn hc hs] at herror
      cases herror
    | returned => exact iff_of_true rfl rfl
    | testServer | getStart | start | setError => exact iff_of_false nofun nofun
  rw [monitorAfter_eq_ended]
  constructor
  · rintro (hm | ⟨hm, hnone⟩ | ⟨hm, hdead⟩ | ⟨-, he⟩ | hready)
    · exact absurd hm hended
    · rw [hthread (by rw [hm]; nofun)] at hnone
      cases hnone
    · have hs : s.monitors n ≠ .unstarted := by rw [hm]; nofun
      exact .inl ⟨hm, (halive hs).1 (hdead n (hthread hs))⟩
    · rw [herror] at he
      cases he
    · exact .inr hready
  · rintro (⟨hm, hs⟩ | hready)
    · refine .inr (.inr (.inl ⟨hm, fun k hk => ?_⟩))
      cases (hthread (by rw [hm]; nofun)).symm.trans hk
      rw [hs]
      rfl
    · exact .inr (.inr (.inr (.inr hready)))

theorem Consistent.watches_startServer (h : s.Consistent) (hw : s.Watches) {statement : StartServer}
    (hc : s.caller = .startServer statement) (raises : Bool) : (s.startServer raises statement).Watches := by
  have hf := h.fields
  rw [hc] at hf
  have hcurrent : statement ≠ .construct → s.Current := by
    intro hne
    rw [Current, hc]
    cases statement <;> first | exact absurd rfl hne | trivial
  cases statement with
  | construct =>
    cases raises with
    | true =>
      intro n hn hcur hm
      refine hw n hn ?_ hm
      unfold Current at hcur ⊢
      rw [hc]
      exact hcur
    | false =>
      intro n hn _ hm
      obtain rfl : n = s.starts := Nat.succ_injective hn
      cases (h.fresh s.starts le_rfl).1.symm.trans hm
  | clear n => exact fun k hk _ hm => hw k hk (hcurrent (by rintro ⟨⟩)) hm
  | resetError n =>
    intro k hk _ hm
    obtain rfl : k = n := Nat.succ_injective (hk.trans hf.1.symm)
    cases hf.2.2.1.symm.trans hm
  | assignThread n => exact fun k hk _ hm => hw k hk (hcurrent (by rintro ⟨⟩)) hm
  | startThread n => exact fun k hk _ hm => hw k hk (hcurrent (by rintro ⟨⟩)) hm
  | startMonitor n =>
    intro k hk _ hm
    obtain rfl : k = n := Nat.succ_injective (hk.trans hf.1.symm)
    have hself : (s.startServer raises (.startMonitor k)).monitors k = .testThread := Function.update_self ..
    cases hself.symm.trans hm
  | sleep n => exact fun k hk _ hm => hw k hk (hcurrent (by rintro ⟨⟩)) hm

theorem Consistent.watches_stopServer (h : s.Consistent) {statement : StopServer}
    (hc : s.caller = .stopServer statement) (raises : Bool) : (s.stopServer raises statement).Watches := by
  have hf := h.fields
  rw [hc] at hf
  intro n hn hcur
  exfalso
  cases statement with
  | getStop =>
    cases hserver : s.server with
    | none =>
      simp only [Starter.stopServer, hserver, Current] at hcur
      exact hcur (hf.1 hserver)
    | some server => simp only [Starter.stopServer, hserver, Current] at hcur
  | dropError => exact hcur hf
  | stop | join | clear | dropServer | dropThread => exact hcur

theorem Consistent.watches_next (h : s.Consistent) (hw : s.Watches) (e : Turn) :
    (∀ n reachable, e ≠ .monitor n reachable) → (s.next e).Watches := by
  refine next_cases (motive := fun e s' => (∀ n reachable, e ≠ .monitor n reachable) → s'.Watches) e (fun _ _ => hw)
    (fun hc _ n hn hcur hm => hw n hn ?_ hm) (fun _ _ n hn hcur => hcur.elim)
    (fun raises _ hc _ => h.watches_startServer hw hc raises) (fun raises _ hc _ => h.watches_stopServer hc raises)
    (fun n raises _ k hk hcur hm => ?_) (fun n reachable hne => absurd rfl (hne n reachable))
  · rw [Current, hc]
    exact hcur
  · have hold := hw k hk hcur hm
    simp [Starter.runServer, hold]

/-- The only turns at which the last monitor stops watching. -/
theorem Consistent.watches_next_iff (h : s.Consistent) (hw : s.Watches) (e : Turn) :
    (s.next e).Watches ↔ ¬ s.GivesUp e := by
  cases e with
  | startServer | stopServer | caller | server => exact iff_of_true (h.watches_next hw _ nofun) id
  | monitor n reachable =>
    have hself : (s.next (.monitor n reachable)).monitors n = s.monitorAfter reachable (s.monitors n) :=
      Function.update_self ..
    constructor
    · rintro hw' ⟨hn, hcur, herror, hends⟩
      have hended := (h.monitorAfter_eq_ended_iff hcur hn herror hw reachable).2 hends
      rw [show s.serverError = true from hw' n hn hcur (hself.trans hended)] at herror
      cases herror
    · intro hgives k hk hcur hm
      by_cases hkn : k = n
      · subst hkn
        by_contra herror
        have herror : s.serverError = false := Bool.eq_false_iff.2 herror
        exact hgives ⟨hk, hcur, herror, (h.monitorAfter_eq_ended_iff hcur hk herror hw reachable).1 (hself.symm.trans hm)⟩
      · have hother : (s.next (.monitor n reachable)).monitors k = s.monitors k := Function.update_of_ne hkn ..
        exact hw k hk hcur (hother.symm.trans hm)

/-! ## Runs -/

/-- `start_server` has made its server. -/
def Constructs (x : StarterStep) : Prop := x.before.caller = .startServer .construct ∧ x.event = .caller false

theorem Consistent.current_next_iff (h : s.Consistent) (e : Turn) :
    (s.next e).Current ↔
      Constructs (s.taken e) ∨ s.Current ∧ ¬ StopBegins (s.taken e) := by
  have hf := h.fields
  cases e with
  | startServer =>
    have hnot : ¬ StopBegins (s.taken .startServer) := by rintro ⟨-, ⟨⟩⟩
    have hnot' : ¬ Constructs (s.taken .startServer) := by rintro ⟨-, ⟨⟩⟩
    rw [or_iff_right hnot', and_iff_left hnot]
    by_cases hc : s.caller = .idle
    · rw [Starter.next, if_pos hc]
      simp only [Current, hc]
    · rw [Starter.next, if_neg hc]
  | stopServer =>
    have hnot' : ¬ Constructs (s.taken .stopServer) := by rintro ⟨-, ⟨⟩⟩
    rw [or_iff_right hnot']
    by_cases hc : s.caller = .idle
    · rw [Starter.next, if_pos hc]
      exact iff_of_false id fun hcur => hcur.2 ⟨hc, rfl⟩
    · rw [Starter.next, if_neg hc]
      exact (and_iff_left fun hstop => hc hstop.1).symm
  | caller raises =>
    have hnot : ¬ StopBegins (s.taken (.caller raises)) := by rintro ⟨-, ⟨⟩⟩
    rw [and_iff_left hnot, Starter.next]
    cases hc : s.caller with
    | idle => simp [Constructs, hc]
    | startServer statement =>
      rw [hc] at hf
      cases statement with
      | construct => cases raises <;> simp [Constructs, Current, Starter.startServer, hc]
      | sleep n => simp [Constructs, Current, Starter.startServer, hc, hf.2.2]
      | clear | resetError | assignThread | startThread | startMonitor =>
        simp [Constructs, Current, Starter.startServer, hc]
    | stopServer statement =>
      rw [hc] at hf
      cases statement with
      | getStop =>
        cases hserver : s.server with
        | none => simp [Constructs, Current, Starter.stopServer, hc, hserver, hf.1 hserver]
        | some server => simp [Constructs, Current, Starter.stopServer, hc, hserver]
      | dropError =>
        have hnone : s.serverThread = none := hf
        simp [Constructs, Current, Starter.stopServer, hc, hnone]
      | stop | join | clear | dropServer | dropThread => simp [Constructs, Current, Starter.stopServer, hc]
  | server n raises =>
    have hnot : ¬ StopBegins (s.taken (.server n raises)) := by rintro ⟨-, ⟨⟩⟩
    have hnot' : ¬ Constructs (s.taken (.server n raises)) := by rintro ⟨-, ⟨⟩⟩
    rw [or_iff_right hnot', and_iff_left hnot]
    exact Iff.rfl
  | monitor n reachable =>
    have hnot : ¬ StopBegins (s.taken (.monitor n reachable)) := by rintro ⟨-, ⟨⟩⟩
    have hnot' : ¬ Constructs (s.taken (.monitor n reachable)) := by rintro ⟨-, ⟨⟩⟩
    rw [or_iff_right hnot', and_iff_left hnot]
    exact Iff.rfl

/-- `Current` says what it stands for. -/
theorem live_iff_current (es : List Turn) :
    Live Constructs StopBegins (transitions step es .init) ↔ (final step es .init).Current := by
  refine transitions_invariant_of (I := fun t s => Live Constructs StopBegins t ↔ Current s) consistent_run
    (iff_of_false not_live_nil fun h => h rfl) (fun t e s hs hcurrent => ?_) es
  rw [live_snoc_iff, hcurrent]
  exact (hs.current_next_iff e).symm

/-- When the monitor of the last start has ended without setting the event, there is an error, or
`stop_server` has been called since. -/
def NeverGivesUp (t : List StarterStep) (s : Starter) : Prop :=
  ∀ n, n + 1 = s.starts → s.monitors n = .ended false → s.serverError = true ∨ ¬ Live Constructs StopBegins t

/-- The monitor never gives up in a run iff no monitor tests a server thread whose `start` has returned, and
none finds the event set. -/
theorem neverGivesUp_iff (es : List Turn) :
    (∀ before, before <+: es → NeverGivesUp (transitions step before .init) (final step before .init)) ↔
      ∀ x ∈ transitions step es .init, ¬ x.before.GivesUp x.event := by
  have hwatches : ∀ before, NeverGivesUp (transitions step before .init) (final step before .init) ↔
      (final step before .init).Watches := by
    intro before
    unfold NeverGivesUp Watches
    rw [live_iff_current]
    refine forall_congr' fun n => imp_congr_right fun _ => ?_
    tauto
  simp only [hwatches]
  exact everywhere_iff (J := Consistent) (C := fun s e => ¬ s.GivesUp e) consistent_init (fun n hn => nomatch hn)
    (fun e _ h => h.next e) (fun e _ h hw => h.watches_next_iff hw e) es

/-- A start whose server returns from `start` before its endpoint is reachable. -/
def detachedStart : List Turn :=
  [.startServer, .caller false, .caller false, .caller false, .caller false, .caller false, .caller false,
    .server 0 false, .server 0 false, .server 0 false, .monitor 0 false, .monitor 0 false]

/-- The monitor ends although there is no error and `stop_server` has not been called. -/
theorem not_neverGivesUp_detachedStart :
    ¬ NeverGivesUp (transitions step detachedStart .init) (final step detachedStart .init) := by
  intro h
  rcases h 0 rfl rfl with herror | hstopped
  · cases herror
  · exact hstopped ((live_iff_current detachedStart).2 trivial)

end Starter

end Cursus
