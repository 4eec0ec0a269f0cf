/-
What the fields of `Starter` of `cursus/starter.py` hold at each statement of its caller: a start in
progress has its own server and threads, and a started one keeps its server thread until `stop_server`
drops it.
-/
import Cursus.Starter.Machine

namespace Cursus

open Cursus.Run

namespace Starter

variable {s : Starter} {n : ℕ}

/-! ## The fields between the statements of the caller -/

/-- `stop_server` has not been called since the last start. -/
def Current (s : Starter) : Prop :=
  match s.caller with
  | .idle | .startServer .construct => s.serverThread ≠ none
  | .startServer _ => True
  | .stopServer _ => False

/-- What the fields hold where the caller is. -/
def Fields (s : Starter) : Caller → Prop
  | .idle | .startServer .construct | .stopServer .getStop =>
    (s.server = none → s.serverThread = none) ∧ ∀ n ∈ s.serverThread, n + 1 = s.starts
  | .startServer (.clear n) | .startServer (.resetError n) | .startServer (.assignThread n) =>
    n + 1 = s.starts ∧ s.server ≠ none ∧ s.monitors n = .unstarted ∧ s.serverThreads n = .unstarted
  | .startServer (.startThread n) =>
    n + 1 = s.starts ∧ s.server ≠ none ∧ s.serverThread = some n ∧ s.monitors n = .unstarted ∧
      s.serverThreads n = .unstarted
  | .startServer (.startMonitor n) =>
    n + 1 = s.starts ∧ s.server ≠ none ∧ s.serverThread = some n ∧ s.monitors n = .unstarted ∧
      s.serverThreads n ≠ .unstarted
  | .startServer (.sleep n) => n + 1 = s.starts ∧ s.server ≠ none ∧ s.serverThread = some n
  | .stopServer .dropError => s.serverThread = none
  | .stopServer _ => True

structure Consistent (s : Starter) : Prop where
  fresh : ∀ n, s.starts ≤ n → s.monitors n = .unstarted ∧ s.serverThreads n = .unstarted
  started : ∀ n, s.serverThreads n = .unstarted → s.monitors n = .unstarted
  failed : ∀ n, n + 1 = s.starts → s.Current → s.serverThreads n = .failed → s.serverError = true
  fields : s.Fields s.caller

theorem consistent_init : Starter.init.Consistent where
  fresh _ _ := ⟨rfl, rfl⟩
  started _ _ := rfl
  failed _ hn := nomatch hn
  fields := ⟨fun _ => rfl, nofun⟩

/-- The turn of a server thread keeps the fields as the caller knows them. -/
theorem Consistent.runServer (h : s.Consistent) (n : ℕ) (raises : Bool) : (s.runServer n raises).Consistent := by
  have hthread : ∀ k, (s.runServer n raises).serverThreads k = .unstarted ↔ s.serverThreads k = .unstarted := by
    intro k
    by_cases hk : k = n
    · subst hk
      simp [Starter.runServer, setServerThread, serverThreadAfter_eq_unstarted]
    · simp [Starter.runServer, setServerThread, hk]
  refine ⟨?_, ?_, ?_, ?_⟩
  · intro k hk
    exact ⟨(h.fresh k hk).1, (hthread k).2 (h.fresh k hk).2⟩
  · intro k hk
    exact h.started k ((hthread k).1 hk)
  · intro k hk hc hf
    have hold := h.failed k hk hc
    by_cases hkn : k = n
    · subst hkn
      simp only [Starter.runServer, setServerThread, Function.update_self, serverThreadAfter_eq_failed] at hf ⊢
      rcases hf with hf | hf
      · simp [hf]
      · simp [hold hf]
    · simp only [Starter.runServer, setServerThread, Function.update_of_ne hkn] at hf ⊢
      simp [hold hf]
  · have hf := h.fields
    show (s.runServer n raises).Fields s.caller
    unfold Fields at hf ⊢
    split <;> simp_all [Starter.runServer, setServerThread]

theorem Consistent.monitor (h : s.Consistent) (n : ℕ) (reachable : Bool) :
    (s.monitorServerReadiness n reachable).Consistent := by
  have hmonitor : ∀ k, (s.monitorServerReadiness n reachable).monitors k = .unstarted ↔ s.monitors k = .unstarted := by
    intro k
    by_cases hk : k = n
    · subst hk
      simp [monitorServerReadiness, setMonitor, monitorAfter_eq_unstarted]
    · simp [monitorServerReadiness, setMonitor, hk]
  refine ⟨?_, ?_, h.failed, ?_⟩
  · intro k hk
    exact ⟨(hmonitor k).2 (h.fresh k hk).1, (h.fresh k hk).2⟩
  · intro k hk
    exact (hmonitor k).2 (h.started k hk)
  · have hf := h.fields
    show (s.monitorServerReadiness n reachable).Fields s.caller
    unfold Fields at hf ⊢
    split <;> simp_all [monitorServerReadiness, setMonitor]

theorem Consistent.startServer (h : s.Consistent) {statement : StartServer}
    (hc : s.caller = .startServer statement) (raises : Bool) : (s.startServer raises statement).Consistent := by
  have hf := h.fields
  rw [hc] at hf
  cases statement with
  | construct =>
    cases raises with
    | true =>
      refine ⟨h.fresh, h.started, fun n hn hcur => h.failed n hn ?_, hf⟩
      unfold Current at hcur ⊢
      rw [hc]
      exact hcur
    | false =>
      obtain ⟨hmonitor, hthread⟩ := h.fresh s.starts le_rfl
      refine ⟨fun n hn => h.fresh n (Nat.le_of_succ_le hn), h.started, fun n hn _ hfailed => ?_, rfl, nofun, hmonitor,
        hthread⟩
      obtain rfl : n = s.starts := Nat.succ_injective hn
      rw [show (s.startServer false .construct).serverThreads = s.serverThreads from rfl, hthread] at hfailed
      cases hfailed
  | clear n => exact ⟨h.fresh, h.started, fun n hn _ => h.failed n hn (by rw [Current, hc]; trivial), hf⟩
  | resetError n =>
    refine ⟨h.fresh, h.started, fun k hk _ hfailed => ?_, hf⟩
    obtain rfl : k = n := Nat.succ_injective (hk.trans hf.1.symm)
    rw [show (s.startServer raises (.resetError k)).serverThreads = s.serverThreads from rfl, hf.2.2.2] at hfailed
    cases hfailed
  | assignThread n =>
    exact ⟨h.fresh, h.started, fun n hn _ => h.failed n hn (by rw [Current, hc]; trivial), hf.1, hf.2.1, rfl, hf.2.2⟩
  | startThread n =>
    obtain ⟨hn, hserver, hthread, hmonitor, hunstarted⟩ := hf
    have hother : ∀ k, k ≠ n → (s.startServer raises (.startThread n)).serverThreads k = s.serverThreads k :=
      fun k hk => Function.update_of_ne hk ..
    have hself : (s.startServer raises (.startThread n)).serverThreads n = .testServer := Function.update_self ..
    refine ⟨fun k hk => ?_, fun k hk => ?_, fun k hk _ hfailed => ?_, hn, hserver, hthread, hmonitor, ?_⟩
    · have hk : s.starts ≤ k := hk
      rw [hother k (by omega)]
      exact h.fresh k hk
    · by_cases hkn : k = n
      · subst hkn
        exact hmonitor
      · exact h.started k ((hother k hkn).symm.trans hk)
    · obtain rfl : k = n := Nat.succ_injective (hk.trans hn.symm)
      rw [hself] at hfailed
      cases hfailed
    · rw [hself]
      nofun
  | startMonitor n =>
    obtain ⟨hn, hserver, hthread, hmonitor, hstarted⟩ := hf
    have hother : ∀ k, k ≠ n → (s.startServer raises (.startMonitor n)).monitors k = s.monitors k :=
      fun k hk => Function.update_of_ne hk ..
    refine ⟨fun k hk => ?_, fun k hk => ?_, fun k hk _ => h.failed k hk (by rw [Current, hc]; trivial), hn, hserver,
      hthread⟩
    · have hk : s.starts ≤ k := hk
      rw [hother k (by omega)]
      exact h.fresh k hk
    · have hkn : k ≠ n := by
        rintro rfl
        exact hstarted hk
      rw [hother k hkn]
      exact h.started k hk
  | sleep n =>
    obtain ⟨hn, hserver, hthread⟩ := hf
    refine ⟨h.fresh, h.started, fun k hk _ => h.failed k hk (by rw [Current, hc]; trivial), ?_, ?_⟩
    · exact fun hnone => absurd hnone hserver
    · intro k hk
      cases hthread.symm.trans hk
      exact hn

theorem Consistent.stopServer (h : s.Consistent) {statement : StopServer}
    (hc : s.caller = .stopServer statement) (raises : Bool) : (s.stopServer raises statement).Consistent := by
  have hf := h.fields
  rw [hc] at hf
  cases statement with
  | getStop =>
    cases hserver : s.server with
    | none =>
      have hnext : s.stopServer raises .getStop = { s with caller := .idle } := by
        simp only [Starter.stopServer, hserver]
      rw [hnext]
      exact ⟨h.fresh, h.started, fun _ _ hcur => absurd (hf.1 hserver) hcur, hf⟩
    | some server =>
      have hnext : s.stopServer raises .getStop = { s with caller := .stopServer .stop } := by
        simp only [Starter.stopServer, hserver]
      rw [hnext]
      exact ⟨h.fresh, h.started, nofun, trivial⟩
  | stop => cases raises <;> exact ⟨h.fresh, h.started, nofun, trivial⟩
  | join | clear | dropServer => exact ⟨h.fresh, h.started, nofun, trivial⟩
  | dropThread => exact ⟨h.fresh, h.started, nofun, rfl⟩
  | dropError =>
    refine ⟨h.fresh, h.started, fun _ _ hcur => absurd hf hcur, fun _ => hf, fun n hn => ?_⟩
    rw [show (s.stopServer raises .dropError).serverThread = s.serverThread from rfl, hf] at hn
    cases hn

theorem Consistent.next (h : s.Consistent) (e : Turn) : (s.next e).Consistent := by
  refine next_cases (motive := fun _ s' => s'.Consistent) e (fun _ => h) (fun hc => ?_) (fun hc => ?_)
    (fun raises _ hc => h.startServer hc raises) (fun raises _ hc => h.stopServer hc raises) h.runServer h.monitor
  · have hf := h.fields
    rw [hc] at hf
    refine ⟨h.fresh, h.started, fun n hn hcur => h.failed n hn ?_, hf⟩
    rw [Current, hc]
    exact hcur
  · have hf := h.fields
    rw [hc] at hf
    exact ⟨h.fresh, h.started, nofun, hf⟩

theorem consistent_run (es : List Turn) : (final step es .init).Consistent :=
  final_invariant (fun e _ h => h.next e) es consistent_init

/-- The last monitor watches the thread of its own start until `stop_server` is called. -/
theorem Consistent.serverThread_eq (h : s.Consistent) (hc : s.Current) (hn : n + 1 = s.starts)
    (hm : s.monitors n ≠ .unstarted) : s.serverThread = some n := by
  have hf := h.fields
  have hsucc : ∀ k, k + 1 = s.starts → k = n := fun k hk => Nat.succ_injective (hk.trans hn.symm)
  unfold Current at hc
  unfold Fields at hf
  split at hf
  · rename_i hcaller
    rw [hcaller] at hc
    obtain ⟨k, hk⟩ := Option.ne_none_iff_exists'.1 hc
    rw [hk, hsucc k (hf.2 k hk)]
  · rename_i hcaller
    rw [hcaller] at hc
    obtain ⟨k, hk⟩ := Option.ne_none_iff_exists'.1 hc
    rw [hk, hsucc k (hf.2 k hk)]
  · rename_i hcaller
    rw [hcaller] at hc
    exact hc.elim
  · exact absurd (hsucc _ hf.1 ▸ hf.2.2.1) hm
  · exact absurd (hsucc _ hf.1 ▸ hf.2.2.1) hm
  · exact absurd (hsucc _ hf.1 ▸ hf.2.2.1) hm
  · exact absurd (hsucc _ hf.1 ▸ hf.2.2.2.1) hm
  · exact absurd (hsucc _ hf.1 ▸ hf.2.2.2.1) hm
  · rw [hf.2.2, hsucc _ hf.1]
  · rename_i hcaller
    rw [hcaller] at hc
    exact hc.elim
  · simp_all

end Starter

end Cursus
