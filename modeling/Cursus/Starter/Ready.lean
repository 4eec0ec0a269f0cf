/-
Whether `ready_event` of `cursus/starter.py` speaks of the running server. `stop_server` clears the event
without waiting for the monitor thread, so a monitor that has begun a round before the clear can set the
event behind it, for a server that is stopped or for one that it has never probed.
-/
import Cursus.Starter.Fields

namespace Cursus

open Cursus.Run

/-- The monitor is behind its test of the server thread, and the round is not over. -/
def Monitor.inRound : Monitor → Bool
  | .testError | .probe | .probing | .testReady | .setReady => true
  | .unstarted | .testThread | .testAlive | .sleep | .ended _ => false

/-- The monitor has begun its probe, and the round is not over. -/
def Monitor.inProbe : Monitor → Bool
  | .probing | .testReady | .setReady => true
  | .unstarted | .testThread | .testAlive | .testError | .probe | .sleep | .ended _ => false

/-- The caller clears the event, or drops a server that it has stopped. -/
def Caller.clears : Caller → Bool
  | .startServer (.clear _) | .stopServer .clear | .stopServer .dropServer | .stopServer .dropThread => true
  | _ => false

namespace Starter

variable {s : Starter} {n : ℕ} {e : Turn} {t : List StarterStep}

/-! ## What the event says -/

/-- A call of `stop_server` returns, or raises. -/
def StopReturns (x : StarterStep) : Prop :=
  (∃ statement, x.before.caller = .stopServer statement) ∧ x.after.caller = .idle

/-- `start_server` clears the event. -/
def StartClears (x : StarterStep) : Prop :=
  ∃ n raises, x.before.caller = .startServer (.clear n) ∧ x.event = .caller raises

def ProbeBegins (n : ℕ) (x : StarterStep) : Prop :=
  ∃ reachable, x.before.monitors n = .probe ∧ x.event = .monitor n reachable

def ProbeSucceeds (n : ℕ) (x : StarterStep) : Prop := x.before.monitors n = .probing ∧ x.event = .monitor n true

/-- A probe has begun and then succeeded. -/
def Probed (t : List StarterStep) : Prop :=
  ∃ n before x between y after, t = before ++ x :: (between ++ y :: after) ∧ ProbeBegins n x ∧ ProbeSucceeds n y

/-- Between a stop and the next start the event is not set. From where a start clears it until the next
stop, it is set only behind a probe that has begun behind the clear and succeeded. -/
structure SpeaksOfRunning (t : List StarterStep) (s : Starter) : Prop where
  stopped : Live StopReturns StartBegins t → s.readyEvent = false
  started : Since StartClears (fun after => (∀ y ∈ after, ¬ StopBegins y) → s.readyEvent = true → Probed after) t

/-! ## Rounds of a monitor -/

theorem inRound_monitorAfter {reachable : Bool} {m : Monitor} (h : (s.monitorAfter reachable m).inRound = true) :
    m.inRound = true ∨ m = .testAlive ∧ ∃ k ∈ s.serverThread, (s.serverThreads k).isAlive = true := by
  cases m with
  | testError | probe | probing | testReady | setReady => exact .inl rfl
  | testThread =>
    simp only [monitorAfter] at h
    split at h <;> cases h
  | testAlive =>
    cases hthread : s.serverThread with
    | none =>
      simp only [monitorAfter, hthread] at h
      cases h
    | some k =>
      simp only [monitorAfter, hthread] at h
      split at h
      · exact .inr ⟨rfl, k, rfl, by assumption⟩
      · cases h
  | unstarted | sleep | ended => cases h

theorem monitorAfter_eq_probing {reachable : Bool} {m : Monitor} :
    s.monitorAfter reachable m = .probing ↔ m = .probe := by
  cases m with
  | testThread => simp only [monitorAfter]; split <;> simp
  | testAlive => simp only [monitorAfter]; (repeat' split) <;> simp
  | testError => simp only [monitorAfter]; split <;> simp
  | probing => simp only [monitorAfter]; split <;> simp
  | testReady => simp only [monitorAfter]; split <;> simp
  | unstarted | probe | setReady | sleep | ended => simp [monitorAfter]

/-- A monitor that knows its probe to have succeeded comes from the probe, or has known it before. -/
theorem monitorAfter_eq_succeeded {reachable : Bool} {m : Monitor} :
    s.monitorAfter reachable m = .testReady ∨ s.monitorAfter reachable m = .setReady →
      m = .probing ∧ reachable = true ∨ m = .testReady := by
  cases m with
  | testThread => simp only [monitorAfter]; split <;> simp
  | testAlive => simp only [monitorAfter]; (repeat' split) <;> simp
  | testError => simp only [monitorAfter]; split <;> simp
  | probing => simp only [monitorAfter]; split <;> simp_all
  | testReady => simp
  | unstarted | probe | setReady | sleep | ended => simp [monitorAfter]

/-- A turn lets a round of a monitor overlap with a clear of the event: a start clears it behind the
beginning of a probe, `stop_server` clears it during a round, or a round begins between the clear of
`stop_server` and its drop of the server thread. -/
inductive Overlaps (s : Starter) : Turn → Prop
  | start {raises : Bool} {n k : ℕ} : s.caller = .startServer (.clear k) →
      (s.monitors n).inProbe = true → Overlaps s (.caller raises)
  | stop {raises : Bool} {n : ℕ} : s.caller = .stopServer .clear →
      (s.monitors n).inRound = true → Overlaps s (.caller raises)
  | test {reachable : Bool} {n k : ℕ} : s.caller = .stopServer .dropServer ∨ s.caller = .stopServer .dropThread →
      s.monitors n = .testAlive → s.serverThread = some k → (s.serverThreads k).isAlive = true →
      Overlaps s (.monitor n reachable)

theorem Overlaps.clears (h : s.Overlaps e) : s.caller.clears = true := by
  rcases h with ⟨hc, -⟩ | ⟨hc, -⟩ | ⟨hc | hc, -⟩
  all_goals rw [hc]; rfl

/-! ## While no server runs -/

/-- Without a server thread, and while `stop_server` drops it, no monitor is in a round and the event is
not set. -/
def Quiet (s : Starter) : Prop :=
  s.serverThread = none ∨ s.caller = .stopServer .dropServer ∨ s.caller = .stopServer .dropThread →
    (∀ n, (s.monitors n).inRound = false) ∧ s.readyEvent = false

theorem quiet_init : Starter.init.Quiet := fun _ => ⟨fun _ => rfl, rfl⟩

theorem Quiet.startServer (h : s.Quiet) {statement : StartServer} (raises : Bool) :
    (s.startServer raises statement).Quiet := by
  intro hquiet
  cases statement with
  | construct => cases raises <;> exact h (hquiet.imp_right (by rintro (h | h) <;> cases h))
  | clear n =>
    rcases hquiet with hnone | h' | h'
    · exact ⟨(h (.inl hnone)).1, rfl⟩
    · cases h'
    · cases h'
  | assignThread n => rcases hquiet with h' | h' | h' <;> cases h'
  | resetError n | startThread n | sleep n => exact h (hquiet.imp_right (by rintro (h | h) <;> cases h))
  | startMonitor n =>
    obtain ⟨hround, hready⟩ := h (hquiet.imp_right (by rintro (h | h) <;> cases h))
    refine ⟨fun k => ?_, hready⟩
    by_cases hk : k = n
    · subst hk
      simp [Starter.startServer, setMonitor, Monitor.inRound]
    · simp [Starter.startServer, setMonitor, hk, hround k]

theorem Quiet.stopServer (h : s.Quiet) {statement : StopServer} (hc : s.caller = .stopServer statement)
    (raises : Bool) (hover : ¬ s.Overlaps (.caller raises)) : (s.stopServer raises statement).Quiet := by
  intro hquiet
  cases statement with
  | getStop =>
    cases hserver : s.server with
    | none | some =>
      simp only [Starter.stopServer, hserver] at hquiet ⊢
      exact h (hquiet.imp_right (by rintro (h | h) <;> cases h))
  | stop => cases raises <;> exact h (hquiet.imp_right (by rintro (h | h) <;> cases h))
  | join => exact h (hquiet.imp_right (by rintro (h | h) <;> cases h))
  | clear =>
    refine ⟨fun n => ?_, rfl⟩
    by_contra hround
    exact hover (.stop hc (Bool.ne_false_iff.1 hround))
  | dropServer => exact h (.inr (.inl hc))
  | dropThread => exact h (.inr (.inr hc))
  | dropError => exact h (hquiet.imp_right (by rintro (h | h) <;> cases h))

theorem Quiet.monitor (h : s.Quiet) (n : ℕ) (reachable : Bool) (hover : ¬ s.Overlaps (.monitor n reachable)) :
    (s.monitorServerReadiness n reachable).Quiet := by
  intro hquiet
  have hbefore : s.serverThread = none ∨ s.caller = .stopServer .dropServer ∨ s.caller = .stopServer .dropThread :=
    hquiet
  obtain ⟨hround, hready⟩ := h hbefore
  have hself : (s.monitorServerReadiness n reachable).monitors n = s.monitorAfter reachable (s.monitors n) :=
    Function.update_self ..
  refine ⟨fun k => ?_, ?_⟩
  · by_cases hk : k = n
    · subst hk
      rw [hself]
      by_contra hafter
      rcases inRound_monitorAfter (Bool.ne_false_iff.1 hafter) with hm | ⟨hm, j, hj, halive⟩
      · rw [hround k] at hm
        cases hm
      · -- a live server thread is found only while `stop_server` drops it
        rcases hbefore with hnone | hdrop
        · rw [hnone] at hj
          cases hj
        · exact hover (.test hdrop hm hj halive)
    · have hother : (s.monitorServerReadiness n reachable).monitors k = s.monitors k := Function.update_of_ne hk ..
      rw [hother]
      exact hround k
  · have hset : s.monitors n ≠ .setReady := by
      intro hm
      have := hround n
      rw [hm] at this
      cases this
    simp [monitorServerReadiness, hready, hset]

theorem Quiet.next (h : s.Quiet) (e : Turn) : ¬ s.Overlaps e → (s.next e).Quiet := by
  refine next_cases (motive := fun e s' => ¬ s.Overlaps e → s'.Quiet) e (fun _ _ => h) (fun hc _ hquiet => ?_)
    (fun hc _ hquiet => ?_) (fun raises _ _ _ => h.startServer raises)
    (fun raises _ hc => h.stopServer hc raises) (fun _ _ _ => h) h.monitor
  · exact h (hquiet.imp_right (by rintro (h | h) <;> cases h))
  · exact h (hquiet.imp_right (by rintro (h | h) <;> cases h))

/-! ## Between a stop and the next start -/

/-- No server thread is known, and the caller is not in `start_server`. -/
def Stopped (s : Starter) : Prop := s.serverThread = none ∧ ∀ statement, s.caller ≠ .startServer statement

theorem Consistent.stopped_of_returns (h : s.Consistent) (hr : StopReturns (s.taken e)) :
    (s.next e).Stopped := by
  obtain ⟨⟨statement, hstop⟩, hreturned⟩ := hr
  have hc : s.caller = .stopServer statement := hstop
  have hidle : (s.next e).caller = .idle := hreturned
  have hf := h.fields
  rw [hc] at hf
  refine ⟨?_, by rw [hidle]; rintro statement ⟨⟩⟩
  cases e with
  | startServer | stopServer =>
    rw [Starter.next, if_neg (by rw [hc]; rintro ⟨⟩)] at hidle
    cases hc.symm.trans hidle
  | caller raises =>
    simp only [Starter.next, hc] at hidle ⊢
    cases statement with
    | getStop =>
      cases hserver : s.server with
      | none =>
        simp only [Starter.stopServer, hserver]
        exact hf.1 hserver
      | some server => simp [Starter.stopServer, hserver] at hidle
    | dropError => exact hf
    | stop | join | clear | dropServer | dropThread => cases hidle
  | server n raises => cases hc.symm.trans hidle
  | monitor n reachable => cases hc.symm.trans hidle

theorem Stopped.next (h : s.Stopped) (e : Turn) :
    ¬ StartBegins (s.taken e) → (s.next e).Stopped := by
  obtain ⟨hnone, hcaller⟩ := h
  refine next_cases (motive := fun e s' => ¬ StartBegins ⟨s, e, s.started e, s'⟩ → s'.Stopped) e
    (fun _ _ => ⟨hnone, hcaller⟩) (fun hc hb => absurd ⟨hc, rfl⟩ hb) (fun _ _ => ⟨hnone, by rintro _ ⟨⟩⟩)
    (fun raises statement hc => absurd hc (hcaller statement)) (fun raises statement hc _ => ?_)
    (fun _ _ _ => ⟨hnone, hcaller⟩) (fun _ _ _ => ⟨hnone, hcaller⟩)
  cases statement with
  | getStop =>
    refine ⟨?_, ?_⟩ <;> cases hserver : s.server <;> simp only [Starter.stopServer, hserver]
    · exact hnone
    · exact hnone
    · rintro _ ⟨⟩
    · rintro _ ⟨⟩
  | stop | join | clear | dropServer | dropError => exact ⟨hnone, by rintro _ ⟨⟩⟩
  | dropThread => exact ⟨rfl, by rintro _ ⟨⟩⟩

theorem stopped_of_live (es : List Turn) : Live StopReturns StartBegins (transitions step es .init) →
    (final step es .init).Stopped := by
  refine transitions_invariant_of (I := fun t s => Live StopReturns StartBegins t → Stopped s) consistent_run
    (fun hlive => absurd hlive not_live_nil) (fun t e s hs hstopped hlive => ?_) es
  rcases live_snoc_iff.1 hlive with hreturns | ⟨hlive, hbegins⟩
  · exact hs.stopped_of_returns hreturns
  · exact (hstopped hlive).next e hbegins

/-! ## Behind the clear of a start -/

/-- Every probe that is under way, every success that is not yet told and the event itself come from a probe
of the history. -/
structure Traced (s : Starter) (t : List StarterStep) : Prop where
  probing : ∀ n, s.monitors n = .probing → ∃ x ∈ t, ProbeBegins n x
  succeeded : ∀ n, s.monitors n = .testReady ∨ s.monitors n = .setReady → Probed t
  ready : s.readyEvent = true → Probed t

theorem Probed.snoc {y : StarterStep} (h : Probed t) : Probed (t ++ [y]) := by
  obtain ⟨n, before, x, between, z, after, rfl, hx, hz⟩ := h
  exact ⟨n, before, x, between, z, after ++ [y], by simp, hx, hz⟩

theorem probed_of_succeeds {x y : StarterStep} (hx : x ∈ t) (hbegins : ProbeBegins n x) (hy : ProbeSucceeds n y) :
    Probed (t ++ [y]) := by
  obtain ⟨before, between, rfl⟩ := List.append_of_mem hx
  exact ⟨n, before, x, between, y, [], by simp, hbegins, hy⟩

/-- A turn that moves no monitor into a probe and does not set the event. -/
theorem Traced.of_idle {s' : Starter} {y : StarterStep} (h : s.Traced t)
    (hmonitors : ∀ n, s'.monitors n = s.monitors n ∨ s'.monitors n = .testThread)
    (hready : s'.readyEvent = true → s.readyEvent = true) : s'.Traced (t ++ [y]) := by
  refine ⟨fun n hn => ?_, fun n hn => ?_, fun hr => (h.ready (hready hr)).snoc⟩
  · rcases hmonitors n with hm | hm
    · obtain ⟨x, hx, hbegins⟩ := h.probing n (hm.symm.trans hn)
      exact ⟨x, List.mem_append_left _ hx, hbegins⟩
    · exact nomatch hm.symm.trans hn
  · rcases hmonitors n with hm | hm
    · rw [hm] at hn
      exact (h.succeeded n hn).snoc
    · rw [hm] at hn
      rcases hn with hn | hn <;> cases hn

theorem Traced.monitor (h : s.Traced t) (n : ℕ) (reachable : Bool) :
    (s.next (.monitor n reachable)).Traced
      (t ++ [s.taken (.monitor n reachable)]) := by
  have hself : (s.next (.monitor n reachable)).monitors n = s.monitorAfter reachable (s.monitors n) :=
    Function.update_self ..
  have hother : ∀ k, k ≠ n → (s.next (.monitor n reachable)).monitors k = s.monitors k :=
    fun k hk => Function.update_of_ne hk ..
  refine ⟨fun k hk => ?_, fun k hk => ?_, fun hr => ?_⟩
  · by_cases hkn : k = n
    · subst hkn
      rw [hself, monitorAfter_eq_probing] at hk
      exact ⟨_, List.mem_append_right _ (List.mem_singleton_self _), reachable, hk, rfl⟩
    · obtain ⟨x, hx, hbegins⟩ := h.probing k ((hother k hkn).symm.trans hk)
      exact ⟨x, List.mem_append_left _ hx, hbegins⟩
  · by_cases hkn : k = n
    · subst hkn
      rw [hself] at hk
      rcases monitorAfter_eq_succeeded hk with ⟨hprobing, rfl⟩ | htest
      · obtain ⟨x, hx, hbegins⟩ := h.probing k hprobing
        exact probed_of_succeeds hx hbegins ⟨hprobing, rfl⟩
      · exact (h.succeeded k (.inl htest)).snoc
    · rw [hother k hkn] at hk
      exact (h.succeeded k hk).snoc
  · have hr : (s.readyEvent || s.monitors n == .setReady) = true := hr
    rw [Bool.or_eq_true, beq_iff_eq] at hr
    rcases hr with hr | hr
    · exact (h.ready hr).snoc
    · exact (h.succeeded n (.inr hr)).snoc

theorem Traced.startServer (h : s.Traced t) {y : StarterStep} (raises : Bool) (statement : StartServer) :
    (s.startServer raises statement).Traced (t ++ [y]) := by
  cases statement with
  | construct => cases raises <;> exact h.of_idle (fun _ => .inl rfl) id
  | clear => exact h.of_idle (fun _ => .inl rfl) nofun
  | resetError | assignThread | startThread | sleep => exact h.of_idle (fun _ => .inl rfl) id
  | startMonitor n =>
    refine h.of_idle (fun k => ?_) id
    by_cases hk : k = n
    · subst hk
      exact .inr (Function.update_self ..)
    · exact .inl (Function.update_of_ne hk ..)

theorem Traced.stopServer (h : s.Traced t) {y : StarterStep} (raises : Bool) (statement : StopServer) :
    (s.stopServer raises statement).Traced (t ++ [y]) := by
  cases statement with
  | getStop =>
    cases hserver : s.server <;> simp only [Starter.stopServer, hserver] <;> exact h.of_idle (fun _ => .inl rfl) id
  | clear => exact h.of_idle (fun _ => .inl rfl) (by rintro ⟨⟩)
  | stop | join | dropServer | dropThread | dropError => exact h.of_idle (fun _ => .inl rfl) id

theorem Traced.next (h : s.Traced t) (e : Turn) : (s.next e).Traced (t ++ [s.taken e]) := by
  refine next_cases (motive := fun e s' => s'.Traced (t ++ [(⟨s, e, s.started e, s'⟩ : StarterStep)])) e ?_ ?_ ?_
    (fun raises statement _ => h.startServer raises statement) (fun raises statement _ => h.stopServer raises statement)
    ?_ h.monitor
  · exact fun _ => h.of_idle (fun _ => .inl rfl) id
  · exact fun _ => h.of_idle (fun _ => .inl rfl) id
  · exact fun _ => h.of_idle (fun _ => .inl rfl) id
  · exact fun _ _ => h.of_idle (fun _ => .inl rfl) id

/-- Behind a clear that no round overlaps nothing is left of earlier probes. -/
theorem traced_of_clears (hclears : StartClears (s.taken e)) (hover : ¬ s.Overlaps e) :
    (s.next e).Traced [] := by
  obtain ⟨n, raises, hstart, rfl⟩ := hclears
  have hc : s.caller = .startServer (.clear n) := hstart
  have hprobe : ∀ k, (s.monitors k).inProbe = false := fun k => by
    by_contra hprobe
    exact hover (.start hc (Bool.ne_false_iff.1 hprobe))
  have hnext : s.next (.caller raises) = { s with readyEvent := false, caller := .startServer (.resetError n) } := by
    rw [Starter.next, hc]
    rfl
  rw [hnext]
  have hnot : ∀ k m, m.inProbe = true → s.monitors k ≠ m := by
    rintro k m hm rfl
    cases (hprobe k).symm.trans hm
  refine ⟨fun k hk => absurd hk (hnot k _ rfl), fun k hk => ?_, by rintro ⟨⟩⟩
  rcases hk with hk | hk
  · exact absurd hk (hnot k _ rfl)
  · exact absurd hk (hnot k _ rfl)

/-! ## Runs -/

theorem quiet_run (es : List Turn) : (∀ x ∈ transitions step es .init, ¬ x.before.Overlaps x.event) →
    (final step es .init).Quiet := by
  refine transitions_invariant (I := fun t s => (∀ x ∈ t, ¬ x.before.Overlaps x.event) → Quiet s)
    (fun _ => quiet_init) (fun t e s hs hover => ?_) es
  rw [List.forall_mem_append, List.forall_mem_singleton] at hover
  exact (hs hover.1).next e hover.2

theorem traced_run (es : List Turn) : (∀ x ∈ transitions step es .init, ¬ x.before.Overlaps x.event) →
    Since StartClears (final step es .init).Traced (transitions step es .init) := by
  refine transitions_invariant (I := fun t s => (∀ x ∈ t, ¬ x.before.Overlaps x.event) → Since StartClears (Traced s) t)
    (fun _ => since_nil) (fun t e s hs hover => ?_) es
  rw [List.forall_mem_append, List.forall_mem_singleton] at hover
  rw [since_snoc_iff]
  constructor
  · exact fun hclears => traced_of_clears hclears hover.2
  · exact (hs hover.1).imp fun after hafter => hafter.next e

/-- In a run in which no round of a monitor overlaps with a clear, the event speaks only of the running
server. -/
theorem speaksOfRunning_run (es : List Turn)
    (h : ∀ x ∈ transitions step es .init, ¬ x.before.Overlaps x.event) :
    ∀ before, before <+: es → SpeaksOfRunning (transitions step before .init) (final step before .init) := by
  rintro before ⟨rest, rfl⟩
  rw [transitions_append, List.forall_mem_append] at h
  constructor
  · intro hlive
    exact (quiet_run before h.1 (.inl (stopped_of_live before hlive).1)).2
  · exact (traced_run before h.1).imp fun after hafter _ hready => hafter.ready hready

/-- A start whose monitor finds the endpoint reachable, and the stop of its server, to the return. -/
def startAndStop : List Turn :=
  [.startServer, .caller false, .caller false, .caller false, .caller false, .caller false, .caller false,
    .caller false, .server 0 false, .server 0 false, .monitor 0 true, .monitor 0 true, .monitor 0 true,
    .monitor 0 true, .monitor 0 true, .monitor 0 true, .monitor 0 true, .stopServer, .caller false, .caller false,
    .server 0 false, .caller false, .caller false, .caller false, .caller false, .caller false]

/-- The event is set before the stop, and no more behind it. -/
theorem speaksOfRunning_startAndStop :
    (final step (startAndStop.take 17) .init).readyEvent = true ∧
      SpeaksOfRunning (transitions step startAndStop .init) (final step startAndStop .init) := by
  refine ⟨rfl, speaksOfRunning_run startAndStop ?_ startAndStop List.prefix_rfl⟩
  have hclears : ∀ x ∈ transitions step startAndStop .init, x.before.caller.clears = true →
      x.before.starts ≤ 1 ∧ (x.before.monitors 0 = .unstarted ∨ x.before.monitors 0 = .ended true) := by decide +kernel
  intro x hx hover
  obtain ⟨hstarts, hfirst⟩ := hclears x hx hover.clears
  obtain ⟨before, -, -, hx⟩ := exists_of_mem_transitions step hx
  have hbefore : x.before = final step before .init := congrArg Transition.before hx
  -- the monitor of the start has not begun or has set the event, and there is no other one
  have hmonitors : ∀ n, x.before.monitors n = .unstarted ∨ x.before.monitors n = .ended true := by
    intro n
    cases n with
    | zero => exact hfirst
    | succ n =>
      rw [hbefore] at hstarts ⊢
      exact .inl ((consistent_run before).fresh (n + 1) (by omega)).1
  generalize x.event = e at hover
  cases hover with
  | @start _ n _ _ hm | @stop _ n _ hm => rcases hmonitors n with h | h <;> rw [h] at hm <;> cases hm
  | @test _ n _ _ hm => rcases hmonitors n with h | h <;> cases h.symm.trans hm

/-- A monitor that has found the endpoint reachable when `stop_server` is called, and is not given another
turn before it has returned. -/
def lateMonitor : List Turn :=
  [.startServer, .caller false, .caller false, .caller false, .caller false, .caller false, .caller false,
    .caller false, .server 0 false, .server 0 false, .monitor 0 true, .monitor 0 true, .monitor 0 true,
    .monitor 0 true, .monitor 0 true, .monitor 0 true, .stopServer, .caller false, .caller false, .server 0 false,
    .caller false, .caller false, .caller false, .caller false, .caller false, .monitor 0 true]

/-- The event is set although `stop_server` has returned and no start has begun since. -/
theorem not_speaksOfRunning_lateMonitor :
    ¬ SpeaksOfRunning (transitions step lateMonitor .init) (final step lateMonitor .init) := by
  intro h
  have hstopped : Live StopReturns StartBegins (transitions step lateMonitor .init) := by
    have hparts : lateMonitor = lateMonitor.take 24 ++ Turn.caller false :: lateMonitor.drop 25 := rfl
    rw [hparts, transitions_append, transitions_cons]
    refine ⟨_, _, _, rfl, ⟨⟨.dropError, rfl⟩, rfl⟩, ?_⟩
    simp [StartBegins, lateMonitor]
  have hready : (final step lateMonitor .init).readyEvent = true := rfl
  rw [h.stopped hstopped] at hready
  cases hready

end Starter

end Cursus
