/-
`wait_until_ready` of `cursus/starter.py`, called by any number of threads while the threads of the `Starter`
take their turns. What a call returns or raises was so during the call, and no waiting thread misses the event.
But a call without a timeout tests for the error of the server thread only behind its wait: on a start that has
failed it does not end, unless a monitor that is past its own test of the error finds the endpoint reachable.
-/
import Cursus.Starter.Raises
import Cursus.Starter.Ready

namespace Cursus

open Cursus.Run

/-! ## The machine -/

/-- A thread in `wait_until_ready`, from `enter` to `notified` in the `wait` of the event; it may or may not
have a timeout. -/
inductive Waiter
  | outside
  | enter (timeout : Bool)
  | waiting (timeout : Bool)
  | notified
  | testError
  deriving DecidableEq

/-- `notify_all`. -/
def Waiter.wake : Waiter → Waiter
  | .waiting _ => .notified
  | w => w

/-- The call returns whether the server is ready, or raises. -/
inductive Verdict
  | ready
  | notReady
  | failed
  deriving DecidableEq

/-- What a verdict says of a moment of its call, and of the end of it. -/
def Verdict.Holds (moment last : Starter) : Verdict → Prop
  | .ready => moment.readyEvent = true
  | .notReady => moment.readyEvent = false ∧ last.serverError = false
  | .failed => moment.readyEvent = false ∧ last.serverError = true ∧ ∃ n, last.serverThreads n = .failed

/-- A `Starter`, and the threads that wait for it. -/
structure WaitedStarter (κ : Type) where
  starter : Starter
  waiters : κ → Waiter

/-- A thread of the `Starter` is given a turn, or another one calls `wait_until_ready` or is given a turn there. A
turn of a waiting thread is the end of its timeout. -/
inductive WaitTurn (κ : Type)
  | starter (turn : Turn)
  | call (k : κ) (timeout : Bool)
  | waiter (k : κ)
  deriving DecidableEq

namespace WaitedStarter

variable {κ : Type}

def init : WaitedStarter κ := ⟨.init, fun _ => .outside⟩

/-- The turn is the call of `set`. -/
def Sets (s : Starter) : Turn → Bool
  | .monitor n _ => s.monitors n == .setReady
  | _ => false

variable [DecidableEq κ]

/-- One statement of `wait_until_ready`. -/
def waitUntilReady (s : WaitedStarter κ) (k : κ) : Waiter → Option (κ × Verdict) × WaitedStarter κ
  | .outside => (none, s)
  | .enter timeout =>
    if s.starter.readyEvent then (some (k, .ready), { s with waiters := Function.update s.waiters k .outside })
    else (none, { s with waiters := Function.update s.waiters k (.waiting timeout) })
  | .waiting timeout =>
    if timeout then (none, { s with waiters := Function.update s.waiters k .testError }) else (none, s)
  | .notified => (some (k, .ready), { s with waiters := Function.update s.waiters k .outside })
  | .testError =>
    (some (k, if s.starter.serverError then .failed else .notReady),
      { s with waiters := Function.update s.waiters k .outside })

def step : Step (WaitedStarter κ) (WaitTurn κ) (Option (κ × Verdict))
  | .starter turn, s =>
    (none, ⟨s.starter.next turn, if Sets s.starter turn then fun k => (s.waiters k).wake else s.waiters⟩)
  | .call k timeout, s =>
    if s.waiters k = .outside then (none, { s with waiters := Function.update s.waiters k (.enter timeout) })
    else (none, s)
  | .waiter k, s => s.waitUntilReady k (s.waiters k)

/-! ## The `Starter` is not aware of it -/

def starterTurn : WaitTurn κ → Option Turn
  | .starter turn => some turn
  | _ => none

theorem starter_waitUntilReady (s : WaitedStarter κ) (k : κ) (w : Waiter) :
    (s.waitUntilReady k w).2.starter = s.starter := by
  cases w with
  | outside | notified | testError => rfl
  | enter timeout => rw [waitUntilReady]; split <;> rfl
  | waiting timeout => cases timeout <;> rfl

theorem starter_step (e : WaitTurn κ) (s : WaitedStarter κ) :
    (step e s).2.starter = final Starter.step (starterTurn e).toList s.starter := by
  cases e with
  | starter turn => rfl
  | call k timeout => rw [step]; split <;> rfl
  | waiter k => exact starter_waitUntilReady ..

theorem starter_run (turns : List (WaitTurn κ)) :
    (final step turns init).starter = final Starter.step (turns.filterMap starterTurn) .init := by
  induction turns using List.reverseRecOn with
  | nil => rfl
  | append_singleton turns e ih =>
    have hsplit : (turns ++ [e]).filterMap starterTurn = turns.filterMap starterTurn ++ (starterTurn e).toList := by
      cases h : starterTurn e <;> simp [h]
    rw [final_snoc, starter_step, ih, hsplit, final_append]

/-! ## Single turns -/

variable {s : WaitedStarter κ} {e : WaitTurn κ} {k : κ}

omit [DecidableEq κ] in
/-- Only a monitor sets the event. -/
theorem readyEvent_next {s : Starter} (turn : Turn) (h : (s.next turn).readyEvent = true) :
    s.readyEvent = true ∨ Sets s turn = true := by
  revert h
  refine Starter.next_cases (motive := fun turn s' => s'.readyEvent = true → s.readyEvent = true ∨ Sets s turn = true) turn
    (fun _ h => .inl h) (fun _ h => .inl h) (fun _ h => .inl h) (fun raises statement _ h => ?_)
    (fun raises statement _ h => ?_) (fun _ _ h => .inl h) (fun n reachable h => ?_)
  · cases statement with
    | construct => cases raises <;> exact .inl h
    | clear => cases h
    | resetError | assignThread | startThread | startMonitor | sleep => exact .inl h
  · cases statement with
    | getStop =>
      cases hserver : s.server with
      | none | some =>
        simp only [Starter.stopServer, hserver] at h
        exact .inl h
    | stop => cases raises <;> exact .inl h
    | clear => cases h
    | join | dropServer | dropThread | dropError => exact .inl h
  · exact Bool.or_eq_true_iff.1 h

omit [DecidableEq κ] in
theorem readyEvent_of_sets {s : Starter} {turn : Turn} (h : Sets s turn = true) : (s.next turn).readyEvent = true := by
  cases turn with
  | monitor n reachable => exact Bool.or_eq_true_iff.2 (.inr h)
  | startServer | stopServer | caller | server => cases h

/-- The turn is the one of a monitor that sets the event. -/
def setsEvent (s : WaitedStarter κ) : WaitTurn κ → Bool
  | .starter turn => Sets s.starter turn
  | _ => false

/-- Where a thread is behind a turn: it moves when the event is set, when it calls and in its own turns. -/
inductive Moves (s : WaitedStarter κ) (k : κ) (w : Waiter) : WaitTurn κ → Waiter → Prop
  | stays {e : WaitTurn κ} : s.setsEvent e = false → Moves s k w e w
  | wakes {e : WaitTurn κ} {w' : Waiter} : s.setsEvent e = true → w.wake = w' → Moves s k w e w'
  | calls {timeout : Bool} : w = .outside → Moves s k w (.call k timeout) (.enter timeout)
  | waits {timeout : Bool} : w = .enter timeout → s.starter.readyEvent = false →
      Moves s k w (.waiter k) (.waiting timeout)
  | timesOut : w = .waiting true → Moves s k w (.waiter k) .testError
  | ends : (∀ timeout, w ≠ .waiting timeout) → Moves s k w (.waiter k) .outside

theorem moves_waiter (s : WaitedStarter κ) (k : κ) (w : Waiter) (hw : s.waiters k = w) :
    Moves s k w (.waiter k) ((s.waitUntilReady k w).2.waiters k) := by
  cases w with
  | outside =>
    rw [waitUntilReady, hw]
    exact .stays rfl
  | enter timeout =>
    rw [waitUntilReady]
    split
    · simp only [Function.update_self]
      exact .ends nofun
    · rename_i hready
      simp only [Function.update_self]
      exact .waits rfl (Bool.eq_false_of_not_eq_true hready)
  | waiting timeout =>
    cases timeout with
    | false =>
      simp only [waitUntilReady, Bool.false_eq_true, if_false, hw]
      exact .stays rfl
    | true =>
      simp only [waitUntilReady, if_true, Function.update_self]
      exact .timesOut rfl
  | notified | testError =>
    simp only [waitUntilReady, Function.update_self]
    exact .ends nofun

theorem waiters_waitUntilReady (s : WaitedStarter κ) {k k' : κ} (h : k ≠ k') (w : Waiter) :
    (s.waitUntilReady k' w).2.waiters k = s.waiters k := by
  have hupdate : ∀ w, Function.update s.waiters k' w k = s.waiters k := fun _ => Function.update_of_ne h ..
  cases w with
  | outside => rfl
  | enter timeout =>
    rw [waitUntilReady]
    split
    · exact hupdate _
    · exact hupdate _
  | waiting timeout =>
    cases timeout with
    | false => rfl
    | true => exact hupdate _
  | notified | testError => exact hupdate _

theorem moves_step (e : WaitTurn κ) (s : WaitedStarter κ) (k : κ) :
    Moves s k (s.waiters k) e ((step e s).2.waiters k) := by
  cases e with
  | starter turn =>
    cases hsets : Sets s.starter turn with
    | false =>
      simp only [step, hsets, Bool.false_eq_true, if_false]
      exact .stays hsets
    | true =>
      simp only [step, hsets, if_true]
      exact .wakes hsets rfl
  | call k' timeout =>
    rw [step]
    split
    · rename_i hw
      by_cases hk : k = k'
      · subst hk
        simp only [Function.update_self]
        exact .calls hw
      · simp only [Function.update_of_ne hk]
        exact .stays rfl
    · exact .stays rfl
  | waiter k' =>
    rw [step]
    by_cases hk : k = k'
    · subst hk
      exact moves_waiter s k _ rfl
    · rw [waiters_waitUntilReady s hk]
      exact .stays rfl

theorem starter_waiter (k : κ) (s : WaitedStarter κ) : (step (.waiter k) s).2.starter = s.starter :=
  starter_step (.waiter k) s

theorem readyEvent_step (e : WaitTurn κ) (s : WaitedStarter κ) (h : (step e s).2.starter.readyEvent = true) :
    s.starter.readyEvent = true ∨ s.setsEvent e = true := by
  rw [starter_step] at h
  cases e with
  | starter turn => exact readyEvent_next turn h
  | call | waiter => exact .inl h

/-! ## No thread misses the event -/

/-- While a thread waits, the event is not set. -/
def Heard (s : WaitedStarter κ) : Prop := ∀ k timeout, s.waiters k = .waiting timeout → s.starter.readyEvent = false

theorem Heard.step (h : s.Heard) (e : WaitTurn κ) : (step e s).2.Heard := by
  intro k timeout hw'
  have hmoves := moves_step e s k
  rw [hw'] at hmoves
  generalize hw : s.waiters k = w at hmoves
  cases hmoves with
  | stays hsilent =>
    by_contra hset
    rcases readyEvent_step e s (Bool.eq_true_of_not_eq_false hset) with hready | hsets
    · rw [h k timeout hw] at hready
      cases hready
    · rw [hsilent] at hsets
      cases hsets
  | wakes hsets hwake => cases w <;> cases hwake
  | waits hw hready => rwa [starter_waiter]

theorem heard_run (turns : List (WaitTurn κ)) : (final step turns init).Heard :=
  final_invariant (fun e _ h => h.step e) turns (by rintro k timeout ⟨⟩)

/-! ## Verdicts -/

/-- Where a thread is when its call ends. -/
theorem verdict_cases {s : WaitedStarter κ} {e : WaitTurn κ} {k : κ} {verdict : Verdict}
    (h : (step e s).1 = some (k, verdict)) :
    (verdict = .ready ∧ s.waiters k ≠ .outside ∧ s.starter.readyEvent = true) ∨
    (verdict = .ready ∧ s.waiters k = .notified) ∨
    (verdict = (if s.starter.serverError then .failed else .notReady) ∧ s.waiters k = .testError) := by
  cases e with
  | starter turn => cases h
  | call k' timeout =>
    rw [step] at h
    split at h <;> cases h
  | waiter k' =>
    rw [step] at h
    cases hw : s.waiters k' with
    | outside =>
      rw [hw] at h
      cases h
    | enter timeout =>
      rw [hw, waitUntilReady] at h
      split at h
      · rename_i hready
        cases h
        exact .inl ⟨rfl, by rw [hw]; nofun, hready⟩
      · cases h
    | waiting timeout =>
      rw [hw] at h
      cases timeout <;> cases h
    | notified =>
      rw [hw] at h
      cases h
      exact .inr (.inl ⟨rfl, hw⟩)
    | testError =>
      rw [hw] at h
      simp only [waitUntilReady, Option.some.injEq, Prod.mk.injEq] at h
      obtain ⟨rfl, rfl⟩ := h
      exact .inr (.inr ⟨rfl, hw⟩)

/-- A thread that was woken has been in its call since the event was set. -/
theorem exists_set_of_notified (turns : List (WaitTurn κ)) (k : κ) (h : (final step turns init).waiters k = .notified) :
    ∃ before during, turns = before ++ during ∧ (final step before init).waiters k = .notified ∧
      (final step before init).starter.readyEvent = true ∧
      ∀ x ∈ transitions step during (final step before init), x.before.waiters k = .notified := by
  obtain ⟨before, e, during, rfl, hnot, hentered, hduring⟩ :=
    exists_entered (fun s : WaitedStarter κ => s.waiters k = .notified) (by rintro ⟨⟩) turns h
  refine ⟨before ++ [e], during, by simp, by rwa [final_snoc], ?_, by rwa [final_snoc]⟩
  rw [final_snoc]
  have hmoves := moves_step e (final step before init) k
  rw [hentered] at hmoves
  generalize hw : (final step before init).waiters k = w at hmoves
  cases hmoves with
  | stays => exact absurd hw hnot
  | wakes hsets =>
    cases e with
    | starter turn => exact readyEvent_of_sets hsets
    | call | waiter => cases hsets

/-- A thread that has timed out has been in its call since, and the event was not set then. -/
theorem exists_unset_of_testError (turns : List (WaitTurn κ)) (k : κ)
    (h : (final step turns init).waiters k = .testError) :
    ∃ before during, turns = before ++ during ∧ (final step before init).waiters k = .testError ∧
      (final step before init).starter.readyEvent = false ∧
      ∀ x ∈ transitions step during (final step before init), x.before.waiters k = .testError := by
  obtain ⟨before, e, during, rfl, hnot, hentered, hduring⟩ :=
    exists_entered (fun s : WaitedStarter κ => s.waiters k = .testError) (by rintro ⟨⟩) turns h
  refine ⟨before ++ [e], during, by simp, by rwa [final_snoc], ?_, by rwa [final_snoc]⟩
  rw [final_snoc]
  have hmoves := moves_step e (final step before init) k
  rw [hentered] at hmoves
  generalize hw : (final step before init).waiters k = w at hmoves
  cases hmoves with
  | stays => exact absurd hw hnot
  | wakes hsets hwake => cases w <;> first | exact absurd hw hnot | cases hwake
  | timesOut hwaiting =>
    rw [starter_waiter]
    exact heard_run before k true (hw.trans hwaiting)

/-- A turn that does not run a server thread leaves the failed ones, and makes no error. -/
theorem failed_next {s : Starter} (hs : s.Consistent) (turn : Turn)
    (h : s.serverError = true → ∃ n, s.serverThreads n = .failed) :
    (s.next turn).serverError = true → ∃ n, (s.next turn).serverThreads n = .failed := by
  refine Starter.next_cases (motive := fun _ s' => s'.serverError = true → ∃ n, s'.serverThreads n = .failed) turn
    (fun _ => h) (fun _ => h) (fun _ => h) (fun raises statement hc herror => ?_) (fun raises statement _ herror => ?_)
    (fun n raises herror => ?_) (fun _ _ => h)
  · have hf := hs.fields
    rw [hc] at hf
    cases statement with
    | construct => cases raises <;> exact h herror
    | resetError => cases herror
    | clear | assignThread | startMonitor | sleep => exact h herror
    | startThread n =>
      -- the thread that is started has not failed
      obtain ⟨k, hk⟩ := h herror
      have hne : k ≠ n := by
        rintro rfl
        cases hf.2.2.2.2.symm.trans hk
      exact ⟨k, (Function.update_of_ne hne ..).trans hk⟩
  · cases statement with
    | getStop =>
      cases hserver : s.server with
      | none | some =>
        simp only [Starter.stopServer, hserver] at herror ⊢
        exact h herror
    | stop => cases raises <;> exact h herror
    | dropError => cases herror
    | join | clear | dropServer | dropThread => exact h herror
  · have hself : (s.runServer n raises).serverThreads n = s.serverThreadAfter raises (s.serverThreads n) :=
      Function.update_self ..
    have herror : (s.serverError || s.serverThreads n == .setError) = true := herror
    rw [Bool.or_eq_true, beq_iff_eq] at herror
    rcases herror with herror | hset
    · obtain ⟨k, hk⟩ := h herror
      by_cases hkn : k = n
      · subst hkn
        exact ⟨k, hself.trans (Starter.serverThreadAfter_eq_failed.2 (.inr hk))⟩
      · exact ⟨k, (Function.update_of_ne hkn ..).trans hk⟩
    · exact ⟨n, hself.trans (Starter.serverThreadAfter_eq_failed.2 (.inl hset))⟩

/-- The error of the `Starter` is that of a server thread. -/
theorem failed_of_serverError (turns : List Turn) (h : (final Starter.step turns .init).serverError = true) :
    ∃ n, (final Starter.step turns .init).serverThreads n = .failed := by
  have hstep : ∀ e s, Starter.Consistent s ∧ (s.serverError = true → ∃ n, s.serverThreads n = .failed) →
      (Starter.step e s).2.Consistent ∧ ((Starter.step e s).2.serverError = true →
        ∃ n, (Starter.step e s).2.serverThreads n = .failed) :=
    fun e _ hs => ⟨hs.1.next e, failed_next hs.1 e hs.2⟩
  exact (final_invariant hstep turns ⟨Starter.consistent_init, nofun⟩).2 h

theorem probed_of_readyEvent (turns : List Turn) (h : (final Starter.step turns .init).readyEvent = true) :
    Starter.Probed (transitions Starter.step turns .init) := by
  have htraced : (final Starter.step turns .init).Traced (transitions Starter.step turns .init) :=
    transitions_invariant (I := fun t s => Starter.Traced s t) ⟨by rintro n ⟨⟩, by rintro n (⟨⟨⟩⟩ | ⟨⟨⟩⟩), by rintro ⟨⟩⟩
      (fun t e s h => h.next e) turns
  exact htraced.ready h

/-- In whatever way the threads interleave, no thread waits while the event is set; and what a call tells of the
event was so at a moment of the call, behind a probe that has passed, and what it tells of the error is so when it
ends. -/
theorem wait_until_ready_sound (turns : List (WaitTurn κ)) (k : κ) :
    (∀ timeout, (final step turns init).waiters k = .waiting timeout →
      (final step turns init).starter.readyEvent = false) ∧
    ∀ e verdict, (step e (final step turns init)).1 = some (k, verdict) → ∃ before during, turns = before ++ during ∧
      (final step before init).waiters k ≠ .outside ∧
      (∀ x ∈ transitions step during (final step before init), x.before.waiters k ≠ .outside) ∧
      verdict.Holds (final step before init).starter (final step turns init).starter ∧
      (verdict = .ready → Starter.Probed (transitions Starter.step (before.filterMap starterTurn) .init)) := by
  refine ⟨heard_run turns k, fun e verdict he => ?_⟩
  have hprobed : ∀ before : List (WaitTurn κ), (final step before init).starter.readyEvent = true →
      Starter.Probed (transitions Starter.step (before.filterMap starterTurn) .init) := by
    intro before hready
    rw [starter_run] at hready
    exact probed_of_readyEvent _ hready
  have hinside : ∀ {w : Waiter} {before during : List (WaitTurn κ)},
      (∀ x ∈ transitions step during (final step before init), x.before.waiters k = w) → w ≠ .outside →
        ∀ x ∈ transitions step during (final step before init), x.before.waiters k ≠ .outside :=
    fun h hw x hx => (h x hx).trans_ne hw
  rcases verdict_cases he with ⟨rfl, hw, hready⟩ | ⟨rfl, hw⟩ | ⟨rfl, hw⟩
  · exact ⟨turns, [], (List.append_nil _).symm, hw, by simp, hready, fun _ => hprobed turns hready⟩
  · obtain ⟨before, during, hturns, hnow, hready, hduring⟩ := exists_set_of_notified turns k hw
    exact ⟨before, during, hturns, hnow.trans_ne nofun, hinside hduring nofun, hready, fun _ => hprobed before hready⟩
  · obtain ⟨before, during, hturns, hnow, hready, hduring⟩ := exists_unset_of_testError turns k hw
    refine ⟨before, during, hturns, hnow.trans_ne nofun, hinside hduring nofun, ?_⟩
    cases herror : (final step turns init).starter.serverError with
    | false => exact ⟨⟨hready, herror⟩, nofun⟩
    | true =>
      refine ⟨⟨hready, herror, ?_⟩, nofun⟩
      rw [starter_run] at herror ⊢
      exact failed_of_serverError _ herror

end WaitedStarter

/-! ## Waiting for a start that has failed -/

/-- A monitor that is not past its test of the error. -/
def Monitor.unaware : Monitor → Bool
  | .probe | .probing | .testReady | .setReady => false
  | .unstarted | .testThread | .testAlive | .testError | .sleep | .ended _ => true

namespace Starter

variable {s : Starter} {A : ℕ → Prop}

/-- There is an error of a server thread, and no call under way that resets it. -/
structure Failed (s : Starter) : Prop where
  serverError : s.serverError = true
  caller : s.caller = .idle ∨ ∃ n, s.BehindReset n

/-- The start has failed, of the monitors only those in `A` are past their test of the error, and no probe has
passed. -/
structure Unreached (A : ℕ → Prop) (s : Starter) : Prop extends Failed s where
  readyEvent : s.readyEvent = false
  monitors : ∀ n, (s.monitors n).unaware = true ∨ A n ∧ (s.monitors n = .probe ∨ s.monitors n = .probing)

theorem unaware_monitorAfter {reachable : Bool} {m : Monitor} (herror : s.serverError = true)
    (h : m.unaware = true) : (s.monitorAfter reachable m).unaware = true := by
  cases m with
  | testThread => simp only [monitorAfter]; split <;> rfl
  | testAlive => simp only [monitorAfter]; (repeat' split) <;> rfl
  | testError => simp only [monitorAfter, herror, if_true]; rfl
  | unstarted | sleep | ended => rfl
  | probe | probing | testReady | setReady => cases h

theorem Unreached.startServer (h : s.Unreached A) (raises : Bool) {statement : StartServer}
    (hc : s.caller = .startServer statement) : (s.startServer raises statement).Unreached A := by
  rcases h.caller with hidle | ⟨n, statement', hc', hbehind⟩
  · cases hidle.symm.trans hc
  cases hc'.symm.trans hc
  cases statement with
  | construct | clear | resetError => cases hbehind
  | assignThread | startThread =>
    exact ⟨⟨h.serverError, .inr ⟨n, _, rfl, hbehind⟩⟩, h.readyEvent, h.monitors⟩
  | startMonitor k =>
    refine ⟨⟨h.serverError, .inr ⟨n, _, rfl, hbehind⟩⟩, h.readyEvent, fun j => ?_⟩
    by_cases hj : j = k
    · subst hj
      simp [Starter.startServer, setMonitor, Monitor.unaware]
    · simpa [Starter.startServer, setMonitor, hj] using h.monitors j
  | sleep => exact ⟨⟨h.serverError, .inl rfl⟩, h.readyEvent, h.monitors⟩

theorem Unreached.monitor (h : s.Unreached A) (n : ℕ) (reachable : Bool)
    (hprobe : A n → s.monitors n = .probing → reachable = false) :
    (s.monitorServerReadiness n reachable).Unreached A := by
  refine ⟨⟨h.serverError, h.caller⟩, ?_, fun k => ?_⟩
  · have hset : s.monitors n ≠ .setReady := by
      intro hm
      have hmonitor := h.monitors n
      rw [hm] at hmonitor
      rcases hmonitor with hunaware | ⟨-, hprobe | hprobing⟩
      · cases hunaware
      · cases hprobe
      · cases hprobing
    simp [monitorServerReadiness, h.readyEvent, hset]
  · by_cases hk : k = n
    · subst hk
      rw [show (s.monitorServerReadiness k reachable).monitors k = s.monitorAfter reachable (s.monitors k) from
        Function.update_self ..]
      rcases h.monitors k with hunaware | ⟨hA, hm | hm⟩
      · exact .inl (unaware_monitorAfter h.serverError hunaware)
      · rw [hm]
        exact .inr ⟨hA, .inr rfl⟩
      · -- the probe does not pass
        rw [hm, hprobe hA hm]
        exact .inl rfl
    · simpa [monitorServerReadiness, setMonitor, hk] using h.monitors k

theorem Unreached.next (h : s.Unreached A) (turn : Turn) :
    turn ≠ .startServer → turn ≠ .stopServer →
      (∀ n, A n → s.monitors n = .probing → turn ≠ .monitor n true) → (s.next turn).Unreached A := by
  refine next_cases (motive := fun turn s' => turn ≠ .startServer → turn ≠ .stopServer →
      (∀ n, A n → s.monitors n = .probing → turn ≠ .monitor n true) → s'.Unreached A) turn
    (fun _ _ _ _ => h) (fun _ hstart => absurd rfl hstart) (fun _ _ hstop => absurd rfl hstop)
    (fun raises _ hc _ _ _ => h.startServer raises hc) (fun raises statement hc _ _ _ => ?_)
    (fun n raises _ _ _ => ?_) (fun n reachable _ _ hprobe => h.monitor n reachable fun hA hm => ?_)
  · rcases h.caller with hidle | ⟨n, _, hstart, -⟩
    · cases hidle.symm.trans hc
    · cases hstart.symm.trans hc
  · exact ⟨⟨Bool.or_eq_true_iff.2 (.inl h.serverError), h.caller⟩, h.readyEvent, h.monitors⟩
  · by_contra hreachable
    exact hprobe n hA hm (by rw [Bool.eq_true_of_not_eq_false hreachable])

end Starter

namespace WaitedStarter

variable {κ : Type}

/-- The probe of the monitor passes. -/
def ProbePasses (n : ℕ) (x : Transition (WaitedStarter κ) (WaitTurn κ) (Option (κ × Verdict))) : Prop :=
  x.before.starter.monitors n = .probing ∧ x.event = .starter (.monitor n true)

/-- The monitor is past its test of the error, and its probe has passed or passes later. -/
def Reaches (n : ℕ) (s : WaitedStarter κ)
    (later : List (Transition (WaitedStarter κ) (WaitTurn κ) (Option (κ × Verdict)))) : Prop :=
  s.starter.monitors n = .testReady ∨ s.starter.monitors n = .setReady ∨
    (s.starter.monitors n).unaware = false ∧ ∃ x ∈ later, ProbePasses n x

variable [DecidableEq κ] {A : ℕ → Prop}

theorem waiting_step {s : WaitedStarter κ} {k : κ} (hs : s.starter.Unreached A) (hw : s.waiters k = .waiting false)
    {e : WaitTurn κ} (he : e ≠ .starter .startServer ∧ e ≠ .starter .stopServer)
    (hprobe : ∀ n, A n → s.starter.monitors n = .probing → e ≠ .starter (.monitor n true)) :
    (step e s).2.starter.Unreached A ∧ (step e s).2.waiters k = .waiting false := by
  have hunreached : (step e s).2.starter.Unreached A := by
    rw [starter_step]
    cases e with
    | starter turn =>
      refine hs.next turn ?_ ?_ fun n hA hm => ?_
      · rintro rfl
        exact he.1 rfl
      · rintro rfl
        exact he.2 rfl
      · rintro rfl
        exact hprobe n hA hm rfl
    | call | waiter => exact hs
  refine ⟨hunreached, ?_⟩
  have hmoves := moves_step e s k
  rw [hw] at hmoves
  generalize hw' : (step e s).2.waiters k = w' at hmoves
  cases hmoves with
  | stays => rfl
  | wakes hsets =>
    -- no monitor sets the event of a start that has failed
    cases e with
    | starter turn =>
      have hready := readyEvent_of_sets hsets
      rw [show (s.starter.next turn).readyEvent = false from hunreached.readyEvent] at hready
      cases hready
    | call | waiter => cases hsets
  | calls hout => cases hout
  | waits hwaiting => cases hwaiting
  | timesOut hwaiting => cases hwaiting
  | ends hends => exact absurd rfl (hends false)

theorem waiting_run (later : List (WaitTurn κ)) {s : WaitedStarter κ} {k : κ} (hs : s.starter.Unreached A)
    (hw : s.waiters k = .waiting false) (hlater : ∀ e ∈ later, e ≠ .starter .startServer ∧ e ≠ .starter .stopServer)
    (hprobe : ∀ n, A n → ∀ x ∈ transitions step later s, ¬ ProbePasses n x) :
    (final step later s).waiters k = .waiting false := by
  induction later generalizing s with
  | nil => exact hw
  | cons e later ih =>
    rw [List.forall_mem_cons] at hlater
    simp only [transitions_cons, List.forall_mem_cons] at hprobe
    obtain ⟨hs', hw'⟩ := waiting_step hs hw hlater.1 fun n hA hm he => (hprobe n hA).1 ⟨hm, he⟩
    exact ih hs' hw' hlater.2 fun n hA => (hprobe n hA).2

/-- While neither `start_server` nor `stop_server` is called, a call without a timeout that waits when a start has
failed does not end, unless a monitor that was past its test of the error then finds the endpoint reachable. -/
theorem failed_start_blocks (turns later : List (WaitTurn κ)) (k : κ)
    (hfailed : (final step turns init).starter.Failed) (hw : (final step turns init).waiters k = .waiting false)
    (hlater : ∀ e ∈ later, e ≠ .starter .startServer ∧ e ≠ .starter .stopServer) :
    (final step (turns ++ later) init).waiters k = .waiting false ∨
      ∃ n, Reaches n (final step turns init) (transitions step later (final step turns init)) := by
  rw [or_iff_not_imp_right, not_exists]
  intro hreaches
  rw [final_append]
  -- the monitors that are past their test of the error when the start has failed
  refine waiting_run (A := fun n => ((final step turns init).starter.monitors n).unaware = false) later
    ⟨hfailed, heard_run turns k false hw, fun n => ?_⟩ hw hlater fun n hA x hx hpasses => hreaches n (.inr (.inr ⟨hA, x, hx, hpasses⟩))
  cases hm : (final step turns init).starter.monitors n with
  | probe => exact .inr ⟨rfl, .inl rfl⟩
  | probing => exact .inr ⟨rfl, .inr rfl⟩
  | testReady => exact absurd (.inl hm) (hreaches n)
  | setReady => exact absurd (.inr (.inl hm)) (hreaches n)
  | unstarted | testThread | testAlive | testError | sleep | ended => exact .inl rfl

/-- A start whose `start` raises while the monitor is about to probe the endpoint, and a call without a timeout. -/
def failedStart : List (WaitTurn Unit) :=
  [.starter .startServer, .starter (.caller false), .starter (.caller false), .starter (.caller false),
    .starter (.caller false), .starter (.caller false), .starter (.caller false), .starter (.server 0 false),
    .starter (.server 0 false), .starter (.monitor 0 true), .starter (.monitor 0 true), .starter (.monitor 0 true),
    .starter (.server 0 true), .starter (.server 0 false), .call () false, .waiter ()]

/-- The probe, a round of the monitor that finds its thread dead, and a turn of the call that waits. -/
def unreached : List (WaitTurn Unit) :=
  [.starter (.monitor 0 true), .starter (.monitor 0 false), .starter (.monitor 0 true), .starter (.monitor 0 true),
    .starter (.monitor 0 true), .waiter ()]

/-- The probe fails, and the call goes on. -/
theorem failed_start_blocks_monitor :
    (final step (failedStart ++ unreached) init).waiters () = .waiting false := by
  refine (failed_start_blocks failedStart unreached () ⟨rfl, .inr ⟨0, .sleep 0, rfl, rfl⟩⟩
    rfl (by simp [unreached])).resolve_right ?_
  rintro ⟨_ | n, hready | hset | ⟨haware, x, hx, hprobing, hpasses⟩⟩
  · cases hready
  · cases hset
  · have hfails : ∀ x ∈ transitions step unreached (final step failedStart init),
        ¬ (x.before.starter.monitors 0 = .probing ∧ x.event = .starter (.monitor 0 true)) := by decide +kernel
    exact hfails x hx ⟨hprobing, hpasses⟩
  · cases hready
  · cases hset
  · cases haware

end WaitedStarter

end Cursus
