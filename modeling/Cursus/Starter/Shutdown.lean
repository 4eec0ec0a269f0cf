/-
Whether `stop_server` of `cursus/starter.py` stops a server of `cursus/enip/server.py`. `stop` tests a field
that `start` sets in the server thread, so a stop that comes before `start` has set it does nothing, and the
server thread goes on to `serve_forever`. `start` and `stop` of `cursus/bacnet/server.py` are the same.
-/
import Cursus.Starter.Machine

namespace Cursus

open Cursus.Run

/-! ## The backing server -/

/-- Where the server thread is in `EnipServer.start`, from `enter` to `setShutDown` in the `serve_forever` of
its socket server. -/
inductive Start
  | construct
  | publish
  | enter
  | serve
  | resetRequest (raised : Bool)
  | setShutDown (raised : Bool)
  | close (raised : Bool)
  | unpublish (raised : Bool)
  | ended (raised : Bool)
  deriving DecidableEq

/-- `serve_forever` is running. -/
def Start.serves : Start → Bool
  | .serve | .resetRequest _ | .setShutDown _ => true
  | _ => false

/-- `serve_forever` is running, or is entered next. -/
def Start.willServe : Start → Bool
  | .enter => true
  | start => start.serves

/-- Where the caller is in `EnipServer.stop`, from `request` to `wait` in the `shutdown` of the socket server. -/
inductive Stop
  | test
  | getShutdown
  | request
  | wait
  | ended (raised : Bool)
  deriving DecidableEq

def Stop.hasEnded : Stop → Bool
  | .ended _ => true
  | _ => false

/-- `stop_server` is behind its call of `stop`. -/
def Caller.behindStop : Caller → Bool
  | .stopServer .join | .stopServer .clear | .stopServer .dropServer | .stopServer .dropThread
  | .stopServer .dropError => true
  | _ => false

/-- A `Starter` behind its first start of a server thread, and the backing server. `published` says that
`_server` is not `None`; the other flags are those of the socket server. -/
structure Backed where
  starter : Starter
  start : Start
  stop : Stop
  published : Bool
  shutdownRequest : Bool
  isShutDown : Bool

/-- `start_server` has started the server thread. -/
def Backed.init : Backed where
  starter := final Starter.step
    [.startServer, .caller false, .caller false, .caller false, .caller false, .caller false] .init
  start := .construct
  stop := .test
  published := false
  shutdownRequest := false
  isShutDown := false

/-- A thread is given a turn; `stopServer` calls `stop_server`. -/
inductive BackedTurn
  | stopServer
  | caller (raises : Bool)
  | server (raises : Bool)
  | monitor (reachable : Bool)

namespace Backed

/-- One statement of `start`. -/
def startServing (raises : Bool) (s : Backed) : Start → Backed
  | .construct => { s with start := if raises then .ended true else .publish }
  | .publish => { s with published := true, start := .enter }
  | .enter => { s with isShutDown := false, start := .serve }
  | .serve =>
    { s with
      start := if raises then .resetRequest true else if s.shutdownRequest then .resetRequest false else .serve }
  | .resetRequest raised => { s with shutdownRequest := false, start := .setShutDown raised }
  | .setShutDown raised => { s with isShutDown := true, start := .close raised }
  | .close raised => { s with start := if raises then .ended true else .unpublish raised }
  | .unpublish raised => { s with published := false, start := .ended raised }
  | .ended raised => { s with starter := s.starter.next (.server 0 raised) }

/-- One statement of `stop`. -/
def stopServing (s : Backed) : Stop → Backed
  | .test => { s with stop := if s.published then .getShutdown else .ended false }
  -- `None` has no `shutdown`
  | .getShutdown => { s with stop := if s.published then .request else .ended true }
  | .request => { s with shutdownRequest := true, stop := .wait }
  | .wait => { s with stop := if s.isShutDown then .ended false else .wait }
  | .ended raised => { s with starter := s.starter.next (.caller raised) }

/-- The threads of the `Starter` take their turns as there, but for the calls of `start` and `stop`. -/
def next : BackedTurn → Backed → Backed
  | .stopServer, s => { s with starter := s.starter.next .stopServer }
  | .caller raises, s =>
    match s.starter.caller with
    | .stopServer .stop => s.stopServing s.stop
    | _ => { s with starter := s.starter.next (.caller raises) }
  | .server raises, s =>
    match s.starter.serverThreads 0 with
    | .start _ => s.startServing raises s.start
    | _ => { s with starter := s.starter.next (.server 0 raises) }
  | .monitor reachable, s => { s with starter := s.starter.next (.monitor 0 reachable) }

def step : Step Backed BackedTurn Unit := fun e s => ((), s.next e)

end Backed

abbrev BackedStep := Transition Backed BackedTurn Unit

namespace Backed

variable {s : Backed} {e : BackedTurn}

/-! ## The backing server refines the one that the starter knows -/

theorem starter_next (e : BackedTurn) (s : Backed) :
    (s.next e).starter = s.starter ∨ ∃ turn, (s.next e).starter = s.starter.next turn := by
  cases e with
  | stopServer => exact .inr ⟨.stopServer, rfl⟩
  | caller raises =>
    simp only [next]
    split
    · cases hstop : s.stop with
      | ended raised => exact .inr ⟨.caller raised, rfl⟩
      | test | getShutdown | request | wait => exact .inl rfl
    · exact .inr ⟨.caller raises, rfl⟩
  | server raises =>
    simp only [next]
    split
    · cases hstart : s.start with
      | ended raised => exact .inr ⟨.server 0 raised, rfl⟩
      | construct | publish | enter | serve | resetRequest | setShutDown | close | unpublish => exact .inl rfl
    · exact .inr ⟨.server 0 raises, rfl⟩
  | monitor reachable => exact .inr ⟨.monitor 0 reachable, rfl⟩

/-- Every run is, for the fields of the starter, a run of the starter. -/
theorem exists_starter_run (es : List BackedTurn) :
    ∃ turns, (final step es .init).starter = final Starter.step turns .init := by
  refine final_invariant (I := fun s => ∃ turns, Backed.starter s = final Starter.step turns .init)
    (fun e s hs => ?_) es ⟨_, rfl⟩
  obtain ⟨turns, hturns⟩ := hs
  rcases starter_next e s with hsame | ⟨turn, hturn⟩
  · exact ⟨turns, hsame.trans hturns⟩
  · exact ⟨turns ++ [turn], by rw [final_snoc, ← hturns]; exact hturn⟩

/-! ## The socket server -/

/-- What `start` has done where it is. -/
def Phase (s : Backed) : Start → Prop
  | .construct | .publish =>
    s.published = false ∧ s.isShutDown = false ∧ (s.stop = .test ∨ s.stop.hasEnded = true)
  | .enter | .serve | .resetRequest _ | .setShutDown _ => s.published = true ∧ s.isShutDown = false
  | .close _ | .unpublish _ | .ended _ => True

theorem phase_init : init.Phase init.start := ⟨rfl, rfl, .inl rfl⟩

theorem phase_startServing (h : s.Phase s.start) (raises : Bool) :
    (s.startServing raises s.start).Phase (s.startServing raises s.start).start := by
  cases hstart : s.start with
  | construct =>
    rw [hstart] at h
    cases raises with
    | true => trivial
    | false => exact h
  | publish =>
    rw [hstart] at h
    exact ⟨rfl, h.2.1⟩
  | enter =>
    rw [hstart] at h
    exact ⟨h.1, rfl⟩
  | serve =>
    rw [hstart] at h
    simp only [startServing]
    split
    · exact h
    · split
      · exact h
      · exact h
  | resetRequest raised =>
    rw [hstart] at h
    exact h
  | setShutDown raised => trivial
  | close raised => cases raises <;> trivial
  | unpublish raised => trivial
  | ended raised =>
    show s.Phase s.start
    exact h

/-- A turn of `stop` before `start` has published the socket server finds none, and any other one leaves
the phase of `start` as it is. -/
theorem phase_stopServing (h : s.Phase s.start) :
    (s.stopServing s.stop).Phase (s.stopServing s.stop).start := by
  have hkeeps : ∀ stop request, (s.stop = .test ∨ s.stop.hasEnded = true → stop.hasEnded = true ∨ s.published = true) →
      Phase { s with stop, shutdownRequest := request } s.start := by
    intro stop request hstop
    cases hstart : s.start with
    | construct | publish =>
      rw [hstart] at h
      obtain ⟨hpublished, hshut, htest⟩ := h
      refine ⟨hpublished, hshut, .inr ?_⟩
      rcases hstop htest with hended | htrue
      · exact hended
      · exact nomatch hpublished.symm.trans htrue
    | enter | serve | resetRequest | setShutDown =>
      rw [hstart] at h
      exact h
    | close | unpublish | ended => trivial
  cases hstop : s.stop with
  | test =>
    apply hkeeps
    intro _
    cases s.published with
    | true => exact .inr rfl
    | false => exact .inl rfl
  | getShutdown =>
    apply hkeeps
    intro _
    cases s.published with
    | true => exact .inr rfl
    | false => exact .inl rfl
  | request => exact hkeeps _ _ (by rw [hstop]; rintro (h | h) <;> cases h)
  | wait => exact hkeeps _ _ (by rw [hstop]; rintro (h | h) <;> cases h)
  | ended raised => exact h

theorem phase_next (h : s.Phase s.start) (e : BackedTurn) : (s.next e).Phase (s.next e).start := by
  cases e with
  | stopServer => exact h
  | caller raises =>
    simp only [next]
    split
    · exact phase_stopServing h
    · exact h
  | server raises =>
    simp only [next]
    split
    · exact phase_startServing h raises
    · exact h
  | monitor reachable => exact h

/-! ## The end of `stop` -/

/-- The server thread publishes its socket server behind the test of `stop`. -/
def PublishesLate (s : Backed) : BackedTurn → Prop
  | .server _ => (∃ k, s.starter.serverThreads 0 = .start k) ∧ s.start = .publish ∧ s.stop ≠ .test
  | _ => False

theorem PublishesLate.not_test (h : s.PublishesLate e) : s.start = .publish ∧ s.stop ≠ .test := by
  cases e with
  | server raises => exact h.2
  | stopServer | caller | monitor => exact h.elim

/-- When `stop` has ended, the server thread is not in `serve_forever` and does not enter it next. -/
def Stopped (s : Backed) : Prop := s.stop.hasEnded = true → s.start.willServe = false

theorem stopped_stopServing (h : s.Phase s.start) (hstopped : s.Stopped) : (s.stopServing s.stop).Stopped := by
  have hserve : s.start.willServe = true → s.published = true ∧ s.isShutDown = false := by
    intro hserve
    cases hstart : s.start with
    | enter | serve | resetRequest | setShutDown =>
      rw [hstart] at h
      exact h
    | construct | publish | close | unpublish | ended =>
      rw [hstart] at hserve
      cases hserve
  cases hstop : s.stop with
  | test | getShutdown =>
    intro hended
    by_contra hwill
    simp [stopServing, (hserve (Bool.ne_false_iff.1 hwill)).1, Stop.hasEnded] at hended
  | request => nofun
  | wait =>
    intro hended
    by_contra hwill
    simp [stopServing, (hserve (Bool.ne_false_iff.1 hwill)).2, Stop.hasEnded] at hended
  | ended raised => exact hstopped

theorem stopped_startServing_iff (h : s.Phase s.start) (hstopped : s.Stopped) (raises : Bool) :
    (s.startServing raises s.start).Stopped ↔ ¬ (s.start = .publish ∧ s.stop ≠ .test) := by
  cases hstart : s.start with
  | construct =>
    refine iff_of_true ?_ (fun hlate => nomatch hlate.1)
    cases raises <;> exact fun _ => rfl
  | publish =>
    rw [hstart] at h
    constructor
    · rintro hs ⟨-, htest⟩
      exact nomatch hs (h.2.2.resolve_left htest)
    · intro htest hended
      have htest : s.stop = .test := by
        by_contra hne
        exact htest ⟨rfl, hne⟩
      exact nomatch hended.symm.trans (congrArg Stop.hasEnded htest)
  | enter | serve | resetRequest | setShutDown =>
    rw [Stopped, hstart] at hstopped
    refine iff_of_true (fun hended => nomatch hstopped hended) (fun hlate => nomatch hlate.1)
  | close raised =>
    refine iff_of_true ?_ (fun hlate => nomatch hlate.1)
    cases raises <;> exact fun _ => rfl
  | unpublish raised => exact iff_of_true (fun _ => rfl) (fun hlate => nomatch hlate.1)
  | ended raised => exact iff_of_true hstopped (fun hlate => nomatch hlate.1)

theorem stopped_next_iff (h : s.Phase s.start) (hstopped : s.Stopped) (e : BackedTurn) :
    (s.next e).Stopped ↔ ¬ s.PublishesLate e := by
  cases e with
  | stopServer => exact iff_of_true hstopped id
  | caller raises =>
    refine iff_of_true ?_ id
    simp only [next]
    split
    · exact stopped_stopServing h hstopped
    · exact hstopped
  | server raises =>
    simp only [next, PublishesLate]
    split
    · rename_i k hthread
      rw [stopped_startServing_iff h hstopped, hthread]
      simp
    · rename_i hthread
      exact iff_of_true hstopped fun hlate => hthread _ hlate.1.choose_spec
  | monitor reachable => exact iff_of_true hstopped id

/-- In every state of a run the end of `stop` is the end of `serve_forever` iff the server thread never
publishes its socket server behind the test of `stop`. -/
theorem stopped_run_iff (es : List BackedTurn) :
    (∀ before, before <+: es → (final step before .init).Stopped) ↔
      ∀ x ∈ transitions step es .init, ¬ x.before.PublishesLate x.event :=
  everywhere_iff (J := fun s : Backed => s.Phase s.start) (C := fun s e => ¬ s.PublishesLate e) phase_init
    (fun hended => nomatch hended) (fun e _ h => phase_next h e)
    (fun e _ h hstopped => stopped_next_iff h hstopped e) es

/-! ## The return of `stop_server` -/

theorem init_starter_server : init.starter.server = some 0 := rfl

theorem init_starter_caller : init.starter.caller = .startServer (.startMonitor 0) := rfl

/-- `stop_server` is behind its call of `stop` only when `stop` has ended. -/
def Ordered (s : Backed) : Prop :=
  s.starter.server = none ∨ s.starter.caller.behindStop = true → s.stop.hasEnded = true

theorem ordered_init : init.Ordered := by
  rw [Ordered, init_starter_server, init_starter_caller]
  rintro (h | h) <;> cases h

theorem behindStop_of_next {s : Starter} (turn : Turn) :
    (s.caller = .stopServer .stop → ∀ raises, turn ≠ .caller raises) →
      (s.next turn).server = none ∨ (s.next turn).caller.behindStop = true →
      s.server = none ∨ s.caller.behindStop = true := by
  refine Starter.next_cases (motive := fun turn s' =>
    (s.caller = .stopServer .stop → ∀ raises, turn ≠ .caller raises) →
      s'.server = none ∨ s'.caller.behindStop = true → s.server = none ∨ s.caller.behindStop = true) turn
    (fun _ _ h => h) (fun _ _ h => h.imp_right nofun) (fun _ _ h => h.imp_right nofun) ?_ ?_ (fun _ _ _ h => h)
    (fun _ _ _ h => h)
  · rintro raises statement hc - h
    cases statement with
    | construct =>
      cases raises with
      | true => exact h.imp_right nofun
      | false => rcases h with h | h <;> cases h
    | clear | resetError | assignThread | startThread | startMonitor | sleep => exact h.imp_right nofun
  · rintro raises statement hc hstop h
    cases statement with
    | getStop =>
      cases hserver : s.server with
      | none => exact .inl rfl
      | some server =>
        simp only [Starter.stopServer, hserver] at h
        rcases h with h | h <;> cases h
    | stop => exact absurd rfl (hstop hc raises)
    | join | clear | dropServer | dropThread | dropError =>
      rw [hc]
      exact .inr rfl

theorem behindStop_of_returns {s : Starter} {turn : Turn} {statement : StopServer}
    (hc : s.caller = .stopServer statement) (hidle : (s.next turn).caller = .idle) :
    s.server = none ∨ s.caller.behindStop = true := by
  cases turn with
  | startServer | stopServer =>
    rw [Starter.next, if_neg (by rw [hc]; rintro ⟨⟩), hc] at hidle
    cases hidle
  | caller raises =>
    simp only [Starter.next, hc] at hidle
    cases statement with
    | getStop =>
      cases hserver : s.server with
      | none => exact .inl rfl
      | some server => simp [Starter.stopServer, hserver] at hidle
    | stop => cases hidle
    | join | clear | dropServer | dropThread => cases hidle
    | dropError =>
      rw [hc]
      exact .inr rfl
  | server n raises => cases hc.symm.trans hidle
  | monitor n reachable => cases hc.symm.trans hidle

theorem hasEnded_next (h : s.stop.hasEnded = true) (e : BackedTurn) : (s.next e).stop.hasEnded = true := by
  cases e with
  | stopServer => exact h
  | caller raises =>
    simp only [next]
    split
    · cases hstop : s.stop with
      | ended raised => exact h
      | test | getShutdown | request | wait =>
        rw [hstop] at h
        cases h
    · exact h
  | server raises =>
    simp only [next]
    split
    · cases hstart : s.start <;> exact h
    · exact h
  | monitor reachable => exact h

theorem ordered_next (h : s.Ordered) (e : BackedTurn) : (s.next e).Ordered := by
  by_cases hended : s.stop.hasEnded = true
  · exact fun _ => hasEnded_next hended e
  -- a call of `stop` that has not ended does not return to `stop_server`
  intro hbehind
  refine absurd (h ?_) hended
  cases e with
  | stopServer => exact behindStop_of_next .stopServer (fun _ _ => nofun) hbehind
  | caller raises =>
    simp only [next] at hbehind
    split at hbehind
    · cases hstop : s.stop with
      | ended raised =>
        rw [hstop] at hended
        exact absurd rfl hended
      | test | getShutdown | request | wait =>
        rw [hstop] at hbehind
        exact hbehind
    · rename_i hstop
      exact behindStop_of_next (.caller raises) (fun hc => absurd hc hstop) hbehind
  | server raises =>
    simp only [next] at hbehind
    split at hbehind
    · cases hstart : s.start with
      | ended raised =>
        rw [hstart] at hbehind
        exact behindStop_of_next (.server 0 raised) (fun _ _ => nofun) hbehind
      | construct | publish | enter | serve | resetRequest | setShutDown | close | unpublish =>
        rw [hstart] at hbehind
        exact hbehind
    · exact behindStop_of_next (.server 0 raises) (fun _ _ => nofun) hbehind
  | monitor reachable => exact behindStop_of_next (.monitor 0 reachable) (fun _ _ => nofun) hbehind

theorem ordered_run (es : List BackedTurn) : (final step es .init).Ordered :=
  final_invariant (I := Ordered) (fun e _ h => ordered_next h e) es ordered_init

/-- `stop_server` returns, or raises. -/
def StopReturns (x : BackedStep) : Prop :=
  (∃ statement, x.before.starter.caller = .stopServer statement) ∧ x.after.starter.caller = .idle

/-- Once `stop_server` has returned, the backing server is not in `serve_forever`. -/
def StopKept (t : List BackedStep) (s : Backed) : Prop := (∃ x ∈ t, StopReturns x) → s.start.serves = false

theorem Ordered.hasEnded_of_returns (h : s.Ordered) (hr : StopReturns ⟨s, e, (), s.next e⟩) :
    s.stop.hasEnded = true := by
  obtain ⟨⟨statement, hstop⟩, hreturned⟩ := hr
  have hc : s.starter.caller = .stopServer statement := hstop
  have hidle : (s.next e).starter.caller = .idle := hreturned
  apply h
  rcases starter_next e s with hsame | ⟨turn, hturn⟩
  · rw [hsame, hc] at hidle
    cases hidle
  · rw [hturn] at hidle
    exact behindStop_of_returns hc hidle

theorem hasEnded_of_returned (es : List BackedTurn) : (∃ x ∈ transitions step es .init, StopReturns x) →
    (final step es .init).stop.hasEnded = true := by
  refine transitions_invariant_of (I := fun t s => (∃ x ∈ t, StopReturns x) → s.stop.hasEnded = true) ordered_run
    (by simp) (fun t e s hs hended => ?_) es
  rintro ⟨x, hx, hreturns⟩
  refine hasEnded_next ?_ e
  rcases List.mem_append.1 hx with hx | hx
  · exact hended ⟨x, hx, hreturns⟩
  · obtain rfl := List.mem_singleton.1 hx
    exact hs.hasEnded_of_returns hreturns

/-- In a run in which the server thread does not publish its socket server behind the test of `stop`, no
stop is lost. -/
theorem stopKept_run (es : List BackedTurn) (h : ∀ x ∈ transitions step es .init, ¬ x.before.PublishesLate x.event) :
    ∀ before, before <+: es → StopKept (transitions step before .init) (final step before .init) := by
  intro before hbefore hreturned
  have hwill := (stopped_run_iff es).2 h before hbefore (hasEnded_of_returned before hreturned)
  cases hstart : (final step before .init).start with
  | serve | resetRequest | setShutDown =>
    rw [hstart] at hwill
    cases hwill
  | construct | publish | enter | close | unpublish | ended => rfl

/-- `stop_server` is called while the server thread is in `serve_forever`. -/
def stopOfServing : List BackedTurn :=
  [.caller false, .caller false, .server false, .server false, .server false, .server false, .server false,
    .stopServer, .caller false, .caller false, .caller false, .caller false, .server false, .server false,
    .server false, .caller false, .caller false, .caller false, .caller false, .caller false, .caller false,
    .caller false]

theorem stopKept_stopOfServing :
    (final step stopOfServing .init).starter.server = none ∧
      StopKept (transitions step stopOfServing .init) (final step stopOfServing .init) := by
  refine ⟨rfl, stopKept_run stopOfServing (fun x hx hlate => ?_) stopOfServing List.prefix_rfl⟩
  have hpublish : ∀ x ∈ transitions step stopOfServing .init, x.before.start = .publish → x.before.stop = .test := by
    decide
  exact hlate.not_test.2 (hpublish x hx hlate.not_test.1)

/-- `stop_server` is called while the server thread has its socket server, but has not published it, and
returns before the server thread is given another turn. -/
def stopOfBound : List BackedTurn :=
  [.caller false, .caller false, .server false, .server false, .server false, .stopServer, .caller false,
    .caller false, .caller false, .caller false, .caller false, .caller false, .caller false, .caller false,
    .server false, .server false]

/-- The server thread goes on to `serve_forever` behind the return of `stop_server`. -/
theorem not_stopKept_stopOfBound :
    ¬ StopKept (transitions step stopOfBound .init) (final step stopOfBound .init) := by
  intro h
  have hreturned : ∃ x ∈ transitions step stopOfBound .init, StopReturns x := by
    have hparts : stopOfBound = stopOfBound.take 13 ++ BackedTurn.caller false :: stopOfBound.drop 14 := rfl
    rw [hparts, transitions_append, transitions_cons]
    exact ⟨_, List.mem_append_right _ List.mem_cons_self, ⟨.dropError, rfl⟩, rfl⟩
  have hserves : (final step stopOfBound .init).start.serves = true := rfl
  rw [h hreturned] at hserves
  cases hserves

end Backed

end Cursus
