/-
The `Starter` with a server behind it that `Starter.Shutdown` is about, and `start` and `stop` here: what its server
thread and its caller do with the server is a run of two threads, in which a turn there is up to three statements. So
a `stop_server` that waits for the server has the server thread end it.
-/
import Cursus.Socketserver.Server
import Cursus.Starter.Shutdown

namespace Cursus.Socketserver

open Cursus.Run Servers

/-- Where the server thread is. -/
def startPlace : Cursus.Start → Place
  | .construct => .start .construct
  | .publish => .start (.publish 0)
  | .enter => .start (.clear 0)
  | .serve => .start (.test 0)
  | .resetRequest _ => .start (.resetRequest 0)
  | .setShutDown _ => .start (.setShutDown 0)
  | .close _ => .start (.close 0)
  | .unpublish _ => .start .unpublish
  | .ended _ => .outside

/-- Where the caller is. -/
def stopPlace : Cursus.Stop → Place
  | .test => .stop .test
  | .getShutdown => .stop .getServer
  | .request => .stop (.request 0)
  | .wait => .stop (.wait 0)
  | .ended _ => .outside

/-- The server thread and the caller of a `Starter` as the threads `true` and `false`. -/
structure Backs (b : Backed) (threads : Servers.Threads Bool) : Prop where
  start : threads.place true = startPlace b.start
  stop : threads.place false = stopPlace b.stop
  server : threads.memory.server = bif b.published then some 0 else none
  made : b.start = .construct → threads.memory.made = 0
  shutdownRequest : threads.memory.shutdownRequest 0 = b.shutdownRequest
  isShutDown : threads.memory.isShutDown 0 = b.isShutDown

variable {b : Backed} {threads : Servers.Threads Bool}

theorem step_start (statement : Start) (h : threads.place true = .start statement) (raises : Bool) :
    (Servers.step (true, .next raises) threads).2 = ⟨(threads.memory.start raises statement).2,
      Function.update threads.place true (threads.memory.start raises statement).1⟩ := by
  simp only [Servers.step, interleave, h]
  rfl

theorem step_stop {statement : Stop} (h : threads.place false = .stop statement) :
    (Servers.step (false, .next false) threads).2 = ⟨(threads.memory.stop statement).2.2,
      Function.update threads.place false (threads.memory.stop statement).2.1⟩ := by
  simp only [Servers.step, interleave, h]
  rfl

theorem backs_startServing (h : Backs b threads) (raises : Bool) :
    ∃ turns, Backs (b.startServing raises b.start) (final Servers.step turns threads) := by
  obtain ⟨hstart, hstop, hserver, hmade, hrequest, hshut⟩ := h
  cases hb : b.start with
  | construct | close =>
    rw [hb] at hstart
    refine ⟨[(true, .next raises)], ?_⟩
    rw [final_cons, final_nil, step_start _ hstart]
    cases raises <;> constructor <;> simp_all [Backed.startServing, Servers.start, startPlace]
  | publish | enter | resetRequest | setShutDown | unpublish =>
    rw [hb] at hstart
    refine ⟨[(true, .next raises)], ?_⟩
    rw [final_cons, final_nil, step_start _ hstart]
    constructor <;> simp_all [Backed.startServing, Servers.start, startPlace]
  | serve =>
    rw [hb] at hstart
    cases hasked : b.shutdownRequest with
    | true =>
      refine ⟨[(true, .next raises)], ?_⟩
      rw [final_cons, final_nil, step_start _ hstart]
      cases raises <;> constructor <;> simp_all [Backed.startServing, Servers.start, startPlace]
    | false =>
      have htest : (Servers.step (true, .next raises) threads).2 =
          ⟨threads.memory, Function.update threads.place true (.start (.select 0))⟩ := by
        rw [step_start _ hstart]
        simp [Servers.start, hrequest, hasked]
      have hselect : (Servers.step (true, .next raises)
          ⟨threads.memory, Function.update threads.place true (.start (.select 0))⟩).2 =
          ⟨threads.memory, Function.update threads.place true
            (.start (bif raises then .resetRequest 0 else .handle 0))⟩ := by
        rw [step_start (.select 0) (by simp)]
        cases raises <;> simp [Servers.start, hrequest, hasked]
      -- a `select` that raises, or one round of the loop
      cases raises with
      | true =>
        refine ⟨[(true, .next true), (true, .next true)], ?_⟩
        rw [final_cons, htest, final_cons, hselect, final_nil]
        constructor <;> simp_all [Backed.startServing, startPlace]
      | false =>
        refine ⟨[(true, .next false), (true, .next false), (true, .next false)], ?_⟩
        rw [final_cons, htest, final_cons, hselect, final_cons, step_start (.handle 0) (by simp), final_nil]
        constructor <;> simp_all [Backed.startServing, Servers.start, startPlace]
  | ended raised =>
    refine ⟨[], ?_⟩
    constructor <;> simp_all [Backed.startServing, startPlace]

theorem backs_stopServing (h : Backs b threads) : ∃ turns, Backs (b.stopServing b.stop) (final Servers.step turns threads) := by
  obtain ⟨hstart, hstop, hserver, hmade, hrequest, hshut⟩ := h
  cases hb : b.stop with
  | test | getShutdown =>
    rw [hb] at hstop
    refine ⟨[(false, .next false)], ?_⟩
    rw [final_cons, final_nil, step_stop hstop]
    cases hpublished : b.published <;> constructor <;>
      simp_all [Backed.stopServing, Servers.stop, stopPlace]
  | request | wait =>
    rw [hb] at hstop
    refine ⟨[(false, .next false)], ?_⟩
    rw [final_cons, final_nil, step_stop hstop]
    cases hshutDown : b.isShutDown <;> constructor <;> simp_all [Backed.stopServing, Servers.stop, stopPlace]
  | ended raised =>
    refine ⟨[], ?_⟩
    constructor <;> simp_all [Backed.stopServing, stopPlace]

/-- Every turn of a `Starter` and its server is a run of the two threads. -/
theorem backs_step (h : Backs b threads) (e : BackedTurn) :
    ∃ turns, Backs (Backed.step e b).2 (final Servers.step turns threads) := by
  have hstarter : ∀ starter, ∃ turns, Backs { b with starter := starter } (final Servers.step turns threads) :=
    fun _ => ⟨[], h.start, h.stop, h.server, h.made, h.shutdownRequest, h.isShutDown⟩
  cases e with
  | stopServer | monitor => exact hstarter _
  | caller raises =>
    simp only [Backed.step, Backed.next]
    split
    · exact backs_stopServing h
    · exact hstarter _
  | server raises =>
    simp only [Backed.step, Backed.next]
    split
    · exact backs_startServing h raises
    · exact hstarter _

theorem backs_run (es : List BackedTurn) :
    ∃ turns, Backs (final Backed.step es .init) (final Servers.step turns Servers.init) := by
  refine final_invariant (I := fun b => ∃ turns, Backs b (final Servers.step turns Servers.init)) (fun e b h => ?_) es
    ⟨[(true, .start), (false, .stop)], rfl, rfl, rfl, fun _ => rfl, rfl, rfl⟩
  obtain ⟨turns, hturns⟩ := h
  obtain ⟨turns', hturns'⟩ := backs_step hturns e
  refine ⟨turns ++ turns', ?_⟩
  rwa [final_append]

/-- The server thread has published the server before the caller waits for it. -/
theorem start_ne_publish (es : List BackedTurn) (hwait : (final Backed.step es .init).stop = .wait) :
    (final Backed.step es .init).start ≠ .publish := by
  intro hpublish
  have hstep : ∀ e (b : Backed), b.Phase b.start → (Backed.step e b).2.Phase (Backed.step e b).2.start :=
    fun e _ h => Backed.phase_next h e
  have hphase := final_invariant hstep es Backed.phase_init
  rw [hpublish] at hphase
  obtain ⟨-, -, hstop⟩ := hphase
  rw [hwait] at hstop
  simp [Cursus.Stop.hasEnded] at hstop

theorem willServe_of_runs {start : Cursus.Start} (h : runs (startPlace start) = some 0) (hpublish : start ≠ .publish) :
    start.willServe = true := by
  cases start with
  | publish => exact absurd rfl hpublish
  | enter | serve | resetRequest _ | setShutDown _ => rfl
  | construct | close _ | unpublish _ | ended _ => cases h

theorem exists_of_startPlace {start : Cursus.Start} (h : startPlace start = .start (.setShutDown 0)) :
    ∃ raised, start = .setShutDown raised := by
  cases start with
  | setShutDown raised => exact ⟨raised, rfl⟩
  | construct | publish | enter | serve | resetRequest _ | close _ | unpublish _ | ended _ => cases h

/-- Whenever `stop_server` waits for the server behind it, the server has ended, or the server thread is in
`serve_forever` or enters it next, with the request to end pending or just taken. -/
theorem stop_server_waits_for_end (es : List BackedTurn) (hwait : (final Backed.step es .init).stop = .wait) :
    (final Backed.step es .init).isShutDown = true ∨
      (final Backed.step es .init).start.willServe = true ∧
        ((final Backed.step es .init).shutdownRequest = true ∨
          ∃ raised, (final Backed.step es .init).start = .setShutDown raised) := by
  obtain ⟨turns, hbacks⟩ := backs_run es
  have hplace : (final Servers.step turns Servers.init).place false = .stop (.wait 0) := by
    rw [hbacks.stop, hwait]
    rfl
  obtain ⟨-, hwaited⟩ := waited_run turns
  obtain ⟨k, hshut | ⟨hruns, hasked⟩⟩ := hwaited.wait false 0 hplace
  · exact .inl (hbacks.isShutDown.symm.trans hshut)
  · cases k with
    | false =>
      rw [hplace] at hruns
      cases hruns
    | true =>
      rw [hbacks.start] at hruns hasked
      rw [hbacks.shutdownRequest] at hasked
      exact .inr ⟨willServe_of_runs hruns (start_ne_publish es hwait), hasked.imp_right exists_of_startPlace⟩

/-- The server thread serves, and `stop_server` waits for its end. -/
def stopWaits : List BackedTurn :=
  [.server false, .server false, .server false, .server false, .server false, .caller false, .caller false, .stopServer,
    .caller false, .caller false, .caller false, .caller false]

theorem stop_server_waits_for_end_stopWaits :
    (final Backed.step stopWaits .init).isShutDown = true ∨
      (final Backed.step stopWaits .init).start.willServe = true ∧
        ((final Backed.step stopWaits .init).shutdownRequest = true ∨
          ∃ raised, (final Backed.step stopWaits .init).start = .setShutDown raised) :=
  stop_server_waits_for_end stopWaits rfl

end Cursus.Socketserver
