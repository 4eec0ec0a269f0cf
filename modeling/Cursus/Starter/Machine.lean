/-
`Starter` of `cursus/starter.py` as threads that interleave between their accesses to its fields: the
caller of `start_server` and `stop_server`, and for every start a server thread and a monitor thread.
Where a thread is is named by the statement it executes next.
-/
import Cursus.Run.Machine

namespace Cursus

open Cursus.Run

/-! ## Threads -/

/-- A server thread, in `_run_server`. -/
inductive ServerThread
  | unstarted
  | testServer
  | getStart
  | start (server : ℕ)
  | setError
  | returned
  | failed
  deriving DecidableEq

/-- `is_alive`. -/
def ServerThread.isAlive : ServerThread → Bool
  | .unstarted | .returned | .failed => false
  | _ => true

/-- A monitor thread, in `_monitor_server_readiness`; in the end it has set the event itself, or not. -/
inductive Monitor
  | unstarted
  | testThread
  | testAlive
  | testError
  | probe
  | probing
  | testReady
  | setReady
  | sleep
  | ended (set : Bool)
  deriving DecidableEq

/-- The statements of `start_server`; `n` counts the starts. -/
inductive StartServer
  | construct
  | clear (n : ℕ)
  | resetError (n : ℕ)
  | assignThread (n : ℕ)
  | startThread (n : ℕ)
  | startMonitor (n : ℕ)
  | sleep (n : ℕ)
  deriving DecidableEq

/-- The statements of `stop_server`. -/
inductive StopServer
  | getStop
  | stop
  | join
  | clear
  | dropServer
  | dropThread
  | dropError
  deriving DecidableEq

inductive Caller
  | idle
  | startServer (statement : StartServer)
  | stopServer (statement : StopServer)
  deriving DecidableEq

/-! ## The machine -/

/-- The fields of `Starter`, and where its threads are. A backing server and a server thread are known
by the number of the start that made them. -/
structure Starter where
  server : Option ℕ
  serverThread : Option ℕ
  serverError : Bool
  readyEvent : Bool
  caller : Caller
  starts : ℕ
  serverThreads : ℕ → ServerThread
  monitors : ℕ → Monitor

/-- `__init__`. -/
def Starter.init : Starter := ⟨none, none, false, false, .idle, 0, fun _ => .unstarted, fun _ => .unstarted⟩

/-- A thread is given a turn. What is left to the surroundings: whether the class of the server or `start`
or `stop` of the server raises, and whether a probe reaches the endpoint. -/
inductive Turn
  | startServer
  | stopServer
  | caller (raises : Bool)
  | server (n : ℕ) (raises : Bool)
  | monitor (n : ℕ) (reachable : Bool)
  deriving DecidableEq

/-- How a call of `start_server` ends: it returns its server thread, raises for the error of a server thread, or
raises what the class of the server raises. -/
inductive Started
  | thread (n : ℕ)
  | runtimeError
  | raised
  deriving DecidableEq

namespace Starter

def setServerThread (s : Starter) (n : ℕ) (t : ServerThread) : Starter :=
  { s with serverThreads := Function.update s.serverThreads n t }

def setMonitor (s : Starter) (n : ℕ) (m : Monitor) : Starter :=
  { s with monitors := Function.update s.monitors n m }

/-- One statement of `start_server`. -/
def startServer (raises : Bool) (s : Starter) : StartServer → Starter
  | .construct =>
    if raises then { s with caller := .idle }
    else { s with server := some s.starts, starts := s.starts + 1, caller := .startServer (.clear s.starts) }
  | .clear n => { s with readyEvent := false, caller := .startServer (.resetError n) }
  | .resetError n => { s with serverError := false, caller := .startServer (.assignThread n) }
  | .assignThread n => { s with serverThread := some n, caller := .startServer (.startThread n) }
  | .startThread n => { s.setServerThread n .testServer with caller := .startServer (.startMonitor n) }
  | .startMonitor n => { s.setMonitor n .testThread with caller := .startServer (.sleep n) }
  | .sleep _ => { s with caller := .idle }

/-- How a call of `start_server` ends, when it does so in the turn. -/
def started (s : Starter) : Turn → Option Started
  | .caller raises =>
    match s.caller with
    | .startServer .construct => if raises then some .raised else none
    | .startServer (.sleep n) => some (if s.serverError then .runtimeError else .thread n)
    | _ => none
  | _ => none

/-- One statement of `stop_server`. -/
def stopServer (raises : Bool) (s : Starter) : StopServer → Starter
  | .getStop =>
    match s.server with
    | none => { s with caller := .idle }
    | some _ => { s with caller := .stopServer .stop }
  | .stop => { s with caller := .stopServer (if raises then .clear else .join) }
  -- a join ends with its thread or with its timeout
  | .join => { s with caller := .stopServer .clear }
  | .clear => { s with readyEvent := false, caller := .stopServer .dropServer }
  | .dropServer => { s with server := none, caller := .stopServer .dropThread }
  | .dropThread => { s with serverThread := none, caller := .stopServer .dropError }
  | .dropError => { s with serverError := false, caller := .idle }

/-- Where a server thread is behind its next statement of `_run_server`. -/
def serverThreadAfter (raises : Bool) (s : Starter) : ServerThread → ServerThread
  | .testServer => if s.server = none then .setError else .getStart
  | .getStart =>
    match s.server with
    -- `None` has no `start`
    | none => .setError
    | some server => .start server
  | .start _ => if raises then .setError else .returned
  | .setError => .failed
  | .unstarted => .unstarted
  | .returned => .returned
  | .failed => .failed

/-- One statement of `_run_server`. -/
def runServer (n : ℕ) (raises : Bool) (s : Starter) : Starter :=
  { s.setServerThread n (s.serverThreadAfter raises (s.serverThreads n)) with
    serverError := s.serverError || s.serverThreads n == .setError }

/-- Where a monitor thread is behind its next statement of `_monitor_server_readiness`. -/
def monitorAfter (reachable : Bool) (s : Starter) : Monitor → Monitor
  | .testThread => if s.serverThread = none then .ended false else .testAlive
  | .testAlive =>
    match s.serverThread with
    -- `None` has no `is_alive`
    | none => .ended false
    | some k => if (s.serverThreads k).isAlive then .testError else .ended false
  | .testError => if s.serverError then .ended false else .probe
  | .probe => .probing
  | .probing => if reachable then .testReady else .sleep
  | .testReady => if s.readyEvent then .ended false else .setReady
  | .setReady => .ended true
  | .sleep => .testThread
  | .unstarted => .unstarted
  | .ended set => .ended set

/-- One statement of `_monitor_server_readiness`. -/
def monitorServerReadiness (n : ℕ) (reachable : Bool) (s : Starter) : Starter :=
  { s.setMonitor n (s.monitorAfter reachable (s.monitors n)) with
    readyEvent := s.readyEvent || s.monitors n == .setReady }

/-- A turn of a thread that is elsewhere does nothing. -/
def next : Turn → Starter → Starter
  | .startServer, s => if s.caller = .idle then { s with caller := .startServer .construct } else s
  | .stopServer, s => if s.caller = .idle then { s with caller := .stopServer .getStop } else s
  | .caller raises, s =>
    match s.caller with
    | .idle => s
    | .startServer statement => s.startServer raises statement
    | .stopServer statement => s.stopServer raises statement
  | .server n raises, s => s.runServer n raises
  | .monitor n reachable, s => s.monitorServerReadiness n reachable

def step : Step Starter Turn (Option Started) := fun e s => (s.started e, s.next e)

end Starter

abbrev StarterStep := Transition Starter Turn (Option Started)

namespace Starter

abbrev taken (s : Starter) (e : Turn) : StarterStep := ⟨s, e, s.started e, s.next e⟩

/-- `start_server` is called. -/
def StartBegins (x : StarterStep) : Prop := x.before.caller = .idle ∧ x.event = .startServer

/-- `stop_server` is called. -/
def StopBegins (x : StarterStep) : Prop := x.before.caller = .idle ∧ x.event = .stopServer

variable {s : Starter} {n k : ℕ} {raises reachable : Bool}

/-! ## Single turns -/

/-- What a turn can do; a turn of a thread that is elsewhere leaves the state as it is. -/
theorem next_cases {motive : Turn → Starter → Prop} (e : Turn) (elsewhere : ∀ e, motive e s)
    (startBegins : s.caller = .idle → motive .startServer { s with caller := .startServer .construct })
    (stopBegins : s.caller = .idle → motive .stopServer { s with caller := .stopServer .getStop })
    (startServer : ∀ raises statement, s.caller = .startServer statement →
      motive (.caller raises) (s.startServer raises statement))
    (stopServer : ∀ raises statement, s.caller = .stopServer statement →
      motive (.caller raises) (s.stopServer raises statement))
    (server : ∀ n raises, motive (.server n raises) (s.runServer n raises))
    (monitor : ∀ n reachable, motive (.monitor n reachable) (s.monitorServerReadiness n reachable)) :
    motive e (s.next e) := by
  cases e with
  | startServer =>
    rw [Starter.next]
    split
    · exact startBegins (by assumption)
    · exact elsewhere _
  | stopServer =>
    rw [Starter.next]
    split
    · exact stopBegins (by assumption)
    · exact elsewhere _
  | caller raises =>
    cases hc : s.caller with
    | idle =>
      rw [Starter.next, hc]
      exact elsewhere _
    | startServer statement =>
      rw [Starter.next, hc]
      exact startServer raises statement hc
    | stopServer statement =>
      rw [Starter.next, hc]
      exact stopServer raises statement hc
  | server n raises => exact server n raises
  | monitor n reachable => exact monitor n reachable

theorem serverThreadAfter_eq_unstarted {t : ServerThread} :
    s.serverThreadAfter raises t = .unstarted ↔ t = .unstarted := by
  cases t with
  | testServer => simp only [serverThreadAfter]; split <;> simp
  | getStart => simp only [serverThreadAfter]; split <;> simp
  | start => simp only [serverThreadAfter]; split <;> simp
  | setError | unstarted | returned | failed => simp [serverThreadAfter]

theorem serverThreadAfter_eq_failed {t : ServerThread} :
    s.serverThreadAfter raises t = .failed ↔ t = .setError ∨ t = .failed := by
  cases t with
  | testServer => simp only [serverThreadAfter]; split <;> simp
  | getStart => simp only [serverThreadAfter]; split <;> simp
  | start => simp only [serverThreadAfter]; split <;> simp
  | setError | unstarted | returned | failed => simp [serverThreadAfter]

theorem monitorAfter_eq_unstarted {m : Monitor} : s.monitorAfter reachable m = .unstarted ↔ m = .unstarted := by
  cases m with
  | testThread => simp only [monitorAfter]; split <;> simp
  | testAlive => simp only [monitorAfter]; (repeat' split) <;> simp
  | testError => simp only [monitorAfter]; split <;> simp
  | probing => simp only [monitorAfter]; split <;> simp
  | testReady => simp only [monitorAfter]; split <;> simp
  | unstarted | probe | setReady | sleep | ended => simp [monitorAfter]

/-- A monitor ends without having set the event when its server thread is gone or dead, when there is an
error, and when the event is set already. -/
theorem monitorAfter_eq_ended {m : Monitor} :
    s.monitorAfter reachable m = .ended false ↔ m = .ended false ∨ (m = .testThread ∧ s.serverThread = none) ∨
      (m = .testAlive ∧ ∀ k ∈ s.serverThread, (s.serverThreads k).isAlive = false) ∨
      (m = .testError ∧ s.serverError = true) ∨ (m = .testReady ∧ s.readyEvent = true) := by
  cases m with
  | testThread => simp only [monitorAfter]; split <;> simp_all
  | testAlive => cases hthread : s.serverThread <;> simp [monitorAfter, hthread]
  | testError => simp [monitorAfter]
  | probing => simp only [monitorAfter]; split <;> simp
  | testReady => simp [monitorAfter]
  | unstarted | probe | setReady | sleep | ended => simp [monitorAfter]

end Starter

end Cursus
